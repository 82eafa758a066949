import Aspects.Proofs.Caching.Soundness
import Aspects.Proofs.Lookup.Chains
import Aspects.Proofs.Observing.Chains

/-!
# Advisors that only observe

If every advisor of a configuration has advice that observes, and no adapter but the
built-in ones claims to understand that advice, then working a chain out cannot fail and
gives links that observe. The adapters are looked at anew for every advisor, after user
code may have run; they are still the same, because adapters that were given out never
change. Chains in the cache are of this sort too, for they were made from the advisors
of now.
-/

namespace Aspects

variable {σ : Type} {α β : Type} {code : Code σ} {start : World σ}

/-! ## What advice becomes -/

/-- What advice becomes in a chain, if no adapter of the user's takes part. -/
def Advice.interception? : Advice → Option Interception
  | interceptor i => some i.action
  | before body => some (.before body)
  | afterReturning body filter => some (.afterReturning body filter)
  | afterThrowing watcher filter => some (.afterThrowing watcher filter)
  | after body => some (.after body)
  | around body => some (.around body)
  | custom .. => none

/-- The advice becomes an interceptor that observes. -/
def Advice.Observes (env : Env σ) (a : Advice) : Prop :=
  ∃ i, a.interception? = some i ∧ i.Observes env

namespace Adapter

/-- A built-in adapter makes of the advice that it understands what it becomes. -/
theorem interception_of_supports {adapter : Adapter} (h : adapter ∈ builtIn) {a : Advice}
    (hs : adapter.supports a) :
    ∃ i, a.interception? = some i ∧ adapter.interception? a = .ok i := by
  simp only [builtIn, List.mem_cons, List.not_mem_nil, or_false] at h
  rcases h with rfl | rfl | rfl | rfl | rfl <;> cases a <;>
    first
    | exact ⟨_, rfl, rfl⟩
    | cases hs

/-- Advice that is no interceptor already is understood by a built-in adapter, unless it
is the user's. -/
theorem anySupports_of_interception {adapters : List Adapter} {a : Advice} {i : Interception}
    (h : a.interception? = some i) (hbegins : builtIn <+: adapters) :
    anySupports adapters a = true := by
  have hfound {adapter : Adapter} (hmem : adapter ∈ builtIn) (hs : adapter.supports a = true) :
      anySupports adapters a = true := by
    unfold anySupports
    rw [List.any_eq_true.mpr ⟨adapter, hbegins.subset hmem, hs⟩, Bool.or_true]
  cases a with
  | interceptor own => rfl
  | before body => exact @hfound .before (by simp [builtIn]) rfl
  | afterReturning body filter => exact @hfound .afterReturning (by simp [builtIn]) rfl
  | afterThrowing watcher filter => exact @hfound .afterThrowing (by simp [builtIn]) rfl
  | after body => exact @hfound .after (by simp [builtIn]) rfl
  | around body => exact @hfound .around (by simp [builtIn]) rfl
  | custom id tag => cases h

end Adapter

/-! ## Chains -/

/-- The number stands for this list of adapters, and will go on doing so. -/
def Offers (adapters : AdaptersId) (offered : List Adapter) (w : World σ) : Prop :=
  adapters.index < w.adapters.size ∧ w.adapterList adapters = offered

theorem Offers.leads {adapters : AdaptersId} {offered : List Adapter} {w w' : World σ}
    (h : Offers adapters offered w) (hl : Leads code w w') : Offers adapters offered w' :=
  ⟨Nat.lt_of_lt_of_le h.1 hl.outgrows.adapters_le,
    (hl.outgrows.adapterList_eq adapters h.1).trans h.2⟩

/-- All links observe. -/
def Link.AllObserve (env : Env σ) (links : List Link) : Prop :=
  ∀ link ∈ links, link.interceptor.action.Observes env

section Chains

variable {offered : List Adapter} {adapters : AdaptersId} (code : Code σ) (room : Nat)

/-- What the engine runs besides leaves the adapters as they are. -/
theorem Offers.upholds {r : Run σ α} (hr : ∀ start, Tracks (.steps code start) r r) :
    Run.Upholds False (Offers adapters offered) r fun _ => True where
  yields w hw a w' h := ⟨hw.leads ((hr w w .refl).leads a w' h), trivial⟩
  answers := False.elim

theorem Offers.consults (p : Pointcut) (m : Method) (t : Option TypeDesc) :
    p.Consults False (Offers adapters offered) (fun _ => True) (Engine.env code room) m t where
  matchesClass := Offers.upholds code fun start =>
    p.matchesClass_tracks (Engine.env_steps code start room) _
  matchesMethod := Offers.upholds code fun start =>
    p.matchesMethod_tracks (Engine.env_steps code start room) m t
  residueFor := Offers.upholds code fun start =>
    p.residueFor_tracks (Engine.env_steps code start room) m t

/-- With none but built-in adapters that understand it, advice becomes what it is known to
become. -/
theorem Offers.intercepts {I : Interception → Prop} (hbegins : Adapter.builtIn <+: offered)
    {a : Advisor} {i : Interception} (hi : a.advice.interception? = some i) (hI : I i)
    (hown : ∀ adapter ∈ offered, adapter.supports a.advice → adapter ∈ Adapter.builtIn) :
    a.Intercepts False (Offers (σ := σ) adapters offered) adapters I := by
  refine Advisor.intercepts (fun _ _ hw => hw) (fun w hw => ?_) (fun j hj => ?_)
    fun w hw adapter hadapter hs => ?_
  · rw [hw.2]
    exact Adapter.anySupports_of_interception hi hbegins
  · rw [hj] at hi
    cases hi
    exact hI
  · rw [hw.2] at hadapter
    obtain ⟨j, hj, hmade⟩ := Adapter.interception_of_supports (hown adapter hadapter hs) hs
    rw [hi] at hj
    cases hj
    exact ⟨i, hmade, hI⟩

end Chains

/-! ## Configurations -/

/-- The configuration makes its chains from its advisors with adapters of which none but
built-in ones understand their advice. -/
def AdaptsPlainly (w : World σ) (id : ConfigId) : Prop :=
  ∃ adapters, (w.config id).chainMaker = .standard adapters ∧
    ∀ a ∈ (w.config id).advisors, ∀ adapter ∈ w.adapterList adapters,
      adapter.supports a.advice → adapter ∈ Adapter.builtIn

/-- It did so when nothing that chains are made from was other than now. -/
theorem AdaptsPlainly.of_sameMakings {w₀ w : World σ} {id : ConfigId}
    (h : AdaptsPlainly w id) (hsame : SameMakings w₀ w id) : AdaptsPlainly w₀ id := by
  obtain ⟨adapters, hmaker, hown⟩ := h
  refine ⟨adapters, hsame.chainMaker_eq.symm.trans hmaker, ?_⟩
  rw [← hsame.advisors_eq, ← hsame.adapters_eq adapters hmaker]
  exact hown

/-- Working a chain out, if it has an outcome, gives links of a sort if every advisor does. -/
theorem AdaptsPlainly.makeLinks {w w' : World σ} {id : ConfigId} (h : AdaptsPlainly w id)
    (hs : w.Settled) {Q : Link → Prop} {room : Nat} {m : Method} {t : Option TypeDesc}
    (hlinks : ∀ adapters offered, Adapter.builtIn <+: offered → ∀ a ∈ (w.config id).advisors,
      (∀ adapter ∈ offered, adapter.supports a.advice → adapter ∈ Adapter.builtIn) →
      Act.Upholds False (Offers adapters offered)
        (Chain.linksOf (Engine.env code room) adapters a m t) fun links => ∀ link ∈ links, Q link)
    {o : Outcome (List Link)}
    (hmade : (Configuration.makeLinks (Engine.env code room) (w.config id) m t).run w
      = some (o, w')) : ∃ links, o = .ok links ∧ ∀ link ∈ links, Q link := by
  obtain ⟨adapters, hmaker, hown⟩ := h
  have hknown := hs.known id adapters hmaker
  have hbegins := hs.begins adapters hknown
  have hmakes := Configuration.makeLinks_upholds_each
    (P := Offers adapters (w.adapterList adapters)) (fun _ _ hw => hw) hmaker
    (fun a _ => (Offers.consults code room a.pointcut m t).matchesClass)
    fun a ha => hlinks adapters _ hbegins a ha (hown a ha)
  exact (hmakes.yields w ⟨hknown, rfl⟩ o w' hmade).2

/-- All advisors of the configuration have advice that observes, and it makes its chains
from them with adapters of which none but built-in ones understand that advice. -/
structure Observed (env : Env σ) (w : World σ) (id : ConfigId) : Prop where
  advice : ∀ a ∈ (w.config id).advisors, a.advice.Observes env
  maker : ∃ adapters, (w.config id).chainMaker = .standard adapters ∧
    ∀ a ∈ (w.config id).advisors, ∀ adapter ∈ w.adapterList adapters,
      adapter.supports a.advice → adapter ∈ Adapter.builtIn

/-- It was so when nothing that chains are made from was other than now. -/
theorem Observed.of_sameMakings {env : Env σ} {w₀ w : World σ} {id : ConfigId}
    (h : Observed env w id) (hsame : SameMakings w₀ w id) : Observed env w₀ id := by
  refine ⟨?_, AdaptsPlainly.of_sameMakings h.maker hsame⟩
  rw [← hsame.advisors_eq]
  exact h.advice

/-- An advisor whose advice observes gives links that do. -/
theorem Advisor.linksOf_observing {env : Env σ} {a : Advisor} (ha : a.advice.Observes env)
    {offered : List Adapter} (hbegins : Adapter.builtIn <+: offered)
    (hown : ∀ adapter ∈ offered, adapter.supports a.advice → adapter ∈ Adapter.builtIn)
    (code : Code σ) (room : Nat) (adapters : AdaptersId) (m : Method) (t : Option TypeDesc) :
    Act.Upholds False (Offers adapters offered)
      (Chain.linksOf (Engine.env code room) adapters a m t) fun links =>
        Link.AllObserve env links := by
  obtain ⟨i, hi, hobserves⟩ := ha
  have hlinks : Act.Upholds False (Offers adapters offered)
      (Chain.linksOf (Engine.env code room) adapters a m t)
      (Link.All (Interception.Observes env) fun _ => True) :=
    Chain.linksOf_upholds (fun _ _ hw => hw) (Offers.consults code room a.pointcut m t)
      (Offers.intercepts hbegins hi hobserves hown)
  exact hlinks.mono fun links hall link hlink => (hall link hlink).interceptor

/-- Working a chain out, if it has an outcome, gives links that observe. -/
theorem Observed.makeLinks {env : Env σ} {w w' : World σ} {id : ConfigId}
    (h : Observed env w id) (hs : w.Settled) {room : Nat} {m : Method}
    {t : Option TypeDesc} {o : Outcome (List Link)}
    (hmade : (Configuration.makeLinks (Engine.env code room) (w.config id) m t).run w
      = some (o, w')) : ∃ links, o = .ok links ∧ Link.AllObserve env links :=
  AdaptsPlainly.makeLinks h.maker hs (fun adapters _ hbegins a ha hown =>
    a.linksOf_observing (h.advice a ha) hbegins hown code room adapters m t) hmade

/-- Looking a chain up does not fail, and whether it was in the cache or not, its links observe. -/
theorem Observed.chainFor {env : Env σ} {w w' : World σ} {id : ConfigId}
    (h : Observed env w id) (hr : Reaches code start w) (hstart : start.Settled)
    (hs : Sound code start w) {room : Nat} {m : Method} {t : Option TypeDesc}
    {o : Outcome Chain}
    (hfound : (Configuration.chainFor (Engine.env code room) id m t).run w = some (o, w')) :
    ∃ chain, o = .ok chain ∧ Link.AllObserve env chain.links :=
  hs.chainFor_links hr (fun hr₀ hsame hmade =>
    (h.of_sameMakings hsame).makeLinks (hr₀.settled hstart) hmade) hfound

end Aspects
