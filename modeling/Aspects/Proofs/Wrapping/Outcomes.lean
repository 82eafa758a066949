import Aspects.Proofs.Applying.Filtering
import Aspects.Proofs.Ordering.Consistency
import Aspects.Proofs.Wrapping.Assembling

/-!
# What comes of wrapping an object

With pure pointcuts the advisors for an object are found without fail, and whenever they are
looked for again they are the same, as long as the catalogue is and memories answer alike
(`advisorsFor_gives`). They are members of the catalogue, so none of them is refused if none
of its members would be; then the proxy is made. If there is no need for one, the object
itself comes back, and so does what is wrapped a second time (`wrap_succeeds`).
-/

namespace Aspects.AutoProxy

open Precedence (sort sort_perm)

variable {σ : Type} {env : Env σ} {tests : Tests} {views : Routine → Stance}
  {owner : MemoId → Expr} {enabled : Bool} {id : CatalogueId} {f : Flags} {name : String}
  {o : Object} {as : List Advisor} {w₀ w w₁ : World σ}

/-! ## Advisors for an object -/

/-- The catalogue is that of the start, and for the type the memories answer as they did. -/
structure Unmoved (tests : Tests) (owner : MemoId → Expr) (t : TypeDesc) (id : CatalogueId)
    (w₀ w : World σ) : Prop where
  concurs : World.Concurs tests owner t w₀ w
  catalogue_eq : w.catalogue id = w₀.catalogue id

theorem Unmoved.spared {t : TypeDesc} (h : Unmoved tests owner t id w₀ w) (hs : Spares w w₁) :
    Unmoved tests owner t id w₀ w₁ := by
  refine ⟨h.concurs.of_memories hs.memories_eq, ?_⟩
  rw [← h.catalogue_eq]
  unfold World.catalogue
  rw [hs.catalogues_eq]

/-- The members of the catalogue that can apply to the type, as their pointcuts stand, in the
order in which they act. -/
def eligible (tests : Tests) (views : Routine → Stance) (w₀ : World σ) (id : CatalogueId)
    (t : TypeDesc) : List Advisor :=
  sort ((Catalogue.introductionsFirst (w₀.catalogue id)).filter fun a =>
    (a.pointcut.stance tests views w₀).applies a t)

theorem mem_catalogue_of_eligible {a : Advisor} {t : TypeDesc}
    (h : a ∈ eligible tests views w₀ id t) : a ∈ w₀.catalogue id := by
  have hkept := (sort_perm _).mem_iff.mp h
  exact (Catalogue.introductionsFirst_perm _).mem_iff.mp (List.mem_filter.mp hkept).1

/-- Whenever they are looked for, the advisors for the object are the same. -/
theorem advisorsFor_gives
    (hpure : ∀ a ∈ w₀.catalogue id, a.pointcut.Pure env tests views owner o.type w₀) :
    Run.Gives (Unmoved tests owner o.type id w₀) (advisorsFor env id o)
      (eligible tests views w₀ id o.type) := by
  intro w hw
  have htakes : ∀ a ∈ Catalogue.introductionsFirst (w₀.catalogue id),
      a.pointcut.Takes env (World.Concurs tests owner o.type w₀) o.type
        (a.pointcut.stance tests views w₀) :=
    fun a ha => (hpure a ((Catalogue.introductionsFirst_perm _).mem_iff.mp ha)).takes
  obtain ⟨w', hkept, hponders, hconcurs⟩ := Catalogue.keepApplicable_gives htakes w hw.concurs
  rw [← hw.catalogue_eq] at hkept
  have hcatalogue : w'.catalogue id = w.catalogue id := by
    obtain ⟨_, _, rfl⟩ := hponders
    rfl
  refine ⟨w', ?_, hponders, hconcurs, hcatalogue.trans hw.catalogue_eq⟩
  rw [advisorsFor_eq hkept, hw.catalogue_eq]
  rfl

/-! ## The ways in which it may go -/

theorem wrap_idle (h : enabled = false ∨ o.isProxy = true) (env : Env σ) (id : CatalogueId)
    (f : Flags) (name : String) (w : World σ) :
    (wrap env enabled id f name o).run w = some (.ok o, w) := by
  have hidle : (!enabled || o.isProxy) = true := by
    rcases h with h | h <;> simp [h]
  unfold wrap
  rw [if_pos hidle]
  rfl

/-- Where there are no advisors for it the object comes back. -/
theorem wrap_none (henabled : enabled = true) (ho : o.isProxy = false)
    (h : advisorsFor env id o w = some ([], w₁)) (f : Flags) (name : String) :
    ∃ w', (wrap env enabled id f name o).run w = some (.ok o, w') ∧ Spares w₁ w' := by
  have hactive : ¬(!enabled || o.isProxy) = true := by simp [henabled, ho]
  unfold wrap
  rw [if_neg hactive, Act.run_ofRun, h]
  exact ⟨_, rfl, ⟨rfl, rfl, rfl⟩⟩

/-- Where there are some a proxy is to be made. -/
theorem wrap_some (henabled : enabled = true) (ho : o.isProxy = false)
    (h : advisorsFor env id o w = some (as, w₁)) (has : as ≠ []) (f : Flags) (name : String) :
    ∃ e : Event, (wrap env enabled id f name o).run w
      = (proxyWith env f o as).run (w₁.record (.event e)) := by
  have hactive : ¬(!enabled || o.isProxy) = true := by simp [henabled, ho]
  unfold wrap
  rw [if_neg hactive, Act.run_ofRun, h]
  dsimp only [Option.bind_some]
  rw [if_neg (by simpa using has)]
  exact ⟨_, rfl⟩

/-- It is made if none of them is refused. -/
theorem wrap_makes (henabled : enabled = true) (ho : o.isProxy = false)
    (h : advisorsFor env id o w = some (as, w₁)) (has : as ≠ [])
    (haccepted : ∀ a ∈ as, Configuration.refusal? (w₁.adapterList default) a = none)
    (f : Flags) (name : String) :
    ∃ proxy w' config, (wrap env enabled id f name o).run w = some (.ok proxy, w') ∧
      Spares w₁ w' ∧ Wraps w' f o as proxy config := by
  obtain ⟨e, hwrap⟩ := wrap_some henabled ho h has f name
  obtain ⟨outcome, w', hends, hmade, hall⟩ := proxyWith_ends env f o as (w₁.record (.event e))
  obtain ⟨proxy, rfl⟩ := hall haccepted
  obtain ⟨hspares, config, hwraps⟩ := hmade proxy rfl
  exact ⟨proxy, w', config, hwrap.trans hends, ⟨hspares.1, hspares.2, hspares.3⟩, hwraps⟩

/-- Where every member of the catalogue has advice that the shared adapters understand and
introduces nothing but interfaces, and where pointcuts are pure, wrapping an object succeeds.
The object itself comes back if wrapping is switched off, if it is a proxy or if there are no
advisors for it, and otherwise a proxy for it with just these advisors; they are the same
before and afterwards. To wrap what came back changes nothing. -/
theorem wrap_succeeds (env : Env σ) (enabled : Bool) (id : CatalogueId) (f : Flags)
    (name : String) (o : Object) (w : World σ)
    (hsupported : ∀ a ∈ w.catalogue id,
      Adapter.anySupports (w.adapterList default) a.advice = true)
    (hintroduced : ∀ a ∈ w.catalogue id, ∀ t ∈ a.introduced, t.isInterface = true)
    (hpure : ∀ a ∈ w.catalogue id, a.pointcut.Pure env tests views owner o.type w) :
    ∃ as r w', (advisorsFor env id o w).map (·.1) = some as ∧
      (wrap env enabled id f name o).run w = some (.ok r, w') ∧
      (enabled = false ∨ o.isProxy = true ∨ as = [] → r = o) ∧
      (enabled = true → o.isProxy = false → as ≠ [] → ∃ config, Wraps w' f o as r config) ∧
      (advisorsFor env id o w').map (·.1) = some as ∧
      ∀ name, ∃ w'', (wrap env enabled id f name r).run w' = some (.ok r, w'') := by
  have hfinds : Run.Gives (Unmoved tests owner o.type id w) (advisorsFor env id o) _ :=
    advisorsFor_gives hpure
  have hfound : ∀ v, Unmoved tests owner o.type id w v →
      (advisorsFor env id o v).map (·.1) = some (eligible tests views w id o.type) := by
    intro v hv
    obtain ⟨v', hrun, _⟩ := hfinds v hv
    rw [hrun]
    rfl
  have hstart : Unmoved tests owner o.type id w w := ⟨.refl w, rfl⟩
  refine ⟨eligible tests views w id o.type, ?_⟩
  by_cases hidle : enabled = false ∨ o.isProxy = true
  · refine ⟨o, w, hfound w hstart, wrap_idle hidle env id f name w, fun _ => rfl, ?_,
      hfound w hstart, fun name => ⟨w, wrap_idle hidle env id f name w⟩⟩
    intro henabled ho
    simp [henabled, ho] at hidle
  rw [not_or, Bool.not_eq_false, Bool.not_eq_true] at hidle
  obtain ⟨henabled, ho⟩ := hidle
  obtain ⟨w₁, hrun, hponders, hw₁⟩ := hfinds w hstart
  by_cases has : eligible tests views w id o.type = []
  · rw [has] at hrun
    obtain ⟨w', hwrap, hspares⟩ := wrap_none henabled ho hrun f name
    have hw' := hw₁.spared hspares
    refine ⟨o, w', hfound w hstart, hwrap, fun _ => rfl, fun _ _ h => absurd has h,
      hfound w' hw', fun name => ?_⟩
    -- the advisors are looked for once more, and again there are none
    obtain ⟨w₂, hrun', _⟩ := hfinds w' hw'
    rw [has] at hrun'
    obtain ⟨w'', hwrap', _⟩ := wrap_none henabled ho hrun' f name
    exact ⟨w'', hwrap'⟩
  · have haccepted : ∀ a ∈ eligible tests views w id o.type,
        Configuration.refusal? (w₁.adapterList default) a = none := by
      intro a ha
      have hmember := mem_catalogue_of_eligible ha
      rw [hponders.adapterList_eq default]
      exact Configuration.refusal?_eq_none_iff.mpr ⟨hsupported a hmember, hintroduced a hmember⟩
    obtain ⟨proxy, w', config, hwrap, hspares, hwraps⟩ :=
      wrap_makes henabled ho hrun has haccepted f name
    refine ⟨proxy, w', hfound w hstart, hwrap, ?_, fun _ _ _ => ⟨config, hwraps⟩,
      hfound w' (hw₁.spared hspares),
      fun name => ⟨w', wrap_idle (.inr hwraps.isProxy) env id f name w'⟩⟩
    rintro (h | h | h)
    · rw [henabled] at h
      cases h
    · rw [ho] at h
      cases h
    · exact absurd h has

/-- A catalogue with one advisor, whose pointcut has remembered nothing yet. -/
def gated : World Unit :=
  { user := (), memories := #[[]], catalogues := #[[gatekeeper]] }

def postings : Object := ⟨ledger, 0, .entity "postings"⟩

/-- The advisor can apply to ledgers, and a frozen proxy is made with it. -/
theorem gatekeeper_wrapped :
    ∃ r w' config,
      (wrap (Engine.env Code.idle 0) true ⟨0⟩ { frozen := true } "postings" postings).run gated
        = some (.ok r, w') ∧
      Wraps w' { frozen := true } postings [gatekeeper] r config ∧
      ∀ name, ∃ w'', (wrap (Engine.env Code.idle 0) true ⟨0⟩ { frozen := true } name r).run w'
        = some (.ok r, w'') := by
  have hledger : ledger.allMethods = [⟨ledger, "post", [], .void⟩] := by cbv
  have hpure : ∀ a ∈ gated.catalogue ⟨0⟩, a.pointcut.Pure (Engine.env Code.idle 0)
      ⟨fun _ _ _ => .ok true, fun _ _ => true⟩ default (fun _ => .argsMatching ⟨0⟩)
      postings.type gated := by
    intro a ha
    rw [List.mem_singleton.mp ha]
    exact ⟨rfl, fun _ => rfl⟩
  obtain ⟨as, r, w', hfound, hwrap, _, hmade, _, hagain⟩ :=
    wrap_succeeds (Engine.env Code.idle 0) true ⟨0⟩ { frozen := true } "postings" postings
      gated (by decide) (by decide) hpure
  have has : as = [gatekeeper] := by
    have hkept : (Catalogue.keepApplicable (Engine.env Code.idle 0) postings.type [gatekeeper]
        gated).map (·.1) = some [gatekeeper] := by
      simp only [Catalogue.keepApplicable, Catalogue.canApply, postings, hledger]
      rfl
    obtain ⟨⟨_, w₁⟩, hrun, rfl⟩ := Option.map_eq_some_iff.mp hkept
    have hall : advisorsFor (Engine.env Code.idle 0) ⟨0⟩ postings gated = _ := advisorsFor_eq hrun
    rw [hall] at hfound
    cases hfound
    exact List.perm_singleton.mp (sort_perm [gatekeeper])
  subst has
  obtain ⟨config, hwraps⟩ := hmade rfl rfl (List.cons_ne_nil _ _)
  exact ⟨r, w', config, hwrap, hwraps, hagain⟩

end Aspects.AutoProxy
