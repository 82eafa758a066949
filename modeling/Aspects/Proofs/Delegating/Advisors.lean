import Aspects.Proofs.Delegating.Chains
import Aspects.Proofs.Observing.Advisors

/-!
# Introductions among advisors that observe

An advisor that introduces interfaces is asked about nothing but the class, so its
introduction never becomes a link that is passed over at a call. With advisors that observe
otherwise, working a chain out cannot fail and gives links that observe and introductions
(`Served.makeLinks`), and so do the chains in the cache.
-/

namespace Aspects

variable {σ : Type} {code : Code σ} {start : World σ}

/-- The advisor brings interfaces, and its advice takes their methods to a delegate. -/
structure Advisor.Introduces (a : Advisor) : Prop where
  brings : a.isIntroduction = true
  takes : ∃ number delegate interfaces,
    a.advice = .interceptor ⟨number, .introduce delegate interfaces⟩

/-- What advisors that bring interfaces are made as. -/
theorem Advisor.introduction_introduces (id interceptor : Nat) {interfaces : List TypeDesc}
    (h : interfaces ≠ []) (delegate : Object) :
    (Advisor.introduction id interceptor interfaces delegate).Introduces where
  brings := by
    rw [Advisor.isIntroduction, Bool.not_eq_true', List.isEmpty_eq_false_iff]
    exact h
  takes := ⟨interceptor, delegate, interfaces, rfl⟩

/-- An introduction gives links that are introductions. -/
theorem Advisor.Introduces.linksOf {a : Advisor} (ha : a.Introduces)
    {offered : List Adapter} (hbegins : Adapter.builtIn <+: offered)
    (hown : ∀ adapter ∈ offered, adapter.supports a.advice → adapter ∈ Adapter.builtIn)
    (env : Env σ) (adapters : AdaptersId) (m : Method) (t : Option TypeDesc) :
    Act.Upholds False (Offers adapters offered) (Chain.linksOf env adapters a m t)
      fun links => ∀ link ∈ links, link.isIntroduction = true := by
  obtain ⟨number, delegate, interfaces, hadvice⟩ := ha.takes
  have hbecomes : a.advice.interception? = some (.introduce delegate interfaces) := by
    rw [hadvice]
    rfl
  have hlinks : Act.Upholds False (Offers adapters offered) (Chain.linksOf env adapters a m t)
      (Link.All (· = .introduce delegate interfaces) fun _ => False) :=
    Chain.linksOf_introduction ha.brings (Offers.intercepts hbegins hbecomes rfl hown)
  refine hlinks.mono fun links hall link hlink => ?_
  have hof := hall link hlink
  cases link with
  | fixed i =>
    obtain ⟨n, action⟩ := i
    have haction : action = .introduce delegate interfaces := hof
    rw [haction]
    rfl
  | dynamic i p => exact hof.2.elim

/-- Every advisor of the configuration has advice that observes, or it introduces; and chains
are made from them with adapters that do not interfere. -/
structure Served (env : Env σ) (w : World σ) (id : ConfigId) : Prop where
  advice : ∀ a ∈ (w.config id).advisors, a.advice.Observes env ∨ a.Introduces
  maker : AdaptsPlainly w id

namespace Served

variable {env : Env σ} {w w' : World σ} {id : ConfigId}

/-- It was so when nothing that chains are made from was other than now. -/
theorem of_sameMakings {w₀ : World σ} (h : Served env w id) (hsame : SameMakings w₀ w id) :
    Served env w₀ id := by
  refine ⟨?_, h.maker.of_sameMakings hsame⟩
  rw [← hsame.advisors_eq]
  exact h.advice

/-- Working a chain out, if it has an outcome, gives links that observe and introductions. -/
theorem makeLinks (h : Served env w id) (hs : w.Settled) {room : Nat} {m : Method}
    {t : Option TypeDesc} {o : Outcome (List Link)}
    (hmade : (Configuration.makeLinks (Engine.env code room) (w.config id) m t).run w
      = some (o, w')) : ∃ links, o = .ok links ∧ ∀ link ∈ links, link.Serves env := by
  refine h.maker.makeLinks hs (fun adapters offered hbegins a ha hown => ?_) hmade
  rcases h.advice a ha with hobserves | hintroduces
  · have hlinks := a.linksOf_observing hobserves hbegins hown code room adapters m t
    exact hlinks.mono fun links hall link hlink => .inl (hall link hlink)
  · have hlinks := hintroduces.linksOf hbegins hown (Engine.env code room) adapters m t
    exact hlinks.mono fun links hall link hlink => .inr (hall link hlink)

/-- Looking a chain up does not fail, and whether it was in the cache or not, its links are of
that sort. -/
theorem chainFor (h : Served env w id) (hr : Reaches code start w) (hstart : start.Settled)
    (hs : Sound code start w) {room : Nat} {m : Method} {t : Option TypeDesc}
    {o : Outcome Chain}
    (hfound : (Configuration.chainFor (Engine.env code room) id m t).run w = some (o, w')) :
    ∃ chain, o = .ok chain ∧ ∀ link ∈ chain.links, link.Serves env :=
  hs.chainFor_links hr (fun hr₀ hsame hmade =>
    (h.of_sameMakings hsame).makeLinks (hr₀.settled hstart) hmade) hfound

end Served

end Aspects
