import Aspects.Proofs.Introducing.Histories

/-!
# Layouts in order

A layout is in order with a list of adapters if its interfaces are interfaces, none of them
twice, and if every advisor has advice that some adapter understands and introduces nothing
but interfaces. This is looked at in several places: types are sorted out as a factory
begins, an interface and an advisor are looked at before they come in, an advisor that is to
replace another one just as well. Every edit that a command carries out keeps a layout in
order (`Command.Edits.keepsOrder`), and adapters that are registered later do it no harm.
-/

namespace Aspects

variable {σ : Type} {α : Type} {adapters : List Adapter} {l l' : Layout} {a : Advisor}

/-- The interfaces are interfaces and differ from each other, and the advisors may be there. -/
structure Layout.Orderly (adapters : List Adapter) (l : Layout) : Prop where
  distinct : l.interfaces.Pairwise fun s t => s.same t = false
  interfaces : ∀ t ∈ l.interfaces, t.isInterface = true
  supported : ∀ a ∈ l.advisors, Adapter.anySupports adapters a.advice = true
  introduced : ∀ a ∈ l.advisors, ∀ t ∈ a.introduced, t.isInterface = true

/-- An advisor that is not refused. -/
theorem Configuration.refusal?_eq_none_iff :
    refusal? adapters a = none ↔
      Adapter.anySupports adapters a.advice = true ∧ ∀ t ∈ a.introduced, t.isInterface = true := by
  unfold refusal?
  cases h : Adapter.anySupports adapters a.advice with
  | true => simp
  | false => simp

/-- More adapters understand more advice. -/
theorem Adapter.anySupports_append {advice : Advice} (h : anySupports adapters advice = true)
    (more : List Adapter) : anySupports (adapters ++ more) advice = true := by
  unfold anySupports at h ⊢
  rw [List.any_append, ← Bool.or_assoc, h, Bool.true_or]

namespace Layout.Orderly

/-- The layout that a factory starts with. -/
theorem ofInterfaces (adapters : List Adapter) (ts : List TypeDesc) :
    (Layout.ofInterfaces ts).Orderly adapters where
  distinct := TypeDesc.distinct_addNew _ .nil
  interfaces t ht := by
    rcases TypeDesc.mem_addNew ht with hnil | hmem
    · cases hnil
    · exact (List.mem_filter.mp hmem).2
  supported _ ha := absurd ha List.not_mem_nil
  introduced _ ha := absurd ha List.not_mem_nil

theorem append (h : l.Orderly adapters) (more : List Adapter) :
    l.Orderly (adapters ++ more) where
  distinct := h.distinct
  interfaces := h.interfaces
  supported a ha := Adapter.anySupports_append (h.supported a ha) more
  introduced := h.introduced

/-- Interfaces and advisors may always go. -/
theorem fewer (h : l.Orderly adapters) (hinterfaces : l'.interfaces.Sublist l.interfaces)
    (hadvisors : l'.advisors ⊆ l.advisors) : l'.Orderly adapters where
  distinct := h.distinct.sublist hinterfaces
  interfaces t ht := h.interfaces t (hinterfaces.subset ht)
  supported a ha := h.supported a (hadvisors ha)
  introduced a ha := h.introduced a (hadvisors ha)

/-- Interfaces that are not there may come. -/
theorem addNew (h : l.Orderly adapters) {ts : List TypeDesc}
    (hts : ∀ t ∈ ts, t.isInterface = true)
    (hinterfaces : l'.interfaces = TypeDesc.addNew l.interfaces ts)
    (hadvisors : l'.advisors = l.advisors) : l'.Orderly adapters where
  distinct := by
    rw [hinterfaces]
    exact TypeDesc.distinct_addNew ts h.distinct
  interfaces t ht := by
    rw [hinterfaces] at ht
    rcases TypeDesc.mem_addNew ht with hknown | hnew
    · exact h.interfaces t hknown
    · exact hts t hnew
  supported := by
    rw [hadvisors]
    exact h.supported
  introduced := by
    rw [hadvisors]
    exact h.introduced

/-- An advisor that is not refused may come, and the interfaces that it introduces. -/
theorem joined (h : l.Orderly adapters) (ha : Configuration.refusal? adapters a = none)
    {as : List Advisor} (has : ∀ b ∈ as, b = a ∨ b ∈ l.advisors) :
    ({ l.addIntroduced a with advisors := as } : Layout).Orderly adapters := by
  obtain ⟨hsupported, hintroduced⟩ := Configuration.refusal?_eq_none_iff.mp ha
  have hadded : (l.addIntroduced a).Orderly adapters := h.addNew hintroduced rfl rfl
  refine ⟨hadded.distinct, hadded.interfaces, fun b hb => ?_, fun b hb => ?_⟩
  · rcases has b hb with rfl | hb
    · exact hsupported
    · exact h.supported b hb
  · rcases has b hb with rfl | hb
    · exact hintroduced
    · exact h.introduced b hb

theorem dropIntroduced (h : l.Orderly adapters) (a : Advisor) :
    (l.dropIntroduced a).Orderly adapters :=
  h.fewer List.filter_sublist fun _ hb => hb

theorem takeOut (h : l.Orderly adapters) (place : Nat) (a : Advisor) :
    (l.takeOut place a).Orderly adapters :=
  h.fewer List.filter_sublist fun _ hb => List.mem_of_mem_eraseIdx hb

end Layout.Orderly

/-! ## Edits -/

/-- The edit leaves a layout in order. -/
def Edit.KeepsOrder (adapters : List Adapter) (e : Edit α) : Prop :=
  ∀ l x l', l.Orderly adapters → e l = .ok (x, some l') → l'.Orderly adapters

namespace Layout

theorem insert_keepsOrder (place : Option Nat)
    (ha : Configuration.refusal? adapters a = none) :
    Edit.KeepsOrder adapters (insert place a) := by
  intro l x l' h he
  simp only [insert] at he
  split at he
  · cases he
  · next hplace =>
    cases he
    exact h.joined ha fun b hb => (List.mem_insertIdx (Nat.not_lt.mp hplace)).mp hb

theorem removeFound_keepsOrder (place : Layout → Option Nat) :
    Edit.KeepsOrder adapters fun l => removeFound (place l) l := by
  intro l x l' h he
  simp only [removeFound] at he
  split at he
  · cases he
  · split at he
    · cases he
    · cases he
      exact h.takeOut _ _

theorem removeAt_keepsOrder (place : Nat) : Edit.KeepsOrder adapters (removeAt place) := by
  intro l x l' h he
  simp only [removeAt] at he
  split at he
  · cases he
  · cases he
    exact h.takeOut _ _

theorem replace_keepsOrder (old : Advisor) (ha : Configuration.refusal? adapters a = none) :
    Edit.KeepsOrder adapters (replace old a) := by
  intro l x l' h he
  simp only [replace] at he
  split at he
  · cases he
  · split at he
    · cases he
    · next found _ =>
      cases he
      -- what the old advisor introduces goes before what the new one introduces comes
      exact (h.dropIntroduced found).joined ha fun b hb =>
        (List.mem_or_eq_of_mem_set hb).symm

theorem addInterface_keepsOrder {t : TypeDesc} (ht : t.isInterface = true) :
    Edit.KeepsOrder adapters (addInterface t) := by
  intro l x l' h he
  simp only [addInterface] at he
  split at he
  · cases he
  · next hlisted =>
    cases he
    have hnew : TypeDesc.addNew l.interfaces [t] = l.interfaces ++ [t] := if_neg hlisted
    have hall : ∀ t' ∈ [t], t'.isInterface = true := fun t' ht' => by
      rw [List.mem_singleton.mp ht']
      exact ht
    exact h.addNew hall hnew.symm rfl

theorem removeInterface_keepsOrder (t : TypeDesc) :
    Edit.KeepsOrder adapters (removeInterface t) := by
  intro l x l' h he
  simp only [removeInterface] at he
  split at he
  · cases he
    exact h.fewer List.filter_sublist fun _ hb => hb
  · cases he

end Layout

theorem Edit.KeepsOrder.guarded {refusal : Option Fault} {e : Edit α}
    (h : refusal = none → e.KeepsOrder adapters) :
    (Edit.guarded refusal e).KeepsOrder adapters := by
  cases refusal with
  | none => exact h rfl
  | some f =>
    intro l x l' _ he
    cases he

/-- Whatever a command does to a layout, it looks first at what is to come in. -/
theorem Command.Edits.keepsOrder {w : World σ} {id : ConfigId} {c : Command σ (Outcome α)}
    {e : Edit α} (h : c.Edits w id e) :
    e.KeepsOrder (w.adapterList (w.config id).adapters) := by
  cases h with
  | addAdvisor place a => exact .guarded fun ha => Layout.insert_keepsOrder place ha
  | removeAdvisor a => exact Layout.removeFound_keepsOrder (·.placeOf a)
  | removeAdvisorAt place => exact Layout.removeAt_keepsOrder place
  | replaceAdvisor old new => exact .guarded fun ha => Layout.replace_keepsOrder old ha
  | addAdvice place a => exact .guarded fun ha => Layout.insert_keepsOrder place ha
  | removeAdvice a => exact Layout.removeFound_keepsOrder (·.placeOfAdvice a)
  | addInterface t =>
    refine .guarded fun ht => Layout.addInterface_keepsOrder ?_
    cases hinterface : t.isInterface with
    | true => rfl
    | false =>
      rw [hinterface] at ht
      cases ht
  | removeInterface t => exact Layout.removeInterface_keepsOrder t

end Aspects
