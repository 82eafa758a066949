import Mathlib.Logic.Relation
import Aspects.TypeDesc.Hierarchy

/-!
# What a type accepts

A type that is no class or interface accepts itself only, the root accepts all classes and
interfaces, and any other type accepts itself and whatever has a parent that it accepts
(`accepts_iff`), which is what an equal type is reached from upwards
(`accepts_iff_exists_above`). Over types that equality tells apart that is itself
(`Identified.accepts_iff_above`), and accepting is transitive (`accepts_trans`).
-/

namespace Aspects.TypeDesc

variable {known : TypeDesc → Prop} {p r s t : TypeDesc}

/-- A class or an interface. -/
def IsReference (t : TypeDesc) : Prop :=
  t.kind = .classKind ∨ t.kind = .interfaceKind

theorem IsReference.of_isInterface (h : t.isInterface = true) : t.IsReference :=
  .inr (eq_of_beq h)

/-- The types that are known can be told apart: with a type its parents are known, and
known types that are equal are one. -/
structure Identified (known : TypeDesc → Prop) : Prop where
  parents : ∀ {t p}, known t → p ∈ t.parents → known p
  identical : ∀ {s t}, known s → known t → s.same t = true → s = t

theorem mem_parents : p ∈ t.parents ↔ t.superclass = some p ∨ p ∈ t.interfaces := by
  simp [parents]

theorem weight_le_weightList {ts : List TypeDesc} (h : t ∈ ts) :
    t.weight ≤ weightList ts := by
  induction ts with
  | nil => cases h
  | cons x xs ih =>
    simp only [weightList]
    rcases List.mem_cons.mp h with rfl | hxs
    · exact Nat.le_add_right _ _
    · exact Nat.le_trans (ih hxs) (Nat.le_add_left _ _)

/-- What holds of a type if it holds of its parents holds of all types. -/
theorem upward {P : TypeDesc → Prop} (h : ∀ t, (∀ p ∈ t.parents, P p) → P t)
    (t : TypeDesc) : P t :=
  h t fun p hp =>
    have : p.weight < t.weight :=
      Nat.lt_of_le_of_lt (weight_le_weightList hp) (weight_parents_lt t)
    upward h p
termination_by t.weight

/-! ## One step -/

theorem kind_eq_of_same (h : s.same t = true) : s.kind = t.kind := by
  cases s <;> cases t <;> simp_all [same, kind]

theorem accepts_of_same (h : s.same t = true) : s.accepts t = true := by
  cases t with
  | root => exact h
  | named n k superclass is ms =>
    unfold accepts
    rw [h, Bool.true_or]

/-- A type that is no reference accepts itself only. -/
theorem accepts_eq_same (h : ¬ s.IsReference) : s.accepts t = s.same t := by
  have hroot : s.isRoot = false := by
    cases s with
    | root => exact absurd (.inl rfl) h
    | named => rfl
  cases t with
  | root => rfl
  | named n k superclass is ms =>
    unfold accepts
    cases hk : s.kind with
    | classKind => exact absurd (.inl hk) h
    | interfaceKind => exact absurd (.inr hk) h
    | primitiveKind => simp
    | voidKind => simp

/-- The root accepts all references. -/
theorem root_accepts_iff : root.accepts t = true ↔ t.IsReference := by
  cases t with
  | root => exact iff_of_true rfl (.inl rfl)
  | named n k superclass is ms => simp [accepts, same, kind, isRoot, IsReference]

/-- Any other reference accepts itself and what is accepted one step further up. -/
theorem accepts_iff (h : s.IsReference) (hroot : s ≠ root) :
    s.accepts t = true ↔ s.same t = true ∨ ∃ p ∈ t.parents, s.accepts p = true := by
  have hroot' : s.isRoot = false := by
    cases s with
    | root => exact absurd rfl hroot
    | named => rfl
  cases t with
  | root => simp [accepts]
  | named n k superclass is ms =>
    have hparents : (∃ p ∈ (named n k superclass is ms).parents, s.accepts p = true) ↔
        superclass.any s.accepts = true ∨ is.any s.accepts = true := by
      cases superclass <;> simp [parents, TypeDesc.superclass, interfaces]
    rw [hparents]
    unfold accepts
    rcases h with h | h <;> simp [h, hroot']

theorem accepts_of_parent (h : s.IsReference) (hroot : s ≠ root)
    (hp : p ∈ t.parents) (hs : s.accepts p = true) : s.accepts t = true :=
  (accepts_iff h hroot).mpr (.inr ⟨p, hp, hs⟩)

/-! ## All the way up -/

/-- The first type is the second one, or is reached from it along superclasses and
interfaces. -/
def Above (s t : TypeDesc) : Prop :=
  Relation.ReflTransGen (fun t p => p ∈ t.parents) t s

theorem above_iff : Above s t ↔ s = t ∨ ∃ p ∈ t.parents, Above s p :=
  Relation.ReflTransGen.cases_head_iff.trans (or_congr_left eq_comm)

theorem Above.of_parent (hp : p ∈ t.parents) (h : Above s p) : Above s t :=
  above_iff.mpr (.inr ⟨p, hp, h⟩)

/-- Any reference but the root accepts what an equal type is reached from. -/
theorem accepts_iff_exists_above (href : s.IsReference) (hroot : s ≠ root) :
    s.accepts t = true ↔ ∃ r, Above r t ∧ s.same r = true := by
  induction t using upward with
  | h t ih =>
    rw [accepts_iff href hroot]
    constructor
    · rintro (hsame | ⟨p, hp, hacc⟩)
      · exact ⟨t, .refl, hsame⟩
      · obtain ⟨r, hr, hsame⟩ := (ih p hp).mp hacc
        exact ⟨r, .of_parent hp hr, hsame⟩
    · rintro ⟨r, hr, hsame⟩
      rcases above_iff.mp hr with rfl | ⟨p, hp, hrp⟩
      · exact .inl hsame
      · exact .inr ⟨p, hp, (ih p hp).mpr ⟨r, hrp, hsame⟩⟩

namespace Identified

theorem known_of_above (h : Identified known) (ht : known t) (hs : Above s t) : known s := by
  induction hs with
  | refl => exact ht
  | tail _ hp ih => exact h.parents ih hp

/-- Any reference but the root accepts what it is reached from. -/
theorem accepts_iff_above (h : Identified known) (hs : known s) (ht : known t)
    (href : s.IsReference) (hroot : s ≠ root) : s.accepts t = true ↔ Above s t := by
  rw [accepts_iff_exists_above href hroot]
  constructor
  · rintro ⟨r, hr, hsame⟩
    rw [h.identical hs (h.known_of_above ht hr) hsame]
    exact hr
  · intro habove
    exact ⟨s, habove, same_refl s⟩

/-- What is accepted by a type that is accepted is accepted, if only references have
parents. -/
theorem accepts_trans (h : Identified known)
    (hparents : ∀ {t}, known t → t.parents ≠ [] → t.IsReference)
    (hr : known r) (hs : known s) (ht : known t)
    (hrs : r.accepts s = true) (hst : s.accepts t = true) : r.accepts t = true := by
  by_cases hrref : r.IsReference
  · by_cases hrroot : r = root
    · -- the root asks for a reference only
      subst hrroot
      rw [root_accepts_iff] at hrs ⊢
      by_cases hsroot : s = root
      · subst hsroot
        exact root_accepts_iff.mp hst
      · rcases (accepts_iff hrs hsroot).mp hst with hsame | ⟨p, hp, _⟩
        · exact h.identical hs ht hsame ▸ hrs
        · exact hparents ht (List.ne_nil_of_mem hp)
    · have hsroot : s ≠ root := by
        rintro rfl
        cases r with
        | root => exact hrroot rfl
        | named => cases hrs
      rw [h.accepts_iff_above hr hs hrref hrroot] at hrs
      rw [h.accepts_iff_above hr ht hrref hrroot]
      by_cases hsref : s.IsReference
      · rw [h.accepts_iff_above hs ht hsref hsroot] at hst
        exact hst.trans hrs
      · rw [accepts_eq_same hsref] at hst
        exact h.identical hs ht hst ▸ hrs
  · rw [accepts_eq_same hrref] at hrs
    exact h.identical hr hs hrs ▸ hst

end Identified

end Aspects.TypeDesc
