import Aspects.Proofs.Subtyping.Accepting
import Aspects.Proofs.Subtyping.Listing

/-!
# Standing in for a type

`accepts` climbs from a type to its parents, `allInterfaces` walks along the superclasses
and looks at each of them once. Over types that are fit to be compared (`Coherent`) the
first is transitive, and a type is accepted by all the interfaces that it offers
(`accepts_of_mem_allInterfaces`).

The converse is where the two walks part: an interface that accepts a type need accept
none of those that the type offers, for `allInterfaces` does not look at a superclass that
is itself an interface. Without such a superclass it does (`exists_mem_allInterfaces`).
-/

namespace Aspects.TypeDesc

variable {known : TypeDesc → Prop} {i r s t : TypeDesc}

/-- The types that are known can be compared: with a type its parents are known, equality
tells them apart, what is listed as an interface is one, and only classes and interfaces
have parents. -/
structure Coherent (known : TypeDesc → Prop) : Prop where
  parents : ∀ {t p}, known t → p ∈ t.parents → known p
  identical : ∀ {s t}, known s → known t → s.same t = true → s = t
  interfaces : ∀ {t i}, known t → i ∈ t.interfaces → i.isInterface = true
  reference : ∀ {t}, known t → t.parents ≠ [] → t.IsReference

/-- The superclass of the type, or of one of its superclasses, is an interface. -/
def ExtendsInterface (t : TypeDesc) : Prop :=
  ∃ s ∈ t.superclassChain, ∃ p, s.superclass = some p ∧ p.isInterface = true

/-- What is accepted by a type that is accepted is accepted. -/
theorem Coherent.accepts_trans (h : Coherent known) (hr : known r) (hs : known s) (ht : known t)
    (hrs : r.accepts s = true) (hst : s.accepts t = true) : r.accepts t = true := by
  have hidentified : Identified known := ⟨h.parents, h.identical⟩
  exact hidentified.accepts_trans h.reference hr hs ht hrs hst

/-! ## What a type offers -/

theorem mem_superclassChain :
    s ∈ t.superclassChain ↔ s = t ∨ ∃ p, t.superclass = some p ∧ s ∈ p.superclassChain := by
  cases t with
  | root => simp [superclassChain, superclass]
  | named n k superclass is ms =>
    cases superclass <;> simp [superclassChain, TypeDesc.superclass]

theorem Coherent.known_of_mem_superclassChain (h : Coherent known) (ht : known t)
    (hs : s ∈ t.superclassChain) : known s := by
  induction t using upward with
  | h t ih =>
    rcases mem_superclassChain.mp hs with rfl | ⟨p, hp, hsp⟩
    · exact ht
    · have hparent := mem_parents.mpr (.inl hp)
      exact ih p hparent (h.parents ht hparent) hsp

/-- What accepts a superclass accepts the class. -/
theorem accepts_of_superclass (hr : r.IsReference) (hroot : r ≠ root)
    (hs : s ∈ t.superclassChain) (hrs : r.accepts s = true) : r.accepts t = true := by
  induction t using upward with
  | h t ih =>
    rcases mem_superclassChain.mp hs with rfl | ⟨p, hp, hsp⟩
    · exact hrs
    · have hparent := mem_parents.mpr (.inl hp)
      exact accepts_of_parent hr hroot hparent (ih p hparent hsp)

theorem foldl_addNew_interfaces (ts : List TypeDesc) (acc : List TypeDesc) :
    ts.foldl (fun acc s => addNew acc s.interfaces) acc
      = addNew acc (ts.flatMap (·.interfaces)) := by
  induction ts generalizing acc with
  | nil => rfl
  | cons t ts ih =>
    rw [List.foldl_cons, ih, List.flatMap_cons]
    exact List.foldl_append.symm

/-- A type that is no interface offers what is listed along its superclasses. -/
theorem Coherent.mem_allInterfaces (h : Coherent known) (ht : known t)
    (hkind : t.isInterface = false) :
    i ∈ t.allInterfaces ↔ ∃ s ∈ t.superclassChain, i ∈ s.interfaces := by
  have hoffered : t.allInterfaces = addNew [] (t.superclassChain.flatMap (·.interfaces)) := by
    simp [allInterfaces, hkind, foldl_addNew_interfaces]
  have hlisted (j : TypeDesc) (hj : j ∈ t.allInterfaces) :
      ∃ s ∈ t.superclassChain, j ∈ s.interfaces := by
    rw [hoffered] at hj
    exact List.mem_flatMap.mp ((mem_addNew hj).resolve_left List.not_mem_nil)
  have hknown {s j : TypeDesc} (hs : s ∈ t.superclassChain) (hj : j ∈ s.interfaces) :
      known j :=
    h.parents (h.known_of_mem_superclassChain ht hs) (mem_parents.mpr (.inr hj))
  refine ⟨hlisted i, fun ⟨s, hs, hi⟩ => ?_⟩
  -- an equal interface may have been listed before, and then it is the same one
  have hequal : listed t.allInterfaces i = true := by
    rw [hoffered, listed_addNew, Bool.or_eq_true]
    exact .inr (List.any_eq_true.mpr ⟨i, List.mem_flatMap.mpr ⟨s, hs, hi⟩, same_refl i⟩)
  obtain ⟨j, hj, hji⟩ := List.any_eq_true.mp hequal
  obtain ⟨s', hs', hj'⟩ := hlisted j hj
  exact h.identical (hknown hs' hj') (hknown hs hi) hji ▸ hj

theorem isInterface_ne_root (h : i.isInterface = true) : i ≠ root := by
  rintro rfl
  cases h

/-- What a type offers is known, is an interface, and accepts the type. -/
theorem Coherent.accepts_of_mem_allInterfaces (h : Coherent known) (ht : known t)
    (hi : i ∈ t.allInterfaces) :
    known i ∧ i.isInterface = true ∧ i.accepts t = true := by
  cases hkind : t.isInterface with
  | true =>
    rw [allInterfaces, if_pos hkind, List.mem_singleton] at hi
    subst hi
    exact ⟨ht, hkind, accepts_self i⟩
  | false =>
    obtain ⟨s, hs, his⟩ := (h.mem_allInterfaces ht hkind).mp hi
    have hsknown := h.known_of_mem_superclassChain ht hs
    have hface := h.interfaces hsknown his
    have hparent := mem_parents.mpr (.inr his)
    have href := IsReference.of_isInterface hface
    have hroot := isInterface_ne_root hface
    exact ⟨h.parents hsknown hparent, hface,
      accepts_of_superclass href hroot hs (accepts_of_parent href hroot hparent (accepts_self i))⟩

/-- An interface that accepts a type accepts one that the type offers, unless a class
extends an interface. -/
theorem Coherent.exists_mem_allInterfaces (h : Coherent known) (ht : known t)
    (hface : i.isInterface = true) (hextends : ¬ t.ExtendsInterface)
    (hi : i.accepts t = true) : ∃ j ∈ t.allInterfaces, i.accepts j = true := by
  have href := IsReference.of_isInterface hface
  induction t using upward with
  | h t ih =>
    cases hkind : t.isInterface with
    | true => exact ⟨t, by rw [allInterfaces, if_pos hkind]; exact List.mem_singleton_self t, hi⟩
    | false =>
      rcases (accepts_iff href (isInterface_ne_root hface)).mp hi with hsame | ⟨p, hp, hip⟩
      · -- an interface is equal to interfaces only
        have hk := kind_eq_of_same hsame
        simp [isInterface, ← hk] at hkind hface
        exact absurd hface hkind
      · rcases mem_parents.mp hp with hsuper | his
        · have hpkind : p.isInterface = false := by
            cases hpk : p.isInterface with
            | false => rfl
            | true =>
              exact absurd ⟨t, mem_superclassChain.mpr (.inl rfl), p, hsuper, hpk⟩ hextends
          have hup {s : TypeDesc} (hs : s ∈ p.superclassChain) : s ∈ t.superclassChain :=
            mem_superclassChain.mpr (.inr ⟨p, hsuper, hs⟩)
          have hpknown := h.parents ht hp
          obtain ⟨j, hj, hij⟩ :=
            ih p hp hpknown (fun ⟨s, hs, hsuper'⟩ => hextends ⟨s, hup hs, hsuper'⟩) hip
          obtain ⟨s, hs, hjs⟩ := (h.mem_allInterfaces hpknown hpkind).mp hj
          exact ⟨j, (h.mem_allInterfaces ht hkind).mpr ⟨s, hup hs, hjs⟩, hij⟩
        · have hself := mem_superclassChain (t := t).mpr (.inl rfl)
          exact ⟨p, (h.mem_allInterfaces ht hkind).mpr ⟨t, hself, his⟩, hip⟩

end Aspects.TypeDesc
