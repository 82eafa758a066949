import Aspects.Proofs.Subtyping.Accepting
import Aspects.Proofs.Subtyping.Listing

/-!
# The walk through the supertypes

The supertypes of a type are listed by a loop over a list that grows while it is scanned:
the parents of each type on the way that are not in the list are added at its end. The
relation `Scans` is this loop with its list and its cursor. It comes to an end, with one
result, which is what `hierarchy` computes (`scans_iff`).

Three things hold of the list all the time: nothing is in it twice, all of it is above the
type that it began with, and each member but the first stands behind one that it is a parent
of (`Climbs`). At the end, moreover, the parents of all members are listed, so that over
types that equality tells apart the members are exactly the types above
(`mem_hierarchy_iff`).
-/

namespace Aspects.TypeDesc

/-- The loop that lists supertypes, with its list and its cursor at some moment, comes to
the result. -/
inductive Scans : List TypeDesc → Nat → List TypeDesc → Prop
  | ends {ts i} (h : ts.length ≤ i) : Scans ts i ts
  | goesOn {ts i t result} (h : ts[i]? = some t)
      (hrest : Scans (addNew ts t.parents) (i + 1) result) : Scans ts i result

variable {known : TypeDesc → Prop} {s t : TypeDesc} {ts result : List TypeDesc} {i : Nat}

/-! ## What the loop comes to -/

/-- The loop comes to one result at most. -/
theorem Scans.unique {result' : List TypeDesc} (h : Scans ts i result) (h' : Scans ts i result') :
    result = result' := by
  induction h with
  | ends hend =>
    cases h' with
    | ends => rfl
    | goesOn hat _ => exact absurd (List.getElem?_eq_none hend ▸ hat) (by simp)
  | goesOn hat _ ih =>
    cases h' with
    | ends hend => exact absurd (List.getElem?_eq_none hend ▸ hat) (by simp)
    | goesOn hat' hrest' =>
      rw [hat] at hat'
      cases hat'
      exact ih hrest'

/-- The walk is the loop, where the types before the cursor are those that are done. -/
theorem scans_walk (done pending : List TypeDesc) :
    Scans (done ++ pending) done.length (walk done pending) := by
  induction done, pending using walk.induct with
  | case1 done =>
    rw [walk, List.append_nil]
    exact .ends (Nat.le_refl _)
  | case2 done t pending ih =>
    have hat : (done ++ t :: pending)[done.length]? = some t := by simp
    have hlist : done ++ [t] ++ (pending ++ unknown (done ++ t :: pending) t.parents)
        = addNew (done ++ t :: pending) t.parents := by
      rw [addNew_eq_append]
      simp
    rw [hlist, List.length_append, List.length_singleton] at ih
    rw [walk]
    exact .goesOn hat ih

theorem scans_hierarchy (t : TypeDesc) : Scans [t] 0 t.hierarchy :=
  scans_walk [] [t]

/-- The loop that begins with a type comes to its hierarchy and to nothing else. -/
theorem scans_iff : Scans [t] 0 ts ↔ ts = t.hierarchy := by
  constructor
  · intro h
    exact h.unique (scans_hierarchy t)
  · intro h
    rw [h]
    exact scans_hierarchy t

theorem Scans.hierarchy_eq (h : Scans [t] 0 ts) : t.hierarchy = ts :=
  (scans_iff.mp h).symm

/-! ## What holds all the time -/

/-- What holds of the list at the beginning, and is kept when the parents of a member are
added, holds of the result. -/
theorem Scans.keeps {P : List TypeDesc → Prop} (h : Scans ts i result)
    (hstep : ∀ ts t, t ∈ ts → P ts → P (addNew ts t.parents)) (hts : P ts) : P result := by
  induction h with
  | ends => exact hts
  | goesOn hat _ ih => exact ih (hstep _ _ (List.mem_of_getElem? hat) hts)

/-- Each type in the list but the first stands behind one that it is a parent of. -/
def Climbs (t : TypeDesc) (ts : List TypeDesc) : Prop :=
  ∀ before s after, ts = before ++ s :: after →
    (before = [] ∧ s = t) ∨ ∃ c ∈ before, s ∈ c.parents

theorem Climbs.addNew {c : TypeDesc} (hc : c ∈ ts) (h : Climbs t ts) :
    Climbs t (addNew ts c.parents) := by
  intro before s after hsplit
  rw [addNew_eq_append] at hsplit
  rcases List.append_eq_append_iff.mp hsplit with ⟨us, hbefore, hnew⟩ | ⟨us, hts, hafter⟩
  · -- the type is one of those that were added, behind the whole list
    have hs : s ∈ c.parents := by
      refine unknown_subset ts c.parents ?_
      rw [hnew]
      exact List.mem_append_right _ List.mem_cons_self
    refine .inr ⟨c, ?_, hs⟩
    rw [hbefore]
    exact List.mem_append_left _ hc
  · cases us with
    | nil =>
      -- the type is the first one that was added
      have hs : s ∈ c.parents := by
        refine unknown_subset ts c.parents ?_
        rw [← List.nil_append (unknown ts c.parents), ← hafter]
        exact List.mem_cons_self
      refine .inr ⟨c, ?_, hs⟩
      rw [hts, List.append_nil] at hc
      exact hc
    | cons u us =>
      cases hafter
      exact h before s us hts

theorem climbs_hierarchy (t : TypeDesc) : Climbs t t.hierarchy := by
  refine (scans_hierarchy t).keeps (fun ts c hc h => h.addNew hc) ?_
  intro before s after hsplit
  cases before with
  | nil =>
    cases hsplit
    exact .inl ⟨rfl, rfl⟩
  | cons b before =>
    have hlength := congrArg List.length hsplit
    simp at hlength

theorem head?_hierarchy (t : TypeDesc) : t.hierarchy.head? = some t := by
  refine (scans_hierarchy t).keeps (P := fun ts => ts.head? = some t) ?_ rfl
  intro ts c _ h
  rw [addNew_eq_append, List.head?_append, h]
  rfl

/-- Nothing is listed twice, not even a type that is equal to another one. -/
theorem distinct_hierarchy (t : TypeDesc) :
    t.hierarchy.Pairwise fun s s' => s.same s' = false :=
  (scans_hierarchy t).keeps (fun _ c _ h => distinct_addNew c.parents h)
    (List.pairwise_singleton _ _)

theorem nodup_hierarchy (t : TypeDesc) : t.hierarchy.Nodup := by
  refine (distinct_hierarchy t).imp ?_
  rintro s s' h rfl
  rw [same_refl] at h
  cases h

/-- Everything that is listed is above the type. -/
theorem above_of_mem_hierarchy (h : s ∈ t.hierarchy) : Above s t := by
  refine (scans_hierarchy t).keeps (P := fun ts => ∀ s ∈ ts, Above s t) ?_ ?_ s h
  · intro ts c hc hts s hs
    rcases mem_addNew hs with hs | hs
    · exact hts s hs
    · exact (hts c hc).tail hs
  · intro s hs
    rw [List.mem_singleton.mp hs]
    exact .refl

/-! ## What holds at the end -/

/-- The parents of the types before the cursor are listed, so at the end those of all are. -/
theorem Scans.closed (h : Scans ts i result)
    (hdone : ∀ j < i, ∀ s, ts[j]? = some s → ∀ p ∈ s.parents, listed ts p = true) :
    ∀ s ∈ result, ∀ p ∈ s.parents, listed result p = true := by
  induction h with
  | ends hend =>
    intro s hs
    obtain ⟨j, hj, rfl⟩ := List.mem_iff_getElem.mp hs
    exact hdone j (by omega) _ (List.getElem?_eq_getElem hj)
  | @goesOn ts i t result hat _ ih =>
    refine ih fun j hj s hs p hp => ?_
    have hi : i < ts.length := (List.getElem?_eq_some_iff.mp hat).1
    rw [addNew_eq_append, List.getElem?_append_left (by omega)] at hs
    rw [listed_addNew, Bool.or_eq_true]
    by_cases hji : j < i
    · exact .inl (hdone j hji s hs p hp)
    · -- the type under the cursor, whose parents have just been added
      have heq : j = i := by omega
      rw [heq, hat] at hs
      cases hs
      exact .inr (listed_of_mem hp)

theorem listed_hierarchy {p : TypeDesc} (hs : s ∈ t.hierarchy) (hp : p ∈ s.parents) :
    listed t.hierarchy p = true :=
  (scans_hierarchy t).closed (fun _ hj => absurd hj (Nat.not_lt_zero _)) s hs p hp

/-- Over types that equality tells apart, what is listed is what is above. -/
theorem Identified.mem_hierarchy_iff (h : Identified known) (ht : known t) :
    s ∈ t.hierarchy ↔ Above s t := by
  refine ⟨above_of_mem_hierarchy, fun hs => ?_⟩
  induction hs with
  | refl => exact List.mem_of_mem_head? (head?_hierarchy t)
  | @tail c p hc hp ih =>
    -- an equal type is listed, and that is the parent itself
    obtain ⟨q, hq, hsame⟩ := List.any_eq_true.mp (listed_hierarchy ih hp)
    have hpknown : known p := h.parents (h.known_of_above ht hc) hp
    have hqknown : known q := h.known_of_above ht (above_of_mem_hierarchy hq)
    exact h.identical hqknown hpknown hsame ▸ hq

end Aspects.TypeDesc
