import Mathlib.Data.List.Pairwise
import Aspects.TypeDesc.Hierarchy

/-!
# Lists of types

A list has a type if it has an equal one. Types are added to a list one by one, unless it
has them, so that those that come to stand behind the others are the ones that were not
known (`addNew_eq_append`), and a list without repetitions stays one (`distinct_addNew`).
-/

namespace Aspects.TypeDesc

variable {known ts : List TypeDesc} {s t : TypeDesc}

theorem listed_congr (h : s.same t = true) : listed ts s = listed ts t := by
  unfold listed
  congr 1
  funext i
  rw [Bool.eq_iff_iff]
  constructor
  · exact fun hs => same_trans hs h
  · exact fun ht => same_trans ht ((same_symm t s).trans h)

theorem listed_append : listed (known ++ ts) t = (listed known t || listed ts t) :=
  List.any_append

theorem listed_singleton : listed [s] t = s.same t := by
  simp [listed]

theorem listed_of_mem (h : t ∈ ts) : listed ts t = true :=
  List.any_eq_true.mpr ⟨t, h, same_refl t⟩

/-- Among types that are told apart a type is equal to itself only. -/
theorem eq_of_same (h : ts.Pairwise fun s t => s.same t = false) (hs : s ∈ ts) (ht : t ∈ ts)
    (hsame : s.same t = true) : s = t := by
  by_contra hne
  have hsymm : Std.Symm fun s t : TypeDesc => s.same t = false :=
    ⟨fun s t hst => (same_symm t s).trans hst⟩
  have hdiffer : s.same t = false := h.forall hs ht hne
  rw [hsame] at hdiffer
  cases hdiffer

theorem listed_without :
    listed (known.filter fun i => !listed ts i) t = (listed known t && !listed ts t) := by
  have hsame (i : TypeDesc) : (!listed ts i && i.same t) = (i.same t && !listed ts t) := by
    cases h : i.same t with
    | true => simp [listed_congr h]
    | false => simp
  have hany : (known.filter fun i => !listed ts i).any (·.same t)
      = known.any fun i => i.same t && !listed ts t := by
    rw [List.any_filter]
    exact congrArg known.any (funext hsame)
  unfold listed at hany ⊢
  rw [hany]
  cases ts.any (·.same t) with
  | true => simp
  | false => simp

theorem unknown_subset (known ts : List TypeDesc) : unknown known ts ⊆ ts := by
  induction ts generalizing known with
  | nil => exact List.Subset.refl _
  | cons t ts ih =>
    unfold unknown
    split
    · exact List.subset_cons_of_subset t (ih known)
    · exact List.cons_subset_cons t (ih (known ++ [t]))

/-! ## Adding -/

theorem addNew_cons : addNew known (t :: ts)
    = addNew (if listed known t then known else known ++ [t]) ts := rfl

/-- The types that were not known come to stand at the end. -/
theorem addNew_eq_append (known ts : List TypeDesc) :
    addNew known ts = known ++ unknown known ts := by
  induction ts generalizing known with
  | nil => simp [addNew, unknown]
  | cons t ts ih =>
    rw [addNew_cons, unknown]
    by_cases ht : listed known t
    · rw [if_pos ht, if_pos ht]
      exact ih known
    · rw [if_neg ht, if_neg ht, ih]
      simp

theorem subset_addNew (known ts : List TypeDesc) : known ⊆ addNew known ts := by
  rw [addNew_eq_append]
  exact List.subset_append_left known _

/-- What is listed after adding was listed before or is one of those added. -/
theorem mem_addNew (h : t ∈ addNew known ts) : t ∈ known ∨ t ∈ ts := by
  rw [addNew_eq_append] at h
  rcases List.mem_append.mp h with hknown | hnew
  · exact .inl hknown
  · exact .inr (unknown_subset known ts hnew)

theorem listed_addNew : listed (addNew known ts) t = (listed known t || listed ts t) := by
  induction ts generalizing known with
  | nil => simp [addNew, listed]
  | cons x xs ih =>
    have hcons : listed (x :: xs) t = (x.same t || listed xs t) := rfl
    rw [addNew_cons, ih, hcons]
    by_cases hx : listed known x
    · -- a type that is known already makes no difference
      rw [if_pos hx]
      cases hxt : x.same t with
      | true =>
        rw [← listed_congr hxt, hx]
        rfl
      | false => rfl
    · rw [if_neg hx, listed_append, listed_singleton, Bool.or_assoc]

/-- Types that are added one by one, unless they are listed, come to be there once. -/
theorem distinct_addNew (ts : List TypeDesc) (h : known.Pairwise fun s t => s.same t = false) :
    (addNew known ts).Pairwise fun s t => s.same t = false := by
  -- types are added from the left, so the list that they are added to is any distinct one
  induction ts generalizing known with
  | nil => exact h
  | cons t ts ih =>
    rw [addNew_cons]
    refine ih ?_
    by_cases ht : listed known t
    · rw [if_pos ht]
      exact h
    · rw [if_neg ht, List.pairwise_append]
      refine ⟨h, List.pairwise_singleton _ _, fun s hs t' ht' => ?_⟩
      rw [List.mem_singleton.mp ht', Bool.eq_false_iff]
      exact fun hsame => ht (List.any_eq_true.mpr ⟨s, hs, hsame⟩)

end Aspects.TypeDesc
