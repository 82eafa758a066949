import Aspects.Proofs.Ordering.Places

/-!
# Sorting what is sorted

Where an aspect first appears is a matter of the list that is sorted, and sorting moves
advisors: one with a small order may carry the first appearance of its aspect past that of
another one. So a second sort can change the list (`resorted_changes`). It does not if and
only if the list is `Settled`: of two aspects that have advisors of one order, the one that
appears first in the list has an order as small as any of the other's. A list with ascending
orders is settled, and therefore a third sort never changes anything (`sorting_settles`).
-/

namespace Aspects.Precedence

variable {as l : List Advisor}

/-- If two places are of one order, and what belongs to the first appears before what belongs
to the second, then something there is of an order as small as any here. -/
def Settled (as : List Advisor) : Prop :=
  ∀ i j : Fin as.length, rank (as.get i) = rank (as.get j) → AppearsBefore as i j →
    ∀ k, Together as k j → ∃ h, Together as h i ∧ rank (as.get h) ≤ rank (as.get k)

/-- The orders ascend along the list. -/
def Ascending (as : List Advisor) : Prop :=
  ∀ i j : Fin as.length, i ≤ j → rank (as.get i) ≤ rank (as.get j)

theorem Ascending.settled (h : Ascending as) : Settled as := by
  rintro i j _ ⟨first, hfirst, hbefore⟩ k hk
  exact ⟨first, hfirst, h first k (Nat.le_of_lt (hbefore k hk))⟩

/-- What is in order by its own rule stays as it is. -/
theorem sort_eq_self (h : ∀ p q : Fin l.length, p < q → ComesFirst l p q) : sort l = l := by
  have hplaces : (List.finRange l.length).Pairwise fun p q => placeLe l p q = true := by
    refine List.pairwise_iff_forall_sublist.mpr fun {p q} hpq => ?_
    have hlt : p < q :=
      (precedes_iff_lt (List.nodup_finRange _) (i := p) (j := q) (by simp) (by simp)).mp hpq
    exact (comesFirst_iff.mp (h p q hlt)).1
  rw [sort_eq_map, order, List.mergeSort_of_pairwise hplaces, map_finRange]

namespace SortedFrom

variable {source : Fin l.length → Fin as.length} {p q : Fin l.length}

theorem ascending (h : SortedFrom as l source) : Ascending l := by
  intro p q hpq
  rcases Nat.eq_or_lt_of_le hpq with heq | hlt
  · exact Int.le_of_eq (by rw [Fin.ext heq])
  · rw [h.get_eq, h.get_eq]
    exact ((h.lt_iff p q).mp hlt).rank_le

/-- What belongs together does so wherever its places come from. -/
theorem together_iff (h : SortedFrom as l source) :
    Together l p q ↔ Together as (source p) (source q) := by
  unfold Together
  rw [h.injective.eq_iff, h.get_eq, h.get_eq]

theorem firstWithin (h : SortedFrom as l source) (hpq : p < q)
    (hwithin : FirstWithin as (source p) (source q)) : FirstWithin l p q := by
  unfold FirstWithin at *
  rw [h.get_eq, h.get_eq]
  rcases hwithin with hbefore | ⟨hbefore, hdeclared | ⟨hdeclared, _⟩⟩
  · exact .inl hbefore
  · exact .inr ⟨hbefore, .inl hdeclared⟩
  · exact .inr ⟨hbefore, .inr ⟨hdeclared, hpq⟩⟩

/-- Of a settled list, what appears first does so in the sorted list, too, as far as this
matters. -/
theorem appearsBefore (h : SortedFrom as l source) (hsettled : Settled as)
    (hrank : rank (as.get (source p)) = rank (as.get (source q)))
    (hbefore : AppearsBefore as (source p) (source q)) : AppearsBefore l p q := by
  obtain ⟨first, hfirst, hp, hleast⟩ := exists_first p
  obtain ⟨first', hfirst', hq, _⟩ := exists_first q
  rw [← group_lt_iff_appearsBefore, ← hfirst, ← hfirst']
  have hgroups := group_lt_iff_appearsBefore.mpr hbefore
  rw [← group_eq_iff_together.mpr (h.together_iff.mp hp),
    ← group_eq_iff_together.mpr (h.together_iff.mp hq)] at hgroups
  refine Nat.not_le.mp fun hle => ?_
  -- the first of the other aspect would come first, though its order is not smaller
  obtain ⟨i, hi, hlow⟩ := hsettled _ _ hrank hbefore (source first') (h.together_iff.mp hq)
  obtain ⟨r, rfl⟩ := h.surjective i
  have hlow' := h.ascending first r (hleast r (h.together_iff.mpr hi))
  rw [h.get_eq, h.get_eq] at hlow'
  have hne : first'.val ≠ first.val := fun heq => Nat.lt_irrefl _ (Fin.ext heq ▸ hgroups)
  rcases (h.lt_iff first' first).mp (Nat.lt_of_le_of_ne hle hne) with hlt | ⟨_, hb | ⟨ht, _⟩⟩
  · omega
  · have := group_lt_iff_appearsBefore.mpr hb
    omega
  · have := group_eq_iff_together.mpr ht
    omega

end SortedFrom

/-- The sorted list of a settled one is in order by its own rule. -/
theorem Settled.sort_sort_eq (hsettled : Settled as) : sort (sort as) = sort as := by
  obtain ⟨source, h⟩ := exists_sortedFrom as
  refine sort_eq_self fun p q hpq => ?_
  unfold ComesFirst
  rw [h.get_eq, h.get_eq]
  rcases (h.lt_iff p q).mp hpq with hlt | ⟨hrank, hbefore | ⟨hsame, hwithin⟩⟩
  · exact .inl hlt
  · exact .inr ⟨hrank, .inl (h.appearsBefore hsettled hrank hbefore)⟩
  · exact .inr ⟨hrank, .inr ⟨h.together_iff.mpr hsame, h.firstWithin hpq hwithin⟩⟩

/-- If sorting the sorted list leads to the same list, the list was settled. An advisor may
be listed several times, so the places that it comes from need not be the same ones. -/
theorem SortedFrom.settled {source : Fin l.length → Fin as.length}
    {source' : Fin l.length → Fin l.length} (h : SortedFrom as l source)
    (h' : SortedFrom l l source') : Settled as := by
  intro i j hrank hbefore k hk
  refine Classical.byContradiction fun hno => ?_
  have hlow : ∀ m, Together as m i → rank (as.get k) < rank (as.get m) := fun m hm =>
    Int.not_le.mp fun hle => hno ⟨m, hm, hle⟩
  obtain ⟨p, rfl⟩ := h.surjective i
  obtain ⟨q, rfl⟩ := h.surjective j
  obtain ⟨r, rfl⟩ := h.surjective k
  have hpq : p < q := (h.lt_iff p q).mpr (.inr ⟨hrank, .inl hbefore⟩)
  have hp : l.get (source' p) = as.get (source p) := (h'.get_eq p).symm.trans (h.get_eq p)
  have hq : l.get (source' q) = as.get (source q) := (h'.get_eq q).symm.trans (h.get_eq q)
  obtain ⟨first, hfirst, hfirstp, _⟩ := exists_first (source' p)
  obtain ⟨first', hfirst', hfirstq, hleast⟩ := exists_first (source' q)
  have hle : first ≤ first' := by
    have hgroups := ((h'.lt_iff p q).mp hpq).group_le (by rw [hp, hq, hrank])
    rwa [← hfirst, ← hfirst'] at hgroups
  -- the first of the one aspect is not so low, and the first of the other one is
  have hhigh : rank (as.get (source r)) < rank (l.get first) := by
    rcases hfirstp with rfl | ⟨hsome, haspect⟩
    · rw [hp]
      exact hlow _ (.refl _)
    · rw [h.get_eq] at hsome haspect ⊢
      exact hlow _ (.inr ⟨hsome, haspect.trans (by rw [hp])⟩)
  have hlow' : rank (l.get first') ≤ rank (as.get (source r)) := by
    rcases hk with heq | ⟨hsome, haspect⟩
    · have := hlow _ (.refl _)
      rw [heq, hrank] at this
      exact absurd this (Int.lt_irrefl _)
    · have htogether : Together l r (source' q) :=
        .inr ⟨by rwa [h.get_eq], by rw [h.get_eq, hq, haspect]⟩
      have := h.ascending first' r (hleast r htogether)
      rwa [h.get_eq r] at this
  have := h.ascending first first' hle
  omega

theorem settled_of_sort_sort_eq (hfixed : sort (sort as) = sort as) : Settled as := by
  obtain ⟨source, h⟩ := exists_sortedFrom as
  have hagain := exists_sortedFrom (sort as)
  rw [hfixed] at hagain
  obtain ⟨source', h'⟩ := hagain
  exact h.settled h'

/-- For every list of advisors: sorting the sorted list changes nothing exactly if of any two
aspects, or advisors without one, that have a common order, the one that appears first in
the list has an order as small as any of the other's; and in any case sorting it once more
changes nothing. -/
theorem sorting_settles (as : List Advisor) :
    (sort (sort as) = sort as ↔ Settled as) ∧ sort (sort (sort as)) = sort (sort as) := by
  refine ⟨⟨settled_of_sort_sort_eq, Settled.sort_sort_eq⟩, ?_⟩
  obtain ⟨_, h⟩ := exists_sortedFrom as
  exact h.ascending.settled.sort_sort_eq

/-! ## An aspect with two orders

Recording appears first in the list. The security aspect has an advisor of a smaller order,
which the first sort moves to the front, so that for the second sort security appears
first. -/

def recording : Advisor where
  id := 0
  pointcut := .all
  advice := .before ⟨0⟩
  aspect := some "recording"
  order := some 5

def admitting : Advisor where
  id := 1
  pointcut := .all
  advice := .before ⟨1⟩
  aspect := some "security"
  order := some 1

def checking : Advisor where
  id := 2
  pointcut := .all
  advice := .before ⟨2⟩
  aspect := some "security"
  declarationOrder := 1
  order := some 5

theorem sort_recording_first :
    sort [recording, admitting, checking] = [admitting, recording, checking] := by
  have hkeyed : keyed [recording, admitting, checking]
      = [(⟨5, 0, false, 0⟩, recording), (⟨1, 1, false, 0⟩, admitting),
        (⟨5, 1, false, 1⟩, checking)] := rfl
  unfold sort
  rw [hkeyed]
  simp [List.mergeSort, List.MergeSort.Internal.splitInTwo, Key.le]

theorem sort_admitting_first :
    sort [admitting, recording, checking] = [admitting, checking, recording] := by
  have hkeyed : keyed [admitting, recording, checking]
      = [(⟨1, 0, false, 0⟩, admitting), (⟨5, 1, false, 0⟩, recording),
        (⟨5, 0, false, 1⟩, checking)] := rfl
  unfold sort
  rw [hkeyed]
  simp [List.mergeSort, List.MergeSort.Internal.splitInTwo, Key.le]

/-- A second sort moves recording behind all of security. -/
theorem resorted_changes :
    sort [recording, admitting, checking] = [admitting, recording, checking] ∧
      sort (sort [recording, admitting, checking]) = [admitting, checking, recording] ∧
      sort (sort [recording, admitting, checking]) ≠ sort [recording, admitting, checking] := by
  refine ⟨sort_recording_first, ?_⟩
  rw [sort_recording_first, sort_admitting_first]
  exact ⟨rfl, fun h => absurd (congrArg (·.map (·.id)) h) (by decide)⟩

end Aspects.Precedence
