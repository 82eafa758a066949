import Aspects.Proofs.Ordering.Sorting

/-!
# Every list in order of precedence

A list of advisors may hold one of them several times, so precedence is a matter of places.
Two places belong together if their advisors are of one aspect; an advisor without an
aspect belongs to nothing but itself. `AppearsBefore` compares where what belongs together
first appears in the whole list, and `ComesFirst` is the rule of precedence, said without
keys. The sorted list has the advisors of the list, each at one place, in the order of this
rule (`sorted_by_precedence`).

The key of a place names the first place of its group, so that comparing keys decides the
rule (`group_eq_iff_together`, `group_lt_iff_appearsBefore`): the group of an advisor
without an aspect is its own place, at which no aspect appears.
-/

namespace Aspects.Precedence

variable {as : List Advisor} {i j k : Fin as.length}

/-! ## What belongs together -/

/-- It is one place, or the advisors at the two places are of one aspect. -/
def Together (as : List Advisor) (i j : Fin as.length) : Prop :=
  i = j ∨ (as.get i).aspect.isSome = true ∧ (as.get i).aspect = (as.get j).aspect

theorem Together.refl (i : Fin as.length) : Together as i i :=
  .inl rfl

theorem Together.symm (h : Together as i j) : Together as j i := by
  rcases h with rfl | ⟨hsome, haspect⟩
  · exact .inl rfl
  · exact .inr ⟨haspect ▸ hsome, haspect.symm⟩

theorem Together.trans (h : Together as i j) (h' : Together as j k) : Together as i k := by
  rcases h with rfl | ⟨hsome, haspect⟩
  · exact h'
  · rcases h' with rfl | ⟨_, haspect'⟩
    · exact .inr ⟨hsome, haspect⟩
    · exact .inr ⟨hsome, haspect.trans haspect'⟩

/-- In the whole list, what belongs to the first of the places appears before all that
belongs to the second. -/
def AppearsBefore (as : List Advisor) (i j : Fin as.length) : Prop :=
  ∃ k, Together as k i ∧ ∀ l, Together as l j → k < l

/-- Where what belongs to a place first appears is what its key calls its group. -/
theorem exists_first (i : Fin as.length) :
    ∃ k : Fin as.length, k.val = (placeKey as i).group ∧ Together as k i ∧
      ∀ l, Together as l i → k ≤ l := by
  cases haspect : (as.get i).aspect with
  | none =>
    refine ⟨i, (group_of_none haspect).symm, .refl i, fun l hl => ?_⟩
    rcases hl with rfl | ⟨hsome, hsame⟩
    · exact Nat.le_refl _
    · rw [hsame, haspect] at hsome
      cases hsome
  | some name =>
    have hlt : firstPlace as name < as.length :=
      List.findIdx_lt_length.mpr ⟨as.get i, List.get_mem as i, beq_iff_eq.mpr haspect⟩
    have hfirst : as[firstPlace as name].aspect = some name :=
      beq_iff_eq.mp (List.findIdx_getElem (w := hlt))
    refine ⟨⟨firstPlace as name, hlt⟩, (group_of_some haspect).symm, .inr ?_, fun l hl => ?_⟩
    · exact ⟨by simp [hfirst], hfirst.trans haspect.symm⟩
    · have hname : (as.get l).aspect = some name := by
        rcases hl with rfl | ⟨_, hsame⟩
        · exact haspect
        · exact hsame.trans haspect
      refine Nat.not_lt.mp fun hbefore => ?_
      have hno := List.not_of_lt_findIdx hbefore
      exact absurd (beq_iff_eq.mpr hname) (Bool.eq_false_iff.mp hno)

theorem group_eq_iff_together :
    (placeKey as i).group = (placeKey as j).group ↔ Together as i j := by
  obtain ⟨k, hk, hki, hfirst⟩ := exists_first i
  obtain ⟨k', hk', hkj, hfirst'⟩ := exists_first j
  rw [← hk, ← hk']
  constructor
  · intro heq
    obtain rfl := Fin.ext heq
    exact hki.symm.trans hkj
  · intro h
    exact Nat.le_antisymm (hfirst k' (hkj.trans h.symm)) (hfirst' k (hki.trans h))

theorem group_lt_iff_appearsBefore :
    (placeKey as i).group < (placeKey as j).group ↔ AppearsBefore as i j := by
  obtain ⟨k, hk, hki, hfirst⟩ := exists_first i
  obtain ⟨k', hk', hkj, hfirst'⟩ := exists_first j
  rw [← hk, ← hk']
  constructor
  · exact fun hlt => ⟨k, hki, fun l hl => Nat.lt_of_lt_of_le hlt (hfirst' l hl)⟩
  · rintro ⟨l, hl, hbefore⟩
    exact Nat.lt_of_le_of_lt (hfirst l hl) (hbefore k' hkj)

/-! ## The rule -/

/-- Of two places that belong together: advice that runs before a call comes first, then
what was declared first, then what stands first in the list. -/
def FirstWithin (as : List Advisor) (i j : Fin as.length) : Prop :=
  (as.get i).isBefore = true ∧ (as.get j).isBefore = false ∨
    (as.get i).isBefore = (as.get j).isBefore ∧
      ((as.get i).declarationOrder < (as.get j).declarationOrder ∨
        (as.get i).declarationOrder = (as.get j).declarationOrder ∧ i < j)

/-- By the rules the advisor at the first of the places comes before the one at the
second. -/
def ComesFirst (as : List Advisor) (i j : Fin as.length) : Prop :=
  rank (as.get i) < rank (as.get j) ∨ rank (as.get i) = rank (as.get j) ∧
    (AppearsBefore as i j ∨ Together as i j ∧ FirstWithin as i j)

/-- The rule compares keys, and places where these tie. -/
theorem comesFirst_iff :
    ComesFirst as i j ↔ (placeKey as i).le (placeKey as j) = true ∧
      ((placeKey as j).le (placeKey as i) = true → i < j) := by
  have horder : ∀ k, (placeKey as k).order = rank (as.get k) := fun _ => rfl
  have hbefore : ∀ k, (placeKey as k).notBefore = !(as.get k).isBefore := fun _ => rfl
  have hdeclared : ∀ k, (placeKey as k).declaration = (as.get k).declarationOrder := fun _ => rfl
  unfold ComesFirst FirstWithin
  rw [Key.le_iff, Key.le_iff, ← group_lt_iff_appearsBefore, ← group_eq_iff_together]
  simp only [horder, hbefore, hdeclared]
  grind

theorem ComesFirst.irrefl (i : Fin as.length) : ¬ ComesFirst as i i := by
  rw [comesFirst_iff]
  exact fun ⟨hle, hlt⟩ => absurd (hlt hle) (Nat.lt_irrefl _)

theorem ComesFirst.rank_le (h : ComesFirst as i j) : rank (as.get i) ≤ rank (as.get j) := by
  rcases h with h | ⟨h, _⟩
  · exact Int.le_of_lt h
  · exact Int.le_of_eq h

/-- Of two places of one order, the one that comes first has the first group. -/
theorem ComesFirst.group_le (h : ComesFirst as i j) (hrank : rank (as.get i) = rank (as.get j)) :
    (placeKey as i).group ≤ (placeKey as j).group := by
  rcases h with hlt | ⟨_, hbefore | ⟨htogether, _⟩⟩
  · exact absurd hlt (hrank ▸ Int.lt_irrefl _)
  · exact Nat.le_of_lt (group_lt_iff_appearsBefore.mpr hbefore)
  · exact Nat.le_of_eq (group_eq_iff_together.mpr htogether)

/-! ## The sorted list -/

/-- Every place of the second list has its source in the first one, each of these once, and
the places follow each other by the rule for their sources. -/
structure SortedFrom (as l : List Advisor) (source : Fin l.length → Fin as.length) : Prop where
  injective : source.Injective
  surjective : source.Surjective
  get_eq : ∀ p, l.get p = as.get (source p)
  lt_iff : ∀ p q, p < q ↔ ComesFirst as (source p) (source q)

theorem exists_sortedFrom (as : List Advisor) : ∃ source, SortedFrom as (sort as) source := by
  have hlength : (sort as).length = (order as).length := by rw [sort_eq_map, List.length_map]
  let source (p : Fin (sort as).length) : Fin as.length := (order as)[p.cast hlength]
  have hplace (p : Fin (sort as).length) : (order as)[p.val]? = some (source p) :=
    List.getElem?_eq_getElem _
  have hinjective : source.Injective := fun p q hpq =>
    Fin.ext (place_unique (nodup_order as) (hplace p) (hpq ▸ hplace q))
  refine ⟨source, hinjective, fun i => ?_, fun p => ?_, fun p q => ?_⟩
  · obtain ⟨p, hp, hi⟩ := List.getElem_of_mem (mem_order i)
    exact ⟨⟨p, hlength ▸ hp⟩, hi⟩
  · simp only [List.get_eq_getElem, sort_eq_map, List.getElem_map]
    rfl
  · by_cases hpq : p = q
    · subst hpq
      exact iff_of_false (Nat.lt_irrefl _) (ComesFirst.irrefl _)
    · rw [comesFirst_iff, ← precedes_order_iff fun hs => hpq (hinjective hs),
        precedes_iff_lt (nodup_order as) (hplace p) (hplace q)]
      rfl

/-- What comes between two of one order and of one aspect is so, too. -/
theorem together_of_between (hij : ComesFirst as i j) (hjk : ComesFirst as j k)
    (hrank : rank (as.get i) = rank (as.get k)) (h : Together as i k) :
    rank (as.get j) = rank (as.get i) ∧ Together as i j := by
  have hranks : rank (as.get i) = rank (as.get j) ∧ rank (as.get j) = rank (as.get k) := by
    have := hij.rank_le
    have := hjk.rank_le
    omega
  refine ⟨hranks.1.symm, group_eq_iff_together.mp ?_⟩
  have hik := group_eq_iff_together.mpr h
  have hgij := hij.group_le hranks.1
  have hgjk := hjk.group_le hranks.2
  omega

/-- For every list of advisors: sorting it puts its advisors, each place of the list once,
into the order of the rule. The smaller explicit order comes first, a missing one counting
as the largest; of equal orders comes first what appears first in the whole list, an aspect
with the first of its advisors, an advisor without one by itself; and within an aspect
advice that runs before a call, then what was declared first, then what stood first. And
the advisors of one aspect that have one order stand side by side. -/
theorem sorted_by_precedence (as : List Advisor) :
    (sort as).Perm as ∧ (∃ source, SortedFrom as (sort as) source) ∧
      ∀ (p q r : Fin (sort as).length) (name : String), p < q → q < r →
        rank ((sort as).get p) = rank ((sort as).get r) → ((sort as).get p).aspect = some name →
        ((sort as).get r).aspect = some name → rank ((sort as).get q) = rank ((sort as).get p) ∧
          ((sort as).get q).aspect = some name := by
  obtain ⟨source, h⟩ := exists_sortedFrom as
  refine ⟨sort_perm as, ⟨source, h⟩, fun p q r name hpq hqr hrank hp hr => ?_⟩
  simp only [h.get_eq] at hrank hp hr ⊢
  have htogether : Together as (source p) (source r) := .inr ⟨by rw [hp]; rfl, hp.trans hr.symm⟩
  obtain ⟨hrank', hplace | ⟨_, haspect⟩⟩ :=
    together_of_between ((h.lt_iff p q).mp hpq) ((h.lt_iff q r).mp hqr) hrank htogether
  · exact absurd (h.injective hplace) (Fin.ne_of_lt hpq)
  · exact ⟨hrank', haspect.symm.trans hp⟩

end Aspects.Precedence
