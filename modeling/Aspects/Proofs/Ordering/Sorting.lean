import Aspects.Precedence

/-!
# What acts first in a sorted list

The order of advisors is given by keys and a sort that keeps ties. Said of the advisors
themselves it is this (`precedes_sort_iff`): of two advisors in a list without repetitions
the first acts before the second if its explicit order is smaller; or if the orders are
equal and its `leader`, the first advisor of its aspect in the list, stands before that of
the other; or if they have one leader and the rules within an aspect put it first.

What stands before what is said by `Precedes`. In a list without repetitions that is a
question of places (`precedes_iff_lt`). The places of any list are such a list, and to sort
the advisors is to sort the places by the keys that these have (`sort_eq_map`); what a sort
that keeps ties does to a list without repetitions (`precedes_mergeSort_iff`) is therefore
enough.
-/

namespace Aspects.Precedence

/-! ## Standing before -/

section Lists

variable {α β : Type} {l l' : List α} {x y : α} {i j : Nat}

/-- In the list the first of the two stands before the second. -/
def Precedes (l : List α) (x y : α) : Prop :=
  [x, y].Sublist l

theorem Precedes.sublist (h : Precedes l x y) (hl : l.Sublist l') : Precedes l' x y :=
  List.Sublist.trans h hl

theorem Precedes.map (h : Precedes l x y) (f : α → β) : Precedes (l.map f) (f x) (f y) :=
  List.Sublist.map f h

theorem Precedes.mem_right (h : Precedes l x y) : y ∈ l :=
  List.Sublist.subset h (by simp)

theorem precedes_cons_iff {z : α} :
    Precedes (z :: l) x y ↔ Precedes l x y ∨ x = z ∧ y ∈ l := by
  unfold Precedes
  rw [List.sublist_cons_iff]
  constructor
  · rintro (h | ⟨r, hr, h⟩)
    · exact .inl h
    · cases hr
      exact .inr ⟨rfl, List.singleton_sublist.mp h⟩
  · rintro (h | ⟨rfl, h⟩)
    · exact .inl h
    · exact .inr ⟨[y], rfl, List.singleton_sublist.mpr h⟩

/-- Of two members one stands before the other. -/
theorem precedes_or (hx : x ∈ l) (hy : y ∈ l) (hne : x ≠ y) :
    Precedes l x y ∨ Precedes l y x := by
  induction l with
  | nil => cases hx
  | cons z l ih =>
    rw [precedes_cons_iff, precedes_cons_iff]
    rcases List.mem_cons.mp hx with hxz | hx
    · rcases List.mem_cons.mp hy with hyz | hy
      · exact absurd (hxz.trans hyz.symm) hne
      · exact .inl (.inr ⟨hxz, hy⟩)
    · rcases List.mem_cons.mp hy with hyz | hy
      · exact .inr (.inr ⟨hyz, hx⟩)
      · rcases ih hx hy with h | h
        · exact .inl (.inl h)
        · exact .inr (.inl h)

theorem Precedes.asymm (hl : l.Nodup) (h : Precedes l x y) : ¬ Precedes l y x := by
  induction l with
  | nil => cases h
  | cons z l ih =>
    obtain ⟨hz, hl⟩ := List.nodup_cons.mp hl
    rw [precedes_cons_iff] at h ⊢
    rintro (h' | ⟨rfl, h'⟩)
    · rcases h with h | ⟨rfl, _⟩
      · exact ih hl h h'
      · exact hz h'.mem_right
    · rcases h with h | ⟨rfl, h⟩
      · exact hz h.mem_right
      · exact hz h

theorem Precedes.ne (hl : l.Nodup) (h : Precedes l x y) : x ≠ y := by
  rintro rfl
  exact h.asymm hl h

theorem precedes_of_lt (hx : l[i]? = some x) (hy : l[j]? = some y) (h : i < j) :
    Precedes l x y := by
  -- the list is cut before the second place
  have hx' : x ∈ l.take j := by
    refine List.mem_of_getElem? (i := i) ?_
    rw [List.getElem?_take_of_lt h, hx]
  have hy' : y ∈ l.drop j := by
    refine List.mem_of_getElem? (i := 0) ?_
    rw [List.getElem?_drop, Nat.add_zero, hy]
  have happend := (List.singleton_sublist.mpr hx').append (List.singleton_sublist.mpr hy')
  rw [List.take_append_drop] at happend
  exact happend

/-- Without repetitions it is a question of places. -/
theorem precedes_iff_lt (hl : l.Nodup) (hx : l[i]? = some x) (hy : l[j]? = some y) :
    Precedes l x y ↔ i < j := by
  constructor
  · intro h
    rcases Nat.lt_trichotomy i j with hlt | rfl | hgt
    · exact hlt
    · rw [hx] at hy
      cases hy
      exact absurd rfl (h.ne hl)
    · exact absurd (precedes_of_lt hy hx hgt) (h.asymm hl)
  · exact precedes_of_lt hx hy

theorem place_unique (hl : l.Nodup) (hx : l[i]? = some x) (hx' : l[j]? = some x) : i = j := by
  have hlt : i < l.length := (List.getElem?_eq_some_iff.mp hx).1
  exact (List.getElem?_inj hlt hl).mp (hx.trans hx'.symm)

/-- Leaving others out changes nothing. -/
theorem precedes_iff_of_sublist (hl : l'.Nodup) (h : l.Sublist l') (hx : x ∈ l) (hy : y ∈ l) :
    Precedes l x y ↔ Precedes l' x y := by
  constructor
  · exact fun hp => hp.sublist h
  · intro hp
    rcases precedes_or hx hy (hp.ne hl) with hp' | hp'
    · exact hp'
    · exact absurd (hp'.sublist h) (hp.asymm hl)

theorem precedes_map {f : β → α} {l : List β} (h : Precedes (l.map f) x y) :
    ∃ x' y', Precedes l x' y' ∧ f x' = x ∧ f y' = y := by
  obtain ⟨zs, hzs, hmap⟩ := List.sublist_map_iff.mp h
  match zs, hmap with
  | [x', y'], hmap =>
    simp only [List.map_cons, List.map_nil, List.cons.injEq, and_true] at hmap
    exact ⟨x', y', hzs, hmap.1.symm, hmap.2.symm⟩

theorem precedes_map_iff {f : α → β} (hf : Function.Injective f) :
    Precedes (l.map f) (f x) (f y) ↔ Precedes l x y := by
  constructor
  · intro h
    obtain ⟨x', y', h', hx, hy⟩ := precedes_map h
    rwa [hf hx, hf hy] at h'
  · exact fun h => h.map f

/-- Of two members of a list without repetitions a sort that keeps ties puts one first if it
is smaller, or if the two tie and it stood first. -/
theorem precedes_mergeSort_iff {le : α → α → Bool}
    (trans : ∀ a b c, le a b = true → le b c = true → le a c = true)
    (total : ∀ a b, (le a b || le b a) = true) (hl : l.Nodup) (hx : x ∈ l) (hy : y ∈ l)
    (hne : x ≠ y) :
    Precedes (l.mergeSort le) x y ↔ le x y = true ∧ (le y x = true → Precedes l x y) := by
  have hsorted : (l.mergeSort le).Nodup := (List.mergeSort_perm l le).nodup_iff.mpr hl
  have forward {a b : α} (ha : a ∈ l) (hb : b ∈ l) (h : Precedes (l.mergeSort le) a b) :
      le a b = true ∧ (le b a = true → Precedes l a b) := by
    have hle : le a b = true := by
      simpa using (List.pairwise_mergeSort trans total l).sublist h
    refine ⟨hle, fun hle' => ?_⟩
    rcases precedes_or ha hb (h.ne hsorted) with hstood | hstood
    · exact hstood
    · -- a tie would have kept its order
      exact absurd (List.pair_sublist_mergeSort trans total hle' hstood) (h.asymm hsorted)
  refine ⟨forward hx hy, fun ⟨hle, hstood⟩ => ?_⟩
  rcases precedes_or (List.mem_mergeSort.mpr hx) (List.mem_mergeSort.mpr hy) hne with h | h
  · exact h
  · -- the other way round the two would tie, and each would have stood first
    obtain ⟨hle', hstood'⟩ := forward hy hx h
    exact absurd (hstood' hle) ((hstood hle').asymm hl)

end Lists

/-! ## Keys -/

theorem Key.le_iff (a b : Key) :
    a.le b = true ↔ a.order < b.order ∨ a.order = b.order ∧
      (a.group < b.group ∨ a.group = b.group ∧
        (a.notBefore = false ∧ b.notBefore = true ∨ a.notBefore = b.notBefore ∧
          a.declaration ≤ b.declaration)) := by
  unfold Key.le
  by_cases horder : a.order = b.order
  · by_cases hgroup : a.group = b.group
    · cases ha : a.notBefore <;> cases hb : b.notBefore <;> simp [horder, hgroup]
    · simp [horder, hgroup]
  · simp [horder]

theorem Key.le_trans (a b c : Key) (h : a.le b = true) (h' : b.le c = true) :
    a.le c = true := by
  rw [Key.le_iff] at *
  grind

theorem Key.le_total (a b : Key) : (a.le b || b.le a) = true := by
  rw [Bool.or_eq_true, Key.le_iff, Key.le_iff]
  grind

/-! ## Leaders -/

/-- The explicit order, a missing one counting as the last. -/
def rank (a : Advisor) : Int :=
  a.order.getD lastOrder

/-- The first advisor of the same aspect in the list; without an aspect the advisor
itself. -/
def leader (as : List Advisor) (a : Advisor) : Advisor :=
  match a.aspect with
  | some name => (as.find? fun b => b.aspect == some name).getD a
  | none => a

section Leaders

variable {as : List Advisor} {a b : Advisor} {i j : Nat}

theorem leader_of_none (h : a.aspect = none) : leader as a = a := by
  unfold leader
  rw [h]

theorem leader_of_some {name : String} (h : a.aspect = some name) (ha : a ∈ as) :
    as.find? (fun b => b.aspect == some name) = some (leader as a) := by
  unfold leader
  rw [h]
  cases hfind : as.find? fun b => b.aspect == some name with
  | some l => simp only [hfind, Option.getD_some]
  | none =>
    have hno := List.find?_eq_none.mp hfind a ha
    simp [h] at hno

theorem leader_mem (ha : a ∈ as) : leader as a ∈ as := by
  cases h : a.aspect with
  | none =>
    rw [leader_of_none h]
    exact ha
  | some name => exact List.mem_of_find?_eq_some (leader_of_some h ha)

theorem aspect_leader (ha : a ∈ as) : (leader as a).aspect = a.aspect := by
  cases h : a.aspect with
  | none => rw [leader_of_none h, h]
  | some name =>
    have hl := List.find?_some (leader_of_some h ha)
    exact eq_of_beq hl

/-- Two advisors have one leader if they are of one aspect. -/
theorem leader_eq_iff (ha : a ∈ as) (hb : b ∈ as) :
    leader as a = leader as b ↔ a = b ∨ a.aspect.isSome = true ∧ a.aspect = b.aspect := by
  constructor
  · intro h
    have haspect : a.aspect = b.aspect := by
      rw [← aspect_leader ha, ← aspect_leader hb, h]
    cases hname : a.aspect with
    | some name => exact .inr ⟨rfl, hname.symm.trans haspect⟩
    | none =>
      rw [leader_of_none hname, leader_of_none (haspect.symm.trans hname)] at h
      exact .inl h
  · rintro (rfl | ⟨hsome, haspect⟩)
    · rfl
    · obtain ⟨name, hname⟩ := Option.isSome_iff_exists.mp hsome
      have hla := leader_of_some hname ha
      have hlb := leader_of_some (haspect.symm.trans hname) hb
      exact Option.some.inj (hla.symm.trans hlb)

theorem group_of_none (h : a.aspect = none) : (keyAt as i a).group = i := by
  simp [keyAt, h]

theorem group_of_some {name : String} (h : a.aspect = some name) :
    (keyAt as i a).group = firstPlace as name := by
  simp [keyAt, h]

/-- The group of an advisor is the place of its leader. -/
theorem getElem?_group (ha : as[i]? = some a) :
    as[(keyAt as i a).group]? = some (leader as a) := by
  cases h : a.aspect with
  | none => rw [group_of_none h, ha, leader_of_none h]
  | some name =>
    obtain ⟨_, k, hk, hl, hbefore⟩ :=
      List.find?_eq_some_iff_getElem.mp (leader_of_some h (List.mem_of_getElem? ha))
    have hplace : firstPlace as name = k := by
      unfold firstPlace
      rw [List.findIdx_eq hk]
      refine ⟨?_, fun m hm => by simpa using hbefore m hm⟩
      rw [hl, aspect_leader (List.mem_of_getElem? ha), h]
      exact beq_self_eq_true _
    rw [group_of_some h, hplace, List.getElem?_eq_getElem hk, hl]

theorem group_lt_iff (has : as.Nodup) (ha : as[i]? = some a) (hb : as[j]? = some b) :
    (keyAt as i a).group < (keyAt as j b).group ↔
      Precedes as (leader as a) (leader as b) :=
  (precedes_iff_lt has (getElem?_group ha) (getElem?_group hb)).symm

theorem group_eq_iff (has : as.Nodup) (ha : as[i]? = some a) (hb : as[j]? = some b) :
    (keyAt as i a).group = (keyAt as j b).group ↔ leader as a = leader as b := by
  have hla := getElem?_group ha
  have hlb := getElem?_group hb
  constructor
  · intro h
    rw [h, hlb] at hla
    exact (Option.some.inj hla).symm
  · intro h
    exact place_unique has hla (by rw [hlb, h])

end Leaders

/-! ## The order of a sorted list -/

/-- Of two advisors of one group: advice that runs before a call comes first, then what
was declared first, then what stands first in the list. -/
def BeforeWithin (as : List Advisor) (a b : Advisor) : Prop :=
  a.isBefore = true ∧ b.isBefore = false ∨
    a.isBefore = b.isBefore ∧ (a.declarationOrder < b.declarationOrder ∨
      a.declarationOrder = b.declarationOrder ∧ Precedes as a b)

/-- By the rules the first of the advisors in the list is to act before the second. -/
def ActsBefore (as : List Advisor) (a b : Advisor) : Prop :=
  rank a < rank b ∨ rank a = rank b ∧
    (Precedes as (leader as a) (leader as b) ∨
      leader as a = leader as b ∧ BeforeWithin as a b)

section Places

/-- The key of the advisor at a place. -/
def placeKey (as : List Advisor) (i : Fin as.length) : Key :=
  keyAt as i (as.get i)

/-- The order of places by the keys of their advisors. -/
def placeLe (as : List Advisor) (i j : Fin as.length) : Bool :=
  (placeKey as i).le (placeKey as j)

/-- The places of a list in the order in which their advisors act. -/
def order (as : List Advisor) : List (Fin as.length) :=
  (List.finRange as.length).mergeSort (placeLe as)

theorem keyed_eq_map (as : List Advisor) :
    keyed as = (List.finRange as.length).map fun i => (placeKey as i, as.get i) := by
  refine List.ext_getElem (by simp [keyed]) fun k hk hk' => ?_
  simp [keyed, placeKey]

theorem map_finRange (as : List Advisor) :
    (List.finRange as.length).map as.get = as :=
  List.ext_getElem (by simp) (by simp)

/-- A list may hold an advisor twice, so what is sorted are its places. -/
theorem sort_eq_map (as : List Advisor) : sort as = (order as).map as.get := by
  have hkeys := List.map_mergeSort (l := List.finRange as.length)
    (r := placeLe as) (s := fun x y => x.1.le y.1)
    (f := fun i => (placeKey as i, as.get i)) fun _ _ _ _ => rfl
  unfold sort order
  rw [keyed_eq_map, ← hkeys, List.map_map]
  rfl

theorem order_perm (as : List Advisor) : (order as).Perm (List.finRange as.length) :=
  List.mergeSort_perm _ _

theorem nodup_order (as : List Advisor) : (order as).Nodup :=
  (order_perm as).nodup_iff.mpr (List.nodup_finRange _)

theorem mem_order {as : List Advisor} (i : Fin as.length) : i ∈ order as :=
  (order_perm as).mem_iff.mpr (List.mem_finRange i)

/-- What acts first has the smaller key, or an equal one and the earlier place. -/
theorem precedes_order_iff {as : List Advisor} {i j : Fin as.length} (hne : i ≠ j) :
    Precedes (order as) i j ↔ (placeKey as i).le (placeKey as j) = true ∧
      ((placeKey as j).le (placeKey as i) = true → i < j) := by
  have hplaces : Precedes (List.finRange as.length) i j ↔ i < j :=
    precedes_iff_lt (List.nodup_finRange _) (by simp) (by simp)
  have htrans : ∀ p q r, placeLe as p q = true → placeLe as q r = true → placeLe as p r = true :=
    fun _ _ _ => Key.le_trans _ _ _
  have htotal : ∀ p q, (placeLe as p q || placeLe as q p) = true := fun _ _ => Key.le_total _ _
  rw [order, precedes_mergeSort_iff htrans htotal (List.nodup_finRange _) (List.mem_finRange i)
    (List.mem_finRange j) hne, hplaces]
  rfl

end Places

section Sorted

variable {as : List Advisor} {a b : Advisor} {i j : Nat}

/-- A sorted list holds what the list held. -/
theorem sort_perm (as : List Advisor) : (sort as).Perm as := by
  have h := (order_perm as).map as.get
  rwa [← sort_eq_map, map_finRange] at h

theorem key_le_iff_actsBefore (has : as.Nodup) (ha : as[i]? = some a) (hb : as[j]? = some b) :
    ((keyAt as i a).le (keyAt as j b) = true ∧
      ((keyAt as j b).le (keyAt as i a) = true → i < j)) ↔ ActsBefore as a b := by
  have horder : ∀ k c, (keyAt as k c).order = rank c := fun _ _ => rfl
  have hbefore : ∀ k c, (keyAt as k c).notBefore = !c.isBefore := fun _ _ => rfl
  have hdeclared : ∀ k c, (keyAt as k c).declaration = c.declarationOrder := fun _ _ => rfl
  unfold ActsBefore BeforeWithin
  rw [Key.le_iff, Key.le_iff, ← group_lt_iff has ha hb, ← group_eq_iff has ha hb,
    precedes_iff_lt has ha hb]
  simp only [horder, hbefore, hdeclared]
  grind

/-- An advisor comes before another one in the sorted list exactly if by the rules it is to
act before it. -/
theorem precedes_sort_iff (has : as.Nodup) (ha : a ∈ as) (hb : b ∈ as) (hne : a ≠ b) :
    Precedes (sort as) a b ↔ ActsBefore as a b := by
  obtain ⟨i, hi, rfl⟩ := List.getElem_of_mem ha
  obtain ⟨j, hj, rfl⟩ := List.getElem_of_mem hb
  have hinj : Function.Injective as.get := fun k k' h =>
    Fin.ext (place_unique has (List.getElem?_eq_getElem k.isLt)
      (List.getElem?_eq_some_iff.mpr ⟨k'.isLt, h.symm⟩))
  have hplaces : (⟨i, hi⟩ : Fin as.length) ≠ ⟨j, hj⟩ := fun h => hne (congrArg _ h)
  rw [sort_eq_map]
  refine (precedes_map_iff (x := ⟨i, hi⟩) (y := ⟨j, hj⟩) hinj).trans ?_
  refine (precedes_order_iff hplaces).trans ?_
  exact key_le_iff_actsBefore has (List.getElem?_eq_getElem hi) (List.getElem?_eq_getElem hj)

end Sorted

end Aspects.Precedence
