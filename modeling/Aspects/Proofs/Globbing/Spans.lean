import Mathlib.Data.List.Basic
import Mathlib.Data.List.Perm.Subperm
import Aspects.Proofs.Globbing.Parts

/-!
# Where the nodes of parts stop

The tree of an expression that is written with parts has one node for each of them, in their
order (`tree`). Where such a sequence can stop is read off the parts, node by node: a repeated
set of characters stops wherever the characters up to there belong to it, since what `reach`
finds in some rounds is what `walk` finds in as many steps or fewer (`mem_reach`). So the tree
is found in a text exactly if the parts stand somewhere in it (`search_tree`).
-/

namespace Aspects.Text.Regex

variable {step : Nat → List Nat} {front seen : List Nat} {n rounds i j x : Nat}

/-! ## Repetition -/

theorem nodup_eraseDups (l : List Nat) : l.eraseDups.Nodup := by
  cases l with
  | nil => exact List.nodup_nil
  | cons a l =>
    rw [List.eraseDups_cons, List.nodup_cons, List.mem_eraseDups]
    exact ⟨by simp, nodup_eraseDups (l.filter fun b => !b == a)⟩
termination_by l.length
decreasing_by exact Nat.lt_succ_of_le (List.length_filter_le _ _)

theorem mem_walk_succ :
    x ∈ walk step (n + 1) front ↔ x ∈ walk step n (front.flatMap step).eraseDups :=
  Iff.rfl

/-- Each position of a front is walked from on its own. -/
theorem mem_walk : x ∈ walk step n front ↔ ∃ y ∈ front, x ∈ walk step n [y] := by
  induction n generalizing front with
  | zero => simp [walk]
  | succ n ih =>
    rw [mem_walk_succ, ih]
    simp only [mem_walk_succ, List.flatMap_singleton, List.mem_eraseDups, List.mem_flatMap]
    constructor
    · rintro ⟨z, ⟨y, hy, hz⟩, hx⟩
      exact ⟨y, hy, ih.mpr ⟨z, List.mem_eraseDups.mpr hz, hx⟩⟩
    · rintro ⟨y, hy, hx⟩
      obtain ⟨z, hz, hx⟩ := ih.mp hx
      exact ⟨z, ⟨y, hy, List.mem_eraseDups.mp hz⟩, hx⟩

theorem nodup_grow (step : Nat → List Nat) (seen : List Nat) : (grow step seen).Nodup :=
  nodup_eraseDups _

theorem mem_grow : x ∈ grow step seen ↔ x ∈ seen ∨ x ∈ seen.flatMap step := by
  rw [grow, List.mem_eraseDups, List.mem_append]

theorem mem_walk_grow :
    x ∈ walk step n (grow step seen) ↔ x ∈ walk step n seen ∨ x ∈ walk step (n + 1) seen := by
  rw [mem_walk_succ, mem_walk, @mem_walk _ seen, @mem_walk _ (seen.flatMap step).eraseDups]
  simp only [mem_grow, List.mem_eraseDups, or_and_right, exists_or]

/-- If one more step adds no position, every step stays within those already there. -/
theorem step_mem_of_length (hseen : seen.Nodup)
    (h : (grow step seen).length = seen.length) (hx : x ∈ seen.flatMap step) : x ∈ seen := by
  have hle : seen.Subperm (grow step seen) :=
    List.subperm_of_subset hseen fun y hy => mem_grow.mpr (.inl hy)
  exact (hle.perm_of_length_le (Nat.le_of_eq h)).mem_iff.mpr (mem_grow.mpr (.inr hx))

theorem walk_mem_of_closed (hclosed : ∀ y ∈ seen.flatMap step, y ∈ seen)
    (hx : x ∈ walk step n seen) : x ∈ seen := by
  induction n with
  | zero => exact hx
  | succ n ih =>
    rw [mem_walk_succ, mem_walk] at hx
    obtain ⟨y, hy, hx⟩ := hx
    exact ih (mem_walk.mpr ⟨y, hclosed y (List.mem_eraseDups.mp hy), hx⟩)

/-- What is reached in some rounds is what is walked to in as many steps or fewer. -/
theorem mem_reach (hseen : seen.Nodup) :
    x ∈ reach step rounds seen ↔ ∃ n ≤ rounds, x ∈ walk step n seen := by
  induction rounds generalizing seen with
  | zero => simp [reach, walk]
  | succ rounds ih =>
    rw [reach]
    split
    next h =>
      constructor
      · exact fun hx => ⟨0, Nat.zero_le _, hx⟩
      · rintro ⟨n, _, hx⟩
        exact walk_mem_of_closed (fun y => step_mem_of_length hseen (beq_iff_eq.mp h)) hx
    next =>
      rw [ih (nodup_grow step seen)]
      constructor
      · rintro ⟨n, hn, hx⟩
        rcases mem_walk_grow.mp hx with hx | hx
        · exact ⟨n, Nat.le_succ_of_le hn, hx⟩
        · exact ⟨n + 1, Nat.succ_le_succ hn, hx⟩
      · rintro ⟨n, hn, hx⟩
        cases n with
        | zero => exact ⟨0, Nat.zero_le _, mem_walk_grow.mpr (.inl hx)⟩
        | succ n => exact ⟨n, Nat.le_of_succ_le_succ hn, mem_walk_grow.mpr (.inr hx)⟩

/-! ## Nodes -/

section Nodes

variable {text : List Char} {s : CharSet} {a b : Node}

theorem mem_ends_seq :
    j ∈ ends text.toArray (.seq a b) i ↔
      ∃ k ∈ ends text.toArray a i, j ∈ ends text.toArray b k := by
  rw [ends, List.mem_eraseDups, List.mem_flatMap]

theorem mem_ends_set :
    j ∈ ends text.toArray (.set s) i ↔
      ∃ c rest, text.drop i = c :: rest ∧ s.contains c = true ∧ j = i + 1 := by
  rw [ends, List.getElem?_toArray]
  cases hdrop : text.drop i with
  | nil => simp [List.getElem?_eq_none (List.drop_eq_nil_iff.mp hdrop)]
  | cons c rest =>
    have hc : text[i]? = some c := by
      rw [← List.head?_drop, hdrop]
      rfl
    rw [hc]
    by_cases hs : s.contains c = true <;> simp [hs]

/-- Steps over a set take a run of characters that belong to it. -/
theorem mem_walk_set :
    j ∈ walk (ends text.toArray (.set s)) n [i] ↔
      ∃ run rest, text.drop i = run ++ rest ∧ run.length = n ∧
        (∀ c ∈ run, s.contains c = true) ∧ j = i + n := by
  induction n generalizing i with
  | zero =>
    simp only [walk, List.mem_singleton, List.length_eq_zero_iff]
    constructor
    · rintro rfl
      exact ⟨[], _, rfl, rfl, fun _ h => absurd h List.not_mem_nil, rfl⟩
    · rintro ⟨_, _, _, _, _, rfl⟩
      rfl
  | succ n ih =>
    rw [mem_walk_succ, mem_walk]
    simp only [List.flatMap_singleton, List.mem_eraseDups, mem_ends_set]
    constructor
    · rintro ⟨_, ⟨c, rest, hdrop, hc, rfl⟩, hj⟩
      obtain ⟨run, rest', hsplit, hlength, hrun, rfl⟩ := ih.mp hj
      rw [Wildcard.drop_succ_of_drop hdrop] at hsplit
      refine ⟨c :: run, rest', by rw [hdrop, hsplit]; rfl, by simp [hlength], ?_, by omega⟩
      exact List.forall_mem_cons.mpr ⟨hc, hrun⟩
    · rintro ⟨run, rest, hdrop, hlength, hrun, rfl⟩
      obtain ⟨c, run, rfl⟩ := List.exists_cons_of_length_eq_add_one hlength
      obtain ⟨hc, hrun⟩ := List.forall_mem_cons.mp hrun
      refine ⟨i + 1, ⟨c, run ++ rest, hdrop, hc, rfl⟩, ih.mpr ?_⟩
      exact ⟨run, rest, Wildcard.drop_succ_of_drop hdrop, by simpa using hlength, hrun, by omega⟩

/-- A repeated set takes a run of characters that belong to it. -/
theorem mem_ends_times :
    j ∈ ends text.toArray (.times (.set s) 0 none) i ↔
      ∃ run rest, text.drop i = run ++ rest ∧ (∀ c ∈ run, s.contains c = true) ∧
        j = i + run.length := by
  have hreach : j ∈ ends text.toArray (.times (.set s) 0 none) i ↔
      ∃ n ≤ text.length + 1, j ∈ walk (ends text.toArray (.set s)) n [i] :=
    mem_reach (List.pairwise_singleton _ i)
  rw [hreach]
  constructor
  · rintro ⟨n, _, hj⟩
    obtain ⟨run, rest, hdrop, rfl, hrun, rfl⟩ := mem_walk_set.mp hj
    exact ⟨run, rest, hdrop, hrun, rfl⟩
  · rintro ⟨run, rest, hdrop, hrun, rfl⟩
    refine ⟨run.length, ?_, mem_walk_set.mpr ⟨run, rest, hdrop, rfl, hrun, rfl⟩⟩
    have hle := congrArg List.length hdrop
    simp only [List.length_drop, List.length_append] at hle
    omega

end Nodes

end Aspects.Text.Regex

namespace Aspects.Text.Wildcard

open Regex (Node CharSet ends)

variable {text : List Char} {parts : List Part} {now : Node} {c d : Char} {i j : Nat}

/-! ## Trees of parts -/

/-- The characters that a dot stands for. -/
def anyOnLine : CharSet :=
  .complement (.single '\n')

/-- The node of a part. -/
def Part.node : Part → Node
  | textStart => .anchor .textStart
  | textEnd => .anchor .textEnd
  | letter c => .set (.single c)
  | anyRun => .times (.set anyOnLine) 0 none

/-- The nodes of parts behind what stands in front of them. -/
def tree (now : Node) (parts : List Part) : Node :=
  parts.foldl (fun now part => .seq now part.node) now

theorem contains_anyOnLine : anyOnLine.contains c = true ↔ c ≠ '\n' := by
  simp only [anyOnLine, CharSet.contains, CharSet.single, Bool.not_eq_true', ne_eq,
    Bool.and_eq_false_iff, decide_eq_false_iff_not]
  constructor
  · rintro (h | h) rfl
    · exact h (Char.le_refl _)
    · exact h (Char.le_refl _)
  · intro h
    by_contra! hle
    exact h (Char.le_antisymm hle.2 hle.1)

theorem contains_single : (CharSet.single c).contains d = true ↔ d = c := by
  simp only [CharSet.contains, CharSet.single, Bool.and_eq_true, decide_eq_true_eq]
  exact ⟨fun h => Char.le_antisymm h.2 h.1, fun h => h ▸ ⟨Char.le_refl _, Char.le_refl _⟩⟩

/-- The node of a part stops where what the part says ends. -/
theorem mem_ends_node (part : Part) :
    j ∈ ends text.toArray part.node i ↔ part.Spans text i j := by
  cases part with
  | textStart => simp [Part.node, Part.Spans, ends, Regex.Anchor.holds]
  | textEnd => simp [Part.node, Part.Spans, ends, Regex.Anchor.holds]
  | letter c =>
    simp only [Part.node, Part.Spans, Regex.mem_ends_set, contains_single]
    constructor
    · rintro ⟨_, rest, hdrop, rfl, hj⟩
      exact ⟨rest, hdrop, hj⟩
    · rintro ⟨rest, hdrop, hj⟩
      exact ⟨c, rest, hdrop, rfl, hj⟩
  | anyRun => simp only [Part.node, Part.Spans, Regex.mem_ends_times, contains_anyOnLine]

/-- The nodes of parts stop where all that the parts say ends. -/
theorem mem_ends_tree :
    j ∈ ends text.toArray (tree now parts) i ↔
      ∃ k ∈ ends text.toArray now i, SpanAll text parts k j := by
  induction parts generalizing now with
  | nil => simp only [tree, List.foldl_nil, SpanAll, exists_eq_right']
  | cons part parts ih =>
    simp only [tree, List.foldl_cons] at ih ⊢
    rw [ih]
    simp only [Regex.mem_ends_seq, mem_ends_node, SpanAll]
    constructor
    · rintro ⟨k, ⟨m, hm, hk⟩, hspans⟩
      exact ⟨m, hm, k, hk, hspans⟩
    · rintro ⟨m, hm, k, hk, hspans⟩
      exact ⟨k, ⟨m, hm, hk⟩, hspans⟩

/-- The tree of parts is found in a text exactly if the parts stand somewhere in it. -/
theorem search_tree {source : String} (parts : List Part) (name : String) :
    Regex.search ⟨source, tree .empty parts⟩ name = true ↔
      ∃ i ≤ name.toList.length, ∃ j, SpanAll name.toList parts i j := by
  rw [Regex.search, List.any_eq_true]
  simp only [List.mem_range, Bool.not_eq_true', List.isEmpty_eq_false_iff_exists_mem,
    mem_ends_tree, ends, List.mem_singleton, exists_eq_left, List.size_toArray, Nat.lt_succ_iff]

end Aspects.Text.Wildcard
