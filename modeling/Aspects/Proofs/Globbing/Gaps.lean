import Mathlib.Data.List.Basic
import Aspects.Text.Wildcard

/-!
# Patterns with their gaps filled

The stars of a pattern are gaps between its literal pieces. A name fits the pattern if it is
these pieces in their order, with a run of characters other than line feeds in place of each
star (`Fits`). Reading a name against the rows of a pattern from the right decides just that
(`covers_iff_fits`): the row for a pattern holds the answers for all tails of the name
(`row_cons`), so that the answers obey the plain recursion over pattern and name together.
-/

namespace Aspects.Text.Wildcard

variable {c d : Char} {pattern name rest : List Char}

/-- The literal pieces of a pattern: what stands before, between and behind its stars. -/
def pieces (pattern : List Char) : List (List Char) :=
  pattern.splitOn '*'

/-- The pieces in their order, with a run between each and the next. -/
def fill : List (List Char) → List (List Char) → List Char
  | piece :: later, run :: runs => piece ++ run ++ fill later runs
  | pieces, _ => pieces.flatten

/-- The name is the pieces of the pattern with a run without line feeds for each star. -/
def Fits (pattern name : List Char) : Prop :=
  ∃ runs : List (List Char), runs.length = pattern.count '*' ∧ (∀ run ∈ runs, '\n' ∉ run) ∧
    name = fill (pieces pattern) runs

/-! ## Fitting, character by character -/

theorem pieces_ne_nil (pattern : List Char) : pieces pattern ≠ [] :=
  List.splitOnP_ne_nil _ _

theorem pieces_star (pattern : List Char) : pieces ('*' :: pattern) = [] :: pieces pattern := by
  unfold pieces List.splitOn
  rw [List.splitOnP_cons_eq_if_modifyHead]
  rfl

/-- A letter belongs to the first piece of what follows it. -/
theorem pieces_letter (h : c ≠ '*') (pattern : List Char) :
    ∃ piece later, pieces pattern = piece :: later ∧
      pieces (c :: pattern) = (c :: piece) :: later := by
  obtain ⟨piece, later, hpieces⟩ := List.exists_cons_of_ne_nil (pieces_ne_nil pattern)
  refine ⟨piece, later, hpieces, ?_⟩
  have hc : ¬(c == '*') = true := by simpa using h
  unfold pieces List.splitOn at hpieces ⊢
  rw [List.splitOnP_cons_eq_if_modifyHead, if_neg hc, hpieces]
  rfl

theorem fill_letter (c : Char) (piece : List Char) (later runs : List (List Char)) :
    fill ((c :: piece) :: later) runs = c :: fill (piece :: later) runs := by
  cases runs with
  | nil => rfl
  | cons run runs => rfl

theorem fits_nil : Fits [] name ↔ name = [] := by
  constructor
  · rintro ⟨runs, hlength, _, rfl⟩
    rw [List.eq_nil_of_length_eq_zero hlength]
    rfl
  · rintro rfl
    exact ⟨[], rfl, fun _ h => absurd h List.not_mem_nil, rfl⟩

/-- A star takes a run without line feeds. -/
theorem fits_star :
    Fits ('*' :: pattern) name ↔
      ∃ run rest, name = run ++ rest ∧ '\n' ∉ run ∧ Fits pattern rest := by
  constructor
  · rintro ⟨runs, hlength, hfeeds, rfl⟩
    rw [List.count_cons_self] at hlength
    obtain ⟨run, runs, rfl⟩ := List.exists_cons_of_length_eq_add_one hlength
    refine ⟨run, fill (pieces pattern) runs, ?_, hfeeds run List.mem_cons_self, runs, ?_, ?_, rfl⟩
    · rw [pieces_star]
      rfl
    · simpa using hlength
    · exact fun r hr => hfeeds r (List.mem_cons_of_mem _ hr)
  · rintro ⟨run, rest, rfl, hrun, runs, hlength, hfeeds, rfl⟩
    refine ⟨run :: runs, by simp [hlength], ?_, ?_⟩
    · intro r hr
      rcases List.mem_cons.mp hr with rfl | hr
      · exact hrun
      · exact hfeeds r hr
    · rw [pieces_star]
      rfl

/-- Any other character takes itself. -/
theorem fits_letter (h : c ≠ '*') :
    Fits (c :: pattern) name ↔ ∃ rest, name = c :: rest ∧ Fits pattern rest := by
  obtain ⟨piece, later, hpieces, hlonger⟩ := pieces_letter h pattern
  have hcount : (c :: pattern).count '*' = pattern.count '*' :=
    List.count_cons_of_ne h
  unfold Fits
  rw [hcount, hpieces, hlonger]
  constructor
  · rintro ⟨runs, hlength, hfeeds, rfl⟩
    exact ⟨_, fill_letter c piece later runs, runs, hlength, hfeeds, rfl⟩
  · rintro ⟨rest, rfl, runs, hlength, hfeeds, rfl⟩
    exact ⟨runs, hlength, hfeeds, (fill_letter c piece later runs).symm⟩

/-- Without a star the pattern is the one piece. -/
theorem fits_of_no_star (h : '*' ∉ pattern) : Fits pattern name ↔ name = pattern := by
  induction pattern generalizing name with
  | nil => exact fits_nil
  | cons c pattern ih =>
    obtain ⟨hc, hpattern⟩ := List.ne_and_not_mem_of_not_mem_cons h
    rw [fits_letter (Ne.symm hc)]
    simp only [ih hpattern, exists_eq_right]

/-! ## Rows -/

theorem row_star (name pattern : List Char) :
    row name ('*' :: pattern) = starRow name (row name pattern) := rfl

theorem row_letter (h : c ≠ '*') (name pattern : List Char) :
    row name (c :: pattern) = letterRow c name (row name pattern) := by
  rw [row]
  exact h

/-- A row has one answer more than that for the tail of the name. -/
theorem row_cons (d : Char) (name pattern : List Char) :
    row (d :: name) pattern = covers pattern (d :: name) :: row name pattern := by
  suffices h : ∃ b, row (d :: name) pattern = b :: row name pattern by
    obtain ⟨b, hb⟩ := h
    unfold covers
    rw [hb]
    rfl
  induction pattern with
  | nil => exact ⟨false, rfl⟩
  | cons c pattern ih =>
    obtain ⟨b, hb⟩ := ih
    by_cases h : c = '*'
    · subst h
      rw [row_star, row_star, hb]
      exact ⟨_, rfl⟩
    · rw [row_letter h, row_letter h, hb]
      exact ⟨_, rfl⟩

theorem covers_star_nil : covers ('*' :: pattern) [] = covers pattern [] := by
  unfold covers
  rw [row_star, starRow]
  exact fun _ _ _ _ h => nomatch h

theorem covers_star_cons :
    covers ('*' :: pattern) (d :: name) =
      (covers pattern (d :: name) || (d != '\n' && covers ('*' :: pattern) name)) := by
  show (row (d :: name) ('*' :: pattern)).headD false = _
  rw [row_star, row_cons]
  rfl

theorem covers_letter_nil (h : c ≠ '*') : covers (c :: pattern) [] = false := by
  unfold covers
  rw [row_letter h, letterRow]
  · rfl
  · exact fun _ _ _ _ h => nomatch h

theorem covers_letter_cons (h : c ≠ '*') :
    covers (c :: pattern) (d :: name) = (c == d && covers pattern name) := by
  show (row (d :: name) (c :: pattern)).headD false = _
  rw [row_letter h, row_cons]
  rfl

/-- A star covers what it takes, followed by what the rest of the pattern covers. -/
theorem covers_star_iff :
    covers ('*' :: pattern) name = true ↔
      ∃ run rest, name = run ++ rest ∧ '\n' ∉ run ∧ covers pattern rest = true := by
  induction name with
  | nil =>
    rw [covers_star_nil]
    constructor
    · exact fun h => ⟨[], [], rfl, List.not_mem_nil, h⟩
    · rintro ⟨run, rest, hsplit, _, h⟩
      obtain ⟨_, rfl⟩ := List.append_eq_nil_iff.mp hsplit.symm
      exact h
  | cons d name ih =>
    rw [covers_star_cons, Bool.or_eq_true, Bool.and_eq_true, ih, bne_iff_ne]
    constructor
    · rintro (h | ⟨hd, run, rest, rfl, hrun, h⟩)
      · exact ⟨[], d :: name, rfl, List.not_mem_nil, h⟩
      · exact ⟨d :: run, rest, rfl, List.not_mem_cons_of_ne_of_not_mem (Ne.symm hd) hrun, h⟩
    · rintro ⟨run, rest, hsplit, hrun, h⟩
      cases run with
      | nil =>
        cases hsplit
        exact .inl h
      | cons e run =>
        obtain ⟨rfl, rfl⟩ := List.cons.inj hsplit
        obtain ⟨he, hrun⟩ := List.ne_and_not_mem_of_not_mem_cons hrun
        exact .inr ⟨Ne.symm he, run, rest, rfl, hrun, h⟩

/-- What a pattern covers are the names that fit it. -/
theorem covers_iff_fits : covers pattern name = true ↔ Fits pattern name := by
  induction pattern generalizing name with
  | nil =>
    rw [fits_nil]
    cases name with
    | nil => exact iff_of_true rfl rfl
    | cons d name => exact iff_of_false (fun h => nomatch h) (fun h => nomatch h)
  | cons c pattern ih =>
    by_cases h : c = '*'
    · subst h
      rw [covers_star_iff, fits_star]
      simp only [ih]
    · rw [fits_letter h]
      cases name with
      | nil => simp [covers_letter_nil h]
      | cons d name =>
        rw [covers_letter_cons h, Bool.and_eq_true, beq_iff_eq, ih]
        constructor
        · rintro ⟨rfl, hfits⟩
          exact ⟨name, rfl, hfits⟩
        · rintro ⟨rest, hsplit, hfits⟩
          obtain ⟨rfl, rfl⟩ := List.cons.inj hsplit
          exact ⟨rfl, hfits⟩

end Aspects.Text.Wildcard
