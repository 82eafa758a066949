import Aspects.Proofs.Globbing.Spans

/-!
# Reading parts back

What is written for a part is read back as one node, whatever part follows it
(`readGroup_part`), so that what is written with parts is always readable and stands for their
tree (`parse_parts`). This makes the engine of this library a lawful one (`engine_lawful`), and
the answers that are asked of it, or of any other lawful engine, are those of the rows.
-/

namespace Aspects.Text.Wildcard

open Regex (Node readGroup readSigns readEscape)

variable {c : Char} {parts : List Part}

/-! ## What is written -/

theorem quote_letter_eq (c : Char) : quote [c] = if c ∈ special then ['\\', c] else [c] := rfl

/-- No sign of repetition follows. -/
def Calm (s : List Char) : Prop :=
  ∀ c ∈ s.head?, c ≠ '*' ∧ c ≠ '+' ∧ c ≠ '?' ∧ c ≠ '\x7b'

theorem calm_write (parts : List Part) : Calm (parts.flatMap engine.write) := by
  cases parts with
  | nil => simp [Calm]
  | cons part parts =>
    rw [List.flatMap_cons]
    cases part with
    | textStart => simp [Calm, Engine.write]
    | textEnd => simp [Calm, Engine.write]
    | anyRun => simp [Calm, Engine.write]
    | letter c =>
      show Calm (quote [c] ++ _)
      rw [quote_letter_eq]
      split
      next => simp [Calm]
      next h =>
        rintro d hd
        obtain rfl : c = d := by simpa using hd
        refine ⟨?_, ?_, ?_, ?_⟩ <;> rintro rfl <;> exact h (by decide)

/-! ## Reading it back -/

variable {n : Nat} {now a : Node} {s : List Char}

theorem readSigns_calm (h : Calm s) : readSigns (n + 1) a s = some (a, s) := by
  have hsign : Regex.readSign s = some none := by
    cases s with
    | nil => rfl
    | cons c s =>
      obtain ⟨h₁, h₂, h₃, h₄⟩ := h c rfl
      unfold Regex.readSign
      split <;> simp_all
  rw [readSigns, hsign]

theorem readSigns_star (h : Calm s) :
    readSigns (n + 1 + 1) a ('*' :: s) = some (.times a 0 none, s) := by
  have hsign : Regex.readSign ('*' :: s) = some (some ((0, none), s)) := by
    cases s with
    | nil => rfl
    | cons c s =>
      simp only [Regex.readSign]
      split
      next hs => exact absurd (List.cons.inj hs).1 (h c rfl).2.2.1
      next => rfl
  rw [readSigns, hsign]
  exact readSigns_calm h

theorem readEscape_special (h : c ∈ special) : readEscape (c :: s) = some (.char c, s) := by
  simp only [special, List.mem_cons, List.not_mem_nil, or_false] at h
  rcases h with rfl | rfl | rfl | rfl | rfl | rfl | rfl | rfl | rfl | rfl | rfl | rfl | rfl | rfl |
    rfl | rfl | rfl | rfl <;> rfl

/-- A character that means nothing in an expression is read as itself. -/
theorem readGroup_plain (hc : c ∉ special) (h : Calm s) :
    readGroup (n + 1) {} none now (c :: s) =
      readGroup n {} none (.seq now (.set (.single c))) s := by
  have hne (d : Char) (hd : d ∈ special) : c ≠ d := fun e => hc (e ▸ hd)
  rw [readGroup]
  · simp only [Bool.false_and, Bool.false_eq_true, if_false, readSigns_calm h]
    rfl
  -- each character with a branch of its own is special
  all_goals first
    | exact hne _ (by decide)
    | exact fun _ e _ => hne _ (by decide) e

/-- What is written for a part is read as its node. -/
theorem readGroup_part (part : Part) (h : Calm s) :
    readGroup (n + 1) {} none now (engine.write part ++ s) =
      readGroup n {} none (.seq now part.node) s := by
  cases part with
  | textStart =>
    show readGroup (n + 1) {} none now ('^' :: s) = _
    simp only [readGroup]
    rw [readSigns_calm h]
    rfl
  | textEnd =>
    show readGroup (n + 1) {} none now ('$' :: s) = _
    simp only [readGroup]
    rw [readSigns_calm h]
    rfl
  | anyRun =>
    show readGroup (n + 1) {} none now ('.' :: '*' :: s) = _
    simp only [readGroup]
    rw [List.length_cons, readSigns_star h]
    rfl
  | letter c =>
    show readGroup (n + 1) {} none now (quote [c] ++ s) = _
    rw [quote_letter_eq]
    split
    next hc =>
      show readGroup (n + 1) {} none now ('\\' :: c :: s) = _
      simp only [readGroup]
      rw [readEscape_special hc]
      simp only
      rw [readSigns_calm h]
      rfl
    next hc => exact readGroup_plain hc h

theorem readGroup_parts (parts : List Part) :
    readGroup (n + 1 + parts.length) {} none now (parts.flatMap engine.write) =
      some (tree now parts, []) := by
  induction parts generalizing now with
  | nil => rfl
  | cons part parts ih =>
    rw [List.flatMap_cons, List.length_cons, ← Nat.add_assoc,
      readGroup_part part (calm_write parts), ih]
    rfl

theorem length_le_flatMap_write (parts : List Part) :
    parts.length ≤ (parts.flatMap engine.write).length := by
  induction parts with
  | nil => exact Nat.le_refl _
  | cons part parts ih =>
    rw [List.flatMap_cons, List.length_append, List.length_cons]
    have hwrite : 1 ≤ (engine.write part).length := by
      cases part with
      | letter c =>
        show 1 ≤ (quote [c]).length
        rw [quote_letter_eq]
        split <;> simp
      | _ => simp [Engine.write]
    omega

/-- What is written with parts can be read, and stands for their tree. -/
theorem parse_parts (parts : List Part) :
    engine.parse? (String.ofList (parts.flatMap engine.write)) =
      some ⟨String.ofList (parts.flatMap engine.write), tree .empty parts⟩ := by
  obtain ⟨n, hn⟩ : ∃ n, 2 * (parts.flatMap engine.write).length + 2 = n + 1 + parts.length := by
    have := length_le_flatMap_write parts
    exact ⟨2 * (parts.flatMap engine.write).length + 1 - parts.length, by omega⟩
  show Regex.parse? _ = _
  unfold Regex.parse?
  simp only [String.toList_ofList]
  rw [hn, readGroup_parts]

/-! ## The engine of this library -/

theorem engine_lawful : engine.Lawful where
  quote_eq s := by
    show quote s = s.flatMap fun c => quote [c]
    induction s with
    | nil => rfl
    | cons c s ih =>
      rw [List.flatMap_cons, ← ih, quote, quote_letter_eq]
      split <;> rfl
  quote_letter c := by
    show quote [c] = [c] ∨ quote [c] = ['\\', c]
    rw [quote_letter_eq]
    split
    · exact .inr rfl
    · exact .inl rfl
  quote_star := rfl
  quote_backslash := rfl
  search_iff parts r text hr := by
    obtain rfl := Option.some.inj ((parse_parts parts).symm.trans hr)
    exact search_tree parts text

/-- Every pattern makes a readable expression. -/
theorem engine_reads (pattern : String) :
    (engine.parse? (engine.expression pattern)).isSome := by
  rw [expression_eq engine_lawful, parse_parts]
  rfl

/-! ## What a pattern admits -/

theorem admits_iff_fits (pattern name : String) :
    admits pattern name = true ↔
      pattern = "*" ∨ ('*' ∉ pattern.toList ∧ pattern = name) ∨
        Fits pattern.toList name.toList := by
  unfold admits
  by_cases hall : pattern = "*"
  · simp [hall]
  · rw [if_neg (by simpa using hall)]
    by_cases hstar : '*' ∈ pattern.toList
    · rw [if_pos (List.contains_iff_mem.mpr hstar), covers_iff_fits]
      simp [hall, hstar]
    · have hfits : Fits pattern.toList name.toList ↔ pattern = name := by
        rw [fits_of_no_star hstar, String.toList_inj, eq_comm]
      rw [if_neg (by simpa using hstar), beq_iff_eq, hfits]
      simp [hall, hstar]

/-- **What a pattern admits.** The star alone admits every name, a pattern without a star the
name it spells, and any other pattern the names that fit it: its literal pieces in their order,
with a run without line feeds for each star. The expression of the pattern gives the same
answer, whatever was asked and remembered before: with the engine of this library, and with any
lawful engine that can read the expression. -/
theorem admits_iff_asked (pattern name : String) (earlier : List (String × String)) :
    (admits pattern name = true ↔
      pattern = "*" ∨ ('*' ∉ pattern.toList ∧ pattern = name) ∨
        Fits pattern.toList name.toList) ∧
    ((engine.ask pattern name).run ((engine.askAll earlier).run []).2).1 = admits pattern name ∧
    ∀ {ρ : Type} (other : Engine ρ), other.Lawful →
      (other.parse? (other.expression pattern)).isSome →
        ((other.ask pattern name).run ((other.askAll earlier).run []).2).1 =
          admits pattern name :=
  ⟨admits_iff_fits pattern name, engine_lawful.ask_eq (engine_reads pattern) name earlier,
    fun _ hlawful hread => hlawful.ask_eq hread name earlier⟩

/-- Both conditions hold of the engine of this library. -/
theorem service_asked :
    engine.Lawful ∧ (engine.parse? (engine.expression "*Service*")).isSome ∧
      ((engine.ask "*Service*" "UserServiceImpl").run
        ((engine.askAll [("*Service", "UserServiceImpl")]).run []).2).1 =
          admits "*Service*" "UserServiceImpl" :=
  ⟨engine_lawful, engine_reads _,
    (admits_iff_asked "*Service*" "UserServiceImpl" [("*Service", "UserServiceImpl")]).2.2
      engine engine_lawful (engine_reads _)⟩

end Aspects.Text.Wildcard
