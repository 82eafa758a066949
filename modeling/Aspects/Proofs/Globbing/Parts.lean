import Aspects.Proofs.Globbing.Gaps
import Aspects.Text.Wildcard.Compiled

/-!
# What an engine is relied on for

The expression of a pattern is written with four kinds of parts: the two ends of the text, a
quoted letter, and a dot with a star behind it (`Part`). All that is asked of an engine is that
quoting goes letter by letter, and that what it reads from a list of parts is found where each
part stands for what it says (`Engine.Lawful`). Under such an engine the expression of a
pattern is written with the parts of the pattern (`loosen_quote`), and these span a text
exactly if the text fits the pattern (`spanAll_whole`). So each answer is that of the rows, and
a memory that holds nothing but read expressions never changes it (`ask_of_sound`).
-/

namespace Aspects.Text.Wildcard

variable {ρ : Type} {engine : Engine ρ} {c : Char} {pattern name text : List Char} {i j : Nat}

/-! ## Parts -/

/-- A part of an expression. -/
inductive Part where
  | textStart
  | textEnd
  | letter (c : Char)
  | anyRun

/-- From `i` to `j` stands what the part says: the end of the text, the letter, or a run of
characters that are no line feeds. -/
def Part.Spans (text : List Char) : Part → Nat → Nat → Prop
  | textStart, i, j => i = 0 ∧ j = i
  | textEnd, i, j => i = text.length ∧ j = i
  | letter c, i, j => ∃ rest, text.drop i = c :: rest ∧ j = i + 1
  | anyRun, i, j =>
    ∃ run rest, text.drop i = run ++ rest ∧ (∀ c ∈ run, c ≠ '\n') ∧ j = i + run.length

/-- From `i` to `j` stands what the parts say, one behind the other. -/
def SpanAll (text : List Char) : List Part → Nat → Nat → Prop
  | [], i, j => j = i
  | part :: parts, i, j => ∃ k, part.Spans text i k ∧ SpanAll text parts k j

/-- How a part is written for an engine. -/
def Engine.write (engine : Engine ρ) : Part → List Char
  | .textStart => ['^']
  | .textEnd => ['$']
  | .letter c => engine.quote [c]
  | .anyRun => ['.', '*']

/-- Quoting goes letter by letter and puts nothing but a backslash in front, as it does in front
of a star and of a backslash; an expression that is written with parts and can be read is found
in the texts in which these parts stand somewhere. -/
structure Engine.Lawful (engine : Engine ρ) : Prop where
  quote_eq : ∀ s, engine.quote s = s.flatMap fun c => engine.quote [c]
  quote_letter : ∀ c, engine.quote [c] = [c] ∨ engine.quote [c] = ['\\', c]
  quote_star : engine.quote ['*'] = ['\\', '*']
  quote_backslash : engine.quote ['\\'] = ['\\', '\\']
  search_iff : ∀ (parts : List Part) (r : ρ) (text : String),
    engine.parse? (String.ofList (parts.flatMap engine.write)) = some r →
      (engine.search r text = true ↔
        ∃ i ≤ text.toList.length, ∃ j, SpanAll text.toList parts i j)

theorem spanAll_append {parts later : List Part} :
    SpanAll text (parts ++ later) i j ↔ ∃ k, SpanAll text parts i k ∧ SpanAll text later k j := by
  induction parts generalizing i with
  | nil => simp only [List.nil_append, SpanAll, exists_eq_left]
  | cons part parts ih =>
    simp only [List.cons_append, SpanAll, ih]
    constructor
    · rintro ⟨m, hm, k, hk, hj⟩
      exact ⟨k, ⟨m, hm, hk⟩, hj⟩
    · rintro ⟨k, ⟨m, hm, hk⟩, hj⟩
      exact ⟨m, hm, k, hk, hj⟩

/-! ## The parts of a pattern -/

/-- What a character of a pattern says: a star any run, another character itself. -/
def part (c : Char) : Part :=
  if c = '*' then .anyRun else .letter c

/-- The parts of a pattern between the two ends of the text. -/
def whole (pattern : List Char) : List Part :=
  .textStart :: (pattern.map part ++ [.textEnd])

/-- No quoted text begins with a star. -/
theorem Engine.Lawful.quote_head (h : engine.Lawful) (pattern : List Char) :
    (engine.quote pattern).head? ≠ some '*' := by
  rw [h.quote_eq]
  cases pattern with
  | nil => exact fun h => nomatch h
  | cons c pattern =>
    rw [List.flatMap_cons]
    by_cases hstar : c = '*'
    · rw [hstar, h.quote_star]
      simp
    · rcases h.quote_letter c with hc | hc <;> rw [hc] <;> simp [hstar]

/-- Only a star behind it takes a backslash away. -/
theorem loosen_cons {s : List Char} (h : c = '\\' → s.head? ≠ some '*') :
    loosen (c :: s) = c :: loosen s := by
  rw [loosen]
  rintro s' rfl rfl
  exact h rfl rfl

theorem Engine.Lawful.quote_cons (h : engine.Lawful) (c : Char) (pattern : List Char) :
    engine.quote (c :: pattern) = engine.quote [c] ++ engine.quote pattern := by
  rw [h.quote_eq, List.flatMap_cons, ← h.quote_eq]

/-- Loosening what is quoted writes the pattern out, character by character. -/
theorem loosen_quote (h : engine.Lawful) (pattern : List Char) :
    loosen (engine.quote pattern) = (pattern.map part).flatMap engine.write := by
  induction pattern with
  | nil =>
    rw [h.quote_eq]
    rfl
  | cons c pattern ih =>
    rw [h.quote_cons, List.map_cons, List.flatMap_cons, ← ih, part]
    by_cases hstar : c = '*'
    · rw [if_pos hstar, hstar, h.quote_star]
      rfl
    rw [if_neg hstar]
    show loosen (engine.quote [c] ++ engine.quote pattern) =
      engine.quote [c] ++ loosen (engine.quote pattern)
    rcases h.quote_letter c with hc | hc <;>
      rw [hc] <;> simp only [List.cons_append, List.nil_append]
    · refine loosen_cons fun hback => ?_
      rw [hback, h.quote_backslash] at hc
      cases hc
    · rw [loosen_cons (by simpa using hstar), loosen_cons fun _ => h.quote_head pattern]

theorem expression_eq (h : engine.Lawful) (pattern : String) :
    engine.expression pattern = String.ofList ((whole pattern.toList).flatMap engine.write) := by
  rw [Engine.expression, loosen_quote h, whole, List.flatMap_cons, List.flatMap_append]
  rfl

/-! ## Where they stand -/

/-- From `i` to `j` the name fits the pattern. -/
def Spans (name pattern : List Char) (i j : Nat) : Prop :=
  ∃ part rest, name.drop i = part ++ rest ∧ Fits pattern part ∧ j = i + part.length

theorem drop_succ_of_drop {rest : List Char} (h : text.drop i = c :: rest) :
    text.drop (i + 1) = rest := by
  rw [← List.tail_drop, h]
  rfl

theorem spans_nil : Spans name [] i j ↔ j = i := by
  unfold Spans
  simp only [fits_nil]
  constructor
  · rintro ⟨_, _, _, rfl, rfl⟩
    rfl
  · rintro rfl
    exact ⟨[], _, rfl, rfl, rfl⟩

/-- The part of a character stops where the rest of a pattern takes over. -/
theorem spans_cons :
    Spans name (c :: pattern) i j ↔
      ∃ k, (part c).Spans name i k ∧ Spans name pattern k j := by
  have hdrop {part rest : List Char} (h : name.drop i = part ++ rest) :
      name.drop (i + part.length) = rest := by
    rw [← List.drop_drop, h, List.drop_left]
  unfold part Spans
  split
  next h =>
    subst h
    simp only [fits_star, Part.Spans]
    constructor
    · rintro ⟨_, rest, hname, ⟨run, part, rfl, hrun, hfits⟩, rfl⟩
      rw [List.append_assoc] at hname
      refine ⟨i + run.length, ⟨run, part ++ rest, hname, ?_, rfl⟩,
        part, rest, hdrop hname, hfits, ?_⟩
      · exact fun d hd hfeed => hrun (hfeed ▸ hd)
      · rw [List.length_append, Nat.add_assoc]
    · rintro ⟨_, ⟨run, behind, hname, hrun, rfl⟩, part, rest, hbehind, hfits, rfl⟩
      rw [hdrop hname] at hbehind
      refine ⟨run ++ part, rest, by rw [hname, hbehind, List.append_assoc], ?_, ?_⟩
      · exact ⟨run, part, rfl, fun h => hrun _ h rfl, hfits⟩
      · rw [List.length_append, Nat.add_assoc]
  next h =>
    simp only [fits_letter h, Part.Spans]
    constructor
    · rintro ⟨_, rest, hname, ⟨part, rfl, hfits⟩, rfl⟩
      refine ⟨i + 1, ⟨part ++ rest, hname, rfl⟩, part, rest, drop_succ_of_drop hname, hfits, ?_⟩
      rw [List.length_cons]
      omega
    · rintro ⟨_, ⟨behind, hname, rfl⟩, part, rest, hbehind, hfits, rfl⟩
      rw [drop_succ_of_drop hname] at hbehind
      refine ⟨c :: part, rest, by rw [hname, hbehind]; rfl, ⟨part, rfl, hfits⟩, ?_⟩
      rw [List.length_cons]
      omega

theorem spanAll_parts : SpanAll name (pattern.map part) i j ↔ Spans name pattern i j := by
  induction pattern generalizing i with
  | nil => exact spans_nil.symm
  | cons c pattern ih => simp only [List.map_cons, SpanAll, ih, spans_cons]

/-- The parts of a pattern between the two ends span a text that fits the pattern. -/
theorem spanAll_whole :
    SpanAll text (whole pattern) i j ↔ i = 0 ∧ j = text.length ∧ Fits pattern text := by
  have hfits : Spans text pattern 0 text.length ↔ Fits pattern text := by
    constructor
    · rintro ⟨part, rest, hsplit, hfits, hlength⟩
      rw [List.drop_zero] at hsplit
      have hrest : rest = [] := by
        rw [hsplit, List.length_append] at hlength
        exact List.eq_nil_of_length_eq_zero (by omega)
      rwa [hsplit, hrest, List.append_nil]
    · exact fun h => ⟨text, [], by simp, h, by simp⟩
  simp only [whole, SpanAll, spanAll_append, spanAll_parts, Part.Spans, ← hfits]
  constructor
  · rintro ⟨_, ⟨rfl, rfl⟩, _, hspans, _, ⟨rfl, rfl⟩, rfl⟩
    exact ⟨rfl, rfl, hspans⟩
  · rintro ⟨rfl, rfl, hspans⟩
    exact ⟨0, ⟨rfl, rfl⟩, _, hspans, _, ⟨rfl, rfl⟩, rfl⟩

/-! ## Asking and remembering -/

/-- A lawful engine that can read the expression of a pattern answers as the rows do. -/
theorem Engine.Lawful.matched_eq (h : engine.Lawful) {pattern : String}
    (hread : (engine.parse? (engine.expression pattern)).isSome) (name : String) :
    engine.matched (engine.parse? (engine.expression pattern)) name =
      covers pattern.toList name.toList := by
  obtain ⟨r, hr⟩ := Option.isSome_iff_exists.mp hread
  rw [Bool.eq_iff_iff, covers_iff_fits, hr]
  rw [expression_eq h] at hr
  refine (h.search_iff _ r name hr).trans ?_
  simp only [spanAll_whole]
  constructor
  · rintro ⟨_, _, _, _, _, hfits⟩
    exact hfits
  · exact fun hfits => ⟨0, Nat.zero_le _, _, rfl, rfl, hfits⟩

/-- The memory holds what the engine reads from the patterns in it. -/
def Engine.Memory.Sound (engine : Engine ρ) (memory : Engine.Memory ρ) : Prop :=
  ∀ pattern compiled, memory.lookup pattern = some compiled →
    compiled = engine.parse? (engine.expression pattern)

variable {memory : Engine.Memory ρ}

theorem Engine.Memory.sound_nil (engine : Engine ρ) : Engine.Memory.Sound engine [] :=
  fun _ _ h => nomatch h

theorem Engine.Memory.Sound.cons (h : Engine.Memory.Sound engine memory) (pattern : String) :
    Engine.Memory.Sound engine
      ((pattern, engine.parse? (engine.expression pattern)) :: memory) := by
  intro other compiled hfound
  rw [List.lookup_cons] at hfound
  split at hfound
  next heq =>
    rw [beq_iff_eq.mp heq]
    exact (Option.some.inj hfound).symm
  next => exact h other compiled hfound

/-- What asking answers without a memory. -/
def Engine.answer (engine : Engine ρ) (pattern name : String) : Bool :=
  if pattern == "*" then true
  else if pattern.toList.contains '*' then
    engine.matched (engine.parse? (engine.expression pattern)) name
  else pattern == name

/-- What is remembered changes no answer, and nothing is remembered but what was read. -/
theorem Engine.ask_of_sound (h : Engine.Memory.Sound engine memory) (pattern name : String) :
    ((engine.ask pattern name).run memory).1 = engine.answer pattern name ∧
      Engine.Memory.Sound engine ((engine.ask pattern name).run memory).2 := by
  unfold ask answer
  by_cases hall : (pattern == "*") = true
  · rw [if_pos hall, if_pos hall]
    exact ⟨rfl, h⟩
  rw [if_neg hall, if_neg hall]
  by_cases hstar : pattern.toList.contains '*' = true
  · rw [hstar, if_neg (by decide), if_pos rfl]
    simp only [StateT.run_bind, StateT.run_get, pure_bind]
    cases hfound : memory.lookup pattern with
    | some compiled =>
      obtain rfl := h pattern compiled hfound
      exact ⟨rfl, h⟩
    | none => exact ⟨rfl, h.cons pattern⟩
  · rw [Bool.eq_false_iff.mpr hstar]
    exact ⟨rfl, h⟩

theorem Engine.askAll_sound (h : Engine.Memory.Sound engine memory)
    (earlier : List (String × String)) :
    Engine.Memory.Sound engine ((engine.askAll earlier).run memory).2 := by
  induction earlier generalizing memory with
  | nil => exact h
  | cons request later ih => exact ih (Engine.ask_of_sound h request.1 request.2).2

theorem Engine.Lawful.answer_eq (h : engine.Lawful) {pattern : String}
    (hread : (engine.parse? (engine.expression pattern)).isSome) (name : String) :
    engine.answer pattern name = admits pattern name := by
  rw [answer, admits, h.matched_eq hread]

/-- Whatever was asked before, a lawful engine that can read the expression of a pattern answers
what the pattern admits. -/
theorem Engine.Lawful.ask_eq (h : engine.Lawful) {pattern : String}
    (hread : (engine.parse? (engine.expression pattern)).isSome) (name : String)
    (earlier : List (String × String)) :
    ((engine.ask pattern name).run ((engine.askAll earlier).run []).2).1 =
      admits pattern name := by
  have hmemory := Engine.askAll_sound (Engine.Memory.sound_nil engine) earlier
  rw [(Engine.ask_of_sound hmemory pattern name).1, h.answer_eq hread]

end Aspects.Text.Wildcard
