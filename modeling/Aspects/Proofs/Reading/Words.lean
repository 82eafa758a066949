import Mathlib.Data.List.Basic
import Aspects.Text.Blank

/-!
# Words between blanks

Trimming takes the blanks away that surround a text whose ends are no blanks (`trim_eq`). The
words of a text are read from the right, so that what stands in front of a text either adds to
the word at its beginning (`foldr_splitStep_word`) or, at a blank, ends it; hence a word
followed by a blank is the first of the words (`words_append_blank`), a text that begins with
letters has these at the beginning of its first word (`words_append`), and no word holds a
blank (`unbroken_of_mem_words`).
-/

namespace Aspects.Text

variable {c : Char} {s w before after : List Char}

/-- The text holds no blank. -/
def Unbroken (s : List Char) : Prop :=
  ∀ c ∈ s, isBlank c = false

/-- The text holds nothing but blanks. -/
def Blanks (s : List Char) : Prop :=
  ∀ c ∈ s, isBlank c = true

instance : Decidable (Unbroken s) :=
  List.decidableBAll (isBlank · = false) s

instance : Decidable (Blanks s) :=
  List.decidableBAll (isBlank · = true) s

/-! ## Trimming -/

theorem dropWhile_blanks (h : Blanks before) (hs : ∀ c ∈ s.head?, isBlank c = false) :
    (before ++ s).dropWhile isBlank = s := by
  rw [List.dropWhile_append_of_pos h]
  cases s with
  | nil => rfl
  | cons c s => rw [List.dropWhile_cons_of_neg (by simp [hs c rfl])]

/-- Blanks around a text whose first and last character are none are taken away. -/
theorem trim_eq (hbefore : Blanks before) (hafter : Blanks after) (hne : s ≠ [])
    (hhead : ∀ c ∈ s.head?, isBlank c = false) (hlast : ∀ c ∈ s.getLast?, isBlank c = false) :
    trim (before ++ s ++ after) = s := by
  have hfront : ∀ c ∈ (s ++ after).head?, isBlank c = false := by
    rwa [List.head?_append_of_ne_nil s hne]
  have hback : ∀ c ∈ s.reverse.head?, isBlank c = false := by
    rwa [List.head?_reverse]
  have hafter : Blanks after.reverse := fun c hc => hafter c (List.mem_reverse.mp hc)
  rw [trim, List.append_assoc, dropWhile_blanks hbefore hfront, List.reverse_append,
    dropWhile_blanks hafter hback, List.reverse_reverse]

/-! ## Words -/

theorem splitStep_letter (h : isBlank c = false) (word : List Char) (done : List (List Char)) :
    splitStep c (word, done) = (c :: word, done) := by
  simp [splitStep, h]

theorem splitStep_blank (h : isBlank c = true) (word : List Char) (done : List (List Char)) :
    splitStep c (word, done) = ([], if word.isEmpty then done else word :: done) := by
  simp [splitStep, h]

/-- Letters in front go to the word that is being read. -/
theorem foldr_splitStep_word (h : Unbroken w) (word : List Char) (done : List (List Char)) :
    w.foldr splitStep (word, done) = (w ++ word, done) := by
  induction w with
  | nil => rfl
  | cons c w ih =>
    obtain ⟨hc, hw⟩ := List.forall_mem_cons.mp h
    rw [List.foldr_cons, ih hw, splitStep_letter hc]
    rfl

theorem words_blank_cons (h : isBlank c = true) (s : List Char) : words (c :: s) = words s := by
  unfold words
  rw [List.foldr_cons, splitStep_blank h]
  rfl

/-- Blanks in front change no word. -/
theorem words_blanks_append (h : Blanks before) (s : List Char) :
    words (before ++ s) = words s := by
  induction before with
  | nil => rfl
  | cons c before ih =>
    obtain ⟨hc, hbefore⟩ := List.forall_mem_cons.mp h
    rw [List.cons_append, words_blank_cons hc, ih hbefore]

/-- What a text begins with is what its first word begins with. -/
theorem words_append (h : Unbroken w) (hne : w ≠ []) (s : List Char) :
    ∃ more later, words (w ++ s) = (w ++ more) :: later := by
  unfold words
  rw [List.foldr_append]
  obtain ⟨word, done⟩ := s.foldr splitStep ([], [])
  refine ⟨word, done, ?_⟩
  rw [foldr_splitStep_word h]
  simp [hne]

/-- A word and a blank in front of a text are one more word. -/
theorem words_append_blank (h : Unbroken w) (hne : w ≠ []) (hc : isBlank c = true) (s : List Char) :
    words (w ++ c :: s) = w :: words s := by
  unfold words
  rw [List.foldr_append, List.foldr_cons, splitStep_blank hc, foldr_splitStep_word h]
  simp [hne]

/-- No word holds a blank. -/
theorem unbroken_of_mem_words (h : w ∈ words s) : Unbroken w := by
  have hfold : ∀ s : List Char, Unbroken (s.foldr splitStep ([], [])).1 ∧
      ∀ v ∈ (s.foldr splitStep ([], [])).2, Unbroken v := by
    intro s
    induction s with
    | nil => exact ⟨List.forall_mem_nil _, List.forall_mem_nil _⟩
    | cons c s ih =>
      rw [List.foldr_cons]
      obtain ⟨hword, hdone⟩ := ih
      generalize s.foldr splitStep ([], []) = read at hword hdone
      obtain ⟨word, done⟩ := read
      cases hc : isBlank c with
      | false =>
        rw [splitStep_letter hc]
        exact ⟨List.forall_mem_cons.mpr ⟨hc, hword⟩, hdone⟩
      | true =>
        rw [splitStep_blank hc]
        refine ⟨List.forall_mem_nil _, ?_⟩
        show ∀ v ∈ (if word.isEmpty then done else word :: done), Unbroken v
        split
        · exact hdone
        · exact List.forall_mem_cons.mpr ⟨hword, hdone⟩
  obtain ⟨hword, hdone⟩ := hfold s
  unfold words at h
  simp only at h
  split at h
  · exact hdone w h
  · exact (List.mem_cons.mp h).elim (fun e => e ▸ hword) (hdone w)

end Aspects.Text
