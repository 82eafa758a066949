import Mathlib.Data.List.Infix
import Mathlib.Data.List.TakeWhile
import Aspects.Proofs.Reading.Words
import Aspects.Pointcut.Execution

/-!
# Executions read as they were written

An execution is written as the result, the type and the method with a dot between and the
parameters in brackets (`written`). The result is the first word of that text, and the type and
the method are in the second; the first opening bracket there is the one in front of the
parameters, and the last dot before it the one between type and method, whatever stands in the
parameters. Blanks around the text are trimmed, and the enclosing `execution(…)` is taken away
without looking into it. What is read from any text is tidy: the patterns hold no blank and no
opening bracket, and the pattern for the method no dot if there is one for the type.
-/

namespace Aspects.Execution

open Text (Unbroken Blanks isBlank trim words)

variable {r t m a s text inner : String} {word type method name rest : List Char}

/-- The result, the type and the method with a dot between, and the parameters in brackets. -/
def written (result type method parameters : String) : String :=
  result ++ " " ++ type ++ "." ++ method ++ "(" ++ parameters ++ ")"

/-- The text `s` with blanks around it. -/
def Padded (s text : String) : Prop :=
  ∃ before after : String, Blanks before.toList ∧ Blanks after.toList ∧
    text = before ++ s ++ after

/-- No blank and no opening bracket. -/
def Simple (name : List Char) : Prop :=
  ∀ c ∈ name, isBlank c = false ∧ c ≠ '('

instance : Decidable (Simple name) :=
  List.decidableBAll (fun c => isBlank c = false ∧ c ≠ '(') name

/-- The patterns are simple, and the method is divided from the type at the last dot. -/
def Tidy : Expr → Prop
  | .execution t m => Simple t.toList ∧ Simple m.toList ∧ '.' ∉ m.toList
  | .method m => Simple m.toList
  | .all => True
  | _ => False

/-! ## One word -/

theorem splitAtLastDot_append (type : List Char) (h : '.' ∉ method) :
    splitAtLastDot (type ++ '.' :: method) = some (type, method) := by
  have hbehind : ((type ++ '.' :: method).reverse.takeWhile (· != '.')).reverse = method := by
    rw [List.reverse_append, List.reverse_cons, List.append_assoc, List.takeWhile_append_of_pos]
    · simp
    · intro c hc
      exact bne_iff_ne.mpr fun e => h (e ▸ List.mem_reverse.mp hc)
  have hlength : (type ++ '.' :: method).length - method.length - 1 = type.length := by
    rw [List.length_append, List.length_cons]
    omega
  unfold splitAtLastDot
  simp only [hbehind, hlength, List.take_left]
  rw [if_pos (by simp)]

/-- The type and the method stand in front of the first opening bracket. -/
theorem ofWord_append (htype : Simple type) (hmethod : Simple method) (hdot : '.' ∉ method)
    (rest : List Char) :
    ofWord (type ++ '.' :: (method ++ '(' :: rest)) =
      .execution (String.ofList type) (String.ofList method) := by
  have hname : (type ++ '.' :: (method ++ '(' :: rest)).takeWhile (· != '(') =
      type ++ '.' :: method := by
    rw [List.takeWhile_append_of_pos fun c hc => bne_iff_ne.mpr (htype c hc).2,
      List.takeWhile_cons_of_pos (by decide),
      List.takeWhile_append_of_pos fun c hc => bne_iff_ne.mpr (hmethod c hc).2,
      List.takeWhile_cons_of_neg (by decide), List.append_nil]
  unfold ofWord
  simp only [hname, splitAtLastDot_append type hdot]

theorem simple_mono {s s' : List Char} (h : Simple s) (hs : ∀ c ∈ s', c ∈ s) : Simple s' :=
  fun c hc => h c (hs c hc)

/-- What is found in a word without blanks is tidy. -/
theorem tidy_ofWord (h : Unbroken word) : Tidy (ofWord word) := by
  have hname : Simple (word.takeWhile (· != '(')) := fun c hc =>
    ⟨h c (List.takeWhile_subset _ hc), by simpa using List.mem_takeWhile_imp hc⟩
  unfold ofWord
  generalize word.takeWhile (· != '(') = name at hname
  simp only
  split
  next type method hsplit =>
    unfold splitAtLastDot at hsplit
    split at hsplit
    next =>
      obtain ⟨rfl, rfl⟩ := Prod.mk.inj (Option.some.inj hsplit)
      simp only [Tidy, String.toList_ofList]
      refine ⟨simple_mono hname fun c hc => List.mem_of_mem_take hc,
        simple_mono hname fun c hc => ?_, fun hc => ?_⟩
      · exact List.mem_reverse.mp (List.takeWhile_subset _ (List.mem_reverse.mp hc))
      · simpa using List.mem_takeWhile_imp (List.mem_reverse.mp hc)
    next => cases hsplit
  next =>
    simp only [Tidy, String.toList_ofList]
    exact hname

/-! ## The words of the text -/

theorem parse_eq (text : String) :
    parse text = match words (unwrap (trim text.toList)) with
      | _ :: word :: _ => ofWord word
      | _ => .all := rfl

theorem tidy_parse (text : String) : Tidy (parse text) := by
  rw [parse_eq]
  generalize hwords : words (unwrap (trim text.toList)) = found
  split
  next first word later =>
    have hword : word ∈ words (unwrap (trim text.toList)) := by
      rw [hwords]
      simp
    exact tidy_ofWord (Text.unbroken_of_mem_words hword)
  next => trivial

/-- The first word is passed over, and the second names the type and the method. -/
theorem words_written {result : List Char} {c : Char} (hne : result ≠ [])
    (hresult : Unbroken result) (hc : isBlank c = true) (htype : Simple type)
    (hmethod : Simple method) (rest : List Char) :
    ∃ more later, words (result ++ c :: (type ++ '.' :: (method ++ '(' :: rest))) =
      result :: (type ++ '.' :: (method ++ '(' :: more)) :: later := by
  have hname : Unbroken (type ++ '.' :: (method ++ ['('])) := by
    intro d hd
    simp only [List.mem_append, List.mem_cons, List.not_mem_nil, or_false] at hd
    rcases hd with hd | rfl | hd | rfl
    · exact (htype d hd).1
    · decide
    · exact (hmethod d hd).1
    · decide
  obtain ⟨more, later, hwords⟩ := Text.words_append hname (by simp) rest
  refine ⟨more, later, ?_⟩
  rw [Text.words_append_blank hresult hne hc]
  simpa using hwords

/-! ## The text between the outer brackets -/

/-- A first word that does not begin with `execution(` keeps the whole text from it. -/
theorem unwrap_of_first {result : List Char} (h : ¬"execution(".toList <+: result)
    (rest : List Char) : unwrap (result ++ ' ' :: rest) = result ++ ' ' :: rest := by
  unfold unwrap
  simp only
  rw [if_neg]
  intro hprefix
  rw [List.isPrefixOf_iff_prefix] at hprefix
  rcases List.prefix_or_prefix_of_prefix hprefix (List.prefix_append result _) with hshort | ⟨u, hu⟩
  · exact h hshort
  · rw [← hu, List.prefix_append_right_inj] at hprefix
    cases u with
    | nil => exact h ⟨[], by rw [← hu]; simp⟩
    | cons c u =>
      obtain rfl : c = ' ' := (List.cons_prefix_cons.mp hprefix).1
      have hmem : ' ' ∈ "execution(".toList := by
        rw [← hu]
        simp
      exact absurd hmem (by decide)

theorem unwrap_enclosed (inner : List Char) :
    unwrap ("execution(".toList ++ (inner ++ [')'])) = inner := by
  unfold unwrap
  simp only
  rw [if_pos (List.isPrefixOf_iff_prefix.mpr (List.prefix_append _ _)), List.drop_left]
  simp

/-! ## Whole texts -/

theorem toList_written (r t m a : String) :
    (written r t m a).toList =
      r.toList ++ ' ' :: (t.toList ++ '.' :: (m.toList ++ '(' :: (a.toList ++ [')']))) := by
  simp [written]

/-- A text that begins with a letter and ends with a bracket is trimmed to itself. -/
theorem trim_padded {front : List Char} (h : Padded s text) (hfront : s.toList = front ++ [')'])
    (hhead : ∀ c ∈ s.toList.head?, isBlank c = false) : trim text.toList = s.toList := by
  obtain ⟨before, after, hbefore, hafter, rfl⟩ := h
  have hlast : s.toList.getLast? = some ')' := by
    rw [hfront, List.getLast?_concat]
  rw [String.toList_append, String.toList_append]
  refine Text.trim_eq hbefore hafter (by simp [hfront]) hhead fun c hc => ?_
  obtain rfl := Option.some.inj (hlast.symm.trans hc)
  decide

/-- Once the outer brackets are gone, the words say the rest. -/
theorem parse_of_unwrap {before : List Char} (hbefore : Blanks before) (hne : r ≠ "")
    (hr : Unbroken r.toList) (ht : Simple t.toList) (hm : Simple m.toList)
    (hdot : '.' ∉ m.toList) (rest : List Char)
    (h : unwrap (trim text.toList) = before ++
      (r.toList ++ ' ' :: (t.toList ++ '.' :: (m.toList ++ '(' :: rest)))) :
    parse text = .execution t m := by
  have hne : r.toList ≠ [] := fun e => hne (String.toList_eq_nil_iff.mp e)
  obtain ⟨more, later, hwords⟩ := words_written hne hr (by decide : isBlank ' ' = true) ht hm rest
  rw [parse_eq, h, Text.words_blanks_append hbefore, hwords]
  show ofWord _ = _
  rw [ofWord_append ht hm hdot, String.ofList_toList, String.ofList_toList]

/-- **Executions are read as they were written.** Whatever the parameters are and whatever
blanks stand around it, the text of an execution gives its type and its method, enclosed in
`execution(…)` or not; and what any text gives is tidy. -/
theorem parse_written :
    (∀ r t m a : String, r ≠ "" → Unbroken r.toList → ¬"execution(".toList <+: r.toList →
      Simple t.toList → Simple m.toList → '.' ∉ m.toList →
      (∀ text, Padded (written r t m a) text → parse text = .execution t m) ∧
      ∀ inner text, Padded (written r t m a) inner → Padded ("execution(" ++ inner ++ ")") text →
        parse text = .execution t m) ∧
    ∀ text, Tidy (parse text) := by
  refine ⟨fun r t m a hne hr hopening ht hm hdot => ⟨?_, ?_⟩, tidy_parse⟩
  · intro text htext
    have hhead : ∀ c ∈ (written r t m a).toList.head?, isBlank c = false := by
      have hsome : r.toList ≠ [] := fun e => hne (String.toList_eq_nil_iff.mp e)
      rw [toList_written, List.head?_append_of_ne_nil _ hsome]
      exact fun c hc => hr c (List.mem_of_head? hc)
    have htrim := trim_padded htext (String.toList_append ..) hhead
    refine parse_of_unwrap (List.forall_mem_nil _) hne hr ht hm hdot (a.toList ++ [')']) ?_
    rw [htrim, toList_written, unwrap_of_first hopening]
    rfl
  · intro inner text hinner htext
    have hlist : ("execution(" ++ inner ++ ")").toList =
        "execution(".toList ++ (inner.toList ++ [')']) := by
      simp
    have hhead : ∀ c ∈ ("execution(" ++ inner ++ ")").toList.head?, isBlank c = false := by
      rw [hlist]
      exact fun c hc => (Option.some.inj hc) ▸ by decide
    have htrim := trim_padded htext (String.toList_append ..) hhead
    obtain ⟨before, after, hbefore, _, rfl⟩ := hinner
    refine parse_of_unwrap hbefore hne hr ht hm hdot (a.toList ++ ')' :: after.toList) ?_
    rw [htrim, hlist, unwrap_enclosed]
    simp [toList_written]

/-- Brackets, dots and blanks among the parameters mislead nobody. -/
theorem parse_written_enclosed_user :
    parse " execution( * a.b.User.find_*(x.y (z) ,..) )\t" = .execution "a.b.User" "find_*" ∧
      Tidy (parse "* find_*(..)") :=
  ⟨(parse_written.1 "*" "a.b.User" "find_*" "x.y (z) ,.." (by decide) (by decide) (by decide)
      (by decide) (by decide) (by decide)).2
      " * a.b.User.find_*(x.y (z) ,..) " _
      ⟨" ", " ", by decide, by decide, by decide⟩ ⟨" ", "\t", by decide, by decide, by decide⟩,
    parse_written.2 _⟩

end Aspects.Execution
