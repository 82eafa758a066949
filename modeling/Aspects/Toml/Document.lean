import Aspects.Text.Regex.Parser
import Aspects.Toml.Number

/-!
# Reading TOML

A document is a run of lines: comments, headers that open tables, and keys with
values. Reading answers the table of the document, or nothing if the text breaks a
rule anywhere. Each step takes at least one character, so the length of the text
bounds the number of steps.
-/

namespace Aspects.Toml

/-- A reader takes a part from the front of a text. -/
abbrev Reader (α : Type) := List Char → Option (α × List Char)

/-- Without the spaces and tabs in front. -/
def skipSpace (s : List Char) : List Char :=
  s.dropWhile fun c => c == ' ' || c == '\t'

/-- A character that may stand in a comment or a text. -/
def isVisible (c : Char) : Bool :=
  c == '\t' || (32 ≤ c.toNat && c.toNat != 127)

/-- Takes the end of a line. -/
def lineBreak? : List Char → Option (List Char)
  | '\n' :: r => some r
  | '\r' :: '\n' :: r => some r
  | _ => none

/-- What is left behind the end of a line, which the end of the text is too. -/
def lineEnd? (s : List Char) : Option (List Char) :=
  if s.isEmpty then some [] else lineBreak? s

/-- What is left behind a comment, if one stands in front. -/
def skipComment (s : List Char) : List Char :=
  match s with
  | '#' :: r => r.dropWhile isVisible
  | s => s

/-- What is left behind the rest of a line that holds no more than a comment. -/
def closeLine? (s : List Char) : Option (List Char) :=
  lineEnd? (skipComment (skipSpace s))

/-- A character written with a backslash, which is taken already. -/
def escape? : Reader Char
  | 'b' :: r => some (Char.ofNat 8, r)
  | 't' :: r => some ('\t', r)
  | 'n' :: r => some ('\n', r)
  | 'f' :: r => some (Char.ofNat 12, r)
  | 'r' :: r => some ('\r', r)
  | '"' :: r => some ('"', r)
  | '\\' :: r => some ('\\', r)
  | 'u' :: r => codePoint 4 r
  | 'U' :: r => codePoint 8 r
  | _ => none
where
  codePoint (n : Nat) : Reader Char := fun s => do
    let ds := s.take n
    if ds.length != n then none
    let c ← (Text.Regex.hexNumber ds).bind Text.Regex.scalar
    some (c, s.drop n)

/-- A text in double quotes, the first of which is taken already. -/
def basic : Nat → List Char → Reader String
  | 0, _, _ => none
  | n + 1, acc, s =>
    match s with
    | '"' :: r => some (String.ofList acc.reverse, r)
    | '\\' :: r =>
      match escape? r with
      | some (c, r) => basic n (c :: acc) r
      | none => none
    | c :: r => if isVisible c then basic n (c :: acc) r else none
    | [] => none

/-- A text in single quotes, the first of which is taken already. -/
def literal (s : List Char) : Option (String × List Char) :=
  let inner := s.takeWhile fun c => isVisible c && c != '\''
  match s.drop inner.length with
  | '\'' :: r => some (String.ofList inner, r)
  | _ => none

/-- The quotes in front that close a text on several lines: three, of which up to two
more in front belong to the text. -/
def closing? (quote : Char) (s : List Char) : Option (List Char × List Char) :=
  let run := (s.takeWhile (· == quote)).length
  if run < 3 then none
  else
    let extra := min (run - 3) 2
    some (List.replicate extra quote, s.drop (extra + 3))

/-- What is left behind a backslash at the end of a line, with all blanks and line ends
that follow. -/
def skipBreak? (s : List Char) : Option (List Char) :=
  (lineBreak? (skipSpace s)).map skipAll
where
  skipAll (s : List Char) : List Char :=
    match s with
    | ' ' :: r => skipAll r
    | '\t' :: r => skipAll r
    | '\n' :: r => skipAll r
    | '\r' :: '\n' :: r => skipAll r
    | s => s

/-- A text on several lines, behind its opening quotes. -/
def multiline (quote : Char) : Nat → List Char → Reader String
  | 0, _, _ => none
  | n + 1, acc, s =>
    match closing? quote s with
    | some (more, r) => some (String.ofList (acc.reverse ++ more), r)
    | none =>
      match s with
      | '\\' :: r =>
        if quote == '"' then
          match skipBreak? r with
          | some r => multiline quote n acc r
          | none =>
            match escape? r with
            | some (c, r) => multiline quote n (c :: acc) r
            | none => none
        else multiline quote n ('\\' :: acc) r
      | '\r' :: '\n' :: r => multiline quote n ('\n' :: acc) r
      | '\n' :: r => multiline quote n ('\n' :: acc) r
      | c :: r => if isVisible c then multiline quote n (c :: acc) r else none
      | [] => none

/-- Without the line end in front, if one is there. -/
def dropBreak (s : List Char) : List Char :=
  (lineBreak? s).getD s

/-- A text in any of the four ways to write one. -/
def text? : Reader String := fun s =>
  match s with
  | '"' :: '"' :: '"' :: r => multiline '"' (r.length + 1) [] (dropBreak r)
  | '\'' :: '\'' :: '\'' :: r => multiline '\'' (r.length + 1) [] (dropBreak r)
  | '"' :: r => basic (r.length + 1) [] r
  | '\'' :: r => literal r
  | _ => none

/-- A character of a key without quotes. -/
def isKeyChar (c : Char) : Bool :=
  c.isAlphanum || c == '_' || c == '-'

/-- One part of a key. -/
def keyPart : Reader String := fun s =>
  match s with
  | '"' :: r => basic (r.length + 1) [] r
  | '\'' :: r => literal r
  | s =>
    let word := s.takeWhile isKeyChar
    if word.isEmpty then none else some (String.ofList word, s.drop word.length)

/-- The parts of a dotted key, with spaces around them. -/
def key : Nat → Reader (List String)
  | 0, _ => none
  | n + 1, s => do
    let (part, s) ← keyPart (skipSpace s)
    match skipSpace s with
    | '.' :: r =>
      let (parts, r) ← key n r
      some (part :: parts, r)
    | s => some ([part], s)

/-- How deep values may be nested and how long a dotted key may be. -/
def depthLimit : Nat := 80

/-- A whole key, of bounded length. -/
def wholeKey : Reader (List String) := fun s => do
  let (parts, s) ← key (s.length + 1) s
  if parts.length < depthLimit then some (parts, s) else none

/-- Without blanks, line ends and comments in front. -/
def skipLines : Nat → List Char → Option (List Char)
  | 0, _ => none
  | n + 1, s =>
    match skipSpace s with
    | '#' :: r =>
      match lineBreak? (r.dropWhile isVisible) with
      | some r => skipLines n r
      | none => none
    | s =>
      match lineBreak? s with
      | some r => skipLines n r
      | none => some s

/-- A word, with a time that follows a date behind a space. -/
def word (s : List Char) : List Char × List Char :=
  let isWordChar (c : Char) := c.isAlphanum || c == '_' || c == '+' || c == '-' || c == '.' ||
    c == ':'
  let first := s.takeWhile isWordChar
  let rest := s.drop first.length
  match rest with
  | ' ' :: r =>
    let second := r.takeWhile isWordChar
    if (afterDate? first).any (·.isEmpty) && (second.head?).any Char.isDigit then
      (first ++ ' ' :: second, r.drop second.length)
    else (first, rest)
  | _ => (first, rest)

mutual

/-- A value. The second number is how much deeper values may be nested. -/
def value : Nat → Nat → Reader Item
  | 0, _, _ => none
  | n + 1, depth, s =>
    match s with
    | '[' :: r => if depth == 0 then none else array n (depth - 1) [] r
    | '\x7b' :: r =>
      if depth == 0 then none
      else match skipSpace r with
        | '\x7d' :: r => some (.table .closed [], r)
        | r => inlineTable n (depth - 1) [] r
    | '"' :: _ => (text? s).map fun (t, r) => (.text t, r)
    | '\'' :: _ => (text? s).map fun (t, r) => (.text t, r)
    | s =>
      let (w, r) := word s
      (wordItem? w).map fun i => (i, r)

/-- The items of an array behind its opening bracket or a comma. -/
def array : Nat → Nat → List Item → Reader Item
  | 0, _, _, _ => none
  | n + 1, depth, items, s =>
    match skipLines (s.length + 1) s with
    | none => none
    | some (']' :: r) => some (.array items.reverse, r)
    | some s =>
      match value n depth s with
      | none => none
      | some (i, s) =>
        match skipLines (s.length + 1) s with
        | some (',' :: r) => array n depth (i :: items) r
        | some (']' :: r) => some (.array (i :: items).reverse, r)
        | _ => none

/-- The entries of a table between braces, behind the opening brace or a comma. -/
def inlineTable : Nat → Nat → Entries → Reader Item
  | 0, _, _, _ => none
  | n + 1, depth, es, s =>
    match wholeKey s with
    | some (path, '=' :: s) =>
      match value n depth (skipSpace s) with
      | none => none
      | some (i, s) =>
        match es.add .opened path i with
        | none => none
        | some es =>
          match skipSpace s with
          | ',' :: r => inlineTable n depth es r
          | '\x7d' :: r => some (.table .closed es, r)
          | _ => none
    | _ => none

end

/-- Where reading stands: the finished part of the document, and the table being
filled with the path of its header; `several` says that the header has doubled
brackets. -/
structure Progress where
  root : Entries := []
  path : List String := []
  several : Bool := false
  current : Entries := []

namespace Progress

/-- Changes the table that holds the last part of a header. -/
def atParent {α : Type} (p : Progress) (path : List String)
    (change : String → Entries → Option (α × Entries)) : Option (α × Entries) :=
  match path.getLast? with
  | none => none
  | some key => p.root.update false (fun _ es => change key es) .opened path.dropLast

/-- Puts the table that was being filled into the document. -/
def finish (p : Progress) : Option Progress :=
  if p.path.isEmpty then some { root := p.current }
  else do
    let (_, root) ← p.atParent p.path fun key es =>
      if p.several then
        match es.lookup key with
        | some (.tables all) => some ((), es.put key (.tables (all ++ [p.current])))
        | _ => none
      else
        match es.lookup key with
        | none => some ((), es.put key (.table .opened p.current))
        | some _ => none
    return { root }

/-- Opens the table of a header. One that was only mentioned keeps what it has. -/
def openTable (p : Progress) (path : List String) : Option Progress := do
  let (current, root) ← p.atParent path fun key es =>
    match es.lookup key with
    | none => some ([], es)
    | some (.table .mentioned sub) => some (sub, es.drop key)
    | some _ => none
  return { root, path, several := false, current }

/-- Opens one more table of a header with doubled brackets. -/
def openNext (p : Progress) (path : List String) : Option Progress := do
  let (_, root) ← p.atParent path fun key es =>
    match es.lookup key with
    | none => some ((), es.put key (.tables []))
    | some (.tables _) => some ((), es)
    | some _ => none
  return { root, path, several := true, current := [] }

/-- Adds a key with its value to the table being filled. -/
def put (p : Progress) (path : List String) (i : Item) : Option Progress := do
  return { p with current := ← p.current.add .opened path i }

end Progress

/-- Reads lines up to the end of the text. -/
def readLines : Nat → Progress → List Char → Option Entries
  | 0, _, _ => none
  | n + 1, p, s =>
    match skipSpace s with
    | [] => p.finish.map (·.root)
    | '#' :: r => do readLines n p (← lineEnd? (r.dropWhile isVisible))
    | '\n' :: r => readLines n p r
    | '\r' :: '\n' :: r => readLines n p r
    | '[' :: '[' :: r => do
      let (path, r) ← wholeKey r
      let ']' :: ']' :: r := r | none
      let r ← closeLine? r
      let p ← (← p.finish).openNext path
      readLines n p r
    | '[' :: r => do
      let (path, r) ← wholeKey r
      let ']' :: r := r | none
      let r ← closeLine? r
      let p ← (← p.finish).openTable path
      readLines n p r
    | s => do
      let (path, r) ← wholeKey s
      let '=' :: r := r | none
      let r := skipSpace r
      let (i, r) ← value (r.length + 1) depthLimit r
      let r ← closeLine? r
      readLines n (← p.put path i) r

/-- The table of a document. A mark of the byte order in front is no part of it. -/
def parse? (text : String) : Option Item :=
  let s := match text.toList with
    | '\uFEFF' :: r => r
    | s => s
  (readLines (s.length + 1) {} s).map (.table .opened)

end Aspects.Toml
