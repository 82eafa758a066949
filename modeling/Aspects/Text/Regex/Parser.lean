import Aspects.Text.Regex.Basic

/-!
# Reading regular expressions

The concrete syntax: alternatives, repetition signs with an optional laziness mark,
groups with or without flags, classes in brackets with ranges, nesting and the set
operators, the usual escapes. Reading stops with `none` at the first thing that is no
such expression.

Each step of `readGroup` and `readClass` takes at least one character, so the length
of the text bounds the number of steps; the wrappers supply that bound.
-/

namespace Aspects.Text.Regex

/-- What the letters between a question mark and a colon switch on and off. -/
structure Flags where
  caseless : Bool := false
  dotAll : Bool := false
  multiline : Bool := false
  verbose : Bool := false

/-- The value of a hexadecimal digit. -/
def hexDigit (c : Char) : Option Nat :=
  let n := c.toNat
  if 48 ≤ n && n ≤ 57 then some (n - 48)
  else if 65 ≤ n && n ≤ 70 then some (n - 55)
  else if 97 ≤ n && n ≤ 102 then some (n - 87)
  else none

/-- The number that hexadecimal digits spell. -/
def hexNumber (ds : List Char) : Option Nat :=
  if ds.isEmpty then none
  else ds.foldlM (fun n d => (hexDigit d).map (16 * n + ·)) 0

/-- The character with the code point, if there is one. -/
def scalar (n : Nat) : Option Char :=
  if h : n.isValidChar then some (Char.ofNatAux n h) else none

/-- A code point written with `width` digits or between braces. -/
def readCodePoint (width : Nat) : List Char → Option (Char × List Char)
  | '\x7b' :: s => do
    let ds := s.takeWhile (· != '\x7d')
    let n ← hexNumber ds
    let c ← scalar n
    match s.dropWhile (· != '\x7d') with
    | _ :: rest => some (c, rest)
    | [] => none
  | s => do
    if s.length < width then none
    let n ← hexNumber (s.take width)
    let c ← scalar n
    some (c, s.drop width)

/-- The punctuation that a backslash turns into itself. -/
def isMeta (c : Char) : Bool :=
  c.toNat < 128 && !c.isAlphanum && !isBlank c && 32 < c.toNat && c.toNat < 127 &&
    c != '<' && c != '>'

/-- What stands behind a backslash: a character, a set or a condition. -/
inductive Escape where
  | char (c : Char)
  | set (s : CharSet)
  | anchor (a : Anchor)

/-- Reads what stands behind a backslash. -/
def readEscape : List Char → Option (Escape × List Char)
  | 'n' :: s => some (.char '\n', s)
  | 'r' :: s => some (.char '\r', s)
  | 't' :: s => some (.char '\t', s)
  | 'f' :: s => some (.char (Char.ofNat 12), s)
  | 'v' :: s => some (.char (Char.ofNat 11), s)
  | 'a' :: s => some (.char (Char.ofNat 7), s)
  | 'x' :: s => (readCodePoint 2 s).map fun (c, r) => (.char c, r)
  | 'u' :: s => (readCodePoint 4 s).map fun (c, r) => (.char c, r)
  | 'U' :: s => (readCodePoint 8 s).map fun (c, r) => (.char c, r)
  | 'd' :: s => some (.set .digit, s)
  | 'D' :: s => some (.set (.complement .digit), s)
  | 's' :: s => some (.set .blank, s)
  | 'S' :: s => some (.set (.complement .blank), s)
  | 'w' :: s => some (.set .word, s)
  | 'W' :: s => some (.set (.complement .word), s)
  | 'b' :: s => some (.anchor .wordEdge, s)
  | 'B' :: s => some (.anchor .noWordEdge, s)
  | 'A' :: s => some (.anchor .textStart, s)
  | 'z' :: s => some (.anchor .textEnd, s)
  | c :: s => if isMeta c then some (.char c, s) else none
  | [] => none

/-- The characters from `a` to `b` under the flags. -/
def Flags.range (f : Flags) (a b : Char) : CharSet :=
  if f.caseless then .anyCase a b else .range a b

/-- The named classes of brackets. -/
def namedClass : List (String × CharSet) :=
  let upper := CharSet.range 'A' 'Z'
  let small := CharSet.range 'a' 'z'
  let digits := CharSet.range '0' '9'
  let alnum := CharSet.union (.union upper small) digits
  let blankSet := CharSet.union (.single ' ') (.single '\t')
  [("alpha", .union upper small), ("digit", digits), ("alnum", alnum), ("upper", upper),
   ("lower", small), ("word", .union alnum (.single '_')), ("blank", blankSet),
   ("space", .union blankSet (.range '\n' '\r')),
   ("xdigit", .union digits (.union (.range 'A' 'F') (.range 'a' 'f'))),
   ("punct", .union (.union (.range '!' '/') (.range ':' '@'))
     (.union (.range '[' '\x60') (.range '\x7b' '\x7e'))),
   ("ascii", .range (Char.ofNat 0) (Char.ofNat 127)),
   ("cntrl", .union (.range (Char.ofNat 0) (Char.ofNat 31)) (.single (Char.ofNat 127))),
   ("graph", .range '!' '\x7e'), ("print", .range ' ' '\x7e')]

/-- Reads a named class behind `[:`. -/
def readNamed (s : List Char) : Option (CharSet × List Char) :=
  let (negated, s) := match s with
    | '^' :: r => (true, r)
    | r => (false, r)
  let name := String.ofList (s.takeWhile Char.isAlpha)
  match s.dropWhile Char.isAlpha with
  | ':' :: ']' :: rest =>
    (namedClass.lookup name).map fun k => (if negated then .complement k else k, rest)
  | _ => none

/-- One end of a range inside brackets. -/
def readClassChar : List Char → Option (Escape × List Char)
  | '\\' :: s => readEscape s
  | c :: s => some (.char c, s)
  | [] => none

/-- An item of a class that is a character may open a range. -/
def readRange (f : Flags) (c : Char) (s : List Char) : Option (CharSet × List Char) :=
  match s with
  | '-' :: ']' :: _ => some (f.range c c, s)
  | '-' :: '-' :: _ => some (f.range c c, s)
  | '-' :: r =>
    match readClassChar r with
    | some (.char d, rest) => if c ≤ d then some (f.range c d, rest) else none
    | _ => none
  | _ => some (f.range c c, s)

/-- The operators between sets inside brackets. -/
inductive SetOp where
  | inter
  | diff
  | symDiff

/-- The set on the left of an operator joined with the one on its right. -/
def SetOp.join (op : Option SetOp) (a b : CharSet) : CharSet :=
  match op with
  | none => b
  | some inter => .inter a b
  | some diff => .inter a (.complement b)
  | some symDiff => .union (.inter a (.complement b)) (.inter b (.complement a))

/-- Reads the rest of a class behind its opening bracket. `left` and `op` are the set
and operator in front of the items collected in `items`; `first` says that a closing
bracket would still be a plain character. -/
def readClass (f : Flags) : Nat → Option SetOp → CharSet → CharSet → Bool → List Char →
    Option (CharSet × List Char)
  | 0, _, _, _, _, _ => none
  | n + 1, op, left, items, first, s =>
    let close := SetOp.join op left items
    let item (k : CharSet) (r : List Char) := readClass f n op left (.union items k) false r
    match s with
    | ']' :: r => if first then item (f.range ']' ']') r else some (close, r)
    | '&' :: '&' :: r => readClass f n (some .inter) close .none false r
    | '-' :: '-' :: r => readClass f n (some .diff) close .none false r
    | '~' :: '~' :: r => readClass f n (some .symDiff) close .none false r
    | '[' :: ':' :: r =>
      match readNamed r with
      | some (k, rest) => item k rest
      | none => none
    | '[' :: '^' :: r =>
      match readClass f n none .none .none true r with
      | some (k, rest) => item (.complement k) rest
      | none => none
    | '[' :: r =>
      match readClass f n none .none .none true r with
      | some (k, rest) => item k rest
      | none => none
    | s =>
      match readClassChar s with
      | some (.char c, r) =>
        match readRange f c r with
        | some (k, rest) => item k rest
        | none => none
      | some (.set k, r) => item k r
      | _ => none

/-- The number that decimal digits spell. -/
def decimal? (ds : List Char) : Option Nat :=
  if ds.isEmpty || !ds.all Char.isDigit then none
  else some (ds.foldl (fun n d => 10 * n + (d.toNat - 48)) 0)

/-- The bounds between the braces of a counted repetition. -/
def countBounds (s : List Char) : Option (Nat × Option Nat) :=
  match decimal? s with
  | some n => some (n, some n)
  | none => do
    let least ← decimal? (s.takeWhile (· != ','))
    match s.dropWhile (· != ',') with
    | [_] => some (least, none)
    | _ :: r => do
      let most ← decimal? r
      if least ≤ most then some (least, some most) else none
    | [] => none

/-- A repetition sign, with its laziness mark if it has one. -/
def readSign (s : List Char) : Option (Option ((Nat × Option Nat) × List Char)) :=
  let lazyMark (r : List Char) := match r with
    | '?' :: r => r
    | r => r
  match s with
  | '*' :: r => some (some ((0, none), lazyMark r))
  | '+' :: r => some (some ((1, none), lazyMark r))
  | '?' :: r => some (some ((0, some 1), lazyMark r))
  | '\x7b' :: r =>
    match countBounds (r.takeWhile (· != '\x7d')), r.dropWhile (· != '\x7d') with
    | some b, _ :: rest => some (some (b, lazyMark rest))
    | _, _ => none
  | _ => some none

/-- Applies the repetition signs behind a node. -/
def readSigns : Nat → Node → List Char → Option (Node × List Char)
  | 0, _, _ => none
  | n + 1, a, s =>
    match readSign s with
    | none => none
    | some none => some (a, s)
    | some (some ((least, most), rest)) => readSigns n (.times a least most) rest

/-- The flags behind a question mark, up to the colon or the closing bracket. -/
def readFlags : Flags → Bool → List Char → Option (Flags × List Char)
  | f, on, 'i' :: s => readFlags { f with caseless := on } on s
  | f, on, 's' :: s => readFlags { f with dotAll := on } on s
  | f, on, 'm' :: s => readFlags { f with multiline := on } on s
  | f, on, 'x' :: s => readFlags { f with verbose := on } on s
  | f, on, 'U' :: s => readFlags f on s
  | f, on, 'u' :: s => readFlags f on s
  | f, true, '-' :: s => readFlags f false s
  | f, _, ':' :: s => some (f, ':' :: s)
  | f, _, ')' :: s => some (f, ')' :: s)
  | _, _, _ => none

/-- The text behind a question mark that opens a named group, without the name. -/
def skipGroupName (s : List Char) : Option (List Char) :=
  match s with
  | 'P' :: '<' :: r => past r
  | '<' :: r => past r
  | _ => none
where
  past (r : List Char) : Option (List Char) :=
    match r.dropWhile (· != '>') with
    | _ :: rest => if (r.takeWhile (· != '>')).isEmpty then none else some rest
    | [] => none

/-- The node of an escape. -/
def Escape.node (f : Flags) : Escape → Node
  | char c => .set (f.range c c)
  | set s => .set s
  | anchor a => .anchor a

/-- The characters that a dot stands for. -/
def Flags.dot (f : Flags) : CharSet :=
  if f.dotAll then .complement .none else .complement (.single '\n')

/-- Reads alternatives up to a closing bracket or the end. `done` holds the finished
alternatives, `now` the one being read. -/
def readGroup : Nat → Flags → Option Node → Node → List Char → Option (Node × List Char)
  | 0, _, _, _, _ => none
  | n + 1, f, done, now, s =>
    let finish : Node := match done with
      | some d => .alt d now
      | none => now
    let andThen (a : Node) (rest : List Char) :=
      match readSigns (rest.length + 1) a rest with
      | some (b, rest) => readGroup n f done (.seq now b) rest
      | none => none
    match s with
    | [] => some (finish, [])
    | ')' :: _ => some (finish, s)
    | '|' :: r => readGroup n f (some finish) .empty r
    | '(' :: '?' :: r =>
      match skipGroupName r with
      | some r =>
        match readGroup n f none .empty r with
        | some (a, ')' :: rest) => andThen a rest
        | _ => none
      | none =>
        match readFlags f true r with
        | some (g, ':' :: r) =>
          match readGroup n g none .empty r with
          | some (a, ')' :: rest) => andThen a rest
          | _ => none
        | some (g, ')' :: r) => readGroup n g done now r
        | _ => none
    | '(' :: r =>
      match readGroup n f none .empty r with
      | some (a, ')' :: rest) => andThen a rest
      | _ => none
    | '[' :: '^' :: r =>
      match readClass f (r.length + 1) none .none .none true r with
      | some (k, rest) => andThen (.set (.complement k)) rest
      | none => none
    | '[' :: r =>
      match readClass f (r.length + 1) none .none .none true r with
      | some (k, rest) => andThen (.set k) rest
      | none => none
    | '.' :: r => andThen (.set f.dot) r
    | '^' :: r => andThen (.anchor (if f.multiline then .lineStart else .textStart)) r
    | '$' :: r => andThen (.anchor (if f.multiline then .lineEnd else .textEnd)) r
    | '\\' :: r =>
      match readEscape r with
      | some (e, rest) => andThen (e.node f) rest
      | none => none
    | '#' :: r =>
      if f.verbose then readGroup n f done now (r.dropWhile (· != '\n'))
      else andThen (.set (f.range '#' '#')) r
    | '*' :: _ => none
    | '+' :: _ => none
    | '?' :: _ => none
    | '\x7b' :: _ => none
    | c :: r =>
      if f.verbose && isBlank c then readGroup n f done now r
      else andThen (.set (f.range c c)) r

end Regex

/-- A regular expression with the text it was read from. -/
structure Regex where
  source : String
  root : Regex.Node

namespace Regex

/-- Reads a regular expression. -/
def parse? (source : String) : Option Regex :=
  let s := source.toList
  match readGroup (2 * s.length + 2) {} none .empty s with
  | some (root, []) => some ⟨source, root⟩
  | _ => none

/-- Does some part of the text match? -/
def search (r : Regex) (text : String) : Bool :=
  let t := text.toList.toArray
  (List.range (t.size + 1)).any fun i => !(ends t r.root i).isEmpty

end Aspects.Text.Regex
