import Aspects.Text.Blank
import Aspects.Text.Letter

/-!
# Regular expressions

A regular expression is a syntax tree whose leaves are sets of characters and
conditions on a position. The meaning of a tree is a relation between positions of a
text: `ends` lists where a match that starts at a position can stop. A text is
searched by asking for a match from any position. Since only the existence of a match
is asked for, greedy and lazy repetition mean the same.
-/

namespace Aspects.Text.Regex

/-- The other case of a letter, in the alphabets that pair them at a fixed distance. -/
def otherCases (c : Char) : List Char :=
  let n := c.toNat
  let one (m : Nat) : List Char := [Char.ofNat m]
  if n == 0x6B || n == 0x4B then [Char.ofNat (if n == 0x6B then 0x4B else 0x6B), Char.ofNat 0x212A]
  else if n == 0x73 || n == 0x53 then
    [Char.ofNat (if n == 0x73 then 0x53 else 0x73), Char.ofNat 0x17F]
  else if n == 0x212A then ['k', 'K']
  else if n == 0x17F then ['s', 'S']
  else if 0x41 ≤ n && n ≤ 0x5A then one (n + 32)
  else if 0x61 ≤ n && n ≤ 0x7A then one (n - 32)
  else if 0xC0 ≤ n && n ≤ 0xDE && n != 0xD7 then one (n + 32)
  else if 0xE0 ≤ n && n ≤ 0xFE && n != 0xF7 then one (n - 32)
  else if 0x391 ≤ n && n ≤ 0x3A9 then one (n + 32)
  else if 0x3B1 ≤ n && n ≤ 0x3C9 && n != 0x3C2 then one (n - 32)
  else if 0x410 ≤ n && n ≤ 0x42F then one (n + 32)
  else if 0x430 ≤ n && n ≤ 0x44F then one (n - 32)
  else if 0x400 ≤ n && n ≤ 0x40F then one (n + 80)
  else if 0x450 ≤ n && n ≤ 0x45F then one (n - 80)
  else []

/-- A set of characters. -/
inductive CharSet where
  /-- The characters from the first to the second, both included. -/
  | range (first last : Char)
  /-- The characters of a range and their other cases. -/
  | anyCase (first last : Char)
  | digit
  | blank
  | word
  | union (a b : CharSet)
  | inter (a b : CharSet)
  | complement (a : CharSet)

namespace CharSet

/-- Is the character in the set? -/
def contains : CharSet → Char → Bool
  | range first last, c => first ≤ c && c ≤ last
  | anyCase first last, c =>
    (first ≤ c && c ≤ last) || (otherCases c).any fun d => first ≤ d && d ≤ last
  | digit, c => isDigit c
  | blank, c => isBlank c
  | word, c => isWordCharacter c
  | union a b, c => a.contains c || b.contains c
  | inter a b, c => a.contains c && b.contains c
  | complement a, c => !a.contains c

/-- The set without members. -/
def none : CharSet :=
  range (Char.ofNat 1) (Char.ofNat 0)

/-- The set with one member. -/
def single (c : Char) : CharSet :=
  range c c

end CharSet

/-- A condition on a position. -/
inductive Anchor where
  | textStart
  | textEnd
  | lineStart
  | lineEnd
  | wordEdge
  | noWordEdge

/-- The syntax of a regular expression. -/
inductive Node where
  | empty
  | set (s : CharSet)
  | anchor (a : Anchor)
  | seq (a b : Node)
  | alt (a b : Node)
  /-- The node repeated at least `least` times and, with `most`, at most that often. -/
  | times (a : Node) (least : Nat) (most : Option Nat)

/-- Does the condition hold at the position? -/
def Anchor.holds (text : Array Char) (i : Nat) : Anchor → Bool
  | textStart => i == 0
  | textEnd => i == text.size
  | lineStart => i == 0 || text[i - 1]? == some '\n'
  | lineEnd => i == text.size || text[i]? == some '\n'
  | wordEdge => before != after
  | noWordEdge => before == after
where
  before : Bool := i != 0 && (text[i - 1]?).any isWordCharacter
  after : Bool := (text[i]?).any isWordCharacter

/-- The positions that one more step reaches, with those already there. -/
def grow (step : Nat → List Nat) (seen : List Nat) : List Nat :=
  (seen ++ seen.flatMap step).eraseDups

/-- The positions reached by at most `rounds` steps. -/
def reach (step : Nat → List Nat) : Nat → List Nat → List Nat
  | 0, seen => seen
  | rounds + 1, seen =>
    let next := grow step seen
    if next.length == seen.length then seen else reach step rounds next

/-- The positions reached by exactly `n` steps. -/
def walk (step : Nat → List Nat) : Nat → List Nat → List Nat
  | 0, front => front
  | n + 1, front => walk step n (front.flatMap step).eraseDups

/-- Where a match that starts at `i` can stop. -/
def ends (text : Array Char) : Node → Nat → List Nat
  | .empty, i => [i]
  | .set s, i => if (text[i]?).any s.contains then [i + 1] else []
  | .anchor a, i => if a.holds text i then [i] else []
  | .seq a b, i => ((ends text a i).flatMap (ends text b)).eraseDups
  | .alt a b, i => (ends text a i ++ ends text b i).eraseDups
  | .times a least most, i =>
    let start := walk (ends text a) least [i]
    match most with
    | some m => reach (ends text a) (m - least) start
    | none => reach (ends text a) (text.size + 1) start

end Aspects.Text.Regex
