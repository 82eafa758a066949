import Aspects.Text.Regex.Parser
import Aspects.Text.Wildcard

/-!
# Wildcard patterns as regular expressions

A pattern with a star stands for a regular expression: the pattern is quoted, so that each
of its characters stands for itself, every quoted star is loosened to a run of any
characters, and the whole is tied to both ends of the text. Expressions are remembered by
pattern once they are read; a pattern that makes no readable expression admits no name, and
that is remembered as well.

Who quotes, reads and searches expressions is a parameter, an `Engine`; this library brings
one of its own (`engine`). `Wildcard.admits` gives the same answers without an engine and
without a memory.
-/

namespace Aspects.Text.Wildcard

/-- The text with a dot in place of each backslash that stands in front of a star. -/
def loosen : List Char → List Char
  | '\\' :: '*' :: s => '.' :: '*' :: loosen s
  | c :: s => c :: loosen s
  | [] => []

/-- What quotes texts, reads expressions and searches texts for what was read. -/
structure Engine (ρ : Type) where
  quote : List Char → List Char
  parse? : String → Option ρ
  search : ρ → String → Bool

namespace Engine

variable {ρ : Type} (engine : Engine ρ)

/-- The regular expression for a pattern. -/
def expression (pattern : String) : String :=
  String.ofList ('^' :: (loosen (engine.quote pattern.toList) ++ ['$']))

/-- The expressions that were read so far, by their patterns. -/
abbrev Memory (ρ : Type) := List (String × Option ρ)

/-- Does the name match the expression, if there is one? -/
def matched (compiled : Option ρ) (name : String) : Bool :=
  compiled.any (engine.search · name)

/-- Does the pattern admit the name? Its expression is taken from the memory, or read and
remembered. -/
def ask (pattern name : String) : StateM (Memory ρ) Bool := do
  if pattern == "*" then return true
  else if !pattern.toList.contains '*' then return pattern == name
  else
    match (← get).lookup pattern with
    | some compiled => return engine.matched compiled name
    | none =>
      let compiled := engine.parse? (engine.expression pattern)
      modify ((pattern, compiled) :: ·)
      return engine.matched compiled name

/-- Patterns and names that are asked about one after the other. -/
def askAll : List (String × String) → StateM (Memory ρ) Unit
  | [] => return ()
  | (pattern, name) :: later => do
    let _ ← engine.ask pattern name
    askAll later

end Engine

/-- The characters that mean something in a regular expression, or that may. -/
def special : List Char :=
  ['\\', '.', '+', '*', '?', '(', ')', '|', '[', ']', '\x7b', '\x7d', '^', '$', '#', '&', '-', '~']

/-- The text with a backslash in front of each such character. -/
def quote : List Char → List Char
  | [] => []
  | c :: s => if c ∈ special then '\\' :: c :: quote s else c :: quote s

/-- The engine of this library. -/
def engine : Engine Regex :=
  ⟨quote, Regex.parse?, Regex.search⟩

end Aspects.Text.Wildcard
