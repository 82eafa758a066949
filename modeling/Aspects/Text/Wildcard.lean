/-!
# Wildcard patterns

A pattern is a text in which each star stands for any run of characters without a
line feed; every other character stands for itself. Two patterns are special: the
star alone admits every name, line feeds included, and a pattern without a star
admits exactly the name it spells.

A name is read against a pattern from the right: `row` lists, for each tail of the
name from the whole name down to the empty one, whether the rest of the pattern
covers that tail. The work is the length of the pattern times that of the name.
-/

namespace Aspects.Text.Wildcard

/-- The tails of a name that the empty pattern covers: the empty one. -/
def endRow : List Char → List Bool
  | [] => [true]
  | _ :: ds => false :: endRow ds

/-- The tails covered by the letter `c` followed by what `rest` says. -/
def letterRow (c : Char) : List Char → List Bool → List Bool
  | d :: ds, _ :: rest => (c == d && rest.headD false) :: letterRow c ds rest
  | _, _ => [false]

/-- The tails covered by a star followed by what `rest` says: the star takes
nothing, or one character that is no line feed and then goes on. -/
def starRow : List Char → List Bool → List Bool
  | d :: ds, b :: rest =>
    let tails := starRow ds rest
    (b || (d != '\n' && tails.headD false)) :: tails
  | _, rest => rest

/-- For each tail of the name, whether the pattern covers it. -/
def row (name : List Char) : List Char → List Bool
  | [] => endRow name
  | '*' :: pattern => starRow name (row name pattern)
  | c :: pattern => letterRow c name (row name pattern)

/-- The pattern covers the whole name, each star taking a run without line feeds. -/
def covers (pattern name : List Char) : Bool :=
  (row name pattern).headD false

/-- Does the pattern admit the name? -/
def admits (pattern name : String) : Bool :=
  if pattern == "*" then true
  else if pattern.toList.contains '*' then covers pattern.toList name.toList
  else pattern == name

end Aspects.Text.Wildcard
