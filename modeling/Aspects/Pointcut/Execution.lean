import Aspects.Pointcut.Expr
import Aspects.Text.Blank

/-!
# The text of an execution expression

`execution(R T.m(A))`, or the part between the outer brackets alone, says which method
is meant: a word for the result, then the type and the method with a dot between and
the parameters in brackets. Only the second word is looked at, and of it only what
stands before its first opening bracket; the last dot there divides the pattern for
the type from the one for the method. Without a dot the pattern is for the method
alone, and with fewer than two words every method is meant.
-/

namespace Aspects.Execution

/-- The text between the opening `execution(` and a closing bracket at the end; a text
of another shape stays as it is. -/
def unwrap (s : List Char) : List Char :=
  let opening := "execution(".toList
  if opening.isPrefixOf s then
    let inner := s.drop opening.length
    if inner.getLast? == some ')' then inner.dropLast else s
  else s

/-- The text before its last dot and the text behind it. -/
def splitAtLastDot (s : List Char) : Option (List Char × List Char) :=
  if s.contains '.' then
    let behind := (s.reverse.takeWhile (· != '.')).reverse
    some (s.take (s.length - behind.length - 1), behind)
  else none

/-- The expression for the word that holds the type and the method. -/
def ofWord (word : List Char) : Expr :=
  let name := word.takeWhile (· != '(')
  match splitAtLastDot name with
  | some (t, m) => .execution (String.ofList t) (String.ofList m)
  | none => .method (String.ofList name)

/-- The expression that a text stands for. -/
def parse (text : String) : Expr :=
  match Text.words (unwrap (Text.trim text.toList)) with
  | _ :: word :: _ => ofWord word
  | _ => .all

end Aspects.Execution
