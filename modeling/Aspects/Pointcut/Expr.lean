import Aspects.Method
import Aspects.Text.Regex.Parser
import Aspects.Text.Wildcard
import Aspects.TypeDesc.Hierarchy

/-!
# Pointcut expressions

An expression describes a set of calls. Its leaves look at the target type with its
supertypes, at the name of the method, at the types of the arguments, at the arguments
themselves, or ask a piece of user code; the connectives are the usual ones.

`matchesType` is the filter on classes. It may let a type pass that no method of it
can match, but it looks at nothing but the type: a leaf that is about methods or
arguments lets every type pass, and a negation is believed only if everything below
it is about types.
-/

namespace Aspects

/-- A pointcut expression. -/
inductive Expr where
  /-- Every call. -/
  | all
  /-- The target type or one of its supertypes has a name of the pattern. -/
  | type (pattern : String)
  /-- The method has a name of the pattern. -/
  | method (pattern : String)
  /-- Both a pattern for the type and one for the method. -/
  | execution (typePattern methodPattern : String)
  | typeRegex (r : Text.Regex)
  | methodRegex (r : Text.Regex)
  /-- The target type may stand for the given one. -/
  | target (t : TypeDesc)
  /-- The arguments are of the given types. -/
  | args (ts : List TypeDesc)
  /-- User code accepts the arguments. -/
  | argsMatching (test : Routine)
  /-- User code accepts the method and the target type. -/
  | custom (test : Routine)
  | and (a b : Expr)
  | or (a b : Expr)
  | not (a : Expr)

namespace Expr

/-- The names of types, with commas between. -/
def typeNames (ts : List TypeDesc) : String :=
  ", ".intercalate (ts.map TypeDesc.name)

/-- The expression as it is shown for inspection. -/
def inspect : Expr → String
  | all => "All"
  | type p => "TypePattern(" ++ p ++ ")"
  | method p => "MethodPattern(" ++ p ++ ")"
  | execution t m => "Execution(" ++ t ++ "." ++ m ++ ")"
  | typeRegex r => "TypeRegex(" ++ r.source ++ ")"
  | methodRegex r => "MethodRegex(" ++ r.source ++ ")"
  | target t => "Target(" ++ t.name ++ ")"
  | args ts => "Args(" ++ typeNames ts ++ ")"
  | argsMatching _ => "ArgsMatching(...)"
  | custom _ => "Custom(...)"
  | and a b => "And(" ++ a.inspect ++ ", " ++ b.inspect ++ ")"
  | or a b => "Or(" ++ a.inspect ++ ", " ++ b.inspect ++ ")"
  | not a => "Not(" ++ a.inspect ++ ")"

/-- The type or one of its supertypes has a name of the pattern. -/
def typeAdmitted (pattern : String) (t : TypeDesc) : Bool :=
  t.hierarchy.any fun s => Text.Wildcard.admits pattern s.name

/-- The type or one of its supertypes has a name that the regular expression finds. -/
def typeFound (r : Text.Regex) (t : TypeDesc) : Bool :=
  t.hierarchy.any fun s => r.search s.name

/-- Everything in the expression is about types. -/
def isTypeOnly : Expr → Bool
  | type _ => true
  | typeRegex _ => true
  | target _ => true
  | and a b => a.isTypeOnly && b.isTypeOnly
  | or a b => a.isTypeOnly && b.isTypeOnly
  | not a => a.isTypeOnly
  | _ => false

/-- The filter on classes. -/
def matchesType (t : TypeDesc) : Expr → Bool
  | type p => typeAdmitted p t
  | execution p _ => typeAdmitted p t
  | typeRegex r => typeFound r t
  | target wanted => wanted.accepts t
  | and a b => a.matchesType t && b.matchesType t
  | or a b => a.matchesType t || b.matchesType t
  | not a => if a.isTypeOnly then !a.matchesType t else true
  | _ => true

end Expr

end Aspects
