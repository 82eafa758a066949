import Aspects.Pointcut.Resolve

/-!
# Pointcuts

A pointcut is asked about a class, about a method, and, where the method match is left
open, about the arguments of a call. Five sorts of it are known: the one that matches
everything, an expression, an expression with a memory of its residues, a residue, and
one written by the user.
-/

namespace Aspects

/-- The number of a memory of residues. -/
structure MemoId where
  index : Nat
  deriving DecidableEq, Inhabited

/-- A pointcut. -/
inductive Pointcut where
  | all
  | expr (e : Expr)
  /-- An expression whose residues are kept in a memory; it may know the text that it
  was read from. -/
  | memo (id : MemoId) (e : Expr) (source : Option String)
  | residue (r : Residue)
  /-- A pointcut of the user, with the description it gives of itself. -/
  | user (label : String) (body : Routine)

namespace Pointcut

instance : Inhabited Pointcut := ⟨all⟩

/-- The description of an expression that may have been read from a text. -/
def memoLabel (e : Expr) : Option String → String
  | some text => text
  | none => e.inspect

/-- The description used in messages. -/
def describe : Pointcut → String
  | all => "MatchAll"
  | expr e => e.inspect
  | memo _ e source => memoLabel e source
  | residue r => r.inspect
  | user label _ => label

/-- An expression with a memory as it is shown for inspection. -/
def inspectMemo (e : Expr) (source : Option String) : String :=
  let shown := match source with
    | none => "None"
    | some text => "Some(" ++ Text.quote text ++ ")"
  "ExpressionPointcut \x7b expression: " ++ e.inspect ++ ", source: " ++ shown ++ " \x7d"

end Pointcut

end Aspects
