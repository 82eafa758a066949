import Aspects.Object
import Aspects.Pointcut.Expr
import Aspects.Verdict

/-!
# Residues

What is left of a pointcut expression once method and target type are known: a
constant, or a test of the arguments. The connectives fold constants away, so a
residue that still has something to test holds no constant.

The tests of user code are run through the parameter `test`, in whatever monad user
code needs; the second operand of a connective is run only if the first leaves it
open.
-/

namespace Aspects

/-- The test of the arguments that is left. -/
inductive Residue where
  | const (b : Bool)
  | args (ts : List TypeDesc)
  | argsMatching (test : Routine)
  | and (a b : Residue)
  | or (a b : Residue)
  | not (a : Residue)

namespace Residue

/-- A constant decides; anything else depends on the arguments. -/
def verdict : Residue → Verdict
  | const b => .ofBool b
  | _ => .maybe

/-- Is it this constant? -/
def isConst (r : Residue) (b : Bool) : Bool :=
  match r with
  | const c => c == b
  | _ => false

/-- Conjunction, with constants folded. -/
def meet : Residue → Residue → Residue
  | const false, _ => const false
  | _, const false => const false
  | const true, r => r
  | r, const true => r
  | a, b => and a b

/-- Disjunction, with constants folded. -/
def join : Residue → Residue → Residue
  | const true, _ => const true
  | _, const true => const true
  | const false, r => r
  | r, const false => r
  | a, b => or a b

/-- Negation, with constants folded. -/
def negate : Residue → Residue
  | const b => const !b
  | r => not r

/-- The residue as it is shown for inspection. -/
def inspect : Residue → String
  | const b => toString b
  | args ts => "Args(" ++ Expr.typeNames ts ++ ")"
  | argsMatching _ => "ArgsMatching(...)"
  | and a b => "And(" ++ a.inspect ++ ", " ++ b.inspect ++ ")"
  | or a b => "Or(" ++ a.inspect ++ ", " ++ b.inspect ++ ")"
  | not a => "Not(" ++ a.inspect ++ ")"

/-- Each wanted type accepts the declared type at its place, or else the type of the
argument there. -/
def argsAccepted : List TypeDesc → List TypeDesc → List Value → Bool
  | wanted :: ws, declared :: ds, value :: vs =>
    (wanted.accepts declared || value.any fun o => wanted.accepts o.type) &&
      argsAccepted ws ds vs
  | _, _, _ => true

/-- The arguments are as many as the types wanted and those declared, and accepted. -/
def argsMatch (wanted : List TypeDesc) (m : Method) (values : List Value) : Bool :=
  values.length == wanted.length && m.params.length == wanted.length &&
    argsAccepted wanted m.params values

/-- Do the arguments pass? -/
def passes {μ : Type → Type} [Monad μ] (test : Routine → List Value → μ Bool)
    (m : Method) (values : List Value) : Residue → μ Bool
  | const b => pure b
  | args ts => pure (argsMatch ts m values)
  | argsMatching t => test t values
  | and a b => do if ← a.passes test m values then b.passes test m values else pure false
  | or a b => do if ← a.passes test m values then pure true else b.passes test m values
  | not a => do return !(← a.passes test m values)

end Residue

end Aspects
