import Aspects.Failure
import Aspects.Pointcut.Residue

/-!
# Resolving an expression

Given a method and a target type, an expression turns into its residue: leaves about
types and names become constants, the static test of argument types becomes a constant
where the declared types decide it, and only the tests of arguments stay. A first
operand that decides its connective leaves the second unasked, so a failing user test
behind it is never met.

User tests of methods are asked through the parameter `ask`, in whatever monad user
code needs. The text of a refusal becomes a `Fault.pointcutEvaluation`.
-/

namespace Aspects.Expr

/-- The static match of argument types. A wanted type that accepts the declared one
always matches there; one that the declared type accepts may match; any other never. -/
def staticArgs : List TypeDesc → List TypeDesc → Verdict → Verdict
  | declared :: ds, wanted :: ws, v =>
    if wanted.accepts declared then staticArgs ds ws v
    else if declared.accepts wanted then staticArgs ds ws .maybe
    else .never
  | _, _, v => v

/-- The static match of the argument types against the parameters of a method. -/
def argsVerdict (m : Method) (wanted : List TypeDesc) : Verdict :=
  if m.params.length != wanted.length then .never
  else staticArgs m.params wanted .always

/-- What is left of a test of argument types. -/
def argsResidue (m : Method) (wanted : List TypeDesc) : Residue :=
  match argsVerdict m wanted with
  | .always => .const true
  | .never => .const false
  | .maybe => .args wanted

/-- The residue of an expression for a method and a target type. -/
def resolve {μ : Type → Type} [Monad μ]
    (ask : Routine → Method → TypeDesc → μ (Except String Bool))
    (m : Method) (t : TypeDesc) : Expr → ExceptT Fault μ Residue
  | all => pure (.const true)
  | type p => pure (.const (typeAdmitted p t))
  | method p => pure (.const (Text.Wildcard.admits p m.name))
  | execution tp mp =>
    pure (.const (typeAdmitted tp t && Text.Wildcard.admits mp m.name))
  | typeRegex r => pure (.const (typeFound r t))
  | methodRegex r => pure (.const (r.search m.name))
  | target wanted => pure (.const (wanted.accepts t))
  | args wanted => pure (argsResidue m wanted)
  | argsMatching test => pure (.argsMatching test)
  | custom test => do
    match ← ask test m t with
    | .ok b => pure (.const b)
    | .error text => throw (.pointcutEvaluation text)
  | and a b => do
    let left ← a.resolve ask m t
    if left.isConst false then pure left
    else return left.meet (← b.resolve ask m t)
  | or a b => do
    let left ← a.resolve ask m t
    if left.isConst true then pure left
    else return left.join (← b.resolve ask m t)
  | not a => return (← a.resolve ask m t).negate

/-- Resolving for user tests that are plain functions. -/
def resolvePure (ask : Routine → Method → TypeDesc → Except String Bool)
    (m : Method) (t : TypeDesc) (e : Expr) : Except Fault Residue :=
  (e.resolve (fun r m t => (pure (ask r m t) : Id _)) m t).run

end Aspects.Expr
