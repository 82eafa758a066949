/-!
# Verdicts

A pointcut is first asked about a method without its arguments. The answer is a
`Verdict`: the method is matched by every call, by no call, or by some calls,
depending on the arguments. The connectives are those of strong three-valued
logic with `always` as true, `never` as false and `maybe` in between.
-/

namespace Aspects

/-- What is known about a match before the arguments are known. -/
inductive Verdict where
  | always
  | never
  | maybe
  deriving DecidableEq, Inhabited

namespace Verdict

/-- A match decided before the call. -/
def ofBool : Bool → Verdict
  | true => always
  | false => never

/-- Both must match: one `never` decides, two `always` are needed for `always`. -/
def and : Verdict → Verdict → Verdict
  | never, _ => never
  | _, never => never
  | always, always => always
  | _, _ => maybe

/-- One must match: one `always` decides, two `never` are needed for `never`. -/
def or : Verdict → Verdict → Verdict
  | always, _ => always
  | _, always => always
  | never, never => never
  | _, _ => maybe

/-- The verdict of the opposite match; what is undecided stays so. -/
def negate : Verdict → Verdict
  | always => never
  | never => always
  | maybe => maybe

/-- No call is matched. -/
def isNever (v : Verdict) : Bool :=
  v == never

/-- The name under which a verdict is shown. -/
def name : Verdict → String
  | always => "Always"
  | never => "Never"
  | maybe => "Maybe"

@[simp]
theorem negate_negate (v : Verdict) : v.negate.negate = v := by
  cases v <;> rfl

end Verdict

end Aspects
