import Aspects.Failure

/-!
# Reports

What a scenario answers, as a tree of texts, numbers and truth values. A step that
comes to nothing answers why: a call failed, or a description in the step stands for
nothing.
-/

namespace Aspects.Scenario

/-- A part of an answer. -/
inductive Report where
  | null
  | flag (b : Bool)
  | int (n : Int)
  | text (s : String)
  | list (items : List Report)
  | record (fields : List (String × Report))

namespace Report

/-- A list of texts. -/
def texts (ss : List String) : Report :=
  list (ss.map text)

/-- A list of truth values. -/
def flags (bs : List Bool) : Report :=
  list (bs.map flag)

def nat (n : Nat) : Report :=
  int n

/-- A report on what may be missing. -/
def option {α : Type} (f : α → Report) : Option α → Report
  | none => null
  | some a => f a

end Report

/-- Why a step comes to nothing. -/
inductive StepError where
  | failed (f : Failure)
  /-- A description of a method stands for none. -/
  | noMethod
  /-- A name stands for nothing. -/
  | noObject

namespace StepError

/-- The name of the sort of error. -/
def kind : StepError → String
  | failed f => f.kind
  | noMethod => "NoMethod"
  | noObject => "NoObject"

/-- What is said of an error that was thrown. -/
def throwableFields (t : Throwable) : List (String × Report) :=
  ("type", .text t.type.name) ::
    if t.causes.isEmpty then [] else [("causes", .texts t.causes)]

/-- The fields that tell the error. -/
def fields : StepError → List (String × Report)
  | failed f =>
    [("error", .text f.kind), ("message", .text f.display)] ++
      (f.throwable?.map throwableFields).getD []
  | e => [("error", .text e.kind)]

/-- The error as the failure of a call. -/
def failure : StepError → Failure
  | failed f => f
  | e => .fault (.illegalArgument e.kind)

end StepError

end Aspects.Scenario
