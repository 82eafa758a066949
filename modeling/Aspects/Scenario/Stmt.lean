import Aspects.Scenario.Term

/-!
# Statements

The body of a routine is a list of statements. Most of them mean the same in every
body; those that continue an invocation or change it mean something only where there
is one in hand, and are passed over elsewhere. A body can carry out a whole step of its
scenario, which it knows by number.
-/

namespace Aspects.Scenario

/-- A line that a body writes. -/
inductive Remark where
  | text (s : String)
  | value (v : Term)
  | arguments
  /-- What is known of the call. -/
  | joinPoint
  /-- An argument of the call, read as a value of a sort. -/
  | argument (i : Nat) (sort : Scalar)
  /-- What the body has in hand, as it is shown for inspection. -/
  | inspection
  | result
  | error
  /-- The proxy that is current. -/
  | current

/-- A statement. -/
inductive Stmt where
  | remark (r : Remark)
  /-- Throws an error with its causes, outermost first. -/
  | throwError (type message : String) (causes : List String)
  /-- Fails with a fault of the engine. -/
  | fail (message : String)
  /-- Ends the body with a value. -/
  | answer (v : Term)
  | setLast (v : Term)
  /-- Runs statements if the arguments pass the test. -/
  | when (t : ArgumentTest) (body : List Stmt)
  | proceed
  /-- Continues, with a value in place of a failure. -/
  | proceedOr (v : Term)
  | proceedWith (args : List Term)
  /-- Continues on a copy, with other arguments if some are given. -/
  | proceedOnCopy (args : Option (List Term))
  | setArguments (args : List Term)
  | setAttribute (key : String) (v : Term)
  | tellAttribute (key : String)
  | removeAttribute (key : String)
  | call (object : String) (callee : Callee) (args : List Term)
  /-- Calls a method of the current proxy. -/
  | callCurrent (name : String) (args : List Term)
  /-- Carries out the step with the number. -/
  | step (number : Nat)
  /-- Adds an argument to the state of the receiver. -/
  | addToState (i : Nat)
  /-- Makes an argument the state of the receiver. -/
  | setState (i : Nat)
  | getState
  /-- Reads an argument, which must be there. -/
  | need (i : Nat) (sort : Scalar)

end Aspects.Scenario
