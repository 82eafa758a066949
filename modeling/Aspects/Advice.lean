import Aspects.Object

/-!
# Advice

What is to be done around a call. Each piece of advice is of one kind; the kinds with
a callback hold the routine to run, and two of them may be narrowed by a type. An
interceptor is the one form that a chain of interceptors understands: every other kind
is turned into it by an adapter.

Two pieces of advice are the same if they are of one kind and go back to one piece of
user code, so advice is told apart by the number of its routine, interceptors by a
number of their own.
-/

namespace Aspects

/-- The kinds of advice. -/
inductive AdviceKind where
  | interceptor
  | before
  | after
  | afterReturning
  | afterThrowing
  | around
  | custom
  deriving DecidableEq

/-- The name under which a kind is shown. -/
def AdviceKind.name : AdviceKind → String
  | interceptor => "Interceptor"
  | before => "Before"
  | after => "After"
  | afterReturning => "AfterReturning"
  | afterThrowing => "AfterThrowing"
  | around => "Around"
  | custom => "Custom"

/-- What watches errors: user code, or the ready-made report of every error. -/
inductive Watcher where
  | user (body : Routine)
  | report (id : Nat)
  deriving DecidableEq

/-- What an interceptor does. -/
inductive Interception where
  /-- User code with the whole invocation in its hands. -/
  | user (body : Routine)
  /-- A callback, then the rest. -/
  | before (body : Routine)
  /-- The rest, then a callback if it returned a value that passes the filter. -/
  | afterReturning (body : Routine) (returning : Option TypeDesc)
  /-- The rest, then a callback if it failed with an error that passes the filter. -/
  | afterThrowing (watcher : Watcher) (throwing : Option TypeDesc)
  /-- The rest, then a callback. -/
  | after (body : Routine)
  /-- User code that decides when the rest runs. -/
  | around (body : Routine)
  /-- Messages when a call begins and ends. -/
  | trace (withArguments : Bool)
  /-- A message when a call takes longer than so many milliseconds. -/
  | slowCalls (threshold : Nat)
  /-- Methods of the interfaces go to the delegate. -/
  | introduce (delegate : Object) (interfaces : List TypeDesc)

/-- An interceptor: what it does, and the number it is told apart by. -/
structure Interceptor where
  id : Nat
  action : Interception

/-- A piece of advice. -/
inductive Advice where
  | interceptor (i : Interceptor)
  | before (body : Routine)
  | afterReturning (body : Routine) (returning : Option TypeDesc)
  | afterThrowing (watcher : Watcher) (throwing : Option TypeDesc)
  | after (body : Routine)
  | around (body : Routine)
  /-- Advice that only an adapter of the user's understands. -/
  | custom (id : Nat) (tag : String)

namespace Advice

def kind : Advice → AdviceKind
  | interceptor _ => .interceptor
  | before _ => .before
  | afterReturning .. => .afterReturning
  | afterThrowing .. => .afterThrowing
  | after _ => .after
  | around _ => .around
  | custom .. => .custom

/-- The same piece of advice. -/
def same : Advice → Advice → Bool
  | interceptor i, interceptor j => i.id == j.id
  | before b, before c => b == c
  | afterReturning b _, afterReturning c _ => b == c
  | afterThrowing v _, afterThrowing w _ => v == w
  | after b, after c => b == c
  | around b, around c => b == c
  | custom i _, custom j _ => i == j
  | _, _ => false

/-- The advice as it is shown for inspection. -/
def inspect : Advice → String
  | afterReturning _ (some t) => "AfterReturning(returning = " ++ t.name ++ ")"
  | afterThrowing _ (some t) => "AfterThrowing(throwing = " ++ t.name ++ ")"
  | a => a.kind.name

/-- What custom advice carries. -/
def tag? : Advice → Option String
  | custom _ tag => some tag
  | _ => none

end Advice

end Aspects
