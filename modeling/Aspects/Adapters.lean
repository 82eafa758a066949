import Aspects.Program

/-!
# Adapters

An adapter turns advice of one sort into an interceptor. All adapters of a list are
asked, in order, and several may answer; advice that is an interceptor already comes
first and needs none. Advice that nothing comes of is of an unknown type.
-/

namespace Aspects

/-- Does the test accept the advice? -/
def AdviceTest.accepts : AdviceTest → Advice → Bool
  | kindNamed name, a => a.kind.name == name
  | tagged tag, a => a.tag? == some tag

namespace Adapter

/-- Does the adapter claim to understand the advice? -/
def supports : Adapter → Advice → Bool
  | before, a => a.kind == .before
  | afterReturning, a => a.kind == .afterReturning
  | afterThrowing, a => a.kind == .afterThrowing
  | after, a => a.kind == .after
  | around, a => a.kind == .around
  | user test _, a => test.accepts a

/-- What the adapter makes of the advice. -/
def interception? : Adapter → Advice → Except Fault Interception
  | before, .before b => .ok (.before b)
  | afterReturning, .afterReturning b t => .ok (.afterReturning b t)
  | afterThrowing, .afterThrowing w t => .ok (.afterThrowing w t)
  | after, .after b => .ok (.after b)
  | around, .around b => .ok (.around b)
  | user _ (some body), _ => .ok (.user body)
  | user _ none, a => .error (.unknownAdviceType ("adapter:" ++ a.kind.name))
  | _, a => .error (.unknownAdviceType a.kind.name)

/-- Does one of the adapters understand the advice, or does it need none? -/
def anySupports (adapters : List Adapter) (a : Advice) : Bool :=
  a.kind == .interceptor || adapters.any (·.supports a)

/-- What the adapters make of the advice. -/
def interceptions (adapters : List Adapter) (a : Advice) : Except Fault (List Interception) :=
  (adapters.filter (·.supports a)).mapM (·.interception? a)

variable {σ : Type}

/-- Gives each interceptor a number. -/
def number (actions : List Interception) : Run σ (List Interceptor) :=
  actions.mapM fun action => do return ⟨← freshId, action⟩

/-- The interceptors for the advice of an advisor. -/
def interceptors (adapters : List Adapter) (advisor : Advisor) : Act σ (List Interceptor) := do
  let own := match advisor.advice with
    | .interceptor i => [i]
    | _ => []
  let actions ← Act.ofExcept (interceptions adapters advisor.advice)
  let made ← Act.ofRun (number actions)
  if (own ++ made).isEmpty then Act.fail (.unknownAdviceType advisor.advice.kind.name)
  else return own ++ made

/-- A new list of adapters, the built-in ones and others. -/
def make (extra : List Adapter) : Run σ AdaptersId := do
  extra.forM fun _ => emit .debug "Registered advisor adapter" []
  modifyGet fun w =>
    (⟨w.adapters.size⟩, { w with adapters := w.adapters.push (builtIn ++ extra) })

end Adapter

end Aspects
