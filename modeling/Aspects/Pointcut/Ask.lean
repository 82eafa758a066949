import Aspects.Program
import Aspects.TypeDesc.Lookup

/-!
# Asking pointcuts

The four questions to a pointcut, in a run: does it match a class, a method, a call
with its arguments, and what is left of it for a method? User tests inside an
expression are run as they are met.

A pointcut with a memory resolves its expression once for a method and target type. It
first takes the method as the target type carries it out; if that cannot be resolved
and is another method, it takes the method as it was asked about; if that fails too,
the method is not matched. Whatever comes out is remembered.
-/

namespace Aspects

variable {σ : Type}

/-- The residue of an expression, user tests run in the environment. -/
def Expr.resolveIn (env : Env σ) (e : Expr) (m : Method) (t : TypeDesc) :
    Run σ (Except Fault Residue) :=
  (e.resolve (fun r m t => env.run (env.code.methodTest r m t)) m t).run

/-- Do the arguments pass what is left? -/
def Residue.passesIn (env : Env σ) (r : Residue) (m : Method) (args : List Value) :
    Run σ Bool :=
  r.passes (fun t vs => env.run (env.code.argumentTest t vs)) m args

/-- Does the expression match the call? One that cannot be resolved does not. -/
def Expr.evaluateIn (env : Env σ) (e : Expr) (m : Method) (t : TypeDesc) (args : List Value) :
    Run σ Bool := do
  match ← e.resolveIn env m t with
  | .ok r => r.passesIn env m args
  | .error f =>
    emit .warn "Runtime pointcut evaluation failed, treating call as non-matching"
      [("pointcut", e.inspect), ("method", m.display), ("error", f.message)]
    return false

namespace Pointcut

/-- The residue of the method as it was asked about, or no match. -/
def resolveAsked (env : Env σ) (label : String) (e : Expr) (m : Method) (t : TypeDesc) :
    Run σ Residue := do
  match ← e.resolveIn env m t with
  | .ok r => return r
  | .error f =>
    emit .warn
      "Pointcut evaluation failed for original method as well, treating as non-matching"
      [("pointcut", label), ("method", m.display), ("error", f.message)]
    return .const false

/-- The residue by the rule of memories, without looking into one. -/
def resolveShape (env : Env σ) (label : String) (e : Expr) (m : Method)
    (t : Option TypeDesc) : Run σ Residue := do
  let effective := t.getD m.declaring
  let shape := match t with
    | some t => t.mostSpecificMethod m
    | none => m
  match ← e.resolveIn env shape effective with
  | .ok r => return r
  | .error f =>
    if shape.same m then
      emit .warn "Pointcut evaluation failed, treating method as non-matching"
        [("pointcut", label), ("method", m.display), ("error", f.message)]
      return .const false
    else
      emit .debug
        ("Pointcut evaluation failed for target method shape, retrying with original " ++
          "method")
        [("pointcut", label), ("method", shape.display), ("error", f.message)]
      resolveAsked env label e m effective

/-- The list with the residue remembered, in front of any for the same method. -/
def remember (memory : List Remembered) (m : Method) (t : Option TypeDesc) (r : Residue) :
    List Remembered :=
  ⟨m.key, m.declaring, t, r⟩ :: memory

/-- The residue from memory, or worked out and remembered. -/
def residueOf (env : Env σ) (id : MemoId) (label : String) (e : Expr) (m : Method)
    (t : Option TypeDesc) : Run σ Residue := do
  match ((← get).memory id).find? (·.isFor m t) with
  | some old => return old.residue
  | none =>
    let r ← resolveShape env label e m t
    modify fun w => w.setMemory id (remember (w.memory id) m t r)
    return r

/-- May methods of the class be matched? -/
def matchesClass (env : Env σ) (p : Pointcut) (t : TypeDesc) : Run σ Bool :=
  match p with
  | all => pure true
  | expr e => pure (e.matchesType t)
  | memo _ e _ => pure (e.matchesType t)
  | residue _ => pure true
  | user _ body => env.run (env.code.matchesClass body t)

/-- Is the method matched, as far as can be said without arguments? -/
def matchesMethod (env : Env σ) (p : Pointcut) (m : Method) (t : Option TypeDesc) :
    Act σ Verdict :=
  match p with
  | all => pure .always
  | expr e => do
    let r ← Act.ofRun (e.resolveIn env m (t.getD m.declaring))
    return (← Act.ofExcept r).verdict
  | memo id e source => do
    return (← Act.ofRun (residueOf env id (memoLabel e source) e m t)).verdict
  | residue r => pure r.verdict
  | user _ body => env.exec (env.code.matchesMethod body m t)

/-- Is the call matched? -/
def matchesRuntime (env : Env σ) (p : Pointcut) (m : Method) (t : Option TypeDesc)
    (args : List Value) : Run σ Bool :=
  match p with
  | all => pure true
  | expr e => e.evaluateIn env m (t.getD m.declaring) args
  | memo id e source => do
    (← residueOf env id (memoLabel e source) e m t).passesIn env m args
  | residue r => r.passesIn env m args
  | user _ body => env.run (env.code.matchesRuntime body m t args)

/-- The pointcut that is left for the method, if there is a simpler one. -/
def residueFor (env : Env σ) (p : Pointcut) (m : Method) (t : Option TypeDesc) :
    Run σ (Option Pointcut) :=
  match p with
  | all => pure none
  | expr e => do
    match ← e.resolveIn env m (t.getD m.declaring) with
    | .ok r => return some (residue r)
    | .error _ => return none
  | memo id e source => do
    return some (residue (← residueOf env id (memoLabel e source) e m t))
  | residue _ => pure none
  | user _ body => env.run (env.code.residue body m t)

/-- A pointcut with an empty memory. -/
def newMemo (e : Expr) (source : Option String) : Run σ Pointcut :=
  modifyGet fun w =>
    (memo ⟨w.memories.size⟩ e source, { w with memories := w.memories.push [] })

end Pointcut

end Aspects
