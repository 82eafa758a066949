import Aspects.Engine

/-!
# Commands that restructure

The commands that are to change the interfaces or the advisors of a configuration differ in
the edit that they carry out, and in what they look at first: whether the advisor may come
in, whether the type is an interface. `Command.Edits` says which edit a command carries
out, what it looks at first included.
-/

namespace Aspects

variable {σ : Type} {α : Type}

/-- The command is to change the interfaces or the advisors of the configuration. -/
inductive Command.Restructures (id : ConfigId) : {α : Type} → Command σ (Outcome α) → Prop
  | addAdvisor (place : Option Nat) (a : Advisor) : Restructures id (.addAdvisor id place a)
  | removeAdvisor (a : Advisor) : Restructures id (.removeAdvisor id a)
  | removeAdvisorAt (place : Nat) : Restructures id (.removeAdvisorAt id place)
  | replaceAdvisor (old new : Advisor) : Restructures id (.replaceAdvisor id old new)
  | addAdvice (place : Option Nat) (a : Advice) : Restructures id (.addAdvice id place a)
  | removeAdvice (a : Advice) : Restructures id (.removeAdvice id a)
  | addInterface (t : TypeDesc) : Restructures id (.addInterface id t)
  | removeInterface (t : TypeDesc) : Restructures id (.removeInterface id t)

/-- The advisor that is made for advice in the world. -/
def Advisor.forAdvice (w : World σ) (a : Advice) : Advisor :=
  { id := w.serial, pointcut := .all, advice := a }

/-- The advisor may not come into the configuration for this reason. -/
def World.refusal? (w : World σ) (id : ConfigId) (a : Advisor) : Option Fault :=
  Configuration.refusal? (w.adapterList (w.config id).adapters) a

/-- The edit, unless something is to be said against it. -/
def Edit.guarded (refusal : Option Fault) (e : Edit α) : Edit α := fun l =>
  match refusal with
  | some f => .error f
  | none => e l

/-- The command carries out the edit on the configuration. -/
inductive Command.Edits (w : World σ) (id : ConfigId) :
    {α : Type} → Command σ (Outcome α) → Edit α → Prop
  | addAdvisor (place : Option Nat) (a : Advisor) :
    Edits w id (.addAdvisor id place a) (Edit.guarded (w.refusal? id a) (Layout.insert place a))
  | removeAdvisor (a : Advisor) : Edits w id (.removeAdvisor id a) (Layout.remove a)
  | removeAdvisorAt (place : Nat) : Edits w id (.removeAdvisorAt id place) (Layout.removeAt place)
  | replaceAdvisor (old new : Advisor) :
    Edits w id (.replaceAdvisor id old new)
      (Edit.guarded (w.refusal? id new) (Layout.replace old new))
  | addAdvice (place : Option Nat) (a : Advice) :
    Edits w id (.addAdvice id place a)
      (Edit.guarded (w.refusal? id (.forAdvice w a)) (Layout.insert place (.forAdvice w a)))
  | removeAdvice (a : Advice) : Edits w id (.removeAdvice id a) (Layout.removeAdvice a)
  | addInterface (t : TypeDesc) :
    Edits w id (.addInterface id t)
      (Edit.guarded (if t.isInterface then none else some (.notAnInterface t.name))
        (Layout.addInterface t))
  | removeInterface (t : TypeDesc) : Edits w id (.removeInterface id t) (Layout.removeInterface t)

namespace Command

variable {w : World σ} {id : ConfigId} {c : Command σ (Outcome α)}

/-- These are the commands that are to change interfaces or advisors, and no others. -/
theorem restructures_iff_edits : c.Restructures id ↔ ∃ e, c.Edits w id e := by
  constructor
  · intro h
    cases h with
    | addAdvisor place a => exact ⟨_, .addAdvisor place a⟩
    | removeAdvisor a => exact ⟨_, .removeAdvisor a⟩
    | removeAdvisorAt place => exact ⟨_, .removeAdvisorAt place⟩
    | replaceAdvisor old new => exact ⟨_, .replaceAdvisor old new⟩
    | addAdvice place a => exact ⟨_, .addAdvice place a⟩
    | removeAdvice a => exact ⟨_, .removeAdvice a⟩
    | addInterface t => exact ⟨_, .addInterface t⟩
    | removeInterface t => exact ⟨_, .removeInterface t⟩
  · rintro ⟨e, h⟩
    cases h with
    | addAdvisor place a => exact .addAdvisor place a
    | removeAdvisor a => exact .removeAdvisor a
    | removeAdvisorAt place => exact .removeAdvisorAt place
    | replaceAdvisor old new => exact .replaceAdvisor old new
    | addAdvice place a => exact .addAdvice place a
    | removeAdvice a => exact .removeAdvice a
    | addInterface t => exact .addInterface t
    | removeInterface t => exact .removeInterface t

end Command

end Aspects
