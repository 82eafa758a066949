import Aspects.Proofs.Freezing.Immutability

/-!
# What commands do to a configuration

Of the commands that restructure a configuration it is known which edit they carry out
(`Command.Edits`). What the command does is said here for all of them together: it is the
change with the answer and the layout that the edit has found, or nothing at all
(`Command.Edits.carriesOut`).
-/

namespace Aspects

variable {σ : Type} {α : Type} {w : World σ} {id : ConfigId}

/-- In the world the run does what comes of the edit: nothing if that refuses, and else the
change with its answer and its layout, for which a number may have been drawn. -/
structure Run.CarriesOut (env : Env σ) (w : World σ) (id : ConfigId) (e : Edit α)
    (r : Run σ (Outcome α)) : Prop where
  error : ∀ f, e (w.config id).layout = .error f → Run.RefusedIn w r
  ok : ∀ found, e (w.config id).layout = .ok found →
    ∃ action serial, (serial = w.serial ∨ serial = w.serial + 1) ∧
      r w = (Configuration.edit env id action fun _ => .ok found).run { w with serial }

namespace Run.CarriesOut

variable {env : Env σ} {e : Edit α} {r : Run σ (Outcome α)}

theorem edit (action : String) (hthawed : (w.config id).isFrozen = false) {serial : Nat}
    (hserial : serial = w.serial ∨ serial = w.serial + 1)
    (h : r w = (Configuration.edit env id action e).run { w with serial }) :
    CarriesOut env w id e r := by
  constructor
  · intro f he
    exact ⟨.fault f, serial,
      h.trans (Configuration.edit_error (w := { w with serial }) env hthawed he)⟩
  · intro found he
    exact ⟨action, serial, hserial,
      h.trans (Configuration.edit_congr (w := { w with serial }) env he)⟩

/-- What is looked at first may refuse. -/
theorem guarded {refusal : Option Fault}
    (hrefused : ∀ f, refusal = some f → r w = some (.error (.fault f), w))
    (h : refusal = none → CarriesOut env w id e r) :
    CarriesOut env w id (Edit.guarded refusal e) r := by
  cases refusal with
  | none => exact ⟨(h rfl).error, (h rfl).ok⟩
  | some f => exact ⟨fun _ _ => ⟨_, w.serial, hrefused f rfl⟩, fun _ he => by cases he⟩

end Run.CarriesOut

/-- Every such command carries its edit out. -/
theorem Command.Edits.carriesOut {c : Command σ (Outcome α)} {e : Edit α} (h : c.Edits w id e)
    (hthawed : (w.config id).isFrozen = false) (env : Env σ) :
    Run.CarriesOut env w id e (Engine.meaning env c) := by
  cases h with
  | addAdvisor place a =>
    have hrun : Engine.meaning env (.addAdvisor id place a) w = _ :=
      Configuration.run_screened env a
    refine .guarded (fun f hf => ?_) fun hnone => .edit "add advisor" hthawed (.inl rfl) ?_
    · rw [hrun, hf]
    · rw [hrun, hnone]
  | removeAdvisor a => exact .edit "remove advisor" hthawed (.inl rfl) rfl
  | removeAdvisorAt place => exact .edit "remove advisor" hthawed (.inl rfl) rfl
  | replaceAdvisor old new =>
    have hrun : Engine.meaning env (.replaceAdvisor id old new) w = _ :=
      Configuration.run_screened env new
    refine .guarded (fun f hf => ?_) fun hnone => .edit "replace advisor" hthawed (.inl rfl) ?_
    · rw [hrun, hf]
    · rw [hrun, hnone]
  | addAdvice place a =>
    -- the advisor that is made for the advice draws a number
    have hrun : Engine.meaning env (.addAdvice id place a) w = _ :=
      Configuration.run_addAdvice env place a
    refine .guarded (fun f hf => ?_) fun hnone => .edit "add advisor" hthawed (.inr rfl) ?_
    · rw [hrun, hf]
    · rw [hrun, hnone]
  | removeAdvice a => exact .edit "remove advice" hthawed (.inl rfl) rfl
  | addInterface t =>
    have hrun : Engine.meaning env (.addInterface id t) w
        = (if t.isInterface then
            Configuration.edit env id "add interface" (Layout.addInterface t)
          else Act.fail (.notAnInterface t.name)).run w := rfl
    by_cases ht : t.isInterface
    · rw [if_pos ht] at hrun ⊢
      refine .guarded (fun f hf => ?_) fun _ => .edit "add interface" hthawed (.inl rfl) hrun
      cases hf
    · rw [if_neg ht] at hrun ⊢
      refine .guarded (fun f hf => ?_) fun hnone => ?_
      · cases hf
        exact hrun
      · cases hnone
  | removeInterface t => exact .edit "remove interface" hthawed (.inl rfl) rfl

end Aspects
