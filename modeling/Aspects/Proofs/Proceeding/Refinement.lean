import Aspects.Proofs.Proceeding.Commands

/-!
# Proceeding refines the continuation

The main result of the directory is `proceed_refines_continuation`. From any place
within its chain, continuing an invocation is the continuation at that place: the same
effects in the same order, the same outcome, and of the invocation nothing is changed
but what links do to the arguments and attributes. The cursor is back where it was,
whether the call succeeded or not; on a copy nothing of the original is changed at all.

A call never runs past the end of its chain. For one thing more room than `proceed` gives
changes nothing. For another the continuation has no such failure of its own, so one that
comes out was made up by user code, which `Code.Honest` excludes.
-/

namespace Aspects

variable {σ : Type}

/-- Continuing on a copy leaves the original alone. -/
theorem onCopy_proceed (env : Env σ) (v : Invocation) (args : Option (List Value)) :
    (Frame.onCopy args (proceed env)).run.run v
      = (fun r => (r.1, v)) <$> (v.copy args).run env := by
  show (v.copy args).run env >>= (fun r => pure (r.1, v)) = _
  simp

/-- Continuing an invocation leaves it where it was. -/
theorem run_cursor {env : Env σ} {v : Invocation} {w w' : World σ} {o : Outcome Value}
    {v' : Invocation} (h : v.run env w = some ((o, v'), w')) : v'.cursor = v.cursor := by
  have hkept : v.run env = _ := run_keepingCursor _ v
  rw [hkept] at h
  obtain ⟨⟨⟨o₁, v₁⟩, w₁⟩, hr, hk⟩ := Option.bind_eq_some_iff.mp h
  cases hk
  rfl

/-- From every place within its chain, continuing an invocation is the continuation at
that place, and more room changes nothing; the cursor comes back to where it was; on a
copy the original is left alone; and if user code is honest then a call never fails as
one does that has run past the end of its chain. -/
theorem proceed_refines_continuation (code : Code σ) (room : Nat) (v : Invocation)
    (hv : v.cursor ≤ v.chain.length) :
    v.run (Engine.env code room) = (fun (o, l) => (o, v.carrying l)) <$>
        (continuation (Engine.env code room) v v.cursor
          (v.chain.drop v.cursor)).run.run v.luggage ∧
      (∀ spare, (advance (Engine.env code room)
          (spare + (v.chain.length + 1 - v.cursor))).keepingCursor.run.run v
        = v.run (Engine.env code room)) ∧
      (∀ w o v' w', v.run (Engine.env code room) w = some ((o, v'), w') →
        v'.cursor = v.cursor) ∧
      (∀ args, (Frame.onCopy args (proceed (Engine.env code room))).run.run v
        = (fun r => (r.1, v)) <$> (v.copy args).run (Engine.env code room)) ∧
      (code.Honest → ∀ w e v' w', v.run (Engine.env code room) w = some ((.error e, v'), w') →
        e.isExhaustion = false) := by
  refine ⟨run_eq_continuation _ v hv, fun spare => ?_, fun w o v' w' h => run_cursor h,
    onCopy_proceed _ v, fun hcode w e v' w' h => ?_⟩
  · rw [advance_eq_continuation _ v hv spare, run_eq_continuation _ v hv]
  · exact run_neverExhausted (Engine.env_neverExhausted hcode room) hv h

/-- A callback that just ends makes no such failure up. -/
theorem exec_pure_neverExhausted (env : Env σ) {α : Type} (a : α) :
    (env.exec (pure a)).NeverExhausted := by
  intro w e w' h
  cases h

/-- Going on and nothing else brings out what comes out behind. -/
theorem goingOn_neverExhausted {behind : Leg σ Value} (h : behind.NeverExhausted) :
    Leg.NeverExhausted (σ := σ) (ExceptT.mk (behind.run >>= pure)) := by
  rw [bind_pure]
  exact h

/-- User code that does as little as it can is honest. -/
theorem idle_honest : (Code.idle : Code σ).Honest := by
  rintro ⟨code, perform⟩ rfl hanswers
  have refuses {α : Type} : ((⟨Code.idle, perform⟩ : Env σ).exec
      (throw (.fault .noTargetOrAdvisors) : Task σ α)).NeverExhausted := by
    intro w e w' h
    cases h
    rfl
  exact {
    answers := hanswers
    method := fun _ _ _ => exec_pure_neverExhausted _ _
    before := fun _ _ => exec_pure_neverExhausted _ _
    after := fun _ _ => exec_pure_neverExhausted _ _
    afterReturning := fun _ _ _ => exec_pure_neverExhausted _ _
    afterThrowing := fun _ _ _ _ => exec_pure_neverExhausted _ _
    around := fun _ _ _ hb => goingOn_neverExhausted hb
    interceptor := fun _ _ _ hb => goingOn_neverExhausted hb
    matchesMethod := fun _ _ _ => exec_pure_neverExhausted _ _
    create := fun _ => refuses
    acquire := fun _ => exec_pure_neverExhausted _ _
    release := fun _ _ => exec_pure_neverExhausted _ _
    makeProxy := fun _ _ => refuses
    makeChain := fun _ _ _ _ _ => exec_pure_neverExhausted _ _ }

/-- A call without a target, on its way through a trace and advice around it, as the
trace sees it. -/
def tracedCall : Invocation where
  proxy := ⟨.root, 0, .entity "proxy"⟩
  target := none
  method := default
  arguments := []
  targetType := none
  chain := [.fixed ⟨0, .trace false⟩, .dynamic ⟨1, .around ⟨0⟩⟩ .all]
  cursor := 1

theorem tracedCall_refines :
    tracedCall.cursor ≤ tracedCall.chain.length ∧ (Code.idle : Code Unit).Honest ∧
      tracedCall.run (Engine.env (Code.idle : Code Unit) 0)
        = (fun (o, l) => (o, tracedCall.carrying l)) <$>
          (continuation (Engine.env Code.idle 0) tracedCall 1
            [.dynamic ⟨1, .around ⟨0⟩⟩ .all]).run.run tracedCall.luggage ∧
      ∀ w e v' w', tracedCall.run (Engine.env (Code.idle : Code Unit) 0) w
        = some ((.error e, v'), w') → e.isExhaustion = false := by
  obtain ⟨hrun, _, _, _, hnever⟩ :=
    proceed_refines_continuation (Code.idle : Code Unit) 0 tracedCall (by decide)
  exact ⟨by decide, idle_honest, hrun, hnever idle_honest⟩

end Aspects
