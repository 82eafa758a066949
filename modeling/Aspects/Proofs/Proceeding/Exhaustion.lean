import Aspects.Engine
import Aspects.Proofs.Proceeding.Simulation

/-!
# Running past the end of a chain

There is a failure for a call that has run past the end of its chain. The continuation has
none of its own, so one that comes out of a chain was made up by user code or handed in by
a command. `Env.NeverExhausted` says that neither happens. It is carried through the chain
by one lemma for each way in which a leg is put together
(`continuation_neverExhausted`).

That user code makes no such failure up is a property of the code alone, `Code.Honest`: it
fails so only if something that it asked for does.
-/

namespace Aspects

variable {σ : Type} {α β : Type} {ε : Type}

/-- Is it the fault of a call that has run past the end of its chain? -/
def Fault.isExhaustion : Fault → Bool
  | chainExhausted .. => true
  | _ => false

/-- Is it the failure of such a call? -/
def Failure.isExhaustion : Failure → Bool
  | thrown _ => false
  | fault f => f.isExhaustion

/-- Whatever the run fails with is of the sort. -/
def FailsOnly (P : ε → Prop) (a : ExceptT ε (Run σ) α) : Prop :=
  ∀ w e w', a.run w = some (.error e, w') → P e

/-- The act never fails as a call does that has run past the end of its chain. -/
abbrev Act.NeverExhausted (a : Act σ α) : Prop :=
  FailsOnly (fun e => e.isExhaustion = false) a

/-- The leg never fails as a call does that has run past the end of its chain. -/
def Leg.NeverExhausted (g : Leg σ α) : Prop :=
  ∀ l w e l' w', g.run.run l w = some ((.error e, l'), w') → e.isExhaustion = false

/-- The failure that an outcome is. -/
def Outcome.failure? : Outcome α → Option Failure
  | .ok _ => none
  | .error e => some e

/-- The failure that the answer to a command is. -/
def Command.failure? : {β : Type} → Command σ β → β → Option Failure
  | _, .call .. => Outcome.failure?
  | _, .matchesMethod .. => Outcome.failure?
  | _, .resolve .. => Outcome.failure?
  | _, .interceptors .. => Outcome.failure?
  | _, .acquire _ => Outcome.failure?
  | _, .release .. => Outcome.failure?
  | _, .swap .. => Outcome.failure?
  | _, .addAdvisor .. => Outcome.failure?
  | _, .removeAdvisor .. => Outcome.failure?
  | _, .removeAdvisorAt .. => Outcome.failure?
  | _, .replaceAdvisor .. => Outcome.failure?
  | _, .addAdvice .. => Outcome.failure?
  | _, .removeAdvice .. => Outcome.failure?
  | _, .addInterface .. => Outcome.failure?
  | _, .removeInterface .. => Outcome.failure?
  | _, .setFrozen .. => Outcome.failure?
  | _, .setFlags .. => Outcome.failure?
  | _, .chain .. => Outcome.failure?
  | _, .standardChain .. => Outcome.failure?
  | _, .getProxy .. => Outcome.failure?
  | _, .standardProxy _ => Outcome.failure?
  | _, .proceed _ => fun r => r.1.failure?
  | _, .wrap .. => Outcome.failure?
  | _, _ => fun _ => none

/-- An invocation that the command continues is in a place of its chain. -/
def Command.InChain : {β : Type} → Command σ β → Prop
  | _, .proceed v => v.cursor ≤ v.chain.length
  | _, _ => True

/-- No answer to a command is such a failure. -/
def Env.AnswersNeverExhausted (env : Env σ) : Prop :=
  ∀ {β : Type} (c : Command σ β), c.InChain → ∀ w b w', env.perform c w = some (b, w') →
    ∀ e, c.failure? b = some e → e.isExhaustion = false

/-- Nothing that user code is run for and no answer to a command is such a failure, where
advice that is told of a failure may pass it on, and interceptors and advice around a call
whatever going on brings. -/
structure Env.NeverExhausted (env : Env σ) : Prop where
  answers : env.AnswersNeverExhausted
  method : ∀ r o args, (env.exec (env.code.method r o args)).NeverExhausted
  before : ∀ r jp, (env.exec (env.code.before r jp)).NeverExhausted
  after : ∀ r jp, (env.exec (env.code.after r jp)).NeverExhausted
  afterReturning : ∀ r jp v, (env.exec (env.code.afterReturning r jp v)).NeverExhausted
  afterThrowing : ∀ r jp e, e.isExhaustion = false →
    (env.exec (env.code.afterThrowing r jp e)).NeverExhausted
  around : ∀ r v behind, Leg.NeverExhausted behind →
    (Leg.intercepted env v behind (.around r)).NeverExhausted
  interceptor : ∀ r v behind, Leg.NeverExhausted behind →
    (Leg.intercepted env v behind (.user r)).NeverExhausted
  matchesMethod : ∀ r m t, (env.exec (env.code.matchesMethod r m t)).NeverExhausted
  create : ∀ r, (env.exec (env.code.create r)).NeverExhausted
  acquire : ∀ r, (env.exec (env.code.acquire r)).NeverExhausted
  release : ∀ r o, (env.exec (env.code.release r o)).NeverExhausted
  makeProxy : ∀ r id, (env.exec (env.code.makeProxy r id)).NeverExhausted
  makeChain : ∀ r as preFiltered m t,
    (env.exec (env.code.makeChain r as preFiltered m t)).NeverExhausted

/-- User code does not make that failure up: if no answer that it gets is one, then
nothing that comes of it is. -/
def Code.Honest (code : Code σ) : Prop :=
  ∀ env : Env σ, env.code = code → env.AnswersNeverExhausted → env.NeverExhausted

namespace Leg.NeverExhausted

theorem succeed (a : α) : (pure a : Leg σ α).NeverExhausted := by
  intro l w e l' w' h
  cases h

theorem fail {e : Failure} (he : e.isExhaustion = false) :
    (throw e : Leg σ α).NeverExhausted := by
  intro l w e' l' w' h
  cases h
  exact he

theorem andThen {g : Leg σ α} {m : α → Leg σ β} (hg : g.NeverExhausted)
    (hm : ∀ a, (m a).NeverExhausted) : (g >>= m).NeverExhausted := by
  intro l w e l' w' h
  rw [ExceptT.run_bind, StateT.run_bind] at h
  obtain ⟨⟨⟨o, l₁⟩, w₁⟩, hr, hk⟩ := Option.bind_eq_some_iff.mp h
  cases o with
  | ok a => exact hm a l₁ w₁ e l' w' hk
  | error e₁ =>
    cases hk
    exact hg l w e _ _ hr

theorem ofRun (r : Run σ α) : (Leg.ofRun r).NeverExhausted := by
  intro l w e l' w' h
  obtain ⟨⟨⟨o, l₁⟩, w₁⟩, hr, hk⟩ := Option.bind_eq_some_iff.mp h
  cases hk

theorem ofAct {a : Act σ α} (ha : a.NeverExhausted) : (Leg.ofAct a).NeverExhausted := by
  intro l w e l' w' h
  obtain ⟨⟨o, w₁⟩, hr, hk⟩ := Option.bind_eq_some_iff.mp h
  cases hk
  exact ha w e w' hr

/-- An outcome that was looked at may be passed on. -/
theorem attempting {g : Leg σ α} {m : Outcome α → Leg σ β} (hg : g.NeverExhausted)
    (hm : ∀ o, (∀ e, o = .error e → e.isExhaustion = false) → (m o).NeverExhausted) :
    (g.attempt >>= m).NeverExhausted := by
  intro l w e l' w' h
  obtain ⟨⟨⟨o, l₁⟩, w₁⟩, hr, hk⟩ := Option.bind_eq_some_iff.mp h
  obtain ⟨⟨⟨o₁, l₂⟩, w₂⟩, hr₁, hk₁⟩ := Option.bind_eq_some_iff.mp hr
  cases hk₁
  refine hm o₁ ?_ l₁ w₁ e l' w' hk
  rintro e₁ rfl
  exact hg l w e₁ l₁ w₁ hr₁

theorem ofOutcome {o : Outcome α} (ho : ∀ e, o = .error e → e.isExhaustion = false) :
    (MonadExcept.ofExcept o : Leg σ α).NeverExhausted := by
  cases o with
  | ok a => exact succeed a
  | error e => exact fail (ho e rfl)

theorem looking {m : Luggage → Leg σ α} (hm : ∀ l, (m l).NeverExhausted) :
    (get >>= m : Leg σ α).NeverExhausted :=
  fun l => hm l l

theorem branch (c : Prop) [Decidable c] {g g' : Leg σ α} (h : g.NeverExhausted)
    (h' : g'.NeverExhausted) : (if c then g else g').NeverExhausted := by
  split
  · exact h
  · exact h'

end Leg.NeverExhausted

section Links

variable {env : Env σ}

/-- What an implementation refuses, it does not refuse so. -/
theorem refusal_not_exhaustion {i : Implementation} {o : Object} {f : Fault}
    (h : i.refusal? o = some f) : f.isExhaustion = false := by
  cases i with
  | raw body => cases h
  | onInstance owner body =>
    cases ho : o.isEntity with
    | true => simp [Implementation.refusal?, ho] at h
    | false =>
      simp only [Implementation.refusal?, ho, Bool.false_eq_true, if_false,
        Option.some.injEq] at h
      rw [← h]
      rfl

theorem runMethod_neverExhausted (henv : env.NeverExhausted) (o : Object) (m : Method)
    (args : List Value) : (runMethod env o m args).NeverExhausted := by
  intro w e w' h
  unfold runMethod at h
  split at h
  · cases h
    rfl
  · split at h
    next f hf =>
      cases h
      exact refusal_not_exhaustion hf
    next => exact henv.method _ _ _ w e w' h

theorem reachTarget_neverExhausted (henv : env.NeverExhausted) (t : Option Object)
    (m : Method) (args : List Value) : (reachTarget env t m args).NeverExhausted := by
  intro w e w' h
  cases t with
  | none =>
    cases h
    rfl
  | some o =>
    unfold reachTarget at h
    dsimp only at h
    split at h
    · exact henv.answers (.call (some o) m args) trivial w _ w' h e rfl
    · exact runMethod_neverExhausted henv o m args w e w' h

theorem tell_neverExhausted (henv : env.NeverExhausted) (t : Watcher) (jp : JoinPoint)
    {e : Failure} (he : e.isExhaustion = false) : (t.tell env jp e).NeverExhausted := by
  cases t with
  | user body => exact henv.afterThrowing body jp e he
  | report id =>
    intro w e' w' h
    cases h

theorem intercepted_neverExhausted (henv : env.NeverExhausted) (v : Invocation)
    {behind : Leg σ Value} (h : behind.NeverExhausted) (a : Interception) :
    (Leg.intercepted env v behind a).NeverExhausted := by
  cases a with
  | user body => exact henv.interceptor body v behind h
  | around body => exact henv.around body v behind h
  | before body =>
    refine .looking fun l => ?_
    exact .andThen (.ofAct (henv.before _ _)) fun _ => h
  | afterReturning body filter =>
    refine .andThen h fun value => ?_
    refine .looking fun l => ?_
    refine .branch _ ?_ (.succeed _)
    exact .andThen (.ofAct (henv.afterReturning _ _ _)) fun _ => .succeed _
  | afterThrowing watcher filter =>
    refine .attempting h fun o ho => ?_
    cases o with
    | ok value => exact .succeed _
    | error e =>
      refine .branch _ ?_ (.fail (ho e rfl))
      refine .looking fun l => ?_
      exact .andThen (.ofAct (tell_neverExhausted henv _ _ (ho e rfl))) fun _ => .fail (ho e rfl)
  | after body =>
    refine .attempting h fun o ho => ?_
    refine .looking fun l => ?_
    exact .andThen (.ofAct (henv.after _ _)) fun _ => .ofOutcome ho
  | trace withArguments =>
    refine .looking fun l => ?_
    refine .andThen (.ofRun _) fun _ => ?_
    refine .attempting h fun o ho => ?_
    exact .andThen (.ofRun _) fun _ => .ofOutcome ho
  | slowCalls threshold =>
    refine .attempting h fun o ho => ?_
    refine .andThen (.ofRun _) fun w => ?_
    refine .branch _ ?_ (.ofOutcome ho)
    exact .andThen (.ofRun _) fun _ => .ofOutcome ho
  | introduce delegate interfaces =>
    refine .looking fun l => ?_
    refine .branch _ ?_ h
    exact .andThen (.ofAct (reachTarget_neverExhausted henv _ _ _)) fun _ => .succeed _

/-- A call never runs past the end of its chain. -/
theorem continuation_neverExhausted (henv : env.NeverExhausted) (v : Invocation)
    (rest : List Link) : ∀ place, (continuation env v place rest).NeverExhausted := by
  induction rest with
  | nil =>
    intro place
    refine .looking fun l => ?_
    exact .ofAct (reachTarget_neverExhausted henv _ _ _)
  | cons link rest ih =>
    intro place
    cases link with
    | fixed i => exact intercepted_neverExhausted henv _ (ih _) _
    | dynamic i p =>
      refine .looking fun l => ?_
      refine .andThen (.ofRun _) fun matched => ?_
      refine .branch _ (intercepted_neverExhausted henv _ (ih _) _) ?_
      exact .andThen (.ofRun _) fun _ => ih _

/-- Continuing an invocation never runs past the end of its chain. -/
theorem run_neverExhausted (henv : env.NeverExhausted) {v : Invocation}
    (hv : v.cursor ≤ v.chain.length) {w w' : World σ} {e : Failure} {v' : Invocation}
    (h : v.run env w = some ((.error e, v'), w')) : e.isExhaustion = false := by
  rw [run_eq_continuation env v hv] at h
  obtain ⟨⟨⟨o, l⟩, w₁⟩, hr, hk⟩ := Option.bind_eq_some_iff.mp h
  cases hk
  exact continuation_neverExhausted henv v _ _ _ w e l _ hr

end Links

end Aspects
