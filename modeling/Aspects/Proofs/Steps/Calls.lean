import Aspects.Proofs.Steps.Pointcuts
import Aspects.Proceeding

/-!
# Calls track

What a call does with its invocation in its hands touches the world only through user
code, pointcuts and messages. So a frame tracks if, for every invocation it may hold,
the run that comes of it does.
-/

namespace Aspects

variable {σ : Type} {α β : Type} {code : Code σ} {τ : Trail code} {env env' : Env σ}

/-! ## Reaching the target -/

theorem runMethod_tracks (henv : env.Tracks τ env') (o : Object) (m : Method)
    (args : List Value) :
    Tracks τ (runMethod env o m args).run (runMethod env' o m args).run := by
  unfold runMethod
  split
  · exact .fail _
  · split
    · exact .fail _
    · exact henv.exec fun c => c.method _ o args

theorem reachTarget_tracks (henv : env.Tracks τ env') (target : Option Object) (m : Method)
    (args : List Value) :
    Tracks τ (reachTarget env target m args).run (reachTarget env' target m args).run := by
  cases target with
  | none => exact .fail _
  | some o =>
    exact .branchAct _ (henv.perform (.call (some o) m args)) (runMethod_tracks henv o m args)

/-! ## Frames -/

/-- Whatever the invocation, what comes of the frame tracks. -/
def TracksHolding (τ : Trail code) (f f' : StateT Invocation (Run σ) α) :
    Prop :=
  ∀ v, Tracks τ (f.run v) (f'.run v)

namespace TracksHolding

theorem pure (a : α) : TracksHolding τ (Pure.pure a) (Pure.pure a) :=
  fun _ => .pure _

theorem bind {f f' : StateT Invocation (Run σ) α} {k k' : α → StateT Invocation (Run σ) β}
    (hf : TracksHolding τ f f') (hk : ∀ a, TracksHolding τ (k a) (k' a)) :
    TracksHolding τ (f >>= k) (f' >>= k') :=
  fun v => .bind (hf v) fun r => hk r.1 r.2

theorem lift {r r' : Run σ α} (h : Tracks τ r r') :
    TracksHolding τ (StateT.lift r) (StateT.lift r') :=
  fun _ => .bind h fun _ => .pure _

theorem look : TracksHolding τ (get : StateT Invocation (Run σ) Invocation) get :=
  fun _ => .pure _

theorem change (f : Invocation → Invocation) :
    TracksHolding τ (modify f : StateT Invocation (Run σ) Unit) (modify f) :=
  fun _ => .pure _

theorem program {F : Type → Type} {f f' : {β : Type} → F β → StateT Invocation (Run σ) β}
    (h : ∀ {β : Type} (c : F β), TracksHolding τ (f c) (f' c)) (p : Program F α) :
    TracksHolding τ (p.run f) (p.run f') := by
  induction p with
  | done a => exact pure a
  | issue c k ih => exact bind (h c) ih

theorem succeed (a : α) :
    TracksHolding τ (Pure.pure a : Frame σ α).run (Pure.pure a : Frame σ α).run :=
  pure _

theorem fail (e : Failure) :
    TracksHolding τ (throw e : Frame σ α).run (throw e : Frame σ α).run :=
  pure _

theorem andThen {f f' : Frame σ α} {k k' : α → Frame σ β}
    (hf : TracksHolding τ f.run f'.run)
    (hk : ∀ a, TracksHolding τ (k a).run (k' a).run) :
    TracksHolding τ (f >>= k).run (f' >>= k').run := by
  rw [ExceptT.run_bind, ExceptT.run_bind]
  refine bind hf fun o => ?_
  cases o with
  | ok a => exact hk a
  | error e => exact pure _

theorem branch (c : Prop) [Decidable c] {f₁ f₁' f₂ f₂' : Frame σ α}
    (h₁ : TracksHolding τ f₁.run f₁'.run)
    (h₂ : TracksHolding τ f₂.run f₂'.run) :
    TracksHolding τ (if c then f₁ else f₂).run (if c then f₁' else f₂').run := by
  split
  · exact h₁
  · exact h₂

theorem looking {k k' : Invocation → Frame σ α}
    (hk : ∀ v, TracksHolding τ (k v).run (k' v).run) :
    TracksHolding τ (get >>= k : Frame σ α).run (get >>= k' : Frame σ α).run :=
  fun v => hk v v

theorem ofRun {r r' : Run σ α} (h : Tracks τ r r') :
    TracksHolding τ (Frame.ofRun r).run (Frame.ofRun r').run :=
  bind (lift h) fun _ => pure _

theorem ofAct {a a' : Act σ α} (h : Tracks τ a.run a'.run) :
    TracksHolding τ (Frame.ofAct a).run (Frame.ofAct a').run :=
  lift h

theorem attempt {f f' : Frame σ α} (h : TracksHolding τ f.run f'.run) :
    TracksHolding τ (Frame.attempt f).run (Frame.attempt f').run :=
  bind h fun _ => pure _

theorem ofOutcome (o : Outcome α) :
    TracksHolding τ (MonadExcept.ofExcept o : Frame σ α).run
      (MonadExcept.ofExcept o : Frame σ α).run := by
  cases o with
  | ok a => exact succeed a
  | error e => exact fail e

theorem keepingCursor {f f' : Frame σ α} (h : TracksHolding τ f.run f'.run) :
    TracksHolding τ f.keepingCursor.run f'.keepingCursor.run :=
  bind look fun _ => bind h fun _ => bind (change _) fun _ => pure _

theorem onCopy (args : Option (List Value)) {f f' : Frame σ α}
    (h : TracksHolding τ f.run f'.run) :
    TracksHolding τ (Frame.onCopy args f).run (Frame.onCopy args f').run :=
  fun v => .bind (h (v.copy args)) fun _ => .pure _

end TracksHolding

/-! ## Interceptors -/

section Interceptors

variable {proceed proceed' : Frame σ Value}

theorem proceedWith_tracks (h : TracksHolding τ proceed.run proceed'.run)
    (args : List Value) :
    TracksHolding τ (proceedWith proceed args).run (proceedWith proceed' args).run :=
  .looking fun _ => .branch _ (.fail _) (h.onCopy _)

theorem performAround_tracks (henv : env.Tracks τ env')
    (h : TracksHolding τ proceed.run proceed'.run) {β : Type}
    (c : Either (Command σ) AroundStep β) :
    TracksHolding τ (performAround env proceed c) (performAround env' proceed' c) := by
  match c with
  | .inl c => exact .lift (henv.perform c)
  | .inr .invocation => exact .look
  | .inr .proceed => exact h
  | .inr (.proceedWith args) => exact proceedWith_tracks h args

theorem performInvocation_tracks (henv : env.Tracks τ env')
    (h : TracksHolding τ proceed.run proceed'.run) {β : Type}
    (c : Either (Command σ) InvocationStep β) :
    TracksHolding τ (performInvocation env proceed c)
      (performInvocation env' proceed' c) := by
  match c with
  | .inl c => exact .lift (henv.perform c)
  | .inr .invocation => exact .look
  | .inr .proceed => exact h
  | .inr (.proceedOnCopy args) => exact h.onCopy args
  | .inr (.setArguments args) => exact .change _
  | .inr (.setAttribute key o) => exact .change _
  | .inr (.removeAttribute key) => exact .change _

theorem tell_tracks (henv : env.Tracks τ env') (t : Watcher) (jp : JoinPoint)
    (e : Failure) :
    Tracks τ (t.tell env jp e).run (t.tell env' jp e).run := by
  cases t with
  | user body => exact henv.exec fun c => c.afterThrowing body jp e
  | report id => exact .ofRun (.emit _ _ _)

theorem traced_tracks (h : TracksHolding τ proceed.run proceed'.run)
    (withArguments : Bool) :
    TracksHolding τ (traced withArguments proceed).run
      (traced withArguments proceed').run := by
  refine .looking fun v => ?_
  refine .andThen (.ofRun (.emit _ _ _)) fun _ => ?_
  refine .andThen h.attempt fun outcome => ?_
  exact .andThen (.ofRun (.emit _ _ _)) fun _ => .ofOutcome outcome

theorem isSlow_eq (henv : env.Tracks τ env') (threshold : Nat) :
    isSlow env' threshold = isSlow env threshold := by
  unfold isSlow
  rw [henv.code_eq, henv.code_eq']

theorem watched_tracks (henv : env.Tracks τ env')
    (h : TracksHolding τ proceed.run proceed'.run) (threshold : Nat) :
    TracksHolding τ (watched env threshold proceed).run
      (watched env' threshold proceed').run := by
  unfold watched
  rw [isSlow_eq henv]
  refine .andThen h.attempt fun outcome => ?_
  refine .andThen (.ofRun .look) fun w => ?_
  refine .branch _ ?_ (.ofOutcome outcome)
  refine .looking fun v => ?_
  exact .andThen (.ofRun (.emit _ _ _)) fun _ => .ofOutcome outcome

theorem introduced_tracks (henv : env.Tracks τ env')
    (h : TracksHolding τ proceed.run proceed'.run) (delegate : Object)
    (interfaces : List TypeDesc) :
    TracksHolding τ (introduced env delegate interfaces proceed).run
      (introduced env' delegate interfaces proceed').run := by
  refine .looking fun v => ?_
  refine .branch _ ?_ h
  exact .andThen (.ofAct (reachTarget_tracks henv _ _ _)) fun _ => .succeed _

/-- An interceptor tracks if what is behind it does. -/
theorem intercept_tracks (henv : env.Tracks τ env')
    (h : TracksHolding τ proceed.run proceed'.run) (a : Interception) :
    TracksHolding τ (intercept env proceed a).run (intercept env' proceed' a).run := by
  cases a with
  | user body =>
    show TracksHolding τ ((env.code.interceptor body).run.run _)
      ((env'.code.interceptor body).run.run _)
    rw [henv.code_eq, henv.code_eq']
    exact .program (performInvocation_tracks henv h) _
  | around body =>
    show TracksHolding τ ((env.code.around body).run.run _)
      ((env'.code.around body).run.run _)
    rw [henv.code_eq, henv.code_eq']
    exact .program (performAround_tracks henv h) _
  | before body =>
    refine .looking fun v => ?_
    exact .andThen (.ofAct (henv.exec fun c => c.before body v.joinPoint)) fun _ => h
  | afterReturning body filter =>
    refine .andThen h fun value => ?_
    refine .looking fun v => ?_
    refine .branch _ ?_ (.succeed _)
    refine .andThen (.ofAct ?_) fun _ => .succeed _
    exact henv.exec fun c => c.afterReturning body v.joinPoint value
  | afterThrowing watcher filter =>
    refine .andThen h.attempt fun outcome => ?_
    cases outcome with
    | ok value => exact .succeed _
    | error e =>
      refine .branch _ ?_ (.fail e)
      refine .looking fun v => ?_
      exact .andThen (.ofAct (tell_tracks henv watcher _ e)) fun _ => .fail e
  | after body =>
    refine .andThen h.attempt fun outcome => ?_
    refine .looking fun v => ?_
    refine .andThen (.ofAct ?_) fun _ => .ofOutcome outcome
    exact henv.exec fun c => c.after body v.joinPoint
  | trace withArguments => exact traced_tracks h _
  | slowCalls threshold => exact watched_tracks henv h _
  | introduce delegate interfaces => exact introduced_tracks henv h _ _

end Interceptors

/-! ## Chains -/

theorem advance_tracks (henv : env.Tracks τ env') (room : Nat) :
    TracksHolding τ (advance env room).run (advance env' room).run := by
  induction room with
  | zero => exact .looking fun _ => .fail _
  | succ room ih =>
    refine .looking fun v => ?_
    split
    · exact .ofAct (reachTarget_tracks henv _ _ _)
    · next link _ =>
      refine .andThen (fun _ => .pure _) fun _ => ?_
      cases link with
      | fixed i => exact intercept_tracks henv ih.keepingCursor i.action
      | dynamic i p =>
        refine .andThen (.ofRun (p.matchesRuntime_tracks henv _ _ _)) fun matched => ?_
        refine .branch _ (intercept_tracks henv ih.keepingCursor i.action) ?_
        exact .andThen (.ofRun (.emit _ _ _)) fun _ => ih

theorem Invocation.run_tracks (henv : env.Tracks τ env') (v : Invocation) :
    Tracks τ (v.run env) (v.run env') := by
  have h : TracksHolding τ (proceed env).run (proceed env').run :=
    .looking fun v => (advance_tracks henv _).keepingCursor
  exact h v

end Aspects
