import Aspects.Proofs.Steps.Tracking

/-!
# Pointcuts and chains track

Asking a pointcut runs user code, writes messages and fills memories; working a chain
out does nothing else and numbers the interceptors that it makes.
-/

namespace Aspects

variable {σ : Type} {code : Code σ} {τ : Trail code} {env env' : Env σ}

/-! ## Expressions -/

/-- Resolving tracks if the user tests do, for they are all that is run. -/
theorem Expr.resolve_tracks
    {ask ask' : Routine → Method → TypeDesc → Run σ (Except String Bool)}
    (h : ∀ r m t, Tracks τ (ask r m t) (ask' r m t)) (m : Method) (t : TypeDesc)
    (e : Expr) :
    Tracks τ (e.resolve ask m t).run (e.resolve ask' m t).run := by
  induction e with
  | custom test =>
    refine .andThen (.lift (h test m t)) fun o => ?_
    cases o with
    | ok b => exact .succeed _
    | error text => exact .fail _
  | and a b iha ihb =>
    refine .andThen iha fun left => ?_
    exact .branchAct _ (.succeed _) (.andThen ihb fun _ => .succeed _)
  | or a b iha ihb =>
    refine .andThen iha fun left => ?_
    exact .branchAct _ (.succeed _) (.andThen ihb fun _ => .succeed _)
  | not a iha => exact .andThen iha fun _ => .succeed _
  | _ => exact .succeed _

theorem Expr.resolveIn_tracks (henv : env.Tracks τ env') (e : Expr) (m : Method)
    (t : TypeDesc) : Tracks τ (e.resolveIn env m t) (e.resolveIn env' m t) :=
  resolve_tracks (fun r m t => henv.run fun c => c.methodTest r m t) m t e

theorem Residue.passesIn_tracks (henv : env.Tracks τ env') (r : Residue) (m : Method)
    (args : List Value) : Tracks τ (r.passesIn env m args) (r.passesIn env' m args) := by
  induction r with
  | const b => exact .pure _
  | args ts => exact .pure _
  | argsMatching test => exact henv.run fun c => c.argumentTest test args
  | and a b iha ihb => exact .bind iha fun _ => .branch _ ihb (.pure _)
  | or a b iha ihb => exact .bind iha fun _ => .branch _ (.pure _) ihb
  | not a iha => exact .bind iha fun _ => .pure _

theorem Expr.evaluateIn_tracks (henv : env.Tracks τ env') (e : Expr) (m : Method)
    (t : TypeDesc) (args : List Value) :
    Tracks τ (e.evaluateIn env m t args) (e.evaluateIn env' m t args) := by
  refine .bind (e.resolveIn_tracks henv m t) fun o => ?_
  cases o with
  | ok r => exact r.passesIn_tracks henv m args
  | error f => exact .bind (.emit _ _ _) fun _ => .pure _

namespace Pointcut

/-! ## Memories -/

theorem resolveAsked_tracks (henv : env.Tracks τ env') (label : String) (e : Expr)
    (m : Method) (t : TypeDesc) :
    Tracks τ (resolveAsked env label e m t) (resolveAsked env' label e m t) := by
  refine .bind (e.resolveIn_tracks henv m t) fun o => ?_
  cases o with
  | ok r => exact .pure _
  | error f => exact .bind (.emit _ _ _) fun _ => .pure _

theorem resolveShape_tracks (henv : env.Tracks τ env') (label : String) (e : Expr)
    (m : Method) (t : Option TypeDesc) :
    Tracks τ (resolveShape env label e m t) (resolveShape env' label e m t) := by
  refine .bind (e.resolveIn_tracks henv _ _) fun o => ?_
  cases o with
  | ok r => exact .pure _
  | error f =>
    refine .branch _ (.bind (.emit _ _ _) fun _ => .pure _) ?_
    exact .bind (.emit _ _ _) fun _ => resolveAsked_tracks henv label e m _

theorem residueOf_tracks (henv : env.Tracks τ env') (id : MemoId) (label : String)
    (e : Expr) (m : Method) (t : Option TypeDesc) :
    Tracks τ (residueOf env id label e m t) (residueOf env' id label e m t) := by
  refine .bind .look fun w => ?_
  split
  · exact .pure _
  · refine .bind (resolveShape_tracks henv label e m t) fun r => ?_
    exact .bind (.update fun w => .of_eq (.remember w id _) rfl rfl) fun _ => .pure _

/-! ## The four questions -/

theorem matchesClass_tracks (henv : env.Tracks τ env') (p : Pointcut) (t : TypeDesc) :
    Tracks τ (p.matchesClass env t) (p.matchesClass env' t) := by
  cases p with
  | user label body => exact henv.run fun c => c.matchesClass body t
  | _ => exact .pure _

theorem matchesMethod_tracks (henv : env.Tracks τ env') (p : Pointcut) (m : Method)
    (t : Option TypeDesc) :
    Tracks τ (p.matchesMethod env m t).run (p.matchesMethod env' m t).run := by
  cases p with
  | all => exact .succeed _
  | expr e =>
    refine .andThen (.ofRun (e.resolveIn_tracks henv m _)) fun o => ?_
    exact .andThen (.ofExcept o) fun _ => .succeed _
  | memo id e source =>
    exact .andThen (.ofRun (residueOf_tracks henv id _ e m t)) fun _ => .succeed _
  | residue r => exact .succeed _
  | user label body => exact henv.exec fun c => c.matchesMethod body m t

theorem matchesRuntime_tracks (henv : env.Tracks τ env') (p : Pointcut) (m : Method)
    (t : Option TypeDesc) (args : List Value) :
    Tracks τ (p.matchesRuntime env m t args) (p.matchesRuntime env' m t args) := by
  cases p with
  | all => exact .pure _
  | expr e => exact e.evaluateIn_tracks henv m _ args
  | memo id e source =>
    exact .bind (residueOf_tracks henv id _ e m t) fun r => r.passesIn_tracks henv m args
  | residue r => exact r.passesIn_tracks henv m args
  | user label body => exact henv.run fun c => c.matchesRuntime body m t args

theorem residueFor_tracks (henv : env.Tracks τ env') (p : Pointcut) (m : Method)
    (t : Option TypeDesc) : Tracks τ (p.residueFor env m t) (p.residueFor env' m t) := by
  cases p with
  | all => exact .pure _
  | expr e =>
    refine .bind (e.resolveIn_tracks henv m _) fun o => ?_
    cases o with
    | ok r => exact .pure _
    | error f => exact .pure _
  | memo id e source =>
    exact .bind (residueOf_tracks henv id _ e m t) fun _ => .pure _
  | residue r => exact .pure _
  | user label body => exact henv.run fun c => c.residue body m t

theorem newMemo_tracks (e : Expr) (source : Option String) :
    Tracks τ (newMemo e source) (newMemo e source) :=
  .change _ fun w => .of_eq (.newMemory w) rfl rfl

end Pointcut

/-! ## Adapters -/

namespace Adapter

theorem number_tracks (actions : List Interception) :
    Tracks τ (number actions) (number actions) := by
  unfold number
  induction actions with
  | nil => exact .pure _
  | cons a as ih =>
    rw [List.mapM_cons]
    exact .bind (.bind .freshId fun _ => .pure _) fun _ => .bind ih fun _ => .pure _

theorem interceptors_tracks (adapters : List Adapter) (a : Advisor) :
    Tracks τ (interceptors adapters a).run (interceptors adapters a).run := by
  refine .andThen (.ofExcept _) fun actions => ?_
  refine .andThen (.ofRun (number_tracks actions)) fun made => ?_
  exact .branchAct _ (.fail _) (.succeed _)

theorem make_tracks (extra : List Adapter) : Tracks τ (make extra) (make extra) := by
  have htold : Tracks τ (extra.forM fun _ => emit .debug "Registered advisor adapter" [])
      (extra.forM fun _ => emit .debug "Registered advisor adapter" []) := by
    induction extra with
    | nil => exact .pure _
    | cons a as ih => exact .bind (.emit _ _ _) fun _ => ih
  exact .bind htold fun _ => .change _ fun w => .of_eq (.newAdapters w extra) rfl rfl

end Adapter

/-! ## Chains -/

namespace Chain

theorem linksOf_tracks (henv : env.Tracks τ env') (adapters : AdaptersId) (a : Advisor)
    (m : Method) (t : Option TypeDesc) :
    Tracks τ (linksOf env adapters a m t).run (linksOf env' adapters a m t).run := by
  have hmade : Tracks τ
      (do Adapter.interceptors ((← Act.world).adapterList adapters) a : Act σ _).run
      (do Adapter.interceptors ((← Act.world).adapterList adapters) a : Act σ _).run :=
    .andThen .world fun _ => Adapter.interceptors_tracks _ a
  refine .branchAct _ (.andThen hmade fun _ => .succeed _) ?_
  refine .andThen (.attempt (a.pointcut.matchesMethod_tracks henv m t)) fun o => ?_
  match o with
  | .ok .always => exact .andThen hmade fun _ => .succeed _
  | .ok .maybe =>
    refine .andThen (.ofRun (a.pointcut.residueFor_tracks henv m t)) fun rest => ?_
    exact .andThen hmade fun _ => .succeed _
  | .ok .never => exact .succeed _
  | .error f => exact .andThen (.ofRun (.emit _ _ _)) fun _ => .succeed _

theorem linksOfAll_tracks (henv : env.Tracks τ env') (adapters : AdaptersId)
    (preFiltered : Bool) (m : Method) (t : Option TypeDesc) (as : List Advisor) :
    Tracks τ (linksOfAll env adapters preFiltered m t as).run
      (linksOfAll env' adapters preFiltered m t as).run := by
  induction as with
  | nil => exact .succeed _
  | cons a as ih =>
    -- what follows the links of the first advisor
    have hrest {links links' : Act σ (List Link)}
        (h : Tracks τ links.run links'.run) :
        Tracks τ
          (do return (← links) ++
            (← linksOfAll env adapters preFiltered m t as) : Act σ _).run
          (do return (← links') ++
            (← linksOfAll env' adapters preFiltered m t as) : Act σ _).run :=
      .andThen h fun _ => .andThen ih fun _ => .succeed _
    refine .branchAct _ (.andThen (.succeed true) fun passed => ?_)
      (.andThen (.ofRun (a.pointcut.matchesClass_tracks henv _)) fun passed => ?_)
    all_goals
      exact .branchAct _ (hrest (linksOf_tracks henv adapters a m t)) (hrest (.succeed _))

theorem standard_tracks (henv : env.Tracks τ env') (adapters : AdaptersId)
    (advisors : List Advisor) (preFiltered : Bool) (m : Method) (t : Option TypeDesc) :
    Tracks τ (standard env adapters advisors preFiltered m t).run
      (standard env' adapters advisors preFiltered m t).run := by
  refine .andThen (linksOfAll_tracks henv adapters preFiltered m t advisors) fun links => ?_
  exact .andThen (.ofRun (.emit _ _ _)) fun _ => .succeed _

end Chain

end Aspects
