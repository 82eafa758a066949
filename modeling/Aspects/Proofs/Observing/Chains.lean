import Aspects.Proofs.Proceeding.Simulation

/-!
# Chains that only observe

Advice that observes does something on the way in, on the way out, or both, and lets the
call pass: callbacks before and after, with or without a filter, as long as they do not
fail, and the ready-made messages. A chain of such links has a simple shape. The links
that are entered are settled on the way in, one after the other, each dynamic one by its
pointcut (`inward`); the target is reached; and the links that were entered are left in
the opposite order (`outward`). Nothing on the way out changes the outcome, so the call
is the target's (`continuation_observing`).
-/

namespace Aspects

variable {σ : Type} {α β : Type}

/-- The act never fails. -/
def Act.Succeeds (a : Act σ α) : Prop :=
  ∀ w e w', a.run w ≠ some (.error e, w')

/-- The act for its effects alone. -/
def Act.effect (a : Act σ α) : Run σ Unit := do
  let _ ← a.run
  return ()

/-- The interceptor lets every call pass, and its callback never fails. -/
def Interception.Observes (env : Env σ) : Interception → Prop
  | before body => ∀ jp, (env.exec (env.code.before body jp)).Succeeds
  | afterReturning body _ => ∀ jp v, (env.exec (env.code.afterReturning body jp v)).Succeeds
  | afterThrowing watcher _ => ∀ jp e, (watcher.tell env jp e).Succeeds
  | after body => ∀ jp, (env.exec (env.code.after body jp)).Succeeds
  | trace _ => True
  | slowCalls _ => True
  | _ => False

section Passing

variable (env : Env σ) (jp : JoinPoint)

/-- What an interceptor that observes does on the way in. -/
def enter : Interception → Run σ Unit
  | .before body => (env.exec (env.code.before body jp)).effect
  | .trace withArguments =>
    let shown := if withArguments then " with " ++ inspectArguments jp.args else ""
    emit .info ("→ Entering: " ++ jp.method.signature ++ shown) []
  | _ => return ()

/-- What an interceptor that observes does on the way out. -/
def leave (outcome : Outcome Value) : Interception → Run σ Unit
  | .afterReturning body filter =>
    match outcome with
    | .ok value =>
      if returnAccepted filter jp.method value then
        (env.exec (env.code.afterReturning body jp value)).effect
      else return ()
    | .error _ => return ()
  | .afterThrowing watcher filter =>
    match outcome with
    | .ok _ => return ()
    | .error e =>
      if failureAccepted filter e then (watcher.tell env jp e).effect else return ()
  | .after body => (env.exec (env.code.after body jp)).effect
  | .trace _ =>
    let ending := match outcome with
      | .ok _ => ""
      | .error e => " with error " ++ e.display
    emit .info ("← Exiting: " ++ jp.method.signature ++ ending ++ " (took TIME)") []
  | .slowCalls threshold => do
    if isSlow env threshold (← get) then emit .warn (slowMessage threshold jp.method) []
    else return ()
  | _ => return ()

/-- The way in from a place of the chain; it answers what was entered. -/
def inward (targetType : Option TypeDesc) : Nat → List Link → Run σ (List Interception)
  | _, [] => return []
  | place, .fixed i :: rest => do
    enter env jp i.action
    return i.action :: (← inward targetType (place + 1) rest)
  | place, .dynamic i p :: rest => do
    if ← p.matchesRuntime env jp.method targetType jp.args then
      enter env jp i.action
      return i.action :: (← inward targetType (place + 1) rest)
    else
      emit .trace "Runtime match failed, skipping interceptor"
        [("method", jp.method.signature), ("index", toString place)]
      inward targetType (place + 1) rest

/-- The way out through what was entered, the last first. -/
def outward (outcome : Outcome Value) : List Interception → Run σ Unit
  | [] => return ()
  | a :: as => do
    outward outcome as
    leave env jp outcome a

/-- A call on its way in, to the target, and out again. -/
def passThrough (targetType : Option TypeDesc) (place : Nat) (links : List Link) :
    Run σ (Outcome Value) := do
  let entered ← inward env jp targetType place links
  let outcome ← (reachTarget env jp.target jp.method jp.args).run
  outward env jp outcome entered
  return outcome

end Passing

/-! ## One link -/

/-- The leg comes out with what the run answers and the luggage as it was. -/
def Leg.Brings (g : Leg σ α) (l : Luggage) (r : Run σ (Outcome α)) : Prop :=
  g.run.run l = (fun o => (o, l)) <$> r

namespace Leg.Brings

variable {l : Luggage}

theorem succeed (a : α) : (pure a : Leg σ α).Brings l (pure (.ok a)) := by
  simp [Brings]

theorem fail (e : Failure) : (throw e : Leg σ α).Brings l (pure (.error e)) := by
  simp [Brings]

theorem ofOutcome (o : Outcome α) :
    (MonadExcept.ofExcept o : Leg σ α).Brings l (pure o) := by
  cases o with
  | ok a => exact succeed a
  | error e => exact fail e

theorem ofAct (a : Act σ α) : (Leg.ofAct a).Brings l a.run := by
  show (StateT.lift a.run : StateT Luggage (Run σ) _).run l = _
  simp

/-- What comes after what was brought, whether it is a value or a failure. -/
theorem attempting {g : Leg σ α} {r : Run σ (Outcome α)} {k : Outcome α → Leg σ β}
    {m : Outcome α → Run σ (Outcome β)} (hg : g.Brings l r)
    (hk : ∀ o, (k o).Brings l (m o)) : (g.attempt >>= k).Brings l (r >>= m) := by
  have hrun : (g.attempt >>= k).run.run l
      = g.run.run l >>= fun x => (k x.1).run.run x.2 := by
    simp [Leg.attempt]
  unfold Brings at *
  rw [hrun, hg]
  simp [hk _]

/-- What comes after a value that was brought; a failure is passed on. -/
theorem andThen {g : Leg σ α} {r : Run σ (Outcome α)} {k : α → Leg σ β}
    {m : Outcome α → Run σ (Outcome β)} (hg : g.Brings l r)
    (hok : ∀ a, (k a).Brings l (m (.ok a))) (herror : ∀ e, m (.error e) = pure (.error e)) :
    (g >>= k).Brings l (r >>= m) := by
  unfold Brings at *
  rw [ExceptT.run_bind, StateT.run_bind, hg]
  simp only [bind_map_left, map_bind]
  refine bind_congr fun o => ?_
  cases o with
  | ok a => exact hok a
  | error e => simp [herror]

theorem ofRun {r : Run σ α} {k : α → Leg σ β} {m : α → Run σ (Outcome β)}
    (hk : ∀ a, (k a).Brings l (m a)) : (Leg.ofRun r >>= k).Brings l (r >>= m) := by
  have hrun : (Leg.ofRun r >>= k).run.run l = r >>= fun a => (k a).run.run l := by
    simp [Leg.ofRun]
  unfold Brings at *
  rw [hrun, map_bind]
  exact bind_congr hk

/-- A callback that does not fail. -/
theorem effect {a : Act σ Unit} (ha : a.Succeeds) {g : Leg σ β} {r : Run σ (Outcome β)}
    (hg : g.Brings l r) :
    (Leg.ofAct a >>= fun _ => g).Brings l (a.effect >>= fun _ => r) := by
  have hdone := (ofAct a (l := l)).andThen (k := fun _ => g)
    (m := fun o => match o with
      | .ok _ => r
      | .error e => pure (.error e)) (fun _ => hg) fun _ => rfl
  refine hdone.trans (congrArg _ ?_)
  -- the failure that the callback never has
  funext w
  show (a.run w).bind _ = ((a.run w).bind _).bind _
  cases h : a.run w with
  | none => rfl
  | some x =>
    obtain ⟨_ | e, w'⟩ := x
    · exact absurd h (ha w _ w')
    · rfl

theorem looking {k : Luggage → Leg σ α} {r : Run σ (Outcome α)} (hk : (k l).Brings l r) :
    (get >>= k : Leg σ α).Brings l r :=
  hk

end Leg.Brings

/-- What an interceptor that observes makes of the leg behind it: the way in, what comes
from behind, and the way out, after which that is passed on. -/
theorem intercepted_observing {env : Env σ} {here : Invocation} {behind : Leg σ Value}
    {a : Interception} (ha : a.Observes env) {l : Luggage} {r : Run σ (Outcome Value)}
    (h : behind.Brings l r) :
    (Leg.intercepted env here behind a).Brings l do
      enter env (here.carrying l).joinPoint a
      let outcome ← r
      leave env (here.carrying l).joinPoint outcome a
      return outcome := by
  cases a with
  | before body =>
    simp only [enter, leave, pure_bind, bind_pure]
    exact .looking (.effect (ha _) h)
  | afterReturning body filter =>
    simp only [enter, pure_bind]
    -- a failure goes past this link untouched
    refine h.andThen (fun value => .looking ?_) fun e => by simp [leave]
    split
    · next hacc =>
      have hleave : leave env (here.carrying l).joinPoint (.ok value)
          (.afterReturning body filter) = (env.exec _).effect := if_pos hacc
      rw [hleave]
      exact .effect (ha _ value) (.succeed value)
    · next hacc =>
      have hleave : leave env (here.carrying l).joinPoint (.ok value)
          (.afterReturning body filter) = pure () := if_neg hacc
      rw [hleave, pure_bind]
      exact .succeed value
  | afterThrowing watcher filter =>
    simp only [enter, pure_bind]
    refine h.attempting fun outcome => ?_
    cases outcome with
    | ok value =>
      simp only [leave, pure_bind]
      exact .succeed value
    | error e =>
      simp only [leave]
      split
      · exact .looking (.effect (ha _ e) (.fail e))
      · simp only [pure_bind]
        exact .fail e
  | after body =>
    simp only [enter, pure_bind]
    refine h.attempting fun outcome => .looking ?_
    simp only [leave]
    exact .effect (ha _) (.ofOutcome outcome)
  | trace withArguments =>
    refine .looking (.ofRun fun _ => h.attempting fun outcome => ?_)
    exact .ofRun fun _ => .ofOutcome outcome
  | slowCalls threshold =>
    simp only [enter, pure_bind]
    refine h.attempting fun outcome => ?_
    simp only [leave, bind_assoc]
    refine .ofRun fun w => ?_
    split
    · exact .ofRun fun _ => .ofOutcome outcome
    · simp only [pure_bind]
      exact .ofOutcome outcome
  | user body => exact ha.elim
  | around body => exact ha.elim
  | introduce delegate interfaces => exact ha.elim

/-! ## The whole chain -/

/-- A chain of interceptors that observe brings the target's outcome, between the way in
and the way out. -/
theorem continuation_observing {env : Env σ} {v : Invocation} {l : Luggage}
    {rest : List Link} (hrest : ∀ link ∈ rest, link.interceptor.action.Observes env) :
    ∀ place, (continuation env v place rest).Brings l
      (passThrough env (v.carrying l).joinPoint v.targetType place rest) := by
  induction rest with
  | nil =>
    intro place
    simp only [passThrough, inward, outward, pure_bind, bind_pure]
    exact .looking (.ofAct _)
  | cons link rest ih =>
    intro place
    have hlink := hrest link List.mem_cons_self
    have hbehind := ih (fun link' h => hrest link' (List.mem_cons_of_mem _ h)) (place + 1)
    -- entering the link and what is behind it
    have hentered : ∀ i : Interceptor, i.action.Observes env →
        (Leg.intercepted env (v.movedTo (place + 1)) (continuation env v (place + 1) rest)
          i.action).Brings l (do
            enter env (v.carrying l).joinPoint i.action
            let outcome ← passThrough env (v.carrying l).joinPoint v.targetType (place + 1) rest
            leave env (v.carrying l).joinPoint outcome i.action
            return outcome) := fun i hi => intercepted_observing hi hbehind
    cases link with
    | fixed i =>
      have h := hentered i hlink
      simp only [passThrough, inward, outward, bind_assoc, pure_bind] at h ⊢
      exact h
    | dynamic i p =>
      simp only [passThrough, inward, bind_assoc]
      refine .looking (.ofRun fun matched => ?_)
      -- a link that is not entered is not left either
      cases matched with
      | true =>
        have h := hentered i hlink
        simp only [passThrough, if_true, outward, bind_assoc, pure_bind] at h ⊢
        exact h
      | false =>
        simp only [Bool.false_eq_true, if_false, bind_assoc]
        exact .ofRun fun _ => hbehind

end Aspects
