import Mathlib.Logic.Basic
import Aspects.Proofs.Proceeding.Continuation

/-!
# Proceeding is the continuation

`Mirrors v f g` says that a run `f` with the whole invocation in its hands does, from the
place of `v`, what `g` does with the luggage alone. It goes through every way in which
frames are put together, so what an interceptor does mirrors what it makes of the leg
behind it as soon as proceeding mirrors that leg (`intercept_mirrors`).

Looking for the next link moves the cursor and leaves it where the link was found.
`Arrives` is the relation up to that: it needs no more than that the cursor is put back
afterwards, which every link's turn does (`Arrives.keepingCursor`). The induction over
the rest of the chain is `advance_arrives`, and `run_eq_continuation` is the outcome.
-/

namespace Aspects

variable {σ : Type} {α β : Type}

/-- From the place of `v`, what `f` does with the whole invocation is what `g` does with
its luggage: the same effects and the same answer, and of the invocation nothing but the
luggage is changed. -/
def Mirrors (v : Invocation) (f : StateT Invocation (Run σ) α)
    (g : StateT Luggage (Run σ) α) : Prop :=
  ∀ l, f.run (v.carrying l) = (fun (a, l') => (a, v.carrying l')) <$> g.run l

namespace Mirrors

variable {v : Invocation}

theorem pure (a : α) : Mirrors (σ := σ) v (Pure.pure a) (Pure.pure a) := by
  intro l
  simp

theorem bind {f : StateT Invocation (Run σ) α} {g : StateT Luggage (Run σ) α}
    {k : α → StateT Invocation (Run σ) β} {m : α → StateT Luggage (Run σ) β}
    (hf : Mirrors v f g) (hk : ∀ a, Mirrors v (k a) (m a)) :
    Mirrors v (f >>= k) (g >>= m) := by
  intro l
  simp [hf l, hk _ _]

theorem lift (r : Run σ α) : Mirrors v (StateT.lift r) (StateT.lift r) := by
  intro l
  simp

theorem seen : Mirrors (σ := σ) v get (do return v.carrying (← get)) := by
  intro l
  simp

theorem change {f : Invocation → Invocation} {g : Luggage → Luggage}
    (h : ∀ l, f (v.carrying l) = v.carrying (g l)) :
    Mirrors (σ := σ) v (modify f) (modify g) := by
  intro l
  simp [h]

/-- A program of user code mirrors itself if what it gets for its commands does. -/
theorem program {F : Type → Type} {f : {β : Type} → F β → StateT Invocation (Run σ) β}
    {g : {β : Type} → F β → StateT Luggage (Run σ) β}
    (h : ∀ {β : Type} (c : F β), Mirrors v (f c) (g c)) (p : Program F α) :
    Mirrors v (p.run f) (p.run g) := by
  induction p with
  | done a => exact pure a
  | issue c k ih => exact bind (h c) ih

/-! ## Runs that may fail -/

theorem succeed (a : α) :
    Mirrors v (Pure.pure a : Frame σ α).run (Pure.pure a : Leg σ α).run :=
  pure _

theorem fail (e : Failure) :
    Mirrors v (throw e : Frame σ α).run (throw e : Leg σ α).run :=
  pure _

theorem andThen {f : Frame σ α} {g : Leg σ α} {k : α → Frame σ β} {m : α → Leg σ β}
    (hf : Mirrors v f.run g.run) (hk : ∀ a, Mirrors v (k a).run (m a).run) :
    Mirrors v (f >>= k).run (g >>= m).run := by
  rw [ExceptT.run_bind, ExceptT.run_bind]
  refine bind hf fun o => ?_
  cases o with
  | ok a => exact hk a
  | error e => exact pure _

theorem branch (c : Prop) [Decidable c] {f f' : Frame σ α} {g g' : Leg σ α}
    (h : Mirrors v f.run g.run) (h' : Mirrors v f'.run g'.run) :
    Mirrors v (if c then f else f').run (if c then g else g').run := by
  split
  · exact h
  · exact h'

theorem ofOutcome (o : Outcome α) :
    Mirrors v (MonadExcept.ofExcept o : Frame σ α).run
      (MonadExcept.ofExcept o : Leg σ α).run := by
  cases o with
  | ok a => exact succeed a
  | error e => exact fail e

theorem ofRun (r : Run σ α) : Mirrors v (Frame.ofRun r).run (Leg.ofRun r).run :=
  bind (lift r) fun _ => pure _

theorem ofAct (a : Act σ α) : Mirrors v (Frame.ofAct a).run (Leg.ofAct a).run :=
  lift a.run

theorem attempt {f : Frame σ α} {g : Leg σ α} (h : Mirrors v f.run g.run) :
    Mirrors v (Frame.attempt f).run g.attempt.run :=
  bind h fun _ => pure _

/-- Looking at the invocation shows the fixed parts of `v` with the luggage of the
moment. -/
theorem looking {k : Invocation → Frame σ α} {m : Luggage → Leg σ α}
    (hk : ∀ l, Mirrors v (k (v.carrying l)).run (m l).run) :
    Mirrors v (get >>= k : Frame σ α).run (get >>= m : Leg σ α).run :=
  fun l => hk l l

/-- A leg need not look where only the fixed parts are asked for. -/
theorem lookingAway {k : Invocation → Frame σ α} {g : Leg σ α}
    (hk : ∀ l, Mirrors v (k (v.carrying l)).run g.run) :
    Mirrors v (get >>= k : Frame σ α).run g.run :=
  fun l => hk l l

theorem joinPoint {k : Invocation → Frame σ α} {m : JoinPoint → Leg σ α}
    (hk : ∀ l, Mirrors v (k (v.carrying l)).run (m (v.carrying l).joinPoint).run) :
    Mirrors v (get >>= k : Frame σ α).run (Leg.joinPoint v >>= m).run :=
  fun l => hk l l

theorem apart {f : Frame σ α} {g : Leg σ α} (h : Mirrors v f.run g.run)
    (args : Option (List Value)) :
    Mirrors v (Frame.onCopy args f).run (g.apart args).run := by
  intro l
  have hf : (Frame.onCopy args f).run.run (v.carrying l)
      = f.run.run (v.carrying { l with arguments := args.getD l.arguments })
        >>= fun r => Pure.pure (r.1, v.carrying l) := rfl
  have hg : (g.apart args).run.run l
      = g.run.run { l with arguments := args.getD l.arguments }
        >>= fun r => Pure.pure (r.1, l) := rfl
  -- both forget what has become of the copy
  rw [hf, hg, h]
  simp

end Mirrors

/-! ## One interceptor -/

section Interceptors

variable {v : Invocation} {proceed : Frame σ Value} {behind : Leg σ Value} (env : Env σ)

theorem proceedWith_mirrors (h : Mirrors v proceed.run behind.run) (args : List Value) :
    Mirrors v (proceedWith proceed args).run (Leg.goOnWith v behind args).run := by
  refine Mirrors.lookingAway fun l => ?_
  exact Mirrors.branch _ (Mirrors.fail _) (h.apart _)

theorem performAround_mirrors (h : Mirrors v proceed.run behind.run) {β : Type}
    (c : Either (Command σ) AroundStep β) :
    Mirrors v (performAround env proceed c) (Leg.answerAround env v behind c) := by
  match c with
  | .inl c => exact Mirrors.lift _
  | .inr .invocation => exact Mirrors.seen
  | .inr .proceed => exact h
  | .inr (.proceedWith args) => exact proceedWith_mirrors h args

theorem performInvocation_mirrors (h : Mirrors v proceed.run behind.run) {β : Type}
    (c : Either (Command σ) InvocationStep β) :
    Mirrors v (performInvocation env proceed c) (Leg.answerInterceptor env v behind c) := by
  match c with
  | .inl c => exact Mirrors.lift _
  | .inr .invocation => exact Mirrors.seen
  | .inr .proceed => exact h
  | .inr (.proceedOnCopy args) => exact h.apart args
  | .inr (.setArguments args) => exact Mirrors.change fun _ => rfl
  | .inr (.setAttribute key o) => exact Mirrors.change fun _ => rfl
  | .inr (.removeAttribute key) => exact Mirrors.change fun _ => rfl

theorem traced_mirrors (h : Mirrors v proceed.run behind.run) (withArguments : Bool) :
    Mirrors v (traced withArguments proceed).run (Leg.traced v behind withArguments).run := by
  refine Mirrors.looking fun l => ?_
  refine Mirrors.andThen (Mirrors.ofRun _) fun _ => ?_
  refine Mirrors.andThen h.attempt fun outcome => ?_
  exact Mirrors.andThen (Mirrors.ofRun _) fun _ => Mirrors.ofOutcome outcome

theorem watched_mirrors (h : Mirrors v proceed.run behind.run) (threshold : Nat) :
    Mirrors v (watched env threshold proceed).run
      (Leg.watched env v behind threshold).run := by
  refine Mirrors.andThen h.attempt fun outcome => ?_
  refine Mirrors.andThen (Mirrors.ofRun _) fun w => ?_
  refine Mirrors.branch _ ?_ (Mirrors.ofOutcome outcome)
  refine Mirrors.lookingAway fun l => ?_
  exact Mirrors.andThen (Mirrors.ofRun _) fun _ => Mirrors.ofOutcome outcome

theorem introduced_mirrors (h : Mirrors v proceed.run behind.run) (delegate : Object)
    (interfaces : List TypeDesc) :
    Mirrors v (introduced env delegate interfaces proceed).run
      (Leg.introduced env v behind delegate interfaces).run := by
  refine Mirrors.looking fun l => ?_
  refine Mirrors.branch _ ?_ h
  exact Mirrors.andThen (Mirrors.ofAct _) fun _ => Mirrors.succeed _

/-- What an interceptor does with its invocation is what it makes of the leg behind it. -/
theorem intercept_mirrors (h : Mirrors v proceed.run behind.run) (a : Interception) :
    Mirrors v (intercept env proceed a).run (Leg.intercepted env v behind a).run := by
  cases a with
  | user body => exact Mirrors.program (performInvocation_mirrors env h) _
  | before body =>
    refine Mirrors.joinPoint fun l => ?_
    exact Mirrors.andThen (Mirrors.ofAct _) fun _ => h
  | afterReturning body filter =>
    refine Mirrors.andThen h fun value => ?_
    refine Mirrors.joinPoint fun l => ?_
    refine Mirrors.branch _ ?_ (Mirrors.succeed _)
    exact Mirrors.andThen (Mirrors.ofAct _) fun _ => Mirrors.succeed _
  | afterThrowing watcher filter =>
    refine Mirrors.andThen h.attempt fun outcome => ?_
    cases outcome with
    | ok value => exact Mirrors.succeed _
    | error e =>
      refine Mirrors.branch _ ?_ (Mirrors.fail e)
      refine Mirrors.joinPoint fun l => ?_
      exact Mirrors.andThen (Mirrors.ofAct _) fun _ => Mirrors.fail e
  | after body =>
    refine Mirrors.andThen h.attempt fun outcome => ?_
    refine Mirrors.joinPoint fun l => ?_
    exact Mirrors.andThen (Mirrors.ofAct _) fun _ => Mirrors.ofOutcome outcome
  | around body => exact Mirrors.program (performAround_mirrors env h) _
  | trace withArguments => exact traced_mirrors h _
  | slowCalls threshold => exact watched_mirrors env h _
  | introduce delegate interfaces => exact introduced_mirrors env h _ _

end Interceptors

/-! ## Arriving anywhere -/

/-- What keeping the cursor does to the invocation that comes out. -/
theorem run_keepingCursor (f : Frame σ α) (v : Invocation) :
    f.keepingCursor.run.run v
      = (fun r => (r.1, r.2.movedTo v.cursor)) <$> f.run.run v := by
  show f.run.run v >>= (fun r => pure (r.1, r.2.movedTo v.cursor)) = _
  simp

/-- From the place of `v`, what `f` does with the whole invocation is what `g` does with
its luggage, wherever `f` leaves the cursor. -/
def Arrives (v : Invocation) (f : Frame σ α) (g : Leg σ α) : Prop :=
  ∀ l c, (fun r => (r.1, r.2.movedTo c)) <$> f.run.run (v.carrying l)
    = (fun (o, l') => (o, (v.carrying l').movedTo c)) <$> g.run.run l

namespace Arrives

variable {v : Invocation}

theorem of_mirrors {f : Frame σ α} {g : Leg σ α} (h : Mirrors v f.run g.run) :
    Arrives v f g := by
  intro l c
  rw [h l]
  simp

/-- Going on from another place, the invocation still arrives. -/
theorem of_moved {f : Frame σ α} (f' : Frame σ α) {g : Leg σ α} (i : Nat)
    (h : ∀ l, f.run.run (v.carrying l) = f'.run.run ((v.movedTo i).carrying l))
    (hf : Arrives (v.movedTo i) f' g) : Arrives v f g := by
  intro l c
  rw [h l]
  exact hf l c

theorem andThen {f : Frame σ α} {g : Leg σ α} {k : α → Frame σ β} {m : α → Leg σ β}
    (hf : Mirrors v f.run g.run) (hk : ∀ a, Arrives v (k a) (m a)) :
    Arrives v (f >>= k) (g >>= m) := by
  intro l c
  rw [ExceptT.run_bind, ExceptT.run_bind, StateT.run_bind, StateT.run_bind, hf l]
  simp only [map_bind, bind_map_left]
  refine bind_congr fun r => ?_
  obtain ⟨o, l'⟩ := r
  cases o with
  | ok a => exact hk a l' c
  -- after a failure the cursor is still where `hf` has it
  | error e => simp

theorem looking {k : Invocation → Frame σ α} {m : Luggage → Leg σ α}
    (hk : ∀ l, Arrives v (k (v.carrying l)) (m l)) :
    Arrives v (get >>= k : Frame σ α) (get >>= m : Leg σ α) :=
  fun l => hk l l

theorem branch (c : Prop) [Decidable c] {f f' : Frame σ α} {g g' : Leg σ α}
    (h : Arrives v f g) (h' : Arrives v f' g') :
    Arrives v (if c then f else f') (if c then g else g') := by
  split
  · exact h
  · exact h'

/-- Where an invocation arrives does not matter once the cursor is put back. -/
theorem keepingCursor {f : Frame σ α} {g : Leg σ α} (h : Arrives v f g) :
    Mirrors v f.keepingCursor.run g.run := by
  intro l
  rw [run_keepingCursor]
  exact h l v.cursor

end Arrives

/-! ## The whole chain -/

/-- What is left of a call behind its chain. -/
def atEnd (env : Env σ) : Frame σ Value := do
  let v ← get
  Frame.ofAct (reachTarget env v.target v.method v.arguments)

/-- What is left of a call at a dynamic link in a place, once the cursor is behind it. -/
def atDynamic (env : Env σ) (room place : Nat) (i : Interceptor) (p : Pointcut) :
    Frame σ Value := do
  let v ← get
  if ← Frame.ofRun (p.matchesRuntime env v.method v.targetType v.arguments) then
    intercept env (advance env room).keepingCursor i.action
  else
    Frame.ofRun (emit .trace "Runtime match failed, skipping interceptor"
      [("method", v.method.signature), ("index", toString place)])
    advance env room

theorem run_looking (k : Invocation → Frame σ α) (v : Invocation) :
    (get >>= k : Frame σ α).run.run v = (k v).run.run v := rfl

section Advance

variable (env : Env σ) (room : Nat) {v : Invocation}

theorem advance_behind (h : v.chain[v.cursor]? = none) :
    (advance env (room + 1)).run.run v = (atEnd env).run.run v := by
  rw [advance, run_looking]
  simp only [h]
  rfl

theorem advance_fixed {i : Interceptor} (h : v.chain[v.cursor]? = some (.fixed i)) :
    (advance env (room + 1)).run.run v
      = (intercept env (advance env room).keepingCursor i.action).run.run
          (v.movedTo (v.cursor + 1)) := by
  rw [advance, run_looking]
  simp only [h]
  rfl

theorem advance_dynamic {i : Interceptor} {p : Pointcut}
    (h : v.chain[v.cursor]? = some (.dynamic i p)) :
    (advance env (room + 1)).run.run v
      = (atDynamic env room v.cursor i p).run.run (v.movedTo (v.cursor + 1)) := by
  rw [advance, run_looking]
  simp only [h]
  rfl

end Advance

/-- A continuation looks at the fixed parts of the invocation only. -/
theorem continuation_movedTo (env : Env σ) (v : Invocation) (i : Nat) (rest : List Link) :
    ∀ place, continuation env (v.movedTo i) place rest = continuation env v place rest := by
  induction rest with
  | nil => intro place; rfl
  | cons link rest ih =>
    intro place
    cases link with
    | fixed i => simp only [continuation, ih]; rfl
    | dynamic i p => simp only [continuation, ih]; rfl

/-- With room for the rest of the chain and the target, and perhaps more, looking for the
next link and running it is the continuation, but for where the cursor ends up. The room
is spent as the rest gets shorter, so that it is never used up. -/
theorem advance_arrives (env : Env σ) (spare : Nat) (rest : List Link) :
    ∀ v : Invocation, v.chain.drop v.cursor = rest →
      Arrives v (advance env (spare + (rest.length + 1)))
        (continuation env v v.cursor rest) := by
  induction rest with
  | nil =>
    intro v hrest
    -- behind the last link the cursor stays, and the target is reached
    have hnone : v.chain[v.cursor]? = none :=
      List.getElem?_eq_none (List.drop_eq_nil_iff.mp hrest)
    refine Arrives.of_moved (atEnd env) v.cursor
      (fun l => advance_behind env spare (v := v.carrying l) hnone) ?_
    exact Arrives.of_mirrors (Mirrors.looking fun l => Mirrors.ofAct _)
  | cons link rest ih =>
    intro v hrest
    have hlink : v.chain[v.cursor]? = some link := by
      rw [← List.head?_drop, hrest]
      rfl
    have hdrop : v.chain.drop (v.cursor + 1) = rest := by
      rw [← List.tail_drop, hrest]
      rfl
    -- behind the link, on the same invocation moved on by one
    have hbehind := ih (v.movedTo (v.cursor + 1)) hdrop
    rw [continuation_movedTo] at hbehind
    have hkept := hbehind.keepingCursor
    cases link with
    | fixed i =>
      refine Arrives.of_moved _ (v.cursor + 1)
        (fun l => advance_fixed env _ (v := v.carrying l) hlink) ?_
      exact Arrives.of_mirrors (intercept_mirrors env hkept i.action)
    | dynamic i p =>
      refine Arrives.of_moved (atDynamic env (spare + (rest.length + 1)) v.cursor i p)
        (v.cursor + 1) (fun l => advance_dynamic env _ (v := v.carrying l) hlink) ?_
      refine Arrives.looking fun l => ?_
      refine Arrives.andThen (Mirrors.ofRun _) fun matched => ?_
      -- a link that is passed over has no turn, so nothing puts the cursor back there
      refine Arrives.branch _ (Arrives.of_mirrors (intercept_mirrors env hkept i.action)) ?_
      exact Arrives.andThen (Mirrors.ofRun _) fun _ => hbehind

/-- Looking for links with any room beyond what proceeding gives is the continuation at
the place of the invocation, and leaves it there. -/
theorem advance_eq_continuation (env : Env σ) (v : Invocation)
    (hv : v.cursor ≤ v.chain.length) (spare : Nat) :
    (advance env (spare + (v.chain.length + 1 - v.cursor))).keepingCursor.run.run v
      = (fun (o, l) => (o, v.carrying l)) <$>
        (continuation env v v.cursor (v.chain.drop v.cursor)).run.run v.luggage := by
  have hroom : v.chain.length + 1 - v.cursor = (v.chain.drop v.cursor).length + 1 := by
    rw [List.length_drop]
    omega
  have h := (advance_arrives env spare _ v rfl).keepingCursor v.luggage
  rw [← hroom] at h
  exact h

/-- Proceeding from a place of the chain is the continuation at that place. -/
theorem run_eq_continuation (env : Env σ) (v : Invocation)
    (hv : v.cursor ≤ v.chain.length) :
    v.run env = (fun (o, l) => (o, v.carrying l)) <$>
      (continuation env v v.cursor (v.chain.drop v.cursor)).run.run v.luggage := by
  have h := advance_eq_continuation env v hv 0
  rw [Nat.zero_add] at h
  exact h

end Aspects
