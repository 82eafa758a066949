import Aspects.Proceeding

/-!
# Calls that note where they come

On its way through a chain a call comes to the units and to the target, to some of them more
than once and to others not at all, and nothing of that is to be seen in what it answers.
Here a call goes its way with a list at hand, and every unit and the target are added to the
list when the call comes to them (`Noting.proceed`). It is the same call, with the cursor
moved and put back as in `Aspects.Proceeding`: without the list nothing else is left
(`proceed_erases`).

What is noted is the way through interceptors of user code and advice around the call, which
alone may proceed more than once. Any other interceptor is run as it is, and what is behind it
goes unnoted. Nor is noted what user code sets going by commands of its own, for these are
other calls.
-/

namespace Aspects

variable {σ : Type} {α β : Type}

/-- Where a call comes on its way. -/
inductive Stop where
  | unit (place : Nat)
  | target
  deriving DecidableEq

/-- A run with an invocation in its hands that has a list of stops besides. -/
abbrev Noting (σ : Type) := StateT (List Stop) (StateT Invocation (Run σ))

namespace Noting

def note (s : Stop) : Noting σ Unit :=
  modify (· ++ [s])

/-- The run, with the cursor put back afterwards. -/
def keepingCursor (f : Noting σ α) : Noting σ α := do
  let v ← StateT.lift get
  let a ← f
  StateT.lift (modify fun v' => { v' with cursor := v.cursor })
  return a

/-- The run on a copy of the invocation. What it notes is not forgotten with the copy. -/
def onCopy (args : Option (List Value)) (f : Noting σ α) : Noting σ α := fun stops v => do
  let (r, _) ← (f.run stops).run (v.copy args)
  return (r, v)

section Interceptors

variable (env : Env σ) (plain : Frame σ Value) (onward : Noting σ (Outcome Value))

/-- Continues with other arguments; if they are too many or too few nothing is continued. -/
def proceedWith (args : List Value) : Noting σ (Outcome Value) := do
  let v ← StateT.lift get
  if args.length = v.method.params.length then onward.onCopy (some args)
  else StateT.lift (Aspects.proceedWith plain args).run

/-- Carries out what advice around a call asks for, with notes of what is behind it. -/
def performAround : Either (Command σ) AroundStep β → Noting σ β
  | .inr .proceed => onward
  | .inr (.proceedWith args) => proceedWith plain onward args
  | c => StateT.lift (Aspects.performAround env plain c)

/-- Carries out what an interceptor asks for, with notes of what is behind it. -/
def performInvocation : Either (Command σ) InvocationStep β → Noting σ β
  | .inr .proceed => onward
  | .inr (.proceedOnCopy args) => onward.onCopy args
  | c => StateT.lift (Aspects.performInvocation env plain c)

/-- Runs one interceptor, given how to proceed behind it without notes and with them. -/
def intercept : Interception → Noting σ (Outcome Value)
  | .user body => (env.code.interceptor body).run.run (performInvocation env plain onward)
  | .around body => (env.code.around body).run.run (performAround env plain onward)
  | a => StateT.lift (Aspects.intercept env plain a).run

end Interceptors

/-- Looks for the link to run from the cursor on, notes it, and runs it. -/
def advance (env : Env σ) : Nat → Noting σ (Outcome Value)
  | 0 => StateT.lift (Aspects.advance env 0).run
  | room + 1 => do
    let v ← StateT.lift get
    match v.chain[v.cursor]? with
    | none => do
      note .target
      StateT.lift (Frame.ofAct (reachTarget env v.target v.method v.arguments)).run
    | some link => do
      StateT.lift (set { v with cursor := v.cursor + 1 })
      let run (i : Interceptor) := do
        note (.unit v.cursor)
        intercept env (Aspects.advance env room).keepingCursor (advance env room).keepingCursor
          i.action
      match link with
      | .fixed i => run i
      | .dynamic i p => do
        if ← StateT.lift (StateT.lift
            (p.matchesRuntime env v.method v.targetType v.arguments)) then run i
        else
          StateT.lift (StateT.lift (emit .trace "Runtime match failed, skipping interceptor"
            [("method", v.method.signature), ("index", toString v.cursor)]))
          advance env room

/-- Continues an invocation from where it is. -/
def proceed (env : Env σ) : Noting σ (Outcome Value) := do
  let v ← StateT.lift get
  (advance env (v.chain.length + 1 - v.cursor)).keepingCursor

/-! ## Without the notes -/

/-- Whatever the list is, without it the first is the second. -/
def Erases (g : Noting σ α) (r : StateT Invocation (Run σ) α) : Prop :=
  ∀ stops, Prod.fst <$> g.run stops = r

namespace Erases

theorem pure (a : α) : Erases (σ := σ) (Pure.pure a) (Pure.pure a) := by
  intro stops
  simp

theorem bind {g : Noting σ α} {r : StateT Invocation (Run σ) α} {k : α → Noting σ β}
    {s : α → StateT Invocation (Run σ) β} (hg : Erases g r) (hk : ∀ a, Erases (k a) (s a)) :
    Erases (g >>= k) (r >>= s) := by
  intro stops
  rw [StateT.run_bind, map_bind, ← hg stops, bind_map_left]
  exact bind_congr fun x => hk x.1 x.2

theorem lift (r : StateT Invocation (Run σ) α) : Erases (StateT.lift r) r := by
  intro stops
  simp

theorem note (s : Stop) {g : Noting σ α} {r : StateT Invocation (Run σ) α} (h : Erases g r) :
    Erases (do Noting.note s; g) r :=
  fun stops => h (stops ++ [s])

/-- Looking at the invocation. -/
theorem looking {k : Invocation → Noting σ (Outcome α)} {s : Invocation → Frame σ α}
    (h : ∀ v, Erases (k v) (s v).run) :
    Erases (do let v ← StateT.lift get; k v) (do let v ← get; s v : Frame σ α).run :=
  fun stops => funext fun v => congrFun (h v stops) v

/-- A run whose answer is gone on with. -/
theorem answered {f : StateT Invocation (Run σ) α} {k : α → Noting σ (Outcome β)}
    {s : α → Frame σ β} (h : ∀ a, Erases (k a) (s a).run) :
    Erases (StateT.lift f >>= k) (ExceptT.lift f >>= s).run := by
  have hlift : (ExceptT.lift f >>= s).run = f >>= fun a => (s a).run := by simp
  rw [hlift]
  exact bind (lift f) h

theorem program {F : Type → Type} {f : {β : Type} → F β → Noting σ β}
    {g : {β : Type} → F β → StateT Invocation (Run σ) β}
    (h : ∀ {β : Type} (c : F β), Erases (f c) (g c)) (p : Program F α) :
    Erases (p.run f) (p.run g) := by
  induction p with
  | done a => exact pure a
  | issue c k ih => exact bind (h c) ih

theorem keepingCursor {f : Noting σ (Outcome α)} {g : Frame σ α} (h : Erases f g.run) :
    Erases f.keepingCursor g.keepingCursor.run :=
  bind (lift get) fun _ => bind h fun outcome => bind (lift _) fun _ => pure outcome

theorem onCopy {f : Noting σ (Outcome α)} {g : Frame σ α} (h : Erases f g.run)
    (args : Option (List Value)) : Erases (f.onCopy args) (Frame.onCopy args g).run := by
  intro stops
  funext v
  have hcopy : g.run (v.copy args)
      = (fun r => (r.1.1, r.2)) <$> (f.run stops).run (v.copy args) := by
    rw [← h stops]
    rfl
  show _ = g.run (v.copy args) >>= fun r => Pure.pure (r.1, v)
  rw [hcopy, bind_map_left]
  show (fun r => (r.1.1, r.2)) <$>
    ((f.run stops).run (v.copy args) >>= fun r => Pure.pure (r.1, v)) = _
  rw [map_bind]
  simp

end Erases

section Interceptors

variable (env : Env σ) {plain : Frame σ Value} {onward : Noting σ (Outcome Value)}

theorem proceedWith_erases (h : Erases onward plain.run) (args : List Value) :
    Erases (proceedWith plain onward args) (Aspects.proceedWith plain args).run := by
  intro stops
  funext v
  show (fun r => (r.1.1, r.2)) <$> (proceedWith plain onward args).run stops v = _
  by_cases hargs : args.length = v.method.params.length
  · have hnoted : (proceedWith plain onward args).run stops v
        = (onward.onCopy (some args)).run stops v := by
      show (if args.length = v.method.params.length then onward.onCopy (some args)
        else StateT.lift (Aspects.proceedWith plain args).run : Noting σ _).run stops v = _
      rw [if_pos hargs]
    have hplain : (Aspects.proceedWith plain args).run v
        = (Frame.onCopy (some args) plain).run v := by
      show (if args.length != v.method.params.length then throw _
        else Frame.onCopy (some args) plain : Frame σ Value).run v = _
      rw [if_neg (by simpa using hargs)]
    rw [hnoted, hplain]
    exact congrFun (h.onCopy (some args) stops) v
  · have hnoted : (proceedWith plain onward args).run stops v
        = (StateT.lift (Aspects.proceedWith plain args).run : Noting σ _).run stops v := by
      show (if args.length = v.method.params.length then onward.onCopy (some args)
        else StateT.lift (Aspects.proceedWith plain args).run : Noting σ _).run stops v = _
      rw [if_neg hargs]
    rw [hnoted]
    exact congrFun (Erases.lift (Aspects.proceedWith plain args).run stops) v

theorem performAround_erases (h : Erases onward plain.run)
    (c : Either (Command σ) AroundStep β) :
    Erases (performAround env plain onward c) (Aspects.performAround env plain c) := by
  match c with
  | .inl c => exact .lift _
  | .inr .invocation => exact .lift _
  | .inr .proceed => exact h
  | .inr (.proceedWith args) => exact proceedWith_erases h args

theorem performInvocation_erases (h : Erases onward plain.run)
    (c : Either (Command σ) InvocationStep β) :
    Erases (performInvocation env plain onward c) (Aspects.performInvocation env plain c) := by
  match c with
  | .inl c => exact .lift _
  | .inr .invocation => exact .lift _
  | .inr .proceed => exact h
  | .inr (.proceedOnCopy args) => exact h.onCopy args
  | .inr (.setArguments args) => exact .lift _
  | .inr (.setAttribute key o) => exact .lift _
  | .inr (.removeAttribute key) => exact .lift _

theorem intercept_erases (h : Erases onward plain.run) (a : Interception) :
    Erases (intercept env plain onward a) (Aspects.intercept env plain a).run := by
  cases a with
  | user body => exact .program (performInvocation_erases env h) _
  | around body => exact .program (performAround_erases env h) _
  | _ => exact .lift _

end Interceptors

/-- Looking for the next link is not changed by notes of what was found. -/
theorem advance_erases (env : Env σ) (room : Nat) :
    Erases (advance env room) (Aspects.advance env room).run := by
  induction room with
  | zero => exact .lift _
  | succ room ih =>
    have hrun (v : Invocation) (i : Interceptor) :=
      (intercept_erases env ih.keepingCursor i.action).note (.unit v.cursor)
    refine .looking fun v => ?_
    cases v.chain[v.cursor]? with
    | none => exact .note .target (.lift _)
    | some link =>
      refine .answered fun _ => ?_
      cases link with
      | fixed i => exact hrun v i
      | dynamic i p =>
        refine .answered fun matched => ?_
        cases matched with
        | true => exact hrun v i
        | false => exact .answered fun _ => ih

theorem proceed_erases (env : Env σ) : Erases (proceed env) (Aspects.proceed env).run :=
  .bind (.lift get) fun _ => (advance_erases env _).keepingCursor

end Noting

end Aspects
