import Aspects.Proofs.Observing.Chains

/-!
# Advice as a fold

Four kinds of advice do not decide themselves when the rest of a call runs: before, after,
after returning and after throwing. What each of them makes of the rest is a transformer
(`Callees.transform`): it runs the rest at most once, and a callback that fails puts its
own error in the place of the outcome. A chain of such advice is the right fold of its
transformers over the target (`Callees.through`), and going through the chain comes to
this fold, effect by effect (`run_eq_through`).

The transformers are stated in any monad, over what is called: the callbacks, the
pointcuts of dynamic links and the target (`Callees`). On a world these are those of an
invocation.
-/

namespace Aspects

variable {σ : Type} {α : Type} {μ : Type → Type}

/-! ## Filters -/

/-- What a call returned is of the type: a value by its own type, and nothing by the
declared result, where the root also takes what a method without a result returns. -/
def Returns (expected : TypeDesc) (m : Method) : Value → Prop
  | some o => expected.accepts o.type = true
  | none => (expected.isRoot = true ∧ m.result.isVoid = true) ∨
      expected.accepts m.result = true

/-- The failure is an error of the type that user code threw. A fault of the engine is of
no type. -/
def Throws (expected : TypeDesc) (e : Failure) : Prop :=
  ∃ t, e = .thrown t ∧ expected.accepts t.type = true

theorem returnAccepted_iff {filter : Option TypeDesc} {m : Method} {v : Value} :
    returnAccepted filter m v = true ↔ ∀ expected ∈ filter, Returns expected m v := by
  cases filter with
  | none => simp [returnAccepted]
  | some expected =>
    cases v with
    | none => simp [returnAccepted, Returns]
    | some o => simp [returnAccepted, Returns]

theorem failureAccepted_iff {filter : Option TypeDesc} {e : Failure} :
    failureAccepted filter e = true ↔ ∀ expected ∈ filter, Throws expected e := by
  cases filter with
  | none => simp [failureAccepted]
  | some expected =>
    cases e with
    | thrown t => simp [failureAccepted, Throws, Failure.throwable?, Throwable.isInstanceOf]
    | fault f => simp [failureAccepted, Throws, Failure.throwable?]

instance (filter : Option TypeDesc) (m : Method) (v : Value) :
    Decidable (∀ expected ∈ filter, Returns expected m v) :=
  decidable_of_iff _ returnAccepted_iff

instance (filter : Option TypeDesc) (e : Failure) :
    Decidable (∀ expected ∈ filter, Throws expected e) :=
  decidable_of_iff _ failureAccepted_iff

/-! ## Transformers -/

/-- What is called while a call goes through its chain, each with what it comes to. -/
structure Callees (μ : Type → Type) where
  before : Routine → μ (Outcome Unit)
  afterReturning : Routine → Value → μ (Outcome Unit)
  afterThrowing : Watcher → Failure → μ (Outcome Unit)
  after : Routine → μ (Outcome Unit)
  target : μ (Outcome Value)
  /-- The pointcut of a dynamic link accepts the arguments. -/
  accepts : Pointcut → μ Bool
  /-- The link at the place is passed over. -/
  passOver : Nat → μ Unit

/-- The interceptor is advice of one of the four kinds. -/
def Interception.Advises : Interception → Prop
  | before _ => True
  | afterReturning .. => True
  | afterThrowing .. => True
  | after _ => True
  | _ => False

namespace Callees

variable [Monad μ] (c : Callees μ) (m : Method)

/-- What the rest comes to, provided that the callback succeeds; its error otherwise. -/
def provided (callback : μ (Outcome Unit)) (rest : μ (Outcome Value)) :
    μ (Outcome Value) := do
  match ← callback with
  | .ok _ => rest
  | .error e => return .error e

/-- What advice makes of the rest of a call to the method. -/
def transform : Interception → μ (Outcome Value) → μ (Outcome Value)
  | .before body, rest => provided (c.before body) rest
  | .afterReturning body filter, rest => do
    let outcome ← rest
    match outcome with
    | .ok value =>
      if ∀ expected ∈ filter, Returns expected m value then
        provided (c.afterReturning body value) (pure outcome)
      else pure outcome
    | .error _ => pure outcome
  | .afterThrowing watcher filter, rest => do
    let outcome ← rest
    match outcome with
    | .ok _ => pure outcome
    | .error e =>
      if ∀ expected ∈ filter, Throws expected e then
        provided (c.afterThrowing watcher e) (pure outcome)
      else pure outcome
  | .after body, rest => do
    let outcome ← rest
    provided (c.after body) (pure outcome)
  | _, rest => rest

/-- What the link at a place of the chain makes of the rest. -/
def pass : Link × Nat → μ (Outcome Value) → μ (Outcome Value)
  | (.fixed i, _), rest => c.transform m i.action rest
  | (.dynamic i p, place), rest => do
    if ← c.accepts p then c.transform m i.action rest
    else
      c.passOver place
      rest

/-- The call from a place of the chain on, the links being those from there on. -/
def through (place : Nat) (links : List Link) : μ (Outcome Value) :=
  (links.zipIdx place).foldr (c.pass m) c.target

@[simp]
theorem through_cons (place : Nat) (link : Link) (links : List Link) :
    c.through m place (link :: links)
      = c.pass m (link, place) (c.through m (place + 1) links) := by
  simp [through]

end Callees

/-- What is called while the invocation goes through its chain. -/
def Invocation.callees (env : Env σ) (v : Invocation) : Callees (Run σ) where
  before body := (env.exec (env.code.before body v.joinPoint)).run
  afterReturning body value := (env.exec (env.code.afterReturning body v.joinPoint value)).run
  afterThrowing watcher e := (watcher.tell env v.joinPoint e).run
  after body := (env.exec (env.code.after body v.joinPoint)).run
  target := (reachTarget env v.target v.method v.arguments).run
  accepts p := p.matchesRuntime env v.method v.targetType v.arguments
  passOver place := emit .trace "Runtime match failed, skipping interceptor"
    [("method", v.method.signature), ("index", toString place)]

/-! ## Going through a chain -/

/-- A callback that may fail, and what comes after it. -/
theorem Leg.Brings.provided {l : Luggage} (a : Act σ Unit) {g : Leg σ Value}
    {r : Run σ (Outcome Value)} (hg : g.Brings l r) :
    (Leg.ofAct a >>= fun _ => g).Brings l (Callees.provided a.run r) :=
  (ofAct a).andThen (fun _ => hg) fun _ => rfl

/-- What advice makes of the leg behind it is its transformer's doing. -/
theorem intercepted_transforms {env : Env σ} {here : Invocation} {behind : Leg σ Value}
    {a : Interception} (ha : a.Advises) {l : Luggage} {r : Run σ (Outcome Value)}
    (h : behind.Brings l r) :
    (Leg.intercepted env here behind a).Brings l
      (((here.carrying l).callees env).transform here.method a r) := by
  cases a with
  | before body => exact .looking (.provided _ h)
  | afterReturning body filter =>
    -- a failure goes past this advice untouched
    refine h.andThen (fun value => .looking ?_) fun _ => rfl
    dsimp only
    by_cases hf : ∀ expected ∈ filter, Returns expected here.method value
    · rw [if_pos hf, if_pos (returnAccepted_iff.mpr hf)]
      exact .provided _ (.succeed value)
    · rw [if_neg hf, if_neg fun hr => hf (returnAccepted_iff.mp hr)]
      exact .succeed value
  | afterThrowing watcher filter =>
    refine h.attempting fun outcome => ?_
    cases outcome with
    | ok value => exact .succeed value
    | error e =>
      dsimp only
      by_cases hf : ∀ expected ∈ filter, Throws expected e
      · rw [if_pos hf, if_pos (failureAccepted_iff.mpr hf)]
        exact .looking (.provided _ (.fail e))
      · rw [if_neg hf, if_neg fun hr => hf (failureAccepted_iff.mp hr)]
        exact .fail e
  | after body =>
    refine h.attempting fun outcome => .looking ?_
    exact .provided _ (.ofOutcome outcome)
  | user body => exact ha.elim
  | around body => exact ha.elim
  | trace withArguments => exact ha.elim
  | slowCalls threshold => exact ha.elim
  | introduce delegate interfaces => exact ha.elim

/-- A chain of advice brings what the fold of its transformers comes to. The arguments
that the callbacks see are those of the luggage, which none of them changes. -/
theorem continuation_through (env : Env σ) {v : Invocation} {l : Luggage}
    {rest : List Link} (hrest : ∀ link ∈ rest, link.interceptor.action.Advises) :
    ∀ place, (continuation env v place rest).Brings l
      (((v.carrying l).callees env).through v.method place rest) := by
  induction rest with
  | nil => exact fun place => .looking (.ofAct _)
  | cons link rest ih =>
    intro place
    have hlink := hrest link List.mem_cons_self
    have hbehind := ih (fun link' h => hrest link' (List.mem_cons_of_mem _ h)) (place + 1)
    rw [Callees.through_cons]
    cases link with
    | fixed i => exact intercepted_transforms hlink hbehind
    | dynamic i p =>
      refine .looking (.ofRun fun matched => ?_)
      cases matched with
      | true => exact intercepted_transforms hlink hbehind
      | false => exact .ofRun fun _ => hbehind

/-- An invocation whose chain is advice from its place on comes to the fold of the
transformers there, and is left as it was. -/
theorem run_eq_through (env : Env σ) {v : Invocation} (hv : v.cursor ≤ v.chain.length)
    (hlinks : ∀ link ∈ v.chain.drop v.cursor, link.interceptor.action.Advises) :
    v.run env = (fun o => (o, v)) <$>
      (v.callees env).through v.method v.cursor (v.chain.drop v.cursor) := by
  have hbrings := continuation_through env (v := v) (l := v.luggage) hlinks v.cursor
  unfold Leg.Brings at hbrings
  rw [run_eq_continuation env v hv, hbrings, Functor.map_map]
  rfl

end Aspects
