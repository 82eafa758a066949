import Aspects.Engine
import Aspects.Proofs.Advising.Fold

/-!
# What is called in the course of a call

The fold of a chain of advice says what a call comes to in any monad. Here its callees
write down that they were called, and what came of it: each is run as before and adds a
`CallEvent` to a list (`Callees.logged`), so the list is the sequence of callbacks and
target as the fold calls them. Without the list the fold is the one there was
(`logged_erases`).

Of all that may be called two sorts of event decide whether the target is reached: a
before callback that fails, and the target itself. Every call has exactly one of them
(`through_charges`). With that, `advised_call_folds` is the result.
-/

namespace Aspects

variable {σ : Type} {α β : Type} {μ : Type → Type}

/-- Something that was called in the course of a call, with what came of it. -/
inductive CallEvent where
  | before (body : Routine) (outcome : Outcome Unit)
  | afterReturning (body : Routine) (value : Value) (outcome : Outcome Unit)
  | afterThrowing (watcher : Watcher) (failure : Failure) (outcome : Outcome Unit)
  | after (body : Routine) (outcome : Outcome Unit)
  | target (outcome : Outcome Value)

namespace CallEvent

/-- The target was reached. -/
def isTarget : CallEvent → Bool
  | target _ => true
  | _ => false

/-- A callback before the call failed. -/
def isFailedBefore : CallEvent → Bool
  | before _ (.error _) => true
  | _ => false

/-- It is settled whether the target is reached. -/
def decides (e : CallEvent) : Bool :=
  e.isTarget || e.isFailedBefore

theorem countP_decides (es : List CallEvent) :
    es.countP decides = es.countP isTarget + es.countP isFailedBefore := by
  induction es with
  | nil => rfl
  | cons e es ih =>
    -- no event is of both sorts
    have he : e.isTarget = false ∨ e.isFailedBefore = false := by
      cases e with
      | target outcome => exact .inr rfl
      | _ => exact .inl rfl
    simp only [List.countP_cons, ih, decides]
    rcases he with h | h
    · simp [h]
      omega
    · simp [h]
      omega

/-- With one deciding event the target was reached at most once, and once exactly if no
callback before it failed. -/
theorem of_countP_decides {es : List CallEvent} (h : es.countP decides = 1) :
    es.countP isTarget ≤ 1 ∧
      (es.countP isTarget = 1 ↔ ∀ e ∈ es, e.isFailedBefore = false) := by
  rw [countP_decides] at h
  refine ⟨by omega, ?_⟩
  have hnone : (∀ e ∈ es, e.isFailedBefore = false) ↔ es.countP isFailedBefore = 0 := by
    simp [List.countP_eq_zero]
  rw [hnone]
  omega

end CallEvent

/-- A run that has a list of events at hand. -/
abbrev Logged (μ : Type → Type) := StateT (List CallEvent) μ

namespace Logged

variable [Monad μ]

/-- The run, with an event for its answer added to the list. -/
def noting (event : α → CallEvent) (r : μ α) : Logged μ α := do
  let a ← StateT.lift r
  modify (· ++ [event a])
  return a

end Logged

/-- The same callees, which write down what was called. Asking a pointcut is no event. -/
def Callees.logged [Monad μ] (c : Callees μ) : Callees (Logged μ) where
  before body := .noting (.before body) (c.before body)
  afterReturning body value := .noting (.afterReturning body value) (c.afterReturning body value)
  afterThrowing watcher e := .noting (.afterThrowing watcher e) (c.afterThrowing watcher e)
  after body := .noting (.after body) (c.after body)
  target := .noting .target c.target
  accepts p := StateT.lift (c.accepts p)
  passOver place := StateT.lift (c.passOver place)

/-! ## Without the list -/

/-- Whatever the list is, without it the first is the second. -/
def Logged.Erases [Monad μ] (g : Logged μ α) (r : μ α) : Prop :=
  ∀ log, Prod.fst <$> g.run log = r

namespace Logged.Erases

variable [Monad μ] [LawfulMonad μ]

theorem pure (a : α) : Erases (Pure.pure a : Logged μ α) (Pure.pure a) := by
  intro log
  simp

theorem bind {g : Logged μ α} {r : μ α} {k : α → Logged μ β} {s : α → μ β}
    (hg : Erases g r) (hk : ∀ a, Erases (k a) (s a)) : Erases (g >>= k) (r >>= s) := by
  intro log
  rw [StateT.run_bind, map_bind, ← hg log, bind_map_left]
  exact bind_congr fun x => hk x.1 x.2

theorem lift (r : μ α) : Erases (StateT.lift r : Logged μ α) r := by
  intro log
  simp

theorem noting (event : α → CallEvent) (r : μ α) : Erases (Logged.noting event r) r := by
  intro log
  simp [Logged.noting]

omit [LawfulMonad μ] in
theorem branch (c : Prop) [Decidable c] {g g' : Logged μ α} {r r' : μ α}
    (h : Erases g r) (h' : Erases g' r') :
    Erases (if c then g else g') (if c then r else r') := by
  split
  · exact h
  · exact h'

theorem provided {g : Logged μ (Outcome Unit)} {r : μ (Outcome Unit)}
    {rest : Logged μ (Outcome Value)} {s : μ (Outcome Value)} (hg : Erases g r)
    (h : Erases rest s) : Erases (Callees.provided g rest) (Callees.provided r s) := by
  refine bind hg fun o => ?_
  cases o with
  | ok _ => exact h
  | error e => exact pure _

end Logged.Erases

section Erasing

variable [Monad μ] [LawfulMonad μ] (c : Callees μ) (m : Method)

theorem transform_erases {rest : Logged μ (Outcome Value)} {r : μ (Outcome Value)}
    (h : rest.Erases r) (a : Interception) :
    Logged.Erases (c.logged.transform m a rest) (c.transform m a r) := by
  cases a with
  | before body => exact .provided (.noting _ _) h
  | afterReturning body filter =>
    refine .bind h fun outcome => ?_
    cases outcome with
    | ok value => exact .branch _ (.provided (.noting _ _) (.pure _)) (.pure _)
    | error e => exact .pure _
  | afterThrowing watcher filter =>
    refine .bind h fun outcome => ?_
    cases outcome with
    | ok value => exact .pure _
    | error e => exact .branch _ (.provided (.noting _ _) (.pure _)) (.pure _)
  | after body => exact .bind h fun outcome => .provided (.noting _ _) (.pure _)
  | _ => exact h

/-- The list is all that writing events down adds to a call. -/
theorem logged_erases (links : List Link) :
    ∀ place, Logged.Erases (c.logged.through m place links) (c.through m place links) := by
  induction links with
  | nil => exact fun place => .noting _ _
  | cons link links ih =>
    intro place
    rw [Callees.through_cons, Callees.through_cons]
    cases link with
    | fixed i => exact transform_erases c m (ih _) _
    | dynamic i p =>
      refine .bind (.lift _) fun matched => ?_
      refine .branch _ (transform_erases c m (ih _) _) ?_
      exact .bind (.lift _) fun _ => ih _

end Erasing

/-! ## Deciding events -/

/-- The run adds to the list, and of deciding events as many as its answer says. -/
def Logged.Charges (g : Logged (Run σ) α) (n : α → Nat) : Prop :=
  ∀ log w a log' w', g.run log w = some ((a, log'), w') →
    ∃ es, log' = log ++ es ∧ es.countP CallEvent.decides = n a

namespace Logged.Charges

theorem pure (a : α) : Charges (Pure.pure a : Logged (Run σ) α) fun _ => 0 := by
  intro log w b log' w' h
  cases h
  exact ⟨[], by simp, rfl⟩

theorem bind {g : Logged (Run σ) α} {k : α → Logged (Run σ) β} {n : α → Nat} {m : α → Nat}
    {total : Nat} (hg : Charges g n) (hk : ∀ a, Charges (k a) fun _ => m a)
    (htotal : ∀ a, n a + m a = total) : Charges (g >>= k) fun _ => total := by
  intro log w b log₂ w₂ h
  obtain ⟨⟨⟨a, log₁⟩, w₁⟩, hr, hrest⟩ := Option.bind_eq_some_iff.mp h
  obtain ⟨es, rfl, hes⟩ := hg log w a log₁ w₁ hr
  obtain ⟨es', rfl, hes'⟩ := hk a _ w₁ b log₂ w₂ hrest
  refine ⟨es ++ es', by simp, ?_⟩
  rw [List.countP_append, hes, hes', htotal]

theorem lift (r : Run σ α) : Charges (StateT.lift r : Logged (Run σ) α) fun _ => 0 := by
  intro log w a log' w' h
  obtain ⟨⟨b, w₁⟩, hr, hk⟩ := Option.bind_eq_some_iff.mp h
  cases hk
  exact ⟨[], by simp, rfl⟩

theorem noting (event : α → CallEvent) (r : Run σ α) :
    Charges (Logged.noting event r) fun a => [event a].countP CallEvent.decides := by
  intro log w a log' w' h
  obtain ⟨⟨⟨b, log₁⟩, w₁⟩, hr, hk⟩ := Option.bind_eq_some_iff.mp h
  obtain ⟨⟨b', w₂⟩, hr', hk'⟩ := Option.bind_eq_some_iff.mp hr
  cases hk'
  cases hk
  exact ⟨[event a], rfl, rfl⟩

theorem branch (c : Prop) [Decidable c] {g g' : Logged (Run σ) α} {n : α → Nat}
    (h : Charges g n) (h' : Charges g' n) : Charges (if c then g else g') n := by
  split
  · exact h
  · exact h'

/-- A callback on the way out decides nothing. -/
theorem provided {event : Outcome Unit → CallEvent} (r : Run σ (Outcome Unit))
    (o : Outcome Value) (h : ∀ u, (event u).decides = false) :
    Charges (Callees.provided (.noting event r) (Pure.pure o)) fun _ => 0 := by
  refine bind (m := fun _ => 0) (noting event r) (fun u => ?_) fun u => by simp [h]
  cases u with
  | ok _ => exact pure _
  | error e => exact pure _

end Logged.Charges

section Charging

variable (c : Callees (Run σ)) (m : Method)

/-- Advice leaves it at one deciding event. If a callback before the call fails then that
is the one, and the rest is not run. -/
theorem transform_charges {rest : Logged (Run σ) (Outcome Value)}
    (h : rest.Charges fun _ => 1) (a : Interception) :
    Logged.Charges (c.logged.transform m a rest) fun _ => 1 := by
  cases a with
  | before body =>
    refine .bind (m := fun u => u.isOk.toNat) (.noting _ _) (fun u => ?_) fun u => ?_
    · cases u with
      | ok _ => exact h
      | error e => exact .pure _
    · cases u with
      | ok _ => rfl
      | error e => rfl
  | afterReturning body filter =>
    refine .bind (m := fun _ => 0) h (fun outcome => ?_) fun _ => rfl
    cases outcome with
    | ok value => exact .branch _ (.provided _ _ fun _ => rfl) (.pure _)
    | error e => exact .pure _
  | afterThrowing watcher filter =>
    refine .bind (m := fun _ => 0) h (fun outcome => ?_) fun _ => rfl
    cases outcome with
    | ok value => exact .pure _
    | error e => exact .branch _ (.provided _ _ fun _ => rfl) (.pure _)
  | after body =>
    exact .bind (m := fun _ => 0) h (fun outcome => .provided _ _ fun _ => rfl) fun _ => rfl
  | _ => exact h

/-- In the course of a call there is exactly one deciding event. -/
theorem through_charges (links : List Link) :
    ∀ place, Logged.Charges (c.logged.through m place links) fun _ => 1 := by
  induction links with
  | nil => exact fun place => .noting _ _
  | cons link links ih =>
    intro place
    rw [Callees.through_cons]
    cases link with
    | fixed i => exact transform_charges c m (ih _) _
    | dynamic i p =>
      refine .bind (m := fun _ => 1) (.lift _) (fun matched => ?_) fun _ => rfl
      refine .branch _ (transform_charges c m (ih _) _) ?_
      exact .bind (m := fun _ => 1) (.lift _) (fun _ => ih _) fun _ => rfl

end Charging

/-- A call through a chain of advice comes to the right fold of the transformers over the
target: the same callbacks and target in the same order, the same outcome, and the
invocation is left as it was. With the events of the call written down it is the same
call, and of these at most one is the target's, and one exactly if no callback before the
call failed. -/
theorem advised_call_folds (env : Env σ) (v : Invocation) (hv : v.cursor ≤ v.chain.length)
    (hlinks : ∀ link ∈ v.chain.drop v.cursor, link.interceptor.action.Advises) :
    v.run env = (fun o => (o, v)) <$>
        (v.callees env).through v.method v.cursor (v.chain.drop v.cursor) ∧
      ∀ w o v' w', v.run env w = some ((o, v'), w') → ∃ es,
        ((v.callees env).logged.through v.method v.cursor (v.chain.drop v.cursor)).run [] w
          = some ((o, es), w') ∧
        es.countP CallEvent.isTarget ≤ 1 ∧
        (es.countP CallEvent.isTarget = 1 ↔ ∀ e ∈ es, e.isFailedBefore = false) := by
  have hfold := run_eq_through env hv hlinks
  refine ⟨hfold, fun w o v' w' h => ?_⟩
  -- the run that writes events down has the same outcome and the same world
  rw [hfold, ← logged_erases (v.callees env) v.method _ v.cursor [], Functor.map_map] at h
  obtain ⟨⟨⟨o₁, es⟩, w₁⟩, hlogged, hk⟩ := Option.bind_eq_some_iff.mp h
  cases hk
  obtain ⟨es', hes, hcount⟩ := through_charges _ _ _ _ _ _ _ _ _ hlogged
  rw [List.nil_append] at hes
  subst hes
  exact ⟨_, hlogged, CallEvent.of_countP_decides hcount⟩

/-- A call to an object that has no such method, with advice before it and after it, and a
watcher of errors in between where the arguments are accepted. -/
def watchedCall : Invocation where
  proxy := ⟨.root, 0, .entity "proxy"⟩
  target := some ⟨.root, 1, .entity "target"⟩
  method := default
  arguments := []
  targetType := some .root
  chain := [.fixed ⟨0, .before ⟨0⟩⟩, .dynamic ⟨1, .afterThrowing (.user ⟨1⟩) none⟩ .all,
    .fixed ⟨2, .after ⟨2⟩⟩]

theorem watchedCall_folds :
    watchedCall.cursor ≤ watchedCall.chain.length ∧
      (∀ link ∈ watchedCall.chain, link.interceptor.action.Advises) ∧
      watchedCall.run (Engine.env (Code.idle : Code Unit) 0) = (fun o => (o, watchedCall)) <$>
        (watchedCall.callees (Engine.env Code.idle 0)).through default 0 watchedCall.chain ∧
      ∀ w o v' w', watchedCall.run (Engine.env (Code.idle : Code Unit) 0) w
        = some ((o, v'), w') → ∃ es,
          ((watchedCall.callees (Engine.env Code.idle 0)).logged.through default 0
            watchedCall.chain).run [] w = some ((o, es), w') ∧
          es.countP CallEvent.isTarget ≤ 1 := by
  have hlinks : ∀ link ∈ watchedCall.chain, link.interceptor.action.Advises := by
    simp [watchedCall, Link.interceptor, Interception.Advises]
  obtain ⟨hfold, hevents⟩ :=
    advised_call_folds (Engine.env (Code.idle : Code Unit) 0) watchedCall (by decide) hlinks
  refine ⟨by decide, hlinks, hfold, fun w o v' w' h => ?_⟩
  obtain ⟨es, hlogged, hmost, _⟩ := hevents w o v' w' h
  exact ⟨es, hlogged, hmost⟩

end Aspects
