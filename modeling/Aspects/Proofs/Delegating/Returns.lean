import Aspects.Proofs.Delegating.Calls
import Aspects.Proofs.Lending.Calls

/-!
# What is answered for an object that returns itself

Whoever returns itself from a call through a proxy must not be answered, for with it the
caller would go past the proxy from then on. There are two places where the proxy is put
there instead. When a call is over, the target is exchanged for the proxy, but only if the
method may return the proxy (`Proxy.settle`). An introduction exchanges its delegate, and
does not ask. So a method that is declared to return a class, which a delegate extends and
the proxy does not, answers an object that is not of that class (`delegate_exchanged`).
-/

namespace Aspects

variable {σ : Type} {α : Type} {code : Code σ} {start : World σ}

open Aspects.Configuration

namespace Proxy

/-- What is answered for a value, by the target and the delegate that took the call. -/
def exchanged (proxy : Object) (target taker : Option Object) (m : Method) (v : Value) : Value :=
  if v.any (fun o => taker.any (o.same ·)) ||
      v.any (fun o => target.any (o.same ·)) && !m.result.isVoid && m.result.accepts proxy.type
  then some proxy else v

variable {proxy : Object} {target : Option Object} {m : Method} {v raw first : Value}

/-- What is settled is the value, or the proxy in place of the target. -/
theorem exchanged_of_settle (h : settle proxy target m raw = .ok v) :
    v = exchanged proxy target none m raw := by
  cases raw with
  | none =>
    simp only [settle] at h
    split at h
    · cases h
    · cases h
      rfl
  | some o =>
    simp only [settle] at h
    simp only [exchanged, Option.any_some, Option.any_none, Bool.false_or]
    split at h
    · next hmay =>
      cases h
      rw [if_pos hmay]
    · next hmay =>
      cases h
      rw [if_neg hmay]

/-- The proxy that an introduction puts in place of its delegate stays there. -/
theorem exchanged_of_taken {delegate : Object}
    (h : settle proxy target m
      (if first.any (·.same delegate) then some proxy else first) = .ok v) :
    v = exchanged proxy target (some delegate) m first := by
  have hv := exchanged_of_settle h
  cases hself : first.any (·.same delegate) with
  | true =>
    rw [hself, if_pos rfl] at hv
    simp only [exchanged, Option.any_some, hself, Bool.true_or, if_true]
    rw [hv, exchanged]
    split
    · rfl
    · rfl
  | false =>
    rw [hself, if_neg Bool.false_ne_true] at hv
    simp only [exchanged, Option.any_none, Option.any_some, hself, Option.any_false] at hv ⊢
    exact hv

/-- The invocation with which a call goes into its chain. -/
def invocation (proxy : Object) (target : Option Object) (m : Method) (args : List Value)
    (t : Option TypeDesc) (links : List Link) : Invocation :=
  { proxy, target, method := m, arguments := args, targetType := t, chain := links }

/-- What is known of the type of the target that the source gave. -/
def knownType (w : World σ) (s : SourceId) : Option Object → Option TypeDesc
  | some o => some o.type
  | none => (w.source s).type?

/-- A call to the proxy that begins in `w` acquires the target and comes, with its type if
that is known, to `w'`, where it has found the links of its chain. -/
inductive Prepares (env : Env σ) (proxy : Object) (id : ConfigId) (m : Method) (w : World σ) :
    Option Object → Option TypeDesc → List Link → World σ → Prop
  | found {target : Option Object} {chain : Chain} {w₁ w₂ w' : World σ} :
    (Source.acquire env (w.config id).source).run (w.entering proxy id)
      = some (.ok target, w₁) →
    w₂ = w₁ ∨ (∃ s o, w₂ = w₁.record (.acquired s o)) →
    (chainFor env id m (knownType w₂ (w.config id).source target)).run w₂
      = some (.ok chain, w') →
    Prepares env proxy id m w target (knownType w₂ (w.config id).source target) chain.links w'

/-- A call with the target in hand that is answered has come through its chain, with a value
that was settled. -/
theorem of_callOn {env : Env σ} {id : ConfigId} {s : SourceId} {args : List Value}
    {w w' : World σ} (h : (callOn env proxy id s target m args).run w = some (.ok v, w')) :
    ∃ chain w₁ raw w₂,
      (chainFor env id m (knownType w s target)).run w = some (.ok chain, w₁) ∧
      (do return (← (invocation proxy target m args (knownType w s target)
        chain.links).run env).1 : Run σ (Outcome Value)) w₁ = some (.ok raw, w₂) ∧
      settle proxy target m raw = .ok v := by
  have hsettled {raw : Value} {w₂ : World σ}
      (hk : (Act.ofExcept (settle proxy target m raw) : Act σ Value).run w₂ = some (.ok v, w')) :
      settle proxy target m raw = .ok v := by
    cases hvalue : settle proxy target m raw with
    | ok x =>
      rw [hvalue] at hk
      cases hk
      rfl
    | error e =>
      rw [hvalue] at hk
      cases hk
  unfold callOn at h
  rw [Act.run_world] at h
  obtain ⟨chain, w₁, hfound, h⟩ := of_run_bind_ok h
  -- straight to the target, or through the invocation
  cases hlinks : chain.links with
  | nil =>
    rw [hlinks] at h
    obtain ⟨raw, w₂, hthrough, h⟩ := of_run_bind_ok h
    refine ⟨chain, w₁, raw, w₂, hfound, ?_, hsettled h⟩
    rw [run_without_links env rfl hlinks]
    exact hthrough
  | cons link links =>
    rw [hlinks] at h
    obtain ⟨raw, w₂, hthrough, h⟩ := of_run_bind_ok h
    refine ⟨chain, w₁, raw, w₂, hfound, ?_, hsettled h⟩
    rw [hlinks]
    exact hthrough

/-- A call that is answered was prepared, and has come through its chain with a value that was
settled. -/
theorem of_call {room : Nat} {id : ConfigId} {args : List Value} {w w' : World σ}
    (h : (call (Engine.env code room) proxy id m args).run w = some (.ok v, w')) :
    ∃ target t links w₁ raw w₂, Prepares (Engine.env code room) proxy id m w target t links w₁ ∧
      (do return (← (invocation proxy target m args t links).run (Engine.env code room)).1 :
        Run σ (Outcome Value)) w₁ = some (.ok raw, w₂) ∧
      settle proxy target m raw = .ok v := by
  obtain ⟨_, hcourse, _⟩ := (call_course proxy id m args _).mp h
  cases hcourse with
  | kept hacquired _ _ hgone _ =>
    obtain ⟨chain, w₁, raw, w₂, hfound, hthrough, hsettled⟩ := of_callOn hgone
    exact ⟨_, _, _, w₁, raw, w₂, .found hacquired (.inl rfl) hfound, hthrough, hsettled⟩
  | lent hacquired _ _ hgone _ _ _ =>
    obtain ⟨chain, w₁, raw, w₂, hfound, hthrough, hsettled⟩ := of_callOn hgone
    exact ⟨_, _, _, w₁, raw, w₂, .found hacquired (.inr ⟨_, _, rfl⟩) hfound, hthrough,
      hsettled⟩

end Proxy

/-! ## Dispatched calls -/

/-- A call on its way past links that is answered has reached something that returned a
value. -/
theorem of_dispatched {env : Env σ} {jp : JoinPoint} {t : Option TypeDesc} {links : List Link}
    {place : Nat} {w w' : World σ} {raw : Value}
    (h : dispatched env jp t place links w = some (.ok raw, w')) :
    ∃ entered w₁ first w₂,
      inwardPast env jp t (Link.passed jp.method place links) w = some (entered, w₁) ∧
      (reachTarget env ((Link.taker? jp.method links).or jp.target) jp.method jp.args).run w₁
        = some (.ok first, w₂) ∧
      raw = if first.any (fun o => (Link.taker? jp.method links).any (o.same ·)) then some jp.this
        else first := by
  obtain ⟨⟨entered, w₁⟩, hentered, h⟩ := Option.bind_eq_some_iff.mp h
  obtain ⟨⟨outcome, w₂⟩, hanswered, h⟩ := Option.bind_eq_some_iff.mp h
  obtain ⟨⟨_, w₃⟩, _, h⟩ := Option.bind_eq_some_iff.mp h
  cases h
  refine ⟨entered, w₁, ?_⟩
  cases htaker : Link.taker? jp.method links with
  | none =>
    rw [htaker] at hanswered
    exact ⟨raw, w₂, hentered, hanswered, by simp⟩
  | some delegate =>
    rw [htaker] at hanswered
    obtain ⟨first, w₂', hreached, hraw⟩ := of_run_bind_ok hanswered
    cases hraw
    exact ⟨first, _, hentered, hreached, rfl⟩

section Calls

variable {w : World σ} (hstart : Sound code start start) (hr : Reaches code start w)
  {room : Nat} {id : ConfigId}
include hstart hr

/-- In the chain that was found the call is dispatched. -/
theorem Proxy.Prepares.run_invocation {proxy : Object} {m : Method} {target : Option Object}
    {t : Option TypeDesc} {links : List Link} {w₁ : World σ}
    (h : Prepares (Engine.env code room) proxy id m w target t links w₁)
    (hserved : ServedOnceAcquired (Engine.env code room) w proxy id) (args : List Value) :
    (do return (← (invocation proxy target m args t links).run (Engine.env code room)).1 :
        Run σ (Outcome Value))
      = dispatched (Engine.env code room) ⟨m, args, target, proxy⟩ t 0 links := by
  cases h with
  | @found chain w₁ w₂ _ hacquired hlent hfound =>
    have hdescribes : (dispatching (Engine.env code room)).Describes (Engine.env code room) id
        w₂ := by
      obtain ⟨hkept, hloan⟩ := hserved.describes hstart hr hacquired
      rcases hlent with rfl | ⟨s, o, rfl⟩
      · exact hkept
      · exact hloan s o
    obtain ⟨chain', heq, hgoes⟩ := hdescribes m _ _ _ hfound
    cases heq
    exact hgoes _ rfl rfl rfl

end Calls

/-- Throughout every run: whatever its chain does, a call that is answered has come out of it
with a value, and the proxy is answered in place of the target only if the method may return
it. In a chain of links that observe and of introductions that value is the one that the target
returned, or the delegate of the first introduction that takes the call; and an introduction
has the proxy answered in place of its delegate whatever the method may return. -/
theorem self_returns_exchanged (code : Code σ) (room : Nat) (p : Action σ α) (s : σ) :
    Engine.Throughout code room p { user := s } fun w => ∀ room proxy id m args v w',
      (Proxy.call (Engine.env code room) proxy id m args).run w = some (.ok v, w') →
      ∃ target t links w₁,
        Proxy.Prepares (Engine.env code room) proxy id m w target t links w₁ ∧
        (∃ raw w₂, (do return (← (Proxy.invocation proxy target m args t links).run
            (Engine.env code room)).1 : Run σ (Outcome Value)) w₁ = some (.ok raw, w₂) ∧
          v = Proxy.exchanged proxy target none m raw) ∧
        (ServedOnceAcquired (Engine.env code room) w proxy id → ∃ entered w₂ first w₃,
          inwardPast (Engine.env code room) ⟨m, args, target, proxy⟩ t (Link.passed m 0 links) w₁
            = some (entered, w₂) ∧
          (reachTarget (Engine.env code room) ((Link.taker? m links).or target) m args).run w₂
            = some (.ok first, w₃) ∧
          v = Proxy.exchanged proxy target (Link.taker? m links) m first) := by
  refine Engine.throughout (fun w hr room proxy id m args v w' h => ?_) room p
  obtain ⟨target, t, links, w₁, raw, w₂, hprepares, hthrough, hsettled⟩ := Proxy.of_call h
  refine ⟨target, t, links, w₁, hprepares, ⟨raw, w₂, hthrough, ?_⟩, fun hserved => ?_⟩
  · exact Proxy.exchanged_of_settle hsettled
  · rw [hprepares.run_invocation (.initial s) hr hserved args] at hthrough
    obtain ⟨entered, w₂, first, w₃, hentered, hreached, rfl⟩ := of_dispatched hthrough
    refine ⟨entered, w₂, first, w₃, hentered, hreached, ?_⟩
    -- what came out of the chain may be the proxy already, and that is settled too
    cases htaker : Link.taker? m links with
    | none =>
      simp only [htaker, Option.any_none, Option.any_false, Bool.false_eq_true, if_false]
        at hsettled
      exact Proxy.exchanged_of_settle hsettled
    | some delegate =>
      simp only [htaker, Option.any_some] at hsettled
      exact Proxy.exchanged_of_taken hsettled

/-! ## A lock that answers a handle -/

namespace Locks

/-- What a lock answers. -/
def handle : TypeDesc := (TypeDesc.Builder.ofClass "Handle").build

def handing : TypeDesc :=
  ((TypeDesc.Builder.ofInterface "Handing").declare "lock" [] handle).build

def lock : Method := ⟨handing, "lock", [], handle⟩

/-- A lock that is a handle itself. -/
def bolt : Object :=
  ⟨(((TypeDesc.Builder.ofClass "Bolt").extending handle).implementing handing).methodRaw "lock"
    [] handle default |>.build, 1, .entity "bolt"⟩

/-- Every method returns its receiver. -/
def fluent : Code Unit := { Code.idle with method := fun _ o _ => pure (some o) }

/-- The account with that lock on it. -/
def lockedConfig : ExceptT Failure (Action Unit) ConfigId :=
  config [.introduction 1 1 [handing] bolt]

/-- Locks the account through a proxy of it. -/
def lockThrough : ExceptT Failure (Action Unit) Value := do
  let proxy ← ExceptT.mk (.ofCommand (.getProxy (← lockedConfig) .standard))
  ExceptT.mk (.ofCommand (.call (some proxy) lock []))

/-- Of what is answered then, whether it is the proxy, and whether it is a handle. -/
def handed : Option (Bool × Bool) := do
  match (← Engine.run fluent 2 lockThrough.run { user := () }).1 with
  | .ok (some o) => some (o.isProxy, lock.result.accepts o.type)
  | _ => none

end Locks

/-- What holds of all values that are answered holds of one if there is an answer. -/
theorem exists_answer {x : Option (Outcome Value × World σ)} {P : Value → Prop}
    (hok : x.any (·.1.isOk) = true) (hP : ∀ v w', x = some (.ok v, w') → P v) :
    ∃ v w', x = some (.ok v, w') ∧ P v := by
  match x, hok, hP with
  | some (.ok v, w'), _, hP => exact ⟨v, w', rfl, hP v w' rfl⟩

open Locks in
theorem lock_exchanged :
    ∃ id w, Engine.run fluent 1 lockedConfig.run { user := () } = some (.ok id, w) ∧
      ∃ v w', (Proxy.call (Engine.env fluent 1) account id lock []).run w = some (.ok v, w') ∧
        ∃ target t links w₁,
          Proxy.Prepares (Engine.env fluent 1) account id lock w target t links w₁ ∧
          ∃ entered w₂ first w₃,
            inwardPast (Engine.env fluent 1) ⟨lock, [], target, account⟩ t
              (Link.passed lock 0 links) w₁ = some (entered, w₂) ∧
            (reachTarget (Engine.env fluent 1) ((Link.taker? lock links).or target) lock
              []).run w₂ = some (.ok first, w₃) ∧
            v = Proxy.exchanged account target (Link.taker? lock links) lock first := by
  refine ⟨_, _, rfl, exists_answer (by decide +kernel) fun v w' hcalled => ?_⟩
  obtain ⟨target, t, links, w₁, hprepares, _, hserved⟩ :=
    (self_returns_exchanged fluent 1 lockedConfig.run ()).2 _ _ rfl 1 account _ lock [] v w' hcalled
  refine ⟨target, t, links, w₁, hprepares, hserved fun target w₁ hacquired => ?_⟩
  cases hacquired
  refine ⟨fun a ha => ?_, default, rfl, fun a ha adapter hadapter _ => hadapter⟩
  cases List.mem_singleton.mp ha
  exact .inr (Advisor.introduction_introduces 1 1 (List.cons_ne_nil _ _) bolt)

open Locks in
/-- The delegate is a handle, and what is answered in its place is not. -/
theorem delegate_exchanged :
    lock.result.accepts bolt.type = true ∧ handed = some (true, false) := by
  decide +kernel

end Aspects
