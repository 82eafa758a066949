import Aspects.Proofs.Lookup.Passages
import Aspects.Proofs.Observing.Advisors

/-!
# Calls through proxies that only observe

A call to a proxy all of whose advisors observe is the target's: the target is acquired,
reached once between the way in and the way out, with the arguments of the call, and what
it brings is settled and answered (`observedCall`). Nothing else can make the call fail
than the source, the target, and a value that does not settle.

Whether the advisors observe matters when the chain is looked up, which is once the
target was acquired; with a source that runs user code this may have changed by then.
-/

namespace Aspects

variable {σ : Type} {α β : Type} {code : Code σ} {start : World σ}

open Aspects.Configuration

/-- A call with the target in hand: in, to the target, and out again. -/
def observedOn (env : Env σ) (proxy : Object) (id : ConfigId) (s : SourceId)
    (target : Option Object) (m : Method) (args : List Value) : Act σ Value := do
  let w ← Act.world
  let targetType := match target with
    | some o => some o.type
    | none => (w.source s).type?
  let links ← Act.ofRun (linksFor env id m targetType)
  let outcome ← Act.ofRun
    (passThrough env ⟨m, args, target, proxy⟩ targetType 0 links)
  Act.ofExcept (Proxy.settle proxy target m (← MonadExcept.ofExcept outcome))

/-- A call from acquiring the target to giving it back. -/
def observedThrough (env : Env σ) (proxy : Object) (id : ConfigId) (m : Method)
    (args : List Value) : Act σ Value := do
  let s := (← read id).source
  let target ← Source.acquire env s
  Proxy.returning env s target (observedOn env proxy id s target m args)

/-- A call to a proxy that observes. -/
def observedCall (env : Env σ) (proxy : Object) (id : ConfigId) (m : Method)
    (args : List Value) : Act σ Value := do
  if (← read id).flags.exposeProxy then
    Proxy.exposing proxy (observedThrough env proxy id m args)
  else observedThrough env proxy id m args

/-- What becomes of a call in a chain that observes. -/
def observing (env : Env σ) : Passage σ := fun jp t links => passThrough env jp t 0 links

theorem observedCall_eq (env : Env σ) (proxy : Object) (id : ConfigId) (m : Method)
    (args : List Value) :
    observedCall env proxy id m args = (observing env).call env proxy id m args := rfl

/-- When a call to the proxy has acquired its target, all its advisors observe. -/
def ObservedOnceAcquired (env : Env σ) (w : World σ) (proxy : Object) (id : ConfigId) :
    Prop :=
  ∀ target w₁, (Source.acquire env (w.config id).source).run (w.entering proxy id)
    = some (.ok target, w₁) → Observed env w₁ id

/-- An invocation at the beginning of a chain answers what the chain brings. -/
theorem run_of_brings (env : Env σ) {v : Invocation} (hcursor : v.cursor = 0)
    {r : Run σ (Outcome Value)} (hbrings : (continuation env v 0 v.chain).Brings v.luggage r) :
    (do return (← v.run env).1 : Run σ (Outcome Value)) = r := by
  unfold Leg.Brings at hbrings
  rw [run_eq_continuation env v (by omega), hcursor, List.drop_zero, hbrings]
  rw [bind_map_left, bind_map_left]
  exact bind_pure _

theorem run_observing (env : Env σ) {v : Invocation} (hcursor : v.cursor = 0)
    (hchain : Link.AllObserve env v.chain) :
    (do return (← v.run env).1 : Run σ (Outcome Value))
      = passThrough env v.joinPoint v.targetType 0 v.chain :=
  run_of_brings env hcursor (continuation_observing hchain 0)

/-! ## The whole call -/

section Calls

variable {w : World σ} (hstart : Sound code start start) (hr : Reaches code start w)
  {room : Nat} {id : ConfigId}
include hstart hr

/-- Whatever chain is looked up then, invocations pass through it. -/
theorem Observed.describes (h : Observed (Engine.env code room) w id) :
    (observing (Engine.env code room)).Describes (Engine.env code room) id w := by
  intro m t o w' hfound
  obtain ⟨chain, rfl, hall⟩ := h.chainFor hr hstart.settled (hstart.reaches hr) hfound
  refine ⟨chain, rfl, fun v hcursor hchain htype => ?_⟩
  rw [← hchain] at hall
  have hrun := run_observing (Engine.env code room) hcursor hall
  rw [hchain, htype] at hrun
  exact hrun

theorem call_observed (proxy : Object)
    (h : ObservedOnceAcquired (Engine.env code room) w proxy id)
    (m : Method) (args : List Value) :
    (Proxy.call (Engine.env code room) proxy id m args).run w
      = (observedCall (Engine.env code room) proxy id m args).run w := by
  rw [observedCall_eq]
  refine Passage.call_eq proxy (fun target w₁ hacquired => ?_) m args
  refine Passage.describes_acquired hr (fun w₁ s o h₁ => ?_)
    (fun w₁ hr₁ h₁ => h₁.describes hstart hr₁) h hacquired
  exact h₁.of_sameMakings ⟨rfl, rfl, fun _ _ => rfl⟩

end Calls

/-- Throughout every run: a call to a proxy whose advisors observe, whenever its target
was acquired, is the target's. The chain makes no difference to what comes back, and
neither does its being empty. -/
theorem observed_call_transparent (code : Code σ) (room : Nat) (p : Action σ α) (s : σ) :
    Engine.Throughout code room p { user := s } fun w => ∀ room proxy id m args,
      ObservedOnceAcquired (Engine.env code room) w proxy id →
      (Proxy.call (Engine.env code room) proxy id m args).run w
        = (observedCall (Engine.env code room) proxy id m args).run w := by
  refine Engine.throughout (fun w hr room proxy id m args h => ?_) room p
  exact call_observed (.initial s) hr proxy h m args

/-- Advice that shows every call. -/
def tracer : Advisor where
  id := 0
  pointcut := .all
  advice := .interceptor ⟨0, .trace true⟩

/-- A configuration with that advice alone, for a target that is always the same. -/
def tracedConfig : ExceptT Failure (Action Unit) ConfigId := do
  let s ← ExceptT.lift (.ofCommand (.newSource (.singleton ⟨.root, 0, .entity "target"⟩)))
  let c ← ExceptT.lift (.ofCommand (.newConfig { source := s }))
  ExceptT.mk (.ofCommand (.addAdvisor c none tracer))
  return c

theorem tracedConfig_transparent :
    ∃ id w, Engine.run Code.idle 1 tracedConfig.run { user := () } = some (.ok id, w) ∧
      ∀ room proxy m args,
        (Proxy.call (Engine.env Code.idle room) proxy id m args).run w
          = (observedCall (Engine.env Code.idle room) proxy id m args).run w := by
  refine ⟨_, _, rfl, fun room proxy m args => ?_⟩
  refine (observed_call_transparent Code.idle 1 tracedConfig.run ()).2 _ _ rfl room proxy _ m
    args fun target w₁ hacquired => ?_
  cases hacquired
  refine ⟨fun a ha => ?_, default, rfl, fun a ha adapter hadapter _ => hadapter⟩
  cases List.mem_singleton.mp ha
  exact ⟨_, rfl, trivial⟩

end Aspects
