import Aspects.Proofs.Proceeding.Simulation
import Aspects.Proofs.Steps.Engine

/-!
# What becomes of a call in its chain

Around its chain every call to a proxy is the same: the proxy becomes current perhaps, a
target is acquired, the chain is looked up, what came of it is settled, and the target is
given back. What becomes of the call in the chain is a `Passage`. If all chains that may be
looked up go by one, then so does the call (`Passage.call_eq`). A chain without links is a
chain like any other here, so the call that goes straight to the target is the same call.

Which passage it is matters when the chain is looked up, which is once the target was
acquired; with a source that runs user code this may have changed by then.
-/

namespace Aspects

variable {σ : Type} {α β : Type}

open Aspects.Configuration

/-- What becomes of a call in its chain, by what callbacks see of it, the type of the target
and the links. -/
abbrev Passage (σ : Type) :=
  JoinPoint → Option TypeDesc → List Link → Run σ (Outcome Value)

/-- The links of the chain for a method. Where it is used looking it up does not fail, so
nothing is said of failures here. -/
def linksFor (env : Env σ) (id : ConfigId) (m : Method) (t : Option TypeDesc) :
    Run σ (List Link) := do
  match ← (chainFor env id m t).run with
  | .ok chain => return chain.links
  | .error _ => return []

/-- The world in which a call to the proxy goes on. -/
def World.entering (w : World σ) (proxy : Object) (id : ConfigId) : World σ :=
  if (w.config id).flags.exposeProxy then { w with current := some proxy } else w

theorem Reaches.entering {code : Code σ} {start w : World σ} (hr : Reaches code start w)
    (proxy : Object) (id : ConfigId) : Reaches code start (w.entering proxy id) := by
  unfold World.entering
  split
  · exact hr.exposing proxy
  · exact hr

/-- What comes of acquiring the target of a call comes after the call. -/
theorem Reaches.acquired {code : Code σ} {start w w₁ : World σ} (hr : Reaches code start w)
    {room : Nat} {proxy : Object} {id : ConfigId} {s : SourceId} {o : Outcome Value}
    (h : (Source.acquire (Engine.env code room) s).run (w.entering proxy id) = some (o, w₁)) :
    Leads code (w.entering proxy id) w₁ ∧ Reaches code start w₁ := by
  have hentering := hr.entering proxy id
  have hleads := (Source.acquire_tracks (Engine.env_steps code start room) s _ hentering).leads
    o w₁ h
  exact ⟨hleads, hentering.leads hleads⟩

namespace Passage

variable (go : Passage σ) (env : Env σ) (proxy : Object) (id : ConfigId)

/-- A call with the target in hand. -/
def callOn (s : SourceId) (target : Option Object) (m : Method) (args : List Value) :
    Act σ Value := do
  let w ← Act.world
  let targetType := match target with
    | some o => some o.type
    | none => (w.source s).type?
  let links ← Act.ofRun (linksFor env id m targetType)
  let outcome ← Act.ofRun (go ⟨m, args, target, proxy⟩ targetType links)
  Act.ofExcept (Proxy.settle proxy target m (← MonadExcept.ofExcept outcome))

/-- A call from acquiring the target to giving it back. -/
def callThrough (m : Method) (args : List Value) : Act σ Value := do
  let s := (← read id).source
  let target ← Source.acquire env s
  Proxy.returning env s target (go.callOn env proxy id s target m args)

/-- A call to a proxy. -/
def call (m : Method) (args : List Value) : Act σ Value := do
  if (← read id).flags.exposeProxy then
    Proxy.exposing proxy (go.callThrough env proxy id m args)
  else go.callThrough env proxy id m args

/-- In the world a chain of the configuration is looked up without failing, and invocations
go through it by the passage. -/
def Describes (w : World σ) : Prop :=
  ∀ m t o w', (chainFor env id m t).run w = some (o, w') → ∃ chain, o = .ok chain ∧
    ∀ v : Invocation, v.cursor = 0 → v.chain = chain.links → v.targetType = t →
      (do return (← v.run env).1 : Run σ (Outcome Value)) = go v.joinPoint t chain.links

end Passage

/-- Looking at an outcome and then passing it on is nothing. -/
theorem attempt_ofExcept (a : Act σ α) (k : α → Act σ β) :
    (a.attempt >>= fun outcome => MonadExcept.ofExcept outcome >>= k) = a >>= k := by
  refine ExceptT.ext ?_
  funext w
  show (Act.ofRun a.run >>= _ : Act σ β).run w = (a.run w).bind _
  rw [Act.run_ofRun]
  refine Option.bind_congr fun ⟨outcome, w'⟩ _ => ?_
  cases outcome with
  | ok x => rfl
  | error e => rfl

theorem linksFor_of_found {env : Env σ} {id : ConfigId} {m : Method} {t : Option TypeDesc}
    {w w' : World σ} {chain : Chain}
    (h : (chainFor env id m t).run w = some (.ok chain, w')) :
    linksFor env id m t w = some (chain.links, w') := by
  show ((chainFor env id m t).run w).bind _ = _
  rw [h]
  rfl

theorem linksFor_of_none {env : Env σ} {id : ConfigId} {m : Method} {t : Option TypeDesc}
    {w : World σ} (h : (chainFor env id m t).run w = none) :
    linksFor env id m t w = none := by
  show ((chainFor env id m t).run w).bind _ = _
  rw [h]
  rfl

/-- An invocation of a chain without links goes straight to the target. -/
theorem run_without_links (env : Env σ) {v : Invocation} (hcursor : v.cursor = 0)
    (hchain : v.chain = []) :
    (do return (← v.run env).1 : Run σ (Outcome Value))
      = (reachTarget env v.target v.method v.arguments).run := by
  have hcontinued := run_eq_continuation env v (by omega)
  have hend : continuation env v v.cursor (v.chain.drop v.cursor)
      = (do Leg.ofAct (reachTarget env v.target v.method (← get).arguments)) := by
    rw [hcursor, hchain]
    rfl
  rw [hcontinued, hend]
  funext w
  show ((((reachTarget env v.target v.method v.arguments).run w).bind _).bind _).bind _ = _
  cases (reachTarget env v.target v.method v.arguments).run w with
  | none => rfl
  | some x => rfl

namespace Passage

variable {go : Passage σ} {env : Env σ} {id : ConfigId} {w : World σ}

/-- Once the type of the target is known. -/
theorem lookup_eq (h : go.Describes env id w) (proxy : Object) (target : Option Object)
    (m : Method) (args : List Value) (t : Option TypeDesc) (k : Value → Act σ α) :
    (do
      let chain ← chainFor env id m t
      let value ← match chain.links with
        | [] => reachTarget env target m args
        | links => ExceptT.mk do
          let v : Invocation :=
            { proxy, target, method := m, arguments := args, targetType := t, chain := links }
          return (← v.run env).1
      k value : Act σ α).run w
      = (do
        let links ← Act.ofRun (linksFor env id m t)
        let outcome ← Act.ofRun (go ⟨m, args, target, proxy⟩ t links)
        k (← MonadExcept.ofExcept outcome)).run w := by
  rw [Act.run_bind, Act.run_ofRun]
  cases hfound : (chainFor env id m t).run w with
  | none =>
    rw [linksFor_of_none hfound]
    rfl
  | some x =>
    obtain ⟨o, w'⟩ := x
    obtain ⟨chain, rfl, hgoes⟩ := h m t o w' hfound
    rw [linksFor_of_found hfound]
    simp only [Option.bind_some]
    have hthrough := fun links => attempt_ofExcept
      (ExceptT.mk (go ⟨m, args, target, proxy⟩ t links)) k
    refine Eq.trans ?_ (congrArg (fun a : Act σ α => a.run w') (hthrough chain.links).symm)
    let v : Invocation :=
      { proxy, target, method := m, arguments := args, targetType := t, chain := chain.links }
    have hrun := hgoes v rfl rfl rfl
    -- straight to the target, or through an invocation
    cases hlinks : chain.links with
    | nil =>
      rw [run_without_links env rfl hlinks, hlinks] at hrun
      exact congrArg (fun r => (ExceptT.mk r >>= k : Act σ α).run w') hrun
    | cons link links =>
      simp only [v, hlinks] at hrun
      exact congrArg (fun r => (ExceptT.mk r >>= k : Act σ α).run w') hrun

theorem callOn_eq (h : go.Describes env id w) (proxy : Object) (s : SourceId)
    (target : Option Object) (m : Method) (args : List Value) :
    (Proxy.callOn env proxy id s target m args).run w
      = (go.callOn env proxy id s target m args).run w := by
  unfold Proxy.callOn callOn
  rw [Act.run_world, Act.run_world]
  cases target with
  | none => exact lookup_eq h proxy none m args _ _
  | some o => exact lookup_eq h proxy (some o) m args _ _

/-- The same from acquiring the target to giving it back, which adds nothing but an entry of
the journal before the chain is looked up. -/
theorem callThrough_eq
    (h : ∀ target w₁, (Source.acquire env (w.config id).source).run w = some (.ok target, w₁) →
      go.Describes env id w₁ ∧ ∀ s o, go.Describes env id (w₁.record (.acquired s o)))
    (proxy : Object) (m : Method) (args : List Value) :
    (Proxy.callThrough env proxy id m args).run w
      = (go.callThrough env proxy id m args).run w := by
  unfold Proxy.callThrough callThrough
  rw [run_reading, run_reading, Act.run_bind, Act.run_bind]
  refine Option.bind_congr fun ⟨outcome, w₁⟩ hacquired => ?_
  cases outcome with
  | error e => rfl
  | ok target =>
    -- the chain is looked up in `w₁`, or where the loan was written down after it
    obtain ⟨hdescribes, hlent⟩ := h target w₁ hacquired
    refine Proxy.returning_congr ?_ fun o => ?_
    · exact callOn_eq hdescribes proxy _ target m args
    · exact callOn_eq (hlent _ o) proxy _ target m args

theorem call_eq (proxy : Object)
    (h : ∀ target w₁, (Source.acquire env (w.config id).source).run (w.entering proxy id)
      = some (.ok target, w₁) →
      go.Describes env id w₁ ∧ ∀ s o, go.Describes env id (w₁.record (.acquired s o)))
    (m : Method) (args : List Value) :
    (Proxy.call env proxy id m args).run w = (go.call env proxy id m args).run w := by
  unfold World.entering at h
  unfold Proxy.call call
  rw [run_reading, run_reading]
  cases hexpose : (w.config id).flags.exposeProxy with
  | false =>
    simp only [hexpose, Bool.false_eq_true, if_false] at h ⊢
    exact callThrough_eq h proxy m args
  | true =>
    simp only [hexpose, if_true] at h ⊢
    rw [Proxy.run_exposing, Proxy.run_exposing]
    rw [callThrough_eq h proxy m args]

/-- What makes for chains that go by the passage, and holds whenever the target was acquired,
also makes for them once the target is written down as a loan. -/
theorem describes_acquired {code : Code σ} {start : World σ} (hr : Reaches code start w)
    {room : Nat} {proxy : Object} {D : World σ → Prop}
    (hlent : ∀ w s o, D w → D (w.record (.acquired s o)))
    (hdescribes : ∀ w, Reaches code start w → D w → go.Describes (Engine.env code room) id w)
    (h : ∀ target w₁, (Source.acquire (Engine.env code room) (w.config id).source).run
      (w.entering proxy id) = some (.ok target, w₁) → D w₁)
    {target : Option Object} {w₁ : World σ}
    (hacquired : (Source.acquire (Engine.env code room) (w.config id).source).run
      (w.entering proxy id) = some (.ok target, w₁)) :
    go.Describes (Engine.env code room) id w₁ ∧
      ∀ s o, go.Describes (Engine.env code room) id (w₁.record (.acquired s o)) := by
  have hr₁ := (hr.acquired hacquired).2
  have hD := h target w₁ hacquired
  exact ⟨hdescribes w₁ hr₁ hD, fun s o => hdescribes _ (hr₁.lending s o) (hlent w₁ s o hD)⟩

end Passage

end Aspects
