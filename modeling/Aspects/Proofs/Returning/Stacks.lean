import Aspects.Proofs.Lookup.Chains
import Aspects.Proofs.Observing.Calls

/-!
# Stacks of proxies

The target of a proxy may be a proxy itself, and the target of that again, down to an
object that is none. A method of that object may return its receiver. Each proxy on the
way out then finds that its own target came back, and puts itself in its place, if the
method declares a result that the proxy may stand for; so the proxy further out finds that
its own target came back, too. The induction over the stack carries just this: what reaching
the target answers is the target itself (`Stacked.upholds`).

All the proxies have chains that watch: they let every call pass, and neither what they do
on the way in and out nor the questions of their pointcuts leave the kind of worlds in
which the proxies are stacked like this.
-/

namespace Aspects

open Aspects.Configuration

variable {σ : Type} {α : Type} {T : Prop} {P : World σ → Prop} {env : Env σ}

/-! ## Chains that watch -/

/-- The interceptor observes, and its callbacks uphold the kind of worlds. -/
structure Interception.Watches (T : Prop) (P : World σ → Prop) (env : Env σ)
    (a : Interception) : Prop where
  observes : a.Observes env
  enters : ∀ jp, Run.Upholds T P (enter env jp a) fun _ => True
  leaves : ∀ jp outcome, Run.Upholds T P (leave env jp outcome a) fun _ => True

/-- Asking the pointcut at a call upholds the kind of worlds. -/
def Pointcut.Watches (T : Prop) (P : World σ → Prop) (env : Env σ) (p : Pointcut) : Prop :=
  ∀ m t args, Run.Upholds T P (p.matchesRuntime env m t args) fun _ => True

/-- All links watch. -/
def Link.AllWatch (T : Prop) (P : World σ → Prop) (env : Env σ) (links : List Link) : Prop :=
  Link.All (Interception.Watches T P env) (Pointcut.Watches T P env) links

/-- Whether a world is of the kind is no matter of messages and of the current proxy. -/
structure Unmoved (P : World σ → Prop) : Prop where
  message : ∀ w e, P w → P (w.record (.event e))
  current : ∀ w proxy, P w → P { w with current := proxy }

section Passing

variable (hP : Unmoved P) (jp : JoinPoint)
include hP

theorem inward_upholds (t : Option TypeDesc) {links : List Link}
    (h : Link.AllWatch T P env links) (place : Nat) :
    Run.Upholds T P (inward env jp t place links) fun entered =>
      ∀ a ∈ entered, a.Watches T P env := by
  -- the place is only mentioned in the message about a link that is skipped
  induction links generalizing place with
  | nil => exact .pure fun a ha => absurd ha List.not_mem_nil
  | cons link links ih =>
    have hlink := h link List.mem_cons_self
    have hrest := ih (fun link' h' => h link' (List.mem_cons_of_mem _ h')) (place + 1)
    have hentered : ∀ a, Interception.Watches T P env a →
        Run.Upholds T P (do
          enter env jp a
          return a :: (← inward env jp t (place + 1) links)) fun entered =>
            ∀ a ∈ entered, a.Watches T P env := by
      intro a ha
      refine (ha.enters jp).bind fun _ _ => hrest.bind fun entered hall => .pure ?_
      intro b hb
      rcases List.mem_cons.mp hb with rfl | hb
      · exact ha
      · exact hall b hb
    cases link with
    | fixed i => exact hentered i.action hlink
    | dynamic i p =>
      refine (hlink.2 _ _ _).bind fun matched _ => .branch _ (hentered i.action hlink.1) ?_
      have hskipped := Chain.emit_upholds (T := T) hP.message .trace
        "Runtime match failed, skipping interceptor"
        [("method", jp.method.signature), ("index", toString place)]
      exact hskipped.bind fun _ _ => hrest

omit hP in
theorem outward_upholds (outcome : Outcome Value) {entered : List Interception}
    (h : ∀ a ∈ entered, a.Watches T P env) :
    Run.Upholds T P (outward env jp outcome entered) fun _ => True := by
  induction entered with
  | nil => exact .pure trivial
  | cons a entered ih =>
    have hrest := ih fun b hb => h b (List.mem_cons_of_mem _ hb)
    exact hrest.bind fun _ _ => (h a List.mem_cons_self).leaves jp outcome

/-- A call through links that watch comes to what reaching the target comes to. -/
theorem passThrough_upholds (t : Option TypeDesc) {links : List Link}
    (h : Link.AllWatch T P env links) {Q : Outcome Value → Prop}
    (htarget : Run.Upholds T P (reachTarget env jp.target jp.method jp.args).run Q)
    (place : Nat) : Run.Upholds T P (passThrough env jp t place links) Q := by
  refine (inward_upholds hP jp t h place).bind fun entered hall => ?_
  refine htarget.bind fun outcome hQ => ?_
  exact (outward_upholds jp outcome hall).bind fun _ _ => .pure hQ

end Passing

/-! ## One proxy -/

/-- The value is the object itself. -/
def Value.IsSelf (o : Object) (v : Value) : Prop :=
  ∃ o', v = some o' ∧ o'.same o = true

theorem Proxy.settle_self {proxy target : Object} {m : Method} {v : Value}
    (hself : Value.IsSelf target v) (hvoid : m.result.isVoid = false)
    (haccepts : m.result.accepts proxy.type = true) :
    Proxy.settle proxy (some target) m v = .ok (some proxy) := by
  obtain ⟨o, rfl, hsame⟩ := hself
  simp [Proxy.settle, hsame, hvoid, haccepts]

/-- The proxy stands in front of the target, which its source always gives, with chains
that watch calls of the method; and the method may return the proxy. -/
structure Fronts (T : Prop) (P : World σ → Prop) (code : Code σ) (r : Nat) (m : Method)
    (target proxy : Object) (id : ConfigId) : Prop where
  config : proxy.proxyConfig? = some id
  source : ∀ w, P w → w.source (w.config id).source = .singleton target
  chains : ∀ room, r ≤ room →
    Act.Upholds T P (chainFor (Engine.env code room) id m (some target.type))
      fun chain => Link.AllWatch T P (Engine.env code room) chain.links
  accepted : m.result.accepts proxy.type = true

section Calls

variable {m : Method} {args : List Value} {target proxy : Object} {id : ConfigId}

/-- What goes on with the value of the target, goes on with the value of a chain that
watches. -/
theorem throughChain_upholds (hP : Unmoved P) {chain : Chain}
    (h : Link.AllWatch T P env chain.links) {Q : Value → Prop} {R : α → Prop}
    {k : Value → Act σ α}
    (htarget : Act.Upholds T P (reachTarget env (some target) m args) Q)
    (hk : ∀ v, Q v → Act.Upholds T P (k v) R) (t : Option TypeDesc) :
    Act.Upholds T P (do
      let value ← match chain.links with
        | [] => reachTarget env (some target) m args
        | links => ExceptT.mk do
          let v : Invocation :=
            { proxy, target := some target, method := m, arguments := args, targetType := t,
              chain := links }
          return (← v.run env).1
      k value) R := by
  cases hlinks : chain.links with
  | nil => exact htarget.andThen hk
  | cons link links =>
    rw [hlinks] at h
    let v : Invocation :=
      { proxy, target := some target, method := m, arguments := args, targetType := t,
        chain := link :: links }
    have hobserve : Link.AllObserve env v.chain :=
      fun link' hlink => (h link' hlink).interceptor.observes
    have hthrough := passThrough_upholds hP v.joinPoint t h htarget 0
    rw [← run_observing env rfl hobserve] at hthrough
    exact Act.Upholds.andThen hthrough hk

/-- With a target that returned itself, the call answers the proxy. -/
theorem callOn_upholds (hP : Unmoved P) (hvoid : m.result.isVoid = false)
    (haccepts : m.result.accepts proxy.type = true)
    (hchains : Act.Upholds T P (chainFor env id m (some target.type))
      fun chain => Link.AllWatch T P env chain.links)
    (htarget : Act.Upholds T P (reachTarget env (some target) m args) (Value.IsSelf target))
    (s : SourceId) :
    Act.Upholds T P (Proxy.callOn env proxy id s (some target) m args) (· = some proxy) := by
  refine .locally fun w hw => ⟨_, ?_, Act.run_world _ w⟩
  refine Act.Upholds.andThen hchains fun chain hchain => ?_
  refine throughChain_upholds hP hchain htarget (fun v hself => ?_) _
  rw [Proxy.settle_self hself hvoid haccepts]
  exact .succeed rfl

/-- From a source that always gives the same target, calling is calling on that target. -/
theorem run_callThrough_singleton {w : World σ}
    (h : w.source (w.config id).source = .singleton target) :
    (Proxy.callThrough env proxy id m args).run w
      = (Proxy.callOn env proxy id (w.config id).source (some target) m args).run w := by
  have hacquire : (Source.acquire env (w.config id).source).run w
      = some (.ok (some target), w) := by
    unfold Source.acquire
    rw [Act.run_world, h]
    rfl
  unfold Proxy.callThrough
  rw [run_reading, Act.run_bind, hacquire]
  refine Proxy.returning_static env _ _ _ w (.inr ?_)
  rw [h]
  rfl

theorem exposing_upholds (hP : Unmoved P) {a : Act σ α} {Q : α → Prop}
    (h : Act.Upholds T P a Q) : Act.Upholds T P (Proxy.exposing proxy a) Q where
  yields w hw o w' ho := by
    rw [Proxy.run_exposing] at ho
    obtain ⟨⟨o₁, w₁⟩, ha, hk⟩ := Option.map_eq_some_iff.mp ho
    cases hk
    obtain ⟨hw₁, hQ⟩ := h.yields _ (hP.current w _ hw) _ w₁ ha
    exact ⟨hP.current w₁ _ hw₁, hQ⟩
  answers hT w hw := by
    obtain ⟨o, w₁, ha⟩ := h.answers hT _ (hP.current w (some proxy) hw)
    rw [Proxy.run_exposing, ha]
    exact ⟨_, _, rfl⟩

variable {code : Code σ} {r room : Nat}

/-- A proxy whose target returns itself answers itself. -/
theorem Fronts.call (hP : Unmoved P) (h : Fronts T P code r m target proxy id)
    (hvoid : m.result.isVoid = false) (hroom : r ≤ room)
    (htarget : Act.Upholds T P (reachTarget (Engine.env code room) (some target) m args)
      (Value.IsSelf target)) :
    Act.Upholds T P (Proxy.call (Engine.env code room) proxy id m args) (· = some proxy) := by
  have hthrough : Act.Upholds T P (Proxy.callThrough (Engine.env code room) proxy id m args)
      (· = some proxy) := by
    refine .locally fun w hw => ⟨_, ?_, run_callThrough_singleton (h.source w hw)⟩
    exact callOn_upholds hP hvoid h.accepted (h.chains room hroom) htarget _
  refine .locally fun w hw => ⟨_, ?_, run_reading id _ w⟩
  cases (w.config id).flags.exposeProxy with
  | false => exact hthrough
  | true => exact exposing_upholds hP hthrough

end Calls

/-! ## The stack -/

/-- The proxy is the last of so many, each in front of the one before, and the first of
them in front of the object. -/
inductive Stacked (T : Prop) (P : World σ → Prop) (code : Code σ) (r : Nat) (m : Method)
    (o : Object) : Nat → Object → Prop
  | first {proxy : Object} {id : ConfigId} (h : Fronts T P code r m o proxy id) :
    Stacked T P code r m o 1 proxy
  | onto {n : Nat} {inner proxy : Object} {id : ConfigId}
    (below : Stacked T P code r m o n inner) (h : Fronts T P code r m inner proxy id) :
    Stacked T P code r m o (n + 1) proxy

section Stacks

variable {code : Code σ} {r n : Nat} {m : Method} {o proxy : Object}

/-- A proxy with a configuration is called by its configuration. -/
theorem perform_call {id : ConfigId} (h : proxy.proxyConfig? = some id) (room : Nat)
    (args : List Value) :
    (Engine.env code (room + 1)).perform (.call (some proxy) m args)
      = (Proxy.call (Engine.env code room) proxy id m args).run := by
  show (Engine.callTarget (Engine.env code room) (some proxy) m args).run = _
  simp only [Engine.callTarget, h]

theorem Stacked.config (h : Stacked T P code r m o n proxy) :
    ∃ id, proxy.proxyConfig? = some id := by
  cases h with
  | first h => exact ⟨_, h.config⟩
  | onto _ h => exact ⟨_, h.config⟩

/-- As a target, the topmost proxy gets the call as a proxy. -/
theorem Stacked.reachTarget_eq (h : Stacked T P code r m o n proxy) (env : Env σ)
    (args : List Value) :
    reachTarget env (some proxy) m args
      = Act.ofOutcome (env.perform (.call (some proxy) m args)) := by
  obtain ⟨id, hid⟩ := h.config
  have hproxy : proxy.isProxy = true := by
    unfold Object.isProxy
    rw [hid]
    rfl
  simp only [reachTarget, hproxy, if_true]

/-- Every proxy of the stack answers itself, with room for the proxies below it. -/
theorem Stacked.upholds (hP : Unmoved P) (h : Stacked T P code r m o n proxy)
    (hvoid : m.result.isVoid = false) (hraw : o.isProxy = false) {args : List Value}
    (hself : ∀ room, r ≤ room →
      Act.Upholds T P (runMethod (Engine.env code room) o m args) (Value.IsSelf o))
    {room : Nat} (hroom : r + n ≤ room) :
    Run.Upholds T P ((Engine.env code room).perform (.call (some proxy) m args))
      (· = .ok (some proxy)) := by
  induction h generalizing room with
  | @first proxy id h =>
    obtain ⟨room, rfl⟩ : ∃ k, room = k + 1 := ⟨room - 1, by omega⟩
    rw [perform_call h.config]
    have hreach : reachTarget (Engine.env code room) (some o) m args
        = runMethod (Engine.env code room) o m args := by
      simp [reachTarget, hraw]
    refine (h.call hP hvoid (by omega) ?_).outcome
    rw [hreach]
    exact hself room (by omega)
  | @onto n inner proxy id below h ih =>
    obtain ⟨room, rfl⟩ : ∃ k, room = k + 1 := ⟨room - 1, by omega⟩
    rw [perform_call h.config]
    refine (h.call hP hvoid (by omega) ?_).outcome
    -- the proxy below answers itself, and it is the target here
    rw [below.reachTarget_eq]
    refine (ih (by omega)).mono fun out hout => ?_
    exact ⟨_, hout, inner, rfl, beq_self_eq_true _⟩

/-- A method that returns its receiver, called on the topmost of a stack of proxies, answers
that proxy: none below it and not the receiver. -/
theorem nested_self_return (hP : Unmoved P) (hstack : Stacked True P code r m o n proxy)
    (hvoid : m.result.isVoid = false) (hraw : o.isProxy = false) {args : List Value}
    (hself : ∀ room, r ≤ room →
      Act.Upholds True P (runMethod (Engine.env code room) o m args) (Value.IsSelf o))
    {room : Nat} (hroom : r + n ≤ room) {w : World σ} (hw : P w) :
    ∃ w', Engine.perform code room (.call (some proxy) m args) w
      = some (.ok (some proxy), w') ∧ P w' := by
  obtain ⟨out, w', hrun, hw', rfl⟩ :=
    (hstack.upholds hP hvoid hraw hself hroom).exists_answer trivial hw
  exact ⟨w', hrun, hw'⟩

end Stacks

/-! ## Traced proxies -/

/-- The configuration has a fixed target and advice that shows every call, and so have the
chains in its cache. -/
structure Traced (id : ConfigId) (target : Object) (w : World σ) : Prop where
  source : w.source (w.config id).source = .singleton target
  advisors : (w.config id).advisors = [tracer]
  maker : (w.config id).chainMaker = .standard default
  adapters : w.adapterList default = Adapter.builtIn
  cached : ∀ c ∈ (w.config id).cache,
    Link.All (· = .trace true) (· = .all) c.chain.links

namespace Traced

variable {id : ConfigId} {target : Object} {w : World σ}

theorem of_eq (h : Traced id target w) {w' : World σ} (hsource : w'.sources = w.sources)
    (hconfig : w'.configs = w.configs) (hadapters : w'.adapters = w.adapters) :
    Traced id target w' := by
  obtain ⟨user, journal, serial, count, current, memories, adapters, sources, configs,
    catalogues⟩ := w'
  obtain rfl : sources = w.sources := hsource
  obtain rfl : configs = w.configs := hconfig
  obtain rfl : adapters = w.adapters := hadapters
  exact ⟨h.source, h.advisors, h.maker, h.adapters, h.cached⟩

theorem keepChain (h : Traced id target w) (id' : ConfigId) (q : ChainQuery)
    (generation : Nat) {links : List Link}
    (hlinks : Link.All (· = .trace true) (· = .all) links) :
    Traced id target (w.keepChain id' q generation links) := by
  by_cases hid : w.configs.size ≤ id'.index
  · rw [World.keepChain_of_le hid]
    exact h.of_eq rfl rfl rfl
  · by_cases heq : id = id'
    · subst heq
      have hkept := World.config_keepChain_self (Nat.not_le.mp hid) q generation links
      refine ⟨?_, ?_, ?_, h.adapters, fun c hc => ?_⟩
      · rw [hkept]
        exact h.source
      · rw [hkept]
        exact h.advisors
      · rw [hkept]
        exact h.maker
      · rw [hkept] at hc
        rcases List.mem_cons.mp hc with rfl | hc
        · exact hlinks
        · exact h.cached c ((List.mem_filter.mp hc).1)
    · have hother : (w.keepChain id' q generation links).config id = w.config id :=
        World.config_keepChain_other heq
      refine ⟨?_, ?_, ?_, h.adapters, ?_⟩ <;> rw [hother]
      · exact h.source
      · exact h.advisors
      · exact h.maker
      · exact h.cached

/-- Looking chains up where all is traced, also where more configurations are. -/
theorem chainFor (hP : Unmoved P)
    (hkeep : ∀ w q generation links, P w → Link.All (· = .trace true) (· = .all) links →
      P (w.keepChain id q generation links))
    (htraced : ∀ w, P w → Traced id target w) (env : Env σ) (m : Method)
    (t : Option TypeDesc) :
    Act.Upholds T P (Configuration.chainFor env id m t)
      fun chain => Link.All (· = .trace true) (· = .all) chain.links := by
  refine chainFor_upholds hP.message hkeep (fun w hw chain hc => ?_) fun w hw => ?_
  · obtain ⟨e, hkept, rfl⟩ := kept_of_cached hc
    exact (htraced w hw).cached e (mem_cache_of_kept hkept).1
  · refine makeLinks_upholds hP.message (htraced w hw).maker (fun a ha => ?_) fun a ha => ?_
    all_goals
      rw [(htraced w hw).advisors] at ha
      cases List.mem_singleton.mp ha
    · exact ⟨.pure trivial, .pure trivial, .pure rfl⟩
    · refine .of_exists fun w' hw' => ⟨_, w', ?_, hw', [⟨0, .trace true⟩], rfl, ?_⟩
      · rw [Act.run_world, (htraced w' hw').adapters]
        rfl
      · intro x hx
        cases List.mem_singleton.mp hx
        rfl

/-- Advice that shows calls, without a question at the call, watches. -/
theorem watch (hP : Unmoved P) {links : List Link}
    (h : Link.All (· = .trace true) (· = .all) links) : Link.AllWatch T P env links := by
  have htrace : Interception.Watches T P env (.trace true) :=
    ⟨trivial, fun _ => Chain.emit_upholds hP.message .., fun _ _ =>
      Chain.emit_upholds hP.message ..⟩
  intro link hlink
  have hof := h link hlink
  cases link with
  | fixed i =>
    show Interception.Watches T P env i.action
    rw [show i.action = .trace true from hof]
    exact htrace
  | dynamic i p =>
    obtain ⟨hi, rfl⟩ := hof
    exact ⟨hi ▸ htrace, fun _ _ _ => .pure trivial⟩

end Traced

namespace Fluent

/-- What objects offer whose methods can be called one after the other. -/
def api : TypeDesc :=
  ((TypeDesc.Builder.ofInterface "Fluent").declare "self" [] (.plain "Fluent" .interfaceKind)
    ).build

/-- The method that returns its receiver. -/
def method : Method := ⟨api, "self", [], api⟩

/-- A class that offers it. -/
def worker : TypeDesc :=
  (((TypeDesc.Builder.ofClass "Worker").implementing api).methodRaw "self" [] api default).build

def object : Object := ⟨worker, 0, .entity "worker"⟩

/-- Every method returns its receiver. -/
def code : Code Unit := { Code.idle with method := fun _ o _ => pure (some o) }

/-- The proxy with the number, for a target. -/
def proxy (number : Nat) (target : Object) : Object :=
  ⟨Proxy.typeFor .byInterface {} [api] (some target.type) number, number + 1,
    .proxy ⟨number⟩ .byInterface false⟩

def inner : Object := proxy 0 object

def outer : Object := proxy 1 inner

def config (s : SourceId) : Configuration :=
  { layout := { interfaces := [api], advisors := [tracer] }, source := s, active := true }

/-- The object, a proxy in front of it, and one in front of that. -/
def world : World Unit :=
  { user := (), serial := 3, proxyCount := 2
    sources := #[.singleton object, .singleton inner]
    configs := #[config ⟨0⟩, config ⟨1⟩] }

/-- The configurations of both proxies are traced. -/
def BothTraced (w : World Unit) : Prop :=
  Traced ⟨0⟩ object w ∧ Traced ⟨1⟩ inner w

theorem world_traced : BothTraced world := by
  refine ⟨⟨rfl, rfl, rfl, rfl, fun c hc => ?_⟩, rfl, rfl, rfl, rfl, fun c hc => ?_⟩
  all_goals cases hc

theorem unmoved : Unmoved BothTraced where
  message _ _ h := ⟨h.1.of_eq rfl rfl rfl, h.2.of_eq rfl rfl rfl⟩
  current _ _ h := ⟨h.1.of_eq rfl rfl rfl, h.2.of_eq rfl rfl rfl⟩

theorem fronts {id : ConfigId} {target proxy : Object}
    (htraced : ∀ w, BothTraced w → Traced id target w) (hid : proxy.proxyConfig? = some id)
    (haccepts : api.accepts proxy.type = true) :
    Fronts True BothTraced code 0 method target proxy id where
  config := hid
  source w hw := (htraced w hw).source
  chains room _ := by
    have hfound := Traced.chainFor (T := True) unmoved (fun w q generation links hw hlinks =>
      ⟨hw.1.keepChain id q generation hlinks, hw.2.keepChain id q generation hlinks⟩)
      htraced (Engine.env code room) method (some target.type)
    exact hfound.mono fun chain hlinks => Traced.watch unmoved hlinks
  accepted := haccepts

theorem stacked : Stacked True BothTraced code 0 method object 2 outer :=
  .onto (.first (fronts (fun _ h => h.1) rfl rfl)) (fronts (fun _ h => h.2) rfl rfl)

/-- The method runs without commands, so the room does not matter. -/
theorem returns_self (room : Nat) : Act.Upholds True BothTraced
    (runMethod (Engine.env code room) object method []) (Value.IsSelf object) := by
  refine .of_exists fun w hw => ⟨.ok (some object), w, ?_, hw, some object, rfl, ?_⟩
  · cases room <;> rfl
  · exact ⟨object, rfl, rfl⟩

end Fluent

theorem fluent_self_return :
    ∃ w', Engine.perform Fluent.code 2 (.call (some Fluent.outer) Fluent.method []) Fluent.world
      = some (.ok (some Fluent.outer), w') ∧ Fluent.BothTraced w' :=
  nested_self_return Fluent.unmoved Fluent.stacked rfl rfl (fun room _ => Fluent.returns_self room)
    (Nat.le_refl 2) Fluent.world_traced

end Aspects
