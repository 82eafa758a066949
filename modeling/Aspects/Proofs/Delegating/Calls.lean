import Aspects.Proofs.Delegating.Advisors
import Aspects.Proofs.Observing.Calls

/-!
# Calls through proxies with introductions

A call to a proxy all of whose advisors observe or introduce is dispatched: past the links
that observe, it comes to the delegate of the first introduction that takes its method, and
if there is none, to the target. The chain may have been made for another method with the
same key; which introduction takes the call is asked of the method that is called.

The introductions that do not take a method make no difference to its calls
(`Passage.Dispatches`). They take the methods that are declared on their interfaces, or
further up, and besides all that are declared on the root, though none of their interfaces
has them from there (`root_call_delegated`).
-/

namespace Aspects

variable {σ : Type} {α : Type} {code : Code σ} {start : World σ}

open Aspects.Configuration

/-- What becomes of a call in a chain with introductions. -/
def dispatching (env : Env σ) : Passage σ := fun jp t links => dispatched env jp t 0 links

/-- The passage takes the calls of a method to the delegate of the first introduction of it,
past what observes in front of that, and knows no other way to use introductions. -/
structure Passage.Dispatches (env : Env σ) (go : Passage σ) : Prop where
  taken : ∀ jp t front number delegate is back, Link.Untaken jp.method front →
    introduces is jp.method = true →
    go jp t (front ++ .fixed ⟨number, .introduce delegate is⟩ :: back)
      = past env jp t (Link.observers 0 front) (answered env jp (some delegate))
  missing : ∀ jp t front number delegate is back, Link.Untaken jp.method front →
    introduces is jp.method = true → delegate.isProxy = false →
    delegate.type.findImplementation jp.method.key = none →
    go jp t (front ++ .fixed ⟨number, .introduce delegate is⟩ :: back)
      = past env jp t (Link.observers 0 front)
          (Act.fail (.noSuchMethod delegate.type.name jp.method.key.display))
  /-- Without the introductions the same links are come past, at other places perhaps. -/
  untaken : ∀ jp t links, Link.Untaken jp.method links → ∃ here there,
    here.map Prod.fst = there.map Prod.fst ∧
    go jp t links = past env jp t here (reachTarget env jp.target jp.method jp.args) ∧
    observing env jp t (links.filter fun link => !link.isIntroduction)
      = past env jp t there (reachTarget env jp.target jp.method jp.args)
  /-- The places do not matter to links that run on every call. -/
  untaken_fixed : ∀ jp t links, Link.Untaken jp.method links →
    (∀ link ∈ links, ∃ i, link = .fixed i) →
    go jp t links = observing env jp t (links.filter fun link => !link.isIntroduction)

theorem dispatching_dispatches (env : Env σ) : (dispatching env).Dispatches env := by
  have hplaces : ∀ links : List Link,
      (Link.observers 0 links).map Prod.fst
        = ((links.filter fun link => !link.isIntroduction).zipIdx 0).map Prod.fst := by
    intro links
    rw [Link.map_fst_observers, List.zipIdx_map_fst]
  have htaken : ∀ jp t front number delegate is back, Link.Untaken jp.method front →
      introduces is jp.method = true →
      dispatching env jp t (front ++ .fixed ⟨number, .introduce delegate is⟩ :: back)
        = past env jp t (Link.observers 0 front) (answered env jp (some delegate)) := by
    intro jp t front number delegate is back hfront htakes
    have hdelegate := Link.delegate?_introduce jp.method number delegate is
    rw [if_pos htakes] at hdelegate
    exact dispatched_of_taken hfront hdelegate
  refine ⟨htaken, fun jp t front number delegate is back hfront htakes hplain hmissing => ?_,
    fun jp t links h => ⟨_, _, hplaces links, ?_, ?_⟩, fun jp t links h hfixed => ?_⟩
  · rw [htaken jp t front number delegate is back hfront htakes]
    rw [answered_of_missing hplain hmissing]
  · exact dispatched_of_untaken h
  · exact passThrough_eq_past env jp t 0 _
  · have hobservers : ∀ x ∈ Link.observers 0 links, ∃ i, x.1 = .fixed i := by
      intro x hx
      have hmem : x.1 ∈ links.filter fun link => !link.isIntroduction := by
        rw [← Link.map_fst_observers 0]
        exact List.mem_map_of_mem hx
      exact hfixed x.1 (List.mem_filter.mp hmem).1
    calc dispatching env jp t links
        = past env jp t (Link.observers 0 links)
            (reachTarget env jp.target jp.method jp.args) := dispatched_of_untaken h
      _ = past env jp t ((links.filter fun link => !link.isIntroduction).zipIdx 0)
            (reachTarget env jp.target jp.method jp.args) :=
          past_of_fixed _ hobservers (hplaces links)
      _ = observing env jp t (links.filter fun link => !link.isIntroduction) :=
          (passThrough_eq_past env jp t 0 _).symm

/-- When a call to the proxy has acquired its target, all its advisors observe or introduce. -/
def ServedOnceAcquired (env : Env σ) (w : World σ) (proxy : Object) (id : ConfigId) : Prop :=
  ∀ target w₁, (Source.acquire env (w.config id).source).run (w.entering proxy id)
    = some (.ok target, w₁) → Served env w₁ id

section Calls

variable {w : World σ} (hstart : Sound code start start) (hr : Reaches code start w)
  {room : Nat} {id : ConfigId}
include hstart hr

/-- Whatever chain is looked up then, invocations are dispatched in it. -/
theorem Served.describes (h : Served (Engine.env code room) w id) :
    (dispatching (Engine.env code room)).Describes (Engine.env code room) id w := by
  intro m t o w' hfound
  obtain ⟨chain, rfl, hall⟩ := h.chainFor hr hstart.settled (hstart.reaches hr) hfound
  refine ⟨chain, rfl, fun v hcursor hchain htype => ?_⟩
  rw [← hchain] at hall
  have hrun := run_of_brings (Engine.env code room) hcursor
    (continuation_dispatched (v := v) (l := v.luggage) hall 0)
  rw [hchain, htype] at hrun
  exact hrun

/-- So it is with the target in hand, written down as a loan or not. -/
theorem ServedOnceAcquired.describes {proxy : Object}
    (h : ServedOnceAcquired (Engine.env code room) w proxy id) {target : Option Object}
    {w₁ : World σ} (hacquired : (Source.acquire (Engine.env code room) (w.config id).source).run
      (w.entering proxy id) = some (.ok target, w₁)) :
    (dispatching (Engine.env code room)).Describes (Engine.env code room) id w₁ ∧
      ∀ s o, (dispatching (Engine.env code room)).Describes (Engine.env code room) id
        (w₁.record (.acquired s o)) := by
  refine Passage.describes_acquired hr (fun w₁ s o h₁ => ?_)
    (fun w₁ hr₁ h₁ => h₁.describes hstart hr₁) h hacquired
  exact h₁.of_sameMakings ⟨rfl, rfl, fun _ _ => rfl⟩

theorem call_dispatched (proxy : Object)
    (h : ServedOnceAcquired (Engine.env code room) w proxy id) (m : Method)
    (args : List Value) :
    (Proxy.call (Engine.env code room) proxy id m args).run w
      = ((dispatching (Engine.env code room)).call (Engine.env code room) proxy id m args).run
          w :=
  Passage.call_eq proxy (fun _ _ hacquired => h.describes hstart hr hacquired) m args

end Calls

/-- Throughout every run: a call to a proxy whose advisors observe or introduce, whenever its
target was acquired, is dispatched by introductions, and an introduction of interfaces takes
the methods that are declared on a class or an interface that is one of them or above one of
them, and those that are declared on the root. -/
theorem introduced_calls_dispatched (code : Code σ) (room : Nat) (p : Action σ α) (s : σ) :
    (∀ is : List TypeDesc, (∀ i ∈ is, i.isInterface = true) → ∀ m : Method,
      introduces is m = true ↔
        (m.declaring.IsReference ∧
          ∃ i ∈ is, ∃ t, TypeDesc.Above t i ∧ m.declaring.same t = true) ∨
        m.declaring = .root ∧ is ≠ []) ∧
    (∀ env : Env σ, (dispatching env).Dispatches env) ∧
    Engine.Throughout code room p { user := s } fun w => ∀ room proxy id m args,
      ServedOnceAcquired (Engine.env code room) w proxy id →
      (Proxy.call (Engine.env code room) proxy id m args).run w
        = ((dispatching (Engine.env code room)).call (Engine.env code room) proxy id m
            args).run w := by
  refine ⟨fun is his m => introduces_iff his, dispatching_dispatches, ?_⟩
  refine Engine.throughout (fun w hr room proxy id m args h => ?_) room p
  exact call_dispatched (.initial s) hr proxy h m args

/-! ## A lock for an account -/

namespace Locks

def lockable : TypeDesc :=
  ((TypeDesc.Builder.ofInterface "Lockable").declare "lock" [] .root).build

/-- What both classes offer besides, as if it were declared on the root. -/
def describe : Method := ⟨.root, "describe", [], .root⟩

def account : Object :=
  ⟨((TypeDesc.Builder.ofClass "Account").methodRaw "describe" [] .root default).build, 0,
    .entity "account"⟩

def latch : Object :=
  ⟨(((TypeDesc.Builder.ofClass "Latch").implementing lockable).methodRaw "lock" [] .root
    default).methodRaw "describe" [] .root default |>.build, 1, .entity "latch"⟩

/-- Every method answers the name of the class that it runs on. -/
def naming : Code Unit :=
  { Code.idle with method := fun _ o _ => pure (some ⟨.root, 2, .entity o.type.name⟩) }

def locking : Advisor := .introduction 1 1 [lockable] latch

/-- A configuration for the account with the advisors. -/
def config (as : List Advisor) : ExceptT Failure (Action Unit) ConfigId := do
  let s ← ExceptT.lift (.ofCommand (.newSource (.singleton account)))
  let c ← ExceptT.lift (.ofCommand (.newConfig { source := s }))
  as.forM fun a => ExceptT.mk (.ofCommand (.addAdvisor c none a))
  return c

/-- Asks for a description through a proxy with the advisors. -/
def describeThrough (as : List Advisor) : ExceptT Failure (Action Unit) Value := do
  let c ← config as
  ExceptT.mk (.ofCommand (.call (some ⟨.root, 3, .proxy c .byInterface false⟩) describe []))

/-- The description, if it is one. -/
def described (as : List Advisor) : Option String := do
  match (← Engine.run naming 2 (describeThrough as).run { user := () }).1 with
  | .ok (some ⟨_, _, .entity name⟩) => some name
  | _ => none

end Locks

open Locks in
theorem locking_dispatched :
    ∃ id w, Engine.run naming 1 (config [tracer, locking]).run { user := () } = some (.ok id, w) ∧
      ∀ room proxy m args,
        (Proxy.call (Engine.env naming room) proxy id m args).run w
          = ((dispatching (Engine.env naming room)).call (Engine.env naming room) proxy id m
              args).run w := by
  refine ⟨_, _, rfl, fun room proxy m args => ?_⟩
  refine (introduced_calls_dispatched naming 1 (config [tracer, locking]).run ()).2.2.2 _ _ rfl
    room proxy _ m args fun target w₁ hacquired => ?_
  cases hacquired
  refine ⟨fun a ha => ?_, default, rfl, fun a ha adapter hadapter _ => hadapter⟩
  have hmem : a ∈ [tracer, locking] := ha
  simp only [List.mem_cons, List.not_mem_nil, or_false] at hmem
  rcases hmem with rfl | rfl
  · exact .inl ⟨_, rfl, trivial⟩
  · exact .inr (Advisor.introduction_introduces 1 1 (List.cons_ne_nil _ _) latch)

open Locks in
/-- A method of the root comes to the delegate, though the root is no interface of the
introduction and above none; without the introduction it comes to the target. -/
theorem root_call_delegated :
    (¬∃ t, TypeDesc.Above t lockable ∧ describe.declaring.same t = true) ∧
    described [tracer, locking] = some "Latch" ∧ described [tracer] = some "Account" := by
  refine ⟨?_, by decide +kernel, by decide +kernel⟩
  rintro ⟨t, habove, hsame⟩
  rcases TypeDesc.above_iff.mp habove with rfl | ⟨p, hp, _⟩
  · cases hsame
  · cases hp

end Aspects
