import Aspects.Proofs.Caching.Purity
import Aspects.Proofs.Caching.Soundness

/-!
# What a cached chain is right for

Chains depend on the method, on the target type and on whether the advisors are said to
be filtered, but the cache knows them by the key of the method alone. A chain that is
found there is the one for the method, the type and the flag with which the key was looked
up first in the present generation. So it is right for another lookup exactly if the
two get the same chain (`looked_up_chain_right_iff`); where nothing is found the answer
is always right.

Exchanging the target of a source does not start a generation. So a chain that was worked
out for one target is used for the next, whatever the type of that
(`chain_of_former_target`).
-/

namespace Aspects

variable {σ : Type} {α : Type} {code : Code σ} {start : World σ}

open Aspects.Configuration

/-- The lookup answers a chain that has the outline of the plan. -/
def AnswersBy (code : Code σ) (w : World σ) (id : ConfigId) (plan : Plan) (room : Nat)
    (m : Method) (t : Option TypeDesc) : Prop :=
  ∃ chain w', (chainFor (Engine.env code room) id m t).run w = some (.ok chain, w') ∧
    chain.links.map Link.outline = plan ((w.config id).query m t)

/-- A lookup that finds nothing answers what the configuration makes, links or a failure. -/
theorem answer_of_miss {env : Env σ} {w : World σ} {id : ConfigId} {m : Method}
    {t : Option TypeDesc} (hmiss : (w.config id).cached? m.key = none) :
    ((chainFor env id m t).run w).map (fun r => r.1.map Chain.links)
      = ((makeLinks env (w.config id) m t).run w).map (·.1) := by
  rw [chainFor_miss env t hmiss, Option.map_map]
  refine Option.map_congr fun r _ => ?_
  obtain ⟨links, w'⟩ := r
  cases links with
  | ok links => rfl
  | error e => rfl

/-- A lookup that finds a chain answers by the plan exactly if that has the outline. -/
theorem answersBy_of_hit {w : World σ} {id : ConfigId} {plan : Plan} {room : Nat}
    {m : Method} {t : Option TypeDesc} {found : Chain}
    (hfound : (w.config id).cached? m.key = some found) :
    AnswersBy code w id plan room m t ↔
      found.links.map Link.outline = plan ((w.config id).query m t) := by
  constructor
  · rintro ⟨chain, w', h, hout⟩
    rw [chainFor_hit _ t hfound] at h
    cases h
    exact hout
  · intro hout
    exact ⟨found, _, chainFor_hit _ t hfound, hout⟩

/-- Throughout every run: a lookup that finds nothing answers what the advisors of now make
for the method and the target type, be it links or a failure. What is kept for a key is found
by every lookup of the key; it was made from the advisors of now, for a query with the key.
So for chains that go by a plan a lookup answers by the plan exactly if the plan is the same
for that query and for the one of the lookup. -/
theorem looked_up_chain_right_iff (code : Code σ) (room : Nat) (p : Action σ α) (s : σ) :
    Engine.Throughout code room p { user := s } fun w => ∀ id,
      (∀ room m t, (w.config id).kept? m.key = none →
        ((chainFor (Engine.env code room) id m t).run w).map (fun r => r.1.map Chain.links)
          = ((makeLinks (Engine.env code room) (w.config id) m t).run w).map (·.1)) ∧
      ∀ key e, (w.config id).kept? key = some e →
        e.query.method.key = key ∧
        Made code { user := s } w id e.query e.chain.links ∧
        ∀ room m t, m.key = key →
          (∃ w', (chainFor (Engine.env code room) id m t).run w = some (.ok e.chain, w')) ∧
          ∀ asked plan, FollowsPlan code { user := s } w id asked plan →
            asked e.query.method e.query.target →
            (AnswersBy code w id plan room m t ↔
              plan e.query = plan ((w.config id).query m t)) := by
  refine Engine.throughout (fun w hr id => ⟨fun room m t hmiss => ?_, ?_⟩) room p
  · exact answer_of_miss (congrArg (Option.map CachedChain.chain) hmiss)
  · intro key e hkept
    -- the chain stands in the cache, so some lookup of this generation has made it
    have hmade := ((Sound.initial s).reaches hr).kept hkept
    refine ⟨(mem_cache_of_kept hkept).2.1, hmade, ?_⟩
    rintro room m t rfl
    have hfound := congrArg (Option.map CachedChain.chain) hkept
    refine ⟨⟨_, chainFor_hit _ t hfound⟩, fun asked plan hplan hasked => ?_⟩
    rw [answersBy_of_hit hfound, hmade.outline hplan hasked]

/-! ## The chain of a former target

A class, another one that extends it, and advice for calls to the latter. The advice is
in the chain for a target of the latter class, unless the chain for one of the former was
worked out before. -/

def plainType : TypeDesc := .plain "Plain" .classKind

def auditedType : TypeDesc := .named "Audited" .classKind (some plainType) [] []

def ping : Method := ⟨plainType, "ping", [], .void⟩

/-- User code with a pointcut that matches one class only. -/
def auditing : Code Unit :=
  { Code.idle with matchesClass := fun _ t => pure (t.name == "Audited") }

/-- Advice before every call to that class. -/
def auditor : Advisor where
  id := 0
  pointcut := .user "audited" ⟨0⟩
  advice := .before ⟨0⟩

/-- The same with a pattern for the name of the class. -/
def patternAuditor (p : Pointcut) : Advisor :=
  { auditor with pointcut := p }

/-- Looks a chain up for two targets of a source, which are exchanged in between, has the
chain for the second worked out as well, and answers how long these chains are. -/
def lookupAroundSwap : ExceptT Failure (Action Unit) (List Nat) := do
  let s ← ExceptT.lift (.ofCommand (.newSource (.swappable ⟨plainType, 0, .entity "p"⟩)))
  let c ← ExceptT.lift (.ofCommand (.newConfig { source := s }))
  let pattern ← ExceptT.lift (.ofCommand (.newMemo (.type "Audited") none))
  ExceptT.mk (.ofCommand (.addAdvisor c none (patternAuditor pattern)))
  let former ← ExceptT.mk (.ofCommand (.chain c ping (some plainType)))
  let _ ← ExceptT.mk (.ofCommand (.swap s ⟨auditedType, 1, .entity "a"⟩))
  let found ← ExceptT.mk (.ofCommand (.chain c ping (some auditedType)))
  let right ← ExceptT.mk
    (.ofCommand (.standardChain default [patternAuditor pattern] false ping (some auditedType)))
  return [former.links.length, found.links.length, right.length]

/-- The advice is not in the chain that is found for the second target, although it is in
the one that the advisors make for it. -/
theorem chain_of_former_target :
    (Engine.run auditing 1 lookupAroundSwap.run { user := () }).map (·.1.toOption)
      = some (some [0, 0, 1]) := by
  decide +kernel

/-! ### The plan of such advisors -/

/-- Calls of the method to targets of the two classes. -/
def pings : Questions := fun m t =>
  m = ping ∧ (t = some plainType ∨ t = some auditedType)

theorem pings_distinct : pings.Distinct := by
  rintro m t m' t' ⟨rfl, rfl | rfl⟩ ⟨rfl, rfl | rfl⟩ _ hsame
  · exact ⟨rfl, rfl⟩
  · exact absurd hsame (by decide)
  · exact absurd hsame (by decide)
  · exact ⟨rfl, rfl⟩

/-- What the pointcuts of such advisors say. -/
def auditStance : Pointcut → Stance :=
  Pointcut.stance ⟨fun _ _ _ => .ok true, fun _ _ => true⟩
    (fun _ => ⟨fun t => t.name == "Audited", fun _ _ => .ok .always, fun _ _ => none⟩)
    { user := () }

/-- With such advisors chains go by their plan, if in the memories there is nothing but what
the pattern came to for some call. -/
theorem auditors_followPlan {w : World Unit} {id : ConfigId} {adapters : AdaptersId}
    (hmaker : (w.config id).chainMaker = .standard adapters)
    (hrecalls : w.Recalls ⟨fun _ _ _ => .ok true, fun _ _ => true⟩ pings
      fun _ => .type "Audited")
    (hadvisors : ∀ a ∈ (w.config id).advisors, a = auditor ∨
      ∃ memo, a = patternAuditor (.memo memo (.type "Audited") none)) :
    FollowsPlan auditing { user := () } w id pings
      (Stance.plan auditStance (w.adapterList adapters) (w.config id).advisors) := by
  refine followsPlan_of_holdsTo hmaker hrecalls fun room m t hasked a ha => ?_
  rcases hadvisors a ha with rfl | ⟨memo, rfl⟩
  · -- the environment runs the same code whatever room there is
    have hcode : (Engine.env auditing room).code = auditing := by cases room <;> rfl
    refine Pointcut.user_holdsTo (fun _ => auditStance auditor.pointcut)
      (fun t => ?_) (fun m t => ?_) (fun m t => ?_) "audited"
    all_goals
      rw [hcode]
      rfl
  · have htested : (patternAuditor (.memo memo (.type "Audited") none)).pointcut.TestedBy
        (Engine.env auditing room) ⟨fun _ _ _ => .ok true, fun _ _ => true⟩
        fun _ => .type "Audited" := ⟨rfl, trivial⟩
    exact htested.holdsTo pings_distinct hasked _ ()

/-- The plan of an advisor with a pattern tells the two targets apart. -/
example :
    let plan := Stance.plan auditStance Adapter.builtIn
      [patternAuditor (.memo default (.type "Audited") none)]
    (plan ⟨ping, some plainType, false⟩).length = 0 ∧
      (plan ⟨ping, some auditedType, false⟩).length = 1 := by
  decide +kernel

end Aspects
