import Aspects.Proofs.Applying.Stances
import Aspects.Proofs.Caching.Plans
import Aspects.Proofs.Lookup.Chains
import Aspects.Proofs.Selecting.Stages

/-!
# Plans of pure advisors

Where pointcuts are pure there is a plan by which chains go: each advisor contributes what
follows from what its pointcut says of the class and of the method, and from what the
adapters make of its advice (`Stance.plan`). For this the memories of pointcuts have to be
right, which memories of before are if those of now are. What a pointcut of the library says
is then found by the rule, with or without a memory (`Pointcut.TestedBy.holdsTo`).

The result is `followsPlan_of_holdsTo`, and with it `MadeOfNow.outline_eq`.
-/

namespace Aspects

variable {σ : Type} {code : Code σ} {start w : World σ} {env : Env σ} {tests : Tests}
  {asked : Questions} {owner : MemoId → Expr} {adapters : AdaptersId} {as : List Adapter}

open Aspects.Configuration

/-! ## What advisors contribute -/

/-- What the adapters make of the advice of an advisor. -/
def Advisor.actions (as : List Adapter) (a : Advisor) : List Interception :=
  (Adapter.own a.advice).map Interceptor.action ++
    (Adapter.interceptions as a.advice).toOption.getD []

namespace Stance

/-- The outlines of the links of an advisor, of whose pointcut this is the stance, for a
method of a class that was let pass. -/
def outlines (s : Stance) (as : List Adapter) (a : Advisor) (m : Method)
    (t : Option TypeDesc) : List (Option Pointcut × Interception) :=
  let fixed := (a.actions as).map fun i => (none, i)
  if a.isIntroduction then fixed
  else
    match s.verdict m t with
    | .ok .always => fixed
    | .ok .maybe => (a.actions as).map fun i => (some ((s.rest m t).getD a.pointcut), i)
    | _ => []

/-- The outlines of the links that the advisor contributes to a chain. -/
def contribution (s : Stance) (as : List Adapter) (a : Advisor) (q : ChainQuery) :
    List (Option Pointcut × Interception) :=
  if q.preFiltered || s.passes (q.target.getD q.method.declaring) then
    s.outlines as a q.method q.target
  else []

/-- The plan of the advisors whose pointcuts have these stances. -/
def plan (stance : Pointcut → Stance) (as : List Adapter) (advisors : List Advisor) : Plan :=
  fun q => advisors.flatMap fun a => (stance a.pointcut).contribution as a q

end Stance

/-! ## Pure pointcuts -/

/-- The memories are right, and the adapters of the list are these. -/
structure World.Furnished (w : World σ) (tests : Tests) (asked : Questions)
    (owner : MemoId → Expr) (adapters : AdaptersId) (as : List Adapter) : Prop where
  recalls : w.Recalls tests asked owner
  adapterList_eq : w.adapterList adapters = as

theorem World.Furnished.of_eq {w' : World σ} (h : w.Furnished tests asked owner adapters as)
    (hm : w'.memories = w.memories) (ha : w'.adapters = w.adapters) :
    w'.Furnished tests asked owner adapters as :=
  ⟨h.recalls.of_memories hm, (adapterList_congr ha _).trans h.adapterList_eq⟩

theorem World.Furnished.ponders {w' : World σ} (h : w.Furnished tests asked owner adapters as)
    (hponders : w.Ponders w') (hrecalls : w'.Recalls tests asked owner) :
    w'.Furnished tests asked owner adapters as :=
  ⟨hrecalls, (hponders.adapterList_eq adapters).trans h.adapterList_eq⟩

/-- Memories are right that had in them part of what those have which are right now. -/
theorem World.Recollects.recalls {w₀ : World σ} (h : w₀.Recollects w)
    (hw : w.Recalls tests asked owner) : w₀.Recalls tests asked owner :=
  fun id r hr => hw id r ((h id).subset hr)

/-- In worlds of the kind the pointcut, if it answers, says this of the method and the type;
and it leaves a world of the kind. -/
structure Pointcut.HoldsTo (env : Env σ) (S : World σ → Prop) (m : Method)
    (t : Option TypeDesc) (p : Pointcut) (s : Stance) : Prop where
  matchesClass : Run.Upholds False S (p.matchesClass env (t.getD m.declaring))
    (· = s.passes (t.getD m.declaring))
  matchesMethod : Run.Upholds False S (p.matchesMethod env m t).run (· = s.verdict m t)
  residueFor : Run.Upholds False S (p.residueFor env m t) (· = s.rest m t)

theorem Run.Gives.upholds {α : Type} {S : World σ → Prop} {r : Run σ α} {a : α}
    (h : Run.Gives S r a) : Run.Upholds False S r (· = a) := by
  refine .of_exists fun w hw => ?_
  obtain ⟨w', hrun, _, hw'⟩ := h w hw
  exact ⟨a, w', hrun, hw', rfl⟩

section Pure

variable {m : Method} {t : Option TypeDesc} {p : Pointcut}

/-- A pointcut of the library whose tests are functions says what it would say with nothing
in its memory. -/
theorem Pointcut.TestedBy.holdsTo (h : p.TestedBy env tests owner) (hdistinct : asked.Distinct)
    (hm : asked m t) (views : Routine → Stance) (s : σ) :
    p.HoldsTo env (World.Furnished · tests asked owner adapters as) m t
      (p.stance tests views { user := s }) := by
  have hmemo (id : MemoId) (label : String) (ho : (owner id).TestedBy env tests) :
      Run.Gives (World.Furnished · tests asked owner adapters as)
        (residueOf env id label (owner id) m t)
        (World.recall { user := s } tests id (owner id) m t) := by
    intro w hw
    obtain ⟨_, w₁, hrun, hponders, hw₁, rfl⟩ :=
      residueOf_answers hdistinct hm ho label w hw.recalls
    exact ⟨w₁, hrun, hponders, hw.ponders hponders hw₁⟩
  exact ⟨(h.matchesClass_gives _).upholds, (h.matchesMethod_gives hmemo).upholds,
    (h.residueFor_gives hmemo).upholds⟩

/-- A pointcut of the user that does nothing but say what it has to say. -/
theorem Pointcut.user_holdsTo {S : World σ → Prop} {body : Routine} (views : Routine → Stance)
    (hclass : ∀ t, env.run (env.code.matchesClass body t) = pure ((views body).passes t))
    (hmethod : ∀ m t, (env.exec (env.code.matchesMethod body m t)).run
      = pure ((views body).verdict m t))
    (hrest : ∀ m t, env.run (env.code.residue body m t) = pure ((views body).rest m t))
    (label : String) : (user label body).HoldsTo env S m t (views body) := by
  refine ⟨?_, ?_, ?_⟩
  · show Run.Upholds _ _ (env.run (env.code.matchesClass body _)) _
    rw [hclass]
    exact .pure rfl
  · show Run.Upholds _ _ (env.exec (env.code.matchesMethod body m t)).run _
    rw [hmethod]
    exact .pure rfl
  · show Run.Upholds _ _ (env.run (env.code.residue body m t)) _
    rw [hrest]
    exact .pure rfl

end Pure

/-! ## Chains of pure advisors -/

section Chains

variable {a : Advisor} {m : Method} {t : Option TypeDesc} {s : Stance}

theorem Advisor.actions_yields (a : Advisor) :
    Act.Yields (World.Furnished · tests asked owner adapters as)
      (do Adapter.interceptors ((← Act.world).adapterList adapters) a : Act σ _)
      (fun made => made.map Interceptor.action = a.actions as) := by
  refine .mono (a.interceptors_yields (fun w hw => hw.of_eq rfl rfl)
    fun w hw => hw.adapterList_eq) fun made hmade => ?_
  obtain ⟨_, actions, hactions, hmap⟩ := hmade
  unfold Advisor.actions
  rw [hactions, hmap]
  rfl

namespace Chain

variable (h : a.pointcut.HoldsTo env (World.Furnished · tests asked owner adapters as) m t s)
include h

theorem linksOf_yields :
    Act.Yields (World.Furnished · tests asked owner adapters as)
      (linksOf env adapters a m t) (·.map Link.outline = s.outlines as a m t) := by
  unfold linksOf Stance.outlines
  -- the links that are made with one pointcut, or with none
  have hfixed : Act.Yields (World.Furnished · tests asked owner adapters as)
      (do return (← (do Adapter.interceptors ((← Act.world).adapterList adapters) a :
        Act σ _)).map .fixed) (·.map Link.outline = (a.actions as).map fun i => (none, i)) := by
    refine .andThen (Advisor.actions_yields a) fun made hmade => .succeed ?_
    rw [← hmade, List.map_map, List.map_map]
    rfl
  by_cases hadvisor : a.isIntroduction = true
  · rw [if_pos hadvisor, if_pos hadvisor]
    exact hfixed
  rw [if_neg hadvisor, if_neg hadvisor]
  refine .andThen (.ofRun h.matchesMethod) fun o ho => ?_
  rw [← ho]
  match o with
  | .ok .always => exact hfixed
  | .ok .maybe =>
    refine .andThen (.ofRun h.residueFor) fun rest hrest => ?_
    refine .andThen (Advisor.actions_yields a) fun made hmade => .succeed ?_
    simp only [← hmade, ← hrest, List.map_map]
    rfl
  | .ok .never => exact .succeed rfl
  | .error f =>
    exact .andThen (.ofRun (emit_upholds (fun _ _ hw => hw.of_eq rfl rfl) ..)) fun _ _ =>
      .succeed rfl

theorem turn_yields (preFiltered : Bool) :
    Act.Yields (World.Furnished · tests asked owner adapters as)
      (turn env adapters preFiltered m t a)
      (·.map Link.outline = s.contribution as a ⟨m, t, preFiltered⟩) := by
  unfold turn Stance.contribution
  have hrest (passed : Bool) :
      Act.Yields (World.Furnished · tests asked owner adapters as)
        (if passed then linksOf env adapters a m t else pure [])
        (·.map Link.outline = if passed then s.outlines as a m t else []) := by
    cases passed with
    | true => exact linksOf_yields h
    | false => exact .succeed rfl
  cases preFiltered with
  | true => exact hrest true
  | false =>
    refine .andThen (.ofRun h.matchesClass) fun passed hpassed => ?_
    rw [Bool.false_or, ← hpassed]
    exact hrest passed

end Chain

theorem Chain.linksOfAll_yields {stance : Pointcut → Stance} {advisors : List Advisor}
    (h : ∀ a ∈ advisors, a.pointcut.HoldsTo env
      (World.Furnished · tests asked owner adapters as) m t (stance a.pointcut))
    (preFiltered : Bool) :
    Act.Yields (World.Furnished · tests asked owner adapters as)
      (linksOfAll env adapters preFiltered m t advisors)
      (·.map Link.outline = Stance.plan stance as advisors ⟨m, t, preFiltered⟩) := by
  induction advisors with
  | nil => exact .succeed rfl
  | cons a advisors ih =>
    rw [linksOfAll_cons]
    refine .andThen (turn_yields (h a List.mem_cons_self) preFiltered) fun mine hmine => ?_
    refine .andThen (ih fun b hb => h b (List.mem_cons_of_mem _ hb)) fun rest hrest => ?_
    refine .succeed ?_
    unfold Stance.plan at hrest ⊢
    rw [List.map_append, hmine, hrest, List.flatMap_cons]

end Chains

section Plan

variable {id : ConfigId} {stance : Pointcut → Stance}
  (hmaker : (w.config id).chainMaker = .standard adapters)
  (hrecalls : w.Recalls tests asked owner)
  (hpure : ∀ room m t, asked m t → ∀ a ∈ (w.config id).advisors,
    a.pointcut.HoldsTo (Engine.env code room)
      (World.Furnished · tests asked owner adapters (w.adapterList adapters)) m t
      (stance a.pointcut))
include hmaker hrecalls hpure

/-- For a configuration that makes its chains from its advisors, where these have pure
pointcuts and the memories are right, chains go by the plan of the advisors. -/
theorem followsPlan_of_holdsTo :
    FollowsPlan code start w id asked
      (Stance.plan stance (w.adapterList adapters) (w.config id).advisors) := by
  intro room m t w₀ w₁ links hasked _ hrecollects hsame hmade
  have hw₀ : w₀.Furnished tests asked owner adapters (w.adapterList adapters) :=
    ⟨hrecollects.recalls hrecalls, (hsame.adapters_eq adapters hmaker).symm⟩
  unfold makeLinks at hmade
  rw [← hsame.chainMaker_eq, hmaker, ← hsame.advisors_eq] at hmade
  obtain ⟨links', w', hlinks, hk⟩ := of_run_bind_ok hmade
  have hall := Chain.linksOfAll_yields (hpure room m t hasked) (w₀.config id).preFiltered
  have hout := (hall.yields w₀ hw₀ _ w' hlinks).2 links' rfl
  cases hk
  exact hout

/-- So links that are made of now are in outline what the advisors of now contribute, one
after the other. -/
theorem MadeOfNow.outline_eq {q : ChainQuery} {links : List Link}
    (h : MadeOfNow code start w id q links) (hasked : asked q.method q.target) :
    links.map Link.outline
      = (w.config id).advisors.flatMap fun a =>
          (stance a.pointcut).contribution (w.adapterList adapters) a q :=
  h.outline asked _ (followsPlan_of_holdsTo hmaker hrecalls hpure) hasked

end Plan

end Aspects
