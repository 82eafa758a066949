import Aspects.Proofs.Lookup.Interceptors
import Aspects.Proofs.Steps.Configurations
import Aspects.Proofs.Steps.Upholding

/-!
# Working chains out

A chain is worked out advisor by advisor. The pointcut is asked, which may run user code,
and then the adapters make interceptors for the advice. If both uphold some kind of
worlds, and the adapters do not fail there, then working the chain out upholds it and
does not fail (`Chain.standard_upholds`), whatever the pointcuts answer; and neither does
looking the chain up, in the cache or anew (`Configuration.chainFor_upholds`). What is known
of the interceptors, and of what is left of the pointcuts, is known of the links.
-/

namespace Aspects

variable {σ : Type} {T : Prop} {P : World σ → Prop} {I : Interception → Prop}
  {R : Pointcut → Prop} {env : Env σ} {adapters : AdaptersId} {m : Method}
  {t : Option TypeDesc}

/-- What asking the pointcut does for a chain upholds the kind of worlds, and what is left
of it to be asked at a call is of the sort. -/
structure Pointcut.Consults (T : Prop) (P : World σ → Prop) (R : Pointcut → Prop)
    (env : Env σ) (m : Method) (t : Option TypeDesc) (p : Pointcut) : Prop where
  matchesClass : Run.Upholds T P (p.matchesClass env (t.getD m.declaring)) fun _ => True
  matchesMethod : Run.Upholds T P (p.matchesMethod env m t).run fun _ => True
  residueFor : Run.Upholds T P (p.residueFor env m t) fun rest => R (rest.getD p)

/-- The interceptors for the advisor can be made, and they are of the sort. -/
def Advisor.Intercepts (T : Prop) (P : World σ → Prop) (adapters : AdaptersId)
    (I : Interception → Prop) (a : Advisor) : Prop :=
  Act.Upholds T P (do Adapter.interceptors ((← Act.world).adapterList adapters) a : Act σ _)
    fun made => ∀ x ∈ made, I x.action

/-- Wherever the advice is understood and no adapter refuses it. -/
theorem Advisor.intercepts {a : Advisor}
    (hserial : ∀ w serial, P w → P { w with serial })
    (hsupported : ∀ w, P w → Adapter.anySupports (w.adapterList adapters) a.advice = true)
    (hown : ∀ i, a.advice = .interceptor i → I i.action)
    (hmake : ∀ w, P w → ∀ adapter ∈ w.adapterList adapters, adapter.supports a.advice = true →
      ∃ i, adapter.interception? a.advice = .ok i ∧ I i) : a.Intercepts T P adapters I := by
  refine Run.Upholds.of_exists fun w hw => ?_
  obtain ⟨made, serial, hmade, hall⟩ :=
    Adapter.interceptors_made (hsupported w hw) hown (hmake w hw) w
  exact ⟨.ok made, { w with serial }, hmade, hserial w serial hw, made, rfl, hall⟩

theorem Adapter.number_upholds (hnumber : ∀ w, P w → P { w with serial := w.serial + 1 })
    (actions : List Interception) :
    Run.Upholds T P (number actions) fun made => made.map Interceptor.action = actions := by
  induction actions with
  | nil => exact .pure rfl
  | cons i is ih =>
    rw [number_cons_eq]
    refine .bind (.change _ hnumber) fun id _ => ih.bind fun made hmade => .pure ?_
    rw [List.map_cons, hmade]

/-- Interceptors that are made are at least one, and are for what the adapters make of the
advice. -/
theorem Advisor.interceptors_yields {as : List Adapter} (a : Advisor)
    (hnumber : ∀ w, P w → P { w with serial := w.serial + 1 })
    (hadapters : ∀ w, P w → w.adapterList adapters = as) :
    Act.Yields P (do Adapter.interceptors ((← Act.world).adapterList adapters) a : Act σ _)
      fun made => made ≠ [] ∧ ∃ actions, Adapter.interceptions as a.advice = .ok actions ∧
        made.map Interceptor.action
          = (Adapter.own a.advice).map Interceptor.action ++ actions := by
  have hmade : Act.Yields P (Adapter.interceptors as a : Act σ _) fun made => made ≠ [] ∧
      ∃ actions, Adapter.interceptions as a.advice = .ok actions ∧
        made.map Interceptor.action
          = (Adapter.own a.advice).map Interceptor.action ++ actions := by
    refine .andThen (.ofExcept _) fun actions hactions => ?_
    refine .andThen (.ofRun (Adapter.number_upholds hnumber actions)) fun made hmade => ?_
    show Act.Yields P (if (Adapter.own a.advice ++ made).isEmpty then _
      else pure (Adapter.own a.advice ++ made)) _
    split
    next => exact .fail _
    next hsome =>
      refine .succeed ⟨by simpa using hsome, actions, hactions, ?_⟩
      rw [List.map_append, hmade]
  refine Run.Upholds.locally fun w hw => ⟨_, hmade, ?_⟩
  rw [Act.run_world, hadapters w hw]

/-- The link is for an interceptor of the sort, and so is its pointcut if it has one. -/
def Link.Of (I : Interception → Prop) (R : Pointcut → Prop) : Link → Prop
  | .fixed i => I i.action
  | .dynamic i p => I i.action ∧ R p

theorem Link.Of.interceptor {link : Link} (h : link.Of I R) : I link.interceptor.action := by
  cases link with
  | fixed i => exact h
  | dynamic i p => exact h.1

/-- All links are of the sort. -/
def Link.All (I : Interception → Prop) (R : Pointcut → Prop) (links : List Link) : Prop :=
  ∀ link ∈ links, link.Of I R

namespace Link.All

theorem nil : All I R [] :=
  fun _ h => absurd h List.not_mem_nil

theorem fixed {made : List Interceptor} (h : ∀ i ∈ made, I i.action) :
    All I R (made.map .fixed) := by
  intro link hlink
  obtain ⟨i, hi, rfl⟩ := List.mem_map.mp hlink
  exact h i hi

theorem dynamic {made : List Interceptor} (h : ∀ i ∈ made, I i.action) {p : Pointcut}
    (hp : R p) : All I R (made.map (.dynamic · p)) := by
  intro link hlink
  obtain ⟨i, hi, rfl⟩ := List.mem_map.mp hlink
  exact ⟨h i hi, hp⟩

end Link.All

namespace Chain

/-- A message of the engine. -/
theorem emit_upholds (hevent : ∀ w e, P w → P (w.record (.event e))) (level : Level)
    (message : String) (fields : List (String × String)) :
    Run.Upholds T P (emit level message fields : Run σ Unit) fun _ => True :=
  .change _ fun w hw => hevent w _ hw

/-- An introduction is asked about nothing but the class, and gives links that run on every
call. -/
theorem linksOf_introduction {a : Advisor} (ha : a.isIntroduction = true)
    (hmade : a.Intercepts T P adapters I) :
    Act.Upholds T P (linksOf env adapters a m t) (Link.All I fun _ => False) := by
  unfold linksOf
  rw [if_pos ha]
  exact hmade.andThen fun made h => .succeed (.fixed h)

/-- What is known of the links of each advisor is known of those of all. -/
theorem linksOfAll_upholds_each {Q : Link → Prop} {as : List Advisor}
    (hclass : ∀ a ∈ as, Run.Upholds T P
      (a.pointcut.matchesClass env (t.getD m.declaring)) fun _ => True)
    (hlinks : ∀ a ∈ as, Act.Upholds T P (linksOf env adapters a m t) fun links =>
      ∀ link ∈ links, Q link) (preFiltered : Bool) :
    Act.Upholds T P (linksOfAll env adapters preFiltered m t as) fun links =>
      ∀ link ∈ links, Q link := by
  have hnone : ∀ link ∈ ([] : List Link), Q link := fun _ h => absurd h List.not_mem_nil
  induction as with
  | nil => exact .succeed hnone
  | cons a as ih =>
    have hrest := ih (fun b hb => hclass b (List.mem_cons_of_mem _ hb))
      fun b hb => hlinks b (List.mem_cons_of_mem _ hb)
    have hboth : ∀ {first : Act σ (List Link)},
        Act.Upholds T P first (fun links => ∀ link ∈ links, Q link) →
        Act.Upholds T P (do return (← first) ++ (← linksOfAll env adapters preFiltered m t as))
          fun links => ∀ link ∈ links, Q link :=
      fun h => h.andThen fun _ h₁ => hrest.andThen fun _ h₂ => .succeed fun link hlink =>
        (List.mem_append.mp hlink).elim (h₁ link) (h₂ link)
    have hfirst := hlinks a List.mem_cons_self
    refine .branch _ (.andThen (.succeed (Q := fun _ => True) trivial) fun passed _ => ?_)
      (.andThen (.ofRun (hclass a List.mem_cons_self)) fun passed _ => ?_)
    all_goals exact .branch _ (hboth hfirst) (hboth (.succeed hnone))

variable (hevent : ∀ w e, P w → P (w.record (.event e)))
include hevent

theorem linksOf_upholds {a : Advisor} (hasks : a.pointcut.Consults T P R env m t)
    (hmade : a.Intercepts T P adapters I) :
    Act.Upholds T P (linksOf env adapters a m t) (Link.All I R) := by
  refine .branch _ (hmade.andThen fun made h => .succeed (.fixed h)) ?_
  refine .andThen (.ofRun hasks.matchesMethod) fun o _ => ?_
  match o with
  | .ok .always => exact hmade.andThen fun made h => .succeed (.fixed h)
  | .ok .maybe =>
    refine .andThen (.ofRun hasks.residueFor) fun rest hrest => ?_
    exact hmade.andThen fun made h => .succeed (.dynamic h hrest)
  | .ok .never => exact .succeed .nil
  | .error f => exact .andThen (.ofRun (emit_upholds hevent ..)) fun _ _ => .succeed .nil

theorem standard_upholds_each {Q : Link → Prop} {as : List Advisor}
    (hclass : ∀ a ∈ as, Run.Upholds T P
      (a.pointcut.matchesClass env (t.getD m.declaring)) fun _ => True)
    (hlinks : ∀ a ∈ as, Act.Upholds T P (linksOf env adapters a m t) fun links =>
      ∀ link ∈ links, Q link) (preFiltered : Bool) :
    Act.Upholds T P (standard env adapters as preFiltered m t) fun links =>
      ∀ link ∈ links, Q link := by
  refine (linksOfAll_upholds_each hclass hlinks preFiltered).andThen fun links h => ?_
  exact .andThen (.ofRun (emit_upholds hevent ..)) fun _ _ => .succeed h

theorem standard_upholds {as : List Advisor}
    (hasks : ∀ a ∈ as, a.pointcut.Consults T P R env m t)
    (hmade : ∀ a ∈ as, a.Intercepts T P adapters I) (preFiltered : Bool) :
    Act.Upholds T P (standard env adapters as preFiltered m t) (Link.All I R) :=
  standard_upholds_each hevent (fun a ha => (hasks a ha).matchesClass)
    (fun a ha => linksOf_upholds hevent (hasks a ha) (hmade a ha)) preFiltered

end Chain

namespace Configuration

variable {id : ConfigId}

/-- A configuration whose chains are made from its advisors, by what each of them gives. -/
theorem makeLinks_upholds_each (hevent : ∀ w e, P w → P (w.record (.event e)))
    {c : Configuration} (hmaker : c.chainMaker = .standard adapters) {Q : Link → Prop}
    (hclass : ∀ a ∈ c.advisors, Run.Upholds T P
      (a.pointcut.matchesClass env (t.getD m.declaring)) fun _ => True)
    (hlinks : ∀ a ∈ c.advisors, Act.Upholds T P (Chain.linksOf env adapters a m t)
      fun links => ∀ link ∈ links, Q link) :
    Act.Upholds T P (makeLinks env c m t) fun links => ∀ link ∈ links, Q link := by
  unfold makeLinks
  rw [hmaker]
  exact Chain.standard_upholds_each hevent hclass hlinks c.preFiltered

/-- The same by what is known of the pointcuts and of the advice. -/
theorem makeLinks_upholds (hevent : ∀ w e, P w → P (w.record (.event e))) {c : Configuration}
    (hmaker : c.chainMaker = .standard adapters)
    (hasks : ∀ a ∈ c.advisors, a.pointcut.Consults T P R env m t)
    (hmade : ∀ a ∈ c.advisors, a.Intercepts T P adapters I) :
    Act.Upholds T P (makeLinks env c m t) (Link.All I R) := by
  unfold makeLinks
  rw [hmaker]
  exact Chain.standard_upholds hevent hasks hmade c.preFiltered

/-- Looking a chain up in a world of the kind, if a chain in the cache is of the sort
already, and if the kind of worlds is kept when one more is put there. -/
theorem chainFor_from (hevent : ∀ w e, P w → P (w.record (.event e)))
    (hkeep : ∀ w q generation links, P w → Link.All I R links →
      P (w.keepChain id q generation links)) {w : World σ} (hw : P w)
    (hcached : ∀ chain, (w.config id).cached? m.key = some chain → Link.All I R chain.links)
    (hmake : Act.Upholds T P (makeLinks env (w.config id) m t) (Link.All I R)) :
    (∀ o w', (chainFor env id m t).run w = some (o, w') →
      P w' ∧ ∃ chain, o = .ok chain ∧ Link.All I R chain.links) ∧
    (T → ∃ o w', (chainFor env id m t).run w = some (o, w')) := by
  cases hc : (w.config id).cached? m.key with
  | some chain =>
    rw [chainFor_hit env t hc]
    refine ⟨fun o w' ho => ?_, fun _ => ⟨_, _, rfl⟩⟩
    cases ho
    exact ⟨hevent w _ hw, chain, rfl, hcached chain hc⟩
  | none =>
    rw [chainFor_miss env t hc]
    refine ⟨fun o w' ho => ?_, fun hT => ?_⟩
    · obtain ⟨⟨found, w₁⟩, hmade, hk⟩ := Option.map_eq_some_iff.mp ho
      obtain ⟨hw₁, links, rfl, hlinks⟩ := hmake.yields w hw found w₁ hmade
      cases hk
      exact ⟨hkeep w₁ _ _ links hw₁ hlinks, _, rfl, hlinks⟩
    · obtain ⟨found, w₁, hmade⟩ := hmake.answers hT w hw
      rw [hmade]
      exact ⟨_, _, rfl⟩

/-- The same in all worlds of the kind. -/
theorem chainFor_upholds (hevent : ∀ w e, P w → P (w.record (.event e)))
    (hkeep : ∀ w q generation links, P w → Link.All I R links →
      P (w.keepChain id q generation links))
    (hcached : ∀ w, P w → ∀ chain, (w.config id).cached? m.key = some chain →
      Link.All I R chain.links)
    (hmake : ∀ w, P w → Act.Upholds T P (makeLinks env (w.config id) m t) (Link.All I R)) :
    Act.Upholds T P (chainFor env id m t) fun chain => Link.All I R chain.links where
  yields w hw := (chainFor_from hevent hkeep hw (hcached w hw) (hmake w hw)).1
  answers hT w hw := (chainFor_from hevent hkeep hw (hcached w hw) (hmake w hw)).2 hT

end Configuration

end Aspects
