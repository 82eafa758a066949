import Aspects.Proofs.Proceeding.Exhaustion
import Aspects.Proofs.Steps.Proxies

/-!
# Commands run past the end of no chain

No operation of the library fails as a call does that has run past the end of its chain,
as long as user code does not make that failure up. By induction on the room for nested
commands the same goes for the whole engine (`Engine.env_neverExhausted`).
-/

namespace Aspects

variable {σ : Type} {α β : Type} {ε : Type}

namespace FailsOnly

variable {P : ε → Prop}

theorem succeed (a : α) : FailsOnly (σ := σ) P (pure a) := by
  intro w e w' h
  cases h

theorem fail {e : ε} (he : P e) : FailsOnly P (throw e : ExceptT ε (Run σ) α) := by
  intro w e' w' h
  cases h
  exact he

theorem andThen {a : ExceptT ε (Run σ) α} {k : α → ExceptT ε (Run σ) β}
    (ha : FailsOnly P a) (hk : ∀ x, FailsOnly P (k x)) : FailsOnly P (a >>= k) := by
  intro w e w' h
  rw [ExceptT.run_bind] at h
  obtain ⟨⟨o, w₁⟩, hr, hrest⟩ := Option.bind_eq_some_iff.mp h
  cases o with
  | ok x => exact hk x w₁ e w' hrest
  | error e₁ =>
    cases hrest
    exact ha w e w' hr

theorem branch (c : Prop) [Decidable c] {a a' : ExceptT ε (Run σ) α} (h : FailsOnly P a)
    (h' : FailsOnly P a') : FailsOnly P (if c then a else a') := by
  split
  · exact h
  · exact h'

theorem lift (r : Run σ α) : FailsOnly P (ExceptT.lift r : ExceptT ε (Run σ) α) := by
  intro w e w' h
  obtain ⟨⟨x, w₁⟩, hr, hrest⟩ := Option.bind_eq_some_iff.mp h
  cases hrest

end FailsOnly

namespace FailsOnly

variable {P : Failure → Prop}

theorem ofRun (r : Run σ α) : FailsOnly P (Act.ofRun r) :=
  lift r

theorem fault {f : Fault} (hf : P (.fault f)) : FailsOnly P (Act.fail f : Act σ α) :=
  fail hf

theorem ofExcept {o : Except Fault α} (ho : ∀ f, o = .error f → P (.fault f)) :
    FailsOnly P (Act.ofExcept o : Act σ α) := by
  cases o with
  | ok a => exact succeed a
  | error f => exact fault (ho f rfl)

/-- What comes after a run may use that it is what the run answered. -/
theorem running {r : Run σ α} {k : α → Act σ β}
    (hk : ∀ w x w', r w = some (x, w') → FailsOnly P (k x)) :
    FailsOnly P (Act.ofRun r >>= k) := by
  intro w e w' h
  rw [Act.run_ofRun] at h
  obtain ⟨⟨x, w₁⟩, hr, hrest⟩ := Option.bind_eq_some_iff.mp h
  exact hk w x w₁ hr w₁ e w' hrest

/-- An outcome that was looked at may be passed on. -/
theorem attempting {a : Act σ α} {k : Outcome α → Act σ β} (ha : FailsOnly P a)
    (hk : ∀ o, (∀ e, o = .error e → P e) → FailsOnly P (k o)) :
    FailsOnly P (a.attempt >>= k) := by
  refine running fun w o w' h => hk o ?_
  rintro e rfl
  exact ha w e w' h

/-- What the answer to a command may be, if it is the outcome of the act. -/
theorem answer {a : Act σ α} (ha : FailsOnly P a) {w w' : World σ} {o : Outcome α}
    (h : a.run w = some (o, w')) : ∀ e, o.failure? = some e → P e := by
  intro e he
  cases o with
  | ok x => cases he
  | error e₁ =>
    cases he
    exact ha w e w' h

end FailsOnly

/-! ## Pointcuts and adapters -/

/-- What an expression cannot be resolved for is a text of user code. -/
theorem Expr.resolve_failsOnly (ask : Routine → Method → TypeDesc → Run σ (Except String Bool))
    (m : Method) (t : TypeDesc) (e : Expr) :
    FailsOnly (fun f : Fault => f.isExhaustion = false) (e.resolve ask m t) := by
  induction e with
  | custom test =>
    refine .andThen (.lift _) fun o => ?_
    cases o with
    | ok b => exact .succeed _
    | error text => exact .fail rfl
  | and a b iha ihb =>
    refine .andThen iha fun left => ?_
    exact .branch _ (.succeed _) (.andThen ihb fun _ => .succeed _)
  | or a b iha ihb =>
    refine .andThen iha fun left => ?_
    exact .branch _ (.succeed _) (.andThen ihb fun _ => .succeed _)
  | not a iha => exact .andThen iha fun _ => .succeed _
  | _ => exact .succeed _

namespace Adapter

theorem interception_not_exhaustion (adapter : Adapter) (a : Advice) {f : Fault}
    (h : adapter.interception? a = .error f) : f.isExhaustion = false := by
  unfold interception? at h
  split at h <;> cases h <;> rfl

theorem mapM_error {l : List Adapter} {a : Advice} {f : Fault}
    (h : l.mapM (·.interception? a) = .error f) : f.isExhaustion = false := by
  induction l with
  | nil => cases h
  | cons adapter rest ih =>
    rw [List.mapM_cons] at h
    cases hfirst : adapter.interception? a with
    | error f₁ =>
      rw [hfirst] at h
      cases h
      exact interception_not_exhaustion adapter a hfirst
    | ok i =>
      rw [hfirst] at h
      cases hrest : rest.mapM (·.interception? a) with
      | error f₁ =>
        rw [hrest] at h
        cases h
        exact ih hrest
      | ok is =>
        rw [hrest] at h
        cases h

theorem interceptors_neverExhausted (adapters : List Adapter) (a : Advisor) :
    (interceptors adapters a : Act σ _).NeverExhausted := by
  refine .andThen (.ofExcept fun f h => mapM_error h) fun actions => ?_
  refine .andThen (.ofRun _) fun made => ?_
  exact .branch _ (.fault rfl) (.succeed _)

end Adapter

/-! ## Edits -/

/-- Whatever the edit refuses is no such fault. -/
def Edit.NeverExhausted (e : Edit α) : Prop :=
  ∀ l f, e l = .error f → f.isExhaustion = false

namespace Layout

theorem insert_neverExhausted (place : Option Nat) (a : Advisor) :
    Edit.NeverExhausted (insert place a) := by
  intro l f h
  unfold insert at h
  dsimp only at h
  split at h <;> cases h
  rfl

theorem removeFound_neverExhausted (place : Layout → Option Nat) :
    Edit.NeverExhausted fun l => removeFound (place l) l := by
  intro l f h
  dsimp only [removeFound] at h
  split at h
  · cases h
  · split at h <;> cases h

theorem removeAt_neverExhausted (place : Nat) : Edit.NeverExhausted (removeAt place) := by
  intro l f h
  unfold removeAt at h
  split at h <;> cases h
  rfl

theorem replace_neverExhausted (old new : Advisor) :
    Edit.NeverExhausted (replace old new) := by
  intro l f h
  unfold replace at h
  split at h
  · cases h
  · split at h <;> cases h

theorem addInterface_neverExhausted (t : TypeDesc) :
    Edit.NeverExhausted (addInterface t) := by
  intro l f h
  unfold addInterface at h
  split at h <;> cases h

theorem removeInterface_neverExhausted (t : TypeDesc) :
    Edit.NeverExhausted (removeInterface t) := by
  intro l f h
  unfold removeInterface at h
  split at h <;> cases h

end Layout

namespace Configuration

theorem refusal_not_exhaustion {adapters : List Adapter} {a : Advisor} {f : Fault}
    (h : refusal? adapters a = some f) : f.isExhaustion = false := by
  unfold refusal? at h
  split at h
  · cases h
    rfl
  · obtain ⟨t, _, rfl⟩ := Option.map_eq_some_iff.mp h
    rfl

theorem read_neverExhausted (id : ConfigId) : (read id : Act σ _).NeverExhausted :=
  .andThen (.ofRun _) fun _ => .succeed _

theorem edit_neverExhausted (env : Env σ) (id : ConfigId) (action : String) {e : Edit α}
    (he : Edit.NeverExhausted e) : (edit env id action e).NeverExhausted := by
  refine .andThen (read_neverExhausted id) fun c => .branch _ (.fault rfl) ?_
  refine .andThen (.ofExcept (he _)) fun r => ?_
  obtain ⟨answer, changed⟩ := r
  cases changed with
  | none => exact .succeed _
  | some l =>
    refine .andThen (.ofRun _) fun _ => .andThen (.ofRun _) fun _ => ?_
    exact .andThen (.ofRun _) fun _ => .succeed _

theorem screen_neverExhausted (id : ConfigId) (a : Advisor) :
    (screen id a : Act σ Unit).NeverExhausted := by
  refine .andThen (.ofRun _) fun w => ?_
  split
  next f hf => exact .fault (refusal_not_exhaustion hf)
  next => exact .succeed _

theorem addAdvisor_neverExhausted (env : Env σ) (id : ConfigId) (place : Option Nat)
    (a : Advisor) : (addAdvisor env id place a).NeverExhausted :=
  .andThen (screen_neverExhausted id a) fun _ =>
    edit_neverExhausted env id _ (Layout.insert_neverExhausted place a)

theorem replaceAdvisor_neverExhausted (env : Env σ) (id : ConfigId) (old new : Advisor) :
    (replaceAdvisor env id old new).NeverExhausted :=
  .andThen (screen_neverExhausted id new) fun _ =>
    edit_neverExhausted env id _ (Layout.replace_neverExhausted old new)

theorem addAdvice_neverExhausted (env : Env σ) (id : ConfigId) (place : Option Nat)
    (a : Advice) : (addAdvice env id place a).NeverExhausted := by
  refine .andThen (.ofRun _) fun w => .branch _ ?_ (.fault rfl)
  exact .andThen (.ofRun _) fun _ => addAdvisor_neverExhausted env id place _

theorem addInterface_neverExhausted (env : Env σ) (id : ConfigId) (t : TypeDesc) :
    (addInterface env id t).NeverExhausted :=
  .branch _ (edit_neverExhausted env id _ (Layout.addInterface_neverExhausted t)) (.fault rfl)

theorem setFrozen_neverExhausted (id : ConfigId) (b : Bool) :
    (setFrozen id b : Act σ Unit).NeverExhausted :=
  .andThen (read_neverExhausted id) fun _ => .branch _ (.fault rfl) (.ofRun _)

theorem setFlags_neverExhausted (id : ConfigId) (f : Flags) :
    (setFlags id f : Act σ Unit).NeverExhausted :=
  .andThen (read_neverExhausted id) fun _ => .branch _ (.fault rfl) (.ofRun _)

end Configuration

/-! ## Operations that run user code -/

section Operations

variable {env : Env σ} (henv : env.NeverExhausted)
include henv

theorem Pointcut.matchesMethod_neverExhausted (p : Pointcut) (m : Method)
    (t : Option TypeDesc) : (p.matchesMethod env m t).NeverExhausted := by
  cases p with
  | all => exact .succeed _
  | expr e =>
    refine .running fun w o w' h => ?_
    refine .andThen (.ofExcept fun f hf => ?_) fun _ => .succeed _
    rw [hf] at h
    exact e.resolve_failsOnly _ m _ w f w' h
  | memo id e source => exact .andThen (.ofRun _) fun _ => .succeed _
  | residue r => exact .succeed _
  | user label body => exact henv.matchesMethod body m t

namespace Source

theorem acquire_neverExhausted (id : SourceId) : (acquire env id).NeverExhausted := by
  refine .andThen (.ofRun _) fun w => ?_
  cases w.source id with
  | empty t => exact .succeed _
  | singleton o => exact .succeed _
  | swappable o => exact .succeed _
  | prototype t factory => exact .andThen (henv.create factory) fun _ => .succeed _
  | user label t fixed body => exact henv.acquire body
  | pooled t factory givesUp pool =>
    dsimp only
    cases pool.offer with
    | target o left => exact .andThen (.ofRun _) fun _ => .succeed _
    | place left =>
      refine .andThen (.ofRun _) fun _ => ?_
      refine .attempting (henv.create factory) fun outcome ho => ?_
      cases outcome with
      | ok o => exact .succeed _
      | error e => exact .andThen (.ofRun _) fun _ => .fail (ho e rfl)
    | nothing => exact .branch _ (.fault rfl) (.ofRun _)

theorem release_neverExhausted (id : SourceId) (o : Object) :
    (release env id o).NeverExhausted := by
  refine .andThen (.ofRun _) fun w => ?_
  cases w.source id with
  | prototype t factory => exact .ofRun _
  | pooled t factory givesUp pool => exact .ofRun _
  | user label t fixed body => exact henv.release body o
  | _ => exact .succeed _

omit henv in
theorem swap_neverExhausted (id : SourceId) (new : Object) :
    (swap id new : Act σ Object).NeverExhausted := by
  refine .andThen (.ofRun _) fun w => ?_
  cases w.source id with
  | swappable old =>
    refine .branch _ ?_ (.fault rfl)
    exact .andThen (.ofRun _) fun _ => .andThen (.ofRun _) fun _ => .succeed _
  | _ => exact .fault rfl

end Source

namespace Chain

theorem linksOf_neverExhausted (adapters : AdaptersId) (a : Advisor) (m : Method)
    (t : Option TypeDesc) : (linksOf env adapters a m t).NeverExhausted := by
  have hmade : (do Adapter.interceptors ((← Act.world).adapterList adapters) a :
      Act σ _).NeverExhausted :=
    .andThen (.ofRun _) fun _ => Adapter.interceptors_neverExhausted _ a
  refine .branch _ (.andThen hmade fun _ => .succeed _) ?_
  refine .attempting (a.pointcut.matchesMethod_neverExhausted henv m t) fun o _ => ?_
  match o with
  | .ok .always => exact .andThen hmade fun _ => .succeed _
  | .ok .maybe => exact .andThen (.ofRun _) fun _ => .andThen hmade fun _ => .succeed _
  | .ok .never => exact .succeed _
  | .error f => exact .andThen (.ofRun _) fun _ => .succeed _

theorem linksOfAll_neverExhausted (adapters : AdaptersId) (preFiltered : Bool) (m : Method)
    (t : Option TypeDesc) (as : List Advisor) :
    (linksOfAll env adapters preFiltered m t as).NeverExhausted := by
  induction as with
  | nil => exact .succeed _
  | cons a as ih =>
    have hrest {links : Act σ (List Link)} (h : links.NeverExhausted) :
        (do return (← links) ++
          (← linksOfAll env adapters preFiltered m t as) : Act σ _).NeverExhausted :=
      .andThen h fun _ => .andThen ih fun _ => .succeed _
    refine .branch _ (.andThen (.succeed true) fun passed => ?_)
      (.andThen (.ofRun _) fun passed => ?_)
    all_goals
      exact .branch _ (hrest (linksOf_neverExhausted henv adapters a m t)) (hrest (.succeed _))

theorem standard_neverExhausted (adapters : AdaptersId) (advisors : List Advisor)
    (preFiltered : Bool) (m : Method) (t : Option TypeDesc) :
    (standard env adapters advisors preFiltered m t).NeverExhausted :=
  .andThen (linksOfAll_neverExhausted henv adapters preFiltered m t advisors) fun _ =>
    .andThen (.ofRun _) fun _ => .succeed _

end Chain

theorem Configuration.chainFor_neverExhausted (id : ConfigId) (m : Method)
    (t : Option TypeDesc) : (chainFor env id m t).NeverExhausted := by
  refine .andThen (read_neverExhausted id) fun c => ?_
  cases c.cached? m.key with
  | some chain => exact .andThen (.ofRun _) fun _ => .succeed _
  | none =>
    have hmade : (makeLinks env c m t).NeverExhausted := by
      unfold makeLinks
      split
      · exact Chain.standard_neverExhausted henv _ _ _ m t
      · exact henv.makeChain _ _ _ m t
    refine .andThen hmade fun links => .andThen (.ofRun _) fun number => ?_
    exact .andThen (.ofRun _) fun _ => .succeed _

namespace Proxy

omit henv in
theorem settle_not_exhaustion {proxy : Object} {target : Option Object} {m : Method}
    {v : Value} {f : Fault} (h : settle proxy target m v = .error f) :
    f.isExhaustion = false := by
  unfold settle at h
  split at h
  · split at h <;> cases h
  · split at h <;> cases h
    rfl

omit henv in
theorem create_neverExhausted (id : ConfigId) : (create id : Act σ Object).NeverExhausted := by
  refine .andThen (.ofRun _) fun w => .branch _ (.fault rfl) ?_
  refine .andThen (.ofExcept fun f h => ?_) fun strategy => ?_
  · unfold chooseStrategy at h
    split at h
    · split at h <;> cases h
      rfl
    · cases h
  · refine .andThen (.ofRun _) fun _ => .andThen (.ofRun _) fun _ => ?_
    exact .andThen (.ofRun _) fun _ => .succeed _

theorem get_neverExhausted (id : ConfigId) (maker : ProxyMaker) :
    (get env id maker).NeverExhausted := by
  refine .andThen (.ofRun _) fun _ => ?_
  cases maker with
  | standard => exact create_neverExhausted id
  | user body => exact henv.makeProxy body id

theorem callOn_neverExhausted (proxy : Object) (id : ConfigId) (s : SourceId)
    (target : Option Object) (m : Method) (args : List Value) :
    (callOn env proxy id s target m args).NeverExhausted := by
  refine .andThen (.ofRun _) fun w => ?_
  refine .andThen (Configuration.chainFor_neverExhausted henv id m _) fun chain => ?_
  have hsettled (v : Value) :
      (Act.ofExcept (settle proxy target m v) : Act σ _).NeverExhausted :=
    .ofExcept fun f => settle_not_exhaustion
  cases chain.links with
  | nil => exact .andThen (reachTarget_neverExhausted henv target m args) hsettled
  | cons link links =>
    refine .andThen (fun w e w' h => ?_) hsettled
    -- the call begins at the first link, so in a place of its chain
    obtain ⟨⟨⟨o, v'⟩, w₁⟩, hr, hk⟩ := Option.bind_eq_some_iff.mp h
    cases hk
    exact run_neverExhausted henv (Nat.zero_le _) hr

omit henv in
/-- Giving a target back changes nothing about how the act fails. -/
theorem returning_neverExhausted (s : SourceId) (target : Option Object) {a : Act σ α}
    (ha : a.NeverExhausted) : (returning env s target a).NeverExhausted := by
  intro w e w' h
  by_cases hstatic : target = none ∨ (w.source s).isStatic = true
  · rw [returning_static env s target a w hstatic] at h
    exact ha w e w' h
  · obtain ⟨hsome, hdynamic⟩ := not_or.mp hstatic
    obtain ⟨o, rfl⟩ := Option.ne_none_iff_exists'.mp hsome
    rw [Bool.not_eq_true] at hdynamic
    rw [returning_dynamic env s o a w hdynamic] at h
    obtain ⟨⟨outcome, w₁⟩, hr, hk⟩ := Option.bind_eq_some_iff.mp h
    obtain ⟨⟨_, w₂⟩, _, hk₂⟩ := Option.map_eq_some_iff.mp hk
    cases hk₂
    exact ha _ e w₁ hr

theorem call_neverExhausted (proxy : Object) (id : ConfigId) (m : Method)
    (args : List Value) : (call env proxy id m args).NeverExhausted := by
  have hthrough : (callThrough env proxy id m args).NeverExhausted := by
    refine .andThen (Configuration.read_neverExhausted id) fun c => ?_
    refine .andThen (Source.acquire_neverExhausted henv _) fun target => ?_
    exact returning_neverExhausted _ _ (callOn_neverExhausted henv proxy id _ _ m args)
  refine .andThen (Configuration.read_neverExhausted id) fun c => .branch _ ?_ hthrough
  intro w e w' h
  rw [run_exposing] at h
  obtain ⟨⟨outcome, w₁⟩, hr, hk⟩ := Option.map_eq_some_iff.mp h
  cases hk
  exact hthrough _ e w₁ hr

end Proxy

namespace AutoProxy

omit henv in
theorem addAll_neverExhausted (id : ConfigId) (as : List Advisor) :
    (addAll env id as).NeverExhausted := by
  induction as with
  | nil => exact .succeed _
  | cons a as ih =>
    exact .andThen (Configuration.addAdvisor_neverExhausted env id none a) fun _ => ih

theorem wrap_neverExhausted (enabled : Bool) (id : CatalogueId) (f : Flags) (name : String)
    (o : Object) : (wrap env enabled id f name o).NeverExhausted := by
  refine .branch _ (.succeed _) (.andThen (.ofRun _) fun as => ?_)
  refine .branch _ (.andThen (.ofRun _) fun _ => .succeed _) (.andThen (.ofRun _) fun _ => ?_)
  -- the configuration is made, filled and perhaps frozen, and then asked for a proxy
  refine .andThen (.ofRun _) fun c => .andThen (.ofRun _) fun _ => ?_
  refine .andThen (addAll_neverExhausted c as) fun _ => .andThen (.ofRun _) fun _ => ?_
  refine .branch _ (.andThen (.ofRun _) fun _ => ?_) ?_
  all_goals exact Proxy.get_neverExhausted henv c .standard

end AutoProxy

end Operations

/-! ## The engine -/

namespace Engine

theorem callTarget_neverExhausted {env : Env σ} (henv : env.NeverExhausted)
    (target : Option Object) (m : Method) (args : List Value) :
    (callTarget env target m args).NeverExhausted := by
  cases target with
  | none => exact reachTarget_neverExhausted henv none m args
  | some o =>
    dsimp only [callTarget]
    split
    · exact Proxy.call_neverExhausted henv o _ m args
    · exact runMethod_neverExhausted henv o m args

/-- No command is answered with such a failure if none is that user code issues in
turn. -/
theorem meaning_neverExhausted {env : Env σ} (henv : env.NeverExhausted) {β : Type}
    (c : Command σ β) (hc : c.InChain) {w w' : World σ} {b : β}
    (h : meaning env c w = some (b, w')) :
    ∀ e, c.failure? b = some e → e.isExhaustion = false := by
  cases c with
  | call target m args => exact FailsOnly.answer (callTarget_neverExhausted henv target m args) h
  | matchesMethod p m t => exact FailsOnly.answer (p.matchesMethod_neverExhausted henv m t) h
  | resolve e m t =>
    obtain ⟨⟨o, _⟩, hr, hk⟩ := Option.bind_eq_some_iff.mp h
    cases o with
    | ok r =>
      cases hk
      intro e' he'
      cases he'
    | error f =>
      cases hk
      intro e' he'
      cases he'
      exact e.resolve_failsOnly _ m t w f _ hr
  | interceptors a advisor =>
    exact FailsOnly.answer (Adapter.interceptors_neverExhausted (w.adapterList a) advisor) h
  | acquire s => exact FailsOnly.answer (Source.acquire_neverExhausted henv s) h
  | release s o => exact FailsOnly.answer (Source.release_neverExhausted henv s o) h
  | swap s o => exact FailsOnly.answer (Source.swap_neverExhausted s o) h
  | addAdvisor c place a =>
    exact FailsOnly.answer (Configuration.addAdvisor_neverExhausted env c place a) h
  | removeAdvisor c a =>
    exact FailsOnly.answer (Configuration.edit_neverExhausted env c _
      (Layout.removeFound_neverExhausted (·.placeOf a))) h
  | removeAdvisorAt c place =>
    exact FailsOnly.answer (Configuration.edit_neverExhausted env c _
      (Layout.removeAt_neverExhausted place)) h
  | replaceAdvisor c old new =>
    exact FailsOnly.answer (Configuration.replaceAdvisor_neverExhausted env c old new) h
  | addAdvice c place a =>
    exact FailsOnly.answer (Configuration.addAdvice_neverExhausted env c place a) h
  | removeAdvice c a =>
    exact FailsOnly.answer (Configuration.edit_neverExhausted env c _
      (Layout.removeFound_neverExhausted (·.placeOfAdvice a))) h
  | addInterface c t => exact FailsOnly.answer (Configuration.addInterface_neverExhausted env c t) h
  | removeInterface c t =>
    exact FailsOnly.answer (Configuration.edit_neverExhausted env c _
      (Layout.removeInterface_neverExhausted t)) h
  | setFrozen c frozen =>
    exact FailsOnly.answer (Configuration.setFrozen_neverExhausted c frozen) h
  | setFlags c f => exact FailsOnly.answer (Configuration.setFlags_neverExhausted c f) h
  | chain c m t => exact FailsOnly.answer (Configuration.chainFor_neverExhausted henv c m t) h
  | standardChain a as preFiltered m t =>
    exact FailsOnly.answer (Chain.standard_neverExhausted henv a as preFiltered m t) h
  | getProxy c maker => exact FailsOnly.answer (Proxy.get_neverExhausted henv c maker) h
  | standardProxy c => exact FailsOnly.answer (Proxy.create_neverExhausted c) h
  | proceed v =>
    obtain ⟨o, v'⟩ := b
    intro e he
    cases o with
    | ok value => cases he
    | error e₁ =>
      cases he
      exact run_neverExhausted henv hc h
  | wrap enabled c f name o =>
    exact FailsOnly.answer (AutoProxy.wrap_neverExhausted henv enabled c f name o) h
  | _ =>
    intro e he
    cases he

/-- The engine never answers or passes on such a failure if user code is honest. -/
theorem env_neverExhausted {code : Code σ} (hcode : code.Honest) (room : Nat) :
    (env code room).NeverExhausted := by
  induction room with
  | zero =>
    refine hcode _ rfl fun c _ w b w' h => ?_
    cases h
  | succ room ih =>
    refine hcode _ rfl fun c hc w b w' h => ?_
    exact meaning_neverExhausted ih c hc h

end Engine

end Aspects
