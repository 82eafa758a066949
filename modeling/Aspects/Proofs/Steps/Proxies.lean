import Aspects.Proofs.Steps.Calls
import Aspects.Proofs.Steps.Configurations
import Aspects.AutoProxy

/-!
# Proxies and catalogues track

A call to a proxy is a bracket twice over: the proxy is current while the call goes on,
and the target that it got is lent to it. A trail gets past either bracket as a whole,
whatever the call does inside and however it ends.
-/

namespace Aspects

variable {σ : Type} {α : Type} {code : Code σ} {τ : Trail code} {env env' : Env σ}

namespace Proxy

/-! ## Making proxies -/

theorem create_tracks (id : ConfigId) :
    Tracks τ (create id : Act σ Object).run (create id).run := by
  refine .andThen .world fun w => ?_
  refine .branchAct _ (.fail _) ?_
  refine .andThen (.ofExcept _) fun strategy => ?_
  refine .andThen (.updateAct fun w => .of_eq (.proxy w) rfl rfl) fun _ => ?_
  refine .andThen (.ofRun (.emit _ _ _)) fun _ => ?_
  exact .andThen (.ofRun .freshId) fun _ => .succeed _

/-- A proxy is made where the trail gets past waking its configuration up. -/
theorem get_tracks_of_activate (henv : env.Tracks τ env') (id : ConfigId) (maker : ProxyMaker)
    (hactivate : Tracks τ (Configuration.activate env id) (Configuration.activate env' id)) :
    Tracks τ (get env id maker).run (get env' id maker).run := by
  refine .andThen (.ofRun hactivate) fun _ => ?_
  cases maker with
  | standard => exact create_tracks id
  | user body => exact henv.exec fun c => c.makeProxy body id

theorem get_tracks (henv : env.Tracks τ env') (htells : τ.Tells env env') (id : ConfigId)
    (maker : ProxyMaker) : Tracks τ (get env id maker).run (get env' id maker).run :=
  get_tracks_of_activate henv id maker (htells.activate id)

/-! ## The two brackets -/

/-- The act runs with the proxy current, and what was current before is so again. -/
theorem run_exposing (proxy : Object) (a : Act σ α) (w : World σ) :
    (exposing proxy a).run w
      = (a.run { w with current := some proxy }).map fun (o, w') =>
          (o, { w' with current := w.current }) := by
  show (a.run { w with current := some proxy }).bind _ = _
  cases a.run { w with current := some proxy } with
  | none => rfl
  | some r => rfl

theorem exposing_tracks (hexposes : τ.Exposes) (proxy : Object) {a a' : Act σ α}
    (h : Tracks τ a.run a'.run) :
    Tracks τ (exposing proxy a).run (exposing proxy a').run := by
  intro w hw
  have ha := h _ (hexposes.exposing proxy hw)
  constructor
  · rw [run_exposing, run_exposing, ha.same]
  · intro o w' ho
    rw [run_exposing] at ho
    obtain ⟨⟨o₁, w₁⟩, hr, hk⟩ := Option.map_eq_some_iff.mp ho
    cases hk
    exact hexposes.expose proxy (ha.leads _ _ hr)

/-- What is done with a target that came back, once that was written down. -/
def putBack (env : Env σ) (s : SourceId) (o : Object) : Run σ Unit := do
  match ← (Source.release env s o).run with
  | .ok _ => return ()
  | .error e =>
    emit .warn "Failed to release target"
      [("source", ((← MonadState.get).source s).inspect), ("error", e.display)]

theorem putBack_tracks (henv : env.Tracks τ env') (s : SourceId) (o : Object) :
    Tracks τ (putBack env s o) (putBack env' s o) := by
  refine .bind (Source.release_tracks henv s o) fun outcome => ?_
  cases outcome with
  | ok _ => exact .pure _
  | error e => exact .bind .look fun _ => .emit _ _ _

/-- Without a target, or with one from a static source, nothing is given back. -/
theorem returning_static (env : Env σ) (s : SourceId) (target : Option Object)
    (a : Act σ α) (w : World σ) (h : target = none ∨ (w.source s).isStatic = true) :
    (returning env s target a).run w = a.run w := by
  unfold returning
  rw [Act.run_world]
  rcases h with rfl | h
  · rfl
  · simp only [h]

/-- Any other target is, whatever the outcome of the act. -/
theorem returning_dynamic (env : Env σ) (s : SourceId) (o : Object) (a : Act σ α)
    (w : World σ) (h : (w.source s).isStatic = false) :
    (returning env s (some o) a).run w
      = (a.run (w.record (.acquired s o))).bind fun (outcome, w₁) =>
          (putBack env s o (w₁.record (.released s o))).map fun (_, w₂) =>
            (outcome, w₂) := by
  unfold returning
  rw [Act.run_world]
  simp only [h]
  show (a.run (w.record (.acquired s o))).bind _ = _
  refine Option.bind_congr fun r _ => ?_
  show (putBack env s o (r.2.record (.released s o))).bind _ = _
  cases putBack env s o (r.2.record (.released s o)) with
  | none => rfl
  | some r' => rfl

/-- Acts that do the same, with the loan written down and without. -/
theorem returning_congr {env : Env σ} {s : SourceId} {target : Option Object}
    {a a' : Act σ α} {w : World σ} (h : a.run w = a'.run w)
    (hlent : ∀ o, a.run (w.record (.acquired s o)) = a'.run (w.record (.acquired s o))) :
    (returning env s target a).run w = (returning env s target a').run w := by
  by_cases hstatic : target = none ∨ (w.source s).isStatic = true
  · rw [returning_static _ s target _ w hstatic, returning_static _ s target _ w hstatic]
    exact h
  · obtain ⟨hsome, hdynamic⟩ := not_or.mp hstatic
    obtain ⟨o, rfl⟩ := Option.ne_none_iff_exists'.mp hsome
    rw [Bool.not_eq_true] at hdynamic
    rw [returning_dynamic _ s o _ w hdynamic, returning_dynamic _ s o _ w hdynamic, hlent]

theorem returning_tracks (henv : env.Tracks τ env') (s : SourceId) (target : Option Object)
    {a a' : Act σ α} (h : Tracks τ a.run a'.run) :
    Tracks τ (returning env s target a).run (returning env' s target a').run := by
  intro w hw
  -- whether a target is given back is decided before the act, in `w`
  by_cases hstatic : target = none ∨ (w.source s).isStatic = true
  · have ha := h w hw
    refine ⟨?_, fun o w' ho => ?_⟩
    · rw [returning_static _ s target _ w hstatic, returning_static _ s target _ w hstatic]
      exact ha.same
    · rw [returning_static _ s target _ w hstatic] at ho
      exact ha.leads o w' ho
  · obtain ⟨hsome, hdynamic⟩ := not_or.mp hstatic
    obtain ⟨o, rfl⟩ := Option.ne_none_iff_exists'.mp hsome
    rw [Bool.not_eq_true] at hdynamic
    have ha := h _ (τ.lent s o hw)
    -- the trail comes through the world in which the target is given back as well
    have hback : ∀ outcome w₁, a.run (w.record (.acquired s o)) = some (outcome, w₁) →
        TracksFrom τ (w₁.record (.released s o)) (putBack env s o) (putBack env' s o) := by
      intro outcome w₁ hr
      have hreached := τ.onward (τ.lent s o hw) (ha.leads outcome w₁ hr)
      exact putBack_tracks henv s o _ (τ.returned s o hreached)
    refine ⟨?_, fun outcome w' ho => ?_⟩
    · rw [returning_dynamic _ s o _ w hdynamic, returning_dynamic _ s o _ w hdynamic, ha.same]
      refine Option.bind_congr fun ⟨outcome, w₁⟩ hr => ?_
      simp only [(hback outcome w₁ hr).same]
    · rw [returning_dynamic _ s o _ w hdynamic] at ho
      obtain ⟨⟨o₁, w₁⟩, hr, hk⟩ := Option.bind_eq_some_iff.mp ho
      obtain ⟨⟨_, w₂⟩, hr₂, hk₂⟩ := Option.map_eq_some_iff.mp hk
      cases hk₂
      exact τ.lend s o (ha.leads _ _ hr) ((hback _ _ hr).leads _ _ hr₂)

/-! ## Calls -/

section Calls

variable (hruns : τ.runs env) (henv : env.Tracks τ env')
include hruns henv

theorem callOn_tracks (proxy : Object) (id : ConfigId) (s : SourceId)
    (target : Option Object) (m : Method) (args : List Value) :
    Tracks τ (callOn env proxy id s target m args).run
      (callOn env' proxy id s target m args).run := by
  refine .andThen .world fun w => ?_
  refine .andThen (Configuration.chainFor_tracks hruns henv id m _) fun chain => ?_
  have hsettled (v : Value) :
      Tracks τ (Act.ofExcept (settle proxy target m v) : Act σ _).run
        (Act.ofExcept (settle proxy target m v) : Act σ _).run := .ofExcept _
  cases chain.links with
  | nil => exact .andThen (reachTarget_tracks henv target m args) hsettled
  | cons link links =>
    exact .andThen (.bind (Invocation.run_tracks henv _) fun _ => .pure _) hsettled

theorem callThrough_tracks (proxy : Object) (id : ConfigId) (m : Method)
    (args : List Value) :
    Tracks τ (callThrough env proxy id m args).run
      (callThrough env' proxy id m args).run := by
  refine .andThen (Configuration.read_tracks id) fun c => ?_
  refine .andThen (Source.acquire_tracks henv c.source) fun target => ?_
  exact returning_tracks henv c.source target (callOn_tracks hruns henv proxy id _ target m args)

theorem call_tracks (hexposes : τ.Exposes) (proxy : Object) (id : ConfigId) (m : Method)
    (args : List Value) :
    Tracks τ (call env proxy id m args).run
      (call env' proxy id m args).run := by
  refine .andThen (Configuration.read_tracks id) fun c => ?_
  refine .branchAct _ ?_ (callThrough_tracks hruns henv proxy id m args)
  exact exposing_tracks hexposes proxy (callThrough_tracks hruns henv proxy id m args)

end Calls

end Proxy

/-! ## Catalogues -/

namespace Catalogue

theorem anyMethod_tracks (henv : env.Tracks τ env') (p : Pointcut) (t : TypeDesc)
    (ms : List Method) : Tracks τ (anyMethod env p t ms) (anyMethod env' p t ms) := by
  induction ms with
  | nil => exact .pure _
  | cons m ms ih =>
    refine .bind (p.matchesMethod_tracks henv m (some t)) fun o => ?_
    match o with
    | .ok .always => exact .pure _
    | .ok .maybe => exact .pure _
    | .ok .never => exact ih
    | .error _ => exact ih

theorem canApply_tracks (henv : env.Tracks τ env') (a : Advisor) (t : TypeDesc) :
    Tracks τ (canApply env a t) (canApply env' a t) := by
  refine .bind (a.pointcut.matchesClass_tracks henv t) fun passed => ?_
  refine .branch _ (.branch _ (.pure _) ?_) (.pure _)
  exact anyMethod_tracks henv a.pointcut t t.allMethods

theorem keepApplicable_tracks (henv : env.Tracks τ env') (t : TypeDesc)
    (as : List Advisor) :
    Tracks τ (keepApplicable env t as) (keepApplicable env' t as) := by
  induction as with
  | nil => exact .pure _
  | cons a as ih =>
    exact .bind (canApply_tracks henv a t) fun _ => .bind ih fun _ => .pure _

theorem make_tracks : Tracks τ (make : Run σ CatalogueId) make :=
  .change _ fun w => .of_eq (.newCatalogue w) rfl rfl

theorem register_tracks (id : CatalogueId) (a : Advisor) :
    Tracks τ (register id a : Run σ Unit) (register id a) := by
  refine .bind (.emit _ _ _) fun _ => ?_
  exact .bind .freshId fun _ => .update fun w => .of_eq (.catalogue w id _) rfl rfl

theorem registerAll_tracks (id : CatalogueId) (as : List Advisor) :
    Tracks τ (registerAll id as : Run σ Unit) (registerAll id as) := by
  induction as with
  | nil => exact .pure _
  | cons a as ih => exact .bind (register_tracks id a) fun _ => ih

theorem registerAspect_tracks (id : CatalogueId) (name : String) (as : List Advisor) :
    Tracks τ (registerAspect id name as : Run σ Unit) (registerAspect id name as) :=
  .bind (.emit _ _ _) fun _ => registerAll_tracks id as

theorem load_tracks (henv : env.Tracks τ env') (id : CatalogueId) (r : Registration σ) :
    Tracks τ (load env id r) (load env' id r) := by
  refine .bind (henv.run fun _ => r.advisors) fun as => ?_
  exact .bind (.emit _ _ _) fun _ => registerAll_tracks id as

theorem loadAll_tracks (henv : env.Tracks τ env') (id : CatalogueId)
    (rs : List (Registration σ)) : Tracks τ (loadAll env id rs) (loadAll env' id rs) := by
  induction rs with
  | nil => exact .pure _
  | cons r rs ih => exact .bind (load_tracks henv id r) fun _ => ih

theorem autoLoad_tracks (henv : env.Tracks τ env') (id : CatalogueId) :
    Tracks τ (autoLoad env id) (autoLoad env' id) := by
  have hcode : env'.code = env.code := henv.code_eq'.trans henv.code_eq.symm
  unfold autoLoad
  rw [hcode]
  refine .bind (.emit _ _ _) fun _ => ?_
  refine .bind (loadAll_tracks henv id _) fun _ => ?_
  exact .bind .look fun _ => .emit _ _ _

end Catalogue

/-! ## Automatic proxies -/

namespace AutoProxy

theorem advisorsFor_tracks (henv : env.Tracks τ env') (id : CatalogueId) (o : Object) :
    Tracks τ (advisorsFor env id o) (advisorsFor env' id o) := by
  refine .bind .look fun w => ?_
  exact .bind (Catalogue.keepApplicable_tracks henv o.type _) fun _ => .pure _

theorem configFor_tracks (o : Object) :
    Tracks τ (configFor o : Run σ ConfigId) (configFor o) :=
  .bind (Source.make_tracks _) fun _ => Configuration.make_tracks _

theorem addAll_tracks (hrestructures : τ.Restructures env env') (id : ConfigId)
    (as : List Advisor) : Tracks τ (addAll env id as).run (addAll env' id as).run := by
  induction as with
  | nil => exact .succeed _
  | cons a as ih =>
    have hadd : (Command.addAdvisor id none a : Command σ _).Restructures id := .addAdvisor none a
    exact .andThen (hrestructures hadd) fun _ => ih

/-- Of the configurations only the one that is new wakes up. -/
theorem proxyWith_tracksFrom (henv : env.Tracks τ env') (hrestructures : τ.Restructures env env')
    (f : Flags) (o : Object) (as : List Advisor) {w : World σ} (hw : τ.holds w)
    (hactivate : Tracks τ (Configuration.activate env ⟨w.configs.size⟩)
      (Configuration.activate env' ⟨w.configs.size⟩)) :
    TracksFrom τ w (proxyWith env f o as).run (proxyWith env' f o as).run := by
  refine TracksFrom.running (configFor_tracks o w hw) fun id v h => ?_
  have hv : τ.holds v := τ.onward hw ((configFor_tracks o w hw).leads id v h)
  have hid : id = ⟨w.configs.size⟩ := by
    cases h
    rfl
  subst hid
  have hget := Proxy.get_tracks_of_activate henv ⟨w.configs.size⟩ .standard hactivate
  refine TracksFrom.andThen hv (Tracks.ofRun (.update fun w => .reflag w _ _) v hv) fun _ => ?_
  refine .andThen (addAll_tracks hrestructures _ as) fun _ => ?_
  refine .andThen (.ofRun (.update fun w => .config w _ (.preFiltered true) rfl
    ⟨rfl, rfl, rfl⟩)) fun _ => ?_
  exact .branchAct _ (.andThen (.ofRun (Configuration.freeze_tracks _)) fun _ => hget) hget

theorem wrap_tracks_of_activate (henv : env.Tracks τ env')
    (hrestructures : τ.Restructures env env')
    (hactivate : ∀ w, τ.holds w → Tracks τ (Configuration.activate env ⟨w.configs.size⟩)
      (Configuration.activate env' ⟨w.configs.size⟩))
    (enabled : Bool) (id : CatalogueId) (f : Flags) (name : String) (o : Object) :
    Tracks τ (wrap env enabled id f name o).run (wrap env' enabled id f name o).run := by
  refine .branchAct _ (.succeed _) ?_
  refine .andThen (.ofRun (advisorsFor_tracks henv id o)) fun as => ?_
  refine .branchAct _ (.andThen (.ofRun (.emit _ _ _)) fun _ => .succeed _) ?_
  refine .andThen (.ofRun (.emit _ _ _)) fun _ w hw => ?_
  exact proxyWith_tracksFrom henv hrestructures f o as hw (hactivate w hw)

theorem wrap_tracks (henv : env.Tracks τ env') (htells : τ.Tells env env') (enabled : Bool)
    (id : CatalogueId) (f : Flags) (name : String) (o : Object) :
    Tracks τ (wrap env enabled id f name o).run (wrap env' enabled id f name o).run :=
  wrap_tracks_of_activate henv htells.restructures (fun _ _ => htells.activate _) enabled id f
    name o

end AutoProxy

end Aspects
