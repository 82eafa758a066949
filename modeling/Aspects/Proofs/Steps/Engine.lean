import Aspects.Proofs.Steps.Proxies

/-!
# Every run keeps to the trail

Every command of the library tracks, by induction on the room for nested commands, and so
does every program. The other run is here the `watched` one, which carries a command out
only where a property holds. If the property holds of every world that is reached then
the watched run is the run itself (`throughout`): it holds wherever user code has a
command carried out, at any depth of nesting, and at the end.
-/

namespace Aspects

variable {σ : Type} {α : Type} {code : Code σ} {τ : Trail code}

/-- The command is a call to a proxy. -/
def Command.isProxyCall {β : Type} : Command σ β → Bool
  | call (some o) .. => o.isProxy
  | _ => false

/-- The command wakes a configuration up to make a proxy. -/
def Command.makesProxy {β : Type} : Command σ β → Bool
  | getProxy .. => true
  | wrap .. => true
  | _ => false

namespace Engine

variable {env' : Env σ}

/-- Every command tracks if those do that user code issues in turn. This is left open of
calls to proxies and of commands that wake a configuration up, for not every trail gets past
them in the same way. -/
theorem meaning_tracks_of_makesProxy {env : Env σ} (hruns : τ.runs env)
    (henv : env.Tracks τ env') (hrestructures : τ.Restructures env env') {β : Type}
    (c : Command σ β)
    (hmakes : c.makesProxy = true → Tracks τ (meaning env c) (meaning env' c))
    (hcall : c.isProxyCall = true → Tracks τ (meaning env c) (meaning env' c)) :
    Tracks τ (meaning env c) (meaning env' c) := by
  cases c with
  | world => exact .look
  | setUser s => exact .update fun w => .of_eq (.user w s) rfl rfl
  | note line => exact .remark _ rfl
  | fresh => exact .freshId
  | call target m args =>
    cases target with
    | none => exact reachTarget_tracks henv none m args
    | some o =>
      cases ho : o.proxyConfig? with
      | some id => exact hcall (by simp [Command.isProxyCall, Object.isProxy, ho])
      | none =>
        simp only [meaning, callTarget, ho]
        exact runMethod_tracks henv o m args
  | newMemo e source => exact Pointcut.newMemo_tracks e source
  | matchesClass p t => exact p.matchesClass_tracks henv t
  | matchesMethod p m t => exact p.matchesMethod_tracks henv m t
  | matchesRuntime p m t args => exact p.matchesRuntime_tracks henv m t args
  | residue p m t => exact p.residueFor_tracks henv m t
  | resolve e m t =>
    refine .bind (e.resolveIn_tracks henv m t) fun o => ?_
    cases o with
    | ok r => exact .pure _
    | error f => exact .pure _
  | evaluate e m t args => exact e.evaluateIn_tracks henv m t args
  | passes r m args => exact r.passesIn_tracks henv m args
  | newAdapters extra => exact Adapter.make_tracks extra
  | interceptors a advisor => exact .bind .look fun _ => Adapter.interceptors_tracks _ advisor
  | newSource s => exact Source.make_tracks s
  | acquire s => exact Source.acquire_tracks henv s
  | release s o => exact Source.release_tracks henv s o
  | swap s o => exact Source.swap_tracks s o
  | newConfig c => exact Configuration.make_tracks c
  | addAdvisor c place a => exact hrestructures (.addAdvisor place a)
  | removeAdvisor c a => exact hrestructures (.removeAdvisor a)
  | removeAdvisorAt c place => exact hrestructures (.removeAdvisorAt place)
  | replaceAdvisor c old new => exact hrestructures (.replaceAdvisor old new)
  | addAdvice c place a => exact hrestructures (.addAdvice place a)
  | removeAdvice c a => exact hrestructures (.removeAdvice a)
  | addInterface c t => exact hrestructures (.addInterface t)
  | removeInterface c t => exact hrestructures (.removeInterface t)
  | setSource c s => exact .update fun w => .config w c (.source s) rfl ⟨rfl, rfl, rfl⟩
  | freeze c => exact Configuration.freeze_tracks c
  | setFrozen c b => exact Configuration.setFrozen_tracks c b
  | setFlags c f => exact Configuration.setFlags_tracks c f
  | replaceFlags c f => exact .update fun w => .reflag w c f
  | setExposeProxy c b =>
    exact .update fun w => .config w c (.flags _ id) rfl ⟨rfl, rfl, rfl⟩
  | setPreFiltered c b => exact .update fun w => .config w c (.preFiltered b) rfl ⟨rfl, rfl, rfl⟩
  | addListener c l => exact .update fun w => .config w c (.listeners _) rfl ⟨rfl, rfl, rfl⟩
  | removeListener c l => exact Configuration.removeListener_tracks c l
  | chain c m t => exact Configuration.chainFor_tracks hruns henv c m t
  | standardChain a as preFiltered m t => exact Chain.standard_tracks henv a as preFiltered m t
  | getProxy c maker => exact hmakes rfl
  | standardProxy c => exact Proxy.create_tracks c
  | proceed v => exact v.run_tracks henv
  | canApply a t => exact Catalogue.canApply_tracks henv a t
  | applicable as t => exact Catalogue.keepApplicable_tracks henv t _
  | newCatalogue => exact Catalogue.make_tracks
  | register c a => exact Catalogue.register_tracks c a
  | registerAspect c name as => exact Catalogue.registerAspect_tracks c name as
  | clearCatalogue c => exact .update fun w => .of_eq (.catalogue w c []) rfl rfl
  | autoLoad c => exact Catalogue.autoLoad_tracks henv c
  | advisorsFor c o => exact AutoProxy.advisorsFor_tracks henv c o
  | wrap enabled c f name o => exact hmakes rfl

/-- A trail that gets past waking configurations up gets past those commands too. -/
theorem meaning_tracks {env : Env σ} (hruns : τ.runs env) (henv : env.Tracks τ env')
    (htells : τ.Tells env env') {β : Type} (c : Command σ β)
    (hcall : c.isProxyCall = true → Tracks τ (meaning env c) (meaning env' c)) :
    Tracks τ (meaning env c) (meaning env' c) := by
  refine meaning_tracks_of_makesProxy hruns henv htells.restructures c (fun hmakes => ?_) hcall
  cases c with
  | getProxy c maker => exact Proxy.get_tracks henv htells c maker
  | wrap enabled c f name o => exact AutoProxy.wrap_tracks henv htells enabled c f name o
  | _ => cases hmakes

/-- A trail that gets past proxies that are current for a while gets past calls to them. -/
theorem proxyCall_tracks {env : Env σ} (hruns : τ.runs env) (henv : env.Tracks τ env')
    (hexposes : τ.Exposes) {β : Type} (c : Command σ β) (hc : c.isProxyCall = true) :
    Tracks τ (meaning env c) (meaning env' c) := by
  cases c with
  | call target m args =>
    cases target with
    | none => cases hc
    | some o =>
      simp only [meaning, callTarget]
      split
      · exact Proxy.call_tracks hruns henv hexposes o _ m args
      · exact runMethod_tracks henv o m args
  | _ => cases hc

end Engine

/-- The trail gets past everything that the engine does. -/
structure Trail.Passes (τ : Trail code) : Prop where
  exposes : τ.Exposes
  tells : ∀ {env env' : Env σ}, env.Tracks τ env' → τ.Tells env env'
  runs : ∀ room, τ.runs (Engine.env code room)

theorem Trail.steps_passes (code : Code σ) (start : World σ) :
    (Trail.steps code start).Passes :=
  ⟨Trail.steps_exposes code start, fun henv => .of_change .one henv, fun room => ⟨room, rfl⟩⟩

namespace Engine

/-- What the engine itself does keeps to the trail, by induction on the room for nested
commands. -/
theorem env_tracks (h : τ.Passes) (room : Nat) :
    (env code room).Tracks τ (env code room) := by
  induction room with
  | zero => exact ⟨rfl, rfl, fun _ => .nothing⟩
  | succ room ih =>
    have hruns := h.runs room
    exact ⟨rfl, rfl, fun c =>
      meaning_tracks hruns ih (h.tells ih) c (proxyCall_tracks hruns ih h.exposes c)⟩

/-- What the engine itself does is made of steps. -/
theorem env_steps (code : Code σ) (start : World σ) (room : Nat) :
    (env code room).Tracks (.steps code start) (env code room) :=
  env_tracks (Trail.steps_passes code start) room

/-! ## Watching a run -/

open Classical in
/-- The environment that carries a command out only where the property holds. -/
noncomputable def watched (code : Code σ) (P : World σ → Prop) : Nat → Env σ
  | 0 => ⟨code, fun _ _ => none⟩
  | room + 1 => ⟨code, fun c w => if P w then meaning (watched code P room) c w else none⟩

/-- The property holds wherever the program, or user code that it leads to, has a command
carried out, and where the program ends: a watched run is the run itself. -/
def Throughout (code : Code σ) (room : Nat) (p : Action σ α) (w : World σ)
    (P : World σ → Prop) : Prop :=
  (watched code P room).run p w = run code room p w ∧
    ∀ a w', run code room p w = some (a, w') → P w'

theorem watched_tracks (h : τ.Passes) {P : World σ → Prop} (hP : ∀ w, τ.holds w → P w)
    (room : Nat) : (env code room).Tracks τ (watched code P room) := by
  induction room with
  | zero => exact ⟨rfl, rfl, fun _ => .nothing⟩
  | succ room ih =>
    -- the trail has come to `w`, so the property holds and the command is carried out
    refine ⟨rfl, rfl, fun c w hw => ?_⟩
    have hruns := h.runs room
    have hc := meaning_tracks hruns ih (h.tells ih) c (proxyCall_tracks hruns ih h.exposes c) w hw
    exact ⟨(if_pos (hP w hw)).trans hc.same, hc.leads⟩

/-- What holds wherever a trail comes holds throughout every run along it. -/
theorem throughout_along (h : τ.Passes) {P : World σ → Prop} (hP : ∀ w, τ.holds w → P w)
    {w : World σ} (hw : τ.holds w) (room : Nat) (p : Action σ α) :
    Throughout code room p w P := by
  have hp := (watched_tracks h hP room).run (fun _ => p) w hw
  exact ⟨hp.same, fun a w' ha => hP w' (τ.onward hw (hp.leads a w' ha))⟩

/-- What holds of all worlds that come after one holds throughout every run from there. -/
theorem throughout {P : World σ → Prop} {w : World σ} (hP : ∀ w', Reaches code w w' → P w')
    (room : Nat) (p : Action σ α) : Throughout code room p w P :=
  throughout_along (Trail.steps_passes code w) hP .refl room p

end Engine

end Aspects
