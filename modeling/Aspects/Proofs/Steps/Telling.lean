import Aspects.Proofs.Steps.Restructuring
import Aspects.Proofs.Steps.Tracking

/-!
# Changing a configuration and waking it up

A configuration that is changed or woken up is changed at once, before user code is run.
Only then its listeners are told, one after the other, and each may do what it likes. So
there is a world in which the telling begins (`World.restructured`, `World.woken`), and
what the engine does is one equation for each way in which it may go. An advisor or advice
that is to come in is looked at first, which is an equation too.

What has to be shown of a trail is that it leads from the world before to every world in
the course of the telling (`Trail.Round`).
-/

namespace Aspects

variable {σ : Type} {α : Type} {code : Code σ} {τ : Trail code} {env env' : Env σ}

namespace Configuration

theorem run_reading (id : ConfigId) (k : Configuration → Act σ α) (w : World σ) :
    (read id >>= k).run w = (k (w.config id)).run w := rfl

theorem read_tracks (id : ConfigId) :
    Tracks τ (read id : Act σ Configuration).run (read id).run :=
  .andThen .world fun _ => .succeed _

/-- What comes after reading a configuration may use that it is as it was read. -/
theorem reading (id : ConfigId) {k k' : Configuration → Act σ α}
    (hk : ∀ w, τ.holds w →
      TracksFrom τ w (k (w.config id)).run (k' (w.config id)).run) :
    Tracks τ (read id >>= k).run (read id >>= k').run :=
  fun w hw => ⟨(hk w hw).same, (hk w hw).leads⟩

end Configuration

/-! ## The worlds in which the telling begins -/

/-- The world with the next layout, before anybody is told of it. -/
def World.restructured (w : World σ) (id : ConfigId) (action : String) (l : Layout) : World σ :=
  (w.setConfig id { (w.config id).advance l with cache := [] }).record
    (.event ⟨.debug, "Proxy configuration changed", [("action", Text.quote action)]⟩)

/-- The world with the configuration active, before anybody is told of it. -/
def World.woken (w : World σ) (id : ConfigId) : World σ :=
  (w.setConfig id { w.config id with active := true }).record
    (.event ⟨.debug, "Proxy configuration activated",
      [("listeners", toString (w.config id).listeners.length)]⟩)

namespace World

variable {w : World σ} {id : ConfigId}

theorem config_restructured (h : id.index < w.configs.size) (action : String) (l : Layout) :
    (w.restructured id action l).config id = { (w.config id).advance l with cache := [] } :=
  config_setConfig_self h _

theorem config_woken (h : id.index < w.configs.size) :
    (w.woken id).config id = { w.config id with active := true } :=
  config_setConfig_self h _

/-- The new layout is nothing to whether and to whom it is told. -/
theorem told_restructured (w : World σ) (id : ConfigId) (action : String) (l : Layout) :
    ((w.restructured id action l).config id).active = (w.config id).active ∧
      ((w.restructured id action l).config id).listeners = (w.config id).listeners := by
  by_cases hid : id.index < w.configs.size
  · rw [config_restructured hid]
    exact ⟨rfl, rfl⟩
  · unfold restructured
    rw [setConfig_of_le (Nat.not_lt.mp hid)]
    exact ⟨rfl, rfl⟩

/-- The layout is changed first and the cache emptied later, which makes no difference. -/
theorem emptied_restructured (w : World σ) (id : ConfigId) (action : String) (l : Layout) :
    Configuration.update id (fun c => { c with cache := [] })
        ((Configuration.update id (·.advance l) w).record
          (.event ⟨.debug, "Proxy configuration changed", [("action", Text.quote action)]⟩))
      = w.restructured id action l := by
  by_cases hid : id.index < w.configs.size
  · have hset : ((w.setConfig id ((w.config id).advance l)).record
        (.event ⟨.debug, "Proxy configuration changed", [("action", Text.quote action)]⟩)).config id
        = (w.config id).advance l := config_setConfig_self hid _
    unfold restructured Configuration.update
    rw [hset]
    simp [setConfig, record]
  · have hid := Nat.not_lt.mp hid
    unfold restructured Configuration.update
    rw [setConfig_of_le hid, setConfig_of_le hid]
    exact setConfig_of_le (w := w.record _) hid _

end World

/-! ## The ways in which it may go -/

namespace Configuration

section

variable {w : World σ} {id : ConfigId} {action : String} {e : Edit α}

/-- Of an edit it only matters what comes of it. -/
theorem edit_congr (env : Env σ) {e' : Edit α}
    (h : e (w.config id).layout = e' (w.config id).layout) :
    (edit env id action e).run w = (edit env id action e').run w := by
  unfold edit
  rw [run_reading, run_reading, h]

/-- A configuration that is frozen is not changed. -/
theorem edit_frozen (env : Env σ) (h : (w.config id).isFrozen = true) :
    (edit env id action e).run w = some (.error (.fault (.frozen action)), w) := by
  unfold edit
  rw [run_reading, if_pos h]
  rfl

/-- Nor does an edit that refuses change anything. -/
theorem edit_error (env : Env σ) (h : (w.config id).isFrozen = false) {f : Fault}
    (he : e (w.config id).layout = .error f) :
    (edit env id action e).run w = some (.error (.fault f), w) := by
  unfold edit
  rw [run_reading, h, he]
  rfl

/-- Nor does one that finds nothing to change. -/
theorem edit_none (env : Env σ) (h : (w.config id).isFrozen = false) {a : α}
    (he : e (w.config id).layout = .ok (a, none)) :
    (edit env id action e).run w = some (.ok a, w) := by
  unfold edit
  rw [run_reading, h, he]
  rfl

/-- Once the new layout is there, the cache is emptied and the listeners are told if the
configuration is active. -/
theorem run_afterChange (env : Env σ) (w : World σ) (id : ConfigId) (action : String)
    (l : Layout) :
    afterChange env id ((update id (·.advance l) w).record (.event
        ⟨.debug, "Proxy configuration changed", [("action", Text.quote action)]⟩))
      = (if (w.config id).active then tellChanged env id (w.config id).listeners else pure ())
          (w.restructured id action l) := by
  obtain ⟨hactive, hlisteners⟩ := w.told_restructured id action l
  rw [← hactive, ← hlisteners, ← World.emptied_restructured]
  rfl

/-- Any other brings the next layout, and nobody is told of it while the configuration is
not active. -/
theorem edit_untold (env : Env σ) (h : (w.config id).isFrozen = false) {a : α} {l : Layout}
    (he : e (w.config id).layout = .ok (a, some l)) (hasleep : (w.config id).active = false) :
    (edit env id action e).run w = some (.ok a, w.restructured id action l) := by
  unfold edit
  rw [run_reading, h, he]
  show ((afterChange env id _).bind _).bind _ = _
  rw [run_afterChange, hasleep]
  rfl

/-- Once it is, its listeners are. -/
theorem edit_told (env : Env σ) (h : (w.config id).isFrozen = false) {a : α} {l : Layout}
    (he : e (w.config id).layout = .ok (a, some l)) (hactive : (w.config id).active = true) :
    (edit env id action e).run w
      = (tellChanged env id (w.config id).listeners (w.restructured id action l)).map
          fun r => (.ok a, r.2) := by
  unfold edit
  rw [run_reading, h, he]
  show ((afterChange env id _).bind _).bind _ = _
  rw [run_afterChange, if_pos hactive]
  cases tellChanged env id (w.config id).listeners (w.restructured id action l) with
  | none => rfl
  | some r => rfl

/-- A configuration that is active stays so, and nobody is told. -/
theorem activate_active (env : Env σ) (h : (w.config id).active = true) :
    activate env id w = some ((), w) := by
  show (if (w.config id).active then pure () else _ : Run σ Unit) w = _
  rw [if_pos h]
  rfl

/-- Any other wakes up, and its listeners are told. -/
theorem activate_asleep (env : Env σ) (h : (w.config id).active = false) :
    activate env id w = tellActivated env id (w.config id).listeners (w.woken id) := by
  show (if (w.config id).active then pure () else _ : Run σ Unit) w = _
  rw [if_neg (by simp [h])]
  rfl

end

end Configuration

/-! ## What is looked at first -/

namespace Configuration

variable {w : World σ} {id : ConfigId} {action : String} {e : Edit α}

/-- An advisor that may not come in is refused, any other is as if nobody had looked. -/
theorem run_screened (env : Env σ) (a : Advisor) :
    (do screen id a; edit env id action e : Act σ α).run w
      = match w.refusal? id a with
        | some f => some (.error (.fault f), w)
        | none => (edit env id action e).run w := by
  have hscreen : (screen id a : Act σ Unit).run w
      = some ((w.refusal? id a).elim (.ok ()) fun f => .error (.fault f), w) := by
    unfold screen
    rw [Act.run_world]
    show (match w.refusal? id a with | some f => Act.fail f | none => return () : Act σ Unit).run w
      = _
    cases w.refusal? id a with
    | none => rfl
    | some f => rfl
  rw [Act.run_bind, hscreen]
  cases w.refusal? id a with
  | none => rfl
  | some f => rfl

/-- Advice of no known sort is refused, for any other an advisor is made. -/
theorem run_addAdvice (env : Env σ) (place : Option Nat) (a : Advice) :
    (addAdvice env id place a).run w
      = match w.refusal? id (.forAdvice w a) with
        | some f => some (.error (.fault f), w)
        | none => (edit env id "add advisor" (Layout.insert place (.forAdvice w a))).run
            { w with serial := w.serial + 1 } := by
  have hrefusal : w.refusal? id (.forAdvice w a)
      = if Adapter.anySupports (w.adapterList (w.config id).adapters) a then none
        else some (.unknownAdviceType a.kind.name) := by
    unfold World.refusal? refusal?
    cases h : Adapter.anySupports (w.adapterList (w.config id).adapters) a with
    | true => simp [Advisor.forAdvice, h]
    | false => simp [Advisor.forAdvice, h]
  unfold addAdvice
  rw [Act.run_world, hrefusal]
  by_cases h : Adapter.anySupports (w.adapterList (w.config id).adapters) a
  · -- the advisor that is made is looked at once more, in the world with the next number
    let w₁ : World σ := { w with serial := w.serial + 1 }
    have hagain : w₁.refusal? id (.forAdvice w a) = none := hrefusal.trans (if_pos h)
    rw [if_pos h, if_pos h, Act.run_ofRun]
    show (addAdvisor env id place (.forAdvice w a)).run w₁ = _
    unfold addAdvisor
    rw [run_screened, hagain]
  · rw [if_neg h, if_neg h]
    rfl

end Configuration

/-! ## Along a trail -/

/-- The worlds in the course of a round of telling that begins in a world. -/
inductive Trail.Round (τ : Trail code) (entry : Routine → Entry) (w : World σ) :
    World σ → Prop
  | start : Round τ entry w w
  | told {v : World σ} (l : Routine) : Round τ entry w v → Round τ entry w (v.record (entry l))
  | onward {v v' : World σ} : Round τ entry w v → τ.leads v v' → Round τ entry w v'

namespace Configuration

/-- A round of telling ends in a world of the round, in either run. -/
theorem notify_tracks (henv : env.Tracks τ env') {entry : Routine → Entry}
    (callback : Code σ → Routine → Action σ Unit) {w : World σ}
    (hholds : ∀ v, τ.Round entry w v → τ.holds v) (ls : List Routine) {v : World σ}
    (hv : τ.Round entry w v) :
    notify env' entry (callback env'.code) ls v = notify env entry (callback env.code) ls v ∧
      ∀ u v', notify env entry (callback env.code) ls v = some (u, v') →
        τ.Round entry w v' := by
  induction ls generalizing v with
  | nil =>
    refine ⟨rfl, fun u v' h => ?_⟩
    cases h
    exact hv
  | cons l ls ih =>
    have htold : τ.Round entry w (v.record (entry l)) := .told l hv
    have hl := henv.run (fun c => callback c l) _ (hholds _ htold)
    -- what comes after the first listener comes from a world of the round
    constructor
    · show (env'.run (callback env'.code l) (v.record (entry l))).bind _
        = (env.run (callback env.code l) (v.record (entry l))).bind _
      rw [hl.same]
      exact Option.bind_congr fun r hr => (ih (.onward htold (hl.leads _ _ hr))).1
    · intro u v' h
      obtain ⟨r, hr, hrest⟩ := Option.bind_eq_some_iff.mp h
      exact (ih (.onward htold (hl.leads _ _ hr))).2 u v' hrest

/-- A change of a configuration by an edit, where the trail leads to the world with the layout
that comes of the edit and to every world in the course of the telling. -/
theorem edit_tracksFrom (henv : env.Tracks τ env') {w : World σ} (hw : τ.holds w)
    (id : ConfigId) (action : String) (e : Edit α)
    (hchange : ∀ a l, e (w.config id).layout = .ok (a, some l) →
      (w.config id).isFrozen = false → τ.leads w (w.restructured id action l))
    (htold : ∀ a l v, e (w.config id).layout = .ok (a, some l) →
      (w.config id).isFrozen = false → (w.config id).active = true →
      τ.Round (.changed id) (w.restructured id action l) v → τ.leads w v) :
    TracksFrom τ w (edit env id action e).run (edit env' id action e).run := by
  cases hfrozen : (w.config id).isFrozen with
  | true => exact .of_run (edit_frozen env hfrozen) (edit_frozen env' hfrozen) (τ.refl w)
  | false =>
    match he : e (w.config id).layout with
    | .error f =>
      exact .of_run (edit_error env hfrozen he) (edit_error env' hfrozen he) (τ.refl w)
    | .ok (a, none) =>
      exact .of_run (edit_none env hfrozen he) (edit_none env' hfrozen he) (τ.refl w)
    | .ok (a, some l) =>
      cases hactive : (w.config id).active with
      | false =>
        exact .of_run (edit_untold env hfrozen he hactive) (edit_untold env' hfrozen he hactive)
          (hchange a l he hfrozen)
      | true =>
        have hround (v : World σ) := htold a l v he hfrozen hactive
        obtain ⟨hsame, hleads⟩ := notify_tracks henv (fun c l => c.changed l id)
          (fun v hv => τ.onward hw (hround v hv)) (w.config id).listeners .start
        constructor
        · rw [edit_told env hfrozen he hactive, edit_told env' hfrozen he hactive]
          exact congrArg (Option.map _) hsame
        · intro o w' ho
          rw [edit_told env hfrozen he hactive] at ho
          obtain ⟨⟨u, v⟩, hv, hk⟩ := Option.map_eq_some_iff.mp ho
          cases hk
          exact hround _ (hleads u v hv)

/-- An advisor that may not come in is refused in either run. -/
theorem screened_tracksFrom {w : World σ} {id : ConfigId} {a : Advisor} {action : String}
    {e : Edit α} (h : w.refusal? id a = none →
      TracksFrom τ w (edit env id action e).run (edit env' id action e).run) :
    TracksFrom τ w (do screen id a; edit env id action e : Act σ α).run
      (do screen id a; edit env' id action e : Act σ α).run := by
  have hrun : (do screen id a; edit env id action e : Act σ α).run w = _ := run_screened env a
  have hrun' : (do screen id a; edit env' id action e : Act σ α).run w = _ := run_screened env' a
  cases hrefusal : w.refusal? id a with
  | some f =>
    rw [hrefusal] at hrun hrun'
    exact .of_run hrun hrun' (τ.refl w)
  | none =>
    rw [hrefusal] at hrun hrun'
    refine ⟨hrun'.trans ((h hrefusal).same.trans hrun.symm), fun o w' ho => ?_⟩
    exact (h hrefusal).leads o w' (hrun.symm.trans ho)

/-- Waking a configuration up, where the trail leads to the world in which it is active
and to every world in the course of the telling. -/
theorem activate_tracks (henv : env.Tracks τ env') (id : ConfigId)
    (hwake : ∀ w, (w.config id).active = false → τ.leads w (w.woken id))
    (htold : ∀ w v, (w.config id).active = false → (w.config id).listeners ≠ [] →
      τ.Round (.activated id) (w.woken id) v → τ.leads w v) :
    Tracks τ (activate env id) (activate env' id) := by
  intro w hw
  cases hactive : (w.config id).active with
  | true => exact .of_run (activate_active env hactive) (activate_active env' hactive) (τ.refl w)
  | false =>
    have hrun := activate_asleep env hactive
    have hrun' := activate_asleep env' hactive
    cases hlisteners : (w.config id).listeners with
    | nil =>
      rw [hlisteners] at hrun hrun'
      exact .of_run hrun hrun' (hwake w hactive)
    | cons l ls =>
      rw [hlisteners] at hrun hrun'
      have hround (v : World σ) := htold w v hactive (by simp [hlisteners])
      obtain ⟨hsame, hleads⟩ := notify_tracks henv (fun c l => c.activated l id)
        (fun v hv => τ.onward hw (hround v hv)) (l :: ls) .start
      refine ⟨hrun'.trans (hsame.trans hrun.symm), fun u w' h => hround w' ?_⟩
      exact hleads u w' (hrun.symm.trans h)

end Configuration

/-- The trail gets past commands that restructure configurations. -/
def Trail.Restructures (τ : Trail code) (env env' : Env σ) : Prop :=
  ∀ {α : Type} {id : ConfigId} {c : Command σ (Outcome α)}, c.Restructures id →
    Tracks τ (Engine.meaning env c) (Engine.meaning env' c)

/-- The trail gets past commands that restructure configurations and past waking them up. -/
structure Trail.Tells (τ : Trail code) (env env' : Env σ) : Prop where
  restructures : ∀ {α : Type} {id : ConfigId} {c : Command σ (Outcome α)}, c.Restructures id →
    Tracks τ (Engine.meaning env c) (Engine.meaning env' c)
  activate : ∀ id, Tracks τ (Configuration.activate env id) (Configuration.activate env' id)

/-- It is enough that the trail gets past the edits that such commands carry out. -/
theorem Trail.Restructures.of_edits
    (hedit : ∀ {α : Type} {w : World σ} {id : ConfigId} {c : Command σ (Outcome α)}
      {e : Edit α} (action : String), τ.holds w → c.Edits w id e →
      TracksFrom τ w (Configuration.edit env id action e).run
        (Configuration.edit env' id action e).run) : τ.Restructures env env' := by
  intro α id c hc w hw
  -- where nothing is said against it, the edit is the one that is guarded
  have hguarded {α : Type} {v : World σ} {c : Command σ (Outcome α)} {refusal : Option Fault}
      {e : Edit α} (action : String) (hv : τ.holds v)
      (he : c.Edits v id (Edit.guarded refusal e)) (hnone : refusal = none) :
      TracksFrom τ v (Configuration.edit env id action e).run
        (Configuration.edit env' id action e).run := by
    subst hnone
    exact hedit action hv he
  cases hc with
  | addAdvisor place a =>
    exact Configuration.screened_tracksFrom (hguarded _ hw (.addAdvisor place a))
  | removeAdvisor a => exact hedit "remove advisor" hw (.removeAdvisor a)
  | removeAdvisorAt place => exact hedit "remove advisor" hw (.removeAdvisorAt place)
  | replaceAdvisor old new =>
    exact Configuration.screened_tracksFrom (hguarded _ hw (.replaceAdvisor old new))
  | addAdvice place a =>
    -- the advisor that is made draws a number and is looked at once more
    refine Tracks.lookingAct (fun v hv => ?_) w hw
    split
    · refine TracksFrom.andThen hv (Tracks.ofRun .freshId v hv) fun number v' hv' => ?_
      exact Configuration.screened_tracksFrom (hguarded _ hv' (.addAdvisor place _))
    · exact Tracks.fail _ v hv
  | removeAdvice a => exact hedit "remove advice" hw (.removeAdvice a)
  | addInterface t =>
    show TracksFrom τ w (Configuration.addInterface env id t).run
      (Configuration.addInterface env' id t).run
    unfold Configuration.addInterface
    split
    · next ht => exact hguarded _ hw (.addInterface t) (if_pos ht)
    · exact Tracks.fail _ w hw
  | removeInterface t => exact hedit "remove interface" hw (.removeInterface t)

/-- For the two it is enough to look at edits and at waking up. -/
theorem Trail.Tells.of_edits
    (hedit : ∀ {α : Type} {w : World σ} {id : ConfigId} {c : Command σ (Outcome α)}
      {e : Edit α} (action : String), τ.holds w → c.Edits w id e →
      TracksFrom τ w (Configuration.edit env id action e).run
        (Configuration.edit env' id action e).run)
    (hactivate : ∀ id,
      Tracks τ (Configuration.activate env id) (Configuration.activate env' id)) :
    τ.Tells env env' :=
  ⟨Trail.Restructures.of_edits hedit, hactivate⟩

section

variable (hchange : ∀ {w w' : World σ}, Change w w' → τ.leads w w')
include hchange

/-- The next layout takes three changes that stand alone. -/
theorem Trail.leads_restructured {w : World σ} {id : ConfigId}
    (h : (w.config id).isFrozen = false) (action : String) (l : Layout) :
    τ.leads w (w.restructured id action l) := by
  rw [← World.emptied_restructured]
  exact τ.trans (hchange (.config w id _ (.layout l h)))
    (τ.trans (hchange (.remark _ _ rfl)) (hchange (.config _ id _ .emptyCache)))

theorem Trail.leads_woken (w : World σ) (id : ConfigId) : τ.leads w (w.woken id) :=
  τ.trans (hchange (.config w id _ .wake)) (hchange (.remark _ _ rfl))

/-- A trail that gets past all changes that stand alone gets past these. -/
theorem Trail.Tells.of_change (henv : env.Tracks τ env') : τ.Tells env env' := by
  have hround {entry : Routine → Entry} {w w₁ v : World σ}
      (hentry : ∀ (v : World σ) l, Change v (v.record (entry l))) (h₁ : τ.leads w w₁)
      (h : τ.Round entry w₁ v) : τ.leads w v := by
    induction h with
    | start => exact h₁
    | told l _ ih => exact τ.trans ih (hchange (hentry _ l))
    | onward _ hl ih => exact τ.trans ih hl
  refine .of_edits (fun action hw _ => ?_) fun id => ?_
  · exact Configuration.edit_tracksFrom henv hw _ action _
      (fun _ l _ h => τ.leads_restructured hchange h action l)
      fun _ l v _ h _ =>
        hround (fun v l => .tellChanged v _ l) (τ.leads_restructured hchange h action l)
  · exact Configuration.activate_tracks henv id (fun w _ => τ.leads_woken hchange w id)
      fun w v _ _ => hround (fun v l => .tellActivated v id l) (τ.leads_woken hchange w id)

end

end Aspects
