import Aspects.Proofs.Steps.Engine
import Aspects.Proofs.Steps.Generations

/-!
# The life of a configuration

What the listeners of a configuration were told stands in the journal. What comes of it
between two worlds of a run is `Lives`: a configuration that is active stays so, and
nobody is told again that it is; a change is told only by a configuration that is active,
and only together with a generation that is new. That is a trail (`Trail.life`), though
not one of single steps: a change is told after the generation was made, and one listener
after the other.
-/

namespace Aspects

variable {σ : Type} {α : Type} {code : Code σ} {w w₁ w₂ : World σ} {id : ConfigId}

/-- The listener that was told that the configuration is active. -/
def Entry.activated? (id : ConfigId) : Entry → Option Routine
  | activated id' l => if id' = id then some l else none
  | _ => none

/-- The listener that was told of a change of the configuration. -/
def Entry.changed? (id : ConfigId) : Entry → Option Routine
  | changed id' l => if id' = id then some l else none
  | _ => none

namespace World

/-- What was chosen from the journal, the earliest first. -/
def chosen (w : World σ) (choose : Entry → Option Routine) : List Routine :=
  (w.journal.filterMap choose).reverse

/-- The listeners that were told that the configuration is active, in order. -/
def activations (w : World σ) (id : ConfigId) : List Routine :=
  w.chosen (Entry.activated? id)

/-- The listeners that were told of changes of the configuration, in order. -/
def changes (w : World σ) (id : ConfigId) : List Routine :=
  w.chosen (Entry.changed? id)

theorem chosen_record (w : World σ) (e : Entry) (choose : Entry → Option Routine) :
    (w.record e).chosen choose = w.chosen choose ++ (choose e).toList := by
  unfold chosen record
  cases h : choose e with
  | none => simp [h]
  | some l => simp [h]

theorem chosen_of_journal {choose : Entry → Option Routine}
    (h : ∃ es, w₁.journal = es ++ w.journal ∧ ∀ e ∈ es, choose e = none) :
    w₁.chosen choose = w.chosen choose := by
  obtain ⟨es, hes, hnone⟩ := h
  unfold chosen
  rw [hes, List.filterMap_append, List.filterMap_eq_nil_iff.mpr hnone, List.nil_append]

end World

theorem Entry.activated?_of_isNews {e : Entry} (h : e.isNews = false) : e.activated? id = none := by
  cases e with
  | activated id' l => cases h
  | _ => rfl

theorem Entry.changed?_of_isNews {e : Entry} (h : e.isNews = false) : e.changed? id = none := by
  cases e with
  | changed id' l => cases h
  | _ => rfl

namespace World

/-- A number that was not given out reads as a configuration that sleeps. -/
theorem index_lt_of_active (h : (w.config id).active = true) : id.index < w.configs.size := by
  refine Nat.lt_of_not_le fun hid => ?_
  rw [config_of_le hid] at h
  cases h

/-- Nor does it have listeners. -/
theorem index_lt_of_listeners (h : (w.config id).listeners ≠ []) :
    id.index < w.configs.size := by
  refine Nat.lt_of_not_le fun hid => h ?_
  rw [config_of_le hid]
  rfl

theorem activations_record {e : Entry} (he : e.isNews = false) :
    (w.record e).activations id = w.activations id :=
  chosen_of_journal ⟨[e], rfl, by simpa using Entry.activated?_of_isNews he⟩

theorem changes_record {e : Entry} (he : e.isNews = false) :
    (w.record e).changes id = w.changes id :=
  chosen_of_journal ⟨[e], rfl, by simpa using Entry.changed?_of_isNews he⟩

/-- A listener that is told of a change is not told that a configuration is active. -/
theorem activations_changed (w : World σ) (id id' : ConfigId) (l : Routine) :
    (w.record (.changed id' l)).activations id = w.activations id :=
  chosen_of_journal ⟨[.changed id' l], rfl, by simp [Entry.activated?]⟩

theorem changes_activated (w : World σ) (id id' : ConfigId) (l : Routine) :
    (w.record (.activated id' l)).changes id = w.changes id :=
  chosen_of_journal ⟨[.activated id' l], rfl, by simp [Entry.changed?]⟩

/-- What is told by another configuration does not matter. -/
theorem activations_activated_other {id' : ConfigId} (h : id' ≠ id) (l : Routine) :
    (w.record (.activated id' l)).activations id = w.activations id :=
  chosen_of_journal ⟨[.activated id' l], rfl, by simp [Entry.activated?, h]⟩

theorem changes_changed_other {id' : ConfigId} (h : id' ≠ id) (l : Routine) :
    (w.record (.changed id' l)).changes id = w.changes id :=
  chosen_of_journal ⟨[.changed id' l], rfl, by simp [Entry.changed?, h]⟩

end World

/-- What comes of a configuration from one world to another. -/
structure World.Lives (w w' : World σ) (id : ConfigId) : Prop where
  active : (w.config id).active = true → (w'.config id).active = true
  generation_le : (w.config id).generation ≤ (w'.config id).generation
  /-- That it is active is told only while it becomes so. -/
  activations : w'.activations id = w.activations id ∨
    (w.config id).active = false ∧ (w'.config id).active = true
  /-- A change is told only by a configuration that is active, of a new generation. -/
  changes : w'.changes id = w.changes id ∨
    (w'.config id).active = true ∧ (w.config id).generation < (w'.config id).generation

namespace World.Lives

/-- It is enough that the configuration sleeps or is awake as before, that its generation
has not gone back, and that nobody was told anything. -/
theorem of_config (hactive : (w₁.config id).active = (w.config id).active)
    (hle : (w.config id).generation ≤ (w₁.config id).generation)
    (hactivations : w₁.activations id = w.activations id)
    (hchanges : w₁.changes id = w.changes id) : w.Lives w₁ id where
  active ha := hactive.trans ha
  generation_le := hle
  activations := .inl hactivations
  changes := .inl hchanges

theorem refl (w : World σ) (id : ConfigId) : w.Lives w id :=
  of_config rfl (Nat.le_refl _) rfl rfl

/-- Who sleeps now has slept before. -/
theorem asleep (h : w.Lives w₁ id) (hasleep : (w₁.config id).active = false) :
    (w.config id).active = false := by
  cases ha : (w.config id).active with
  | false => rfl
  | true =>
    rw [h.active ha] at hasleep
    cases hasleep

theorem trans (h : w.Lives w₁ id) (h' : w₁.Lives w₂ id) : w.Lives w₂ id where
  active ha := h'.active (h.active ha)
  generation_le := Nat.le_trans h.generation_le h'.generation_le
  activations := by
    rcases h.activations with hsame | ⟨hasleep, hactive⟩
    · rcases h'.activations with hsame' | ⟨hasleep', hactive'⟩
      · exact .inl (hsame'.trans hsame)
      · -- what sleeps in between has slept before
        exact .inr ⟨h.asleep hasleep', hactive'⟩
    · exact .inr ⟨hasleep, h'.active hactive⟩
  changes := by
    have hle := h.generation_le
    have hle' := h'.generation_le
    rcases h'.changes with hsame' | ⟨hactive', hlt'⟩
    · rcases h.changes with hsame | ⟨hactive, hlt⟩
      · exact .inl (hsame'.trans hsame)
      · exact .inr ⟨h'.active hactive, by omega⟩
    · exact .inr ⟨hactive', by omega⟩

theorem of_stir (h : Stir w w₁) : w.Lives w₁ id := by
  obtain ⟨es, hes, hnews⟩ := h.journal
  refine of_config (h.active_eq id) (h.generation_le id) ?_ ?_
  · exact chosen_of_journal ⟨es, hes, fun e he => Entry.activated?_of_isNews (hnews e he)⟩
  · exact chosen_of_journal ⟨es, hes, fun e he => Entry.changed?_of_isNews (hnews e he)⟩

/-- What is written down is no news. -/
theorem record (w : World σ) {e : Entry} (he : e.isNews = false) : w.Lives (w.record e) id :=
  of_config rfl (Nat.le_refl _) (activations_record he) (changes_record he)

/-- It is enough to look at the configuration that is set. -/
theorem setConfig {id' : ConfigId} {c : Configuration}
    (hactive : (w.config id').active = true → c.active = true)
    (hle : (w.config id').generation ≤ c.generation) : w.Lives (w.setConfig id' c) id := by
  rcases w.config_setConfig_cases id' id c with he | ⟨rfl, he⟩
  · exact of_config (by rw [he]) (Nat.le_of_eq (by rw [he])) rfl rfl
  · refine ⟨?_, ?_, .inl rfl, .inl rfl⟩
    · rw [he]
      exact hactive
    · rw [he]
      exact hle

theorem keepChain (w : World σ) (id' : ConfigId) (q : ChainQuery) (generation : Nat)
    (links : List Link) : w.Lives (w.keepChain id' q generation links) id := by
  have h : ({ w with serial := w.serial + 1 } : World σ).Lives
      (w.keepChain id' q generation links) id := .setConfig (fun h => h) (Nat.le_refl _)
  exact ⟨h.active, h.generation_le, h.activations, h.changes⟩

/-- A listener of a configuration is told of a change. -/
theorem tellChanged {id' : ConfigId} (h : w.Lives w₁ id)
    (hactive : (w₁.config id').active = true)
    (hlt : (w.config id').generation < (w₁.config id').generation) (l : Routine) :
    w.Lives (w₁.record (.changed id' l)) id where
  active := h.active
  generation_le := h.generation_le
  activations := by
    rw [activations_changed]
    exact h.activations
  changes := by
    by_cases he : id' = id
    · subst he
      exact .inr ⟨hactive, hlt⟩
    · rw [changes_changed_other he]
      exact h.changes

/-- A listener of a configuration is told that it is active. -/
theorem tellActivated {id' : ConfigId} (h : w.Lives w₁ id)
    (hasleep : (w.config id').active = false) (hactive : (w₁.config id').active = true)
    (l : Routine) : w.Lives (w₁.record (.activated id' l)) id where
  active := h.active
  generation_le := h.generation_le
  activations := by
    by_cases he : id' = id
    · subst he
      exact .inr ⟨hasleep, hactive⟩
    · rw [activations_activated_other he]
      exact h.activations
  changes := by
    rw [changes_activated]
    exact h.changes

/-- Nobody is told again that the configuration is active. -/
theorem activations_eq (h : w.Lives w₁ id) (hactive : (w.config id).active = true) :
    w₁.activations id = w.activations id := by
  refine h.activations.resolve_right fun hwoken => ?_
  rw [hactive] at hwoken
  cases hwoken.1

/-- Nobody is told of a change without a generation that is new. -/
theorem changes_eq (h : w.Lives w₁ id)
    (hgen : (w₁.config id).generation = (w.config id).generation) :
    w₁.changes id = w.changes id :=
  h.changes.resolve_right fun hnew => Nat.ne_of_gt hnew.2 hgen

end World.Lives

/-! ## The trail -/

/-- Nobody was told anything by the configuration. -/
def World.Untold (w : World σ) (id : ConfigId) : Prop :=
  w.activations id = [] ∧ w.changes id = []

theorem World.Untold.record {e : Entry} (h : w.Untold id) (he : e.isNews = false) :
    (w.record e).Untold id :=
  ⟨(activations_record he).trans h.1, (changes_record he).trans h.2⟩

theorem World.Untold.of_asleep (h : w.Untold id) (hlives : w.Lives w₁ id)
    (hasleep : (w₁.config id).active = false) : w₁.Untold id := by
  have hstill (h : (w₁.config id).active = true) : False := by
    rw [hasleep] at h
    cases h
  exact ⟨(hlives.activations.resolve_right fun hwoken => hstill hwoken.2).trans h.1,
    (hlives.changes.resolve_right fun hnew => hstill hnew.1).trans h.2⟩

/-- The configurations that sleep have told nobody anything, and what comes of all of them
goes by `World.Lives`. -/
def Trail.life (code : Code σ) (start : World σ) : Trail code where
  holds w := Reaches code start w ∧ ∀ id, (w.config id).active = false → w.Untold id
  leads w w' := Leads code w w' ∧ ∀ id, w.Lives w' id
  runs env := ∃ room, env = Engine.env code room
  refl w := ⟨.refl w, .refl w⟩
  trans h h' := ⟨h.1.trans h'.1, fun id => (h.2 id).trans (h'.2 id)⟩
  onward hw h := ⟨.leads hw.1 h.1, fun id hasleep =>
    (hw.2 id ((h.2 id).asleep hasleep)).of_asleep (h.2 id) hasleep⟩
  stir h := ⟨.one h.change, fun _ => .of_stir h⟩
  keep id m t links hruns hmiss hmade hworking := by
    obtain ⟨room, rfl⟩ := hruns
    exact ⟨.keep room id m t links (.refl _) hmiss hmade hworking.1,
      fun id => (hworking.2 id).trans (.keepChain ..)⟩
  lent s o hw := ⟨.lending s o hw.1, fun id hasleep => (hw.2 id hasleep).record rfl⟩
  returned s o hw := ⟨.returning s o hw.1, fun id hasleep => (hw.2 id hasleep).record rfl⟩
  lend s o hduring hafter :=
    ⟨.lend s o (.refl _) hduring.1 hafter.1, fun id =>
      (((World.Lives.record _ rfl).trans (hduring.2 id)).trans (.record _ rfl)).trans
        (hafter.2 id)⟩

namespace Trail

variable {start : World σ}

theorem life_exposes : (Trail.life code start).Exposes where
  exposing proxy hw := ⟨.exposing proxy hw.1, hw.2⟩
  expose proxy hduring := ⟨.expose proxy (.refl _) hduring.1, fun id =>
    ⟨(hduring.2 id).active, (hduring.2 id).generation_le, (hduring.2 id).activations,
      (hduring.2 id).changes⟩⟩

theorem life_restructured (h : (w.config id).isFrozen = false) (action : String) (l : Layout) :
    (Trail.life code start).leads w (w.restructured id action l) := by
  refine ⟨(Trail.steps code w).leads_restructured .one h action l, fun id' => ?_⟩
  have hset : w.Lives (w.setConfig id { (w.config id).advance l with cache := [] }) id' :=
    .setConfig (fun ha => ha) (Nat.le_succ _)
  exact hset.trans (.record _ rfl)

theorem life_woken (w : World σ) (id : ConfigId) :
    (Trail.life code start).leads w (w.woken id) := by
  refine ⟨(Trail.steps code w).leads_woken .one w id, fun id' => ?_⟩
  have hset : w.Lives (w.setConfig id { w.config id with active := true }) id' :=
    .setConfig (fun _ => rfl) (Nat.le_refl _)
  exact hset.trans (.record _ rfl)

/-- While a change is told the configuration is active, and of a later generation than
before the change. -/
theorem life_tellChanged {action : String} {l : Layout} {v : World σ}
    (hthawed : (w.config id).isFrozen = false) (hactive : (w.config id).active = true)
    (h : (Trail.life code start).Round (.changed id) (w.restructured id action l) v) :
    (Trail.life code start).leads w v ∧ (v.config id).active = true ∧
      (w.config id).generation < (v.config id).generation := by
  induction h with
  | start =>
    refine ⟨life_restructured hthawed action l, ?_⟩
    rw [World.config_restructured (World.index_lt_of_active hactive)]
    exact ⟨hactive, Nat.lt_succ_self _⟩
  | told l _ ih =>
    obtain ⟨⟨hl, hlives⟩, ha, hlt⟩ := ih
    exact ⟨⟨hl.trans (.one (.tellChanged _ id l)), fun id' => (hlives id').tellChanged ha hlt l⟩,
      ha, hlt⟩
  | onward _ hv ih =>
    obtain ⟨hl, ha, hlt⟩ := ih
    exact ⟨(Trail.life code start).trans hl hv, (hv.2 id).active ha,
      Nat.lt_of_lt_of_le hlt (hv.2 id).generation_le⟩

/-- While it is told that a configuration is active, it is so and was not before. -/
theorem life_tellActivated {v : World σ} (hasleep : (w.config id).active = false)
    (hid : id.index < w.configs.size)
    (h : (Trail.life code start).Round (.activated id) (w.woken id) v) :
    (Trail.life code start).leads w v ∧ (v.config id).active = true := by
  induction h with
  | start =>
    refine ⟨life_woken w id, ?_⟩
    rw [World.config_woken hid]
  | told l _ ih =>
    obtain ⟨⟨hl, hlives⟩, ha⟩ := ih
    exact ⟨⟨hl.trans (.one (.tellActivated _ id l)),
      fun id' => (hlives id').tellActivated hasleep ha l⟩, ha⟩
  | onward _ hv ih =>
    obtain ⟨hl, ha⟩ := ih
    exact ⟨(Trail.life code start).trans hl hv, (hv.2 id).active ha⟩

theorem life_passes : (Trail.life code start).Passes where
  exposes := life_exposes
  runs room := ⟨room, rfl⟩
  tells henv := by
    refine .of_edits (fun action hw _ => ?_) fun id => ?_
    · exact Configuration.edit_tracksFrom henv hw _ action _
        (fun _ l _ hthawed => life_restructured hthawed action l)
        fun _ _ _ _ hthawed hactive h => (life_tellChanged hthawed hactive h).1
    · exact Configuration.activate_tracks henv id (fun w _ => life_woken w id)
        fun _ _ hasleep hlisteners h =>
          (life_tellActivated hasleep (World.index_lt_of_listeners hlisteners) h).1

/-- A world that is new has told nobody anything. -/
theorem life_initial (code : Code σ) (s : σ) :
    (Trail.life code { user := s }).holds { user := s } :=
  ⟨.refl, fun _ _ => ⟨rfl, rfl⟩⟩

end Trail

/-- What the engine itself does keeps to the trail. -/
theorem Engine.env_life (code : Code σ) (start : World σ) (room : Nat) :
    (env code room).Tracks (.life code start) (env code room) :=
  env_tracks Trail.life_passes room

end Aspects
