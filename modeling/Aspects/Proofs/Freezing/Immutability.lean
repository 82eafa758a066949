import Aspects.Proofs.Steps.Engine
import Aspects.Proofs.Steps.Generations

/-!
# A frozen configuration is not changed

Of the steps of the engine only two can touch what freezing protects: a layout is
replaced, which happens to no frozen configuration, and a factory replaces the flags of
its configuration without asking whether it is frozen, which is written down. So as long
as no factory does that, a configuration that is frozen stays so and keeps its interfaces
and advisors, whatever else is done (`Reaches.protects`). Every command that is to change
interfaces or advisors is refused then, and leaves the world as it was
(`refused_of_restructures`).
-/

namespace Aspects

variable {σ : Type} {α : Type} {code : Code σ} {w w₁ w₂ : World σ} {id : ConfigId}

/-! ## Along the steps -/

/-- Between the worlds a factory replaced the flags of the configuration. -/
def World.Reflagged (w w' : World σ) (id : ConfigId) : Prop :=
  ∃ es, w'.journal = es ++ w.journal ∧ .reflagged id ∈ es

/-- What is frozen in the first world is so in the second, with the same layout. -/
def World.Protects (w w' : World σ) (id : ConfigId) : Prop :=
  (w.config id).isFrozen = true →
    (w'.config id).isFrozen = true ∧ (w'.config id).layout = (w.config id).layout

/-- The second world comes after the first, and has what is frozen as it was, unless a
factory replaced the flags. -/
def World.ProtectsOrReflagged (w w' : World σ) (id : ConfigId) : Prop :=
  ∃ es, w'.journal = es ++ w.journal ∧ (.reflagged id ∈ es ∨ w.Protects w' id)

namespace World.Protects

theorem of_config (h : w₁.config id = w.config id) : w.Protects w₁ id := by
  intro hfrozen
  rw [h]
  exact ⟨hfrozen, rfl⟩

theorem trans (h : w.Protects w₁ id) (h' : w₁.Protects w₂ id) : w.Protects w₂ id := by
  intro hfrozen
  obtain ⟨hfrozen₁, hlayout⟩ := h hfrozen
  obtain ⟨hfrozen₂, hlayout'⟩ := h' hfrozen₁
  exact ⟨hfrozen₂, hlayout'.trans hlayout⟩

/-- It is enough to look at the configuration that is set. -/
theorem setConfig {id' : ConfigId} {c : Configuration}
    (h : (w.config id').isFrozen = true → c.isFrozen = true ∧ c.layout = (w.config id').layout) :
    w.Protects (w.setConfig id' c) id := by
  by_cases hid : w.configs.size ≤ id'.index
  · rw [setConfig_of_le hid]
    exact of_config rfl
  · by_cases he : id = id'
    · subst he
      intro hfrozen
      rw [config_setConfig_self (Nat.not_le.mp hid)]
      exact h hfrozen
    · exact of_config (config_setConfig_other he c)

/-- A chain in the cache is neither a flag nor a part of the layout. -/
theorem keepChain (w : World σ) (id' : ConfigId) (q : ChainQuery) (generation : Nat)
    (links : List Link) : w.Protects (w.keepChain id' q generation links) id :=
  .setConfig (w := { w with serial := w.serial + 1 }) fun hfrozen => ⟨hfrozen, rfl⟩

end World.Protects

namespace World.ProtectsOrReflagged

theorem of_journal (hj : w₁.journal = w.journal) (h : w.Protects w₁ id) :
    w.ProtectsOrReflagged w₁ id :=
  ⟨[], hj, .inr h⟩

theorem of_record (e : Entry) : w.ProtectsOrReflagged (w.record e) id :=
  ⟨[e], rfl, .inr (.of_config rfl)⟩

theorem trans (h : w.ProtectsOrReflagged w₁ id) (h' : w₁.ProtectsOrReflagged w₂ id) :
    w.ProtectsOrReflagged w₂ id := by
  obtain ⟨es, hes, hend⟩ := h
  obtain ⟨es', hes', hend'⟩ := h'
  refine ⟨es' ++ es, by rw [hes', hes, List.append_assoc], ?_⟩
  rcases hend with hflags | hprotects
  · exact .inl (List.mem_append_right _ hflags)
  · rcases hend' with hflags | hprotects'
    · exact .inl (List.mem_append_left _ hflags)
    · exact .inr (hprotects.trans hprotects')

end World.ProtectsOrReflagged

/-- Nothing that is done to a frozen configuration unfreezes it or changes its layout. -/
theorem Configuration.Touch.protects {c c' : Configuration} (h : Touch c c')
    (hfrozen : c.isFrozen = true) : c'.isFrozen = true ∧ c'.layout = c.layout := by
  cases h with
  | layout l hthawed =>
    rw [hfrozen] at hthawed
    cases hthawed
  | flags f hkept => exact ⟨hkept hfrozen, rfl⟩
  | _ => exact ⟨hfrozen, rfl⟩

/-- A change writes something down or nothing. -/
theorem Change.appends (h : Change w w₁) : ∃ es, w₁.journal = es ++ w.journal := by
  cases h with
  | remark e _ => exact ⟨[e], rfl⟩
  | reflag id f => exact ⟨[.reflagged id], rfl⟩
  | swap id old new _ _ => exact ⟨[.swapped id old new], rfl⟩
  | tellActivated id l => exact ⟨[.activated id l], rfl⟩
  | tellChanged id l => exact ⟨[.changed id l], rfl⟩
  | _ => exact ⟨[], rfl⟩

/-- A change that does not protect the configuration is that a factory replaces its flags. -/
theorem Change.protects_or_reflags (h : Change w w₁) (id : ConfigId) :
    w.Protects w₁ id ∨ w₁.journal = .reflagged id :: w.journal := by
  cases h with
  | config id' c ht => exact .inl (.setConfig ht.protects)
  | reflag id' f =>
    by_cases he : id = id'
    · subst he
      exact .inr rfl
    · exact .inl (.of_config (World.config_setConfig_other (w := w.record _) he _))
  | newConfig c =>
    refine .inl ?_
    by_cases hid : id.index < w.configs.size
    · exact .of_config (World.config_push hid _)
    · -- a number that was not given out reads as a configuration that is not frozen
      intro hfrozen
      rw [World.config_of_le (Nat.not_lt.mp hid)] at hfrozen
      cases hfrozen
  | _ => exact .inl (.of_config rfl)

theorem Change.protects (h : Change w w₁) (id : ConfigId) : w.ProtectsOrReflagged w₁ id := by
  obtain ⟨es, hes⟩ := h.appends
  rcases h.protects_or_reflags id with hprotects | hreflagged
  · exact ⟨es, hes, .inr hprotects⟩
  · exact ⟨[.reflagged id], hreflagged, .inl List.mem_cons_self⟩

theorem Leads.protects (h : Leads code w w₁) (id : ConfigId) : w.ProtectsOrReflagged w₁ id := by
  induction h with
  | refl w => exact .of_journal rfl (.of_config rfl)
  | change _ hc ih => exact ih.trans (hc.protects id)
  | keep room id' m t links _ _ _ _ ih ihmade =>
    exact (ih.trans ihmade).trans (.of_journal rfl (.keepChain _ id' _ _ links))
  | expose proxy _ _ ih ihduring => exact ih.trans ihduring
  | lend s o _ _ _ ih ihduring ihafter =>
    have hlent := (ih.trans (.of_record (.acquired s o))).trans ihduring
    exact (hlent.trans (.of_record (.released s o))).trans ihafter

theorem Reaches.protects (h : Reaches code w w₁) (id : ConfigId) :
    w.ProtectsOrReflagged w₁ id := by
  induction h with
  | refl => exact .of_journal rfl (.of_config rfl)
  | leads _ hl ih => exact ih.trans (hl.protects id)
  | exposing proxy _ ih => exact ih
  | lending s o _ ih => exact ih.trans (.of_record _)
  | returning s o _ ih => exact ih.trans (.of_record _)

/-! ## Commands that are refused -/

/-- In the world the run fails, and changes nothing but perhaps the next number. -/
def Run.RefusedIn (w : World σ) (r : Run σ (Outcome α)) : Prop :=
  ∃ e serial, r w = some (.error e, { w with serial })

namespace Configuration

variable {env : Env σ}

theorem edit_refused (h : (w.config id).isFrozen = true) (action : String) (e : Edit α) :
    Run.RefusedIn w (edit env id action e).run :=
  ⟨.fault (.frozen action), w.serial, edit_frozen env h⟩

/-- An advisor may be refused before it is seen that the configuration is frozen. -/
theorem screened_edit_refused (h : (w.config id).isFrozen = true) (a : Advisor)
    (action : String) (e : Edit α) :
    Run.RefusedIn w (do screen id a; edit env id action e : Act σ α).run := by
  unfold Run.RefusedIn
  rw [run_screened]
  cases w.refusal? id a with
  | none => exact edit_refused h action e
  | some f => exact ⟨.fault f, w.serial, rfl⟩

/-- So may advice; the advisor that was made for it has got a number by then. -/
theorem addAdvice_refused (h : (w.config id).isFrozen = true) (place : Option Nat)
    (a : Advice) : Run.RefusedIn w (addAdvice env id place a).run := by
  unfold Run.RefusedIn
  rw [run_addAdvice]
  cases w.refusal? id (.forAdvice w a) with
  | none => exact ⟨_, w.serial + 1, edit_frozen (w := { w with serial := w.serial + 1 }) env h⟩
  | some f => exact ⟨.fault f, w.serial, rfl⟩

theorem addInterface_refused (h : (w.config id).isFrozen = true) (t : TypeDesc) :
    Run.RefusedIn w (addInterface env id t).run := by
  unfold addInterface
  split
  · exact edit_refused h _ _
  · exact ⟨_, w.serial, rfl⟩

end Configuration

/-- Whatever is to change a frozen configuration is refused. -/
theorem refused_of_restructures {env : Env σ} (h : (w.config id).isFrozen = true)
    {c : Command σ (Outcome α)} (hc : c.Restructures id) :
    Run.RefusedIn w (Engine.meaning env c) := by
  cases hc with
  | addAdvisor place a => exact Configuration.screened_edit_refused h a _ _
  | removeAdvisor a => exact Configuration.edit_refused h _ _
  | removeAdvisorAt place => exact Configuration.edit_refused h _ _
  | replaceAdvisor old new => exact Configuration.screened_edit_refused h new _ _
  | addAdvice place a => exact Configuration.addAdvice_refused h place a
  | removeAdvice a => exact Configuration.edit_refused h _ _
  | addInterface t => exact Configuration.addInterface_refused h t
  | removeInterface t => exact Configuration.edit_refused h _ _

/-! ## The result -/

/-- Throughout every run: a configuration that was frozen when the run began is so still,
with the same interfaces and advisors, unless a factory has replaced its flags; and every
command that is to change these fails and changes nothing, neither the generation nor the
cache, and no listener is told. -/
theorem frozen_throughout (code : Code σ) (room : Nat) (p : Action σ α) (w : World σ) :
    Engine.Throughout code room p w fun w' => ∀ id, (w.config id).isFrozen = true →
      ¬ w.Reflagged w' id →
      (w'.config id).isFrozen = true ∧ (w'.config id).layout = (w.config id).layout ∧
        ∀ {β : Type} (c : Command σ (Outcome β)), c.Restructures id → ∀ env : Env σ,
          Run.RefusedIn w' (Engine.meaning env c) := by
  refine Engine.throughout (fun w' hr id hfrozen hflags => ?_) room p
  obtain ⟨es, hes, hend⟩ := hr.protects id
  have hprotects : w.Protects w' id := hend.resolve_left fun hmem => hflags ⟨es, hes, hmem⟩
  obtain ⟨hfrozen', hlayout⟩ := hprotects hfrozen
  exact ⟨hfrozen', hlayout, fun c hc env => refused_of_restructures hfrozen' hc⟩

/-- An interface comes too late for a configuration that is frozen. -/
example :
    (Engine.run (Code.idle : Code Unit) 1 (do
        let c ← .ofCommand (.newConfig {})
        .ofCommand (.freeze c)
        .ofCommand (.addInterface c (.plain "Service" .interfaceKind))) { user := () }).map
        (fun r => (r.1, (r.2.config ⟨0⟩).interfaces))
      = some (.error (.fault (.frozen "add interface")), []) :=
  rfl

end Aspects
