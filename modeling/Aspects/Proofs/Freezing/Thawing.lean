import Aspects.Proofs.Freezing.Immutability

/-!
# A frozen configuration may thaw

Of the commands that set flags one does not ask whether the configuration is frozen: the
one that a factory has for the time when it is put together. Nothing keeps a factory from
using it later, when proxies have the configuration already. So a configuration that was
frozen once is frozen still and has the same layout, or a factory has replaced its flags
when that was so (`thawed_by_factory_throughout`); and a factory may do so in every world.
-/

namespace Aspects

variable {σ : Type} {α : Type} {code : Code σ} {w w₁ w₂ : World σ} {id : ConfigId}

/-- A factory replaced the flags of the configuration when it was still as frozen as in the
first world. -/
def World.Reopened (code : Code σ) (w w' : World σ) (id : ConfigId) : Prop :=
  ∃ v, Reaches code w v ∧ w.Protects v id ∧
    ∃ es, w'.journal = es ++ .reflagged id :: v.journal

/-- The configuration is as frozen as in the first world, or it was so when a factory
replaced its flags. -/
def World.ProtectsOrReopened (code : Code σ) (w w' : World σ) (id : ConfigId) : Prop :=
  w.Protects w' id ∨ w.Reopened code w' id

namespace World.ProtectsOrReopened

/-- What keeps the configuration and adds to the journal. -/
theorem onward (h : w.ProtectsOrReopened code w₁ id) (hprotects : w₁.Protects w₂ id)
    (hjournal : ∃ es, w₂.journal = es ++ w₁.journal) : w.ProtectsOrReopened code w₂ id := by
  rcases h with hkept | ⟨v, hv, hfrozen, es, hes⟩
  · exact .inl (hkept.trans hprotects)
  · obtain ⟨es', hes'⟩ := hjournal
    exact .inr ⟨v, hv, hfrozen, es' ++ es, by rw [hes', hes, List.append_assoc]⟩

theorem record (h : w.ProtectsOrReopened code w₁ id) (e : Entry) :
    w.ProtectsOrReopened code (w₁.record e) id :=
  h.onward (.of_config rfl) ⟨[e], rfl⟩

theorem change (h : w.ProtectsOrReopened code w₁ id) (hr : Reaches code w w₁)
    (hc : Change w₁ w₂) : w.ProtectsOrReopened code w₂ id := by
  obtain ⟨es, hes⟩ := hc.appends
  rcases hc.protects_or_reflags id with hprotects | hreflagged
  · exact h.onward hprotects ⟨es, hes⟩
  · -- it is the first time that flags are replaced that is remembered
    rcases h with hkept | ⟨v, hv, hfrozen, es', hes'⟩
    · exact .inr ⟨w₁, hr, hkept, [], hreflagged⟩
    · exact .inr ⟨v, hv, hfrozen, es ++ es', by rw [hes, hes', List.append_assoc]⟩

theorem leads (hl : Leads code w₁ w₂) (hr : Reaches code w w₁)
    (h : w.ProtectsOrReopened code w₁ id) : w.ProtectsOrReopened code w₂ id := by
  -- what happens inside of a stretch is reached from the first world as well, and more need
  -- not be known of the moment of thawing
  induction hl with
  | refl _ => exact h
  | change hl hc ih => exact (ih hr h).change (hr.leads hl) hc
  | keep room id' m t links hl _ _ _ ih ihmade =>
    exact (ihmade (hr.leads hl) (ih hr h)).onward (.keepChain _ id' _ _ links) ⟨[], rfl⟩
  | expose proxy hl _ ih ihduring => exact ihduring ((hr.leads hl).exposing proxy) (ih hr h)
  | lend s o hl hduring _ ih ihduring ihafter =>
    have hlent := (hr.leads hl).lending s o
    have hback := ihduring hlent ((ih hr h).record _)
    exact ihafter ((hlent.leads hduring).returning s o) (hback.record _)

end World.ProtectsOrReopened

theorem Reaches.protects_or_reopened (h : Reaches code w w₁) (id : ConfigId) :
    w.ProtectsOrReopened code w₁ id := by
  induction h with
  | refl => exact .inl (.of_config rfl)
  | leads hr hl ih => exact .leads hl hr ih
  | exposing proxy _ ih => exact ih
  | lending s o _ ih => exact ih.record _
  | returning s o _ ih => exact ih.record _

/-- Throughout every run: a configuration that was frozen when the run began is so still,
with the same interfaces and advisors, and refuses to have them changed, unless a factory
replaced its flags when all that was so. A factory may do that in every world, and gives
the configuration the flags that it likes. -/
theorem thawed_by_factory_throughout (code : Code σ) (room : Nat) (p : Action σ α)
    (w : World σ) :
    Engine.Throughout code room p w fun w' => ∀ id, (w.config id).isFrozen = true →
      (((w'.config id).isFrozen = true ∧ (w'.config id).layout = (w.config id).layout ∧
          ∀ {β : Type} (c : Command σ (Outcome β)), c.Restructures id → ∀ env : Env σ,
            Run.RefusedIn w' (Engine.meaning env c)) ∨
        ∃ v, Reaches code w v ∧ (v.config id).isFrozen = true ∧
          (v.config id).layout = (w.config id).layout ∧
          ∃ es, w'.journal = es ++ .reflagged id :: v.journal) ∧
      ∀ (f : Flags) (env : Env σ), ∃ w'',
        Engine.meaning env (.replaceFlags id f) w' = some ((), w'') ∧
          w''.config id = { w'.config id with flags := f } := by
  refine Engine.throughout (fun w' hr id hfrozen => ⟨?_, fun f env => ?_⟩) room p
  · rcases hr.protects_or_reopened id with hkept | ⟨v, hv, hprotects, hjournal⟩
    · obtain ⟨hfrozen', hlayout⟩ := hkept hfrozen
      exact .inl ⟨hfrozen', hlayout, fun c hc env => refused_of_restructures hfrozen' hc⟩
    · obtain ⟨hfrozen', hlayout⟩ := hprotects hfrozen
      exact .inr ⟨v, hv, hfrozen', hlayout, hjournal⟩
  · -- the configuration exists, since it was frozen once
    have hknown : id.index < w'.configs.size := by
      refine Nat.lt_of_lt_of_le (Nat.lt_of_not_le fun hle => ?_) hr.outgrows.size_le
      rw [World.config_of_le hle] at hfrozen
      cases hfrozen
    exact ⟨_, rfl, World.config_setConfig_self (w := w'.record (.reflagged id)) hknown _⟩

namespace Thaw

def service : TypeDesc := .plain "Service" .interfaceKind

/-- A proxy is made with a configuration that is frozen. Then the factory is given flags,
and an interface comes in. -/
def program : Action Unit (Outcome Unit) := do
  let c ← .ofCommand (.newConfig { source := ⟨0⟩ })
  .ofCommand (.freeze c)
  let _ ← .ofCommand (.getProxy c .standard)
  .ofCommand (.replaceFlags c {})
  .ofCommand (.addInterface c service)

/-- There is an object to make proxies for. -/
def world : World Unit :=
  { user := (), sources := #[.singleton ⟨.plain "Impl" .classKind, 0, .entity "o"⟩] }

end Thaw

/-- The configuration of a proxy was frozen, and is changed all the same. -/
theorem thawed_and_changed :
    (Engine.run (Code.idle : Code Unit) 1 Thaw.program Thaw.world).map
        (fun r => (r.1, r.2.proxyCount, (r.2.config ⟨0⟩).isFrozen, (r.2.config ⟨0⟩).interfaces))
      = some (.ok (), 1, false, [Thaw.service]) := by
  rfl

end Aspects
