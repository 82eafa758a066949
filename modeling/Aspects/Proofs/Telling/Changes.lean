import Aspects.Proofs.Caching.Transparency
import Aspects.Proofs.Telling.Edits
import Aspects.Proofs.Telling.Rounds

/-!
# What listeners are told of changes

A command that is to change the interfaces or the advisors of a configuration either
leaves everything as it was and tells nobody, or it brings the new layout and, if the
configuration is active, tells the listeners. If none of them changes the configuration in
turn then each is told once for each time that it was added, and whatever it looks at when
it is told is as new as the layout: this goes for the chains too, of which none from before
the change is left (`structural_change_told`).
-/

namespace Aspects

variable {σ : Type} {α : Type} {code : Code σ} {start w w' : World σ} {id : ConfigId}

/-- Whatever the listener does when it is told of a change of the configuration, it leaves
interfaces, advisors and generation as they are. -/
def Routine.LeavesAlone (code : Code σ) (start : World σ) (id : ConfigId) (l : Routine) : Prop :=
  ∀ room v v', Reaches code start v →
    (Engine.env code room).run (code.changed l id) v = some ((), v') →
    (v'.config id).layout = (v.config id).layout ∧
      (v'.config id).generation = (v.config id).generation

/-- Every chain that is looked up is what the advisors of now make for the method and the
target type, provided that what is kept for the key in the present generation, if anything
is, was looked up for the same method, target type and flag. -/
def LooksUpRight (code : Code σ) (start w : World σ) (id : ConfigId) : Prop :=
  ∀ room m t chain w',
    (Configuration.chainFor (Engine.env code room) id m t).run w = some (.ok chain, w') →
    (∀ e, (w.config id).kept? m.key = some e → e.query = (w.config id).query m t) →
    MadeOfNow code start w id ((w.config id).query m t) chain.links

theorem LooksUpRight.of_reaches (hs : Sound code start start) (hr : Reaches code start w)
    (id : ConfigId) : LooksUpRight code start w id := by
  intro room m t chain w' h hsame
  have horigin : (w.config id).origin m t = (w.config id).query m t := by
    unfold Configuration.origin
    cases hkept : (w.config id).kept? m.key with
    | none => rfl
    | some e => exact hsame e hkept
  rw [← horigin]
  exact ((hs.reaches hr).chainFor hr h).ofNow

/-- A round in which listeners are told of a new layout that they leave alone. -/
theorem Telling.changes {room : Nat} {action : String} {l : Layout}
    (hw : (Trail.life code start).holds w) (hthawed : (w.config id).isFrozen = false)
    (hactive : (w.config id).active = true)
    (halone : ∀ listener ∈ (w.config id).listeners, listener.LeavesAlone code start id)
    {moments : List (Routine × World σ)} (hls : moments.map (·.1) = (w.config id).listeners)
    (h : Telling (Engine.env code room) (.changed id) (code.changed · id) moments
      (w.restructured id action l) w') :
    (w'.config id).layout = l ∧ (w'.config id).generation = (w.config id).generation + 1 ∧
      w'.changes id = w.changes id ++ (w.config id).listeners ∧
      ∀ m ∈ moments, Reaches code start m.2 ∧ (m.2.config id).layout = l := by
  have henv := Engine.env_life code start room
  have hid : id.index < w.configs.size := World.index_lt_of_active hactive
  -- a listener leaves the layout alone, so nobody is told of a change that it made
  have hcalled (listener : Routine) (hmem : listener ∈ moments.map (·.1)) (v v' : World σ)
      (hv : (Trail.life code start).Round (.changed id) (w.restructured id action l) v ∧
        (v.config id).layout = l ∧ (v.config id).generation = (w.config id).generation + 1)
      (hrun : (Engine.env code room).run (code.changed listener id) v = some ((), v')) :
      ((Trail.life code start).Round (.changed id) (w.restructured id action l) v' ∧
        (v'.config id).layout = l ∧ (v'.config id).generation = (w.config id).generation + 1) ∧
      v'.changes id = v.changes id := by
    obtain ⟨hround, hlayout, hgen⟩ := hv
    have hholds := (Trail.life code start).onward hw
      (Trail.life_tellChanged hthawed hactive hround).1
    have hleads := (henv.run (fun _ => code.changed listener id) v hholds).leads _ _ hrun
    obtain ⟨hlayout', hgen'⟩ := halone listener (hls ▸ hmem) room v v' hholds.1 hrun
    exact ⟨⟨.onward hround hleads, hlayout'.trans hlayout, hgen'.trans hgen⟩,
      (hleads.2 id).changes_eq hgen'⟩
  have hchosen (listener : Routine) : Entry.changed? id (.changed id listener) = some listener :=
    if_pos rfl
  have hrestructured := World.config_restructured hid action l
  obtain ⟨⟨_, hlayout, hgen⟩, hmoments, hall⟩ :=
    h.keeps _ hchosen (fun v listener hv => ⟨.told listener hv.1, hv.2⟩) hcalled
      ⟨.start, by rw [hrestructured]; rfl, by rw [hrestructured]; rfl⟩
  have hsame : (w.restructured id action l).chosen (Entry.changed? id) = w.changes id :=
    World.changes_record rfl
  rw [hsame, hls] at hall
  refine ⟨hlayout, hgen, hall, fun m hm => ?_⟩
  obtain ⟨hround, hlayout, _⟩ := hmoments m hm
  exact ⟨.leads hw.1 (Trail.life_tellChanged hthawed hactive hround).1.1, hlayout⟩

/-- In the world the run answers, and changes nothing but perhaps the next number. -/
def Run.IdleIn (w : World σ) (r : Run σ (Outcome α)) (a : α) : Prop :=
  ∃ serial, r w = some (.ok a, { w with serial })

/-- Throughout every run, for every command that is to change a configuration by an edit:
if the configuration is frozen or the edit refuses then the command fails, and if the edit
finds nothing to change then it answers; either way everything is as before and nobody was
told anything. If the edit finds a new layout then that is the layout of the next
generation, with nothing in the cache. Nobody is told of it while the configuration sleeps.
If it is active then the command tells every listener, once for each time that it was
added, and answers. If these leave the configuration alone then nobody is told besides,
and whenever one is told, the layout and the chains that it can look up are those of after
the change. -/
theorem structural_change_told (code : Code σ) (room : Nat) (p : Action σ α) (s : σ) :
    Engine.Throughout code room p { user := s } fun w => ∀ id, id.index < w.configs.size →
      ∀ {β : Type} (c : Command σ (Outcome β)) (e : Edit β), c.Edits w id e → ∀ room,
        ((w.config id).isFrozen = true → Run.RefusedIn w (Engine.perform code (room + 1) c)) ∧
        ((w.config id).isFrozen = false →
          (∀ f, e (w.config id).layout = .error f →
            Run.RefusedIn w (Engine.perform code (room + 1) c)) ∧
          (∀ a, e (w.config id).layout = .ok (a, none) →
            Run.IdleIn w (Engine.perform code (room + 1) c) a) ∧
          ∀ a l, e (w.config id).layout = .ok (a, some l) →
            ∃ action serial w₁, w₁ = ({ w with serial } : World σ).restructured id action l ∧
              w₁.config id = { (w.config id).advance l with cache := [] } ∧
              w₁.changes id = w.changes id ∧
              ((w.config id).active = false →
                Engine.perform code (room + 1) c w = some (.ok a, w₁)) ∧
              ((w.config id).active = true →
                (∀ o w', Engine.perform code (room + 1) c w = some (o, w') ↔
                  o = .ok a ∧ ∃ moments, moments.map (·.1) = (w.config id).listeners ∧
                    Telling (Engine.env code room) (.changed id) (code.changed · id) moments
                      w₁ w') ∧
                ((∀ listener ∈ (w.config id).listeners,
                    listener.LeavesAlone code { user := s } id) →
                  ∀ moments w', moments.map (·.1) = (w.config id).listeners →
                    Telling (Engine.env code room) (.changed id) (code.changed · id) moments
                      w₁ w' →
                    (w'.config id).layout = l ∧
                    (w'.config id).generation = (w.config id).generation + 1 ∧
                    w'.changes id = w.changes id ++ (w.config id).listeners ∧
                    ∀ m ∈ moments, (m.2.config id).layout = l ∧
                      LooksUpRight code { user := s } m.2 id))) := by
  refine Engine.throughout_along Trail.life_passes (fun w hw id hid β c e hc room => ?_)
    (Trail.life_initial code s) room p
  have hrefused (hfrozen : (w.config id).isFrozen = true) :
      Run.RefusedIn w (Engine.perform code (room + 1) c) :=
    refused_of_restructures hfrozen (Command.restructures_iff_edits.mpr ⟨e, hc⟩)
  refine ⟨hrefused, fun hthawed => ?_⟩
  have hcarries : Run.CarriesOut (Engine.env code room) w id e
      (Engine.perform code (room + 1) c) := hc.carriesOut hthawed _
  refine ⟨hcarries.error, fun a he => ?_, fun a l he => ?_⟩
  · obtain ⟨action, serial, _, hrun⟩ := hcarries.ok _ he
    exact ⟨serial, hrun.trans (Configuration.edit_none (w := { w with serial }) _ hthawed rfl)⟩
  · obtain ⟨action, serial, hserial, hrun⟩ := hcarries.ok _ he
    refine ⟨action, serial, _, rfl, World.config_restructured hid action l,
      World.changes_record rfl, fun hasleep => ?_, fun hactive => ⟨fun o w' => ?_, ?_⟩⟩
    · exact hrun.trans (Configuration.edit_untold (w := { w with serial }) _ hthawed rfl hasleep)
    · -- the run ends exactly if the round of telling does, and there
      rw [hrun, Configuration.edit_told (w := { w with serial }) _ hthawed rfl hactive,
        Configuration.tellChanged, (Engine.env_life code w room).code_eq, Option.map_eq_some_iff]
      constructor
      · rintro ⟨⟨_, w₁⟩, htold, hk⟩
        cases hk
        exact ⟨rfl, Telling.iff_notify.mp htold⟩
      · rintro ⟨rfl, htold⟩
        exact ⟨((), w'), Telling.iff_notify.mpr htold, rfl⟩
    · -- the number that may have been drawn for an advisor is nothing to the trail
      intro halone moments w' hls htelling
      have hholds : (Trail.life code { user := s }).holds { w with serial } := by
        rcases hserial with rfl | rfl
        · exact hw
        · have hdrawn := Trail.stir (Trail.life code { user := s }) (.of_eq (.number w) rfl rfl)
          exact Trail.onward _ hw hdrawn
      obtain ⟨hlayout, hgen, hchanges, hmoments⟩ :=
        htelling.changes hholds hthawed hactive halone hls
      exact ⟨hlayout, hgen, hchanges, fun m hm =>
        ⟨(hmoments m hm).2, .of_reaches (.initial s) (hmoments m hm).1 id⟩⟩

end Aspects
