import Aspects.Proofs.Telling.Rounds

/-!
# Who is told that a configuration is active

The first proxy wakes its configuration up, and the listeners are told so one after the
other. As long as a configuration sleeps nobody is told anything, and once it is awake
nobody is told again that it is. So whoever is a listener when the first proxy is asked
for is told once for each time that it was added (`activation_told`).

The configuration is active before the first listener is told, and while a listener does
what it does the others wait. If it changes the configuration then those that wait are
told of that first (`change_told_before_activation`). Nothing else can make that happen: a
listener that is told that a configuration of the generation of before is active comes
before anybody who is told of a change.
-/

namespace Aspects

variable {σ : Type} {α : Type} {code : Code σ} {start w w' : World σ} {id : ConfigId}

/-- Waking a configuration up tells its listeners, each when all before it have done what
they do. -/
theorem Configuration.activate_tells {room : Nat}
    (hw : (Trail.life code start).holds w) (hasleep : (w.config id).active = false)
    (hid : id.index < w.configs.size)
    (h : activate (Engine.env code room) id w = some ((), w')) :
    (Trail.life code start).leads w w' ∧ (w'.config id).active = true ∧
      w'.activations id = (w.config id).listeners ∧
      ∃ moments, moments.map (·.1) = (w.config id).listeners ∧
        Telling (Engine.env code room) (.activated id) (code.activated · id) moments
          (w.woken id) w' ∧
        ∀ m ∈ moments, (m.2.config id).generation = (w.config id).generation →
          m.2.changes id = [] := by
  obtain ⟨hactivations, hchanges⟩ := hw.2 id hasleep
  have henv := Engine.env_life code start room
  rw [activate_asleep _ hasleep, tellActivated, henv.code_eq] at h
  obtain ⟨moments, hls, htelling⟩ := Telling.iff_notify.mp h
  -- every world of the round comes from the one before it in which the configuration slept
  have hround (v : World σ)
      (hv : (Trail.life code start).Round (.activated id) (w.woken id) v) :
      (Trail.life code start).leads w v ∧ (v.config id).active = true :=
    Trail.life_tellActivated hasleep hid hv
  have hcalled (l : Routine) (v v' : World σ)
      (hv : (Trail.life code start).Round (.activated id) (w.woken id) v)
      (hl : (Engine.env code room).run (code.activated l id) v = some ((), v')) :
      (Trail.life code start).Round (.activated id) (w.woken id) v' ∧
        v'.activations id = v.activations id := by
    obtain ⟨hlv, hactive⟩ := hround v hv
    have hleads := (henv.run (fun _ => code.activated l id) v
      ((Trail.life code start).onward hw hlv)).leads _ _ hl
    exact ⟨.onward hv hleads, (hleads.2 id).activations_eq hactive⟩
  have hchosen (l : Routine) : Entry.activated? id (.activated id l) = some l := if_pos rfl
  obtain ⟨hend, hmoments, hall⟩ :=
    htelling.keeps _ hchosen (fun v l hv => .told l hv) (fun l _ => hcalled l) .start
  obtain ⟨hleads, hactive⟩ := hround w' hend
  refine ⟨hleads, hactive, ?_, moments, hls, htelling, fun m hm hgen => ?_⟩
  · have hwoken : (w.woken id).chosen (Entry.activated? id) = [] := hactivations
    rw [hwoken, List.nil_append, hls] at hall
    exact hall
  · exact (((hround m.2 (hmoments m hm)).1.2 id).changes_eq hgen).trans hchanges

/-- Throughout every run, whatever the listeners do: a configuration that sleeps has told
nobody anything. If a proxy is asked for then every listener is told that it is active,
once for each time that it was added and in this order, and none is told of a change
before that unless a new generation was made since the proxy was asked for, by what a
listener did that was told before. Once the configuration is active nobody is told again
that it is. -/
theorem activation_told (code : Code σ) (room : Nat) (p : Action σ α) (s : σ) :
    Engine.Throughout code room p { user := s } fun w => ∀ id, id.index < w.configs.size →
      ((w.config id).active = false →
        w.Untold id ∧
        ∀ room maker o w', Engine.perform code (room + 1) (.getProxy id maker) w = some (o, w') →
          (w'.config id).active = true ∧ w'.activations id = (w.config id).listeners ∧
          ∃ moments v, moments.map (·.1) = (w.config id).listeners ∧
            Telling (Engine.env code room) (.activated id) (code.activated · id) moments
              (w.woken id) v ∧
            ∀ m ∈ moments, (m.2.config id).generation = (w.config id).generation →
              m.2.changes id = []) ∧
      ((w.config id).active = true → ∀ room {β : Type} (c : Command σ β) b w',
        Engine.perform code room c w = some (b, w') →
        (w'.config id).active = true ∧ w'.activations id = w.activations id) := by
  refine Engine.throughout_along Trail.life_passes (fun w hw id hid => ⟨?_, ?_⟩)
    (Trail.life_initial code s) room p
  · intro hasleep
    refine ⟨hw.2 id hasleep, fun room maker o w' h => ?_⟩
    have henv := Engine.env_life code { user := s } room
    change (Proxy.get (Engine.env code room) id maker).run w = some (o, w') at h
    unfold Proxy.get at h
    rw [Act.run_ofRun] at h
    obtain ⟨⟨_, v⟩, hwoken, hmade⟩ := Option.bind_eq_some_iff.mp h
    obtain ⟨hleads, hactive, hactivations, moments, hls, htelling, hchanges⟩ :=
      Configuration.activate_tells hw hasleep hid hwoken
    -- nobody is told by the making of the proxy
    have hlives : v.Lives w' id := by
      have hv := (Trail.life code { user := s }).onward hw hleads
      cases maker with
      | standard => exact ((Proxy.create_tracks id v hv).leads _ _ hmade).2 id
      | user body => exact ((henv.exec (fun c => c.makeProxy body id) v hv).leads _ _ hmade).2 id
    exact ⟨hlives.active hactive, (hlives.activations_eq hactive).trans hactivations,
      moments, v, hls, htelling, hchanges⟩
  · intro hactive room β c b w' h
    have hlives := (((Engine.env_life code { user := s } room).perform c w hw).leads b w' h).2 id
    exact ⟨hlives.active hactive, hlives.activations_eq hactive⟩

/-! ## A listener that does not wait -/

/-- User code with a listener that adds an interface as soon as it is told that a
configuration is active. -/
def hasty : Code Unit :=
  { Code.idle with
    activated := fun l id =>
      if l = ⟨0⟩ then do
        let _ ← .ofCommand (.addInterface id (.plain "Service" .interfaceKind))
        return ()
      else return () }

/-- Asks for a proxy of a configuration with that listener and, behind it, another one
that was added twice. -/
def wakeWithHasty : Action Unit Unit := do
  let s ← .ofCommand (.newSource (.singleton ⟨.plain "Plain" .classKind, 0, .entity "p"⟩))
  let c ← .ofCommand (.newConfig { source := s })
  .ofCommand (.addListener c ⟨0⟩)
  .ofCommand (.addListener c ⟨1⟩)
  .ofCommand (.addListener c ⟨1⟩)
  let _ ← .ofCommand (.getProxy c .standard)
  return ()

/-- The other listener is told of a change before it is told that the configuration is
active, and it is told that twice. -/
theorem change_told_before_activation :
    (Engine.run hasty 2 wakeWithHasty { user := () }).map
        (fun r => (r.2.journal.filter Entry.isNews).reverse)
      = some [.activated ⟨0⟩ ⟨0⟩, .changed ⟨0⟩ ⟨0⟩, .changed ⟨0⟩ ⟨1⟩, .changed ⟨0⟩ ⟨1⟩,
          .activated ⟨0⟩ ⟨1⟩, .activated ⟨0⟩ ⟨1⟩] :=
  rfl

end Aspects
