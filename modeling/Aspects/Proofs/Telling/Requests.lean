import Aspects.Proofs.Conforming.Types
import Aspects.Proofs.Telling.Activation

/-!
# Asking for a proxy

It is the asking for a proxy that wakes a configuration up, and not the making of one. To say
that nobody asks, not even user code at some depth, a run is compared with one in which
nothing comes of asking (`Engine.refusing`): as long as that goes the same way the
configuration sleeps (`Engine.refusing_sleeps`).

So what a client does with a configuration is a `Course`: commands in which nobody asks, and
requests, of which a `Request` says in which world they were made and what came of them. At
its end the configuration is active exactly if there was a request, and its listeners were
told at the first one, whether a proxy came of it or a failure (`activation_follows_requests`).
A failure has no less effect than a proxy (`failed_request_told`).
-/

namespace Aspects

variable {σ : Type} {α : Type} {code : Code σ} {start w w₁ w' : World σ} {id id' : ConfigId}

/-- The configuration was given out and is not active. -/
def World.Sleeps (w : World σ) (id : ConfigId) : Prop :=
  id.index < w.configs.size ∧ (w.config id).active = false

namespace World.Sleeps

theorem setConfig (h : w.Sleeps id) {c : Configuration}
    (hc : id' = id → c.active = false) : (w.setConfig id' c).Sleeps id := by
  refine ⟨by simpa [World.setConfig] using h.1, ?_⟩
  rcases w.config_setConfig_cases id' id c with heq | ⟨rfl, heq⟩
  · rw [heq]
    exact h.2
  · rw [heq]
    exact hc rfl

theorem of_stir (h : w.Sleeps id) (hs : Stir w w₁) : w₁.Sleeps id :=
  ⟨Nat.lt_of_lt_of_le h.1 hs.change.outgrows.size_le, (hs.active_eq id).trans h.2⟩

theorem keepChain (h : w.Sleeps id) (id' : ConfigId) (q : ChainQuery) (generation : Nat)
    (links : List Link) : (w.keepChain id' q generation links).Sleeps id := by
  have hnumbered : ({ w with serial := w.serial + 1 } : World σ).Sleeps id := h
  refine hnumbered.setConfig fun heq => ?_
  rw [heq]
  exact h.2

theorem restructured (h : w.Sleeps id) (id' : ConfigId) (action : String) (l : Layout) :
    (w.restructured id' action l).Sleeps id := by
  refine h.setConfig fun heq => ?_
  rw [heq]
  exact h.2

/-- Another configuration wakes up. -/
theorem woken (h : w.Sleeps id) (hother : id' ≠ id) : (w.woken id').Sleeps id :=
  h.setConfig fun heq => absurd heq hother

end World.Sleeps

/-! ## Runs in which nobody asks -/

/-- The command asks for a proxy of the configuration. -/
def Command.asksFor (id : ConfigId) {β : Type} : Command σ β → Bool
  | getProxy id' _ => id' == id
  | _ => false

/-- The environment in which nothing comes of asking for a proxy of the configuration. -/
def Engine.refusing (code : Code σ) (id : ConfigId) : Nat → Env σ
  | 0 => ⟨code, fun _ _ => none⟩
  | room + 1 => ⟨code, fun c =>
      if c.asksFor id then fun _ => none else meaning (refusing code id room) c⟩

/-- The configuration goes on sleeping. -/
def Trail.asleep (code : Code σ) (id : ConfigId) : Trail code where
  holds w := w.Sleeps id
  leads w w' := w.Sleeps id → w'.Sleeps id
  runs _ := True
  refl _ h := h
  trans h h' hw := h' (h hw)
  onward hw h := h hw
  stir hs hw := hw.of_stir hs
  keep id' _ _ links _ _ _ hworking hw := (hworking hw).keepChain id' _ _ links
  lent _ _ hw := hw
  returned _ _ hw := hw
  lend _ _ hduring hafter hw := hafter (hduring hw)

namespace Trail

theorem asleep_exposes : (Trail.asleep code id).Exposes where
  exposing _ hw := hw
  expose _ hduring hw := hduring hw

/-- While something is told of a configuration nobody wakes another one up. -/
theorem asleep_round {entry : Routine → Entry} {v : World σ} (hw : w.Sleeps id)
    (h : (Trail.asleep code id).Round entry w v) : v.Sleeps id := by
  induction h with
  | start => exact hw
  | told l _ ih => exact ih
  | onward _ hleads ih => exact hleads ih

theorem asleep_restructures {env env' : Env σ} (henv : env.Tracks (.asleep code id) env') :
    (Trail.asleep code id).Restructures env env' := by
  refine Trail.Restructures.of_edits fun {_ w id' c e} action hw _ => ?_
  exact Configuration.edit_tracksFrom henv hw _ action _
    (fun _ l _ _ hsleeps => hsleeps.restructured id' action l)
    fun _ l v _ _ _ hround hsleeps => asleep_round (hsleeps.restructured id' action l) hround

/-- Waking another configuration up is nothing to the one that sleeps. -/
theorem asleep_activate {env env' : Env σ} (henv : env.Tracks (.asleep code id) env')
    (hother : id' ≠ id) : Tracks (.asleep code id) (Configuration.activate env id')
      (Configuration.activate env' id') :=
  Configuration.activate_tracks henv id' (fun _ _ hsleeps => hsleeps.woken hother)
    fun _ _ _ _ hround hsleeps => asleep_round (hsleeps.woken hother) hround

end Trail

namespace Engine

/-- As long as nobody asks for a proxy of it the configuration sleeps. -/
theorem refusing_tracks (code : Code σ) (id : ConfigId) (room : Nat) :
    (refusing code id room).Tracks (.asleep code id) (refusing code id room) := by
  induction room with
  | zero => exact ⟨rfl, rfl, fun _ => .nothing⟩
  | succ room ih =>
    refine ⟨rfl, rfl, fun c => ?_⟩
    show Tracks _ (if c.asksFor id then fun _ => none else meaning (refusing code id room) c)
      (if c.asksFor id then fun _ => none else meaning (refusing code id room) c)
    by_cases hasks : c.asksFor id = true
    · rw [if_pos hasks]
      exact .nothing
    · rw [if_neg hasks]
      refine meaning_tracks_of_makesProxy trivial ih (Trail.asleep_restructures ih) c
        (fun hmakes => ?_) (proxyCall_tracks trivial ih Trail.asleep_exposes c)
      cases c with
      | getProxy id' maker =>
        have hother : id' ≠ id := fun heq => hasks (beq_iff_eq.mpr heq)
        exact Proxy.get_tracks_of_activate ih id' maker (Trail.asleep_activate ih hother)
      | wrap enabled catalogue f name o =>
        refine AutoProxy.wrap_tracks_of_activate ih (Trail.asleep_restructures ih)
          (fun w hw => ?_) enabled catalogue f name o
        -- the configuration that wakes up is a new one
        refine Trail.asleep_activate ih fun heq => ?_
        have hlt : id.index < w.configs.size := hw.1
        rw [← heq] at hlt
        exact Nat.lt_irrefl _ hlt
      | _ => cases hmakes

theorem refusing_sleeps {room : Nat} {β : Type} {c : Command σ β} {b : β}
    (hw : w.Sleeps id) (h : (refusing code id room).perform c w = some (b, w')) :
    w'.Sleeps id :=
  ((refusing_tracks code id room).perform c w hw).leads b w' h hw

end Engine

/-! ## What a client does -/

/-- A request for a proxy: the world in which it was made, and what came of it. -/
structure Request (σ : Type) where
  before : World σ
  outcome : Outcome Object

/-- A client has commands carried out, one after the other, from one world to another: such
in which nobody asks for a proxy of the configuration, and its own requests for one. -/
inductive Course (code : Code σ) (id : ConfigId) :
    World σ → World σ → List (Request σ) → Prop
  | rest (w : World σ) : Course code id w w []
  | asks {w w₁ w' : World σ} {room : Nat} {maker : ProxyMaker} {o : Outcome Object}
      {requests : List (Request σ)}
      (h : Engine.perform code room (.getProxy id maker) w = some (o, w₁))
      (hrest : Course code id w₁ w' requests) : Course code id w w' (⟨w, o⟩ :: requests)
  | goesOn {w w₁ w' : World σ} {room : Nat} {β : Type} {c : Command σ β} {b : β}
      {requests : List (Request σ)}
      (h : Engine.perform code room c w = some (b, w₁))
      (hquiet : (Engine.refusing code id room).perform c w = some (b, w₁))
      (hrest : Course code id w₁ w' requests) : Course code id w w' requests

/-- A request comes to a proxy or a failure in the world in which all listeners have been
told that the configuration is active. -/
theorem Proxy.get_eq {room : Nat} {maker : ProxyMaker} {o : Outcome Object}
    (h : Engine.perform code (room + 1) (.getProxy id maker) w = some (o, w')) :
    ∃ v, Configuration.activate (Engine.env code room) id w = some ((), v) ∧
      (match maker with
        | .standard => create id
        | .user body => (Engine.env code room).exec
            ((Engine.env code room).code.makeProxy body id)).run v = some (o, w') := by
  change (get (Engine.env code room) id maker).run w = some (o, w') at h
  unfold get at h
  rw [Act.run_ofRun] at h
  obtain ⟨⟨_, v⟩, hwoken, hmade⟩ := Option.bind_eq_some_iff.mp h
  exact ⟨v, hwoken, hmade⟩

/-- A request wakes a configuration up that sleeps, and its listeners are told, whatever
comes of the request. -/
theorem Proxy.get_wakes {room : Nat} {maker : ProxyMaker} {o : Outcome Object}
    (hw : (Trail.life code start).holds w) (hsleeps : w.Sleeps id)
    (h : Engine.perform code room (.getProxy id maker) w = some (o, w')) :
    (w'.config id).active = true ∧ w'.activations id = (w.config id).listeners := by
  cases room with
  | zero => cases h
  | succ room =>
    obtain ⟨v, hwoken, hmade⟩ := get_eq h
    obtain ⟨hleads, hactive, hactivations, _⟩ :=
      Configuration.activate_tells hw hsleeps.2 hsleeps.1 hwoken
    -- what comes after that tells nobody again
    have hv := (Trail.life code start).onward hw hleads
    have hlives : v.Lives w' id := by
      cases maker with
      | standard => exact ((create_tracks id v hv).leads _ _ hmade).2 id
      | user body =>
        have hexec := (Engine.env_life code start room).exec (fun c => c.makeProxy body id)
        exact ((hexec v hv).leads _ _ hmade).2 id
    exact ⟨hlives.active hactive, (hlives.activations_eq hactive).trans hactivations⟩

namespace Course

variable {requests : List (Request σ)}

theorem life (hw : (Trail.life code start).holds w) (h : Course code id w w' requests) :
    (Trail.life code start).leads w w' := by
  have hperform {room : Nat} {β : Type} {c : Command σ β} {b : β} {w w₁ : World σ}
      (hw : (Trail.life code start).holds w)
      (hc : Engine.perform code room c w = some (b, w₁)) :
      (Trail.life code start).leads w w₁ :=
    ((Engine.env_life code start room).perform c w hw).leads b w₁ hc
  induction h with
  | rest w => exact (Trail.life code start).refl w
  | asks hc _ ih =>
    have hleads := hperform hw hc
    exact (Trail.life code start).trans hleads (ih ((Trail.life code start).onward hw hleads))
  | goesOn hc _ _ ih =>
    have hleads := hperform hw hc
    exact (Trail.life code start).trans hleads (ih ((Trail.life code start).onward hw hleads))

/-- At the end of a course either nobody has asked and the configuration sleeps, or it is
active and its listeners were told at the first request. -/
theorem of_sleeps (hw : (Trail.life code start).holds w) (hsleeps : w.Sleeps id)
    (h : Course code id w w' requests) :
    requests = [] ∧ w'.Sleeps id ∨
      ∃ first later, requests = first :: later ∧ (w'.config id).active = true ∧
        w'.activations id = (first.before.config id).listeners := by
  induction h with
  | rest w => exact .inl ⟨rfl, hsleeps⟩
  | @asks w w₁ w' room maker o requests hc hrest _ =>
    obtain ⟨hactive, hactivations⟩ := Proxy.get_wakes hw hsleeps hc
    have hleads := ((Engine.env_life code start room).perform _ w hw).leads _ _ hc
    have hlives := (hrest.life ((Trail.life code start).onward hw hleads)).2 id
    exact .inr ⟨⟨w, o⟩, requests, rfl, hlives.active hactive,
      (hlives.activations_eq hactive).trans hactivations⟩
  | @goesOn w w₁ w' room β c b requests hc hquiet _ ih =>
    have hleads := ((Engine.env_life code start room).perform c w hw).leads b w₁ hc
    exact ih ((Trail.life code start).onward hw hleads) (Engine.refusing_sleeps hsleeps hquiet)

end Course

/-- Throughout every run, whatever a client does with a configuration from there on: at the
end the configuration is active exactly if it was so before or there was a request for a
proxy of it. If it was not then nobody was told anything before the first request, and that
told all who were listeners then, once for each time that they were added; nobody is told
again after that. It does not matter whether a proxy came of any of the requests. That is
decided only when all listeners have been told, and the standard way it fails exactly if there
is then neither an advisor nor a target, or the type of the target is asked for and not
known. -/
theorem activation_follows_requests (code : Code σ) (room : Nat) (p : Action σ α) (s : σ) :
    Engine.Throughout code room p { user := s } fun w => ∀ id, id.index < w.configs.size →
      (∀ w' requests, Course code id w w' requests →
        ((w'.config id).active = true ↔ (w.config id).active = true ∨ requests ≠ []) ∧
        (w'.activations id = if (w.config id).active then w.activations id
          else requests.head?.elim [] fun first => (first.before.config id).listeners) ∧
        ((w'.config id).active = false → w'.Untold id)) ∧
      ∀ room o w', Engine.perform code (room + 1) (.getProxy id .standard) w = some (o, w') →
        ∃ v, Configuration.activate (Engine.env code room) id w = some ((), v) ∧
          ((∃ e, o = .error e) ↔ Proxy.Bare v id ∨ Proxy.Unresolved v id) := by
  refine Engine.throughout_along Trail.life_passes (fun w hw id hid => ⟨?_, ?_⟩)
    (Trail.life_initial code s) room p
  · intro w' requests h
    have hleads := h.life hw
    have huntold := ((Trail.life code { user := s }).onward hw hleads).2 id
    cases hactive : (w.config id).active with
    | true =>
      have hlives := hleads.2 id
      refine ⟨iff_of_true (hlives.active hactive) (.inl rfl), ?_, huntold⟩
      rw [if_pos rfl]
      exact hlives.activations_eq hactive
    | false =>
      rw [if_neg Bool.false_ne_true]
      rcases h.of_sleeps hw ⟨hid, hactive⟩ with ⟨rfl, hsleeps⟩ |
        ⟨first, later, rfl, hawake, hactivations⟩
      · refine ⟨?_, (huntold hsleeps.2).1, huntold⟩
        rw [hsleeps.2]
        simp
      · exact ⟨iff_of_true hawake (.inr (List.cons_ne_nil _ _)), hactivations, huntold⟩
  · intro room o w' h
    obtain ⟨v, hwoken, hmade⟩ := Proxy.get_eq h
    refine ⟨v, hwoken, ?_⟩
    change (Proxy.create id).run v = some (o, w') at hmade
    rcases Proxy.create_cases v id with ⟨hbare, hrun⟩ | ⟨_, hunresolved, hrun⟩ |
      ⟨hbare, hunresolved, proxy, w₁, hrun⟩
    · rw [hrun] at hmade
      cases hmade
      exact iff_of_true ⟨_, rfl⟩ (.inl hbare)
    · rw [hrun] at hmade
      cases hmade
      exact iff_of_true ⟨_, rfl⟩ (.inr hunresolved)
    · rw [hrun] at hmade
      cases hmade
      refine iff_of_false ?_ (not_or.mpr ⟨hbare, hunresolved⟩)
      rintro ⟨e, he⟩
      cases he

/-! ## A request that nothing comes of -/

/-- Asks for a proxy of a configuration that has a listener, and neither a target nor advisors;
answers whether there is a proxy, and whether the configuration is active. -/
def askInVain : Action Unit (Bool × Bool) := do
  let s ← .ofCommand (.newSource (.empty none))
  let c ← .ofCommand (.newConfig { source := s })
  .ofCommand (.addListener c ⟨0⟩)
  let o ← .ofCommand (.getProxy c .standard)
  let w ← .ofCommand .world
  return (o.toOption.isSome, (w.config c).active)

/-- There is no proxy, and yet the configuration is active and its listener was told. -/
theorem failed_request_told :
    (Engine.run Code.idle 2 askInVain { user := () }).map
        (fun r => (r.1, r.2.proxyCount, r.2.journal.filter Entry.isNews))
      = some ((false, true), 0, [.activated ⟨0⟩ ⟨0⟩]) :=
  rfl

end Aspects
