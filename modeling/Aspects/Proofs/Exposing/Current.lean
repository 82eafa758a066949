import Aspects.Proofs.Steps.Engine

/-!
# Which proxy is current

A world knows one current proxy, and a call puts back the one that it found: the calls in
progress are recorded nowhere. What is current is therefore compared with a record that
is kept beside the run. The `attended` run carries along the calls to proxies that have
begun and not ended, each with whether its configuration exposed proxies as it began. It
carries a command out only where a property holds of these calls and the world, and what
user code does because of the command is attended with the calls that the command adds.

Wherever user code looks, the proxy of the innermost exposed call in progress is current,
and a call leaves current what was so before it (`current_innermost_exposed`). While no
call begins or ends this is a trail on which the current proxy stays the same.
-/

namespace Aspects

variable {σ : Type} {α : Type} {code : Code σ}

/-- A call to a proxy that is in progress. -/
structure Engagement where
  proxy : Object
  /-- Did the configuration expose its proxies as the call began? -/
  exposed : Bool

/-- The proxy that is to be current during these calls, the innermost first. -/
def Engagement.current? (calls : List Engagement) : Option Object :=
  (calls.find? (·.exposed)).map (·.proxy)

/-- The calls in progress while a command is carried out in a world. -/
def Command.engage {β : Type} (w : World σ) (calls : List Engagement) :
    Command σ β → List Engagement
  | call (some o) .. =>
    match o.proxyConfig? with
    | some id => ⟨o, (w.config id).flags.exposeProxy⟩ :: calls
    | none => calls
  | _ => calls

theorem Command.engage_of_isProxyCall_eq_false {β : Type} {c : Command σ β}
    (h : c.isProxyCall = false) (w : World σ) (calls : List Engagement) :
    c.engage w calls = calls := by
  cases c with
  | call target m args =>
    cases target with
    | none => rfl
    | some o =>
      have ho : o.proxyConfig? = none := by
        simpa [isProxyCall, Object.isProxy] using h
      simp only [engage, ho]
  | _ => rfl

namespace Engine

open Classical in
/-- The environment that carries a command out only where the property holds of the calls
in progress and the world. -/
noncomputable def attended (code : Code σ) (P : List Engagement → World σ → Prop) :
    Nat → List Engagement → Env σ
  | 0, _ => ⟨code, fun _ _ => none⟩
  | room + 1, calls => ⟨code, fun c w =>
      if P calls w then meaning (attended code P room (c.engage w calls)) c w else none⟩

/-- The property holds of the calls in progress and the world wherever the program, or
user code that it leads to, has a command carried out, and where the program ends: an
attended run is the run itself. -/
def Attended (code : Code σ) (room : Nat) (p : Action σ α) (w : World σ)
    (P : List Engagement → World σ → Prop) : Prop :=
  (attended code P room []).run p w = run code room p w ∧
    ∀ a w', run code room p w = some (a, w') → P [] w'

end Engine

/-! ## What is current stays so -/

theorem Change.current_eq {w w' : World σ} (h : Change w w') : w'.current = w.current := by
  cases h <;> rfl

/-- The engine puts back whatever it makes current. -/
theorem Leads.current_eq {w w' : World σ} (h : Leads code w w') : w'.current = w.current := by
  induction h with
  | refl w => rfl
  | change _ hc ih => exact hc.current_eq.trans ih
  | keep room id m t links _ _ _ _ ih ihworking => exact ihworking.trans ih
  | expose proxy _ _ ih _ => exact ih
  | lend s o _ _ _ ih ihduring ihafter => exact (ihafter.trans ihduring).trans ih

/-- A proxy is current, or none is, and that stays so. -/
def Trail.current (code : Code σ) (proxy : Option Object) : Trail code where
  holds w := w.current = proxy
  leads w w' := w'.current = w.current
  runs _ := True
  refl _ := rfl
  trans h h' := h'.trans h
  onward hw h := h.trans hw
  stir h := h.change.current_eq
  keep _ _ _ _ _ _ _ hworking := hworking
  lent _ _ hw := hw
  returned _ _ hw := hw
  lend _ _ hduring hafter := hafter.trans hduring

/-! ## Calls -/

namespace Proxy

/-- A call by a configuration that exposes its proxies. -/
theorem call_exposing {env : Env σ} {proxy : Object} {id : ConfigId} {w : World σ}
    (h : (w.config id).flags.exposeProxy = true) (m : Method) (args : List Value) :
    (call env proxy id m args).run w
      = (exposing proxy (callThrough env proxy id m args)).run w := by
  unfold call
  rw [Configuration.run_reading, if_pos h]

/-- A call by a configuration that does not. -/
theorem call_hiding {env : Env σ} {proxy : Object} {id : ConfigId} {w : World σ}
    (h : (w.config id).flags.exposeProxy = false) (m : Method) (args : List Value) :
    (call env proxy id m args).run w = (callThrough env proxy id m args).run w := by
  unfold call
  rw [Configuration.run_reading, if_neg (by rw [h]; exact Bool.false_ne_true)]

/-- A call leaves current what is to be so during the calls around it, if what happens in
its course leaves current what is to be so during one call more. -/
theorem call_keeps_current {room : Nat} {env' : Env σ} {calls : List Engagement}
    {w : World σ} {proxy : Object} {id : ConfigId}
    (hw : w.current = Engagement.current? calls)
    (henv : (Engine.env code room).Tracks (.current code (Engagement.current?
      (⟨proxy, (w.config id).flags.exposeProxy⟩ :: calls))) env')
    (m : Method) (args : List Value) :
    TracksFrom (.current code (Engagement.current? calls)) w
      (call (Engine.env code room) proxy id m args).run (call env' proxy id m args).run := by
  cases hexposed : (w.config id).flags.exposeProxy with
  | false =>
    -- a call that is not exposed is passed over
    rw [hexposed] at henv
    have h := callThrough_tracks trivial henv proxy id m args w hw
    constructor
    · rw [call_hiding hexposed, call_hiding hexposed, h.same]
    · intro o w' ho
      rw [call_hiding hexposed] at ho
      exact h.leads o w' ho
  | true =>
    rw [hexposed] at henv
    have h := callThrough_tracks trivial henv proxy id m args { w with current := some proxy } rfl
    constructor
    · rw [call_exposing hexposed, call_exposing hexposed, run_exposing, run_exposing, h.same]
    · intro o w' ho
      rw [call_exposing hexposed, run_exposing] at ho
      obtain ⟨⟨o₁, w₁⟩, _, hk⟩ := Option.map_eq_some_iff.mp ho
      cases hk
      rfl

end Proxy

/-! ## Every run -/

namespace Engine

variable {P : List Engagement → World σ → Prop}

/-- An attended run is the run itself if the property holds where the right proxy is
current, by induction on the room for nested commands. -/
theorem attended_tracks (code : Code σ)
    (hP : ∀ calls w, w.current = Engagement.current? calls → P calls w) (room : Nat)
    (calls : List Engagement) :
    (env code room).Tracks (.current code (Engagement.current? calls))
      (attended code P room calls) := by
  induction room generalizing calls with
  | zero => exact ⟨rfl, rfl, fun _ => .nothing⟩
  | succ room ih =>
    refine ⟨rfl, rfl, fun c w hw => ?_⟩
    suffices h : TracksFrom (.current code (Engagement.current? calls)) w
        (meaning (env code room) c)
        (meaning (attended code P room (c.engage w calls)) c) from
      ⟨(if_pos (hP calls w hw)).trans h.same, h.leads⟩
    cases hcall : c.isProxyCall with
    | false =>
      rw [Command.engage_of_isProxyCall_eq_false hcall]
      exact meaning_tracks trivial (ih calls) (.of_change Change.current_eq (ih calls)) c
        (fun h => absurd (hcall.symm.trans h) Bool.false_ne_true) w hw
    | true =>
      cases c with
      | call target m args =>
        cases target with
        | none => cases hcall
        | some o =>
          obtain ⟨id, ho⟩ := Option.isSome_iff_exists.mp hcall
          simp only [meaning, callTarget, Command.engage, ho]
          exact Proxy.call_keeps_current hw (ih _) m args
      | _ => cases hcall

end Engine

/-- At every moment of every run the proxy of the innermost call in progress that was
exposed as it began is current, and none is if there is no such call. A call leaves
current what was so before it, whatever its outcome. -/
theorem current_innermost_exposed (code : Code σ) (room : Nat) (p : Action σ α) (s : σ) :
    Engine.Attended code room p { user := s } (fun calls w =>
      w.currentProxy =
        match calls.find? (·.exposed) with
        | some call => .ok call.proxy
        | none => .error .proxyNotAvailable) ∧
    ∀ proxy id m args w (o : Outcome Value) w',
      (Proxy.call (Engine.env code room) proxy id m args).run w = some (o, w') →
      w'.currentProxy = w.currentProxy := by
  have hcurrent (calls : List Engagement) (w : World σ)
      (h : w.current = Engagement.current? calls) :
      w.currentProxy =
        match calls.find? (·.exposed) with
        | some call => .ok call.proxy
        | none => .error .proxyNotAvailable := by
    unfold World.currentProxy
    rw [h, Engagement.current?]
    cases calls.find? (·.exposed) with
    | none => rfl
    | some call => rfl
  refine ⟨?_, fun proxy id m args w o w' ho => ?_⟩
  · have h := (Engine.attended_tracks code hcurrent room []).run (fun _ => p) { user := s } rfl
    exact ⟨h.same, fun a w' ha => hcurrent [] w' (h.leads a w' ha)⟩
  · have hleads : Leads code w w' :=
      (Proxy.call_tracks ((Trail.steps_passes code w).runs room)
        (Engine.env_steps code w room) (Trail.steps_exposes code w) proxy id m args w
        .refl).leads o w' ho
    unfold World.currentProxy
    rw [hleads.current_eq]

end Aspects
