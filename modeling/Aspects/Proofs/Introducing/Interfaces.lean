import Aspects.Proofs.Introducing.Histories

/-!
# The interfaces of a configuration

A configuration knows which interfaces its proxies implement, but not who asked for them.
An advisor that introduces interfaces takes them away when it goes, also those that were
configured and those that another advisor in the list introduces
(`configured_interface_withdrawn`). Apart from these, the interfaces are those that were
configured and those that the advisors in the list introduce (`interfaces_unless_withdrawn`).
-/

namespace Aspects

variable {σ : Type} {w : World σ} {id : ConfigId}

open Layout (Operation)

namespace Layout.Operation

/-- Has the operation carried out on a configuration, whatever comes of it. -/
def issue (id : ConfigId) : Operation → Action σ Unit
  | insert place a => do let _ ← .ofCommand (.addAdvisor id place a)
  | remove a => do let _ ← .ofCommand (.removeAdvisor id a)
  | removeAt place => do let _ ← .ofCommand (.removeAdvisorAt id place)
  | removeAdvice a => do let _ ← .ofCommand (.removeAdvice id a)
  | replace old new => do let _ ← .ofCommand (.replaceAdvisor id old new)
  | addInterface t => do let _ ← .ofCommand (.addInterface id t)

/-- Has the operations of a history carried out, the latest last. -/
def issueAll (id : ConfigId) : List Operation → Action σ Unit
  | [] => return ()
  | op :: earlier => do
    issueAll id earlier
    op.issue id

end Layout.Operation

/-- The configuration has the layout and these adapters, is not frozen and sleeps. -/
structure World.Builds (w : World σ) (id : ConfigId) (adapters : List Adapter) (l : Layout) :
    Prop where
  known : id.index < w.configs.size
  thawed : (w.config id).isFrozen = false
  asleep : (w.config id).active = false
  layout_eq : (w.config id).layout = l
  adapters_eq : w.adapterList (w.config id).adapters = adapters

namespace World.Builds

variable {adapters : List Adapter} {l : Layout}

/-- The next number does not matter. -/
theorem numbered (h : w.Builds id adapters l) (serial : Nat) :
    ({ w with serial } : World σ).Builds id adapters l :=
  ⟨h.known, h.thawed, h.asleep, h.layout_eq, h.adapters_eq⟩

theorem restructured (h : w.Builds id adapters l) (action : String) (l' : Layout) :
    (w.restructured id action l').Builds id adapters l' := by
  have hconfig := World.config_restructured h.known action l'
  refine ⟨?_, ?_, ?_, ?_, ?_⟩
  · simpa [World.restructured, World.record, setConfig] using h.known
  · rw [hconfig]
    exact h.thawed
  · rw [hconfig]
    exact h.asleep
  · rw [hconfig]
    rfl
  · rw [hconfig]
    exact h.adapters_eq

/-- A command makes of the layout what its edit makes of it. -/
theorem performed {α : Type} (h : w.Builds id adapters l) {c : Command σ (Outcome α)}
    {e : Edit α} (hc : c.Edits w id e) (code : Code σ) (room : Nat) :
    ∃ o w', Engine.perform code (room + 1) c w = some (o, w') ∧
      w'.Builds id adapters (l.changedBy e) := by
  have hcarries : Run.CarriesOut (Engine.env code room) w id e
      (Engine.perform code (room + 1) c) := hc.carriesOut h.thawed _
  have hlayout := h.layout_eq
  subst hlayout
  unfold Layout.changedBy
  match he : e (w.config id).layout with
  | .error f =>
    obtain ⟨failure, serial, hrun⟩ := hcarries.error f he
    exact ⟨_, _, hrun, h.numbered serial⟩
  | .ok (a, changed) =>
    obtain ⟨action, serial, _, hrun⟩ := hcarries.ok _ he
    have hw := h.numbered serial
    -- nobody is told while the configuration sleeps, so the change is all that happens
    cases changed with
    | none => exact ⟨_, _, hrun.trans (Configuration.edit_none _ hw.thawed rfl), hw⟩
    | some l' =>
      exact ⟨_, _, hrun.trans (Configuration.edit_untold _ hw.thawed rfl hw.asleep),
        hw.restructured action l'⟩

/-- So does a program that issues the command and does not care for its answer. -/
theorem issued {α : Type} (h : w.Builds id adapters l) {c : Command σ (Outcome α)}
    {e : Edit α} (hc : c.Edits w id e) (code : Code σ) (room : Nat) :
    ∃ w', Engine.run code (room + 1) (do let _ ← .ofCommand c) w = some ((), w') ∧
      w'.Builds id adapters (l.changedBy e) := by
  obtain ⟨o, w', hrun, hw'⟩ := h.performed hc code room
  refine ⟨w', ?_, hw'⟩
  show (Engine.perform code (room + 1) c w).bind _ = _
  rw [hrun]
  rfl

/-- An operation makes of the layout what it is to make of it. -/
theorem issue (h : w.Builds id adapters l) (op : Operation) (code : Code σ) (room : Nat) :
    ∃ w', Engine.run code (room + 1) (op.issue id) w = some ((), w') ∧
      w'.Builds id adapters (op.after adapters l) := by
  have hadapters := h.adapters_eq
  subst hadapters
  cases op with
  | insert place a => exact h.issued (.addAdvisor place a) code room
  | remove a => exact h.issued (.removeAdvisor a) code room
  | removeAt place => exact h.issued (.removeAdvisorAt place) code room
  | removeAdvice a => exact h.issued (.removeAdvice a) code room
  | replace old new => exact h.issued (.replaceAdvisor old new) code room
  | addInterface t => exact h.issued (.addInterface t) code room

/-- So does a whole history. -/
theorem issueAll {ts : List TypeDesc} (h : w.Builds id adapters (.ofInterfaces ts))
    (ops : List Operation) (code : Code σ) (room : Nat) :
    ∃ w', Engine.run code (room + 1) (Layout.Operation.issueAll id ops) w = some ((), w') ∧
      w'.Builds id adapters (Layout.following adapters ts ops) := by
  induction ops with
  | nil => exact ⟨w, rfl, h⟩
  | cons op earlier ih =>
    obtain ⟨w₁, hrun₁, hw₁⟩ := ih
    obtain ⟨w₂, hrun₂, hw₂⟩ := hw₁.issue op code room
    refine ⟨w₂, ?_, hw₂⟩
    have hboth := Program.run_andThen (Engine.env code (room + 1)).perform
      (Layout.Operation.issueAll id earlier) fun _ => op.issue id
    exact (congrFun hboth w).trans ((run_bind_of_some hrun₁ _).trans hrun₂)

end World.Builds

/-- A list of adapters is made whatever it holds; only the journal grows with it. -/
theorem Adapter.make_run (extra : List Adapter) (w : World σ) :
    ∃ journal, Adapter.make extra w = some (⟨w.adapters.size⟩,
      { w with journal, adapters := w.adapters.push (builtIn ++ extra) }) := by
  have htold : ∀ (rest : List Adapter) (w : World σ), ∃ journal,
      (rest.forM fun _ => emit .debug "Registered advisor adapter" []) w
        = some ((), { w with journal }) := by
    intro rest
    induction rest with
    | nil => exact fun w => ⟨w.journal, rfl⟩
    | cons a rest ih => exact fun w => ih _
  obtain ⟨journal, hrun⟩ := htold extra w
  refine ⟨journal, ?_⟩
  show Option.bind ((extra.forM fun _ => emit .debug "Registered advisor adapter" []) w) _ = _
  rw [hrun]
  rfl

/-- The configuration with the interfaces among the types, the adapters and no advisor. -/
def Configuration.begun (c : Configuration) (ts : List TypeDesc) (adapters : AdaptersId) :
    Configuration :=
  { c with flags := { c.flags with frozen := false }, layout := .ofInterfaces ts, adapters }

/-- Makes a configuration that begins with the interfaces among the types, and has the
operations of a history carried out on it. -/
def building (c : Configuration) (extra : List Adapter) (ts : List TypeDesc)
    (ops : List Operation) : Action σ ConfigId := do
  let adapters ← .ofCommand (.newAdapters extra)
  let id ← .ofCommand (.newConfig (c.begun ts adapters))
  Layout.Operation.issueAll id ops
  return id

/-- Whatever is done to a configuration that is not frozen, in whatever order: its
interfaces are those that were configured and those that the advisors in the list
introduce, apart from those that were taken away with an advisor and not brought since. -/
theorem interfaces_unless_withdrawn (code : Code σ) (room : Nat) (c : Configuration)
    (extra : List Adapter) (ts : List TypeDesc) (ops : List Operation) (w : World σ) :
    ∃ id w', Engine.run code (room + 1) (building c extra ts ops) w = some (id, w') ∧
      ∀ t, TypeDesc.listed (w'.config id).interfaces t = true ↔
        (Layout.Configured ts ops t ∨
          ∃ a ∈ (w'.config id).advisors, Layout.Introduces a t) ∧
        ¬ Layout.Withdrawn (Adapter.builtIn ++ extra) ts t ops := by
  obtain ⟨journal, hadapters⟩ := Adapter.make_run extra w
  let id : ConfigId := ⟨w.configs.size⟩
  let equipped : World σ :=
    { w with journal, adapters := w.adapters.push (Adapter.builtIn ++ extra) }
  let begun : Configuration := .fresh equipped (c.begun ts ⟨w.adapters.size⟩)
  let made : World σ := { equipped with configs := w.configs.push begun }
  have hconfig : made.config id = begun := by
    simp [made, id, World.config]
  have hmade : made.Builds id (Adapter.builtIn ++ extra) (.ofInterfaces ts) := by
    refine ⟨?_, ?_, ?_, ?_, ?_⟩
    · simp [made, id]
    · rw [hconfig]
      rfl
    · rw [hconfig]
      rfl
    · rw [hconfig]
      rfl
    · rw [hconfig]
      simp [made, begun, equipped, Configuration.begun, Configuration.fresh,
        Configuration.knownAdapters, World.adapterList]
  obtain ⟨w', hrun, hw'⟩ := hmade.issueAll ops code room
  refine ⟨id, w', ?_, fun t => ?_⟩
  · -- the adapters and the configuration are made first, which always succeeds
    have hstart : Engine.run code (room + 1) (building c extra ts ops) w
        = Engine.run code (room + 1) ((Layout.Operation.issueAll id ops).andThen fun _ =>
            .done id) made := by
      show Option.bind (Adapter.make extra w) _ = _
      rw [hadapters]
      rfl
    have hall := Program.run_andThen (Engine.env code (room + 1)).perform
      (Layout.Operation.issueAll id ops) fun _ => .done id
    rw [hstart]
    exact (congrFun hall made).trans (run_bind_of_some hrun _)
  · have hlisted : TypeDesc.listed
        (Layout.following (Adapter.builtIn ++ extra) ts ops).interfaces t = true ↔ _ :=
      Layout.listed_following_iff ops t
    rw [← hw'.layout_eq] at hlisted
    exact hlisted

/-! ## An interface that is taken away -/

/-- The interface of a service, which a configuration may have anyway. -/
def service : TypeDesc := .plain "Service" .interfaceKind

/-- An advisor that introduces the service by means of a delegate. -/
def mixin (number : Nat) : Advisor :=
  .introduction number number [service] ⟨.plain "Delegate" .classKind, number, .entity "d"⟩

/-- The interfaces and the numbers of the advisors that a history ends with. -/
def builtWith (ts : List TypeDesc) (ops : List Operation) : Option (List String × List Nat) :=
  (Engine.run (Code.idle : Code Unit) 1 (building {} [] ts ops) { user := () }).map
    fun r => ((r.2.config r.1).interfaces.map TypeDesc.name, (r.2.config r.1).advisors.map (·.id))

/-- A configured interface goes with an advisor that introduces it too, and so does an
interface that another advisor introduces which stays in the list. -/
theorem configured_interface_withdrawn :
    builtWith [service] [.insert none (mixin 1)] = some (["Service"], [1]) ∧
      builtWith [service] [.removeAt 0, .insert none (mixin 1)] = some ([], []) ∧
      builtWith [] [.removeAt 0, .insert none (mixin 2), .insert none (mixin 1)]
        = some ([], [2]) :=
  ⟨rfl, rfl, rfl⟩

end Aspects
