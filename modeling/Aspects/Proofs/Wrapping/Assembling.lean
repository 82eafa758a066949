import Aspects.AutoProxy
import Aspects.Proofs.Conforming.Types
import Aspects.Proofs.Registering.Layouts
import Aspects.Proofs.Telling.Edits

/-!
# Putting a proxy together

A proxy for an object is put together in a configuration that is new: it sleeps, nobody
listens to it, and it stays open until all advisors are in (`Assembles`). An advisor that is
not refused comes in behind the others, and one that is refused ends the work
(`Assembles.add`); so a list of advisors comes in as it is unless one of them is refused
(`Assembles.addAll`). What is done after that cannot fail, because there is a target of a
known type (`proxyWith_ends`).
-/

namespace Aspects.AutoProxy

variable {σ : Type} {env : Env σ} {f : Flags} {o : Object} {as : List Advisor} {id : ConfigId}
  {w₀ w w' : World σ}

/-- What making a proxy leaves alone: the memories of pointcuts, the catalogues and the
adapters. -/
structure Spares (w w' : World σ) : Prop where
  memories_eq : w'.memories = w.memories
  catalogues_eq : w'.catalogues = w.catalogues
  adapters_eq : w'.adapters = w.adapters

theorem Spares.trans {w₁ w₂ : World σ} (h : Spares w w₁) (h' : Spares w₁ w₂) : Spares w w₂ :=
  ⟨h'.1.trans h.1, h'.2.trans h.2, h'.3.trans h.3⟩

/-- The configuration is being put together for the object and has these advisors so far. -/
structure Assembles (w₀ w : World σ) (f : Flags) (o : Object) (as : List Advisor)
    (id : ConfigId) : Prop where
  spares : Spares w₀ w
  known : id.index < w.configs.size
  asleep : (w.config id).active = false
  unheard : (w.config id).listeners = []
  flags_eq : (w.config id).flags = { f with frozen := false }
  advisors_eq : (w.config id).advisors = as
  adapters_eq : (w.config id).adapters = default
  chainMaker_eq : (w.config id).chainMaker = .standard default
  source_eq : w.source (w.config id).source = .singleton o

namespace Assembles

theorem thawed (h : Assembles w₀ w f o as id) : (w.config id).isFrozen = false := by
  unfold Configuration.isFrozen
  rw [h.flags_eq]

/-- The advisors are looked at with the adapters that all configurations share. -/
theorem refusal_eq (h : Assembles w₀ w f o as id) (a : Advisor) :
    w.refusal? id a = Configuration.refusal? (w₀.adapterList default) a := by
  unfold World.refusal?
  rw [h.adapters_eq, World.adapterList_congr h.spares.adapters_eq]

/-- Another layout is nothing to the rest. -/
theorem restructured (h : Assembles w₀ w f o as id) (action : String) (l : Layout) :
    Assembles w₀ (w.restructured id action l) f o l.advisors id := by
  have hconfig := World.config_restructured h.known action l
  refine ⟨⟨h.spares.1, h.spares.2, h.spares.3⟩, ?_, ?_, ?_, ?_, ?_, ?_, ?_, ?_⟩
  · simpa [World.restructured, World.record, World.setConfig] using h.known
  all_goals rw [hconfig]
  · exact h.asleep
  · exact h.unheard
  · exact h.flags_eq
  · rfl
  · exact h.adapters_eq
  · exact h.chainMaker_eq
  · exact h.source_eq

/-- An advisor comes in behind the others or is refused, and then nothing has changed. -/
theorem add (h : Assembles w₀ w f o as id) (env : Env σ) (a : Advisor) :
    (Configuration.refusal? (w₀.adapterList default) a = none ∧
      ∃ w', (Configuration.addAdvisor env id none a).run w = some (.ok (), w') ∧
        Assembles w₀ w' f o (as ++ [a]) id) ∨
    ∃ e, Configuration.refusal? (w₀.adapterList default) a = some e ∧
      (Configuration.addAdvisor env id none a).run w = some (.error (.fault e), w) := by
  have hrun : (Configuration.addAdvisor env id none a).run w = _ :=
    Configuration.run_screened env a
  rw [h.refusal_eq] at hrun
  cases hrefusal : Configuration.refusal? (w₀.adapterList default) a with
  | some e =>
    rw [hrefusal] at hrun
    exact .inr ⟨e, rfl, hrun⟩
  | none =>
    rw [hrefusal] at hrun
    have hinsert : Layout.insert none a (w.config id).layout =
        .ok ((), some { (w.config id).layout.addIntroduced a with advisors := as ++ [a] }) := by
      have hadvisors : (w.config id).layout.advisors = as := h.advisors_eq
      simp [Layout.insert, Layout.addIntroduced, hadvisors]
    rw [Configuration.edit_untold env h.thawed hinsert h.asleep] at hrun
    exact .inl ⟨rfl, _, hrun, h.restructured _ _⟩

/-- A list of advisors comes in as it is, unless one of them is refused. -/
theorem addAll (h : Assembles w₀ w f o as id) (env : Env σ) (more : List Advisor) :
    ∃ outcome w', (AutoProxy.addAll env id more).run w = some (outcome, w') ∧
      (outcome = .ok () → Assembles w₀ w' f o (as ++ more) id) ∧
      ((∀ a ∈ more, Configuration.refusal? (w₀.adapterList default) a = none) →
        outcome = .ok ()) := by
  induction more generalizing as w with
  | nil => exact ⟨.ok (), w, rfl, fun _ => by rwa [List.append_nil], fun _ => rfl⟩
  | cons a more ih =>
    rcases h.add env a with ⟨_, w₁, hrun, h₁⟩ | ⟨e, hrefused, hrun⟩
    · obtain ⟨outcome, w', hrest, hassembles, hall⟩ := ih h₁
      refine ⟨outcome, w', (run_bind_of_ok hrun _).trans hrest, fun ho => ?_, fun hmore => ?_⟩
      · rw [List.append_cons]
        exact hassembles ho
      · exact hall fun b hb => hmore b (List.mem_cons_of_mem _ hb)
    · refine ⟨.error (.fault e), w, ?_, nofun, fun hmore => ?_⟩
      · show (Configuration.addAdvisor env id none a >>= _).run w = _
        rw [Act.run_bind, hrun]
        rfl
      · rw [hmore a List.mem_cons_self] at hrefused
        cases hrefused

end Assembles

/-! ## The proxy -/

/-- The object is a proxy for the other one: its configuration has just these advisors, is
marked as filtered, has the configured flags, frozen or not, and its source yields the other
object. -/
structure Wraps (w : World σ) (f : Flags) (o : Object) (as : List Advisor) (proxy : Object)
    (id : ConfigId) : Prop where
  known : id.index < w.configs.size
  payload : ∃ strategy, proxy.payload = .proxy id strategy f.concealed
  advisors_eq : (w.config id).advisors = as
  preFiltered : (w.config id).preFiltered = true
  flags_eq : (w.config id).flags = f
  chainMaker_eq : (w.config id).chainMaker = .standard default
  yields : ∀ env : Env σ,
    (Source.acquire env (w.config id).source).run w = some (.ok (some o), w)

theorem Wraps.isProxy {proxy : Object} (h : Wraps w f o as proxy id) : proxy.isProxy = true := by
  obtain ⟨strategy, hpayload⟩ := h.payload
  unfold Object.isProxy Object.proxyConfig?
  rw [hpayload]
  rfl

theorem source_congr (h : w'.sources = w.sources) (s : SourceId) : w'.source s = w.source s := by
  unfold World.source
  rw [h]

theorem acquire_singleton {s : SourceId} (h : w.source s = .singleton o) (env : Env σ) :
    (Source.acquire env s).run w = some (.ok (some o), w) := by
  unfold Source.acquire
  rw [Act.run_world, h]
  rfl

/-- With a target at hand a strategy can be chosen. -/
theorem create_target (h : w.source (w.config id).source = .singleton o) :
    ∃ proxy journal strategy, (Proxy.create id).run w = some (.ok proxy, { w with
        proxyCount := w.proxyCount + 1, journal, serial := w.serial + 1 }) ∧
      proxy.payload = .proxy id strategy (w.config id).flags.concealed := by
  have htype : (w.config id).targetType? w = some o.type := by
    unfold Configuration.targetType?
    rw [h]
    rfl
  obtain ⟨strategy, hchosen⟩ : ∃ strategy, Proxy.chooseStrategy (w.config id).flags
      (w.config id).interfaces (some o.type) = .ok strategy := by
    unfold Proxy.chooseStrategy
    split
    · exact ⟨_, rfl⟩
    · exact ⟨_, rfl⟩
  unfold Proxy.create
  rw [Act.run_world]
  have hempty :
      ((w.config id).advisors.isEmpty && (w.source (w.config id).source).isEmpty) = false := by
    rw [h]
    exact Bool.and_false _
  simp only [hempty, htype, hchosen]
  exact ⟨_, _, _, rfl, rfl⟩

/-- A configuration that nobody listens to is woken up, and nothing else happens to it. -/
theorem get_target (hknown : id.index < w.configs.size) (hasleep : (w.config id).active = false)
    (hunheard : (w.config id).listeners = [])
    (hsource : w.source (w.config id).source = .singleton o) (env : Env σ) :
    ∃ proxy w' strategy, (Proxy.get env id .standard).run w = some (.ok proxy, w') ∧
      proxy.payload = .proxy id strategy (w.config id).flags.concealed ∧
      w'.config id = { w.config id with active := true } ∧
      w'.configs.size = w.configs.size ∧ w'.sources = w.sources ∧ Spares w w' := by
  have hconfig := World.config_woken hknown
  have hwoken : (w.woken id).source ((w.woken id).config id).source = .singleton o := by
    rw [hconfig]
    exact hsource
  obtain ⟨proxy, journal, strategy, hmade, hpayload⟩ := create_target hwoken
  have hrun : (Proxy.get env id .standard).run w = (Proxy.create id).run (w.woken id) := by
    unfold Proxy.get
    rw [Act.run_ofRun, Configuration.activate_asleep env hasleep, hunheard]
    rfl
  have hsize : (w.woken id).configs.size = w.configs.size := by
    simp [World.woken, World.setConfig, World.record]
  exact ⟨proxy, _, strategy, hrun.trans hmade, hpayload.trans (by rw [hconfig]), hconfig, hsize,
    rfl, ⟨rfl, rfl, rfl⟩⟩

/-- The configuration is marked, and frozen if that is asked for. Then its flags are the
configured ones, and whatever comes next goes on from there. -/
theorem close_open (hknown : id.index < w.configs.size)
    (hflags : (w.config id).flags = { f with frozen := false }) :
    ∃ v : World σ, (∀ {α : Type} (k : Act σ α), (do
        Act.ofRun (Configuration.setPreFiltered id true)
        if f.frozen then Act.ofRun (Configuration.freeze id)
        k).run w = k.run v) ∧
      id.index < v.configs.size ∧ v.sources = w.sources ∧ Spares w v ∧
      v.config id = { w.config id with preFiltered := true, flags := f } := by
  let marked : World σ := Configuration.update id (fun c => { c with preFiltered := true }) w
  have hmarked : marked.config id = { w.config id with preFiltered := true } :=
    World.config_setConfig_self hknown _
  have hsize : id.index < marked.configs.size := by
    simpa [marked, Configuration.update, World.setConfig] using hknown
  cases hfrozen : f.frozen with
  | false =>
    have hflags : (w.config id).flags = f := by
      rw [hflags, ← hfrozen]
    refine ⟨marked, fun k => rfl, hsize, rfl, ⟨rfl, rfl, rfl⟩, ?_⟩
    rw [hmarked]
    simp only [hflags]
  | true =>
    let frozen : World σ :=
      (Configuration.update id (fun c => { c with flags := { c.flags with frozen := true } })
        marked).record (.event ⟨.debug, "Proxy configuration frozen", []⟩)
    have hflags : { (w.config id).flags with frozen := true } = f := by
      rw [hflags, ← hfrozen]
    have hconfig : frozen.config id =
        { w.config id with preFiltered := true, flags := f } := by
      have hset : frozen.config id = _ := World.config_setConfig_self hsize _
      rw [hset, hmarked]
      simp only [hflags]
    refine ⟨frozen, fun k => rfl, ?_, rfl, ⟨rfl, rfl, rfl⟩, hconfig⟩
    simpa [frozen, Configuration.update, World.setConfig, World.record] using hsize

/-- Once all advisors are in, the configuration is marked, frozen if that is asked for and
woken up, which nobody hears, and then there is a proxy. -/
theorem Assembles.finish (h : Assembles w₀ w f o as id) (env : Env σ) :
    ∃ proxy w', (do
        Act.ofRun (Configuration.setPreFiltered id true)
        if f.frozen then Act.ofRun (Configuration.freeze id)
        Proxy.get env id .standard : Act σ Object).run w = some (.ok proxy, w') ∧
      Spares w₀ w' ∧ Wraps w' f o as proxy id := by
  obtain ⟨v, hclosed, hknown, hsources, hspares, hconfig⟩ := close_open h.known h.flags_eq
  have hsource : v.source (v.config id).source = .singleton o := by
    rw [hconfig, source_congr hsources]
    exact h.source_eq
  obtain ⟨proxy, w', strategy, hmade, hpayload, hconfig', hsize', hsources', hspares'⟩ :=
    get_target hknown (by rw [hconfig]; exact h.asleep) (by rw [hconfig]; exact h.unheard)
      hsource env
  rw [hconfig] at hpayload hconfig'
  refine ⟨proxy, w', (hclosed _).trans hmade, h.spares.trans (hspares.trans hspares'), ?_⟩
  refine ⟨by rwa [hsize'], ⟨strategy, hpayload⟩, ?_, ?_, ?_, ?_, acquire_singleton ?_⟩
  all_goals rw [hconfig']
  · exact h.advisors_eq
  · exact h.chainMaker_eq
  · rw [source_congr hsources', source_congr hsources]
    exact h.source_eq

/-- The configuration that the work begins with. -/
theorem assembles_nil (f : Flags) (o : Object) (w : World σ) :
    ∃ id v, (∀ {α : Type} (k : ConfigId → Act σ α), (do
        let id ← Act.ofRun (configFor o)
        Act.ofRun (Configuration.replaceFlags id { f with frozen := false })
        k id).run w = (k id).run v) ∧ Assembles w v f o [] id := by
  let id : ConfigId := ⟨w.configs.size⟩
  let sourced : World σ := { w with sources := w.sources.push (.singleton o) }
  let begun : Configuration := .fresh sourced
    { source := ⟨w.sources.size⟩, layout := Layout.ofInterfaces o.type.allInterfaces }
  let made : World σ := { sourced with configs := w.configs.push begun }
  have hknown : id.index < made.configs.size := by simp [made, id]
  let v : World σ := Configuration.update id
    (fun c => { c with flags := { f with frozen := false } }) (made.record (.reflagged id))
  have hconfig : v.config id = { begun with flags := { f with frozen := false } } := by
    have hmade : made.config id = begun := World.config_push_self rfl begun
    have hset : v.config id = { made.config id with flags := { f with frozen := false } } :=
      World.config_setConfig_self (w := made.record (.reflagged id)) hknown _
    rw [hset, hmade]
  refine ⟨id, v, fun k => rfl, ?_⟩
  refine ⟨⟨rfl, rfl, rfl⟩, ?_, ?_, ?_, ?_, ?_, ?_, ?_, ?_⟩
  · simpa [v, Configuration.update, World.setConfig, World.record] using hknown
  all_goals rw [hconfig]
  · rfl
  · rfl
  · rfl
  · exact ite_self _
  · exact congrArg ChainMaker.standard (ite_self _)
  · have hsources : v.sources = w.sources.push (.singleton o) := rfl
    have hsource : begun.source = ⟨w.sources.size⟩ := rfl
    simp [World.source, hsources, hsource]

/-- Making a proxy comes to an end; if it is made it is one for the object, and it is made
unless an advisor is refused. -/
theorem proxyWith_ends (env : Env σ) (f : Flags) (o : Object) (as : List Advisor) (w : World σ) :
    ∃ outcome w', (proxyWith env f o as).run w = some (outcome, w') ∧
      (∀ proxy, outcome = .ok proxy → Spares w w' ∧ ∃ id, Wraps w' f o as proxy id) ∧
      ((∀ a ∈ as, Configuration.refusal? (w.adapterList default) a = none) →
        ∃ proxy, outcome = .ok proxy) := by
  obtain ⟨id, v, hbegin, hv⟩ := assembles_nil f o w
  obtain ⟨added, w₁, hadd, hassembles, hall⟩ := hv.addAll env as
  have hrun := (hbegin fun id => do
    addAll env id as
    Act.ofRun (Configuration.setPreFiltered id true)
    if f.frozen then Act.ofRun (Configuration.freeze id)
    Proxy.get env id .standard).trans (Act.run_bind ..)
  rw [hadd] at hrun
  cases added with
  | ok u =>
    obtain ⟨proxy, w', hmade, hspares, hwraps⟩ := (hassembles rfl).finish env
    refine ⟨.ok proxy, w', hrun.trans hmade, fun p hp => ?_, fun _ => ⟨proxy, rfl⟩⟩
    cases hp
    exact ⟨hspares, id, hwraps⟩
  | error e =>
    exact ⟨.error e, w₁, hrun, nofun, fun has => nomatch hall has⟩

end Aspects.AutoProxy
