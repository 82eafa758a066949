import Aspects.Proofs.Steps.Generations

/-!
# Trails

What is to be shown of a run is followed along the run. A `Trail` says what that is: a
property of the worlds that the run is followed through, and a relation between any two
of them. It says how both get past what the engine does by itself. What is left open is
what a trail may be about: that a configuration is changed or woken up, that its listeners
are told so, and that a proxy is current for a while.

The steps of the engine are a trail of their own (`Trail.steps`).
-/

namespace Aspects

variable {σ : Type} {w w₁ w₂ : World σ}

/-- A listener was told something of a configuration. -/
def Entry.isNews : Entry → Bool
  | activated .. => true
  | changed .. => true
  | _ => false

/-- The same interfaces and advisors, and the same ways of making chains of them. -/
structure Configuration.SameShape (c c' : Configuration) : Prop where
  layout_eq : c'.layout = c.layout
  adapters_eq : c'.adapters = c.adapters
  chainMaker_eq : c'.chainMaker = c.chainMaker

theorem Configuration.SameShape.refl (c : Configuration) : c.SameShape c :=
  ⟨rfl, rfl, rfl⟩

/-- A change that stands alone and is no news: nobody is told of it, no configuration
wakes up, none goes back to an earlier generation, and none gets another shape. -/
structure Stir (w w' : World σ) : Prop where
  change : Change w w'
  journal : ∃ es, w'.journal = es ++ w.journal ∧ ∀ e ∈ es, e.isNews = false
  active_eq : ∀ id, (w'.config id).active = (w.config id).active
  generation_le : ∀ id, (w.config id).generation ≤ (w'.config id).generation
  shape : ∀ id : ConfigId, id.index < w.configs.size → (w.config id).SameShape (w'.config id)

namespace Stir

/-- A change of something else than configurations and the journal. -/
theorem of_eq (h : Change w w₁) (hc : w₁.configs = w.configs) (hj : w₁.journal = w.journal) :
    Stir w w₁ where
  change := h
  journal := ⟨[], hj, fun _ he => absurd he List.not_mem_nil⟩
  active_eq id := by rw [World.config_congr hc]
  generation_le id := Nat.le_of_eq (by rw [World.config_congr hc])
  shape id _ := by
    rw [World.config_congr hc]
    exact .refl _

theorem remark (w : World σ) (e : Entry) (he : e.isRemark) : Stir w (w.record e) where
  change := .remark w e he
  journal := by
    refine ⟨[e], rfl, fun e' he' => ?_⟩
    rw [List.mem_singleton.mp he']
    cases e with
    | event e => rfl
    | note line => rfl
    | _ => cases he
  active_eq _ := rfl
  generation_le _ := Nat.le_refl _
  shape _ _ := .refl _

/-- It is enough to look at the configuration that is set. -/
theorem of_setConfig {id : ConfigId} {c : Configuration} (h : Change w₁ (w.setConfig id c))
    (hj : ∃ es, w.journal = es ++ w₁.journal ∧ ∀ e ∈ es, e.isNews = false)
    (hc : w.configs = w₁.configs) (ha : c.active = (w.config id).active)
    (hg : (w.config id).generation ≤ c.generation) (hs : (w.config id).SameShape c) :
    Stir w₁ (w.setConfig id c) := by
  refine ⟨h, hj, fun id' => ?_, fun id' => ?_, fun id' _ => ?_⟩
  · rw [← World.config_congr hc]
    rcases w.config_setConfig_cases id id' c with he | ⟨rfl, he⟩
    · rw [he]
    · rw [he, ha]
  · rw [← World.config_congr hc]
    rcases w.config_setConfig_cases id id' c with he | ⟨rfl, he⟩
    · exact Nat.le_of_eq (by rw [he])
    · rw [he]
      exact hg
  · rw [← World.config_congr hc]
    rcases w.config_setConfig_cases id id' c with he | ⟨rfl, he⟩
    · rw [he]
      exact .refl _
    · rw [he]
      exact hs

theorem config (w : World σ) (id : ConfigId) {c : Configuration}
    (ht : Configuration.Touch (w.config id) c) (ha : c.active = (w.config id).active)
    (hs : (w.config id).SameShape c) : Stir w (w.setConfig id c) :=
  .of_setConfig (.config w id c ht) ⟨[], rfl, fun _ he => absurd he List.not_mem_nil⟩ rfl ha
    ht.outgrows.generation_le hs

theorem reflag (w : World σ) (id : ConfigId) (f : Flags) :
    Stir w ((w.record (.reflagged id)).setConfig id { w.config id with flags := f }) := by
  refine .of_setConfig (.reflag w id f) ⟨[.reflagged id], rfl, fun e he => ?_⟩ rfl rfl
    (Nat.le_refl _) ⟨rfl, rfl, rfl⟩
  rw [List.mem_singleton.mp he]
  rfl

theorem swap (w : World σ) (id : SourceId) (old new : Object)
    (hold : w.source id = .swappable old) (hnew : Source.compatible old new) :
    Stir w ((w.record (.swapped id old new)).setSource id (.swappable new)) where
  change := .swap w id old new hold hnew
  journal := by
    refine ⟨[.swapped id old new], rfl, fun e he => ?_⟩
    rw [List.mem_singleton.mp he]
    rfl
  active_eq _ := rfl
  generation_le _ := Nat.le_refl _
  shape _ _ := .refl _

/-- A configuration that is new sleeps and is of the first generation, as one that was
not given out is said to. -/
theorem newConfig (w : World σ) (c : Configuration) :
    Stir w { w with configs := w.configs.push (c.fresh w) } := by
  have hnew (id : ConfigId) :
      ({ w with configs := w.configs.push (c.fresh w) } : World σ).config id = w.config id ∨
        (w.config id).active = false ∧ (w.config id).generation = 0 ∧
          (({ w with configs := w.configs.push (c.fresh w) } : World σ).config id).active
            = false := by
    by_cases hid : id.index < w.configs.size
    · exact .inl (World.config_push hid _)
    · rw [World.config_of_le (Nat.not_lt.mp hid)]
      refine .inr ⟨rfl, rfl, ?_⟩
      by_cases he : id.index = w.configs.size
      · rw [World.config_push_self he]
        rfl
      · rw [World.config_of_le (by simp; omega)]
        rfl
  refine ⟨.newConfig w c, ⟨[], rfl, fun _ he => absurd he List.not_mem_nil⟩, fun id => ?_,
    fun id => ?_, fun id hid => ?_⟩
  · rcases hnew id with he | ⟨hasleep, _, hnew⟩
    · rw [he]
    · rw [hasleep, hnew]
  · rcases hnew id with he | ⟨_, hfirst, _⟩
    · exact Nat.le_of_eq (by rw [he])
    · rw [hfirst]
      exact Nat.zero_le _
  · rw [World.config_push hid]
    exact .refl _

end Stir

/-- What is followed along a run. -/
structure Trail (code : Code σ) where
  /-- What holds of the worlds that a run is followed from. -/
  holds : World σ → Prop
  /-- How two worlds are related of which one leads to the other. -/
  leads : World σ → World σ → Prop
  /-- Who carries out the commands of user code. -/
  runs : Env σ → Prop
  refl : ∀ w, leads w w
  trans : ∀ {w w₁ w₂}, leads w w₁ → leads w₁ w₂ → leads w w₂
  onward : ∀ {w w₁}, holds w → leads w w₁ → holds w₁
  stir : ∀ {w w₁}, Stir w w₁ → leads w w₁
  /-- A chain that was not in the cache is worked out and kept. -/
  keep : ∀ {w w₁} {env : Env σ} (id : ConfigId) (m : Method) (t : Option TypeDesc)
    (links : List Link), runs env → (w.config id).cached? m.key = none →
    (Configuration.makeLinks env (w.config id) m t).run w = some (.ok links, w₁) →
    leads w w₁ →
    leads w (w₁.keepChain id ((w.config id).query m t) (w.config id).generation links)
  lent : ∀ {w} (s : SourceId) (o : Object), holds w → holds (w.record (.acquired s o))
  returned : ∀ {w} (s : SourceId) (o : Object), holds w → holds (w.record (.released s o))
  /-- A target is lent for a while and given back. -/
  lend : ∀ {w w₁ w₂} (s : SourceId) (o : Object), leads (w.record (.acquired s o)) w₁ →
    leads (w₁.record (.released s o)) w₂ → leads w w₂

/-- The trail gets past a proxy that is current for a while. -/
structure Trail.Exposes {code : Code σ} (τ : Trail code) : Prop where
  exposing : ∀ {w} (proxy : Object), τ.holds w → τ.holds { w with current := some proxy }
  expose : ∀ {w w₁} (proxy : Object), τ.leads { w with current := some proxy } w₁ →
    τ.leads w { w₁ with current := w.current }

/-- The steps of the engine, from a world on. -/
def Trail.steps (code : Code σ) (start : World σ) : Trail code where
  holds := Reaches code start
  leads := Leads code
  runs env := ∃ room, env = Engine.env code room
  refl := .refl
  trans := .trans
  onward := .leads
  stir h := .one h.change
  keep id m t links hruns hmiss hmade hworking := by
    obtain ⟨room, rfl⟩ := hruns
    exact .keep room id m t links (.refl _) hmiss hmade hworking
  lent := .lending
  returned := .returning
  lend s o hduring hafter := .lend s o (.refl _) hduring hafter

theorem Trail.steps_exposes (code : Code σ) (start : World σ) :
    (Trail.steps code start).Exposes where
  exposing := .exposing
  expose proxy hduring := .expose proxy (.refl _) hduring

end Aspects
