import Aspects.Proofs.Steps.Basic

/-!
# Generations of a configuration

The generation of a configuration never goes back, and as long as it stays the same so
do the advisors (`Outgrows`). The way in which chains are made is settled when the
configuration is made. Nothing but a chain that was worked out gets into a cache, so a
change that stands alone may lose cached chains but never brings any.

What pointcuts remember is never lost: the memories of a world are those of every world
before it, with what was remembered since in front (`World.Recollects`).
-/

namespace Aspects

variable {σ : Type} {code : Code σ}

/-! ## Configurations in a world -/

namespace World

theorem config_of_le {w : World σ} {id : ConfigId} (h : w.configs.size ≤ id.index) :
    w.config id = default := by
  unfold config
  rw [Array.getElem?_eq_none h]
  rfl

theorem config_congr {w w' : World σ} (h : w'.configs = w.configs) (id : ConfigId) :
    w'.config id = w.config id := by
  unfold config
  rw [h]

theorem config_setConfig_self {w : World σ} {id : ConfigId} (h : id.index < w.configs.size)
    (c : Configuration) : (w.setConfig id c).config id = c := by
  simp [config, setConfig, h]

theorem config_setConfig_other {w : World σ} {id id' : ConfigId} (h : id' ≠ id)
    (c : Configuration) : (w.setConfig id c).config id' = w.config id' := by
  have hne : id.index ≠ id'.index := fun he => h (by cases id; cases id'; cases he; rfl)
  simp [config, setConfig, hne]

/-- A number that was not given out stays an empty thing. -/
theorem setConfig_of_le {w : World σ} {id : ConfigId} (h : w.configs.size ≤ id.index)
    (c : Configuration) : w.setConfig id c = w := by
  unfold setConfig
  rw [Array.setIfInBounds_eq_of_size_le h]

/-- A configuration is as it was, or it is the one that was set. -/
theorem config_setConfig_cases (w : World σ) (id id' : ConfigId) (c : Configuration) :
    (w.setConfig id c).config id' = w.config id' ∨
      id' = id ∧ (w.setConfig id c).config id' = c := by
  by_cases hid : w.configs.size ≤ id.index
  · rw [setConfig_of_le hid]
    exact .inl rfl
  · by_cases he : id' = id
    · subst he
      exact .inr ⟨rfl, config_setConfig_self (Nat.not_le.mp hid) c⟩
    · exact .inl (config_setConfig_other he c)

theorem config_push {w : World σ} {id : ConfigId} (h : id.index < w.configs.size)
    (c : Configuration) :
    ({ w with configs := w.configs.push c } : World σ).config id = w.config id := by
  simp [config, Array.getElem?_push, h, Nat.ne_of_lt h]

theorem config_push_self {w : World σ} {id : ConfigId} (h : id.index = w.configs.size)
    (c : Configuration) :
    ({ w with configs := w.configs.push c } : World σ).config id = c := by
  simp [config, h]

/-- A configuration that is new has nothing in its cache. -/
theorem cache_push_new {w : World σ} {id : ConfigId} (h : w.configs.size ≤ id.index)
    (c : Configuration) :
    (({ w with configs := w.configs.push (c.fresh w) } : World σ).config id).cache = [] := by
  by_cases he : id.index = w.configs.size
  · rw [config_push_self he]
    rfl
  · rw [config_of_le (by simp; omega)]
    rfl

theorem adapterList_congr {w w' : World σ} (h : w'.adapters = w.adapters) (a : AdaptersId) :
    w'.adapterList a = w.adapterList a := by
  unfold adapterList
  rw [h]

end World

/-! ## What a configuration grows into -/

namespace Configuration

/-- What the second configuration keeps of the first, from which it came. -/
structure Outgrows (c c' : Configuration) : Prop where
  generation_le : c.generation ≤ c'.generation
  chainMaker_eq : c'.chainMaker = c.chainMaker
  advisors_eq : c'.generation = c.generation → c'.advisors = c.advisors

namespace Outgrows

variable {c c' c'' : Configuration}

theorem refl (c : Configuration) : Outgrows c c :=
  ⟨Nat.le_refl _, rfl, fun _ => rfl⟩

theorem trans (h : Outgrows c c') (h' : Outgrows c' c'') : Outgrows c c'' where
  generation_le := Nat.le_trans h.generation_le h'.generation_le
  chainMaker_eq := h'.chainMaker_eq.trans h.chainMaker_eq
  advisors_eq heq := by
    have h₁ := h.generation_le
    have h₂ := h'.generation_le
    rw [h'.advisors_eq (by omega), h.advisors_eq (by omega)]

/-- A later generation may have any advisors. -/
theorem of_lt (h : c.generation < c'.generation) (hmaker : c'.chainMaker = c.chainMaker) :
    Outgrows c c' :=
  ⟨Nat.le_of_lt h, hmaker, fun heq => absurd heq (Nat.ne_of_gt h)⟩

end Outgrows

theorem Touch.outgrows {c c' : Configuration} (h : Touch c c') : Outgrows c c' := by
  cases h with
  | layout l _ => exact .of_lt (Nat.lt_succ_self _) rfl
  | source s => exact .of_lt (Nat.lt_succ_self _) rfl
  | emptyCache => exact ⟨Nat.le_refl _, rfl, fun _ => rfl⟩
  | flags f _ => exact ⟨Nat.le_refl _, rfl, fun _ => rfl⟩
  | preFiltered b => exact ⟨Nat.le_refl _, rfl, fun _ => rfl⟩
  | listeners ls => exact ⟨Nat.le_refl _, rfl, fun _ => rfl⟩
  | wake => exact ⟨Nat.le_refl _, rfl, fun _ => rfl⟩

theorem store_outgrows (c : Configuration) (e : CachedChain) : Outgrows c (c.store e) :=
  ⟨Nat.le_refl _, rfl, fun _ => rfl⟩

theorem Touch.cache_subset {c c' : Configuration} (h : Touch c c') : c'.cache ⊆ c.cache := by
  cases h with
  | source s => exact List.nil_subset _
  | emptyCache => exact List.nil_subset _
  | _ => exact List.Subset.refl _

end Configuration

/-- What the second world keeps of the configurations and the adapters of the first. -/
structure World.Outgrows (w w' : World σ) : Prop where
  size_le : w.configs.size ≤ w'.configs.size
  config : ∀ id : ConfigId, id.index < w.configs.size →
    (w.config id).Outgrows (w'.config id)
  adapters_le : w.adapters.size ≤ w'.adapters.size
  adapterList_eq : ∀ a : AdaptersId, a.index < w.adapters.size →
    w'.adapterList a = w.adapterList a

namespace World.Outgrows

variable {w w₁ w₂ : World σ}

theorem of_eq (h : w₁.configs = w.configs) (ha : w₁.adapters = w.adapters) :
    w.Outgrows w₁ where
  size_le := Nat.le_of_eq (by rw [h])
  config id _ := by
    rw [config_congr h]
    exact .refl _
  adapters_le := Nat.le_of_eq (by rw [ha])
  adapterList_eq a _ := by rw [adapterList_congr ha]

/-- Nothing but the configurations and the adapters matters. -/
theorem congr {v v₁ : World σ} (h : w.Outgrows w₁) (hv : v.configs = w.configs)
    (hv₁ : v₁.configs = w₁.configs) (ha : v.adapters = w.adapters)
    (ha₁ : v₁.adapters = w₁.adapters) : v.Outgrows v₁ where
  size_le := by
    rw [hv, hv₁]
    exact h.size_le
  config id hid := by
    rw [config_congr hv, config_congr hv₁]
    rw [hv] at hid
    exact h.config id hid
  adapters_le := by
    rw [ha, ha₁]
    exact h.adapters_le
  adapterList_eq a hlt := by
    rw [adapterList_congr ha, adapterList_congr ha₁]
    rw [ha] at hlt
    exact h.adapterList_eq a hlt

theorem trans (h : w.Outgrows w₁) (h' : w₁.Outgrows w₂) : w.Outgrows w₂ where
  size_le := Nat.le_trans h.size_le h'.size_le
  config id hid :=
    (h.config id hid).trans (h'.config id (Nat.lt_of_lt_of_le hid h.size_le))
  adapters_le := Nat.le_trans h.adapters_le h'.adapters_le
  adapterList_eq a ha :=
    (h'.adapterList_eq a (Nat.lt_of_lt_of_le ha h.adapters_le)).trans
      (h.adapterList_eq a ha)

theorem setConfig {id : ConfigId} {c : Configuration} (h : (w.config id).Outgrows c) :
    w.Outgrows (w.setConfig id c) where
  size_le := by simp [World.setConfig]
  config id' hid' := by
    by_cases he : id' = id
    · subst he
      rw [config_setConfig_self hid']
      exact h
    · rw [config_setConfig_other he]
      exact .refl _
  adapters_le := Nat.le_refl _
  adapterList_eq _ _ := rfl

end World.Outgrows

/-! ## Along the steps -/

theorem Change.outgrows {w w' : World σ} (h : Change w w') : w.Outgrows w' := by
  cases h with
  | newConfig c =>
    refine ⟨by simp, fun id hid => ?_, Nat.le_refl _, fun _ _ => rfl⟩
    rw [World.config_push hid]
    exact .refl _
  | config id c h => exact .setConfig h.outgrows
  | reflag id f =>
    have hrecorded : w.Outgrows (w.record (.reflagged id)) := .of_eq rfl rfl
    exact hrecorded.trans (.setConfig ⟨Nat.le_refl _, rfl, fun _ => rfl⟩)
  | newAdapters extra =>
    refine ⟨Nat.le_refl _, fun _ _ => .refl _, by simp, fun a ha => ?_⟩
    simp [World.adapterList, Array.getElem?_push, ha, Nat.ne_of_lt ha]
  | _ => exact .of_eq rfl rfl

theorem World.cache_setConfig_subset {w : World σ} {id' : ConfigId} {c : Configuration}
    (id : ConfigId) (h : c.cache ⊆ (w.config id').cache) :
    ((w.setConfig id' c).config id).cache ⊆ (w.config id).cache := by
  by_cases hid : w.configs.size ≤ id'.index
  · rw [World.setConfig_of_le hid]
    exact List.Subset.refl _
  · by_cases he : id = id'
    · subst he
      rw [World.config_setConfig_self (Nat.not_le.mp hid)]
      exact h
    · rw [World.config_setConfig_other he]
      exact List.Subset.refl _

/-- Where nothing is kept, nothing is in a cache that was not there before. -/
theorem Change.cache_subset {w w' : World σ} (h : Change w w') (id : ConfigId) :
    (w'.config id).cache ⊆ (w.config id).cache := by
  cases h with
  | newConfig c =>
    by_cases hid : id.index < w.configs.size
    · rw [World.config_push hid]
      exact List.Subset.refl _
    · rw [World.cache_push_new (Nat.not_lt.mp hid)]
      exact List.nil_subset _
  | config id' c h => exact World.cache_setConfig_subset id h.cache_subset
  | reflag id' f =>
    exact World.cache_setConfig_subset (w := w.record (.reflagged id')) id (List.Subset.refl _)
  | _ => exact List.Subset.refl _

namespace World

variable {w : World σ} {id : ConfigId} {q : ChainQuery} {generation : Nat}
  {links : List Link}

theorem config_keepChain_self (h : id.index < w.configs.size) (q : ChainQuery)
    (generation : Nat) (links : List Link) :
    (w.keepChain id q generation links).config id
      = (w.config id).store ⟨q, generation, ⟨w.serial, links⟩⟩ :=
  config_setConfig_self (w := { w with serial := w.serial + 1 }) h _

theorem config_keepChain_other {id' : ConfigId} (h : id' ≠ id) :
    (w.keepChain id q generation links).config id' = w.config id' :=
  config_setConfig_other (w := { w with serial := w.serial + 1 }) h _

theorem size_keepChain :
    (w.keepChain id q generation links).configs.size = w.configs.size := by
  simp [keepChain, Configuration.update, setConfig]

theorem keepChain_of_le (h : w.configs.size ≤ id.index) :
    w.keepChain id q generation links = { w with serial := w.serial + 1 } :=
  setConfig_of_le (w := { w with serial := w.serial + 1 }) h _

end World

theorem World.keepChain_outgrows (w : World σ) (id : ConfigId) (q : ChainQuery)
    (generation : Nat) (links : List Link) :
    w.Outgrows (w.keepChain id q generation links) :=
  .congr (w := { w with serial := w.serial + 1 })
    (.setConfig (Configuration.store_outgrows _ _)) rfl rfl rfl rfl

theorem Leads.outgrows {w w' : World σ} (h : Leads code w w') : w.Outgrows w' := by
  induction h with
  | refl w => exact .of_eq rfl rfl
  | change _ hc ih => exact ih.trans hc.outgrows
  | keep room id m t links _ _ _ _ ih ihmade =>
    exact ih.trans (ihmade.trans (World.keepChain_outgrows ..))
  | expose proxy _ _ ih ihduring =>
    exact ih.trans (ihduring.congr rfl rfl rfl rfl)
  | @lend _ w₁ w₂ w₃ s o _ _ _ ih ihduring ihafter =>
    have hduring : w₁.Outgrows w₂ := ihduring.congr rfl rfl rfl rfl
    have hafter : w₂.Outgrows w₃ := ihafter.congr rfl rfl rfl rfl
    exact ih.trans (hduring.trans hafter)

theorem Reaches.outgrows {w w' : World σ} (h : Reaches code w w') : w.Outgrows w' := by
  induction h with
  | refl => exact .of_eq rfl rfl
  | leads _ hl ih => exact ih.trans hl.outgrows
  | exposing proxy _ ih => exact ih.trans (.of_eq rfl rfl)
  | lending s o _ ih => exact ih.trans (.of_eq rfl rfl)
  | returning s o _ ih => exact ih.trans (.of_eq rfl rfl)

/-! ## Known adapters -/

/-- Every list of adapters begins with the built-in ones, and every configuration makes
its chains by user code or with adapters that were given out. -/
structure World.Settled (w : World σ) : Prop where
  adapters_pos : 0 < w.adapters.size
  begins : ∀ a : AdaptersId, a.index < w.adapters.size → Adapter.builtIn <+: w.adapterList a
  known : ∀ id a, (w.config id).chainMaker = .standard a → a.index < w.adapters.size

namespace World.Settled

variable {w w' : World σ}

theorem initial (s : σ) : ({ user := s } : World σ).Settled where
  adapters_pos := Nat.zero_lt_one
  begins a ha := by
    have hzero : a.index = 0 := Nat.lt_one_iff.mp ha
    simp [adapterList, hzero]
  known id a h := by
    rw [config_of_le (Nat.zero_le _)] at h
    cases h
    exact Nat.zero_lt_one

/-- What configurations are known to use stays known while the world grows. -/
theorem known_grown (h : w.Settled) (hg : w.Outgrows w')
    (hsize : w'.configs.size = w.configs.size) (id : ConfigId) (a : AdaptersId)
    (hmaker : (w'.config id).chainMaker = .standard a) : a.index < w'.adapters.size := by
  refine Nat.lt_of_lt_of_le ?_ hg.adapters_le
  by_cases hid : id.index < w.configs.size
  · rw [(hg.config id hid).chainMaker_eq] at hmaker
    exact h.known id a hmaker
  -- a number that was not given out reads as a configuration with the first adapters
  · rw [config_of_le (by omega)] at hmaker
    cases hmaker
    exact h.adapters_pos

/-- A world that has grown, but has neither other configurations nor other adapters. -/
theorem grown (h : w.Settled) (hg : w.Outgrows w') (hsize : w'.configs.size = w.configs.size)
    (ha : w'.adapters = w.adapters) : w'.Settled where
  adapters_pos := by
    rw [ha]
    exact h.adapters_pos
  begins a hlt := by
    rw [ha] at hlt
    rw [adapterList_congr ha]
    exact h.begins a hlt
  known := h.known_grown hg hsize

/-- Adapters that were not given out are replaced by those of every world. -/
theorem fresh_known (h : 0 < w.adapters.size) {c : Configuration} {a : AdaptersId}
    (ha : (Configuration.fresh w c).chainMaker = .standard a) :
    a.index < w.adapters.size := by
  unfold Configuration.fresh at ha
  cases hm : c.chainMaker with
  | user body => simp [hm] at ha
  | standard b =>
    simp only [hm, ChainMaker.standard.injEq] at ha
    rw [← ha]
    unfold Configuration.knownAdapters
    split
    · assumption
    · exact h

theorem change (h : w.Settled) (hc : Change w w') : w'.Settled := by
  cases hc with
  | newConfig c =>
    refine ⟨h.adapters_pos, h.begins, fun id a hmaker => ?_⟩
    by_cases hid : id.index < w.configs.size
    · rw [config_push hid] at hmaker
      exact h.known id a hmaker
    · by_cases he : id.index = w.configs.size
      · rw [config_push_self he] at hmaker
        exact fresh_known h.adapters_pos hmaker
      · rw [config_of_le (by simp; omega)] at hmaker
        cases hmaker
        exact h.adapters_pos
  | config id c ht =>
    exact h.grown (Change.config w id c ht).outgrows (by simp [setConfig]) rfl
  | reflag id f =>
    exact h.grown (Change.reflag w id f).outgrows (by simp [setConfig, World.record]) rfl
  | newAdapters extra =>
    -- the new list is the last one, and begins as it was made
    have hg := (Change.newAdapters w extra).outgrows
    refine ⟨by simp, fun a hlt => ?_, h.known_grown hg rfl⟩
    by_cases hold : a.index < w.adapters.size
    · rw [hg.adapterList_eq a hold]
      exact h.begins a hold
    · have hlast : a.index = w.adapters.size := by
        simp only [Array.size_push] at hlt
        omega
      simp [adapterList, hlast]
  | _ => exact h.grown (.of_eq rfl rfl) rfl rfl

end World.Settled

theorem Leads.settled {w w' : World σ} (hl : Leads code w w') (h : w.Settled) :
    w'.Settled := by
  induction hl with
  | refl w => exact h
  | change _ hc ih => exact (ih h).change hc
  | keep room id m t links _ _ _ _ ih ihmade =>
    exact (ihmade (ih h)).grown (World.keepChain_outgrows ..) World.size_keepChain rfl
  | expose proxy _ _ ih ihduring =>
    exact (ihduring ((ih h).grown (.of_eq rfl rfl) rfl rfl)).grown (.of_eq rfl rfl) rfl rfl
  | lend s o _ _ _ ih ihduring ihafter =>
    have hduring := ihduring ((ih h).grown (.of_eq rfl rfl) rfl rfl)
    exact ihafter (hduring.grown (.of_eq rfl rfl) rfl rfl)

theorem Reaches.settled {w w' : World σ} (hr : Reaches code w w') (h : w.Settled) :
    w'.Settled := by
  induction hr with
  | refl => exact h
  | leads _ hl ih => exact hl.settled ih
  | exposing proxy _ ih => exact ih.grown (.of_eq rfl rfl) rfl rfl
  | lending s o _ ih => exact ih.grown (.of_eq rfl rfl) rfl rfl
  | returning s o _ ih => exact ih.grown (.of_eq rfl rfl) rfl rfl

/-! ## Memories -/

/-- What was remembered is still there, behind what was remembered since. -/
def World.Recollects (w w' : World σ) : Prop :=
  ∀ id, w.memory id <:+ w'.memory id

namespace World.Recollects

variable {w w₁ w₂ : World σ}

theorem refl (w : World σ) : w.Recollects w :=
  fun _ => List.suffix_refl _

theorem trans (h : w.Recollects w₁) (h' : w₁.Recollects w₂) : w.Recollects w₂ :=
  fun id => (h id).trans (h' id)

theorem of_memories (h : w₁.memories = w.memories) : w.Recollects w₁ := by
  intro id
  have heq : w₁.memory id = w.memory id := by rw [memory, memory, h]
  exact heq ▸ List.suffix_refl _

end World.Recollects

theorem Change.recollects {w w' : World σ} (h : Change w w') : w.Recollects w' := by
  cases h with
  | newMemory =>
    intro id
    by_cases hid : id.index = w.memories.size
    · -- a memory that was not given out reads as an empty one
      simp [World.memory, hid]
    · simp [World.memory, Array.getElem?_push, hid]
  | remember id r =>
    intro id'
    rw [World.memory_setMemory]
    split
    next hsame =>
      rw [hsame.1]
      exact List.suffix_cons _ _
    next => exact List.suffix_refl _
  | _ => exact .of_memories rfl

theorem Leads.recollects {w w' : World σ} (h : Leads code w w') : w.Recollects w' := by
  induction h with
  | refl w => exact .refl w
  | change _ hc ih => exact ih.trans hc.recollects
  | keep room id m t links _ _ _ _ ih ihmade =>
    exact (ih.trans ihmade).trans (.of_memories rfl)
  | expose proxy _ _ ih ihduring => exact ih.trans ihduring
  | lend s o _ _ _ ih ihduring ihafter => exact (ih.trans ihduring).trans ihafter

end Aspects
