import Aspects.Proofs.Caching.Plans

/-!
# Cached chains are made from the advisors of now

While a chain is worked out user code may run, and it may change the very configuration
that the chain is for. The chain is then kept although the advisors are others by now,
and perhaps in place of a newer one. It does no harm: it is kept under the generation in
which the work began, and no lookup answers with a chain of another generation than the
present one.

`Sound` is the invariant behind this. Every cached chain is of a generation up to the
present one, and a chain of the present generation was made from the advisors that the
configuration has now. It is kept by changes that stand alone because these bring
nothing into a cache, and by working a chain out because the generation grows with every
change of the advisors (`World.Outgrows`). The result is `cached_chains_current`.
-/

namespace Aspects

variable {σ : Type} {α : Type} {code : Code σ} {start : World σ}

open Aspects.Configuration

/-- A cached chain is of no later generation than the configuration, and if it is of the
same one then it was made from the advisors of now. -/
structure SoundEntry (code : Code σ) (start w : World σ) (id : ConfigId)
    (e : CachedChain) : Prop where
  generation_le : e.generation ≤ (w.config id).generation
  made : e.generation = (w.config id).generation →
    Made code start w id e.query e.chain.links

/-- All cached chains are sound, and all adapters are known. -/
structure Sound (code : Code σ) (start w : World σ) : Prop where
  settled : w.Settled
  entry : ∀ id, ∀ e ∈ (w.config id).cache, SoundEntry code start w id e

theorem index_lt_of_mem_cache {w : World σ} {id : ConfigId} {e : CachedChain}
    (h : e ∈ (w.config id).cache) : id.index < w.configs.size := by
  refine Nat.lt_of_not_le fun hid => ?_
  rw [World.config_of_le hid] at h
  cases h

/-- A sound chain stays sound while its configuration grows. -/
theorem SoundEntry.grown {w w' : World σ} {id : ConfigId} {e : CachedChain}
    (h : SoundEntry code start w id e) (hs : w.Settled) (hg : w.Outgrows w')
    (hrecollects : w.Recollects w') (hid : id.index < w.configs.size) :
    SoundEntry code start w' id e where
  generation_le := Nat.le_trans h.generation_le (hg.config id hid).generation_le
  made heq := by
    -- the generation only grows and is where it was, so it has not moved
    have h₁ := h.generation_le
    have h₂ := (hg.config id hid).generation_le
    exact (h.made (by omega)).mono hrecollects (.of_outgrows hs hg hid (by omega))

/-- Where nothing new is in a cache, soundness stays. -/
theorem Sound.of_subset {w w' : World σ} (h : Sound code start w) (hg : w.Outgrows w')
    (hrecollects : w.Recollects w') (hs : w'.Settled)
    (hcache : ∀ id, (w'.config id).cache ⊆ (w.config id).cache) : Sound code start w' := by
  refine ⟨hs, fun id e he => ?_⟩
  have he' := hcache id he
  exact (h.entry id e he').grown h.settled hg hrecollects (index_lt_of_mem_cache he')

/-- Nothing but the configurations, the adapters and the memories matters. -/
theorem Sound.congr {w w' : World σ} (h : Sound code start w)
    (heq : w'.configs = w.configs) (ha : w'.adapters = w.adapters)
    (hm : w'.memories = w.memories) : Sound code start w' :=
  h.of_subset (.of_eq heq ha) (.of_memories hm)
    (h.settled.grown (.of_eq heq ha) (by rw [heq]) ha) fun id => by
      rw [World.config_congr heq]
      exact List.Subset.refl _

/-- For a number that was not given out, working a chain out gives none and changes
nothing but the journal. -/
theorem makeLinks_default (env : Env σ) (m : Method) (t : Option TypeDesc) (w : World σ) :
    (makeLinks env default m t).run w
      = some (.ok [], w.record (.event ⟨.trace, "Resolved interceptor chain",
          [("method", m.signature), ("units", toString 0)]⟩)) := rfl

/-- A chain that was worked out from a configuration as it was in `w₁` may be kept in
the world `w₂` that this led to. -/
theorem Sound.keepChain {w₁ w₂ : World σ} {room : Nat} {id : ConfigId} {m : Method}
    {t : Option TypeDesc} {links : List Link} (h₁ : Reaches code start w₁)
    (hs₁ : w₁.Settled) (h₂ : Sound code start w₂) (hworking : Leads code w₁ w₂)
    (hmade : (makeLinks (Engine.env code room) (w₁.config id) m t).run w₁
      = some (.ok links, w₂)) :
    Sound code start
      (w₂.keepChain id ((w₁.config id).query m t) (w₁.config id).generation links) := by
  have hg := hworking.outgrows
  have hkept := w₂.keepChain_outgrows id ((w₁.config id).query m t)
    (w₁.config id).generation links
  have hrecollects : w₂.Recollects
      (w₂.keepChain id ((w₁.config id).query m t) (w₁.config id).generation links) :=
    .of_memories rfl
  refine ⟨h₂.settled.grown hkept World.size_keepChain rfl, fun id' e he => ?_⟩
  by_cases hid : id.index < w₁.configs.size
  · have hid₂ := Nat.lt_of_lt_of_le hid hg.size_le
    by_cases heq : id' = id
    · subst heq
      rw [World.config_keepChain_self hid₂] at he
      rcases List.mem_cons.mp he with rfl | hold
      · -- the chain that has just been worked out
        refine SoundEntry.grown (w := w₂) ⟨?_, fun hgen => ?_⟩ h₂.settled hkept hrecollects hid₂
        · exact (hg.config id' hid).generation_le
        · exact (Made.now h₁ hmade).mono hworking.recollects (.of_outgrows hs₁ hg hid hgen.symm)
      · have hold := (List.mem_filter.mp hold).1
        exact (h₂.entry id' e hold).grown h₂.settled hkept hrecollects hid₂
    · rw [World.config_keepChain_other heq] at he
      exact (h₂.entry id' e he).grown h₂.settled hkept hrecollects (index_lt_of_mem_cache he)
  · -- the number was not given out, so nothing was worked out or kept
    rw [World.config_of_le (Nat.not_lt.mp hid), makeLinks_default] at hmade
    cases hmade
    rw [World.keepChain_of_le (w := w₁.record _) (Nat.not_lt.mp hid)]
      at he hkept hrecollects ⊢
    exact (h₂.entry id' e he).grown h₂.settled hkept hrecollects (index_lt_of_mem_cache he)

theorem Sound.leads {w w' : World σ} (hr : Reaches code start w) (hs : Sound code start w)
    (h : Leads code w w') : Sound code start w' := by
  induction h with
  | refl w => exact hs
  | @change _ w₁ w₂ _ hc ih =>
    have h₁ := ih hr hs
    exact h₁.of_subset hc.outgrows hc.recollects (h₁.settled.change hc) hc.cache_subset
  | @keep _ w₁ w₂ room id m t links hbefore _ hmade hworking ih ihworking =>
    -- what was seen before the work began is `w₁`, what it led to is `w₂`
    have hr₁ := hr.leads hbefore
    have h₁ := ih hr hs
    exact .keepChain hr₁ h₁.settled (ihworking hr₁ h₁) hworking hmade
  | @expose _ w₁ w₂ proxy hbefore _ ih ihduring =>
    have hr₁ := (hr.leads hbefore).exposing proxy
    exact (ihduring hr₁ ((ih hr hs).congr rfl rfl rfl)).congr rfl rfl rfl
  | @lend _ w₁ w₂ w₃ s o hbefore hduring _ ih ihduring ihafter =>
    have hr₁ := (hr.leads hbefore).lending s o
    have hs₂ := ihduring hr₁ ((ih hr hs).congr rfl rfl rfl)
    exact ihafter ((hr₁.leads hduring).returning s o) (hs₂.congr rfl rfl rfl)

theorem Sound.reaches {w : World σ} (hs : Sound code start start)
    (h : Reaches code start w) : Sound code start w := by
  induction h with
  | refl => exact hs
  | leads hr hl ih => exact .leads hr ih hl
  | exposing proxy _ ih => exact ih.congr rfl rfl rfl
  | lending s o _ ih => exact ih.congr rfl rfl rfl
  | returning s o _ ih => exact ih.congr rfl rfl rfl

/-- A world without configurations has nothing in a cache. -/
theorem Sound.initial (s : σ) : Sound code { user := s } { user := s } := by
  refine ⟨.initial s, fun id e he => ?_⟩
  have := index_lt_of_mem_cache he
  cases this

/-! ## Lookups -/

/-- A chain that is kept is what is made for its query now. -/
theorem Sound.kept {w : World σ} (hs : Sound code start w) {id : ConfigId} {key : MethodKey}
    {e : CachedChain} (h : (w.config id).kept? key = some e) :
    Made code start w id e.query e.chain.links := by
  obtain ⟨he, _, hgen⟩ := mem_cache_of_kept h
  exact (hs.entry id e he).made hgen

/-- What a lookup answers the chain for: the query that the chain in the cache was made for,
or the one of the lookup where nothing is kept. -/
def Configuration.origin (c : Configuration) (m : Method) (t : Option TypeDesc) : ChainQuery :=
  match c.kept? m.key with
  | some e => e.query
  | none => c.query m t

/-- It has the key that is looked up. -/
theorem key_origin (c : Configuration) (m : Method) (t : Option TypeDesc) :
    (c.origin m t).method.key = m.key := by
  unfold Configuration.origin
  cases h : c.kept? m.key with
  | none => rfl
  | some e => exact (mem_cache_of_kept h).2.1

/-- A chain that is looked up, found or not, is made from the advisors of now. -/
theorem Sound.chainFor {w w' : World σ} (hr : Reaches code start w)
    (hs : Sound code start w) {room : Nat} {id : ConfigId} {m : Method}
    {t : Option TypeDesc} {chain : Chain}
    (h : (chainFor (Engine.env code room) id m t).run w = some (.ok chain, w')) :
    Made code start w id ((w.config id).origin m t) chain.links := by
  unfold Configuration.origin
  cases hc : (w.config id).kept? m.key with
  | some e =>
    rw [chainFor_hit _ t (congrArg (Option.map CachedChain.chain) hc)] at h
    cases h
    exact hs.kept hc
  | none =>
    rw [chainFor_miss _ t (congrArg (Option.map CachedChain.chain) hc)] at h
    obtain ⟨⟨links, w₁⟩, hmade, hk⟩ := Option.map_eq_some_iff.mp h
    cases links with
    | ok links =>
      cases hk
      exact .now hr hmade
    | error e => cases hk

/-- If chains are always made of links of some sort from the advisors of now, then looking a
chain up does not fail, and whether it was in the cache or not, its links are of the sort. -/
theorem Sound.chainFor_links {w w' : World σ} {id : ConfigId} (hs : Sound code start w)
    (hr : Reaches code start w) {Q : Link → Prop}
    (hmake : ∀ {room m t w₀ o w₁}, Reaches code start w₀ → SameMakings w₀ w id →
      (makeLinks (Engine.env code room) (w₀.config id) m t).run w₀ = some (o, w₁) →
      ∃ links, o = .ok links ∧ ∀ link ∈ links, Q link)
    {room : Nat} {m : Method} {t : Option TypeDesc} {o : Outcome Chain}
    (hfound : (Configuration.chainFor (Engine.env code room) id m t).run w = some (o, w')) :
    ∃ chain, o = .ok chain ∧ ∀ link ∈ chain.links, Q link := by
  cases o with
  | ok chain =>
    -- the chain was made earlier perhaps, but from the advisors of now
    obtain ⟨room₀, w₀, w₁, hr₀, _, hsame, _, hmade⟩ := hs.chainFor hr hfound
    obtain ⟨links, hlinks, hall⟩ := hmake hr₀ hsame hmade
    cases hlinks
    exact ⟨chain, rfl, hall⟩
  | error e =>
    cases hc : (w.config id).cached? m.key with
    | some found =>
      rw [chainFor_hit _ t hc] at hfound
      cases hfound
    | none =>
      rw [chainFor_miss _ t hc] at hfound
      obtain ⟨⟨links, w₁⟩, hmade, hk⟩ := Option.map_eq_some_iff.mp hfound
      obtain ⟨links', rfl, _⟩ := hmake hr (.refl w id) hmade
      cases hk

/-- Throughout every run, whatever user code does to a configuration while a chain for it
is worked out: a cached chain of the present generation is what the advisors of now make for
the query that it was worked out for; and a chain that a lookup answers is what they make,
for the query of the chain in the cache, which has the same key, or for the lookup itself. -/
theorem cached_chains_current (code : Code σ) (room : Nat) (p : Action σ α) (s : σ) :
    Engine.Throughout code room p { user := s } fun w =>
      (∀ id, ∀ e ∈ (w.config id).cache, e.generation = (w.config id).generation →
        MadeOfNow code { user := s } w id e.query e.chain.links) ∧
      ∀ room id m t chain w',
        (chainFor (Engine.env code room) id m t).run w = some (.ok chain, w') →
        ((w.config id).origin m t).method.key = m.key ∧
        MadeOfNow code { user := s } w id ((w.config id).origin m t) chain.links := by
  refine Engine.throughout (fun w hr => ?_) room p
  have hs := (Sound.initial s).reaches hr
  refine ⟨fun id e he hgen => ?_, fun room id m t chain w' h => ⟨key_origin .., ?_⟩⟩
  · exact ((hs.entry id e he).made hgen).ofNow
  · exact (hs.chainFor hr h).ofNow

end Aspects
