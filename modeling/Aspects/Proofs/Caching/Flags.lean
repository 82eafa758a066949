import Aspects.Proofs.Caching.Transparency

/-!
# Changing the flag behind a cached chain

Whether the advisors of a configuration are said to be filtered counts where a chain is
worked out and nowhere else. Changing it neither starts a generation nor empties the
cache. So it takes effect for the methods that nothing was kept for, and for these at
once. A method that was looked up before keeps its chain, which is right under the new
flag exactly if the flag, the method and the target type that the chain was made for get
the same chain as those of now (`flag_effective_iff`).

Of advice that matches one class only, the flag lets the calls to another class have the
advice too, but not those to a method that was looked up before (`flag_unseen_by_cache`).
-/

namespace Aspects

variable {σ : Type} {α : Type} {code : Code σ}

open Aspects.Configuration

/-- Says of the advisors of a configuration whether they are filtered, and then looks a
chain up. -/
def lookupFlagged (env : Env σ) (id : ConfigId) (b : Bool) (m : Method)
    (t : Option TypeDesc) : Act σ Chain := do
  Act.ofRun (setPreFiltered id b)
  chainFor env id m t

/-- The world once the flag of the configuration was set. -/
def World.flagged (w : World σ) (id : ConfigId) (b : Bool) : World σ :=
  update id (fun c => { c with preFiltered := b }) w

section Flagged

variable {env : Env σ} {w w' : World σ} {id : ConfigId} {b : Bool} {m : Method}
  {t : Option TypeDesc}

theorem run_lookupFlagged (env : Env σ) (id : ConfigId) (b : Bool) (m : Method)
    (t : Option TypeDesc) (w : World σ) :
    (lookupFlagged env id b m t).run w = (chainFor env id m t).run (w.flagged id b) := rfl

theorem config_flagged (hid : id.index < w.configs.size) (b : Bool) :
    (w.flagged id b).config id = { w.config id with preFiltered := b } :=
  World.config_setConfig_self hid _

/-- The flag is no part of what the cache knows a chain by. -/
theorem cached?_flagged (hid : id.index < w.configs.size) (b : Bool) (key : MethodKey) :
    ((w.flagged id b).config id).cached? key = (w.config id).cached? key := by
  rw [config_flagged hid]
  rfl

/-- Where nothing was kept, a lookup answers what the advisors make under the new flag, be
it links or a failure. -/
theorem answer_of_flagged_miss (hid : id.index < w.configs.size)
    (hmiss : (w.config id).cached? m.key = none) :
    ((lookupFlagged env id b m t).run w).map (fun r => r.1.map Chain.links)
      = ((makeLinks env { w.config id with preFiltered := b } m t).run
          (w.flagged id b)).map (·.1) := by
  have hmiss' : ((w.flagged id b).config id).cached? m.key = none := by
    rw [cached?_flagged hid, hmiss]
  rw [run_lookupFlagged, answer_of_miss hmiss', config_flagged hid]

/-- A chain that was kept is found under any flag. -/
theorem flagged_hit (hid : id.index < w.configs.size) {found : Chain}
    (hfound : (w.config id).cached? m.key = some found) :
    ∃ w', (lookupFlagged env id b m t).run w = some (.ok found, w') := by
  rw [run_lookupFlagged]
  exact ⟨_, chainFor_hit env t ((cached?_flagged hid b m.key).trans hfound)⟩

/-- A chain of the present generation that has just been put into the cache is found. -/
theorem kept?_store {c : Configuration} {e : CachedChain} (h : e.generation = c.generation) :
    (c.store e).kept? e.key = some e := by
  unfold kept? store
  rw [List.find?_cons_of_pos (by exact beq_self_eq_true e.key)]
  exact if_pos (beq_iff_eq.mpr h)

/-- A lookup that ends in the generation in which it began leaves its answer in the cache. -/
theorem cached_of_chainFor (hid : id.index < w'.configs.size) {chain : Chain}
    (h : (chainFor env id m t).run w = some (.ok chain, w'))
    (hgen : (w'.config id).generation = (w.config id).generation) :
    (w'.config id).cached? m.key = some chain := by
  cases hc : (w.config id).cached? m.key with
  | some found =>
    rw [chainFor_hit _ t hc] at h
    cases h
    exact hc
  | none =>
    rw [chainFor_miss _ t hc] at h
    obtain ⟨⟨links, w₁⟩, _, hk⟩ := Option.map_eq_some_iff.mp h
    cases links with
    | ok links =>
      cases hk
      rw [World.size_keepChain] at hid
      rw [World.config_keepChain_self hid] at hgen ⊢
      exact congrArg (Option.map CachedChain.chain) (kept?_store hgen.symm)
    | error e => cases hk

end Flagged

theorem leads_of_chainFor {w w' : World σ} {room : Nat} {id : ConfigId} {m : Method}
    {t : Option TypeDesc} {o : Outcome Chain}
    (h : (chainFor (Engine.env code room) id m t).run w = some (o, w')) : Leads code w w' :=
  (chainFor_tracks (τ := .steps code w) ⟨room, rfl⟩ (Engine.env_steps code w room) id m t
    w .refl).leads o w' h

/-- Throughout every run, when the flag is set and then a chain looked up: if none was kept
for the method, the answer is what the advisors make under the new flag; one that was kept is
answered under any flag, which for chains that go by a plan is right exactly if the plan is
the same for what it was made for; and if the method was looked up before in this generation,
the answer is the one of that time. -/
theorem flag_effective_iff (code : Code σ) (room : Nat) (p : Action σ α) (s : σ) :
    Engine.Throughout code room p { user := s } fun w =>
      ∀ id, id.index < w.configs.size → ∀ room b m t,
        ((w.config id).cached? m.key = none →
          ((lookupFlagged (Engine.env code room) id b m t).run w).map
              (fun r => r.1.map Chain.links)
            = ((makeLinks (Engine.env code room) { w.config id with preFiltered := b } m
                t).run (w.flagged id b)).map (·.1)) ∧
        (∀ found, (w.config id).cached? m.key = some found →
          (∃ w', (lookupFlagged (Engine.env code room) id b m t).run w
            = some (.ok found, w')) ∧
          ∃ q : ChainQuery, q.method.key = m.key ∧
            Made code { user := s } w id q found.links ∧
            ∀ asked plan, FollowsPlan code { user := s } w id asked plan →
              asked q.method q.target →
              (found.links.map Link.outline = plan ⟨m, t, b⟩ ↔ plan q = plan ⟨m, t, b⟩)) ∧
        ∀ t₀ chain w₁, (chainFor (Engine.env code room) id m t₀).run w
            = some (.ok chain, w₁) →
          (w₁.config id).generation = (w.config id).generation →
          ∃ w', (lookupFlagged (Engine.env code room) id b m t).run w₁
            = some (.ok chain, w') := by
  refine Engine.throughout (fun w hr id hid room b m t => ⟨?_, ?_, ?_⟩) room p
  · exact answer_of_flagged_miss hid
  · intro found hfound
    obtain ⟨e, hkept, rfl⟩ := kept_of_cached hfound
    have hmade := ((Sound.initial s).reaches hr).kept hkept
    refine ⟨flagged_hit hid hfound, e.query, (mem_cache_of_kept hkept).2.1, hmade, ?_⟩
    intro asked plan hplan hasked
    rw [hmade.outline hplan hasked]
  · intro t₀ chain w₁ h hgen
    have hid₁ := Nat.lt_of_lt_of_le hid (leads_of_chainFor h).outgrows.size_le
    exact flagged_hit hid₁ (cached_of_chainFor hid₁ h hgen)

/-- Looks a chain up before and after the advisors are said to be filtered, has the chain
worked out that they make then, and answers how long these chains are. -/
def lookupAroundFlag : ExceptT Failure (Action Unit) (List Nat) := do
  let s ← ExceptT.lift (.ofCommand (.newSource (.singleton ⟨plainType, 0, .entity "p"⟩)))
  let c ← ExceptT.lift (.ofCommand (.newConfig { source := s }))
  ExceptT.mk (.ofCommand (.addAdvisor c none auditor))
  let unfiltered ← ExceptT.mk (.ofCommand (.chain c ping (some plainType)))
  ExceptT.lift (.ofCommand (.setPreFiltered c true))
  let found ← ExceptT.mk (.ofCommand (.chain c ping (some plainType)))
  let right ← ExceptT.mk
    (.ofCommand (.standardChain default [auditor] true ping (some plainType)))
  return [unfiltered.links.length, found.links.length, right.length]

/-- The advice is not in the chain that is found once the flag is set, although it is in
the one that the advisors make under the flag. -/
theorem flag_unseen_by_cache :
    (Engine.run auditing 1 lookupAroundFlag.run { user := () }).map (·.1)
      = some (.ok [0, 0, 1]) :=
  rfl

end Aspects
