import Aspects.Proofs.Steps.Pointcuts
import Aspects.Proofs.Steps.Telling

/-!
# Sources and configurations track

A target source runs its factory or its user code between changes of its pool. The
structural operations on a configuration run no user code before they come to their edit.

A chain that is looked up and not found is the one place where what was seen before user
code ran is written down after it. The chain is kept under the generation of the
advisors it was made from, which is all that `Trail.keep` asks for.
-/

namespace Aspects

variable {σ : Type} {α : Type} {code : Code σ} {τ : Trail code} {env env' : Env σ}

/-! ## Target sources -/

namespace Source

theorem make_tracks (s : Source) : Tracks τ (make s : Run σ SourceId) (make s) :=
  .change _ fun w => .of_eq (.newSource w s) rfl rfl

theorem createPooled_tracks (henv : env.Tracks τ env') (id : SourceId)
    (factory : Routine) :
    Tracks τ (createPooled env id factory).run (createPooled env' id factory).run := by
  refine .andThen (.attempt (henv.exec fun c => c.create factory)) fun outcome => ?_
  cases outcome with
  | ok o => exact .succeed _
  | error e => exact .andThen (.updateAct fun w => .of_eq (.pool w id _) rfl rfl) fun _ => .fail e

theorem acquire_tracks (henv : env.Tracks τ env') (id : SourceId) :
    Tracks τ (acquire env id).run (acquire env' id).run := by
  refine .andThen .world fun w => ?_
  cases w.source id with
  | empty t => exact .succeed _
  | singleton o => exact .succeed _
  | swappable o => exact .succeed _
  | prototype t factory =>
    exact .andThen (henv.exec fun c => c.create factory) fun _ => .succeed _
  | user label t fixed body => exact henv.exec fun c => c.acquire body
  | pooled t factory givesUp pool =>
    dsimp only
    cases pool.offer with
    | target o left =>
      exact .andThen (.updateAct fun w => .of_eq (.pool w id _) rfl rfl) fun _ => .succeed _
    | place left =>
      refine .andThen (.updateAct fun w => .of_eq (.pool w id _) rfl rfl) fun _ => ?_
      exact createPooled_tracks henv id factory
    | nothing => exact .branchAct _ (.fail _) (.ofRun .nothing)

theorem release_tracks (henv : env.Tracks τ env') (id : SourceId) (o : Object) :
    Tracks τ (release env id o).run (release env' id o).run := by
  refine .andThen .world fun w => ?_
  cases w.source id with
  | prototype t factory => exact .ofRun (.emit _ _ _)
  | pooled t factory givesUp pool => exact .updateAct fun w => .of_eq (.pool w id _) rfl rfl
  | user label t fixed body => exact henv.exec fun c => c.release body o
  | _ => exact .succeed _

theorem swap_tracks (id : SourceId) (new : Object) :
    Tracks τ (swap id new : Act σ Object).run (swap id new).run := by
  refine .lookingAct fun w hw => ?_
  cases h : w.source id with
  | swappable old =>
    dsimp only
    -- the exchange is a step because the old target is still the one that was compared
    cases hc : compatible old new with
    | true =>
      have hswapped := τ.stir (.swap w id old new h hc)
      refine TracksFrom.andThen hw (.updateAct hswapped) fun _ => ?_
      exact .andThen (.ofRun (.emit _ _ _)) fun _ => .succeed _
    | false => exact Tracks.fail _ w hw
  | _ => exact Tracks.fail _ w hw

end Source

/-! ## Changing a configuration -/

namespace Configuration

theorem make_tracks (c : Configuration) : Tracks τ (make c : Run σ ConfigId) (make c) :=
  .change _ fun w => .newConfig w c

theorem setFrozen_tracks (id : ConfigId) (b : Bool) :
    Tracks τ (setFrozen id b : Act σ Unit).run (setFrozen id b).run := by
  refine reading id fun w hw => ?_
  by_cases h : (w.config id).isFrozen && !b
  · rw [if_pos h]
    exact Tracks.fail _ w hw
  · rw [if_neg h]
    refine .updateAct (τ.stir (.config w id (.flags _ fun hfrozen => ?_) rfl ⟨rfl, rfl, rfl⟩))
    simpa [hfrozen] using h

theorem setFlags_tracks (id : ConfigId) (f : Flags) :
    Tracks τ (setFlags id f : Act σ Unit).run (setFlags id f).run := by
  refine reading id fun w hw => ?_
  by_cases h : (w.config id).isFrozen
  · rw [if_pos h]
    exact Tracks.fail _ w hw
  · rw [if_neg h]
    exact .updateAct (τ.stir (.config w id (.flags f fun hfrozen => absurd hfrozen h) rfl
      ⟨rfl, rfl, rfl⟩))

theorem freeze_tracks (id : ConfigId) : Tracks τ (freeze id : Run σ Unit) (freeze id) :=
  .bind (.update fun w => .config w id (.flags _ fun _ => rfl) rfl ⟨rfl, rfl, rfl⟩) fun _ =>
    .emit _ _ _

theorem removeListener_tracks (id : ConfigId) (l : Routine) :
    Tracks τ (removeListener id l : Run σ Bool) (removeListener id l) := by
  refine .bind .look fun w => ?_
  exact .bind (.update fun w => .config w id (.listeners _) rfl ⟨rfl, rfl, rfl⟩) fun _ =>
    .pure _

/-! ## Chains -/

theorem makeLinks_tracks (henv : env.Tracks τ env') (c : Configuration) (m : Method)
    (t : Option TypeDesc) :
    Tracks τ (makeLinks env c m t).run (makeLinks env' c m t).run := by
  unfold makeLinks
  split
  · exact Chain.standard_tracks henv _ _ _ _ _
  · exact henv.exec fun code => code.makeChain _ _ _ m t

/-- What is kept for a key in the present generation stands in the cache, under both. -/
theorem mem_cache_of_kept {c : Configuration} {key : MethodKey} {e : CachedChain}
    (h : c.kept? key = some e) : e ∈ c.cache ∧ e.key = key ∧ e.generation = c.generation := by
  obtain ⟨hfound, hgen⟩ := Option.filter_eq_some_iff.mp h
  exact ⟨List.mem_of_find?_eq_some hfound, by simpa using List.find?_some hfound,
    by simpa using hgen⟩

theorem kept_of_cached {c : Configuration} {key : MethodKey} {chain : Chain}
    (h : c.cached? key = some chain) : ∃ e, c.kept? key = some e ∧ e.chain = chain :=
  Option.map_eq_some_iff.mp h

/-- A chain in the cache is answered as it is there. -/
theorem chainFor_hit (env : Env σ) {id : ConfigId} {m : Method} (t : Option TypeDesc)
    {w : World σ} {chain : Chain} (h : (w.config id).cached? m.key = some chain) :
    (chainFor env id m t).run w
      = some (.ok chain, w.record (.event
          ⟨.trace, "Interceptor chain cache hit", [("method", m.signature)]⟩)) := by
  unfold chainFor
  rw [run_reading]
  simp only [h]
  rfl

/-- Any other is worked out from the configuration as it was before, and kept. -/
theorem chainFor_miss (env : Env σ) {id : ConfigId} {m : Method} (t : Option TypeDesc)
    {w : World σ} (h : (w.config id).cached? m.key = none) :
    (chainFor env id m t).run w
      = ((makeLinks env (w.config id) m t).run w).map fun (links, w') =>
          match links with
          | .ok links => (.ok ⟨w'.serial, links⟩,
              w'.keepChain id ((w.config id).query m t) (w.config id).generation links)
          | .error e => (.error e, w') := by
  unfold chainFor
  rw [run_reading]
  simp only [h]
  show ((makeLinks env (w.config id) m t).run w).bind _ = _
  cases (makeLinks env (w.config id) m t).run w with
  | none => rfl
  | some r =>
    obtain ⟨_ | links, w'⟩ := r
    · rfl
    · rfl

theorem chainFor_tracks (hruns : τ.runs env) (henv : env.Tracks τ env') (id : ConfigId)
    (m : Method) (t : Option TypeDesc) :
    Tracks τ (chainFor env id m t).run (chainFor env' id m t).run := by
  intro w hw
  cases h : (w.config id).cached? m.key with
  | some chain =>
    refine ⟨by rw [chainFor_hit _ t h, chainFor_hit _ t h], fun a w' ha => ?_⟩
    rw [chainFor_hit _ t h] at ha
    cases ha
    exact τ.stir (.remark w _ rfl)
  | none =>
    -- the configuration was read in `w`, user code runs, and the chain is kept after it
    have hmade := makeLinks_tracks henv (w.config id) m t w hw
    constructor
    · rw [chainFor_miss _ t h, chainFor_miss _ t h, hmade.same]
    · intro a w' ha
      rw [chainFor_miss _ t h] at ha
      obtain ⟨⟨links, w₁⟩, hr, hk⟩ := Option.map_eq_some_iff.mp ha
      have hworking := hmade.leads _ _ hr
      cases links with
      | ok links =>
        cases hk
        exact τ.keep id m t links hruns h hr hworking
      | error e =>
        cases hk
        exact hworking

end Configuration

end Aspects
