import Aspects.Proofs.Steps.Trail

/-!
# Tracking a run

To show something of the worlds that user code sees in the middle of a run, the run is
compared with another one, which stops where the world is not as it should be. `Tracks`
says that the other run never does: it is the same run, and both keep to the trail. Here
it is shown of the ways in which runs are put together, the files behind this one show it
of the operations of the library.
-/

namespace Aspects

variable {σ : Type} {α β : Type} {code : Code σ} {τ : Trail code}

/-- From the world `w` the other run is the same run, and keeps to the trail. -/
structure TracksFrom (τ : Trail code) (w : World σ) (r r' : Run σ α) : Prop where
  same : r' w = r w
  leads : ∀ a w', r w = some (a, w') → τ.leads w w'

/-- Wherever the trail may come, the other run is the same run, and keeps to the trail. -/
def Tracks (τ : Trail code) (r r' : Run σ α) : Prop :=
  ∀ w, τ.holds w → TracksFrom τ w r r'

namespace TracksFrom

variable {w : World σ}

theorem pure (a : α) : TracksFrom τ w (Pure.pure a) (Pure.pure a) := by
  refine ⟨rfl, fun b w' h => ?_⟩
  cases h
  exact τ.refl w

theorem bind {r r' : Run σ α} {k k' : α → Run σ β} (hr : TracksFrom τ w r r')
    (hk : ∀ a w', r w = some (a, w') → TracksFrom τ w' (k a) (k' a)) :
    TracksFrom τ w (r >>= k) (r' >>= k') := by
  constructor
  · show (r' w).bind (fun x => k' x.1 x.2) = (r w).bind fun x => k x.1 x.2
    rw [hr.same]
    cases hw : r w with
    | none => rfl
    | some x => exact (hk x.1 x.2 hw).same
  · intro b w₂ h
    obtain ⟨⟨a, w₁⟩, hw, hb⟩ := Option.bind_eq_some_iff.mp h
    exact τ.trans (hr.leads a w₁ hw) ((hk a w₁ hw).leads b w₂ hb)

/-- Two runs of which it is known how they go. -/
theorem of_run {r r' : Run σ α} {a : α} {w' : World σ} (h : r w = some (a, w'))
    (h' : r' w = some (a, w')) (hw : τ.leads w w') : TracksFrom τ w r r' := by
  refine ⟨h'.trans h.symm, fun b w₁ hb => ?_⟩
  rw [h] at hb
  cases hb
  exact hw

/-- A change of the world, with an answer. -/
theorem change {f : World σ → World σ} (a : World σ → α) (h : τ.leads w (f w)) :
    TracksFrom τ w (modifyGet fun w => (a w, f w)) (modifyGet fun w => (a w, f w)) := by
  refine ⟨rfl, fun b w' hb => ?_⟩
  cases hb
  exact h

/-- A change that is made because of what was seen. -/
theorem updateAct {f : World σ → World σ} (h : τ.leads w (f w)) :
    TracksFrom τ w (Act.update f).run (Act.update f).run :=
  .bind (.change (fun _ => PUnit.unit) h) fun _ _ _ => .pure _

end TracksFrom

namespace Tracks

theorem pure (a : α) : Tracks τ (Pure.pure a) (Pure.pure a) :=
  fun _ _ => .pure a

theorem bind {r r' : Run σ α} {k k' : α → Run σ β} (hr : Tracks τ r r')
    (hk : ∀ a, Tracks τ (k a) (k' a)) : Tracks τ (r >>= k) (r' >>= k') := by
  intro w hw
  refine .bind (hr w hw) fun a w' h => ?_
  exact hk a w' (τ.onward hw ((hr w hw).leads a w' h))

/-- A run without an outcome. -/
theorem nothing : Tracks τ (fun _ => none : Run σ α) fun _ => none := by
  refine fun w _ => ⟨rfl, fun a w' h => ?_⟩
  cases h

theorem look : Tracks τ (get : Run σ (World σ)) get := by
  refine fun w _ => ⟨rfl, fun a w' h => ?_⟩
  cases h
  exact τ.refl w

/-- A change of the world, with an answer. -/
theorem change {f : World σ → World σ} (a : World σ → α) (hf : ∀ w, Stir w (f w)) :
    Tracks τ (modifyGet fun w => (a w, f w)) (modifyGet fun w => (a w, f w)) :=
  fun w _ => .change a (τ.stir (hf w))

theorem update {f : World σ → World σ} (hf : ∀ w, Stir w (f w)) :
    Tracks τ (modify f) (modify f) :=
  change (fun _ => PUnit.unit) hf

theorem remark (e : Entry) (he : e.isRemark) :
    Tracks τ (record e : Run σ Unit) (record e) :=
  update fun w => .remark w e he

theorem emit (level : Level) (message : String) (fields : List (String × String)) :
    Tracks τ (Aspects.emit level message fields : Run σ Unit)
      (Aspects.emit level message fields) :=
  remark _ rfl

theorem freshId : Tracks τ (Aspects.freshId : Run σ Nat) Aspects.freshId :=
  change _ fun w => .of_eq (.number w) rfl rfl

theorem branch (c : Prop) [Decidable c] {r₁ r₁' r₂ r₂' : Run σ α}
    (h₁ : Tracks τ r₁ r₁') (h₂ : Tracks τ r₂ r₂') :
    Tracks τ (if c then r₁ else r₂) (if c then r₁' else r₂') := by
  split
  · exact h₁
  · exact h₂

/-- A program tracks if its commands do. -/
theorem program {F : Type → Type} {f f' : {β : Type} → F β → Run σ β}
    (h : ∀ {β : Type} (c : F β), Tracks τ (f c) (f' c)) (p : Program F α) :
    Tracks τ (p.run f) (p.run f') := by
  induction p with
  | done a => exact pure a
  | issue c k ih => exact bind (h c) ih

end Tracks

/-! ## Runs that may fail -/

namespace Tracks

variable {ε : Type}

theorem succeed (a : α) :
    Tracks τ (Pure.pure a : ExceptT ε (Run σ) α).run
      (Pure.pure a : ExceptT ε (Run σ) α).run :=
  pure _

theorem fail (e : ε) :
    Tracks τ (throw e : ExceptT ε (Run σ) α).run
      (throw e : ExceptT ε (Run σ) α).run :=
  pure _

theorem andThen {a a' : ExceptT ε (Run σ) α} {k k' : α → ExceptT ε (Run σ) β}
    (ha : Tracks τ a.run a'.run) (hk : ∀ x, Tracks τ (k x).run (k' x).run) :
    Tracks τ (a >>= k).run (a' >>= k').run := by
  rw [ExceptT.run_bind, ExceptT.run_bind]
  refine bind ha fun o => ?_
  cases o with
  | ok x => exact hk x
  | error e => exact pure _

theorem branchAct (c : Prop) [Decidable c] {a₁ a₁' a₂ a₂' : ExceptT ε (Run σ) α}
    (h₁ : Tracks τ a₁.run a₁'.run) (h₂ : Tracks τ a₂.run a₂'.run) :
    Tracks τ (if c then a₁ else a₂).run (if c then a₁' else a₂').run := by
  split
  · exact h₁
  · exact h₂

theorem lift {r r' : Run σ α} (h : Tracks τ r r') :
    Tracks τ (ExceptT.lift r : ExceptT ε (Run σ) α).run (ExceptT.lift r').run :=
  bind h fun _ => pure _

theorem ofRun {r r' : Run σ α} (h : Tracks τ r r') :
    Tracks τ (Act.ofRun r).run (Act.ofRun r').run :=
  lift h

theorem attempt {a a' : Act σ α} (h : Tracks τ a.run a'.run) :
    Tracks τ (Act.attempt a).run (Act.attempt a').run :=
  ofRun h

theorem ofExcept (o : Except Fault α) :
    Tracks τ (Act.ofExcept o : Act σ α).run (Act.ofExcept o).run := by
  cases o with
  | ok a => exact succeed a
  | error f => exact fail (Failure.fault f)

theorem world : Tracks τ (Act.world : Act σ (World σ)).run Act.world.run :=
  ofRun look

theorem updateAct {f : World σ → World σ} (hf : ∀ w, Stir w (f w)) :
    Tracks τ (Act.update f).run (Act.update f).run :=
  fun w _ => .updateAct (τ.stir (hf w))

/-- What comes after a look may use that the world is the one seen. -/
theorem lookingAct {k k' : World σ → Act σ α}
    (hk : ∀ w, τ.holds w → TracksFrom τ w (k w).run (k' w).run) :
    Tracks τ (Act.world >>= k).run (Act.world >>= k').run :=
  fun w hw => ⟨(hk w hw).same, (hk w hw).leads⟩

end Tracks

/-- From a world that was reached an act, and then, from wherever it leads, whatever
tracks. -/
theorem TracksFrom.andThen {w : World σ} {a a' : Act σ α}
    {k k' : α → Act σ β} (hw : τ.holds w) (ha : TracksFrom τ w a.run a'.run)
    (hk : ∀ x, Tracks τ (k x).run (k' x).run) :
    TracksFrom τ w (a >>= k).run (a' >>= k').run := by
  rw [ExceptT.run_bind, ExceptT.run_bind]
  refine ha.bind fun o w' h => ?_
  have hw' := τ.onward hw (ha.leads o w' h)
  cases o with
  | ok x => exact hk x w' hw'
  | error e => exact .pure _

/-- A run that cannot fail, and then whatever tracks from where it leads with its answer. -/
theorem TracksFrom.running {w : World σ} {r r' : Run σ α} {k k' : α → Act σ β}
    (hr : TracksFrom τ w r r')
    (hk : ∀ a w', r w = some (a, w') → TracksFrom τ w' (k a).run (k' a).run) :
    TracksFrom τ w (Act.ofRun r >>= k).run (Act.ofRun r' >>= k').run := by
  have hboth := hr.bind hk
  constructor
  · rw [Act.run_ofRun, Act.run_ofRun]
    exact hboth.same
  · intro b w' h
    rw [Act.run_ofRun] at h
    exact hboth.leads b w' h

/-! ## User code -/

/-- The other environment runs the same user code, and what it does for the commands of
that code tracks. -/
structure Env.Tracks (τ : Trail code) (env env' : Env σ) : Prop where
  code_eq : env.code = code
  code_eq' : env'.code = code
  perform : ∀ {β : Type} (c : Command σ β),
    Aspects.Tracks τ (env.perform c) (env'.perform c)

namespace Env.Tracks

variable {env env' : Env σ}

theorem run (henv : env.Tracks τ env') (p : Code σ → Action σ α) :
    Aspects.Tracks τ (env.run (p env.code)) (env'.run (p env'.code)) := by
  rw [henv.code_eq, henv.code_eq']
  exact .program henv.perform _

theorem exec (henv : env.Tracks τ env') (p : Code σ → Task σ α) :
    Aspects.Tracks τ (env.exec (p env.code)).run (env'.exec (p env'.code)).run :=
  henv.run fun c => (p c).run

end Env.Tracks

end Aspects
