import Aspects.Proofs.Lookup.Visible
import Aspects.Proofs.Selecting.Memories

/-!
# What pure pointcuts say of a type

A pointcut is pure if what it answers is a function of what it is asked. Asked about a
type and the methods visible on it, it then says one thing throughout, its `Stance`.

A pointcut with a memory may hold anything in it at the start. What it answers is what it
holds, and for the rest what would be worked out (`World.recall`). Working a residue out
and remembering it changes none of these answers, because no two visible methods have
one key (`World.Concurs`). So a pure pointcut takes a stance in all worlds whose memories
concur with those of the start (`Pointcut.Pure.takes`).
-/

namespace Aspects

variable {σ : Type} {env : Env σ} {tests : Tests} {owner : MemoId → Expr} {t : TypeDesc}
  {w w' w₀ : World σ}

/-! ## What memories answer -/

/-- To remember a residue for one visible method is no answer for another. -/
theorem Pointcut.find?_remember {m m' : Method} (hm : m ∈ t.allMethods)
    (hm' : m' ∈ t.allMethods) (hne : m' ≠ m) (memory : List Remembered) (r : Residue) :
    (remember memory m (some t) r).find? (·.isFor m' (some t))
      = memory.find? (·.isFor m' (some t)) := by
  have hkey : m.key ≠ m'.key := fun hkey => hne (TypeDesc.eq_of_key_eq hm' hm hkey.symm)
  unfold remember
  rw [List.find?_cons_of_neg (by simp [Remembered.isFor, hkey])]

theorem World.recall_remember {id : MemoId} {e : Expr} {m m' : Method}
    (hm : m ∈ t.allMethods) (hm' : m' ∈ t.allMethods)
    (hmissing : (w.memory id).find? (·.isFor m (some t)) = none) :
    (w.setMemory id (Pointcut.remember (w.memory id) m (some t)
        (e.shapeResidue tests m (some t)))).recall tests id e m' (some t)
      = w.recall tests id e m' (some t) := by
  unfold World.recall
  rw [World.memory_setMemory]
  by_cases hsize : id.index < w.memories.size
  · rw [if_pos ⟨rfl, hsize⟩]
    by_cases hne : m' = m
    · -- the residue of the method itself is the one that would be worked out
      subst hne
      rw [hmissing, Pointcut.remember, List.find?_cons_of_pos
        (by simp [Remembered.isFor, sameTarget, TypeDesc.same_refl])]
    · rw [Pointcut.find?_remember hm hm' hne]
  · rw [if_neg fun hboth => hsize hboth.2]

/-- For the methods that are visible on the type the memories of both worlds answer the
same. -/
def World.Concurs (tests : Tests) (owner : MemoId → Expr) (t : TypeDesc) (w w' : World σ) :
    Prop :=
  ∀ id, ∀ m ∈ t.allMethods,
    w'.recall tests id (owner id) m (some t) = w.recall tests id (owner id) m (some t)

namespace World.Concurs

theorem refl (w : World σ) : World.Concurs tests owner t w w :=
  fun _ _ _ => rfl

theorem of_memories (h : World.Concurs tests owner t w₀ w) (hsame : w'.memories = w.memories) :
    World.Concurs tests owner t w₀ w' := by
  intro id m hm
  have hmemory : w'.memory id = w.memory id := by
    unfold World.memory
    rw [hsame]
  rw [← h id m hm]
  unfold World.recall
  rw [hmemory]

theorem remember (h : World.Concurs tests owner t w₀ w) {id : MemoId} {m : Method}
    (hm : m ∈ t.allMethods) (hmissing : (w.memory id).find? (·.isFor m (some t)) = none) :
    World.Concurs tests owner t w₀ (w.setMemory id (Pointcut.remember (w.memory id) m (some t)
      ((owner id).shapeResidue tests m (some t)))) := by
  intro j m' hm'
  rw [← h j m' hm']
  by_cases hj : j = id
  · subst hj
    exact World.recall_remember hm hm' hmissing
  · unfold World.recall
    rw [World.memory_setMemory, if_neg fun hboth => hj hboth.1]

end World.Concurs

/-! ## Stances -/

/-- From every world of the sort the run gives the answer; to find it nothing but memories
and the journal changes, and the world is still of the sort. -/
def Run.Gives (S : World σ → Prop) {α : Type} (r : Run σ α) (a : α) : Prop :=
  ∀ w, S w → ∃ w', r w = some (a, w') ∧ w.Ponders w' ∧ S w'

namespace Run.Gives

variable {S : World σ → Prop} {α β : Type} {a : α} {b : β}

theorem pure (a : α) : Gives S (Pure.pure a) a :=
  fun w hw => ⟨w, rfl, .refl w, hw⟩

theorem bind {r : Run σ α} {k : α → Run σ β} (hr : Gives S r a) (hk : Gives S (k a) b) :
    Gives S (r >>= k) b := by
  intro w hw
  obtain ⟨w₁, hrun, hponders, hw₁⟩ := hr w hw
  obtain ⟨w₂, hrun', hponders', hw₂⟩ := hk w₁ hw₁
  exact ⟨w₂, (run_bind_of_some hrun k).trans hrun', hponders.trans hponders', hw₂⟩

/-- In an act that may fail, a run that cannot. -/
theorem ofRun {r : Run σ α} {k : α → Act σ β} {o : Outcome β} (hr : Gives S r a)
    (hk : Gives S (k a).run o) : Gives S (Act.ofRun r >>= k).run o := by
  have hrun : (Act.ofRun r >>= k).run = r >>= fun a => (k a).run :=
    funext fun _ => Act.run_ofRun r k _
  rw [hrun]
  exact hr.bind hk

end Run.Gives

/-- What a pointcut says of types and methods. -/
structure Stance where
  passes : TypeDesc → Bool
  verdict : Method → Option TypeDesc → Outcome Verdict
  rest : Method → Option TypeDesc → Option Pointcut

/-- Everything is matched. -/
instance : Inhabited Stance :=
  ⟨fun _ => true, fun _ _ => .ok .always, fun _ _ => none⟩

namespace Pointcut

/-- What a pointcut says, when memories answer as they do in the world, and the user's
pointcuts have these views. -/
def stance (tests : Tests) (views : Routine → Stance) (w₀ : World σ) : Pointcut → Stance
  | all => default
  | expr e =>
    { passes := e.matchesType
      verdict := fun m t =>
        match e.resolvePure tests.method m (t.getD m.declaring) with
        | .ok r => .ok r.verdict
        | .error f => .error (.fault f)
      rest := fun m t =>
        match e.resolvePure tests.method m (t.getD m.declaring) with
        | .ok r => some (residue r)
        | .error _ => none }
  | memo id e _ =>
    { passes := e.matchesType
      verdict := fun m t => .ok (w₀.recall tests id e m t).verdict
      rest := fun m t => some (residue (w₀.recall tests id e m t)) }
  | residue r => ⟨fun _ => true, fun _ _ => .ok r.verdict, fun _ _ => none⟩
  | user _ body => views body

/-- In the worlds of the sort the pointcut says this of the type and of the methods that are
visible on it. -/
structure Takes (env : Env σ) (S : World σ → Prop) (t : TypeDesc) (p : Pointcut)
    (stance : Stance) : Prop where
  matchesClass : Run.Gives S (p.matchesClass env t) (stance.passes t)
  matchesMethod : ∀ m ∈ t.allMethods,
    Run.Gives S (p.matchesMethod env m (some t)).run (stance.verdict m (some t))
  residueFor : ∀ m ∈ t.allMethods,
    Run.Gives S (p.residueFor env m (some t)) (stance.rest m (some t))

/-- The pointcut is pure in what it is asked about the type from the world on. One of the
library is if the tests in it are functions and its memory serves its expression. One of
the user is if what it says, a failure included, is a function of what it is asked; to
say it, it may write messages and ask pointcuts with a memory. -/
def Pure (env : Env σ) (tests : Tests) (views : Routine → Stance) (owner : MemoId → Expr)
    (t : TypeDesc) (w₀ : World σ) : Pointcut → Prop
  | user label body =>
    (user label body).Takes env (World.Concurs tests owner t w₀) t (views body)
  | p => p.TestedBy env tests owner

/-- It is enough that a pointcut of the user does nothing but say it. -/
theorem user_pure {views : Routine → Stance} {body : Routine}
    (hclass : ∀ t, env.run (env.code.matchesClass body t) = pure ((views body).passes t))
    (hmethod : ∀ m t, (env.exec (env.code.matchesMethod body m t)).run
      = pure ((views body).verdict m t))
    (hrest : ∀ m t, env.run (env.code.residue body m t) = pure ((views body).rest m t))
    (label : String) : (user label body).Pure env tests views owner t w₀ := by
  refine ⟨?_, fun m _ => ?_, fun m _ => ?_⟩
  · show Run.Gives _ (env.run (env.code.matchesClass body t)) _
    rw [hclass]
    exact .pure _
  · show Run.Gives _ (env.exec (env.code.matchesMethod body m (some t))).run _
    rw [hmethod]
    exact .pure _
  · show Run.Gives _ (env.run (env.code.residue body m (some t))) _
    rw [hrest]
    exact .pure _

/-- For a visible method that is what the memory answered with at the start. -/
theorem residueOf_gives {id : MemoId} (h : (owner id).TestedBy env tests) (label : String)
    {m : Method} (hm : m ∈ t.allMethods) :
    Run.Gives (World.Concurs tests owner t w₀)
      (residueOf env id label (owner id) m (some t))
      (w₀.recall tests id (owner id) m (some t)) := by
  intro w hw
  obtain ⟨w', hrun, hw'⟩ := residueOf_recall h id label m (some t) w
  rw [hw id m hm] at hrun
  rcases hw' with rfl | ⟨hmissing, journal, rfl⟩
  · exact ⟨w', hrun, .refl w', hw⟩
  · have hkept : World.Concurs tests owner t w₀ { w with journal } := hw.of_memories rfl
    exact ⟨_, hrun, ⟨_, _, rfl⟩, hkept.remember hm hmissing⟩

/-! ## The library's own -/

section Library

variable {S : World σ → Prop}

theorem resolveIn_gives {e : Expr} (h : e.TestedBy env tests) (m : Method) (t : TypeDesc) :
    Run.Gives S (e.resolveIn env m t) (e.resolvePure tests.method m t) := by
  rw [e.resolveIn_eq h]
  exact .pure _

variable {views : Routine → Stance} {p : Pointcut}
  (h : p.TestedBy env tests owner)
include h

/-- What a pointcut of the library says of a class. -/
theorem TestedBy.matchesClass_gives (t : TypeDesc) :
    Run.Gives S (p.matchesClass env t) ((p.stance tests views w₀).passes t) := by
  cases p with
  | user label body => exact h.elim
  | _ => exact .pure _

variable {m : Method} {t : Option TypeDesc}
  (hmemo : ∀ id label, (owner id).TestedBy env tests →
    Run.Gives S (residueOf env id label (owner id) m t) (w₀.recall tests id (owner id) m t))
include hmemo

/-- What it says of a method, where memories answer what they answer in the world. -/
theorem TestedBy.matchesMethod_gives :
    Run.Gives S (p.matchesMethod env m t).run ((p.stance tests views w₀).verdict m t) := by
  cases p with
  | all => exact .pure _
  | expr e =>
    refine .ofRun (resolveIn_gives h m _) ?_
    dsimp only [stance]
    cases e.resolvePure tests.method m (t.getD m.declaring) with
    | ok r => exact .pure _
    | error f => exact .pure _
  | memo id e source =>
    obtain ⟨rfl, htested⟩ := h
    exact .ofRun (hmemo id _ htested) (.pure _)
  | residue r => exact .pure _
  | user label body => exact h.elim

/-- And what it leaves of itself for the method. -/
theorem TestedBy.residueFor_gives :
    Run.Gives S (p.residueFor env m t) ((p.stance tests views w₀).rest m t) := by
  cases p with
  | all => exact .pure _
  | expr e =>
    refine .bind (resolveIn_gives h m _) ?_
    dsimp only [stance]
    cases e.resolvePure tests.method m (t.getD m.declaring) with
    | ok r => exact .pure _
    | error f => exact .pure _
  | memo id e source =>
    obtain ⟨rfl, htested⟩ := h
    exact .bind (hmemo id _ htested) (.pure _)
  | residue r => exact .pure _
  | user label body => exact h.elim

end Library

/-- A pure pointcut takes its stance. -/
theorem Pure.takes {views : Routine → Stance} {p : Pointcut}
    (h : p.Pure env tests views owner t w₀) :
    p.Takes env (World.Concurs tests owner t w₀) t (p.stance tests views w₀) := by
  -- for a pointcut of the user purity is taking the stance, for all others being tested
  have htested {p : Pointcut} (h : p.TestedBy env tests owner) :
      p.Takes env (World.Concurs tests owner t w₀) t (p.stance tests views w₀) :=
    ⟨h.matchesClass_gives t,
      fun _ hm => h.matchesMethod_gives fun _ label ho => residueOf_gives ho label hm,
      fun _ hm => h.residueFor_gives fun _ label ho => residueOf_gives ho label hm⟩
  cases p with
  | user label body => exact h
  | all => exact htested h
  | expr e => exact htested h
  | memo id e source => exact htested h
  | residue r => exact htested h

end Pointcut

end Aspects
