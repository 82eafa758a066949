import Aspects.Proofs.Selecting.Resolution

/-!
# Asking pointcuts whose memories are right

A pointcut with a memory answers from it what it has worked out before. Its memory is
right if everything in it is the residue that the rule gives for a question that was
asked (`RightFor`); `World.Recalls` says so of all memories, of which each serves one
expression. It is enough that questions which compare equal are the same question
(`Questions.Distinct`): then what is remembered is what would be worked out
(`Pointcut.residueOf_rule`), and after every answer the memories are still right.

The four questions to a pointcut of the library come down to one thing, the residue that
it leaves for a method and a target type (`Pointcut.left?`). To answer them nothing in
the world changes but memories and the journal (`World.Ponders`).
-/

namespace Aspects

variable {σ : Type} {env : Env σ} {tests : Tests} {w w₁ w₂ : World σ}

/-! ## The rule -/

/-- The method as the target type, where that is known, carries it out. -/
def Method.shapeFor (m : Method) : Option TypeDesc → Method
  | some t => t.mostSpecificMethod m
  | none => m

/-- The residue that a pointcut with a memory works out, tests being functions. -/
def Expr.shapeResidue (tests : Tests) (e : Expr) (m : Method) (t : Option TypeDesc) :
    Residue :=
  match e.resolvePure tests.method (m.shapeFor t) (t.getD m.declaring) with
  | .ok r => r
  | .error _ =>
    if (m.shapeFor t).same m then .const false
    else
      match e.resolvePure tests.method m (t.getD m.declaring) with
      | .ok r => r
      | .error _ => .const false

/-- It is what some shape of the method resolves to at the target type, or no match. -/
theorem Expr.shapeResidue_cases (tests : Tests) (e : Expr) (m : Method) (t : Option TypeDesc) :
    e.shapeResidue tests m t = .const false ∨
      ∃ shape, e.resolvePure tests.method shape (t.getD m.declaring)
        = .ok (e.shapeResidue tests m t) := by
  unfold Expr.shapeResidue
  cases hshape : e.resolvePure tests.method (m.shapeFor t) (t.getD m.declaring) with
  | ok r => exact .inr ⟨_, hshape⟩
  | error _ =>
    dsimp only
    split
    · exact .inl rfl
    · cases hasked : e.resolvePure tests.method m (t.getD m.declaring) with
      | ok r => exact .inr ⟨_, hasked⟩
      | error _ => exact .inl rfl

theorem Expr.TestedBy.shapeResidue {e : Expr} (h : e.TestedBy env tests) (m : Method)
    (t : Option TypeDesc) : (e.shapeResidue tests m t).TestedBy env tests := by
  rcases e.shapeResidue_cases tests m t with hfalse | ⟨shape, hr⟩
  · rw [hfalse]
    exact trivial
  · exact h.residue hr

/-- What the filter on classes keeps out is matched by no call. -/
theorem Expr.shapeResidue_of_filtered {e : Expr} {m : Method} {t : Option TypeDesc}
    (h : e.matchesType (t.getD m.declaring) = false) :
    e.shapeResidue tests m t = .const false := by
  rcases e.shapeResidue_cases tests m t with hfalse | ⟨shape, hr⟩
  · exact hfalse
  · exact residue_of_filtered h hr

/-! ## Pondering -/

/-- Memories and the journal apart, the worlds are the same. -/
def World.Ponders (w w' : World σ) : Prop :=
  ∃ memories journal, w' = { w with memories, journal }

namespace World.Ponders

theorem refl (w : World σ) : w.Ponders w :=
  ⟨w.memories, w.journal, rfl⟩

theorem trans (h : w.Ponders w₁) (h' : w₁.Ponders w₂) : w.Ponders w₂ := by
  obtain ⟨memories, journal, rfl⟩ := h
  obtain ⟨memories', journal', rfl⟩ := h'
  exact ⟨memories', journal', rfl⟩

theorem adapterList_eq (h : w.Ponders w₁) (id : AdaptersId) :
    w₁.adapterList id = w.adapterList id := by
  obtain ⟨memories, journal, rfl⟩ := h
  rfl

end World.Ponders

theorem Pointcut.resolveShape_eq (env : Env σ) (label : String) (e : Expr) (m : Method)
    (t : Option TypeDesc) :
    resolveShape env label e m t = (do
      match ← e.resolveIn env (m.shapeFor t) (t.getD m.declaring) with
      | .ok r => return r
      | .error f =>
        if (m.shapeFor t).same m then
          emit .warn "Pointcut evaluation failed, treating method as non-matching"
            [("pointcut", label), ("method", m.display), ("error", f.message)]
          return .const false
        else
          emit .debug
            ("Pointcut evaluation failed for target method shape, retrying with original " ++
              "method")
            [("pointcut", label), ("method", (m.shapeFor t).display), ("error", f.message)]
          resolveAsked env label e m (t.getD m.declaring)) := by
  cases t with
  | none => rfl
  | some t => rfl

/-- Working a residue out by the rule gives what it gives for functions, and writes
messages. -/
theorem resolveShape_run {e : Expr} (h : e.TestedBy env tests) (label : String) (m : Method)
    (t : Option TypeDesc) (w : World σ) :
    ∃ journal, Pointcut.resolveShape env label e m t w
      = some (e.shapeResidue tests m t, { w with journal }) := by
  have hasked : ∀ w : World σ, ∃ journal,
      Pointcut.resolveAsked env label e m (t.getD m.declaring) w
        = some (match e.resolvePure tests.method m (t.getD m.declaring) with
            | .ok r => r
            | .error _ => .const false, { w with journal }) := by
    intro w
    unfold Pointcut.resolveAsked
    rw [e.resolveIn_eq h, pure_bind]
    cases e.resolvePure tests.method m (t.getD m.declaring) with
    | ok r => exact ⟨_, rfl⟩
    | error fault => exact ⟨_, rfl⟩
  rw [Pointcut.resolveShape_eq, e.resolveIn_eq h, pure_bind]
  unfold Expr.shapeResidue
  cases e.resolvePure tests.method (m.shapeFor t) (t.getD m.declaring) with
  | ok r => exact ⟨_, rfl⟩
  | error fault =>
    dsimp only
    split
    · exact ⟨_, rfl⟩
    · -- a message, and the method as it was asked about
      obtain ⟨journal, hjournal⟩ := hasked _
      exact ⟨journal, hjournal⟩

/-! ## Memories -/

/-- The residue that the memory answers with: the one that it holds, or the one that would
be worked out. -/
def World.recall (w : World σ) (tests : Tests) (id : MemoId) (e : Expr) (m : Method)
    (t : Option TypeDesc) : Residue :=
  match (w.memory id).find? (·.isFor m t) with
  | some old => old.residue
  | none => e.shapeResidue tests m t

/-- Questions that are asked: methods with target types, where these are known. -/
abbrev Questions := Method → Option TypeDesc → Prop

/-- Questions that compare equal are the same question. -/
def Questions.Distinct (asked : Questions) : Prop :=
  ∀ m t m' t', asked m t → asked m' t' → m'.same m = true → sameTarget t' t = true →
    m' = m ∧ t' = t

/-- Everything in the memory was worked out, by the rule and for the expression, when one of
the questions was asked. -/
def RightFor (tests : Tests) (asked : Questions) (e : Expr) (memory : List Remembered) : Prop :=
  ∀ r ∈ memory, ∃ m t, asked m t ∧ r = ⟨m.key, m.declaring, t, e.shapeResidue tests m t⟩

namespace RightFor

variable {asked : Questions} {e : Expr} {memory : List Remembered} {m : Method}
  {t : Option TypeDesc}

theorem empty : RightFor tests asked e [] := nofun

/-- A memory that is right answers with the residue that the rule gives. -/
theorem recall_eq {id : MemoId} (h : RightFor tests asked e (w.memory id))
    (hdistinct : asked.Distinct) (hm : asked m t) :
    w.recall tests id e m t = e.shapeResidue tests m t := by
  unfold World.recall
  cases hfound : (w.memory id).find? fun r => r.isFor m t with
  | none => rfl
  | some old =>
    have hfor : old.isFor m t = true := by simpa using List.find?_some hfound
    obtain ⟨m', t', hasked, rfl⟩ := h old (List.mem_of_find?_eq_some hfound)
    obtain ⟨hmethod, htarget⟩ := Bool.and_eq_true_iff.mp hfor
    obtain ⟨rfl, rfl⟩ := hdistinct m t m' t' hm hasked hmethod htarget
    rfl

/-- That residue may be remembered. -/
theorem remember (h : RightFor tests asked e memory) (hm : asked m t) :
    RightFor tests asked e (Pointcut.remember memory m t (e.shapeResidue tests m t)) := by
  intro r hr
  rcases List.mem_cons.mp hr with rfl | hr
  · exact ⟨m, t, hm, rfl⟩
  · exact h r hr

end RightFor

/-- Everything in a memory was worked out, by the rule and for the expression that the
memory serves, when one of the questions was asked. -/
def World.Recalls (w : World σ) (tests : Tests) (asked : Questions) (owner : MemoId → Expr) :
    Prop :=
  ∀ id, ∀ r ∈ w.memory id, ∃ m t, asked m t ∧
    r = ⟨m.key, m.declaring, t, (owner id).shapeResidue tests m t⟩

namespace World.Recalls

variable {asked : Questions} {owner : MemoId → Expr}

theorem of_memories (h : w.Recalls tests asked owner) (hsame : w₁.memories = w.memories) :
    w₁.Recalls tests asked owner := by
  unfold World.Recalls World.memory
  rw [hsame]
  exact h

theorem initial (s : σ) : World.Recalls { user := s } tests asked owner := by
  intro id r hr
  simp [World.memory] at hr

/-- A pointcut with an empty memory. -/
theorem newMemo (h : w.Recalls tests asked owner) {e : Expr} {source : Option String}
    {p : Pointcut} (hp : Pointcut.newMemo e source w = some (p, w₁)) :
    w₁.Recalls tests asked owner := by
  cases hp
  intro id r hr
  unfold World.memory at hr
  rw [Array.getElem?_push] at hr
  split at hr
  · cases hr
  · exact h id r hr

end World.Recalls

theorem run_get {α : Type} (k : World σ → Run σ α) (w : World σ) :
    ((get : Run σ (World σ)) >>= k) w = k w w := rfl

theorem Pointcut.residueOf_found {id : MemoId} {m : Method} {t : Option TypeDesc}
    {old : Remembered} (h : (w.memory id).find? (fun r => r.isFor m t) = some old)
    (label : String) (e : Expr) :
    residueOf env id label e m t w = some (old.residue, w) := by
  unfold residueOf
  rw [run_get]
  simp only [h]
  rfl

theorem Pointcut.residueOf_missing {id : MemoId} {m : Method} {t : Option TypeDesc}
    (h : (w.memory id).find? (fun r => r.isFor m t) = none) (label : String) (e : Expr) :
    residueOf env id label e m t w
      = (resolveShape env label e m t w).map fun (r, w₁) =>
          (r, w₁.setMemory id (remember (w₁.memory id) m t r)) := by
  unfold residueOf
  rw [run_get]
  simp only [h]
  show (resolveShape env label e m t w).bind _ = _
  cases resolveShape env label e m t w with
  | none => rfl
  | some x => rfl

/-- A pointcut with a memory answers with what its memory answers with. It remembers what
was missing there. -/
theorem Pointcut.residueOf_recall {e : Expr} (h : e.TestedBy env tests) (id : MemoId)
    (label : String) (m : Method) (t : Option TypeDesc) (w : World σ) :
    ∃ w', residueOf env id label e m t w = some (w.recall tests id e m t, w') ∧
      (w' = w ∨ (w.memory id).find? (·.isFor m t) = none ∧ ∃ journal,
        w' = World.setMemory { w with journal } id
          (remember (w.memory id) m t (e.shapeResidue tests m t))) := by
  unfold World.recall
  cases hfound : (w.memory id).find? fun r => r.isFor m t with
  | some old => exact ⟨w, residueOf_found hfound _ _, .inl rfl⟩
  | none =>
    obtain ⟨journal, hjournal⟩ := resolveShape_run h label m t w
    refine ⟨_, ?_, .inr ⟨rfl, journal, rfl⟩⟩
    rw [residueOf_missing hfound, hjournal]
    rfl

/-- From a memory that is right the residue is the one that the rule gives. The memory is
still right then, and the others are as they were. -/
theorem Pointcut.residueOf_rule {asked : Questions} {e : Expr} {m : Method}
    {t : Option TypeDesc} {id : MemoId} (h : RightFor tests asked e (w.memory id))
    (hdistinct : asked.Distinct) (hm : asked m t) (htested : e.TestedBy env tests)
    (label : String) :
    ∃ w₁, residueOf env id label e m t w = some (e.shapeResidue tests m t, w₁) ∧
      w.Ponders w₁ ∧ RightFor tests asked e (w₁.memory id) ∧
      ∀ j, j ≠ id → w₁.memory j = w.memory j := by
  obtain ⟨w₁, hrun, hw₁⟩ := residueOf_recall htested id label m t w
  rw [h.recall_eq hdistinct hm] at hrun
  refine ⟨w₁, hrun, ?_⟩
  rcases hw₁ with rfl | ⟨_, journal, rfl⟩
  · exact ⟨.refl w₁, h, fun _ _ => rfl⟩
  · refine ⟨⟨_, _, rfl⟩, ?_, fun j hj => ?_⟩
    · rw [World.memory_setMemory]
      split
      · exact h.remember hm
      · exact h
    · rw [World.memory_setMemory, if_neg fun hboth => hj hboth.1]
      rfl

/-! ## Answers -/

/-- From every world whose memories are right the run has an answer, of the sort; to find
it nothing but memories and the journal changes, and the memories are still right. -/
def Run.Answers (tests : Tests) (asked : Questions) (owner : MemoId → Expr) {α : Type}
    (r : Run σ α) (Q : α → Prop) : Prop :=
  ∀ w, w.Recalls tests asked owner → ∃ a w₁, r w = some (a, w₁) ∧ w.Ponders w₁ ∧
    w₁.Recalls tests asked owner ∧ Q a

namespace Run.Answers

variable {α β : Type} {asked : Questions} {owner : MemoId → Expr} {Q : α → Prop}
  {R : β → Prop}

theorem pure {a : α} (h : Q a) : Answers tests asked owner (Pure.pure a : Run σ α) Q :=
  fun w hw => ⟨a, w, rfl, .refl w, hw, h⟩

theorem bind {r : Run σ α} {k : α → Run σ β} (hr : Answers tests asked owner r Q)
    (hk : ∀ a, Q a → Answers tests asked owner (k a) R) :
    Answers tests asked owner (r >>= k) R := by
  intro w hw
  obtain ⟨a, w₁, hrun, hponders, hw₁, ha⟩ := hr w hw
  obtain ⟨b, w₂, hrun', hponders', hw₂, hb⟩ := hk a ha w₁ hw₁
  exact ⟨b, w₂, (run_bind_of_some hrun k).trans hrun', hponders.trans hponders', hw₂, hb⟩

/-- In an act that may fail, a run that cannot. -/
theorem ofRun {r : Run σ α} {k : α → Act σ β} {R : Outcome β → Prop}
    (hr : Answers tests asked owner r Q)
    (hk : ∀ a, Q a → Answers tests asked owner (k a).run R) :
    Answers tests asked owner (Act.ofRun r >>= k).run R := by
  have hrun : (Act.ofRun r >>= k).run = r >>= fun a => (k a).run :=
    funext fun _ => Act.run_ofRun r k _
  rw [hrun]
  exact hr.bind hk

theorem emit (level : Level) (message : String) (fields : List (String × String)) :
    Answers tests asked owner (Aspects.emit level message fields : Run σ Unit) fun _ => True :=
  fun _ hw => ⟨(), _, rfl, ⟨_, _, rfl⟩, hw.of_memories rfl, trivial⟩

end Run.Answers

/-- From a world whose memories are right the run, if it has an answer, leads to another
one. -/
def Run.Keeps (tests : Tests) (asked : Questions) (owner : MemoId → Expr) {α : Type}
    (r : Run σ α) : Prop :=
  ∀ w a w₁, w.Recalls tests asked owner → r w = some (a, w₁) → w₁.Recalls tests asked owner

theorem Run.Answers.keeps {α : Type} {asked : Questions} {owner : MemoId → Expr} {r : Run σ α}
    {Q : α → Prop} (h : Run.Answers tests asked owner r Q) : Run.Keeps tests asked owner r := by
  intro w a w₁ hw hrun
  obtain ⟨a', w₁', hrun', _, hw₁', _⟩ := h w hw
  rw [hrun] at hrun'
  cases hrun'
  exact hw₁'

namespace Run.Keeps

variable {α β : Type} {asked : Questions} {owner : MemoId → Expr}

theorem pure (a : α) : Keeps tests asked owner (Pure.pure a : Run σ α) := by
  intro w b w₁ hw h
  cases h
  exact hw

theorem bind {r : Run σ α} {k : α → Run σ β} (hr : Keeps tests asked owner r)
    (hk : ∀ a, Keeps tests asked owner (k a)) : Keeps tests asked owner (r >>= k) := by
  intro w b w₂ hw h
  obtain ⟨⟨a, w₁⟩, hrun, hrest⟩ := Option.bind_eq_some_iff.mp h
  exact hk a w₁ b w₂ (hr w a w₁ hw hrun) hrest

theorem andThen {a : Act σ α} {k : α → Act σ β} (ha : Keeps tests asked owner a.run)
    (hk : ∀ x, Keeps tests asked owner (k x).run) :
    Keeps tests asked owner (a >>= k).run := by
  rw [ExceptT.run_bind]
  refine bind ha fun o => ?_
  cases o with
  | ok x => exact hk x
  | error e => exact pure _

theorem ofRun {r : Run σ α} (hr : Keeps tests asked owner r) :
    Keeps tests asked owner (Act.ofRun r).run :=
  bind hr fun _ => pure _

theorem emit (level : Level) (message : String) (fields : List (String × String)) :
    Keeps tests asked owner (Aspects.emit level message fields : Run σ Unit) :=
  (Run.Answers.emit level message fields).keeps

theorem branch (c : Prop) [Decidable c] {r r' : Run σ α} (h : Keeps tests asked owner r)
    (h' : Keeps tests asked owner r') :
    Keeps tests asked owner (if c then r else r') := by
  split
  · exact h
  · exact h'

theorem of_memories {r : Run σ α}
    (hr : ∀ w a w₁, r w = some (a, w₁) → w₁.memories = w.memories) :
    Keeps tests asked owner r :=
  fun w a w₁ hw h => hw.of_memories (hr w a w₁ h)

end Run.Keeps

section Questions

variable {asked : Questions} {owner : MemoId → Expr} {m : Method} {t : Option TypeDesc}
  {p : Pointcut}

/-- From memory or worked out, the residue is the one that the rule gives. -/
theorem residueOf_answers (hdistinct : asked.Distinct) (hm : asked m t) {id : MemoId}
    (htested : (owner id).TestedBy env tests) (label : String) :
    Run.Answers tests asked owner (Pointcut.residueOf env id label (owner id) m t)
      (· = (owner id).shapeResidue tests m t) := by
  intro w hw
  obtain ⟨w₁, hrun, hponders, hright, hothers⟩ :=
    Pointcut.residueOf_rule (hw id) hdistinct hm htested label
  refine ⟨_, w₁, hrun, hponders, fun j => ?_, rfl⟩
  by_cases hj : j = id
  · rw [hj]
    exact hright
  · rw [hothers j hj]
    exact hw j

namespace Pointcut

/-- The pointcut is one of the library's, the tests in it are these functions, and its
memory serves its expression. -/
def TestedBy (env : Env σ) (tests : Tests) (owner : MemoId → Expr) : Pointcut → Prop
  | all => True
  | expr e => e.TestedBy env tests
  | memo id e _ => owner id = e ∧ e.TestedBy env tests
  | residue r => r.TestedBy env tests
  | user .. => False

/-- The residue that a pointcut of the library leaves for a method and a target type,
unless it cannot be resolved. -/
def left? (tests : Tests) (m : Method) (t : Option TypeDesc) : Pointcut → Option Residue
  | all => some (.const true)
  | expr e => (e.resolvePure tests.method m (t.getD m.declaring)).toOption
  | memo _ e _ => some (e.shapeResidue tests m t)
  | residue r => some r
  | user .. => none

/-- Does a pointcut of the library match the call? -/
def holds (tests : Tests) (m : Method) (t : Option TypeDesc) (args : List Value)
    (p : Pointcut) : Bool :=
  (p.left? tests m t).any (·.holds tests m args)

theorem left?_expr (tests : Tests) (m : Method) (t : Option TypeDesc) (e : Expr) :
    (expr e).left? tests m t
      = (e.resolvePure tests.method m (t.getD m.declaring)).toOption := rfl

theorem resolved_of_left? {e : Expr} {r : Residue} (h : (expr e).left? tests m t = some r) :
    e.resolvePure tests.method m (t.getD m.declaring) = .ok r := by
  rw [left?_expr] at h
  cases hr : e.resolvePure tests.method m (t.getD m.declaring) with
  | ok r' =>
    rw [hr] at h
    cases h
    rfl
  | error f =>
    rw [hr] at h
    cases h

theorem matchesClass_answers (h : p.TestedBy env tests owner) :
    Run.Answers tests asked owner (p.matchesClass env (t.getD m.declaring)) fun passed =>
      passed = false → ∀ r ∈ p.left? tests m t, r = .const false := by
  cases p with
  | all => exact .pure fun hf => nomatch hf
  | expr e =>
    refine .pure fun hf r hr => ?_
    exact e.residue_of_filtered hf (resolved_of_left? hr)
  | memo id e source =>
    refine .pure fun hf r hr => ?_
    cases hr
    exact e.shapeResidue_of_filtered hf
  | residue r => exact .pure fun hf => nomatch hf
  | user label body => exact h.elim

/-- Resolving an expression needs no memory. -/
theorem resolveIn_answers {e : Expr} (h : e.TestedBy env tests) (m : Method) (t : TypeDesc) :
    Run.Answers tests asked owner (e.resolveIn env m t) (· = e.resolvePure tests.method m t) := by
  rw [e.resolveIn_eq h]
  exact .pure rfl

theorem passesIn_answers {r : Residue} (h : r.TestedBy env tests) (m : Method)
    (args : List Value) :
    Run.Answers tests asked owner (r.passesIn env m args) (· = r.holds tests m args) := by
  rw [r.passesIn_eq h]
  exact .pure rfl

theorem matchesMethod_answers (hdistinct : asked.Distinct) (hm : asked m t)
    (h : p.TestedBy env tests owner) :
    Run.Answers tests asked owner (p.matchesMethod env m t).run fun o =>
      match p.left? tests m t with
      | some r => o = .ok r.verdict
      | none => ∃ e, o = .error e := by
  cases p with
  | all => exact .pure rfl
  | expr e =>
    refine .ofRun (resolveIn_answers h m _) fun o ho => ?_
    subst ho
    rw [left?_expr]
    cases e.resolvePure tests.method m (t.getD m.declaring) with
    | ok r => exact .pure rfl
    | error f => exact .pure ⟨_, rfl⟩
  | memo id e source =>
    obtain ⟨rfl, htested⟩ := h
    refine .ofRun (residueOf_answers hdistinct hm htested _) fun r hr => ?_
    subst hr
    exact .pure rfl
  | residue r => exact .pure rfl
  | user label body => exact h.elim

theorem matchesRuntime_answers (hdistinct : asked.Distinct) (hm : asked m t)
    (h : p.TestedBy env tests owner) (args : List Value) :
    Run.Answers tests asked owner (p.matchesRuntime env m t args)
      (· = p.holds tests m t args) := by
  cases p with
  | all => exact .pure rfl
  | expr e =>
    refine .bind (resolveIn_answers h m _) fun o ho => ?_
    unfold holds
    rw [left?_expr]
    cases hr : e.resolvePure tests.method m (t.getD m.declaring) with
    | ok r =>
      rw [hr] at ho
      subst ho
      exact passesIn_answers (h.residue hr) m args
    | error f =>
      rw [hr] at ho
      subst ho
      exact .bind (.emit _ _ _) fun _ _ => .pure rfl
  | memo id e source =>
    obtain ⟨rfl, htested⟩ := h
    refine .bind (residueOf_answers hdistinct hm htested _) fun r hr => ?_
    subst hr
    exact passesIn_answers (htested.shapeResidue m t) m args
  | residue r => exact passesIn_answers h m args
  | user label body => exact h.elim

/-- What is left of a pointcut, or the pointcut itself where nothing simpler is, accepts
the arguments that the residue accepts, and asking it changes nothing. -/
theorem residueFor_answers (hdistinct : asked.Distinct) (hm : asked m t)
    (h : p.TestedBy env tests owner) :
    Run.Answers tests asked owner (p.residueFor env m t) fun rest =>
      ∀ r ∈ p.left? tests m t, ∀ args,
        (rest.getD p).matchesRuntime env m t args = pure (r.holds tests m args) := by
  cases p with
  | all =>
    refine .pure fun r hr args => ?_
    cases hr
    rfl
  | expr e =>
    refine .bind (resolveIn_answers h m _) fun o ho => ?_
    subst ho
    cases hresolved : e.resolvePure tests.method m (t.getD m.declaring) with
    | ok r =>
      refine .pure fun r' hr' args => ?_
      rw [resolved_of_left? hr'] at hresolved
      cases hresolved
      exact r.passesIn_eq (h.residue (resolved_of_left? hr')) m args
    | error f =>
      refine .pure fun r' hr' => ?_
      rw [resolved_of_left? hr'] at hresolved
      cases hresolved
  | memo id e source =>
    obtain ⟨rfl, htested⟩ := h
    refine .bind (residueOf_answers hdistinct hm htested _) fun r hr => ?_
    subst hr
    refine .pure fun r' hr' args => ?_
    cases hr'
    exact Residue.passesIn_eq (htested.shapeResidue m t) m args
  | residue r =>
    refine .pure fun r' hr' args => ?_
    cases hr'
    exact r.passesIn_eq h m args
  | user label body => exact h.elim

/-- Asking about the method leaves the memories right. A pointcut of the user may be
trusted to do so as well. -/
structure Keeps (env : Env σ) (tests : Tests) (asked : Questions) (owner : MemoId → Expr)
    (m : Method) (t : Option TypeDesc) (p : Pointcut) : Prop where
  matchesClass : Run.Keeps tests asked owner (p.matchesClass env (t.getD m.declaring))
  matchesMethod : Run.Keeps tests asked owner (p.matchesMethod env m t).run
  residueFor : Run.Keeps tests asked owner (p.residueFor env m t)

theorem TestedBy.keeps (hdistinct : asked.Distinct) (hm : asked m t)
    (h : p.TestedBy env tests owner) : p.Keeps env tests asked owner m t where
  matchesClass := (matchesClass_answers h).keeps
  matchesMethod := (matchesMethod_answers hdistinct hm h).keeps
  residueFor := (residueFor_answers hdistinct hm h).keeps

end Pointcut

end Questions

end Aspects
