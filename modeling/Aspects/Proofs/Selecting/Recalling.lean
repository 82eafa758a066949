import Aspects.Engine
import Aspects.Proofs.Selecting.Memories

/-!
# Answers that do not depend on what was asked before

A pointcut with a memory answers three queries from it: the verdict on a method, the match
of a call, and what is left of it for a method. They share what is remembered, and what
could not be resolved is remembered as well, as no match.

None of this shows in the answers. Whatever was asked since the pointcut was made, and
whatever else happened meanwhile, the next query is answered by the rule alone
(`answers_by_rule`), as if there were no memory.
-/

namespace Aspects

variable {σ : Type} {env : Env σ} {tests : Tests} {asked : Questions} {id : MemoId} {e : Expr}
  {source : Option String} {w w₁ w₂ : World σ}

/-! ## The residue decides -/

namespace Pointcut

section Memo

variable {m : Method} {t : Option TypeDesc} {r : Residue}
  (h : residueOf env id (memoLabel e source) e m t w = some (r, w₁))
include h

theorem matchesMethod_memo :
    ((memo id e source).matchesMethod env m t).run w = some (.ok r.verdict, w₁) := by
  rw [matchesMethod, Act.run_ofRun, h]
  rfl

theorem matchesRuntime_memo (args : List Value) :
    (memo id e source).matchesRuntime env m t args w = r.passesIn env m args w₁ :=
  run_bind_of_some h fun r => r.passesIn env m args

theorem residueFor_memo :
    (memo id e source).residueFor env m t w = some (some (residue r), w₁) :=
  run_bind_of_some h fun r => pure (some (residue r))

end Memo

/-- A new pointcut has nothing in its memory. -/
theorem memory_newMemo
    (h : newMemo e source w = some (.memo id e source, w₁)) : w₁.memory id = [] := by
  cases h
  simp [World.memory]

end Pointcut

/-! ## Queries -/

/-- A query that a pointcut answers from its memory, if it has one. -/
inductive Query where
  /-- Is the method matched, as far as can be said without arguments? -/
  | verdict (m : Method) (t : Option TypeDesc)
  /-- Is the call matched? -/
  | call (m : Method) (t : Option TypeDesc) (args : List Value)
  /-- What is left of the pointcut for the method? -/
  | rest (m : Method) (t : Option TypeDesc)

/-- The answer to a query. -/
inductive Reply where
  | verdict (o : Outcome Verdict)
  | matched (b : Bool)
  | rest (p : Option Pointcut)

namespace Query

/-- The method that the query is about. -/
def method : Query → Method
  | verdict m _ | call m _ _ | rest m _ => m

/-- The target type, where it is known. -/
def target : Query → Option TypeDesc
  | verdict _ t | call _ t _ | rest _ t => t

/-- Asks the pointcut. -/
def ask (env : Env σ) (p : Pointcut) : Query → Run σ Reply
  | verdict m t => do return .verdict (← (p.matchesMethod env m t).run)
  | call m t args => do return .matched (← p.matchesRuntime env m t args)
  | rest m t => do return .rest (← p.residueFor env m t)

/-- The answer that the rule gives for an expression. -/
def byRule (tests : Tests) (e : Expr) : Query → Reply
  | verdict m t => .verdict (.ok (e.shapeResidue tests m t).verdict)
  | call m t args => .matched ((e.shapeResidue tests m t).holds tests m args)
  | rest m t => .rest (some (.residue (e.shapeResidue tests m t)))

/-- From a memory that is right a query is answered by the rule, and the memory is still
right. -/
theorem ask_rule {q : Query} (h : RightFor tests asked e (w.memory id))
    (hdistinct : asked.Distinct) (hq : asked q.method q.target)
    (htested : e.TestedBy env tests) (source : Option String) :
    ∃ w₁, q.ask env (.memo id e source) w = some (q.byRule tests e, w₁) ∧
      RightFor tests asked e (w₁.memory id) := by
  obtain ⟨w₁, hrun, _, hright, _⟩ :=
    Pointcut.residueOf_rule h hdistinct hq htested (Pointcut.memoLabel e source)
  refine ⟨w₁, ?_, hright⟩
  cases q with
  | verdict m t =>
    exact run_bind_of_some (Pointcut.matchesMethod_memo hrun) fun o => pure (Reply.verdict o)
  | call m t args =>
    have hcall : Pointcut.matchesRuntime env (.memo id e source) m t args w
        = some ((e.shapeResidue tests m t).holds tests m args, w₁) :=
      (Pointcut.matchesRuntime_memo hrun args).trans
        (congrFun (Residue.passesIn_eq (htested.shapeResidue m t) m args) w₁)
    exact run_bind_of_some hcall fun b => pure (Reply.matched b)
  | rest m t =>
    exact run_bind_of_some (Pointcut.residueFor_memo hrun) fun p => pure (Reply.rest p)

end Query

/-- What happened since a world: the pointcut was asked, and in between there was anything
that leaves its memory alone. The latest query comes first. -/
inductive History (env : Env σ) (asked : Questions) (id : MemoId) (p : Pointcut)
    (w : World σ) : List (Query × Reply) → World σ → Prop where
  | start : History env asked id p w [] w
  | query {past : List (Query × Reply)} {q : Query} {reply : Reply} {w₁ w₂ : World σ} :
    History env asked id p w past w₁ → asked q.method q.target →
    q.ask env p w₁ = some (reply, w₂) → History env asked id p w ((q, reply) :: past) w₂
  | elsewhere {past : List (Query × Reply)} {w₁ w₂ : World σ} :
    History env asked id p w past w₁ → w₂.memory id = w₁.memory id →
    History env asked id p w past w₂

namespace History

variable {past : List (Query × Reply)}

/-- All along a history the memory stays right, and the answers are those of the rule. -/
theorem right (h : History env asked id (.memo id e source) w past w₁)
    (hright : RightFor tests asked e (w.memory id)) (hdistinct : asked.Distinct)
    (htested : e.TestedBy env tests) :
    RightFor tests asked e (w₁.memory id) ∧ ∀ x ∈ past, x.2 = x.1.byRule tests e := by
  induction h with
  | start => exact ⟨hright, fun _ hx => absurd hx List.not_mem_nil⟩
  | query _ hq hask ih =>
    obtain ⟨hbefore, hpast⟩ := ih
    obtain ⟨_, hrule, hafter⟩ := Query.ask_rule hbefore hdistinct hq htested source
    cases hask.symm.trans hrule
    refine ⟨hafter, fun x hx => ?_⟩
    rcases List.mem_cons.mp hx with rfl | hx
    · rfl
    · exact hpast x hx
  | elsewhere _ hsame ih => exact ⟨hsame ▸ ih.1, ih.2⟩

end History

/-- A pointcut was made for an expression whose tests are functions; then it was asked, any
number of queries of any sort, of which those that compare equal are about the same method
and type. All answers are those of the rule, and every further query has an answer, which is
that of the rule again. -/
theorem answers_by_rule (hnew : Pointcut.newMemo e source w = some (.memo id e source, w₁))
    (htested : e.TestedBy env tests) (hdistinct : asked.Distinct)
    {past : List (Query × Reply)} (h : History env asked id (.memo id e source) w₁ past w₂) :
    (∀ x ∈ past, x.2 = x.1.byRule tests e) ∧
    ∀ q : Query, asked q.method q.target →
      ∃ w₃, q.ask env (.memo id e source) w₂ = some (q.byRule tests e, w₃) := by
  have hstart : RightFor tests asked e (w₁.memory id) := by
    rw [Pointcut.memory_newMemo hnew]
    exact .empty
  obtain ⟨hright, hpast⟩ := h.right hstart hdistinct htested
  refine ⟨hpast, fun q hq => ?_⟩
  obtain ⟨w₃, hask, _⟩ := Query.ask_rule hright hdistinct hq htested source
  exact ⟨w₃, hask⟩

/-! ## A shape that is refused -/

/-- An interface with one method. -/
def directory : TypeDesc :=
  .named "Directory" .interfaceKind none [] [⟨"find", [], .void, none⟩]

/-- A class that carries the method out. -/
def memoryDirectory : TypeDesc :=
  .named "MemoryDirectory" .classKind none [directory] [⟨"find", [], .void, some (.raw ⟨0⟩)⟩]

/-- A test that knows what to say of methods of interfaces, and of no others. -/
def interfaceTest (m : Method) : Except String Bool :=
  if m.declaring.isInterface then .ok true else .error "cannot resolve implementation shape"

def Code.interfaceMinded : Code Unit :=
  { Code.idle with methodTest := fun _ m _ => pure (interfaceTest m) }

/-- The test refuses the method of the class and accepts the one of the interface, which was
asked about. The match of a call is then known from memory. -/
theorem memoryDirectory_remembered :
    ∃ w₂ w₃ : World Unit,
      Query.ask (Engine.env Code.interfaceMinded 0) (.memo ⟨0⟩ (.custom ⟨0⟩) none)
        (.verdict ⟨directory, "find", [], .void⟩ (some memoryDirectory))
        { user := (), memories := #[[]] } = some (.verdict (.ok .always), w₂) ∧
      Query.ask (Engine.env Code.interfaceMinded 0) (.memo ⟨0⟩ (.custom ⟨0⟩) none)
        (.call ⟨directory, "find", [], .void⟩ (some memoryDirectory) []) w₂
        = some (.matched true, w₃) := by
  let asked : Questions := fun m t =>
    m = ⟨directory, "find", [], .void⟩ ∧ t = some memoryDirectory
  let tests : Tests := ⟨fun _ m _ => interfaceTest m, fun _ _ => true⟩
  have hnew : Pointcut.newMemo (.custom ⟨0⟩) none { user := () }
      = some (.memo ⟨0⟩ (.custom ⟨0⟩) none, { user := (), memories := #[[]] }) := rfl
  have htested : Expr.TestedBy (Engine.env Code.interfaceMinded 0) tests (.custom ⟨0⟩) :=
    fun _ _ => rfl
  have hdistinct : asked.Distinct := by
    rintro m t m' t' ⟨rfl, rfl⟩ ⟨rfl, rfl⟩ _ _
    exact ⟨rfl, rfl⟩
  have hresidue : (Expr.custom ⟨0⟩).shapeResidue tests ⟨directory, "find", [], .void⟩
      (some memoryDirectory) = .const true := rfl
  obtain ⟨w₂, hfirst⟩ := (answers_by_rule hnew htested hdistinct .start).2
    (.verdict ⟨directory, "find", [], .void⟩ (some memoryDirectory)) ⟨rfl, rfl⟩
  obtain ⟨w₃, hsecond⟩ :=
    (answers_by_rule hnew htested hdistinct (.query .start ⟨rfl, rfl⟩ hfirst)).2
      (.call ⟨directory, "find", [], .void⟩ (some memoryDirectory) []) ⟨rfl, rfl⟩
  simp only [Query.byRule, hresidue] at hfirst hsecond
  exact ⟨w₂, w₃, hfirst, hsecond⟩

end Aspects
