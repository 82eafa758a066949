import Aspects.Proofs.Selecting.Folding

/-!
# Resolving with tests that are functions

A test of user code is pure in an environment if running it answers and does nothing
else. `Tests` are such tests as functions, and `TestedBy` says of an expression or a
residue that the tests in it are those. Resolving such an expression and passing
arguments to such a residue are then functions as well (`Expr.resolveIn_eq`,
`Residue.passesIn_eq`).

Its leaves fold to what an expression resolves to here as they do in a run
(`Expr.folds_of_resolvePure`), so that of the filter on classes nothing has to be shown
again.
-/

namespace Aspects

variable {σ : Type}

/-- Tests of user code as plain functions. -/
structure Tests where
  method : Routine → Method → TypeDesc → Except String Bool
  arguments : Routine → List Value → Bool

/-- The tests in the expression, run in the environment, are these functions. -/
def Expr.TestedBy (env : Env σ) (tests : Tests) : Expr → Prop
  | argsMatching r =>
    ∀ args, env.run (env.code.argumentTest r args) = pure (tests.arguments r args)
  | custom r => ∀ m t, env.run (env.code.methodTest r m t) = pure (tests.method r m t)
  | and a b => a.TestedBy env tests ∧ b.TestedBy env tests
  | or a b => a.TestedBy env tests ∧ b.TestedBy env tests
  | not a => a.TestedBy env tests
  | _ => True

/-- The tests in the residue, run in the environment, are these functions. -/
def Residue.TestedBy (env : Env σ) (tests : Tests) : Residue → Prop
  | argsMatching r =>
    ∀ args, env.run (env.code.argumentTest r args) = pure (tests.arguments r args)
  | and a b => a.TestedBy env tests ∧ b.TestedBy env tests
  | or a b => a.TestedBy env tests ∧ b.TestedBy env tests
  | not a => a.TestedBy env tests
  | _ => True

/-! ## Residues -/

namespace Residue

/-- Do the arguments pass, by these tests? -/
def holds (tests : Tests) (m : Method) (args : List Value) (r : Residue) : Bool :=
  (r.passes (fun test vs => (pure (tests.arguments test vs) : Id Bool)) m args).run

@[simp]
theorem holds_and (tests : Tests) (m : Method) (args : List Value) (a b : Residue) :
    (and a b).holds tests m args = (a.holds tests m args && b.holds tests m args) := by
  show (if a.holds tests m args then b.holds tests m args else false) = _
  cases a.holds tests m args with
  | true => rfl
  | false => rfl

@[simp]
theorem holds_or (tests : Tests) (m : Method) (args : List Value) (a b : Residue) :
    (or a b).holds tests m args = (a.holds tests m args || b.holds tests m args) := by
  show (if a.holds tests m args then true else b.holds tests m args) = _
  cases a.holds tests m args with
  | true => rfl
  | false => rfl

theorem passesIn_eq {env : Env σ} {tests : Tests} {r : Residue} (h : r.TestedBy env tests)
    (m : Method) (args : List Value) : r.passesIn env m args = pure (r.holds tests m args) := by
  unfold passesIn
  induction r with
  | const b => rfl
  | args ts => rfl
  | argsMatching test => exact h args
  | and a b iha ihb =>
    rw [passes, iha h.1, pure_bind, ihb h.2, holds_and]
    cases a.holds tests m args with
    | true => rfl
    | false => rfl
  | or a b iha ihb =>
    rw [passes, iha h.1, pure_bind, ihb h.2, holds_or]
    cases a.holds tests m args with
    | true => rfl
    | false => rfl
  | not a iha =>
    rw [passes, iha h, pure_bind]
    rfl

/-- Only a constant is settled before the arguments are known. -/
theorem eq_const_of_verdict {r : Residue} {b : Bool} (h : r.verdict = .ofBool b) :
    r = .const b := by
  cases r with
  | const c => cases b <;> cases c <;> first | rfl | cases h
  | _ => cases b <;> cases h

/-! What is folded is tested as its operands are. -/

variable {env : Env σ} {tests : Tests}

theorem TestedBy.meet {a b : Residue} (ha : a.TestedBy env tests) (hb : b.TestedBy env tests) :
    (a.meet b).TestedBy env tests := by
  unfold Residue.meet
  split
  · exact trivial
  · exact trivial
  · exact hb
  · exact ha
  · exact ⟨ha, hb⟩

theorem TestedBy.join {a b : Residue} (ha : a.TestedBy env tests) (hb : b.TestedBy env tests) :
    (a.join b).TestedBy env tests := by
  unfold Residue.join
  split
  · exact trivial
  · exact trivial
  · exact hb
  · exact ha
  · exact ⟨ha, hb⟩

theorem TestedBy.negate {a : Residue} (ha : a.TestedBy env tests) :
    a.negate.TestedBy env tests := by
  unfold Residue.negate
  split
  · exact trivial
  · exact ha

end Residue

/-! ## Expressions -/

/-- Without effects a run that may fail is its outcome. -/
theorem run_bind_id {ε α β : Type} (x : ExceptT ε Id α) (k : α → ExceptT ε Id β) :
    (x >>= k).run = (do (k (← (x.run : Except ε α))).run : Except ε β) := by
  cases x with
  | error e => rfl
  | ok a => rfl

theorem ok_of_bind {ε α β : Type} {x : Except ε α} {k : α → Except ε β} {b : β}
    (h : (x >>= k) = .ok b) : ∃ a, x = .ok a ∧ k a = .ok b := by
  cases x with
  | error e => cases h
  | ok a => exact ⟨a, rfl, h⟩

namespace Expr

section Equations

variable (ask : Routine → Method → TypeDesc → Except String Bool) (m : Method) (t : TypeDesc)

theorem resolvePure_custom (test : Routine) :
    (custom test).resolvePure ask m t
      = match ask test m t with
        | .ok b => .ok (.const b)
        | .error text => .error (.pointcutEvaluation text) := by
  unfold resolvePure resolve
  cases ask test m t with
  | ok b => rfl
  | error text => rfl

theorem resolvePure_and (a b : Expr) :
    (and a b).resolvePure ask m t = (do
      let left ← a.resolvePure ask m t
      if left.isConst false then pure left
      else return left.meet (← b.resolvePure ask m t)) := by
  unfold resolvePure
  rw [resolve, run_bind_id]
  refine bind_congr fun left => ?_
  split
  · rfl
  · exact run_bind_id _ _

theorem resolvePure_or (a b : Expr) :
    (or a b).resolvePure ask m t = (do
      let left ← a.resolvePure ask m t
      if left.isConst true then pure left
      else return left.join (← b.resolvePure ask m t)) := by
  unfold resolvePure
  rw [resolve, run_bind_id]
  refine bind_congr fun left => ?_
  split
  · rfl
  · exact run_bind_id _ _

theorem resolvePure_not (a : Expr) :
    (not a).resolvePure ask m t = (do return (← a.resolvePure ask m t).negate) :=
  run_bind_id _ _

variable {ask m t}

/-- A conjunction that resolves has resolved its second operand unless the first is never
met. -/
theorem of_resolvePure_and {a b : Expr} {r : Residue}
    (h : (and a b).resolvePure ask m t = .ok r) :
    ∃ left, a.resolvePure ask m t = .ok left ∧
      (left.isConst false = true ∧ r = left ∨
        ∃ right, b.resolvePure ask m t = .ok right ∧ r = left.meet right) := by
  rw [resolvePure_and] at h
  obtain ⟨left, hleft, hrest⟩ := ok_of_bind h
  refine ⟨left, hleft, ?_⟩
  split at hrest
  · next hfalse =>
    cases hrest
    exact .inl ⟨hfalse, rfl⟩
  · obtain ⟨right, hright, hk⟩ := ok_of_bind hrest
    cases hk
    exact .inr ⟨right, hright, rfl⟩

/-- A disjunction that resolves has resolved its second operand unless the first is always
met. -/
theorem of_resolvePure_or {a b : Expr} {r : Residue}
    (h : (or a b).resolvePure ask m t = .ok r) :
    ∃ left, a.resolvePure ask m t = .ok left ∧
      (left.isConst true = true ∧ r = left ∨
        ∃ right, b.resolvePure ask m t = .ok right ∧ r = left.join right) := by
  rw [resolvePure_or] at h
  obtain ⟨left, hleft, hrest⟩ := ok_of_bind h
  refine ⟨left, hleft, ?_⟩
  split at hrest
  · next htrue =>
    cases hrest
    exact .inl ⟨htrue, rfl⟩
  · obtain ⟨right, hright, hk⟩ := ok_of_bind hrest
    cases hk
    exact .inr ⟨right, hright, rfl⟩

theorem of_resolvePure_not {a : Expr} {r : Residue}
    (h : (not a).resolvePure ask m t = .ok r) :
    ∃ inner, a.resolvePure ask m t = .ok inner ∧ r = inner.negate := by
  rw [resolvePure_not] at h
  obtain ⟨inner, hinner, hk⟩ := ok_of_bind h
  cases hk
  exact ⟨inner, hinner, rfl⟩

end Equations

/-! ### Folding -/

section Folding

variable {ask : Routine → Method → TypeDesc → Except String Bool} {m : Method} {t : TypeDesc}

/-- What an expression resolves to, its leaves fold to. -/
theorem folds_of_resolvePure {e : Expr} {r : Residue} (h : e.resolvePure ask m t = .ok r) :
    e.Folds (fun l s => l.resolvePure ask m t = .ok s) r := by
  induction e generalizing r with
  | and a b iha ihb =>
    obtain ⟨left, hleft, hrest⟩ := of_resolvePure_and h
    rcases hrest with ⟨hfalse, rfl⟩ | ⟨right, hright, rfl⟩
    · cases Residue.eq_const_of_isConst hfalse
      exact .andSkipped (iha hleft)
    · exact .and (iha hleft) (ihb hright)
  | or a b iha ihb =>
    obtain ⟨left, hleft, hrest⟩ := of_resolvePure_or h
    rcases hrest with ⟨htrue, rfl⟩ | ⟨right, hright, rfl⟩
    · cases Residue.eq_const_of_isConst htrue
      exact .orSkipped (iha hleft)
    · exact .or (iha hleft) (ihb hright)
  | not a iha =>
    obtain ⟨inner, hinner, rfl⟩ := of_resolvePure_not h
    exact .not (iha hinner)
  | _ => exact .leaf rfl h

/-- What the filter on classes keeps out is matched by no call. -/
theorem residue_of_filtered {e : Expr} (h : e.matchesType t = false) {r : Residue}
    (hr : e.resolvePure ask m t = .ok r) : r = .const false :=
  ((folds_of_resolvePure hr).mono fun _ _ _ hleaf => ⟨ask, hleaf⟩).of_filtered h

end Folding

section Tested

variable {env : Env σ} {tests : Tests} {m : Method} {t : TypeDesc} {e : Expr}

/-- An operand that is behind another one and was not skipped. -/
theorem run_combine {x : ExceptT Fault (Run σ) Residue} {o : Except Fault Residue}
    (h : x.run = pure o) (f : Residue → Residue) :
    (do return f (← x) : ExceptT Fault (Run σ) Residue).run
      = pure (do return f (← o) : Except Fault Residue) := by
  rw [ExceptT.run_bind, h, pure_bind]
  cases o with
  | error fault => rfl
  | ok r => rfl

theorem resolveIn_eq (h : e.TestedBy env tests) (m : Method) (t : TypeDesc) :
    e.resolveIn env m t = pure (e.resolvePure tests.method m t) := by
  unfold resolveIn
  induction e with
  | custom test =>
    rw [resolve, resolvePure_custom]
    show (ExceptT.lift (env.run (env.code.methodTest test m t)) >>= _).run = _
    rw [h m t]
    cases tests.method test m t with
    | ok b => rfl
    | error text => rfl
  | and a b iha ihb =>
    rw [resolve, ExceptT.run_bind, iha h.1, pure_bind, resolvePure_and]
    cases a.resolvePure tests.method m t with
    | error fault => rfl
    | ok left =>
      show (if left.isConst false then pure left else _ : ExceptT Fault (Run σ) Residue).run
        = pure (if left.isConst false then _ else _)
      split
      · rfl
      · exact run_combine (ihb h.2) _
  | or a b iha ihb =>
    rw [resolve, ExceptT.run_bind, iha h.1, pure_bind, resolvePure_or]
    cases a.resolvePure tests.method m t with
    | error fault => rfl
    | ok left =>
      show (if left.isConst true then pure left else _ : ExceptT Fault (Run σ) Residue).run
        = pure (if left.isConst true then _ else _)
      split
      · rfl
      · exact run_combine (ihb h.2) _
  | not a iha =>
    rw [resolve, resolvePure_not]
    exact run_combine (iha h) _
  | _ => rfl

/-- A residue has no tests but those of its expression. -/
theorem TestedBy.residue (h : e.TestedBy env tests) {r : Residue}
    (hr : e.resolvePure tests.method m t = .ok r) : r.TestedBy env tests := by
  induction e generalizing r with
  | argsMatching test =>
    cases hr
    exact h
  | args wanted =>
    cases hr
    unfold argsResidue
    split
    · exact trivial
    · exact trivial
    · exact trivial
  | custom test =>
    rw [resolvePure_custom] at hr
    cases hanswer : tests.method test m t with
    | ok b =>
      rw [hanswer] at hr
      cases hr
      exact trivial
    | error text =>
      rw [hanswer] at hr
      cases hr
  | and a b iha ihb =>
    obtain ⟨left, hleft, hrest⟩ := of_resolvePure_and hr
    rcases hrest with ⟨_, rfl⟩ | ⟨right, hright, rfl⟩
    · exact iha h.1 hleft
    · exact (iha h.1 hleft).meet (ihb h.2 hright)
  | or a b iha ihb =>
    obtain ⟨left, hleft, hrest⟩ := of_resolvePure_or hr
    rcases hrest with ⟨_, rfl⟩ | ⟨right, hright, rfl⟩
    · exact iha h.1 hleft
    · exact (iha h.1 hleft).join (ihb h.2 hright)
  | not a iha =>
    obtain ⟨inner, hinner, rfl⟩ := of_resolvePure_not hr
    exact (iha h hinner).negate
  | _ =>
    cases hr
    exact trivial

end Tested

end Expr

end Aspects
