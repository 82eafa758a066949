import Aspects.Engine
import Aspects.Proofs.Selecting.Resolution

/-!
# What a residue says

What is left of an expression is worth as much as the expression itself. It lets the same
calls pass as the plain two-valued evaluation of the tree of the expression over what its
leaves leave (`Expr.Unfolds`), where an operand that was skipped may be anything; its verdict
at a connective is the one that the connective makes of the verdicts of the operands; and
either it is a single constant, or it holds none at all, so that it answers `maybe` only
where a test of the arguments is left that a leaf has left (`residue_faithful`).

All of it rests on what folding makes of two residues, which is one of four things
(`Residue.meet_cases`, `Residue.join_cases`), and on the ways in which leaves fold
(`Expr.Folds`).
-/

namespace Aspects

variable {σ : Type} {env : Env σ} {m : Method} {t : TypeDesc} {w w' : World σ}

/-! ## Folding two residues -/

namespace Residue

/-- The residues that connectives put together. -/
def leaves : Residue → List Residue
  | and a b => a.leaves ++ b.leaves
  | or a b => a.leaves ++ b.leaves
  | not a => a.leaves
  | r => [r]

/-- The residue is a single test of the arguments. -/
def isTest : Residue → Bool
  | args _ => true
  | argsMatching _ => true
  | _ => false

/-- A single constant, or connectives over tests of the arguments alone. -/
def Folded (r : Residue) : Prop :=
  (∃ b, r = const b) ∨ ∀ l ∈ r.leaves, l.isTest = true

variable {a b l : Residue}

/-- A constant decides, or adds nothing, or there is none. -/
theorem meet_cases (a b : Residue) :
    (a = const false ∨ b = const false) ∧ a.meet b = const false ∨
    a = const true ∧ a.meet b = b ∨
    b = const true ∧ a.meet b = a ∨
    (a.verdict = .maybe ∧ b.verdict = .maybe) ∧ a.meet b = and a b := by
  cases a with
  | const x =>
    cases x with
    | true => cases b with
      | const y => cases y <;> simp [meet]
      | _ => simp [meet]
    | false => simp [meet]
  | _ => cases b with
    | const y => cases y <;> simp [meet]
    | _ => simp [meet, verdict]

theorem join_cases (a b : Residue) :
    (a = const true ∨ b = const true) ∧ a.join b = const true ∨
    a = const false ∧ a.join b = b ∨
    b = const false ∧ a.join b = a ∨
    (a.verdict = .maybe ∧ b.verdict = .maybe) ∧ a.join b = or a b := by
  cases a with
  | const x =>
    cases x with
    | false => cases b with
      | const y => cases y <;> simp [join]
      | _ => simp [join]
    | true => simp [join]
  | _ => cases b with
    | const y => cases y <;> simp [join]
    | _ => simp [join, verdict]

theorem negate_cases (a : Residue) :
    (∃ b, a = const b ∧ a.negate = const !b) ∨ a.verdict = .maybe ∧ a.negate = not a := by
  cases a with
  | const b => exact .inl ⟨b, rfl, rfl⟩
  | _ => exact .inr ⟨rfl, rfl⟩

/-! ### Verdicts -/

theorem verdict_meet (a b : Residue) : (a.meet b).verdict = a.verdict.and b.verdict := by
  rcases meet_cases a b with ⟨rfl | rfl, h⟩ | ⟨rfl, h⟩ | ⟨rfl, h⟩ | ⟨⟨ha, hb⟩, h⟩
  · rw [h]
    rfl
  · rw [h]
    cases a.verdict <;> rfl
  · rw [h]
    cases b.verdict <;> rfl
  · rw [h]
    cases a.verdict <;> rfl
  · rw [h, ha, hb]
    rfl

theorem verdict_join (a b : Residue) : (a.join b).verdict = a.verdict.or b.verdict := by
  rcases join_cases a b with ⟨rfl | rfl, h⟩ | ⟨rfl, h⟩ | ⟨rfl, h⟩ | ⟨⟨ha, hb⟩, h⟩
  · rw [h]
    rfl
  · rw [h]
    cases a.verdict <;> rfl
  · rw [h]
    cases b.verdict <;> rfl
  · rw [h]
    cases a.verdict <;> rfl
  · rw [h, ha, hb]
    rfl

theorem verdict_negate (a : Residue) : a.negate.verdict = a.verdict.negate := by
  rcases negate_cases a with ⟨b, rfl, h⟩ | ⟨ha, h⟩
  · rw [h]
    cases b <;> rfl
  · rw [h, ha]
    rfl

/-! ### Values -/

theorem holds_const (tests : Tests) (m : Method) (args : List Value) (b : Bool) :
    (const b).holds tests m args = b := rfl

theorem holds_meet (tests : Tests) (m : Method) (args : List Value) (a b : Residue) :
    (a.meet b).holds tests m args = (a.holds tests m args && b.holds tests m args) := by
  rcases meet_cases a b with ⟨rfl | rfl, h⟩ | ⟨rfl, h⟩ | ⟨rfl, h⟩ | ⟨_, h⟩
  · rw [h, holds_const, Bool.false_and]
  · rw [h, holds_const, Bool.and_false]
  · rw [h, holds_const, Bool.true_and]
  · rw [h, holds_const, Bool.and_true]
  · rw [h, holds_and]

theorem holds_join (tests : Tests) (m : Method) (args : List Value) (a b : Residue) :
    (a.join b).holds tests m args = (a.holds tests m args || b.holds tests m args) := by
  rcases join_cases a b with ⟨rfl | rfl, h⟩ | ⟨rfl, h⟩ | ⟨rfl, h⟩ | ⟨_, h⟩
  · rw [h, holds_const, Bool.true_or]
  · rw [h, holds_const, Bool.or_true]
  · rw [h, holds_const, Bool.false_or]
  · rw [h, holds_const, Bool.or_false]
  · rw [h, holds_or]

theorem holds_negate (tests : Tests) (m : Method) (args : List Value) (a : Residue) :
    a.negate.holds tests m args = !a.holds tests m args := by
  rcases negate_cases a with ⟨b, rfl, h⟩ | ⟨_, h⟩
  · rw [h, holds_const, holds_const]
  · rw [h]
    rfl

/-! ### The normal form -/

theorem Folded.isTest_of_maybe (h : a.Folded) (ha : a.verdict = .maybe) :
    ∀ l ∈ a.leaves, l.isTest = true := by
  rcases h with ⟨b, rfl⟩ | h
  · cases b <;> cases ha
  · exact h

theorem Folded.meet (ha : a.Folded) (hb : b.Folded) : (a.meet b).Folded := by
  rcases meet_cases a b with ⟨_, h⟩ | ⟨_, h⟩ | ⟨_, h⟩ | ⟨⟨hma, hmb⟩, h⟩
  · exact .inl ⟨false, h⟩
  · rwa [h]
  · rwa [h]
  · rw [h]
    refine .inr fun l hl => ?_
    rcases List.mem_append.mp hl with hl | hl
    · exact ha.isTest_of_maybe hma l hl
    · exact hb.isTest_of_maybe hmb l hl

theorem Folded.join (ha : a.Folded) (hb : b.Folded) : (a.join b).Folded := by
  rcases join_cases a b with ⟨_, h⟩ | ⟨_, h⟩ | ⟨_, h⟩ | ⟨⟨hma, hmb⟩, h⟩
  · exact .inl ⟨true, h⟩
  · rwa [h]
  · rwa [h]
  · rw [h]
    refine .inr fun l hl => ?_
    rcases List.mem_append.mp hl with hl | hl
    · exact ha.isTest_of_maybe hma l hl
    · exact hb.isTest_of_maybe hmb l hl

theorem Folded.negate (ha : a.Folded) : a.negate.Folded := by
  rcases negate_cases a with ⟨b, _, h⟩ | ⟨hma, h⟩
  · exact .inl ⟨!b, h⟩
  · rw [h]
    exact .inr (ha.isTest_of_maybe hma)

theorem not_isTest_of_mem_leaves_const {x : Bool} (h : l ∈ (const x).leaves) :
    l.isTest = false := by
  rw [List.mem_singleton.mp h]
  rfl

/-- The tests in what was folded together stood in the operands. -/
theorem mem_leaves_of_meet (hl : l ∈ (a.meet b).leaves) (htest : l.isTest = true) :
    l ∈ a.leaves ∨ l ∈ b.leaves := by
  rcases meet_cases a b with ⟨_, h⟩ | ⟨_, h⟩ | ⟨_, h⟩ | ⟨_, h⟩
  · rw [h] at hl
    rw [not_isTest_of_mem_leaves_const hl] at htest
    cases htest
  · exact .inr (h ▸ hl)
  · exact .inl (h ▸ hl)
  · rw [h] at hl
    exact List.mem_append.mp hl

theorem mem_leaves_of_join (hl : l ∈ (a.join b).leaves) (htest : l.isTest = true) :
    l ∈ a.leaves ∨ l ∈ b.leaves := by
  rcases join_cases a b with ⟨_, h⟩ | ⟨_, h⟩ | ⟨_, h⟩ | ⟨_, h⟩
  · rw [h] at hl
    rw [not_isTest_of_mem_leaves_const hl] at htest
    cases htest
  · exact .inr (h ▸ hl)
  · exact .inl (h ▸ hl)
  · rw [h] at hl
    exact List.mem_append.mp hl

theorem mem_leaves_of_negate (hl : l ∈ a.negate.leaves) (htest : l.isTest = true) :
    l ∈ a.leaves := by
  rcases negate_cases a with ⟨b, _, h⟩ | ⟨_, h⟩
  · rw [h] at hl
    rw [not_isTest_of_mem_leaves_const hl] at htest
    cases htest
  · rw [h] at hl
    exact hl

theorem leaves_of_isTest {r : Residue} (h : r.isTest = true) : r.leaves = [r] := by
  cases r with
  | args ts => rfl
  | argsMatching test => rfl
  | _ => cases h

theorem leaves_ne_nil (r : Residue) : r.leaves ≠ [] := by
  induction r with
  | and a b iha _ => exact fun h => iha (List.append_eq_nil_iff.mp h).1
  | or a b iha _ => exact fun h => iha (List.append_eq_nil_iff.mp h).1
  | not a iha => exact iha
  | _ => exact List.cons_ne_nil _ _

end Residue

/-! ## Expressions -/

namespace Expr

/-- The expressions that connectives put together. -/
def leaves : Expr → List Expr
  | and a b => a.leaves ++ b.leaves
  | or a b => a.leaves ++ b.leaves
  | not a => a.leaves
  | e => [e]

/-- From one world the expression unfolds and leads to another world: it is the tree of its
connectives over what its leaves leave, one after the other, with anything in the place of
an operand that is skipped. -/
inductive Unfolds (env : Env σ) (m : Method) (t : TypeDesc) :
    Expr → World σ → Residue → World σ → Prop
  | leaf {e : Expr} {w w' : World σ} {r : Residue} (he : e.isLeaf = true)
    (hr : e.resolveIn env m t w = some (.ok r, w')) : Unfolds env m t e w r w'
  | andSkipped {a b : Expr} {w w' : World σ} {u : Residue} (v : Residue)
    (hskip : a.resolveIn env m t w = some (.ok (.const false), w'))
    (ha : Unfolds env m t a w u w') : Unfolds env m t (and a b) w (.and u v) w'
  | and {a b : Expr} {w w₁ w' : World σ} {left u v : Residue}
    (hleft : a.resolveIn env m t w = some (.ok left, w₁)) (hgo : left ≠ .const false)
    (ha : Unfolds env m t a w u w₁) (hb : Unfolds env m t b w₁ v w') :
    Unfolds env m t (and a b) w (.and u v) w'
  | orSkipped {a b : Expr} {w w' : World σ} {u : Residue} (v : Residue)
    (hskip : a.resolveIn env m t w = some (.ok (.const true), w'))
    (ha : Unfolds env m t a w u w') : Unfolds env m t (or a b) w (.or u v) w'
  | or {a b : Expr} {w w₁ w' : World σ} {left u v : Residue}
    (hleft : a.resolveIn env m t w = some (.ok left, w₁)) (hgo : left ≠ .const true)
    (ha : Unfolds env m t a w u w₁) (hb : Unfolds env m t b w₁ v w') :
    Unfolds env m t (or a b) w (.or u v) w'
  | not {a : Expr} {w w' : World σ} {u : Residue} (ha : Unfolds env m t a w u w') :
    Unfolds env m t (not a) w (.not u) w'

/-- From one world the expression resolves, with the verdict, and leads to another world. -/
def Judged (env : Env σ) (m : Method) (t : TypeDesc) (e : Expr) (w : World σ) (v : Verdict)
    (w' : World σ) : Prop :=
  ∃ r, e.resolveIn env m t w = some (.ok r, w') ∧ r.verdict = v

/-! ### Values -/

theorem exists_unfolds {e : Expr} {r : Residue}
    (h : e.resolveIn env m t w = some (.ok r, w')) : ∃ u, e.Unfolds env m t w u w' := by
  induction e generalizing w w' r with
  | and a b iha ihb =>
    rcases resolveIn_and h with ⟨hskip, _⟩ | ⟨left, w₁, right, hleft, hgo, hright, _⟩
    · obtain ⟨u, hu⟩ := iha hskip
      exact ⟨.and u (.const false), .andSkipped _ hskip hu⟩
    · obtain ⟨u, hu⟩ := iha hleft
      obtain ⟨v, hv⟩ := ihb hright
      exact ⟨.and u v, .and hleft hgo hu hv⟩
  | or a b iha ihb =>
    rcases resolveIn_or h with ⟨hskip, _⟩ | ⟨left, w₁, right, hleft, hgo, hright, _⟩
    · obtain ⟨u, hu⟩ := iha hskip
      exact ⟨.or u (.const true), .orSkipped _ hskip hu⟩
    · obtain ⟨u, hu⟩ := iha hleft
      obtain ⟨v, hv⟩ := ihb hright
      exact ⟨.or u v, .or hleft hgo hu hv⟩
  | not a iha =>
    obtain ⟨inner, hinner, _⟩ := resolveIn_not h
    obtain ⟨u, hu⟩ := iha hinner
    exact ⟨.not u, .not hu⟩
  | _ => exact ⟨r, .leaf rfl h⟩

/-- However an expression unfolds, it has the value of what it resolves to, by any tests of
the arguments. -/
theorem Unfolds.holds_eq {e : Expr} {u r : Residue} {w₁ : World σ}
    (hu : e.Unfolds env m t w u w₁) (h : e.resolveIn env m t w = some (.ok r, w'))
    (tests : Tests) (args : List Value) : u.holds tests m args = r.holds tests m args := by
  induction hu generalizing r w' with
  | leaf _ hr =>
    cases hr.symm.trans h
    rfl
  | andSkipped v hskip _ iha =>
    have hvalue := iha hskip
    rcases resolveIn_and h with ⟨_, rfl⟩ | ⟨left, w₁, right, hleft, hgo, _⟩
    · rw [Residue.holds_and, hvalue, Residue.holds_const, Bool.false_and]
    · cases hskip.symm.trans hleft
      exact absurd rfl hgo
  | and hleft hgo _ _ iha ihb =>
    rcases resolveIn_and h with ⟨hskip, _⟩ | ⟨left, w₁, right, hleft', _, hright, rfl⟩
    · cases hleft.symm.trans hskip
      exact absurd rfl hgo
    · cases hleft.symm.trans hleft'
      rw [Residue.holds_and, Residue.holds_meet, iha hleft, ihb hright]
  | orSkipped v hskip _ iha =>
    have hvalue := iha hskip
    rcases resolveIn_or h with ⟨_, rfl⟩ | ⟨left, w₁, right, hleft, hgo, _⟩
    · rw [Residue.holds_or, hvalue, Residue.holds_const, Bool.true_or]
    · cases hskip.symm.trans hleft
      exact absurd rfl hgo
  | or hleft hgo _ _ iha ihb =>
    rcases resolveIn_or h with ⟨hskip, _⟩ | ⟨left, w₁, right, hleft', _, hright, rfl⟩
    · cases hleft.symm.trans hskip
      exact absurd rfl hgo
    · cases hleft.symm.trans hleft'
      rw [Residue.holds_or, Residue.holds_join, iha hleft, ihb hright]
  | @not a w w' u _ iha =>
    obtain ⟨inner, hinner, rfl⟩ := resolveIn_not h
    have hnot : (Residue.not u).holds tests m args = !u.holds tests m args := rfl
    rw [hnot, Residue.holds_negate, iha hinner]

/-! ### The normal form -/

/-- A leaf leaves a constant or a test of the arguments. -/
theorem MayLeave.const_or_test {l : Expr} {r : Residue} (hr : l.MayLeave m t r)
    (hl : l.isLeaf = true) : (∃ b, r = .const b) ∨ r.isTest = true := by
  obtain ⟨ask, hr⟩ := hr
  cases l with
  | args wanted =>
    cases hr
    unfold argsResidue
    split
    · exact .inl ⟨true, rfl⟩
    · exact .inl ⟨false, rfl⟩
    · exact .inr rfl
  | argsMatching test =>
    cases hr
    exact .inr rfl
  | custom test =>
    rw [resolvePure_custom] at hr
    split at hr
    · cases hr
      exact .inl ⟨_, rfl⟩
    · cases hr
  | and a b => cases hl
  | or a b => cases hl
  | not a => cases hl
  | _ =>
    cases hr
    exact .inl ⟨_, rfl⟩

theorem Folds.folded {e : Expr} {r : Residue} (hr : e.Folds (MayLeave m t) r) : r.Folded := by
  induction hr with
  | leaf hl hr =>
    rcases hr.const_or_test hl with hconst | htest
    · exact .inl hconst
    · refine .inr fun s hs => ?_
      rw [Residue.leaves_of_isTest htest, List.mem_singleton] at hs
      rwa [hs]
  | andSkipped _ _ => exact .inl ⟨false, rfl⟩
  | and _ _ iha ihb => exact iha.meet ihb
  | orSkipped _ _ => exact .inl ⟨true, rfl⟩
  | or _ _ iha ihb => exact iha.join ihb
  | not _ iha => exact iha.negate

theorem leaves_of_isLeaf {e : Expr} (h : e.isLeaf = true) : e.leaves = [e] := by
  cases e with
  | and a b => cases h
  | or a b => cases h
  | not a => cases h
  | _ => rfl

/-- A test of the arguments that is left has been left by a leaf. -/
theorem Folds.exists_leaf {e : Expr} {r l : Residue} (hr : e.Folds (Leaves env m t) r)
    (hl : l ∈ r.leaves) (htest : l.isTest = true) : ∃ x ∈ e.leaves, x.Leaves env m t l := by
  induction hr with
  | @leaf x s hx hs =>
    rw [leaves_of_isLeaf hx]
    refine ⟨x, List.mem_singleton_self x, ?_⟩
    rcases (hs.mayLeave hx).const_or_test hx with ⟨b, rfl⟩ | htest'
    · rw [Residue.not_isTest_of_mem_leaves_const hl] at htest
      cases htest
    · rw [Residue.leaves_of_isTest htest', List.mem_singleton] at hl
      rwa [hl]
  | andSkipped _ _ =>
    rw [Residue.not_isTest_of_mem_leaves_const hl] at htest
    cases htest
  | and _ _ iha ihb =>
    rcases Residue.mem_leaves_of_meet hl htest with hl | hl
    · obtain ⟨x, hx, hleft⟩ := iha hl
      exact ⟨x, List.mem_append_left _ hx, hleft⟩
    · obtain ⟨x, hx, hleft⟩ := ihb hl
      exact ⟨x, List.mem_append_right _ hx, hleft⟩
  | orSkipped _ _ =>
    rw [Residue.not_isTest_of_mem_leaves_const hl] at htest
    cases htest
  | or _ _ iha ihb =>
    rcases Residue.mem_leaves_of_join hl htest with hl | hl
    · obtain ⟨x, hx, hleft⟩ := iha hl
      exact ⟨x, List.mem_append_left _ hx, hleft⟩
    · obtain ⟨x, hx, hleft⟩ := ihb hl
      exact ⟨x, List.mem_append_right _ hx, hleft⟩
  | not _ iha => exact iha (Residue.mem_leaves_of_negate hl htest)

/-! ### Verdicts -/

section Judged

variable {a b : Expr} {x y : Verdict} {w₁ w₂ : World σ}

theorem Judged.and (ha : a.Judged env m t w x w₁) (hb : b.Judged env m t w₁ y w₂) :
    ∃ w', (and a b).Judged env m t w (x.and y) w' := by
  obtain ⟨l, hl, rfl⟩ := ha
  obtain ⟨r, hr, rfl⟩ := hb
  have hrun := run_bind_of_ok hl fun left => do
    if left.isConst false then pure left
    else return left.meet (← b.resolve (fun r m t => env.run (env.code.methodTest r m t)) m t)
  by_cases hfalse : l.isConst false = true
  · rw [if_pos hfalse] at hrun
    cases Residue.eq_const_of_isConst hfalse
    exact ⟨w₁, .const false, hrun, rfl⟩
  · rw [if_neg hfalse] at hrun
    have hrest := run_bind_of_ok hr fun right => pure (l.meet right)
    exact ⟨w₂, l.meet r, hrun.trans hrest, Residue.verdict_meet l r⟩

theorem Judged.or (ha : a.Judged env m t w x w₁) (hb : b.Judged env m t w₁ y w₂) :
    ∃ w', (or a b).Judged env m t w (x.or y) w' := by
  obtain ⟨l, hl, rfl⟩ := ha
  obtain ⟨r, hr, rfl⟩ := hb
  have hrun := run_bind_of_ok hl fun left => do
    if left.isConst true then pure left
    else return left.join (← b.resolve (fun r m t => env.run (env.code.methodTest r m t)) m t)
  by_cases htrue : l.isConst true = true
  · rw [if_pos htrue] at hrun
    cases Residue.eq_const_of_isConst htrue
    exact ⟨w₁, .const true, hrun, rfl⟩
  · rw [if_neg htrue] at hrun
    have hrest := run_bind_of_ok hr fun right => pure (l.join right)
    exact ⟨w₂, l.join r, hrun.trans hrest, Residue.verdict_join l r⟩

theorem Judged.not (ha : a.Judged env m t w x w₁) :
    (not a).Judged env m t w x.negate w₁ := by
  obtain ⟨r, hr, rfl⟩ := ha
  have hrun := run_bind_of_ok hr fun r => pure r.negate
  exact ⟨r.negate, hrun, Residue.verdict_negate r⟩

end Judged

end Expr

/-! ## The result -/

/-- An expression that resolves, whatever user tests do there, unfolds; and however it does,
the calls that pass what it resolves to are those for which the plain value of the tree is
`true`, tests of arguments being functions. It resolves to a constant or to something that
holds none, and where that answers `maybe` it has a test of the arguments that a leaf of the
expression has left. Where operands resolve, one after the other, the connective resolves,
with the verdict that it makes of theirs. -/
theorem residue_faithful {e : Expr} {r : Residue}
    (hr : e.resolveIn env m t w = some (.ok r, w')) :
    ((∃ u, e.Unfolds env m t w u w') ∧
      ∀ u w₁, e.Unfolds env m t w u w₁ → ∀ tests args,
        u.holds tests m args = r.holds tests m args ∧
        (r.TestedBy env tests → r.passesIn env m args = pure (u.holds tests m args))) ∧
    ((∃ b, r = .const b) ∨ ∀ l ∈ r.leaves, l.isTest = true) ∧
    (r.verdict = .maybe →
      ∃ l ∈ r.leaves, l.isTest = true ∧ ∃ x ∈ e.leaves, x.Leaves env m t l) ∧
    (∀ a b x y w w₁ w₂, a.Judged env m t w x w₁ → b.Judged env m t w₁ y w₂ →
      (∃ w', (Expr.and a b).Judged env m t w (x.and y) w') ∧
        ∃ w', (Expr.or a b).Judged env m t w (x.or y) w') ∧
    ∀ a x w w₁, a.Judged env m t w x w₁ → (Expr.not a).Judged env m t w x.negate w₁ := by
  have hfolds := Expr.folds_of_resolveIn hr
  have hfolded := (hfolds.mono fun _ _ hl hleaf => hleaf.mayLeave hl).folded
  refine ⟨⟨Expr.exists_unfolds hr, fun u w₁ hu tests args => ?_⟩, hfolded, fun hmaybe => ?_,
    fun a b x y w w₁ w₂ ha hb => ⟨ha.and hb, ha.or hb⟩, fun a x w w₁ ha => ha.not⟩
  · have hvalue := hu.holds_eq hr tests args
    exact ⟨hvalue, fun h => by rw [Residue.passesIn_eq h, hvalue]⟩
  · obtain ⟨l, hl⟩ := List.exists_mem_of_ne_nil _ r.leaves_ne_nil
    have htest := hfolded.isTest_of_maybe hmaybe l hl
    exact ⟨l, hl, htest, hfolds.exists_leaf hl htest⟩

/-- User code with a test that some arguments pass, and a test of methods that is refused. -/
def refusing : Code Unit :=
  { Code.idle with
    argumentTest := fun _ args => pure (!args.isEmpty)
    methodTest := fun _ _ _ => pure (.error "refused") }

/-- Calls without arguments; the second operand is met by no call, and the test behind its
negation is skipped. -/
def unlessArguments : Expr :=
  .or (.not (.argsMatching ⟨0⟩)) (.and (.not .all) (.custom ⟨1⟩))

/-- Only the negated test of the arguments is left, which is what the tree is worth with
anything in the place of the skipped operand. -/
theorem residue_faithful_skipping :
    unlessArguments.resolveIn (Engine.env refusing 0) default default { user := () }
      = some (.ok (.not (.argsMatching ⟨0⟩)), { user := () }) ∧
    (∀ v, unlessArguments.Unfolds (Engine.env refusing 0) default default { user := () }
      (.or (.not (.argsMatching ⟨0⟩)) (.and (.not (.const true)) v)) { user := () }) ∧
    (Residue.not (.argsMatching ⟨0⟩)).passesIn (Engine.env refusing 0) default []
      = pure true ∧
    (Residue.not (.argsMatching ⟨0⟩)).passesIn (Engine.env refusing 0) default [none]
      = pure false ∧
    ∃ x ∈ unlessArguments.leaves,
      x.Leaves (Engine.env refusing 0) default default (.argsMatching ⟨0⟩) := by
  have hr : unlessArguments.resolveIn (Engine.env refusing 0) default default { user := () }
      = some (.ok (.not (.argsMatching ⟨0⟩)), { user := () }) := rfl
  have hunfolds (v : Residue) :
      unlessArguments.Unfolds (Engine.env refusing 0) default default { user := () }
        (.or (.not (.argsMatching ⟨0⟩)) (.and (.not (.const true)) v)) { user := () } := by
    have hleft : (Expr.not (.argsMatching ⟨0⟩)).resolveIn (Engine.env refusing 0) default
      default { user := () } = some (.ok (.not (.argsMatching ⟨0⟩)), { user := () }) := rfl
    refine .or hleft nofun (.not (.leaf rfl rfl)) ?_
    exact .andSkipped v rfl (.not (.leaf rfl rfl))
  let tests : Tests := ⟨fun _ _ _ => .error "refused", fun _ args => !args.isEmpty⟩
  obtain ⟨⟨_, hvalue⟩, _, hmaybe, _⟩ := residue_faithful hr
  have hpasses (args : List Value) := (hvalue _ _ (hunfolds (.const true)) tests args).2
    fun _ => rfl
  obtain ⟨l, hl, htest, x, hx, hleft⟩ := hmaybe rfl
  cases List.mem_singleton.mp hl
  exact ⟨hr, hunfolds, hpasses [], hpasses [none], x, hx, hleft⟩

end Aspects
