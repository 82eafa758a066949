import Aspects.Pointcut.Ask

/-!
# Resolving as folding

An expression is resolved leaf by leaf, and what the leaves leave is folded together at the
connectives; an operand behind one that decides is not looked at. `Expr.Folds` is this apart
from what user tests do on the way: whatever an expression resolves to in a run, its leaves
fold to that (`folds_of_resolveIn`). So what holds of all residues is shown by an induction
over the ways of folding, one case a connective and a skip, and of what a leaf may leave.

The filter on classes is treated so. It lets pass every type for which the expression may
resolve to something other than no match, because it asks below a negation only where
everything is about types, and of such an expression it is the whole truth
(`class_filter_hides_nothing`).
-/

namespace Aspects

variable {σ : Type} {m : Method} {t : TypeDesc} {w w' : World σ}

namespace Residue

theorem eq_const_of_isConst {r : Residue} {b : Bool} (h : r.isConst b = true) :
    r = .const b := by
  cases r with
  | const c => rw [beq_iff_eq.mp h]
  | _ => cases h

theorem meet_false (r : Residue) : r.meet (.const false) = .const false := by
  cases r with
  | const b => cases b <;> rfl
  | _ => rfl

end Residue

namespace Expr

/-- The expression is no connective. -/
def isLeaf : Expr → Bool
  | and _ _ => false
  | or _ _ => false
  | not _ => false
  | _ => true

/-- The expression folds to the residue if its leaves leave what is said of them. -/
inductive Folds (leaf : Expr → Residue → Prop) : Expr → Residue → Prop
  | leaf {e : Expr} {r : Residue} (he : e.isLeaf = true) (h : leaf e r) : Folds leaf e r
  /-- The first operand is met by no call, and the second one is skipped. -/
  | andSkipped {a b : Expr} (ha : Folds leaf a (.const false)) :
    Folds leaf (and a b) (.const false)
  | and {a b : Expr} {l r : Residue} (ha : Folds leaf a l) (hb : Folds leaf b r) :
    Folds leaf (and a b) (l.meet r)
  /-- The first operand is met by every call, and the second one is skipped. -/
  | orSkipped {a b : Expr} (ha : Folds leaf a (.const true)) :
    Folds leaf (or a b) (.const true)
  | or {a b : Expr} {l r : Residue} (ha : Folds leaf a l) (hb : Folds leaf b r) :
    Folds leaf (or a b) (l.join r)
  | not {a : Expr} {r : Residue} (ha : Folds leaf a r) : Folds leaf (not a) r.negate

theorem Folds.mono {leaf leaf' : Expr → Residue → Prop} {e : Expr} {r : Residue}
    (h : e.Folds leaf r) (hleaf : ∀ l s, l.isLeaf = true → leaf l s → leaf' l s) :
    e.Folds leaf' r := by
  induction h with
  | leaf he h => exact .leaf he (hleaf _ _ he h)
  | andSkipped _ iha => exact .andSkipped iha
  | and _ _ iha ihb => exact .and iha ihb
  | orSkipped _ iha => exact .orSkipped iha
  | or _ _ iha ihb => exact .or iha ihb
  | not _ iha => exact .not iha

/-! ## Runs -/

section Runs

variable {env : Env σ} {a b : Expr} {r : Residue}

/-- The second operand is resolved after the first one, unless no call meets that. -/
theorem resolveIn_and (h : (and a b).resolveIn env m t w = some (.ok r, w')) :
    (a.resolveIn env m t w = some (.ok (.const false), w') ∧ r = .const false) ∨
      ∃ left w₁ right, a.resolveIn env m t w = some (.ok left, w₁) ∧ left ≠ .const false ∧
        b.resolveIn env m t w₁ = some (.ok right, w') ∧ r = left.meet right := by
  obtain ⟨left, w₁, hleft, hrest⟩ := of_run_bind_ok h
  by_cases hfalse : left.isConst false = true
  · rw [if_pos hfalse] at hrest
    cases hrest
    cases Residue.eq_const_of_isConst hfalse
    exact .inl ⟨hleft, rfl⟩
  · rw [if_neg hfalse] at hrest
    obtain ⟨right, w₂, hright, hk⟩ := of_run_bind_ok hrest
    cases hk
    exact .inr ⟨left, w₁, right, hleft, fun hconst => hfalse (hconst ▸ rfl), hright, rfl⟩

/-- The second operand is resolved after the first one, unless every call meets that. -/
theorem resolveIn_or (h : (or a b).resolveIn env m t w = some (.ok r, w')) :
    (a.resolveIn env m t w = some (.ok (.const true), w') ∧ r = .const true) ∨
      ∃ left w₁ right, a.resolveIn env m t w = some (.ok left, w₁) ∧ left ≠ .const true ∧
        b.resolveIn env m t w₁ = some (.ok right, w') ∧ r = left.join right := by
  obtain ⟨left, w₁, hleft, hrest⟩ := of_run_bind_ok h
  by_cases htrue : left.isConst true = true
  · rw [if_pos htrue] at hrest
    cases hrest
    cases Residue.eq_const_of_isConst htrue
    exact .inl ⟨hleft, rfl⟩
  · rw [if_neg htrue] at hrest
    obtain ⟨right, w₂, hright, hk⟩ := of_run_bind_ok hrest
    cases hk
    exact .inr ⟨left, w₁, right, hleft, fun hconst => htrue (hconst ▸ rfl), hright, rfl⟩

theorem resolveIn_not (h : (not a).resolveIn env m t w = some (.ok r, w')) :
    ∃ inner, a.resolveIn env m t w = some (.ok inner, w') ∧ r = inner.negate := by
  obtain ⟨inner, w₁, hinner, hk⟩ := of_run_bind_ok h
  cases hk
  exact ⟨inner, hinner, rfl⟩

end Runs

/-- In some world the expression resolves to the residue, and the run goes on from another
world. -/
def Leaves (env : Env σ) (m : Method) (t : TypeDesc) (e : Expr) (r : Residue) : Prop :=
  ∃ w w', e.resolveIn env m t w = some (.ok r, w')

/-- What an expression resolves to in a run, whatever user tests do there, its leaves fold
to. -/
theorem folds_of_resolveIn {env : Env σ} {e : Expr} {r : Residue}
    (h : e.resolveIn env m t w = some (.ok r, w')) : e.Folds (Leaves env m t) r := by
  induction e generalizing w w' r with
  | and a b iha ihb =>
    rcases resolveIn_and h with ⟨hleft, rfl⟩ | ⟨left, w₁, right, hleft, _, hright, rfl⟩
    · exact .andSkipped (iha hleft)
    · exact .and (iha hleft) (ihb hright)
  | or a b iha ihb =>
    rcases resolveIn_or h with ⟨hleft, rfl⟩ | ⟨left, w₁, right, hleft, _, hright, rfl⟩
    · exact .orSkipped (iha hleft)
    · exact .or (iha hleft) (ihb hright)
  | not a iha =>
    obtain ⟨inner, hinner, rfl⟩ := resolveIn_not h
    exact .not (iha hinner)
  | _ => exact .leaf rfl ⟨w, w', h⟩

/-- For some user tests that are functions the expression resolves to the residue. -/
def MayLeave (m : Method) (t : TypeDesc) (e : Expr) (r : Residue) : Prop :=
  ∃ ask, e.resolvePure ask m t = .ok r

/-- At a leaf at most one user test is run, so what it leaves it leaves for functions too. -/
theorem Leaves.mayLeave {env : Env σ} {l : Expr} {r : Residue} (h : l.Leaves env m t r)
    (hl : l.isLeaf = true) : l.MayLeave m t r := by
  obtain ⟨w, w', h⟩ := h
  cases l with
  | custom test =>
    obtain ⟨answer, w₁, _, hk⟩ := of_run_bind_ok h
    cases answer with
    | ok b =>
      cases hk
      exact ⟨fun _ _ _ => .ok b, rfl⟩
    | error text => cases hk
  | and a b => cases hl
  | or a b => cases hl
  | not a => cases hl
  | _ =>
    cases h
    exact ⟨fun _ _ _ => .ok true, rfl⟩

/-! ## The filter on classes -/

/-- Names of types and types to stand for, and what connectives make of them. -/
inductive OnTypes : Expr → Prop
  | type (pattern : String) : OnTypes (type pattern)
  | typeRegex (r : Text.Regex) : OnTypes (typeRegex r)
  | target (wanted : TypeDesc) : OnTypes (target wanted)
  | and {a b : Expr} (ha : OnTypes a) (hb : OnTypes b) : OnTypes (and a b)
  | or {a b : Expr} (ha : OnTypes a) (hb : OnTypes b) : OnTypes (or a b)
  | not {a : Expr} (ha : OnTypes a) : OnTypes (not a)

theorem onTypes_iff {e : Expr} : e.OnTypes ↔ e.isTypeOnly = true := by
  constructor
  · intro h
    induction h with
    | and _ _ iha ihb => exact Bool.and_eq_true_iff.mpr ⟨iha, ihb⟩
    | or _ _ iha ihb => exact Bool.and_eq_true_iff.mpr ⟨iha, ihb⟩
    | not _ iha => exact iha
    | _ => rfl
  · intro h
    induction e with
    | type p => exact .type p
    | typeRegex r => exact .typeRegex r
    | target wanted => exact .target wanted
    | and a b iha ihb =>
      obtain ⟨ha, hb⟩ := Bool.and_eq_true_iff.mp h
      exact .and (iha ha) (ihb hb)
    | or a b iha ihb =>
      obtain ⟨ha, hb⟩ := Bool.and_eq_true_iff.mp h
      exact .or (iha ha) (ihb hb)
    | not a iha => exact .not (iha h)
    | _ => cases h

/-- Of an expression that is about types alone the filter is the whole truth, and nothing is
run to find it out. -/
theorem OnTypes.resolve_eq {μ : Type → Type} [Monad μ] [LawfulMonad μ] {e : Expr}
    (h : e.OnTypes) (ask : Routine → Method → TypeDesc → μ (Except String Bool)) :
    e.resolve ask m t = pure (.const (e.matchesType t)) := by
  induction h with
  | @and a b _ _ iha ihb =>
    rw [resolve, iha, pure_bind, ihb, matchesType]
    cases a.matchesType t with
    | true => cases b.matchesType t <;> simp [Residue.isConst, Residue.meet]
    | false => rfl
  | @or a b _ _ iha ihb =>
    rw [resolve, iha, pure_bind, ihb, matchesType]
    cases a.matchesType t with
    | true => rfl
    | false => cases b.matchesType t <;> simp [Residue.isConst, Residue.join]
  | @not a ha iha =>
    rw [resolve, iha, pure_bind, matchesType, if_pos (onTypes_iff.mp ha)]
    rfl
  | _ => rfl

theorem OnTypes.resolveIn_eq {e : Expr} (h : e.OnTypes) (env : Env σ) (m : Method)
    (t : TypeDesc) : e.resolveIn env m t = pure (.ok (.const (e.matchesType t))) :=
  congrArg ExceptT.run (h.resolve_eq fun r m t => env.run (env.code.methodTest r m t))

theorem OnTypes.resolvePure_eq {e : Expr} (h : e.OnTypes)
    (ask : Routine → Method → TypeDesc → Except String Bool) (m : Method) (t : TypeDesc) :
    e.resolvePure ask m t = .ok (.const (e.matchesType t)) :=
  congrArg ExceptT.run (h.resolve_eq fun r m t => (pure (ask r m t) : Id _))

/-- Such an expression folds to nothing else. -/
theorem OnTypes.eq_of_folds {e : Expr} {r : Residue} (h : e.OnTypes)
    (hr : e.Folds (MayLeave m t) r) : r = .const (e.matchesType t) := by
  induction hr with
  | leaf _ hleaf =>
    obtain ⟨ask, hleaf⟩ := hleaf
    rw [h.resolvePure_eq ask m t] at hleaf
    exact (Except.ok.inj hleaf).symm
  | andSkipped _ iha =>
    cases h with
    | and ha hb =>
      have hfalse := Residue.const.inj (iha ha)
      rw [matchesType, ← hfalse, Bool.false_and]
  | @and a b _ _ _ _ iha ihb =>
    cases h with
    | and ha hb =>
      rw [iha ha, ihb hb, matchesType]
      cases a.matchesType t <;> cases b.matchesType t <;> rfl
  | orSkipped _ iha =>
    cases h with
    | or ha hb =>
      have htrue := Residue.const.inj (iha ha)
      rw [matchesType, ← htrue, Bool.true_or]
  | @or a b _ _ _ _ iha ihb =>
    cases h with
    | or ha hb =>
      rw [iha ha, ihb hb, matchesType]
      cases a.matchesType t <;> cases b.matchesType t <;> rfl
  | not _ iha =>
    cases h with
    | not ha =>
      rw [iha ha, matchesType, if_pos (onTypes_iff.mp ha)]
      rfl

/-- What a leaf leaves where the filter keeps the type out. -/
theorem leaf_of_filtered {l : Expr} {r : Residue} (hl : l.isLeaf = true)
    (h : l.matchesType t = false) (hr : l.MayLeave m t r) : r = .const false := by
  obtain ⟨ask, hr⟩ := hr
  cases l with
  | type p => rw [← Except.ok.inj hr, ← h]; rfl
  | typeRegex p => rw [← Except.ok.inj hr, ← h]; rfl
  | target wanted => rw [← Except.ok.inj hr, ← h]; rfl
  | execution tp mp =>
    have htype : typeAdmitted tp t = false := h
    rw [← Except.ok.inj hr, htype, Bool.false_and]
  | and a b => cases hl
  | or a b => cases hl
  | not a => cases hl
  | _ => cases h

/-- Where the filter keeps the type out, the leaves fold to no match. -/
theorem Folds.of_filtered {e : Expr} {r : Residue} (hr : e.Folds (MayLeave m t) r)
    (h : e.matchesType t = false) : r = .const false := by
  induction hr with
  | leaf he hleaf => exact leaf_of_filtered he h hleaf
  | andSkipped _ _ => rfl
  | @and _ _ left _ _ _ iha ihb =>
    rcases Bool.and_eq_false_iff.mp h with ha | hb
    · cases iha ha
      rfl
    · cases ihb hb
      exact left.meet_false
  | orSkipped _ iha => cases iha (Bool.or_eq_false_iff.mp h).1
  | or _ _ iha ihb =>
    obtain ⟨ha, hb⟩ := Bool.or_eq_false_iff.mp h
    cases iha ha
    cases ihb hb
    rfl
  | @not a _ hinner _ =>
    -- a negation keeps something out only if everything below is about types
    rw [matchesType] at h
    split at h
    · next htypes =>
      have htrue : a.matchesType t = true := by simpa using h
      rw [(onTypes_iff.mpr htypes).eq_of_folds hinner, htrue]
      rfl
    · cases h

theorem outcome_of_filtered {env : Env σ} {e : Expr} {o : Except Fault Residue}
    (hfilter : e.matchesType t = false) (h : e.resolveIn env m t w = some (o, w')) :
    o = .ok (.const false) ∨ ∃ fault, o = .error fault := by
  cases o with
  | error fault => exact .inr ⟨fault, rfl⟩
  | ok r =>
    have hfolds := (folds_of_resolveIn h).mono fun _ _ hl hleaf => hleaf.mayLeave hl
    rw [hfolds.of_filtered hfilter]
    exact .inl rfl

end Expr

/-- Whatever user tests do: an expression whose filter keeps a type out resolves to no match
there or to a failure, so that it matches no call; and an expression about types alone
resolves to what its filter says, with nothing run. -/
theorem class_filter_hides_nothing (env : Env σ) (m : Method) (t : TypeDesc) :
    (∀ (e : Expr) w o w', e.matchesType t = false → e.resolveIn env m t w = some (o, w') →
      o = .ok (.const false) ∨ ∃ fault, o = .error fault) ∧
    (∀ (e : Expr) args w matched w', e.matchesType t = false →
      e.evaluateIn env m t args w = some (matched, w') → matched = false) ∧
    ∀ e : Expr, e.OnTypes → e.resolveIn env m t = pure (.ok (.const (e.matchesType t))) := by
  refine ⟨fun e w o w' => Expr.outcome_of_filtered, fun e args w matched w' hfilter h => ?_,
    fun e h => h.resolveIn_eq env m t⟩
  obtain ⟨⟨o, w₁⟩, hresolved, hk⟩ := Option.bind_eq_some_iff.mp h
  rcases Expr.outcome_of_filtered hfilter hresolved with rfl | ⟨fault, rfl⟩
  · cases hk
    rfl
  · cases hk
    rfl

/-- Calls to other types than the root, as user code likes them. -/
def belowRoot : Expr :=
  .and (.not (.target .root)) (.custom ⟨0⟩)

/-- An environment in which every user test is stuck. -/
def stuck : Env Unit := ⟨Code.idle, fun _ _ => none⟩

/-- The negation keeps the root out, and the user code behind it is not asked. -/
theorem below_root_filtered :
    belowRoot.matchesType .root = false ∧
      belowRoot.resolveIn stuck default .root { user := () }
        = some (.ok (.const false), { user := () }) ∧
      (∀ args w matched w', belowRoot.evaluateIn stuck default .root args w
        = some (matched, w') → matched = false) ∧
      (Expr.not (.target .root)).resolveIn stuck default .root = pure (.ok (.const false)) := by
  obtain ⟨_, hunmatched, honTypes⟩ := class_filter_hides_nothing stuck default .root
  have hkept : belowRoot.matchesType .root = false := rfl
  refine ⟨hkept, rfl, fun args w matched w' h => ?_, honTypes _ (.not (.target .root))⟩
  exact hunmatched belowRoot args w matched w' hkept h

end Aspects
