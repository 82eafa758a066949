import Aspects.Engine

/-!
# Argument types before the call and at the call

The types of the arguments are matched twice. Before any call the types wanted are held
against those declared; what that settles is never looked at again. The rest is left to the
call, where the argument itself counts.

What is settled as matching is right, for a wanted type that accepts the declared one asks
nothing of the argument. What is settled as not matching rests on a place where neither of
the two types accepts the other. An argument may be of both all the same, if its class
implements two interfaces: it straddles them. Calls with such arguments, and no others, are
answered otherwise than the test at the call would answer them
(`static_arguments_right_iff`).
-/

namespace Aspects

/-- Neither type accepts the other. -/
def TypeDesc.Unrelated (s t : TypeDesc) : Prop :=
  s.accepts t = false ∧ t.accepts s = false

namespace Method

/-- The arguments are those of a call of the method: one for each parameter, null or an
object of the declared type. -/
structure Admits (m : Method) (args : List Value) : Prop where
  length_eq : args.length = m.params.length
  instance_of : ∀ (i : Nat) (declared : TypeDesc) (o : Object),
    m.params[i]? = some declared → args[i]? = some (some o) → o.isInstanceOf declared = true

/-- Some argument is of the declared and of the wanted type, though neither of them accepts
the other. -/
def Straddles (m : Method) (wanted : List TypeDesc) (args : List Value) : Prop :=
  ∃ (i : Nat) (declared expected : TypeDesc) (o : Object),
    m.params[i]? = some declared ∧ wanted[i]? = some expected ∧ args[i]? = some (some o) ∧
    declared.Unrelated expected ∧ o.isInstanceOf declared = true ∧ o.isInstanceOf expected = true

end Method

namespace Expr

variable {ds ws : List TypeDesc} {v : Verdict}

/-! ## Place by place -/

theorem staticArgs_maybe_ne_always (ds ws : List TypeDesc) :
    staticArgs ds ws .maybe ≠ .always := by
  induction ds generalizing ws with
  | nil => exact nofun
  | cons declared ds ih =>
    cases ws with
    | nil => exact nofun
    | cons wanted ws =>
      unfold staticArgs
      split
      · exact ih ws
      · split
        · exact ih ws
        · exact nofun

/-- Where the static match is certain, every wanted type accepts the declared one, and so
the argument does not matter. -/
theorem argsAccepted_of_always (h : staticArgs ds ws v = .always) (args : List Value) :
    Residue.argsAccepted ws ds args = true := by
  induction ds generalizing ws args with
  | nil => cases ws <;> rfl
  | cons declared ds ih =>
    cases ws with
    | nil => rfl
    | cons wanted ws =>
      cases args with
      | nil => rfl
      | cons value args =>
        unfold staticArgs at h
        unfold Residue.argsAccepted
        split at h
        · rename_i haccepts
          rw [haccepts, ih h args]
          rfl
        · split at h
          · exact absurd h (staticArgs_maybe_ne_always ds ws)
          · cases h

theorem exists_unrelated_cons (declared wanted : TypeDesc) (ds ws : List TypeDesc) :
    (∃ (i : Nat) (d w : TypeDesc), (declared :: ds)[i]? = some d ∧
        (wanted :: ws)[i]? = some w ∧ d.Unrelated w) ↔
      declared.Unrelated wanted ∨ ∃ (i : Nat) (d w : TypeDesc),
        ds[i]? = some d ∧ ws[i]? = some w ∧ d.Unrelated w := by
  constructor
  · rintro ⟨i, d, w, hd, hw, hunrelated⟩
    cases i with
    | zero =>
      cases hd
      cases hw
      exact .inl hunrelated
    | succ i => exact .inr ⟨i, d, w, hd, hw, hunrelated⟩
  · rintro (hunrelated | ⟨i, d, w, hd, hw, hunrelated⟩)
    · exact ⟨0, declared, wanted, rfl, rfl, hunrelated⟩
    · exact ⟨i + 1, d, w, hd, hw, hunrelated⟩

/-- The static match fails where types are unrelated at some place, and nowhere else. -/
theorem staticArgs_eq_never_iff (hv : v ≠ .never) :
    staticArgs ds ws v = .never ↔ ∃ (i : Nat) (declared wanted : TypeDesc),
      ds[i]? = some declared ∧ ws[i]? = some wanted ∧ declared.Unrelated wanted := by
  induction ds generalizing ws v with
  | nil => simpa [staticArgs] using hv
  | cons declared ds ih =>
    cases ws with
    | nil => simpa [staticArgs] using hv
    | cons wanted ws =>
      rw [exists_unrelated_cons]
      unfold staticArgs
      split
      · rename_i haccepts
        rw [ih hv]
        simp [TypeDesc.Unrelated, haccepts]
      · split
        · rename_i haccepts
          rw [ih (v := .maybe) (by decide)]
          simp [TypeDesc.Unrelated, haccepts]
        · rename_i hwanted hdeclared
          exact ⟨fun _ => .inl ⟨by simpa using hdeclared, by simpa using hwanted⟩, fun _ => rfl⟩

/-- What the test at the call accepts, it accepts at every place. -/
theorem accepted_at {args : List Value} {i : Nat} {declared wanted : TypeDesc} {value : Value}
    (h : Residue.argsAccepted ws ds args = true) (hw : ws[i]? = some wanted)
    (hd : ds[i]? = some declared) (hvalue : args[i]? = some value) :
    wanted.accepts declared = true ∨ ∃ o, value = some o ∧ o.isInstanceOf wanted = true := by
  induction i generalizing ws ds args with
  | zero =>
    cases ws <;> cases hw
    cases ds <;> cases hd
    cases args <;> cases hvalue
    unfold Residue.argsAccepted at h
    obtain ⟨hplace, _⟩ := Bool.and_eq_true_iff.mp h
    rcases Bool.or_eq_true_iff.mp hplace with haccepts | hinstance
    · exact .inl haccepts
    · exact .inr ((Option.any_eq_true _ _).mp hinstance)
  | succ i ih =>
    cases ws with
    | nil => cases hw
    | cons _ ws =>
      cases ds with
      | nil => cases hd
      | cons _ ds =>
        cases args with
        | nil => cases hvalue
        | cons _ args =>
          unfold Residue.argsAccepted at h
          exact ih (Bool.and_eq_true_iff.mp h).2 hw hd hvalue

end Expr

/-! ## The whole match -/

section Match

variable {m : Method} {wanted : List TypeDesc} {args : List Value}

theorem Expr.params_length_of_argsVerdict (h : Expr.argsVerdict m wanted ≠ .never) :
    m.params.length = wanted.length := by
  unfold Expr.argsVerdict at h
  split at h
  · exact absurd rfl h
  · rename_i hlength
    simpa using hlength

theorem Residue.lengths_of_argsMatch (h : Residue.argsMatch wanted m args = true) :
    args.length = wanted.length ∧ m.params.length = wanted.length := by
  unfold Residue.argsMatch at h
  simp only [Bool.and_eq_true, beq_iff_eq] at h
  exact h.1

/-- What the static match is certain of, every call bears out. -/
theorem Expr.argsMatch_of_always (hargs : m.Admits args)
    (h : Expr.argsVerdict m wanted = .always) : Residue.argsMatch wanted m args = true := by
  have hlength : m.params.length = wanted.length :=
    Expr.params_length_of_argsVerdict (by rw [h]; decide)
  have haccepted : Residue.argsAccepted wanted m.params args = true := by
    refine Expr.argsAccepted_of_always (v := .always) ?_ args
    simpa [Expr.argsVerdict, hlength] using h
  simp [Residue.argsMatch, haccepted, hargs.length_eq, hlength]

/-- Arguments that the test at the call accepts, though the static match has failed,
straddle the types. -/
theorem Expr.straddles_of_never (hargs : m.Admits args)
    (h : Expr.argsVerdict m wanted = .never) (hmatch : Residue.argsMatch wanted m args = true) :
    m.Straddles wanted args := by
  obtain ⟨hcount, hlength⟩ := Residue.lengths_of_argsMatch hmatch
  have hnever : Expr.staticArgs m.params wanted .always = .never := by
    simpa [Expr.argsVerdict, hlength] using h
  obtain ⟨i, declared, expected, hd, hw, hunrelated⟩ :=
    (Expr.staticArgs_eq_never_iff (by decide)).mp hnever
  have haccepted : Residue.argsAccepted wanted m.params args = true :=
    (Bool.and_eq_true_iff.mp hmatch).2
  obtain ⟨hi, _⟩ := List.getElem?_eq_some_iff.mp hw
  have hvalue : args[i]? = some args[i] := List.getElem?_eq_getElem (hcount ▸ hi)
  rcases Expr.accepted_at haccepted hw hd hvalue with haccepts | ⟨o, ho, hinstance⟩
  · rw [hunrelated.2] at haccepts
    cases haccepts
  · rw [ho] at hvalue
    exact ⟨i, declared, expected, o, hd, hw, hvalue, hunrelated,
      hargs.instance_of i declared o hd hvalue, hinstance⟩

/-- With arguments that straddle the types the static match fails. -/
theorem Expr.never_of_straddles (h : m.Straddles wanted args) :
    Expr.argsVerdict m wanted = .never := by
  obtain ⟨i, declared, expected, _, hd, hw, _, hunrelated, _⟩ := h
  unfold Expr.argsVerdict
  split
  · rfl
  · exact (Expr.staticArgs_eq_never_iff (by decide)).mpr
      ⟨i, declared, expected, hd, hw, hunrelated⟩

/-- What an expression on the types of the arguments answers at a call. -/
def Expr.argsAnswer (wanted : List TypeDesc) (m : Method) (args : List Value) : Bool :=
  match argsVerdict m wanted with
  | .always => true
  | .never => false
  | .maybe => Residue.argsMatch wanted m args

theorem Pointcut.matchesRuntime_args {σ : Type} (env : Env σ) (m : Method) (t : Option TypeDesc)
    (wanted : List TypeDesc) (args : List Value) :
    (expr (.args wanted)).matchesRuntime env m t args = pure (Expr.argsAnswer wanted m args) := by
  show (Expr.argsResidue m wanted).passesIn env m args = _
  unfold Expr.argsResidue Expr.argsAnswer
  cases Expr.argsVerdict m wanted with
  | always => rfl
  | never => rfl
  | maybe => rfl

/-- Unless the arguments straddle the types, the answer is that of the test at the call. -/
theorem Expr.argsAnswer_eq_iff (hargs : m.Admits args) :
    argsAnswer wanted m args = Residue.argsMatch wanted m args ↔
      (Residue.argsMatch wanted m args = true → ¬m.Straddles wanted args) := by
  unfold argsAnswer
  cases hverdict : argsVerdict m wanted with
  | always =>
    have hmatch := argsMatch_of_always hargs hverdict
    have hstraddles : ¬m.Straddles wanted args := fun h => by
      rw [never_of_straddles h] at hverdict
      cases hverdict
    simp [hmatch, hstraddles]
  | never =>
    have hstraddles := straddles_of_never hargs hverdict
    cases hmatch : Residue.argsMatch wanted m args with
    | true => simp [hstraddles hmatch]
    | false => simp
  | maybe =>
    refine ⟨fun _ _ h => ?_, fun _ => rfl⟩
    rw [never_of_straddles h] at hverdict
    cases hverdict

end Match

/-! ## The result -/

/-- For every method, all types wanted and all arguments of a call of the method: if the
static match is certain, the test at the call accepts the arguments; if it fails, the test
accepts none but arguments that straddle the types. The answer at the call is the one of the
test, unless the test accepts arguments that straddle the types. -/
theorem static_arguments_right_iff {σ : Type} {m : Method} {args : List Value}
    (hargs : m.Admits args) (wanted : List TypeDesc) (env : Env σ) (t : Option TypeDesc)
    (w : World σ) :
    (Expr.argsVerdict m wanted = .always → Residue.argsMatch wanted m args = true) ∧
    (Expr.argsVerdict m wanted = .never → Residue.argsMatch wanted m args = true →
      m.Straddles wanted args) ∧
    ((Pointcut.expr (.args wanted)).matchesRuntime env m t args w
        = some (Residue.argsMatch wanted m args, w) ↔
      (Residue.argsMatch wanted m args = true → ¬m.Straddles wanted args)) := by
  refine ⟨Expr.argsMatch_of_always hargs, Expr.straddles_of_never hargs, ?_⟩
  rw [Pointcut.matchesRuntime_args, ← Expr.argsAnswer_eq_iff hargs]
  constructor
  · intro hanswer
    exact congrArg Prod.fst (Option.some.inj hanswer)
  · intro heq
    rw [heq]
    rfl

/-- An interface of things that are read. -/
def readable : TypeDesc := .plain "Readable" .interfaceKind

/-- An interface of things that are written. -/
def writable : TypeDesc := .plain "Writable" .interfaceKind

/-- A class of things that are both. -/
def port : TypeDesc := .named "Port" .classKind none [readable, writable] []

/-- A method that asks for something to read. -/
def opening : Method :=
  { declaring := .plain "Svc" .interfaceKind, name := "open", params := [readable],
    result := .void }

/-- A port may be opened. -/
theorem opening_admits_port : opening.Admits [some ⟨port, 0, .entity ""⟩] where
  length_eq := rfl
  instance_of i declared o hd ho := by
    cases i with
    | zero =>
      cases hd
      cases ho
      decide
    | succ i => cases hd

/-- Whether a port is opened is left to the call, and there the answer is right. -/
theorem port_opened :
    Expr.argsVerdict opening [port] = .maybe ∧
    (Pointcut.expr (.args [port])).matchesRuntime (Engine.env Code.idle 0) opening none
      [some ⟨port, 0, .entity ""⟩] { user := () } = some (true, { user := () }) := by
  refine ⟨rfl, ?_⟩
  refine (static_arguments_right_iff opening_admits_port [port] (Engine.env Code.idle 0) none
    { user := () }).2.2.mpr ?_
  rintro _ ⟨i, declared, expected, _, hd, hw, _, ⟨hunrelated, _⟩, _⟩
  cases i with
  | zero =>
    cases hd
    cases hw
    exact absurd hunrelated (by decide)
  | succ i => cases hd

/-- Whether something to write is opened is settled as never, though with a port the test at
the call would accept it. -/
theorem port_straddles :
    opening.Admits [some ⟨port, 0, .entity ""⟩] ∧
    Expr.argsVerdict opening [writable] = .never ∧
    Residue.argsMatch [writable] opening [some ⟨port, 0, .entity ""⟩] = true :=
  ⟨opening_admits_port, rfl, rfl⟩

end Aspects
