import Mathlib.Algebra.BigOperators.Group.List.Basic
import Aspects.Engine
import Aspects.Proofs.Counting.Notes

/-!
# How often a call comes to its units and its target

A unit may proceed as often as it likes, and each time the call comes to the next unit, which
may again proceed as often as it likes. If every unit proceeds a fixed number of times,
whatever the answers, then the visits multiply (`visits_multiply`): to a unit the call comes
as often as the product of the numbers of those before it says, and to the target as often as
the product of all.

What carries this is that the cursor is put back after each turn. So a unit that proceeds
again comes to the same unit behind it as before, and the visits of one round are those of
each other round. `Visits` is a triple on invocations that keeps count, with a rule for each
way in which runs are put together; `advance_visits` is the induction over the chain.
-/

namespace Aspects

variable {σ : Type} {α β : Type}

/-! ## Units that proceed a number of times -/

/-- Whatever the answers are, the program goes on that many times. -/
inductive Program.Proceeds {F : Type → Type} (goesOn : (β : Type) → F β → Prop) :
    Nat → Program F α → Prop
  | done (a : α) : Proceeds goesOn 0 (.done a)
  | goes {β : Type} {c : F β} {next : β → Program F α} {k : Nat} (hc : goesOn β c)
      (h : ∀ b, Proceeds goesOn k (next b)) : Proceeds goesOn (k + 1) (.issue c next)
  | stays {β : Type} {c : F β} {next : β → Program F α} {k : Nat} (hc : ¬ goesOn β c)
      (h : ∀ b, Proceeds goesOn k (next b)) : Proceeds goesOn k (.issue c next)

/-- Advice around a call to the method goes on, which it does not with too many or too few
arguments. -/
def AroundStep.GoesOn (m : Method) : (β : Type) → Either (Command σ) AroundStep β → Prop
  | _, .inr .proceed => True
  | _, .inr (.proceedWith args) => args.length = m.params.length
  | _, _ => False

/-- An interceptor goes on, itself or on a copy. -/
def InvocationStep.GoesOn : (β : Type) → Either (Command σ) InvocationStep β → Prop
  | _, .inr .proceed => True
  | _, .inr (.proceedOnCopy _) => True
  | _, _ => False

/-- In every call to the method the link runs user code, as an interceptor or as advice
around the call, that proceeds so many times. -/
def Link.Proceeds (env : Env σ) (m : Method) : Link → Nat → Prop
  | .fixed ⟨_, .user body⟩, k =>
    (env.code.interceptor body).run.Proceeds InvocationStep.GoesOn k
  | .fixed ⟨_, .around body⟩, k =>
    (env.code.around body).run.Proceeds (AroundStep.GoesOn m) k
  | _, _ => False

/-! ## Counting visits -/

/-- The invocation goes through the same chain, for the same method. -/
structure Invocation.Along (v₀ v : Invocation) : Prop where
  chain : v.chain = v₀.chain
  method : v.method = v₀.method

/-- It does, and it is at the place. -/
structure Invocation.At (v₀ : Invocation) (place : Nat) (v : Invocation) : Prop
    extends Along v₀ v where
  cursor : v.cursor = place

namespace Noting

/-- From an invocation of the first sort the run comes to one of the second, and it adds to
the list every stop as often as the number says. -/
def Visits (P : Invocation → Prop) (g : Noting σ α) (n : Stop → Nat) (Q : Invocation → Prop) :
    Prop :=
  ∀ stops v w a stops' v' w', P v → (g.run stops).run v w = some (((a, stops'), v'), w') →
    Q v' ∧ ∃ new, stops' = stops ++ new ∧ ∀ s, new.count s = n s

namespace Visits

variable {P P' Q Q' R : Invocation → Prop} {n m : Stop → Nat} {v₀ : Invocation} {place : Nat}

theorem mono {g : Noting σ α} (h : Visits P g n Q) (hP : ∀ v, P' v → P v)
    (hQ : ∀ v, Q v → Q' v) : Visits P' g n Q' := by
  intro stops v w a stops' v' w' hv hr
  obtain ⟨hv', hnew⟩ := h stops v w a stops' v' w' (hP v hv) hr
  exact ⟨hQ v' hv', hnew⟩

theorem of_eq {g : Noting σ α} (h : Visits P g n Q) (hn : ∀ s, n s = m s) :
    Visits P g m Q := by
  obtain rfl : n = m := funext hn
  exact h

theorem pure (a : α) : Visits (σ := σ) P (Pure.pure a) (fun _ => 0) P := by
  intro stops v w b stops' v' w' hv h
  cases h
  exact ⟨hv, [], by simp, fun _ => rfl⟩

theorem bind {g : Noting σ α} {k : α → Noting σ β} (hg : Visits P g n Q)
    (hk : ∀ a, Visits Q (k a) m R) : Visits P (g >>= k) (fun s => n s + m s) R := by
  intro stops v w b stops₂ v₂ w₂ hv h
  obtain ⟨⟨⟨⟨a, stops₁⟩, v₁⟩, w₁⟩, hr, hrest⟩ := Option.bind_eq_some_iff.mp h
  obtain ⟨hv₁, new, rfl, hnew⟩ := hg stops v w a stops₁ v₁ w₁ hv hr
  obtain ⟨hv₂, new', rfl, hnew'⟩ := hk a _ v₁ w₁ b stops₂ v₂ w₂ hv₁ hrest
  refine ⟨hv₂, new ++ new', by simp, fun s => ?_⟩
  rw [List.count_append, hnew, hnew']

theorem note (s : Stop) :
    Visits (σ := σ) P (Noting.note s) (fun s' => if s' = s then 1 else 0) P := by
  intro stops v w a stops' v' w' hv h
  cases h
  refine ⟨hv, [s], rfl, fun s' => ?_⟩
  show [s].count s' = if s' = s then 1 else 0
  by_cases hs : s' = s
  · rw [hs, List.count_singleton_self, if_pos rfl]
  · rw [if_neg hs, List.count_eq_zero, List.mem_singleton]
    exact hs

/-- A run without notes comes to no stop. -/
theorem lift {r : StateT Invocation (Run σ) α}
    (h : ∀ v w a v' w', P v → r.run v w = some ((a, v'), w') → Q v') :
    Visits P (StateT.lift r) (fun _ => 0) Q := by
  intro stops v w a stops' v' w' hv hr
  obtain ⟨⟨⟨b, v₁⟩, w₁⟩, hb, hk⟩ := Option.bind_eq_some_iff.mp hr
  cases hk
  exact ⟨h v w a v' w' hv hb, [], by simp, fun _ => rfl⟩

/-- What only concerns the world leaves the invocation alone. -/
theorem aside (r : Run σ α) : Visits P (StateT.lift (StateT.lift r)) (fun _ => 0) P := by
  refine lift fun v w a v' w' hv hr => ?_
  obtain ⟨⟨b, w₁⟩, _, hk⟩ := Option.bind_eq_some_iff.mp hr
  cases hk
  exact hv

theorem change {f : Invocation → Invocation} (h : ∀ v, P v → Q (f v)) :
    Visits (σ := σ) P (StateT.lift (modify f)) (fun _ => 0) Q := by
  refine lift fun v w a v' w' hv hr => ?_
  cases hr
  exact h v hv

theorem seen : Visits (σ := σ) P (StateT.lift get) (fun _ => 0) P := by
  refine lift fun v w a v' w' hv hr => ?_
  cases hr
  exact hv

theorem looking {k : Invocation → Noting σ α} (h : ∀ v, P v → Visits (· = v) (k v) n Q) :
    Visits P (do let v ← StateT.lift get; k v) n Q :=
  fun stops v w a stops' v' w' hv hr => h v hv stops v w a stops' v' w' rfl hr

/-- A program that goes on a number of times comes as often to every stop that is come to by
going on. -/
theorem program {F : Type → Type} {goesOn : (β : Type) → F β → Prop}
    {f : {β : Type} → F β → Noting σ β} {p : Program F α} {k : Nat}
    (hp : p.Proceeds goesOn k)
    (hgoes : ∀ {β : Type} (c : F β), goesOn β c → Visits P (f c) n P)
    (hstays : ∀ {β : Type} (c : F β), ¬ goesOn β c → Visits P (f c) (fun _ => 0) P) :
    Visits P (p.run f) (fun s => k * n s) P := by
  induction hp with
  | done a => exact (pure a).of_eq fun s => (Nat.zero_mul _).symm
  | @goes β c next k hc _ ih =>
    refine (bind (hgoes c hc) ih).of_eq fun s => ?_
    rw [Nat.succ_mul, Nat.add_comm]
  | @stays β c next k hc _ ih =>
    refine (bind (hstays c hc) ih).of_eq fun s => ?_
    rw [Nat.zero_add]

/-- A turn ends at the place where it began. -/
theorem keepingCursor {f : Noting σ α} (h : Visits (v₀.At place) f n v₀.Along) :
    Visits (v₀.At place) f.keepingCursor n (v₀.At place) := by
  refine looking fun v hv => ?_
  have hf : Visits (· = v) f n v₀.Along := h.mono (fun v' hv' => hv' ▸ hv) fun _ => id
  have hback (a : α) : Visits v₀.Along (do
      StateT.lift (modify fun v' => { v' with cursor := v.cursor })
      return a : Noting σ α) (fun _ => 0 + 0) (v₀.At place) :=
    bind (change fun v' hv' => ⟨⟨hv'.chain, hv'.method⟩, hv.cursor⟩) fun _ => pure a
  exact bind hf hback

theorem onCopy {f : Noting σ α} (h : Visits (v₀.At place) f n (v₀.At place))
    (args : Option (List Value)) : Visits (v₀.At place) (f.onCopy args) n (v₀.At place) := by
  intro stops v w a stops' v' w' hv hr
  obtain ⟨⟨⟨⟨b, stops₁⟩, v₁⟩, w₁⟩, hf, hk⟩ := Option.bind_eq_some_iff.mp hr
  cases hk
  have hcopy : v₀.At place (v.copy args) := ⟨⟨hv.chain, hv.method⟩, hv.cursor⟩
  exact ⟨hv, (h stops _ w _ _ _ w' hcopy hf).2⟩

end Visits

/-! ## One unit -/

section Units

variable (env : Env σ) (plain : Frame σ Value) {onward : Noting σ (Outcome Value)}
  {v₀ : Invocation} {place : Nat} {n : Stop → Nat}

theorem proceedWith_visits (h : Visits (v₀.At place) onward n (v₀.At place))
    (args : List Value) :
    Visits (v₀.At place) (proceedWith plain onward args)
      (if args.length = v₀.method.params.length then n else fun _ => 0) (v₀.At place) := by
  refine .looking fun v hv => ?_
  rw [hv.method]
  split
  · exact (h.onCopy (some args)).mono (fun v' hv' => hv' ▸ hv) fun _ => id
  · next hargs =>
    refine .lift fun v₁ w a v' w' hv₁ hr => ?_
    subst hv₁
    have hrefused : (if args.length != v₁.method.params.length then throw _
        else Frame.onCopy (some args) plain : Frame σ Value).run v₁ w
          = some ((a, v'), w') := hr
    rw [if_pos (by simpa [hv.method] using hargs)] at hrefused
    cases hrefused
    exact hv

/-- Advice around a call comes behind itself as often as it goes on. -/
theorem performAround_visits (h : Visits (v₀.At place) onward n (v₀.At place))
    (c : Either (Command σ) AroundStep β) :
    (AroundStep.GoesOn v₀.method β c →
      Visits (v₀.At place) (performAround env plain onward c) n (v₀.At place)) ∧
    (¬ AroundStep.GoesOn v₀.method β c →
      Visits (v₀.At place) (performAround env plain onward c) (fun _ => 0) (v₀.At place)) := by
  match c with
  | .inl c => exact ⟨False.elim, fun _ => .aside _⟩
  | .inr .invocation => exact ⟨False.elim, fun _ => .seen⟩
  | .inr .proceed => exact ⟨fun _ => h, fun hc => absurd trivial hc⟩
  | .inr (.proceedWith args) =>
    have hvisits := proceedWith_visits plain h args
    constructor
    · intro (hc : args.length = v₀.method.params.length)
      rw [if_pos hc] at hvisits
      exact hvisits
    · intro (hc : ¬ args.length = v₀.method.params.length)
      rw [if_neg hc] at hvisits
      exact hvisits

/-- So does an interceptor. -/
theorem performInvocation_visits (h : Visits (v₀.At place) onward n (v₀.At place))
    (c : Either (Command σ) InvocationStep β) :
    (InvocationStep.GoesOn β c →
      Visits (v₀.At place) (performInvocation env plain onward c) n (v₀.At place)) ∧
    (¬ InvocationStep.GoesOn β c →
      Visits (v₀.At place) (performInvocation env plain onward c) (fun _ => 0) (v₀.At place)) := by
  have hchange {f : Invocation → Invocation} (hf : ∀ v, v₀.At place v → v₀.At place (f v)) :
      Visits (σ := σ) (v₀.At place) (StateT.lift (modify f)) (fun _ => 0) (v₀.At place) :=
    .change hf
  match c with
  | .inl c => exact ⟨False.elim, fun _ => .aside _⟩
  | .inr .invocation => exact ⟨False.elim, fun _ => .seen⟩
  | .inr .proceed => exact ⟨fun _ => h, fun hc => absurd trivial hc⟩
  | .inr (.proceedOnCopy args) => exact ⟨fun _ => h.onCopy args, fun hc => absurd trivial hc⟩
  | .inr (.setArguments args) =>
    exact ⟨False.elim, fun _ => hchange fun v hv => ⟨⟨hv.chain, hv.method⟩, hv.cursor⟩⟩
  | .inr (.setAttribute key o) =>
    exact ⟨False.elim, fun _ => hchange fun v hv => ⟨⟨hv.chain, hv.method⟩, hv.cursor⟩⟩
  | .inr (.removeAttribute key) =>
    exact ⟨False.elim, fun _ => hchange fun v hv => ⟨⟨hv.chain, hv.method⟩, hv.cursor⟩⟩

/-- A unit that proceeds a number of times comes as often to every stop behind it. -/
theorem intercept_visits {i : Interceptor} {k : Nat}
    (hi : (Link.fixed i).Proceeds env v₀.method k)
    (h : Visits (v₀.At place) onward n (v₀.At place)) :
    Visits (v₀.At place) (intercept env plain onward i.action) (fun s => k * n s)
      (v₀.At place) := by
  obtain ⟨id, action⟩ := i
  cases action with
  | user body =>
    exact .program hi (fun c => (performInvocation_visits env plain h c).1)
      fun c => (performInvocation_visits env plain h c).2
  | around body =>
    exact .program hi (fun c => (performAround_visits env plain h c).1)
      fun c => (performAround_visits env plain h c).2
  | _ => exact hi.elim

end Units

/-! ## The chain -/

/-- How often a call comes where, if the units from a place on proceed these numbers of
times. -/
def tally : Nat → List Nat → Stop → Nat
  | _, [], s => if s = .target then 1 else 0
  | place, k :: ks, s => (if s = .unit place then 1 else 0) + k * tally (place + 1) ks s

theorem tally_target (place : Nat) (ks : List Nat) : tally place ks .target = ks.prod := by
  induction ks generalizing place with
  | nil => rfl
  | cons k ks ih => simp [tally, ih]

/-- To a unit a call comes as often as the numbers before it say together. -/
theorem tally_unit (place : Nat) (ks : List Nat) (i : Nat) :
    tally place ks (.unit i)
      = if place ≤ i ∧ i < place + ks.length then (ks.take (i - place)).prod else 0 := by
  induction ks generalizing place with
  | nil =>
    rw [if_neg (by simp)]
    rfl
  | cons k ks ih =>
    have hcons : tally place (k :: ks) (.unit i)
        = (if Stop.unit i = .unit place then 1 else 0) + k * tally (place + 1) ks (.unit i) := rfl
    rw [hcons, ih, List.length_cons]
    by_cases hi : i = place
    · rw [hi, if_pos rfl, if_neg (by omega), if_pos (by omega)]
      simp
    · rw [if_neg (by simpa using hi), Nat.zero_add]
      by_cases hbehind : place + 1 ≤ i ∧ i < place + 1 + ks.length
      · -- one unit further on, with one number more before it
        have hplace : i - place = i - (place + 1) + 1 := by omega
        rw [if_pos hbehind, if_pos (by omega), hplace, List.take_succ_cons, List.prod_cons]
      · rw [if_neg hbehind, if_neg (by omega), Nat.mul_zero]

/-- From a place on the visits are those of the first unit, and as many times those behind it
as the unit proceeds. -/
theorem advance_visits (env : Env σ) (v₀ : Invocation) {ks : List Nat} :
    ∀ {place room : Nat},
      List.Forall₂ (Link.Proceeds env v₀.method) (v₀.chain.drop place) ks →
      ks.length < room →
      Visits (v₀.At place) (advance env room) (tally place ks) v₀.Along := by
  induction ks with
  | nil =>
    intro place room hks hroom
    obtain ⟨room, rfl⟩ := Nat.exists_eq_succ_of_ne_zero (Nat.ne_of_gt hroom)
    refine .looking fun v hv => ?_
    have hend : v.chain[v.cursor]? = none := by
      rw [hv.chain, hv.cursor, ← List.head?_drop, List.forall₂_nil_right_iff.mp hks]
      rfl
    rw [hend]
    -- reaching the target is no more than one stop
    refine ((Visits.note .target).bind fun _ => .aside _).mono (fun _ => id) fun v' hv' => ?_
    exact hv' ▸ hv.toAlong
  | cons k ks ih =>
    intro place room hks hroom
    obtain ⟨room, rfl⟩ := Nat.exists_eq_succ_of_ne_zero (Nat.ne_of_gt (Nat.zero_lt_of_lt hroom))
    obtain ⟨link, rest, hlink, hrest, hdrop⟩ := List.forall₂_cons_right_iff.mp hks
    refine .looking fun v hv => ?_
    have hat : v.chain[v.cursor]? = some link := by
      rw [hv.chain, hv.cursor, ← List.head?_drop, hdrop]
      rfl
    have hbehind : v₀.chain.drop (place + 1) = rest := by
      rw [← List.tail_drop, hdrop]
      rfl
    rw [hat]
    cases link with
    | dynamic i p => exact hlink.elim
    | fixed i =>
      obtain rfl : v.cursor = place := hv.cursor
      have hturn := (ih (hbehind ▸ hrest) (Nat.lt_of_succ_lt_succ hroom)).keepingCursor
      have hmoved : Visits (σ := σ) (· = v)
          (StateT.lift (set { v with cursor := v.cursor + 1 })) (fun _ => 0)
          (v₀.At (v.cursor + 1)) := by
        refine .lift fun v' w a v₁ w₁ _ hr => ?_
        cases hr
        exact ⟨⟨hv.chain, hv.method⟩, rfl⟩
      have hunit := (Visits.note (.unit v.cursor)).bind fun _ =>
        intercept_visits env (Aspects.advance env room).keepingCursor hlink hturn
      have hvisits := (hmoved.bind fun _ => hunit).mono (fun _ => id)
        fun _ (h : v₀.At (v.cursor + 1) _) => h.toAlong
      exact hvisits.of_eq fun s => Nat.zero_add _

/-- Continuing an invocation is one turn from its place on. -/
theorem proceed_visits (env : Env σ) {v₀ : Invocation} {ks : List Nat}
    (hv₀ : v₀.cursor ≤ v₀.chain.length)
    (hks : List.Forall₂ (Link.Proceeds env v₀.method) (v₀.chain.drop v₀.cursor) ks) :
    Visits (v₀.At v₀.cursor) (proceed env) (tally v₀.cursor ks) (v₀.At v₀.cursor) := by
  refine .looking fun v hv => ?_
  have hroom : ks.length < v.chain.length + 1 - v.cursor := by
    rw [← hks.length_eq, List.length_drop, hv.chain, hv.cursor]
    omega
  have hturn := (advance_visits env v₀ hks hroom).keepingCursor
  exact hturn.mono (fun v' hv' => hv' ▸ hv) fun _ => id

end Noting

/-- A call through units of user code, each of which proceeds a number of times whatever comes
of it, is the same call with its stops noted. It comes to each unit as often as the numbers of
those before it say together, to no other, and to the target as often as all the numbers say
together. -/
theorem visits_multiply (env : Env σ) (v : Invocation) (ks : List Nat)
    (hv : v.cursor ≤ v.chain.length)
    (hks : List.Forall₂ (Link.Proceeds env v.method) (v.chain.drop v.cursor) ks) :
    v.run env = (fun r => (r.1.1, r.2)) <$> ((Noting.proceed env).run []).run v ∧
      ∀ w o v' w', v.run env w = some ((o, v'), w') → ∃ stops,
        ((Noting.proceed env).run []).run v w = some (((o, stops), v'), w') ∧
        (∀ i, stops.count (.unit i)
          = if v.cursor ≤ i ∧ i < v.chain.length then (ks.take (i - v.cursor)).prod else 0) ∧
        stops.count .target = ks.prod := by
  have hnoted : v.run env = (fun r => (r.1.1, r.2)) <$> ((Noting.proceed env).run []).run v :=
    (congrFun (Noting.proceed_erases env []) v).symm
  refine ⟨hnoted, fun w o v' w' h => ?_⟩
  rw [hnoted] at h
  obtain ⟨⟨⟨⟨o₁, stops⟩, v₁⟩, w₁⟩, hrun, hk⟩ := Option.bind_eq_some_iff.mp h
  cases hk
  obtain ⟨_, new, hstops, hnew⟩ :=
    Noting.proceed_visits env hv hks [] v w _ stops _ _ ⟨⟨rfl, rfl⟩, rfl⟩ hrun
  rw [List.nil_append] at hstops
  subst hstops
  have hlength : v.cursor + ks.length = v.chain.length := by
    rw [← hks.length_eq, List.length_drop]
    omega
  refine ⟨stops, hrun, fun i => ?_, ?_⟩
  · rw [hnew, Noting.tally_unit, hlength]
  · rw [hnew, Noting.tally_target]

/-- Goes on a number of times and ends with nothing. -/
def Program.again {F : Type → Type} (goOn : F (Outcome Value)) : Nat → Program F (Outcome Value)
  | 0 => .done (.ok none)
  | k + 1 => .issue goOn fun _ => again goOn k

theorem Program.again_proceeds {F : Type → Type} {goesOn : (β : Type) → F β → Prop}
    {goOn : F (Outcome Value)} (h : goesOn _ goOn) (k : Nat) :
    (again goOn k).Proceeds goesOn k := by
  induction k with
  | zero => exact .done _
  | succ k ih => exact .goes h fun _ => ih

/-- User code in which every routine proceeds as often as its number says. -/
def Code.repeating : Code Unit where
  __ := Code.idle
  around r := ExceptT.mk (.again (.inr .proceed) r.id)
  interceptor r := ExceptT.mk (.again (.inr .proceed) r.id)

/-- A call without a target, with advice around it that proceeds twice, and an interceptor
behind that which proceeds three times. -/
def repeatedCall : Invocation where
  proxy := ⟨.root, 0, .entity "proxy"⟩
  target := none
  method := default
  arguments := []
  targetType := none
  chain := [.fixed ⟨0, .around ⟨2⟩⟩, .fixed ⟨1, .user ⟨3⟩⟩]

theorem repeatedCall_visits :
    repeatedCall.cursor ≤ repeatedCall.chain.length ∧
      List.Forall₂ (Link.Proceeds (Engine.env Code.repeating 0) repeatedCall.method)
        repeatedCall.chain [2, 3] ∧
      repeatedCall.run (Engine.env Code.repeating 0) { user := () }
        = some ((.ok none, repeatedCall), { user := () }) ∧
      ∃ stops, ((Noting.proceed (Engine.env Code.repeating 0)).run []).run repeatedCall
          { user := () } = some (((.ok none, stops), repeatedCall), { user := () }) ∧
        stops.count (.unit 0) = 1 ∧ stops.count (.unit 1) = 2 ∧ stops.count .target = 6 := by
  have hunits : List.Forall₂ (Link.Proceeds (Engine.env Code.repeating 0) repeatedCall.method)
      repeatedCall.chain [2, 3] :=
    .cons (Program.again_proceeds trivial 2) (.cons (Program.again_proceeds trivial 3) .nil)
  have hrun : repeatedCall.run (Engine.env Code.repeating 0) { user := () }
      = some ((.ok none, repeatedCall), { user := () }) := rfl
  obtain ⟨_, hvisits⟩ := visits_multiply _ repeatedCall [2, 3] (by decide) hunits
  obtain ⟨stops, hnoted, hcounts, htarget⟩ := hvisits _ _ _ _ hrun
  exact ⟨by decide, hunits, hrun, stops, hnoted, hcounts 0, hcounts 1, htarget⟩

end Aspects
