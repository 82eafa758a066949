import Mathlib.Data.List.TakeWhile
import Aspects.Proofs.Observing.Chains
import Aspects.Proofs.Subtyping.Accepting

/-!
# Chains with introductions

An introduction takes the calls of some methods to its delegate and lets all others pass.
Which ones it takes is a question of types (`introduces_iff`): those that are declared on one
of its interfaces or further up, and those that are declared on the root, for the root accepts
every interface although it is above none.

So among links that observe, a call comes past the links in front of the first introduction
that takes it, or past all of them (`Link.passed`); then it reaches the delegate of that
introduction, or the target; and then it comes back past the links that were entered
(`dispatched`, `continuation_dispatched`). An introduction that it comes past makes no
difference but that the links behind it stand one place further back, which shows in the
messages about links that are skipped and nowhere else (`dispatched_of_untaken`,
`past_of_fixed`).
-/

namespace Aspects

variable {σ : Type}

/-! ## What an introduction takes -/

open TypeDesc in
/-- Of interfaces the methods are introduced that are declared on a class or an interface
that is one of them or above one of them, and all methods of the root. -/
theorem introduces_iff {is : List TypeDesc} (his : ∀ i ∈ is, i.isInterface = true) {m : Method} :
    introduces is m = true ↔
      (m.declaring.IsReference ∧ ∃ i ∈ is, ∃ s, Above s i ∧ m.declaring.same s = true) ∨
        m.declaring = root ∧ is ≠ [] := by
  have hany : introduces is m = true ↔ ∃ i ∈ is, m.declaring.accepts i = true :=
    List.any_eq_true
  rw [hany]
  by_cases href : m.declaring.IsReference
  · by_cases hroot : m.declaring = root
    · -- the root accepts every interface
      constructor
      · rintro ⟨i, hi, _⟩
        exact .inr ⟨hroot, List.ne_nil_of_mem hi⟩
      · intro h
        have hne : is ≠ [] := by
          rcases h with ⟨_, i, hi, _⟩ | ⟨_, hne⟩
          · exact List.ne_nil_of_mem hi
          · exact hne
        obtain ⟨i, hi⟩ := List.exists_mem_of_ne_nil is hne
        refine ⟨i, hi, ?_⟩
        rw [hroot, root_accepts_iff]
        exact .of_isInterface (his i hi)
    · simp only [accepts_iff_exists_above href hroot, href, hroot, true_and, false_and, or_false]
  · -- any other type accepts itself only, and that is no interface
    have hnot : m.declaring ≠ root := by
      intro hroot
      rw [hroot] at href
      exact href (.inl rfl)
    simp only [href, hnot, false_and, or_false, iff_false]
    rintro ⟨i, hi, hacc⟩
    rw [accepts_eq_same href] at hacc
    have hiref : i.IsReference := .of_isInterface (his i hi)
    unfold IsReference at href hiref
    rw [← kind_eq_of_same hacc] at hiref
    exact href hiref

/-! ## Links -/

namespace Link

/-- The object that the link takes calls of the method to. -/
def delegate? (m : Method) : Link → Option Object
  | fixed ⟨_, .introduce delegate is⟩ => if introduces is m then some delegate else none
  | _ => none

/-- The link is an introduction that runs on every call. -/
def isIntroduction : Link → Bool
  | fixed ⟨_, .introduce ..⟩ => true
  | _ => false

/-- The link observes, or it is an introduction. -/
def Serves (env : Env σ) (link : Link) : Prop :=
  link.interceptor.action.Observes env ∨ link.isIntroduction = true

/-- The links that are no introductions, each with its place. -/
def observers (place : Nat) (links : List Link) : List (Link × Nat) :=
  (links.zipIdx place).filter fun x => !x.1.isIntroduction

/-- The links that a call of the method comes past, each with its place: those in front of
the first that takes it to a delegate, the introductions left out. -/
def passed (m : Method) (place : Nat) (links : List Link) : List (Link × Nat) :=
  observers place (links.takeWhile fun link => (link.delegate? m).isNone)

/-- The object that a call of the method comes to instead of the target. -/
def taker? (m : Method) (links : List Link) : Option Object :=
  links.findSome? (·.delegate? m)

/-- No link takes calls of the method to a delegate. -/
def Untaken (m : Method) (links : List Link) : Prop :=
  ∀ link ∈ links, link.delegate? m = none

variable {m : Method} {link : Link} {links rest : List Link} {place : Nat} {d : Object}

theorem delegate?_introduce (m : Method) (number : Nat) (d : Object) (is : List TypeDesc) :
    (fixed ⟨number, .introduce d is⟩).delegate? m = if introduces is m then some d else none :=
  rfl

theorem eq_of_isIntroduction (h : link.isIntroduction = true) :
    ∃ number d is, link = fixed ⟨number, .introduce d is⟩ := by
  cases link with
  | dynamic i p => cases h
  | fixed i =>
    obtain ⟨number, action⟩ := i
    cases action with
    | introduce d is => exact ⟨number, d, is, rfl⟩
    | _ => cases h

theorem delegate?_of_not_introduction (h : link.isIntroduction = false) :
    link.delegate? m = none := by
  cases link with
  | dynamic i p => rfl
  | fixed i =>
    obtain ⟨number, action⟩ := i
    cases action with
    | introduce delegate is => cases h
    | _ => rfl

theorem observers_cons_introduction (h : link.isIntroduction = true) :
    observers place (link :: rest) = observers (place + 1) rest := by
  simp [observers, h]

theorem observers_cons (h : link.isIntroduction = false) :
    observers place (link :: rest) = (link, place) :: observers (place + 1) rest := by
  simp [observers, h]

/-- Without their places. -/
theorem map_fst_observers (place : Nat) (links : List Link) :
    (observers place links).map Prod.fst = links.filter fun link => !link.isIntroduction := by
  induction links generalizing place with
  | nil => rfl
  | cons link rest ih =>
    cases h : link.isIntroduction with
    | true => simp [observers_cons_introduction h, h, ih]
    | false => simp [observers_cons h, h, ih]

theorem passed_cons_taken (h : link.delegate? m = some d) :
    passed m place (link :: rest) = [] := by
  simp [passed, h, observers]

theorem passed_cons_introduction (h : link.delegate? m = none)
    (hintro : link.isIntroduction = true) :
    passed m place (link :: rest) = passed m (place + 1) rest := by
  simp [passed, h, observers_cons_introduction hintro]

theorem passed_cons (h : link.delegate? m = none) (hintro : link.isIntroduction = false) :
    passed m place (link :: rest) = (link, place) :: passed m (place + 1) rest := by
  simp [passed, h, observers_cons hintro]

theorem taker?_cons_taken (h : link.delegate? m = some d) :
    taker? m (link :: rest) = some d := by
  simp [taker?, h]

theorem taker?_cons (h : link.delegate? m = none) :
    taker? m (link :: rest) = taker? m rest := by
  simp [taker?, h]

theorem Untaken.taker? (h : Untaken m links) : taker? m links = none :=
  List.findSome?_eq_none_iff.mpr h

theorem Untaken.passed (h : Untaken m links) (place : Nat) :
    passed m place links = observers place links := by
  unfold Link.passed
  rw [List.takeWhile_eq_self_iff.mpr fun link hlink => by rw [h link hlink]; rfl]

/-- The first link that takes the method decides, and those in front of it are come past. -/
theorem Untaken.taker?_append (h : Untaken m links) (hlink : link.delegate? m = some d) :
    Link.taker? m (links ++ link :: rest) = some d := by
  unfold Link.taker?
  rw [List.findSome?_append, List.findSome?_eq_none_iff.mpr h, Option.none_or]
  exact taker?_cons_taken hlink

theorem Untaken.passed_append (h : Untaken m links) (hlink : link.delegate? m = some d)
    (place : Nat) : Link.passed m place (links ++ link :: rest) = observers place links := by
  unfold Link.passed
  rw [List.takeWhile_append_of_pos fun link' hlink' => by rw [h link' hlink']; rfl]
  rw [List.takeWhile_cons_of_neg (by rw [hlink]; exact Bool.false_ne_true), List.append_nil]

end Link

/-! ## The way of a call -/

section Dispatching

variable (env : Env σ) (jp : JoinPoint)

/-- The way in past links whose places are given; it answers what was entered. -/
def inwardPast (targetType : Option TypeDesc) : List (Link × Nat) → Run σ (List Interception)
  | [] => return []
  | (.fixed i, _) :: rest => do
    enter env jp i.action
    return i.action :: (← inwardPast targetType rest)
  | (.dynamic i p, place) :: rest => do
    if ← p.matchesRuntime env jp.method targetType jp.args then
      enter env jp i.action
      return i.action :: (← inwardPast targetType rest)
    else
      emit .trace "Runtime match failed, skipping interceptor"
        [("method", jp.method.signature), ("index", toString place)]
      inwardPast targetType rest

/-- What the call comes to: the target, or the delegate that takes it, in whose place the
proxy is answered if it returns itself. -/
def answered : Option Object → Act σ Value
  | none => reachTarget env jp.target jp.method jp.args
  | some delegate => do
    let value ← reachTarget env (some delegate) jp.method jp.args
    return if value.any (·.same delegate) then some jp.this else value

/-- A call on its way in past the links, to what it comes to behind them, and out again. -/
def past (targetType : Option TypeDesc) (links : List (Link × Nat)) (reached : Act σ Value) :
    Run σ (Outcome Value) := do
  let entered ← inwardPast env jp targetType links
  let outcome ← reached.run
  outward env jp outcome entered
  return outcome

/-- A call on its way to the delegate that takes it, or to the target. -/
def dispatched (targetType : Option TypeDesc) (place : Nat) (links : List Link) :
    Run σ (Outcome Value) :=
  past env jp targetType (Link.passed jp.method place links)
    (answered env jp (Link.taker? jp.method links))

end Dispatching

variable {env : Env σ} {jp : JoinPoint} {targetType : Option TypeDesc} {link : Link}
  {rest : List Link} {place : Nat}

/-- A delegate without the method fails, as any object does. -/
theorem answered_of_missing {delegate : Object} (hplain : delegate.isProxy = false)
    (hmissing : delegate.type.findImplementation jp.method.key = none) :
    answered env jp (some delegate)
      = Act.fail (.noSuchMethod delegate.type.name jp.method.key.display) := by
  unfold answered reachTarget runMethod
  simp only [hplain, hmissing, Bool.false_eq_true, if_false]
  rfl

theorem past_nil (reached : Act σ Value) : past env jp targetType [] reached = reached.run := by
  simp only [past, inwardPast, outward, pure_bind, bind_pure]

/-- A link that runs on every call is entered in front of what is behind it and left after
that. -/
theorem past_fixed (i : Interceptor) (links : List (Link × Nat)) (reached : Act σ Value) :
    past env jp targetType ((.fixed i, place) :: links) reached = do
      enter env jp i.action
      let outcome ← past env jp targetType links reached
      leave env jp outcome i.action
      return outcome := by
  simp only [past, inwardPast, outward, bind_assoc, pure_bind]

/-- One that is not entered is not left either. -/
theorem past_dynamic (i : Interceptor) (p : Pointcut) (links : List (Link × Nat))
    (reached : Act σ Value) :
    past env jp targetType ((.dynamic i p, place) :: links) reached = (do
      if ← p.matchesRuntime env jp.method targetType jp.args then
        enter env jp i.action
        let outcome ← past env jp targetType links reached
        leave env jp outcome i.action
        return outcome
      else
        emit .trace "Runtime match failed, skipping interceptor"
          [("method", jp.method.signature), ("index", toString place)]
        past env jp targetType links reached) := by
  simp only [past, inwardPast, bind_assoc]
  refine bind_congr fun matched => ?_
  cases matched with
  | true => simp only [if_true, outward, bind_assoc, pure_bind]
  | false => simp only [Bool.false_eq_true, if_false, bind_assoc]

/-- The places of links that run on every call make no difference. -/
theorem past_of_fixed {here there : List (Link × Nat)} (reached : Act σ Value)
    (hfixed : ∀ x ∈ here, ∃ i, x.1 = .fixed i) (hsame : here.map Prod.fst = there.map Prod.fst) :
    past env jp targetType here reached = past env jp targetType there reached := by
  induction here generalizing there with
  | nil =>
    rw [List.map_eq_nil_iff.mp hsame.symm]
  | cons x here ih =>
    obtain ⟨y, there', rfl, hfst, hrest⟩ := List.map_eq_cons_iff.mp hsame.symm
    obtain ⟨i, hi⟩ := hfixed x List.mem_cons_self
    have hbehind := ih (fun x' hx' => hfixed x' (List.mem_cons_of_mem _ hx')) hrest.symm
    obtain ⟨link, place⟩ := x
    obtain ⟨link', place'⟩ := y
    subst hi hfst
    rw [past_fixed, past_fixed, hbehind]

/-- A chain in which all links observe, said the same way. -/
theorem passThrough_eq_past (env : Env σ) (jp : JoinPoint) (targetType : Option TypeDesc)
    (place : Nat) (links : List Link) :
    passThrough env jp targetType place links
      = past env jp targetType (links.zipIdx place)
          (reachTarget env jp.target jp.method jp.args) := by
  have hinward : inward env jp targetType place links
      = inwardPast env jp targetType (links.zipIdx place) := by
    induction links generalizing place with
    | nil => rfl
    | cons link rest ih =>
      cases link with
      | fixed i => simp only [inward, List.zipIdx_cons, inwardPast, ih]
      | dynamic i p => simp only [inward, List.zipIdx_cons, inwardPast, ih]
  unfold passThrough past
  rw [hinward]

/-- Where no link takes the call, it comes past all that observe, and reaches the target. -/
theorem dispatched_of_untaken {links : List Link} (h : Link.Untaken jp.method links) :
    dispatched env jp targetType place links
      = past env jp targetType (Link.observers place links)
          (reachTarget env jp.target jp.method jp.args) := by
  unfold dispatched
  rw [h.passed, h.taker?]
  rfl

/-- Where a link takes it, it comes past those in front of that, and what is behind is never
come to. -/
theorem dispatched_of_taken {front : List Link} {d : Object}
    (hfront : Link.Untaken jp.method front) (h : link.delegate? jp.method = some d) :
    dispatched env jp targetType place (front ++ link :: rest)
      = past env jp targetType (Link.observers place front) (answered env jp (some d)) := by
  unfold dispatched
  rw [hfront.passed_append h, hfront.taker?_append h]

/-! ## The whole chain -/

/-- An introduction that does not take the method lets pass what is behind it. -/
theorem introduced_passing {here : Invocation} {behind : Leg σ Value} {delegate : Object}
    {is : List TypeDesc} (h : introduces is here.method = false) {l : Luggage}
    {r : Run σ (Outcome Value)} (hbehind : behind.Brings l r) :
    (Leg.introduced env here behind delegate is).Brings l r := by
  refine .looking ?_
  rw [if_neg (by rw [h]; exact Bool.false_ne_true)]
  exact hbehind

/-- One that takes it brings what the delegate answers. -/
theorem introduced_taking {here : Invocation} {behind : Leg σ Value} {delegate : Object}
    {is : List TypeDesc} (h : introduces is here.method = true) {l : Luggage} :
    (Leg.introduced env here behind delegate is).Brings l
      (answered env (here.carrying l).joinPoint (some delegate)).run := by
  refine .looking ?_
  rw [if_pos h]
  unfold answered
  rw [ExceptT.run_bind]
  exact .andThen (.ofAct _) (fun value => .succeed _) fun e => rfl

/-- A chain of links that observe and of introductions brings what the call is dispatched
to. -/
theorem continuation_dispatched {v : Invocation} {l : Luggage}
    (hrest : ∀ link ∈ rest, link.Serves env) : ∀ place,
      (continuation env v place rest).Brings l
        (dispatched env (v.carrying l).joinPoint v.targetType place rest) := by
  induction rest with
  | nil =>
    intro place
    have hend : dispatched env (v.carrying l).joinPoint v.targetType place []
        = (reachTarget env v.target v.method l.arguments).run := past_nil _
    rw [hend]
    exact .looking (.ofAct _)
  | cons link rest ih =>
    intro place
    have hlink := hrest link List.mem_cons_self
    have hbehind := ih (fun link' h => hrest link' (List.mem_cons_of_mem _ h)) (place + 1)
    unfold dispatched at hbehind ⊢
    have hmethod : (v.carrying l).joinPoint.method = v.method := rfl
    rw [hmethod] at hbehind ⊢
    cases hintro : link.isIntroduction with
    | false =>
      -- a link that observes, whatever else is behind it
      have hobserves := hlink.resolve_right (by rw [hintro]; exact Bool.false_ne_true)
      have hnone := Link.delegate?_of_not_introduction (m := v.method) hintro
      have hentered : (Leg.intercepted env (v.movedTo (place + 1))
          (continuation env v (place + 1) rest) link.interceptor.action).Brings l _ :=
        intercepted_observing hobserves hbehind
      rw [Link.passed_cons hnone hintro, Link.taker?_cons hnone]
      cases link with
      | fixed i =>
        rw [past_fixed]
        exact hentered
      | dynamic i p =>
        rw [past_dynamic]
        refine .looking (.ofRun fun matched => ?_)
        cases matched with
        | true => exact hentered
        | false => exact .ofRun fun _ => hbehind
    | true =>
      obtain ⟨number, delegate, is, rfl⟩ := Link.eq_of_isIntroduction hintro
      have hdelegate := Link.delegate?_introduce v.method number delegate is
      cases htakes : introduces is v.method with
      | true =>
        rw [htakes, if_pos rfl] at hdelegate
        rw [Link.passed_cons_taken hdelegate, Link.taker?_cons_taken hdelegate, past_nil]
        exact introduced_taking htakes
      | false =>
        rw [htakes, if_neg Bool.false_ne_true] at hdelegate
        rw [Link.passed_cons_introduction hdelegate hintro, Link.taker?_cons hdelegate]
        exact introduced_passing htakes hbehind

end Aspects
