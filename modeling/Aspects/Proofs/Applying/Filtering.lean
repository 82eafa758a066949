import Aspects.Catalogue
import Aspects.Proofs.Applying.Stances
import Aspects.Proofs.Selecting.Stages

/-!
# Chains of filtered advisors

An advisor that cannot apply to a type is taken out before a chain is made for one of its
methods, and then nobody asks for its class again. Where pointcuts are pure this gives the
chain that all the advisors give, each asked about the class and the method
(`filtered_chain_eq_plain`).

What an advisor contributes follows from the stance of its pointcut, so one that was taken
out contributes nothing. The chain of those that stay is compared with that of all in two
runs side by side (`Run.Agree`): whoever stays makes the same of its turn in both, and the
interceptors made for it get the same numbers, because the worlds stay alike.
-/

namespace Aspects

variable {σ : Type} {env : Env σ} {S : World σ → Prop} {α β : Type} {t : TypeDesc}
  {m : Method}

/-! ## Filtering -/

namespace Stance

/-- The method is not ruled out. -/
def selects (s : Stance) (m : Method) (t : Option TypeDesc) : Bool :=
  match s.verdict m t with
  | .ok .always => true
  | .ok .maybe => true
  | _ => false

/-- The advisor, whose pointcut takes the stance, can apply to the type. -/
def applies (s : Stance) (a : Advisor) (t : TypeDesc) : Bool :=
  s.passes t && (a.isIntroduction || t.allMethods.any fun m => s.selects m (some t))

end Stance

namespace Catalogue

theorem anyMethod_gives {p : Pointcut} {s : Stance} {ms : List Method}
    (h : ∀ m ∈ ms, Run.Gives S (p.matchesMethod env m (some t)).run (s.verdict m (some t))) :
    Run.Gives S (anyMethod env p t ms) (ms.any fun m => s.selects m (some t)) := by
  induction ms with
  | nil => exact .pure false
  | cons m ms ih =>
    have hrest := ih fun m' hm' => h m' (List.mem_cons_of_mem _ hm')
    unfold anyMethod
    refine .bind (h m List.mem_cons_self) ?_
    rw [List.any_cons, Stance.selects]
    cases s.verdict m (some t) with
    | error f => exact hrest
    | ok v =>
      cases v with
      | always => exact .pure true
      | maybe => exact .pure true
      | never => exact hrest

theorem canApply_gives {a : Advisor} {s : Stance} (h : a.pointcut.Takes env S t s) :
    Run.Gives S (canApply env a t) (s.applies a t) := by
  unfold canApply Stance.applies
  refine .bind h.matchesClass ?_
  cases s.passes t with
  | false => exact .pure false
  | true =>
    by_cases hadvisor : a.isIntroduction = true
    · rw [hadvisor]
      exact .pure true
    · rw [if_neg hadvisor, Bool.eq_false_iff.mpr hadvisor]
      exact anyMethod_gives h.matchesMethod

theorem keepApplicable_gives {stance : Pointcut → Stance} {as : List Advisor}
    (h : ∀ a ∈ as, a.pointcut.Takes env S t (stance a.pointcut)) :
    Run.Gives S (keepApplicable env t as)
      (as.filter fun a => (stance a.pointcut).applies a t) := by
  induction as with
  | nil => exact .pure []
  | cons a as ih =>
    have hrest := ih fun b hb => h b (List.mem_cons_of_mem _ hb)
    unfold keepApplicable
    refine .bind (canApply_gives (h a List.mem_cons_self)) (.bind hrest ?_)
    rw [List.filter_cons]
    exact .pure _

end Catalogue

/-! ## Two runs side by side -/

/-- The worlds give out the same number next, and have the same adapters. -/
structure World.Alike (w v : World σ) : Prop where
  serial_eq : v.serial = w.serial
  adapters_eq : v.adapters = w.adapters

theorem World.Alike.symm {w v : World σ} (h : w.Alike v) : v.Alike w :=
  ⟨h.serial_eq.symm, h.adapters_eq.symm⟩

theorem World.Alike.trans {w v u : World σ} (h : w.Alike v) (h' : v.Alike u) : w.Alike u :=
  ⟨h'.serial_eq.trans h.serial_eq, h'.adapters_eq.trans h.adapters_eq⟩

theorem World.Ponders.alike {w w' : World σ} (h : w.Ponders w') : w.Alike w' := by
  obtain ⟨memories, journal, rfl⟩ := h
  exact ⟨rfl, rfl⟩

/-- From worlds of the sort that are alike both runs give one answer and lead to such
worlds again. -/
def Run.Agree (S : World σ → Prop) (r r' : Run σ α) : Prop :=
  ∀ w v, S w → S v → w.Alike v →
    ∃ a w' v', r w = some (a, w') ∧ r' v = some (a, v') ∧ S w' ∧ S v' ∧ w'.Alike v'

namespace Run.Agree

theorem pure (a : α) : Agree S (Pure.pure a) (Pure.pure a) :=
  fun w v hw hv halike => ⟨a, w, v, rfl, rfl, hw, hv, halike⟩

theorem bind {r r' : Run σ α} {k k' : α → Run σ β} (hr : Agree S r r')
    (hk : ∀ a, Agree S (k a) (k' a)) : Agree S (r >>= k) (r' >>= k') := by
  intro w v hw hv halike
  obtain ⟨a, w₁, v₁, hrun, hrun', hw₁, hv₁, halike₁⟩ := hr w v hw hv halike
  obtain ⟨b, w₂, v₂, hrest, hrest', hw₂, hv₂, halike₂⟩ := hk a w₁ v₁ hw₁ hv₁ halike₁
  exact ⟨b, w₂, v₂, (run_bind_of_some hrun k).trans hrest,
    (run_bind_of_some hrun' k').trans hrest', hw₂, hv₂, halike₂⟩

/-- A run that gives one answer from all worlds of the sort agrees with itself. -/
theorem of_gives {r : Run σ α} {a : α} (h : Gives S r a) : Agree S r r := by
  intro w v hw hv halike
  obtain ⟨w', hrun, hponders, hw'⟩ := h w hw
  obtain ⟨v', hrun', hponders', hv'⟩ := h v hv
  have halike' : w'.Alike v' := hponders.alike.symm.trans (halike.trans hponders'.alike)
  exact ⟨a, w', v', hrun, hrun', hw', hv', halike'⟩

/-- What the second run does before may be left out if it gives one answer. -/
theorem after_gives {r : Run σ β} {q : Run σ α} {k : α → Run σ β} {a : α}
    (hq : Gives S q a) (hk : Agree S r (k a)) : Agree S r (q >>= k) := by
  intro w v hw hv halike
  obtain ⟨v₁, hrun, hponders, hv₁⟩ := hq v hv
  have halike₁ : w.Alike v₁ := halike.trans hponders.alike
  obtain ⟨b, w₂, v₂, hrest, hrest', hw₂, hv₂, halike₂⟩ := hk w v₁ hw hv₁ halike₁
  refine ⟨b, w₂, v₂, hrest, ?_, hw₂, hv₂, halike₂⟩
  show (q v).bind _ = _
  rw [hrun]
  exact hrest'

theorem andThen {x x' : Act σ α} {k k' : α → Act σ β} (hx : Agree S x.run x'.run)
    (hk : ∀ a, Agree S (k a).run (k' a).run) : Agree S (x >>= k).run (x' >>= k').run := by
  rw [ExceptT.run_bind, ExceptT.run_bind]
  refine bind hx fun o => ?_
  cases o with
  | ok a => exact hk a
  | error f => exact pure _

theorem branch (c : Prop) [Decidable c] {r r' q q' : Run σ α} (h : Agree S r q)
    (h' : Agree S r' q') : Agree S (if c then r else r') (if c then q else q') := by
  split
  · exact h
  · exact h'

end Run.Agree

/-- Being of the sort is a matter of memories. -/
def OnMemories (S : World σ → Prop) : Prop :=
  ∀ w w', w'.memories = w.memories → S w → S w'

theorem Run.Gives.emit (hS : OnMemories S) (level : Level) (message : String)
    (fields : List (String × String)) :
    Gives S (Aspects.emit level message fields : Run σ Unit) () :=
  fun w hw => ⟨_, rfl, ⟨_, _, rfl⟩, hS w _ rfl hw⟩

/-! ## Chains -/

namespace Adapter

theorem number_agree (hS : OnMemories S) (actions : List Interception) :
    Run.Agree S (number actions) (number actions) := by
  intro w v hw hv halike
  induction actions generalizing w v with
  | nil => exact ⟨[], w, v, rfl, rfl, hw, hv, halike⟩
  | cons action actions ih =>
    obtain ⟨made, w', v', hrun, hrun', hw', hv', halike'⟩ :=
      ih { w with serial := w.serial + 1 } { v with serial := v.serial + 1 }
        (hS w _ rfl hw) (hS v _ rfl hv) ⟨by rw [halike.serial_eq], halike.adapters_eq⟩
    refine ⟨⟨w.serial, action⟩ :: made, w', v', ?_, ?_, hw', hv', halike'⟩
    · rw [number_cons, hrun]
      rfl
    · rw [number_cons, hrun', halike.serial_eq]
      rfl

theorem interceptors_agree (hS : OnMemories S) (adapters : AdaptersId) (a : Advisor) :
    Run.Agree S (do interceptors ((← Act.world).adapterList adapters) a : Act σ _).run
      (do interceptors ((← Act.world).adapterList adapters) a : Act σ _).run := by
  intro w v hw hv halike
  rw [Act.run_world, Act.run_world]
  have hadapters : v.adapterList adapters = w.adapterList adapters := by
    unfold World.adapterList
    rw [halike.adapters_eq]
  rw [hadapters]
  have hmade : Run.Agree S (interceptors (w.adapterList adapters) a : Act σ _).run
      (interceptors (w.adapterList adapters) a).run := by
    refine .andThen ?_ fun actions => .andThen ?_ fun made => .branch _ (.pure _) (.pure _)
    · cases interceptions (w.adapterList adapters) a.advice with
      | ok actions => exact .pure _
      | error f => exact .pure _
    · exact .bind (number_agree hS actions) fun made => .pure _
  exact hmade w v hw hv halike

end Adapter

namespace Chain

variable (adapters : AdaptersId) {a : Advisor} {s : Stance}

/-- An advisor whose class filter was passed or waived makes the same of its turn. -/
theorem linksOf_agree (hS : OnMemories S) (hm : m ∈ t.allMethods)
    (h : a.pointcut.Takes env S t s) :
    Run.Agree S (linksOf env adapters a m (some t)).run
      (linksOf env adapters a m (some t)).run := by
  have hmade := Adapter.interceptors_agree hS adapters a
  unfold linksOf
  by_cases hadvisor : a.isIntroduction = true
  · rw [if_pos hadvisor]
    exact .andThen hmade fun _ => .pure _
  · rw [if_neg hadvisor]
    refine .andThen (.bind (.of_gives (h.matchesMethod m hm)) fun _ => .pure _) fun o => ?_
    match o with
    | .ok .always => exact .andThen hmade fun _ => .pure _
    | .ok .maybe =>
      refine .andThen (.bind (.of_gives (h.residueFor m hm)) fun _ => .pure _) fun rest => ?_
      exact .andThen hmade fun _ => .pure _
    | .ok .never => exact .pure _
    | .error f =>
      exact .andThen (.bind (.of_gives (.emit hS _ _ _)) fun _ => .pure _) fun _ => .pure _

/-- An advisor that does not select the method, and is no introduction, has no links. -/
theorem linksOf_gives_nil (hS : OnMemories S) (hm : m ∈ t.allMethods)
    (h : a.pointcut.Takes env S t s) (hadvisor : ¬a.isIntroduction = true)
    (hselects : s.selects m (some t) = false) :
    Run.Gives S (linksOf env adapters a m (some t)).run (.ok []) := by
  unfold linksOf
  rw [if_neg hadvisor]
  refine .ofRun (h.matchesMethod m hm) ?_
  unfold Stance.selects at hselects
  cases hverdict : s.verdict m (some t) with
  | error f => exact .ofRun (.emit hS _ _ _) (.pure _)
  | ok v =>
    rw [hverdict] at hselects
    cases v with
    | never => exact .pure _
    | always => cases hselects
    | maybe => cases hselects

/-- With the class filter asked, an advisor that cannot apply to the type contributes
nothing. -/
theorem turn_gives_nil (hS : OnMemories S) (hm : m ∈ t.allMethods)
    (h : a.pointcut.Takes env S t s) (hout : s.applies a t = false) :
    Run.Gives S (turn env adapters false m (some t) a).run (.ok []) := by
  unfold turn
  refine .ofRun h.matchesClass ?_
  unfold Stance.applies at hout
  cases hpasses : s.passes t with
  | false => exact .pure _
  | true =>
    rw [hpasses, Bool.true_and] at hout
    obtain ⟨hadvisor, hnone⟩ := Bool.or_eq_false_iff.mp hout
    have hselects : s.selects m (some t) = false :=
      Bool.eq_false_iff.mpr (List.any_eq_false.mp hnone m hm)
    exact linksOf_gives_nil adapters hS hm h (Bool.eq_false_iff.mp hadvisor) hselects

/-- One that can apply contributes the same whether or not its class is asked about. -/
theorem turn_agree (hS : OnMemories S) (hm : m ∈ t.allMethods)
    (h : a.pointcut.Takes env S t s) (happlies : s.applies a t = true) :
    Run.Agree S (turn env adapters true m (some t) a).run
      (turn env adapters false m (some t) a).run := by
  have hpasses : s.passes t = true := (Bool.and_eq_true_iff.mp happlies).1
  have hclass : (turn env adapters false m (some t) a).run
      = a.pointcut.matchesClass env t >>= fun passed =>
          (if passed then linksOf env adapters a m (some t) else pure []).run :=
    funext fun _ => Act.run_ofRun _ _ _
  rw [hclass]
  refine .after_gives h.matchesClass ?_
  rw [if_pos hpasses]
  exact linksOf_agree adapters hS hm h

theorem linksOfAll_agree {stance : Pointcut → Stance} (hS : OnMemories S)
    (hm : m ∈ t.allMethods) {as : List Advisor}
    (h : ∀ a ∈ as, a.pointcut.Takes env S t (stance a.pointcut)) :
    Run.Agree S
      (linksOfAll env adapters true m (some t)
        (as.filter fun a => (stance a.pointcut).applies a t)).run
      (linksOfAll env adapters false m (some t) as).run := by
  induction as with
  | nil => exact .pure _
  | cons a as ih =>
    have ha := h a List.mem_cons_self
    have hrest := ih fun b hb => h b (List.mem_cons_of_mem _ hb)
    by_cases happlies : (stance a.pointcut).applies a t = true
    · rw [List.filter_cons, if_pos happlies, linksOfAll_cons, linksOfAll_cons]
      refine .andThen (turn_agree adapters hS hm ha happlies) fun links => ?_
      exact .andThen hrest fun _ => .pure _
    · rw [List.filter_cons, if_neg happlies, linksOfAll_cons, ExceptT.run_bind]
      refine .after_gives (turn_gives_nil adapters hS hm ha (Bool.eq_false_iff.mpr happlies)) ?_
      -- what follows an empty piece is the rest itself
      simpa using hrest

theorem standard_agree {stance : Pointcut → Stance} (hS : OnMemories S)
    (hm : m ∈ t.allMethods) {as : List Advisor}
    (h : ∀ a ∈ as, a.pointcut.Takes env S t (stance a.pointcut)) :
    Run.Agree S
      (standard env adapters (as.filter fun a => (stance a.pointcut).applies a t) true m
        (some t)).run
      (standard env adapters as false m (some t)).run := by
  refine .andThen (linksOfAll_agree adapters hS hm h) fun links => ?_
  exact .andThen (.bind (.of_gives (.emit hS _ _ _)) fun _ => .pure _) fun _ => .pure _

end Chain

/-- For candidates with pure pointcuts, whatever their memories hold, and a method that is
visible on the type: those of the candidates that can apply to the type are found, and said
to be filtered they give the chain, or the failure, that all the candidates give, the
introductions first. -/
theorem filtered_chain_eq_plain {tests : Tests} {views : Routine → Stance}
    {owner : MemoId → Expr} {candidates : List Advisor} {w : World σ}
    (h : ∀ a ∈ candidates, a.pointcut.Pure env tests views owner t w)
    (hm : m ∈ t.allMethods) (adapters : AdaptersId) :
    ∃ kept w₁ o w₂ w₃,
      Catalogue.applicable env candidates t w = some (kept, w₁) ∧
      (Chain.standard env adapters kept true m (some t)).run w₁ = some (o, w₂) ∧
      (Chain.standard env adapters (Catalogue.introductionsFirst candidates) false m
        (some t)).run w = some (o, w₃) := by
  let stance := Pointcut.stance tests views w
  have hS : OnMemories (World.Concurs tests owner t w) := fun _ _ hsame hw => hw.of_memories hsame
  have htakes : ∀ a ∈ Catalogue.introductionsFirst candidates,
      a.pointcut.Takes env (World.Concurs tests owner t w) t (stance a.pointcut) := by
    intro a ha
    unfold Catalogue.introductionsFirst at ha
    rcases List.mem_append.mp ha with ha | ha
    · exact (h a (List.mem_filter.mp ha).1).takes
    · exact (h a (List.mem_filter.mp ha).1).takes
  obtain ⟨w₁, hkept, hponders, hw₁⟩ := Catalogue.keepApplicable_gives htakes w (.refl w)
  obtain ⟨o, w₂, w₃, hfiltered, hplain, _⟩ :=
    Chain.standard_agree adapters hS hm htakes w₁ w hw₁ (.refl w) hponders.alike.symm
  exact ⟨_, w₁, o, w₂, w₃, hkept, hfiltered, hplain⟩

/-- A type with one method. -/
def ledger : TypeDesc :=
  .named "Ledger" .classKind none [] [⟨"post", [], .void, none⟩]

/-- Advice before calls, with a pointcut of the user's. -/
def unsure : Advisor where
  id := 1
  pointcut := .user "unsure" ⟨1⟩
  advice := .before ⟨1⟩

/-- Pointcuts of the user do not know what to say of methods. -/
def Code.clueless : Code Unit :=
  { Code.idle with matchesMethod := fun _ _ _ => throw (.fault .noTargetOrAdvisors) }

/-- One advisor's pointcut fails, the other's has a memory and leaves the match open. -/
theorem gatekeeper_filtered :
    ∃ w₁ o w₂ w₃,
      Catalogue.applicable (Engine.env Code.clueless 0) [unsure, gatekeeper] ledger
        { user := (), memories := #[[]] } = some ([gatekeeper], w₁) ∧
      (Chain.standard (Engine.env Code.clueless 0) ⟨0⟩ [gatekeeper] true
        ⟨ledger, "post", [], .void⟩ (some ledger)).run w₁ = some (o, w₂) ∧
      (Chain.standard (Engine.env Code.clueless 0) ⟨0⟩ [unsure, gatekeeper] false
        ⟨ledger, "post", [], .void⟩ (some ledger)).run { user := (), memories := #[[]] }
          = some (o, w₃) := by
  have hledger : ledger.allMethods = [⟨ledger, "post", [], .void⟩] := by cbv
  have hpure : ∀ a ∈ [unsure, gatekeeper], a.pointcut.Pure (Engine.env Code.clueless 0)
      ⟨fun _ _ _ => .ok true, fun _ _ => true⟩
      (fun _ => ⟨fun _ => true, fun _ _ => .error (.fault .noTargetOrAdvisors),
        fun _ _ => none⟩)
      (fun _ => .argsMatching ⟨0⟩) ledger { user := (), memories := #[[]] } := by
    intro a ha
    rw [List.mem_cons, List.mem_singleton] at ha
    rcases ha with rfl | rfl
    · exact Pointcut.user_pure (fun _ => rfl) (fun _ _ => rfl) (fun _ _ => rfl) _
    · exact ⟨rfl, fun _ => rfl⟩
  obtain ⟨kept, w₁, o, w₂, w₃, hkept, hfiltered, hplain⟩ :=
    filtered_chain_eq_plain hpure (hledger ▸ List.mem_singleton_self _) ⟨0⟩
  have hgatekeeper : kept = [gatekeeper] := by
    replace hkept : Catalogue.keepApplicable _ ledger [unsure, gatekeeper] _ = _ := hkept
    simp only [Catalogue.keepApplicable, Catalogue.canApply, hledger] at hkept
    cases hkept
    rfl
  subst hgatekeeper
  exact ⟨w₁, o, w₂, w₃, hkept, hfiltered, hplain⟩

end Aspects
