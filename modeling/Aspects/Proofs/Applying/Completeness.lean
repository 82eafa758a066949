import Aspects.Proofs.Applying.Filtering
import Aspects.Proofs.Selecting.Recalling

/-!
# Advisors that are dropped although they select a method

Whether an advisor can apply to a type is asked about the visible methods alone, of each
key the nearest declaration. A call may come with another declaration of the method, the
one of an interface that the type implements. A pointcut with a memory looks at the method
as the type carries it out, and this is mostly one for all declarations with the key; but
where it cannot be resolved, the pointcut falls back on the declaration it was asked about,
and then it may select the one and rule out the other.

`applies_unless_hidden` says when an advisor is dropped that would be selected for some
method declared in the hierarchy: only if the method is hidden by a visible one, which is
ruled out although it has the same key (`Hides`). `hidden_match_dropped` is such a case.
-/

namespace Aspects

variable {σ : Type} {env : Env σ} {tests : Tests} {t : TypeDesc} {m m₀ : Method}
  {id : MemoId} {e : Expr} {w w' : World σ}

/-- The visible method hides the other one: it has the same key and is ruled out. Unless a
memory holds something wrong about one of them, the two are carried out as different
methods, or the expression cannot be resolved for the method as which both are carried
out. -/
structure Hides (tests : Tests) (w : World σ) (id : MemoId) (e : Expr) (t : TypeDesc)
    (m₀ m : Method) : Prop where
  visible : m₀ ∈ t.allMethods
  hidden : m ∉ t.allMethods
  key_eq : m₀.key = m.key
  ruledOut : w.recall tests id e m₀ (some t) = .const false
  unresolved : w.recall tests id e m₀ (some t) = e.shapeResidue tests m₀ (some t) →
    w.recall tests id e m (some t) = e.shapeResidue tests m (some t) →
    m₀.shapeFor (some t) = m.shapeFor (some t) →
    ∃ f, e.resolvePure tests.method (m.shapeFor (some t)) t = .error f

/-- Where the expression can be resolved for a method as the type carries it out, that is
all that counts. -/
theorem Expr.shapeResidue_of_ok {r : Residue}
    (h : e.resolvePure tests.method (m.shapeFor (some t)) t = .ok r) :
    e.shapeResidue tests m (some t) = r := by
  unfold Expr.shapeResidue
  rw [Option.getD_some, h]

/-- Only the constant rules every call out. -/
theorem Residue.verdict_ne_never {r : Residue} : r.verdict ≠ .never ↔ r ≠ .const false := by
  refine ⟨fun h hr => h ?_, fun h hr => h (eq_const_of_verdict (b := false) hr)⟩
  rw [hr]
  rfl

theorem Stance.selects_of_ok {s : Stance} {t : Option TypeDesc} {r : Residue}
    (h : s.verdict m t = .ok r.verdict) : s.selects m t = true ↔ r ≠ .const false := by
  rw [← Residue.verdict_ne_never]
  unfold Stance.selects
  rw [h]
  cases r.verdict with
  | always => simp
  | maybe => simp
  | never => simp

/-- Asked about a type that it does not keep out, an advisor whose pointcut has a memory
cannot apply exactly if it is no introduction and all visible methods are ruled out. -/
theorem Catalogue.canApply_memo {a : Advisor} {source : Option String}
    (ha : a.pointcut = .memo id e source) (h : e.TestedBy env tests)
    (hclass : e.matchesType t = true) (w : World σ) :
    ∃ answer w', canApply env a t w = some (answer, w') ∧
      (answer = false ↔ a.isIntroduction = false ∧
        ∀ m ∈ t.allMethods, w.recall tests id e m (some t) = .const false) := by
  have htakes : a.pointcut.Takes env (World.Concurs tests (fun _ => e) t w) t
      (a.pointcut.stance tests default w) := by
    have hpure : a.pointcut.Pure env tests default (fun _ => e) t w := by
      rw [ha]
      exact ⟨rfl, h⟩
    exact hpure.takes
  obtain ⟨w', hrun, _⟩ := canApply_gives htakes w (.refl w)
  refine ⟨_, w', hrun, ?_⟩
  have hselects : ∀ m, (a.pointcut.stance tests default w).selects m (some t) = false ↔
      w.recall tests id e m (some t) = .const false := by
    intro m
    rw [← not_iff_not, Bool.not_eq_false]
    exact Stance.selects_of_ok (by rw [ha]; rfl)
  have hpasses : (a.pointcut.stance tests default w).passes t = true := by
    rw [ha]
    exact hclass
  unfold Stance.applies
  rw [hpasses, Bool.true_and, Bool.or_eq_false_iff, List.any_eq_false]
  simp only [Bool.not_eq_true, hselects]

/-- If the pointcut of an advisor does not keep the type out, and does not rule out a method
that is declared somewhere in its hierarchy, whether or not it is visible, then the advisor
can apply to the type, unless it is no introduction and all visible methods are ruled out;
and then one of these hides the method. -/
theorem applies_unless_hidden {a : Advisor} {source : Option String}
    (ha : a.pointcut = .memo id e source) (h : e.TestedBy env tests) {s : TypeDesc}
    (hs : s ∈ t.hierarchy) (hm : m ∈ s.declaredMethods) {w₁ w₂ : World σ} {v : Verdict}
    (hclass : a.pointcut.matchesClass env t w = some (true, w₁))
    (hmethod : (a.pointcut.matchesMethod env m (some t)).run w₁ = some (.ok v, w₂))
    (hv : v ≠ .never) :
    ∃ answer w', Catalogue.canApply env a t w = some (answer, w') ∧
      (answer = false ↔ a.isIntroduction = false ∧
        ∀ m' ∈ t.allMethods, w.recall tests id e m' (some t) = .const false) ∧
      (answer = false → ∃ m₀, Hides tests w id e t m₀ m) := by
  -- the class filter is asked without any effect, and the method is asked about in `w`
  rw [ha] at hclass hmethod
  obtain ⟨hpasses, rfl⟩ : e.matchesType t = true ∧ w = w₁ :=
    Prod.mk.inj (Option.some.inj hclass)
  have hselected : w.recall tests id e m (some t) ≠ .const false := by
    let label := Pointcut.memoLabel e source
    obtain ⟨w', hrun, _⟩ := Pointcut.residueOf_recall h id label m (some t) w
    replace hmethod : (Act.ofRun (Pointcut.residueOf env id label e m (some t)) >>= fun r =>
        pure r.verdict).run w = some (.ok v, w₂) := hmethod
    rw [Act.run_ofRun, hrun] at hmethod
    cases hmethod
    exact Residue.verdict_ne_never.mp hv
  obtain ⟨answer, w', hrun, hanswer⟩ := Catalogue.canApply_memo ha h hpasses w
  refine ⟨answer, w', hrun, hanswer, fun hdropped => ?_⟩
  obtain ⟨_, hnone⟩ := hanswer.mp hdropped
  obtain ⟨m₀, hm₀, hkey⟩ := TypeDesc.exists_visible hs hm
  have hruledOut := hnone m₀ hm₀
  refine ⟨m₀, hm₀, fun hvisible => hselected (hnone m hvisible), hkey, hruledOut, ?_⟩
  intro hright₀ hright hshape
  cases hr : e.resolvePure tests.method (m.shapeFor (some t)) t with
  | error f => exact ⟨f, rfl⟩
  | ok r =>
    -- both would have the one residue
    rw [hright, Expr.shapeResidue_of_ok hr] at hselected
    rw [hright₀, Expr.shapeResidue_of_ok (hshape ▸ hr)] at hruledOut
    exact absurd hruledOut hselected

/-! ## An advisor that is dropped -/

/-- Advice before the calls that the test accepts. -/
def scout : Advisor where
  id := 0
  pointcut := .memo ⟨0⟩ (.custom ⟨0⟩) none
  advice := .before ⟨1⟩

theorem directory_mem_hierarchy : directory ∈ memoryDirectory.hierarchy := by
  have hierarchy : memoryDirectory.hierarchy = [memoryDirectory, directory] := by cbv
  rw [hierarchy]
  exact List.mem_cons_of_mem _ (List.mem_singleton_self _)

theorem allMethods_memoryDirectory :
    memoryDirectory.allMethods = [⟨memoryDirectory, "find", [], .void⟩] := by
  cbv

/-- The advice is in the chain for the method of the interface, but it cannot apply to the
class. -/
theorem hidden_match_dropped :
    ⟨directory, "find", [], .void⟩ ∈ directory.declaredMethods ∧
      directory ∈ memoryDirectory.hierarchy ∧
      (scout.pointcut.matchesClass (Engine.env Code.interfaceMinded 0) memoryDirectory
        { user := (), memories := #[[]] }).map (·.1) = some true ∧
      ((scout.pointcut.matchesMethod (Engine.env Code.interfaceMinded 0)
        ⟨directory, "find", [], .void⟩ (some memoryDirectory)).run
        { user := (), memories := #[[]] }).map (·.1) = some (.ok .always) ∧
      ((Chain.standard (Engine.env Code.interfaceMinded 0) ⟨0⟩ [scout] false
        ⟨directory, "find", [], .void⟩ (some memoryDirectory)).run
        { user := (), memories := #[[]] }).map (·.1)
          = some (.ok [.fixed ⟨0, .before ⟨1⟩⟩]) ∧
      (Catalogue.canApply (Engine.env Code.interfaceMinded 0) scout memoryDirectory
        { user := (), memories := #[[]] }).map (·.1) = some false := by
  refine ⟨List.mem_singleton_self _, directory_mem_hierarchy, rfl, rfl, rfl, ?_⟩
  unfold Catalogue.canApply
  rw [allMethods_memoryDirectory]
  rfl

/-- The method of the class hides that of the interface. -/
theorem memoryDirectory_hides :
    ∃ w', Catalogue.canApply (Engine.env Code.interfaceMinded 0) scout memoryDirectory
        { user := (), memories := #[[]] } = some (false, w') ∧
      ∃ m₀, Hides (σ := Unit) ⟨fun _ m _ => interfaceTest m, fun _ _ => true⟩
        { user := (), memories := #[[]] } ⟨0⟩ (.custom ⟨0⟩) memoryDirectory m₀
        ⟨directory, "find", [], .void⟩ := by
  have htested : Expr.TestedBy (Engine.env Code.interfaceMinded 0)
      ⟨fun _ m _ => interfaceTest m, fun _ _ => true⟩ (.custom ⟨0⟩) := fun _ _ => rfl
  obtain ⟨answer, w', hrun, hanswer, hhidden⟩ :=
    applies_unless_hidden (a := scout) (w := { user := (), memories := #[[]] })
      (e := .custom ⟨0⟩) rfl htested directory_mem_hierarchy (List.mem_singleton_self _)
      rfl rfl (v := .always) (by decide)
  have hdropped : answer = false := by
    refine hanswer.mpr ⟨rfl, fun m hm => ?_⟩
    rw [allMethods_memoryDirectory, List.mem_singleton] at hm
    rw [hm]
    rfl
  subst hdropped
  exact ⟨w', hrun, hhidden rfl⟩

end Aspects
