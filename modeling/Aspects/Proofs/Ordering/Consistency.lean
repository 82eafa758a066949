import Aspects.Engine
import Aspects.Proofs.Ordering.Sorting

/-!
# One order for several types

The advisors for an object are those that can apply to its type, and only these are sorted.
An advisor that cannot apply therefore decides nothing by a key of its own; but if it is
the first of its aspect in the catalogue, then for this type another advisor leads the
aspect, and the whole aspect may act earlier or later than for other types
(`precedence_by_type`).

So two advisors that are eligible for two objects act in the same order for both exactly if
their explicit orders differ, or they are of one aspect, or the leaders of their aspects
come in the same order for both (`relative_order_iff`).
-/

namespace Aspects

variable {σ : Type} {env : Env σ}

namespace Catalogue

/-- Introductions first is a change of order and nothing else. -/
theorem introductionsFirst_perm (as : List Advisor) : (introductionsFirst as).Perm as := by
  unfold introductionsFirst
  induction as with
  | nil => exact .refl _
  | cons a as ih =>
    cases h : a.isIntroduction with
    | true =>
      simp only [List.filter_cons, h, Bool.not_true, Bool.false_eq_true, if_true, if_false,
        List.cons_append]
      exact ih.cons a
    | false =>
      simp only [List.filter_cons, h, Bool.not_false, Bool.false_eq_true, if_true, if_false]
      exact List.perm_middle.trans (ih.cons a)

/-- The advisors that are kept stand in the order in which they stood. -/
theorem keepApplicable_sublist {t : TypeDesc} {as kept : List Advisor} {w w' : World σ}
    (h : keepApplicable env t as w = some (kept, w')) : kept.Sublist as := by
  induction as generalizing kept w w' with
  | nil =>
    cases h
    exact .slnil
  | cons a as ih =>
    obtain ⟨⟨applies, w₁⟩, _, hrest⟩ := Option.bind_eq_some_iff.mp h
    obtain ⟨⟨rest, w₂⟩, hrest, hk⟩ := Option.bind_eq_some_iff.mp hrest
    have hsub := ih hrest
    cases applies with
    | true =>
      cases hk
      exact hsub.cons_cons a
    | false =>
      cases hk
      exact hsub.cons a

/-- The advisors in the catalogue are told apart by numbers that were given out. -/
structure Numbered (w : World σ) (id : CatalogueId) : Prop where
  distinct : ((w.catalogue id).map (·.id)).Nodup
  given : ∀ a ∈ w.catalogue id, a.id < w.serial

theorem Numbered.nodup {w : World σ} {id : CatalogueId} (h : Numbered w id) :
    (w.catalogue id).Nodup :=
  List.Pairwise.of_map (·.id) (fun _ _ hne heq => hne (congrArg (·.id) heq)) h.distinct

theorem catalogue_setCatalogue (w : World σ) (id id' : CatalogueId) (as : List Advisor) :
    (w.setCatalogue id' as).catalogue id = w.catalogue id ∨
      id = id' ∧ (w.setCatalogue id' as).catalogue id = as := by
  unfold World.setCatalogue World.catalogue
  by_cases hid : id'.index = id.index
  · by_cases hlt : id'.index < w.catalogues.size
    · refine .inr ⟨?_, ?_⟩
      · cases id
        cases id'
        exact congrArg _ hid.symm
      · simp [← hid, hlt]
    · left
      rw [Array.setIfInBounds_eq_of_size_le (Nat.not_lt.mp hlt)]
  · left
    simp [hid]

/-- Registering keeps it so, for an advisor is registered under the next number. -/
theorem Numbered.register {w w' : World σ} {id id' : CatalogueId} {a : Advisor} {u : Unit}
    (h : Numbered w id) (hrun : register id' a w = some (u, w')) : Numbered w' id := by
  let numbered : Advisor := { a with id := w.serial }
  have hw' : w' = World.setCatalogue
      { w.record (.event ⟨.debug, "Registering advisor: " ++ a.display, []⟩) with
        serial := w.serial + 1 } id' (w.catalogue id' ++ [numbered]) := by
    cases hrun
    rfl
  have hserial : w'.serial = w.serial + 1 := by
    rw [hw']
    rfl
  have hcatalogue : w'.catalogue id = w.catalogue id ∨
      w'.catalogue id = w.catalogue id ++ [numbered] := by
    rw [hw']
    rcases catalogue_setCatalogue _ id id' (w.catalogue id' ++ [numbered]) with he | ⟨rfl, he⟩
    · exact .inl he
    · exact .inr he
  rcases hcatalogue with he | he
  · refine ⟨by rw [he]; exact h.distinct, fun b hb => ?_⟩
    rw [he] at hb
    have := h.given b hb
    omega
  · constructor
    · rw [he, List.map_append]
      refine List.nodup_append.mpr ⟨h.distinct, by simp, fun i hi j hj heq => ?_⟩
      -- the numbers given out are below the next one
      obtain ⟨b, hb, rfl⟩ := List.mem_map.mp hi
      have hlt := h.given b hb
      have hj : j = w.serial := by simpa [numbered] using hj
      omega
    · intro b hb
      rw [he] at hb
      rcases List.mem_append.mp hb with hb | hb
      · have := h.given b hb
        omega
      · have hb : b = numbered := by simpa using hb
        rw [hb, hserial]
        exact Nat.lt_succ_self _

/-- So does registering several, one after the other. -/
theorem Numbered.registerAll {w w' : World σ} {id id' : CatalogueId} {as : List Advisor}
    {u : Unit} (h : Numbered w id) (hrun : registerAll id' as w = some (u, w')) :
    Numbered w' id := by
  induction as generalizing w with
  | nil =>
    cases hrun
    exact h
  | cons a as ih =>
    replace hrun : (Catalogue.register id' a w).bind
        (fun made => Catalogue.registerAll id' as made.2) = some (u, w') := hrun
    obtain ⟨⟨_, w₁⟩, hfirst, hrest⟩ := Option.bind_eq_some_iff.mp hrun
    exact ih (h.register hfirst) hrest

end Catalogue

namespace AutoProxy

open Precedence

/-- The advisors for an object are the eligible ones, sorted among themselves. -/
theorem advisorsFor_eq {id : CatalogueId} {o : Object} {as : List Advisor} {w w₁ : World σ}
    (h : Catalogue.applicable env (w.catalogue id) o.type w = some (as, w₁)) :
    advisorsFor env id o w = some (sort as, w₁) := by
  show (Catalogue.applicable env (w.catalogue id) o.type w).bind _ = _
  rw [h]
  rfl

/-- Two rules for the order of two advisors agree if neither looks at the leaders, or if
the leaders are in the same order for both. -/
theorem actsBefore_iff {listed as as' : List Advisor} (hlisted : listed.Nodup)
    (has : as.Sublist listed) (has' : as'.Sublist listed) {a b : Advisor}
    (ha : a ∈ as) (hb : b ∈ as) (ha' : a ∈ as') (hb' : b ∈ as') (hne : a ≠ b) :
    (ActsBefore as a b ↔ ActsBefore as' a b) ↔
      rank a ≠ rank b ∨ (a.aspect.isSome = true ∧ a.aspect = b.aspect) ∨
        (Precedes listed (leader as a) (leader as b) ↔
          Precedes listed (leader as' a) (leader as' b)) := by
  have hplace : Precedes as a b ↔ Precedes as' a b := by
    rw [precedes_iff_of_sublist hlisted has ha hb, precedes_iff_of_sublist hlisted has' ha' hb']
  have hleaders := precedes_iff_of_sublist hlisted has (leader_mem ha) (leader_mem hb)
  have hleaders' := precedes_iff_of_sublist hlisted has' (leader_mem ha') (leader_mem hb')
  have hone : leader as a = leader as b ↔ a.aspect.isSome = true ∧ a.aspect = b.aspect := by
    rw [leader_eq_iff ha hb, or_iff_right hne]
  have hone' : leader as' a = leader as' b ↔ a.aspect.isSome = true ∧ a.aspect = b.aspect := by
    rw [leader_eq_iff ha' hb', or_iff_right hne]
  -- a leader does not stand before itself
  have hirrefl : leader as a = leader as b → ¬ Precedes listed (leader as a) (leader as b) :=
    fun h hp => hp.ne hlisted h
  have hirrefl' :
      leader as' a = leader as' b → ¬ Precedes listed (leader as' a) (leader as' b) :=
    fun h hp => hp.ne hlisted h
  unfold ActsBefore BeforeWithin
  rw [hplace, hleaders, hleaders', hone, hone']
  rw [hone] at hirrefl
  rw [hone'] at hirrefl'
  by_cases hrank : rank a = rank b
  · by_cases haspect : a.aspect.isSome = true ∧ a.aspect = b.aspect
    · simp only [hrank, haspect, hirrefl haspect, hirrefl' haspect]
      simp
    · simp only [hrank, haspect]
      simp
  · simp [hrank]

/-- For every content of a catalogue and any two objects: the advisors for an object are the
eligible ones, in the order that the rules give for these alone; and two advisors that are
eligible for both objects are in the same order for both exactly if their explicit orders
differ, or they are of one aspect, or the first eligible advisors of their aspects, in the
order of the catalogue with the introductions first, are in the same order for both. An
advisor without an aspect stands for itself. -/
theorem relative_order_iff {id : CatalogueId} {o o' : Object} {as as' : List Advisor}
    {w w' w₁ w₁' : World σ} (hregistered : (w.catalogue id).Nodup)
    (hsame : w'.catalogue id = w.catalogue id)
    (h : Catalogue.applicable env (w.catalogue id) o.type w = some (as, w₁))
    (h' : Catalogue.applicable env (w'.catalogue id) o'.type w' = some (as', w₁')) :
    ∃ acting acting',
      advisorsFor env id o w = some (acting, w₁) ∧
      advisorsFor env id o' w' = some (acting', w₁') ∧
      acting.Perm as ∧ acting'.Perm as' ∧
      (∀ a b, a ∈ as → b ∈ as → a ≠ b → (Precedes acting a b ↔ ActsBefore as a b)) ∧
      ∀ a b, a ∈ as → b ∈ as → a ∈ as' → b ∈ as' → a ≠ b →
        ((Precedes acting a b ↔ Precedes acting' a b) ↔
          rank a ≠ rank b ∨ (a.aspect.isSome = true ∧ a.aspect = b.aspect) ∨
            (Precedes (Catalogue.introductionsFirst (w.catalogue id)) (leader as a)
                (leader as b) ↔
              Precedes (Catalogue.introductionsFirst (w.catalogue id)) (leader as' a)
                (leader as' b))) := by
  have hlisted : (Catalogue.introductionsFirst (w.catalogue id)).Nodup :=
    (Catalogue.introductionsFirst_perm _).nodup_iff.mpr hregistered
  have hsub : as.Sublist (Catalogue.introductionsFirst (w.catalogue id)) :=
    Catalogue.keepApplicable_sublist h
  have hsub' : as'.Sublist (Catalogue.introductionsFirst (w.catalogue id)) := by
    rw [← hsame]
    exact Catalogue.keepApplicable_sublist h'
  have has : as.Nodup := hlisted.sublist hsub
  have has' : as'.Nodup := hlisted.sublist hsub'
  refine ⟨sort as, sort as', advisorsFor_eq h, advisorsFor_eq h', sort_perm as, sort_perm as',
    fun a b ha hb hne => precedes_sort_iff has ha hb hne, fun a b ha hb ha' hb' hne => ?_⟩
  rw [precedes_sort_iff has ha hb hne, precedes_sort_iff has' ha' hb' hne]
  exact actsBefore_iff hlisted hsub hsub' ha hb ha' hb' hne

/-! ## An aspect whose first advisor is for one type only

Of three advisors the first and the last are of one aspect, and the first is for calls to
accounts only. So for an account that aspect comes first, and for a report it comes last. -/

def account : TypeDesc := .named "Account" .classKind none [] [⟨"run", [], .void, none⟩]

def report : TypeDesc := .named "Report" .classKind none [] [⟨"run", [], .void, none⟩]

def guarding : Advisor where
  id := 0
  pointcut := .expr (.type "Account")
  advice := .around ⟨0⟩
  aspect := some "security"

def logging : Advisor where
  id := 1
  pointcut := .all
  advice := .around ⟨1⟩
  aspect := some "logging"

def auditing : Advisor where
  id := 2
  pointcut := .all
  advice := .around ⟨2⟩
  aspect := some "security"
  declarationOrder := 1

/-- A world with a catalogue of the three. -/
def cataloguing : World Unit :=
  { user := (), serial := 3, catalogues := #[[guarding, logging, auditing]] }

section Cataloguing

theorem typeAdmitted_account : Expr.typeAdmitted "Account" account = true := by
  have hhierarchy : account.hierarchy = [account] := by cbv
  unfold Expr.typeAdmitted
  rw [hhierarchy]
  decide

theorem typeAdmitted_report : Expr.typeAdmitted "Account" report = false := by
  have hhierarchy : report.hierarchy = [report] := by cbv
  unfold Expr.typeAdmitted
  rw [hhierarchy]
  decide

theorem allMethods_account : account.allMethods = [⟨account, "run", [], .void⟩] := by
  cbv

theorem allMethods_report : report.allMethods = [⟨report, "run", [], .void⟩] := by
  cbv

variable {t : TypeDesc} {m : Method}

theorem canApply_guarding (ht : t.allMethods = [m]) :
    Catalogue.canApply env guarding t = pure (Expr.typeAdmitted "Account" t) := by
  have hclass : guarding.pointcut.matchesClass env t
      = pure (Expr.typeAdmitted "Account" t) := rfl
  unfold Catalogue.canApply
  rw [hclass, pure_bind, ht]
  cases h : Expr.typeAdmitted "Account" t with
  | true =>
    have hmethod : (guarding.pointcut.matchesMethod env m (some t)).run
        = pure (.ok (.ofBool (Expr.typeAdmitted "Account" t))) := rfl
    rw [h] at hmethod
    show Catalogue.anyMethod env guarding.pointcut t [m] = pure true
    unfold Catalogue.anyMethod
    rw [hmethod, pure_bind]
    rfl
  | false => rfl

/-- An advisor for all calls can apply wherever there is a method. -/
theorem canApply_all {a : Advisor} (ha : a.pointcut = .all) (ht : t.allMethods = [m]) :
    Catalogue.canApply env a t = pure true := by
  have hclass : a.pointcut.matchesClass env t = pure true := by
    rw [ha]
    rfl
  have hmethod : (a.pointcut.matchesMethod env m (some t)).run = pure (.ok .always) := by
    rw [ha]
    rfl
  unfold Catalogue.canApply
  rw [hclass, pure_bind, ht]
  unfold Catalogue.anyMethod
  rw [hmethod, pure_bind]
  cases a.isIntroduction with
  | true => rfl
  | false => rfl

/-- The eligible ones of the three. -/
theorem applicable_cataloguing (ht : t.allMethods = [m]) (w : World Unit) (env : Env Unit) :
    Catalogue.applicable env (cataloguing.catalogue ⟨0⟩) t w
      = some (if Expr.typeAdmitted "Account" t then [guarding, logging, auditing]
          else [logging, auditing], w) := by
  show Catalogue.keepApplicable env t [guarding, logging, auditing] w = _
  simp only [Catalogue.keepApplicable, canApply_guarding ht,
    canApply_all (a := logging) rfl ht, canApply_all (a := auditing) rfl ht, pure_bind]
  cases Expr.typeAdmitted "Account" t with
  | true => rfl
  | false => rfl

/-- With the guard its whole aspect acts before the other one. -/
theorem sort_guarded : sort [guarding, logging, auditing] = [guarding, auditing, logging] := by
  have hkeyed : keyed [guarding, logging, auditing]
      = [(⟨lastOrder, 0, true, 0⟩, guarding), (⟨lastOrder, 1, true, 0⟩, logging),
        (⟨lastOrder, 0, true, 1⟩, auditing)] := rfl
  unfold sort
  rw [hkeyed]
  simp [List.mergeSort, List.MergeSort.Internal.splitInTwo, Key.le]

theorem sort_unguarded : sort [logging, auditing] = [logging, auditing] := by
  have hkeyed : keyed [logging, auditing]
      = [(⟨lastOrder, 0, true, 0⟩, logging), (⟨lastOrder, 1, true, 1⟩, auditing)] := rfl
  unfold sort
  rw [hkeyed]
  simp [List.mergeSort, List.MergeSort.Internal.splitInTwo, Key.le]

end Cataloguing

/-- Of the two advisors that are eligible for both, each acts first for one of them. -/
theorem precedence_by_type :
    (advisorsFor (Engine.env (Code.idle : Code Unit) 0) ⟨0⟩ ⟨account, 0, .entity "a"⟩
        cataloguing).map (·.1) = some [guarding, auditing, logging] ∧
      (advisorsFor (Engine.env (Code.idle : Code Unit) 0) ⟨0⟩ ⟨report, 1, .entity "r"⟩
        cataloguing).map (·.1) = some [logging, auditing] := by
  constructor
  · rw [advisorsFor_eq (applicable_cataloguing allMethods_account _ _), typeAdmitted_account]
    exact congrArg some sort_guarded
  · rw [advisorsFor_eq (applicable_cataloguing allMethods_report _ _), typeAdmitted_report]
    exact congrArg some sort_unguarded

/-- It is as it has to be: the explicit orders are the same, the aspects are not, and the
leader of one of them changes. -/
theorem logging_auditing_reversed :
    (cataloguing.catalogue ⟨0⟩).Nodup ∧ ∃ acting acting',
      (advisorsFor (Engine.env (Code.idle : Code Unit) 0) ⟨0⟩ ⟨account, 0, .entity "a"⟩
        cataloguing).map (·.1) = some acting ∧
      (advisorsFor (Engine.env (Code.idle : Code Unit) 0) ⟨0⟩ ⟨report, 1, .entity "r"⟩
        cataloguing).map (·.1) = some acting' ∧
      ¬ (Precedes acting logging auditing ↔ Precedes acting' logging auditing) := by
  let env := Engine.env (Code.idle : Code Unit) 0
  let o : Object := ⟨account, 0, .entity "a"⟩
  let o' : Object := ⟨report, 1, .entity "r"⟩
  have hnumbered : Catalogue.Numbered cataloguing ⟨0⟩ := by
    refine ⟨by decide, fun a ha => ?_⟩
    have ha : a ∈ [guarding, logging, auditing] := ha
    rw [List.mem_cons, List.mem_cons, List.mem_singleton] at ha
    rcases ha with rfl | rfl | rfl <;> decide
  have haccount : Catalogue.applicable env (cataloguing.catalogue ⟨0⟩) o.type cataloguing
      = some ([guarding, logging, auditing], cataloguing) := by
    rw [applicable_cataloguing allMethods_account, typeAdmitted_account, if_pos rfl]
  have hreport : Catalogue.applicable env (cataloguing.catalogue ⟨0⟩) o'.type cataloguing
      = some ([logging, auditing], cataloguing) := by
    rw [applicable_cataloguing allMethods_report, typeAdmitted_report,
      if_neg Bool.false_ne_true]
  have hne : logging ≠ auditing := fun h => absurd (congrArg (·.id) h) (by decide)
  obtain ⟨acting, acting', hacting, hacting', _, _, _, horder⟩ :=
    relative_order_iff hnumbered.nodup rfl haccount hreport
  refine ⟨hnumbered.nodup, acting, acting', by rw [hacting]; rfl, by rw [hacting']; rfl, ?_⟩
  rw [horder logging auditing (by simp) (by simp) (by simp) (by simp) hne]
  have hlisted : Catalogue.introductionsFirst (cataloguing.catalogue ⟨0⟩)
      = [guarding, logging, auditing] := rfl
  have hnodup := (Catalogue.introductionsFirst_perm _).nodup_iff.mpr hnumbered.nodup
  rintro (hrank | haspect | hleaders)
  · exact hrank rfl
  · exact absurd haspect.2 (by decide)
  · have hled : Precedes [guarding, logging, auditing] logging guarding :=
      hleaders.mpr (precedes_of_lt (i := 1) (j := 2) rfl rfl (by decide))
    exact absurd hled (Precedes.asymm hnodup
      (precedes_of_lt (i := 0) (j := 1) rfl rfl (by decide)))

end AutoProxy

end Aspects
