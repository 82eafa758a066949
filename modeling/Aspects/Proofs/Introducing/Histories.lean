import Aspects.Proofs.Subtyping.Listing
import Aspects.Proofs.Telling.Edits

/-!
# Layouts and their histories

What the structural operations make of a layout, one after the other. Of each operation it
matters which advisor goes, which one comes and which interface is added, and that is one
of five things (`Layout.Step`). An interface is listed after it exactly if it is brought by
this operation, or was listed before and is not taken away by it.

So an interface is listed at the end of a history exactly if it was configured or is
introduced by an advisor in the list, and was not taken away since it was brought the last
time (`listed_following_iff`).
-/

namespace Aspects

variable {α : Type}

/-- What is done to a layout, one structural operation each. -/
inductive Layout.Operation where
  | insert (place : Option Nat) (a : Advisor)
  | remove (a : Advisor)
  | removeAt (place : Nat)
  | removeAdvice (a : Advice)
  | replace (old new : Advisor)
  | addInterface (t : TypeDesc)

namespace Layout

/-- The layout that the edit finds, or the one that was there. -/
def changedBy (l : Layout) (e : Edit α) : Layout :=
  match e l with
  | .ok (_, some l') => l'
  | _ => l

/-- The advisor introduces the interface. -/
def Introduces (a : Advisor) (t : TypeDesc) : Prop :=
  TypeDesc.listed a.introduced t = true

/-- The advisor that stands at the place, if the place is known and taken. -/
def standing (l : Layout) (place : Option Nat) : Option Advisor :=
  place.bind (l.advisors[·]?)

theorem standing_some (l : Layout) (i : Nat) : l.standing (some i) = l.advisors[i]? := rfl

theorem changedBy_guarded (l : Layout) (refusal : Option Fault) (e : Edit α) :
    l.changedBy (Edit.guarded refusal e) = if refusal = none then l.changedBy e else l := by
  cases refusal with
  | none => rfl
  | some f => rfl

/-! ## One step -/

/-- What an operation makes of a layout: an advisor may go and another one come, or an
interface be added. -/
inductive Step (l : Layout) : (going coming : Option Advisor) → (added : Option TypeDesc) →
    Layout → Prop
  | idle : Step l none none none l
  | comes (i : Nat) (a : Advisor) (hi : i ≤ l.advisors.length) :
    Step l none (some a) none
      { l.addIntroduced a with advisors := l.advisors.insertIdx i a }
  | goes (i : Nat) (a : Advisor) (h : l.advisors[i]? = some a) :
    Step l (some a) none none (l.takeOut i a)
  | replaced (i : Nat) (a b : Advisor) (h : l.advisors[i]? = some a) :
    Step l (some a) (some b) none
      { (l.dropIntroduced a).addIntroduced b with advisors := l.advisors.set i b }
  | added (t : TypeDesc) :
    Step l none none (some t) { l with interfaces := TypeDesc.addNew l.interfaces [t] }

namespace Step

variable {l l' : Layout} {going coming : Option Advisor} {added : Option TypeDesc}

/-- An interface is listed if it comes with an advisor or is added itself, or if it was
listed and does not go with an advisor. -/
theorem listed_iff (h : Step l going coming added l') (t : TypeDesc) :
    TypeDesc.listed l'.interfaces t = true ↔
      (∃ b, coming = some b ∧ Introduces b t) ∨ (∃ t', added = some t' ∧ t'.same t = true) ∨
        TypeDesc.listed l.interfaces t = true ∧ ¬ ∃ a, going = some a ∧ Introduces a t := by
  cases h with
  | idle => simp
  | comes i b hi =>
    have hlisted : TypeDesc.listed (l.addIntroduced b).interfaces t
        = (TypeDesc.listed l.interfaces t || TypeDesc.listed b.introduced t) :=
      TypeDesc.listed_addNew
    simp [hlisted, Introduces, or_comm]
  | goes i a h =>
    have hlisted : TypeDesc.listed (l.takeOut i a).interfaces t
        = (TypeDesc.listed l.interfaces t && !TypeDesc.listed a.introduced t) :=
      TypeDesc.listed_without
    simp [hlisted, Introduces]
  | replaced i a b h =>
    have hlisted : TypeDesc.listed ((l.dropIntroduced a).addIntroduced b).interfaces t
        = (TypeDesc.listed l.interfaces t && !TypeDesc.listed a.introduced t
          || TypeDesc.listed b.introduced t) :=
      TypeDesc.listed_addNew.trans (congrArg (· || _) TypeDesc.listed_without)
    simp [hlisted, Introduces, or_comm]
  | added t' => simp [TypeDesc.listed_addNew, TypeDesc.listed_singleton, or_comm]

/-- Whoever is in the list has just come or was there. -/
theorem coming_or_mem (h : Step l going coming added l') {a : Advisor} (ha : a ∈ l'.advisors) :
    coming = some a ∨ a ∈ l.advisors := by
  cases h with
  | idle => exact .inr ha
  | comes i b hi =>
    rcases (List.mem_insertIdx hi).mp ha with rfl | ha
    · exact .inl rfl
    · exact .inr ha
  | goes i b h => exact .inr (List.mem_of_mem_eraseIdx ha)
  | replaced i b c h =>
    rcases List.mem_or_eq_of_mem_set ha with ha | rfl
    · exact .inr ha
    · exact .inl rfl
  | added t => exact .inr ha

/-- Whoever was there is in the list, or has just gone. -/
theorem mem_or_going (h : Step l going coming added l') {a : Advisor} (ha : a ∈ l.advisors) :
    a ∈ l'.advisors ∨ going = some a := by
  cases h with
  | idle => exact .inl ha
  | comes i b hi => exact .inl ((List.mem_insertIdx hi).mpr (.inr ha))
  | added t => exact .inl ha
  | goes i b h =>
    obtain ⟨j, hj⟩ := List.mem_iff_getElem?.mp ha
    by_cases hji : j = i
    · rw [hji, h] at hj
      exact .inr hj
    · exact .inl (List.mem_eraseIdx_iff_getElem?.mpr ⟨j, hji, hj⟩)
  | replaced i b c h =>
    obtain ⟨j, hj⟩ := List.mem_iff_getElem?.mp ha
    by_cases hji : j = i
    · rw [hji, h] at hj
      exact .inr hj
    · exact .inl (List.mem_of_getElem? ((List.getElem?_set_ne (Ne.symm hji)).trans hj))

/-- Whoever comes is in the list. -/
theorem mem_of_coming (h : Step l going coming added l') {a : Advisor} (ha : coming = some a) :
    a ∈ l'.advisors := by
  cases h with
  | comes i b hi =>
    cases ha
    exact (List.mem_insertIdx hi).mpr (.inl rfl)
  | replaced i b c h =>
    cases ha
    exact List.mem_set (List.getElem?_eq_some_iff.mp h).1 a
  | _ => cases ha

end Step

/-! ## Operations -/

namespace Operation

variable (adapters : List Adapter) (l : Layout)

/-- The advisor may come into a configuration with the adapters. -/
def Admits (a : Advisor) : Prop :=
  Configuration.refusal? adapters a = none

instance (a : Advisor) : Decidable (Admits adapters a) :=
  inferInstanceAs (Decidable (_ = none))

/-- The advisor that the operation takes out of the list. -/
def going : Operation → Option Advisor
  | remove a => l.standing (l.placeOf a)
  | removeAt place => l.standing (some place)
  | removeAdvice a => l.standing (l.placeOfAdvice a)
  | replace old new => if Admits adapters new then l.standing (l.placeOf old) else none
  | _ => none

/-- The advisor that the operation brings into the list. -/
def coming : Operation → Option Advisor
  | insert place a =>
    if Admits adapters a ∧ place.getD l.advisors.length ≤ l.advisors.length then some a else none
  | replace old new =>
    if Admits adapters new ∧ (l.standing (l.placeOf old)).isSome then some new else none
  | _ => none

/-- The interface that the operation adds. -/
def added : Operation → Option TypeDesc
  | addInterface t => if t.isInterface then some t else none
  | _ => none

/-- The layout after the operation. -/
def after : Operation → Layout
  | insert place a =>
    l.changedBy (Edit.guarded (Configuration.refusal? adapters a) (Layout.insert place a))
  | remove a => l.changedBy (Layout.remove a)
  | removeAt place => l.changedBy (Layout.removeAt place)
  | removeAdvice a => l.changedBy (Layout.removeAdvice a)
  | replace old new =>
    l.changedBy (Edit.guarded (Configuration.refusal? adapters new) (Layout.replace old new))
  | addInterface t =>
    l.changedBy (Edit.guarded (if t.isInterface then none else some (.notAnInterface t.name))
      (Layout.addInterface t))

theorem step_removeFound (place : Option Nat) :
    Step l (l.standing place) none none (l.changedBy (removeFound place)) := by
  unfold changedBy removeFound
  cases place with
  | none => exact .idle
  | some i =>
    cases h : l.advisors[i]? with
    | none =>
      simp only [standing_some, h]
      exact .idle
    | some a =>
      simp only [standing_some, h]
      exact .goes i a h

/-- Every operation is one of the five things. -/
theorem step (op : Operation) :
    Step l (op.going adapters l) (op.coming adapters l) op.added (op.after adapters l) := by
  cases op with
  | insert place a =>
    simp only [going, coming, added, after, changedBy_guarded, Admits]
    by_cases ha : Configuration.refusal? adapters a = none
    · by_cases hplace : place.getD l.advisors.length ≤ l.advisors.length
      · simp only [ha, hplace, and_self, if_true, changedBy, Layout.insert,
          if_neg (Nat.not_lt.mpr hplace)]
        exact .comes _ a hplace
      · simp only [ha, hplace, and_false, if_true, if_false, changedBy, Layout.insert,
          if_pos (Nat.not_le.mp hplace)]
        exact .idle
    · simp only [ha, false_and, if_false]
      exact .idle
  | remove a => exact step_removeFound l (l.placeOf a)
  | removeAt place =>
    simp only [going, coming, added, after, standing_some, changedBy, Layout.removeAt]
    cases h : l.advisors[place]? with
    | none => exact .idle
    | some a => exact .goes place a h
  | removeAdvice a => exact step_removeFound l (l.placeOfAdvice a)
  | replace old new =>
    simp only [going, coming, added, after, changedBy_guarded, Admits]
    by_cases ha : Configuration.refusal? adapters new = none
    · simp only [ha, true_and, if_true, changedBy, Layout.replace]
      cases l.placeOf old with
      | none => exact .idle
      | some i =>
        cases h : l.advisors[i]? with
        | none =>
          simp only [standing_some, h]
          exact .idle
        | some a =>
          simp only [standing_some, h]
          exact .replaced i a new h
    · simp only [ha, false_and, if_false]
      exact .idle
  | addInterface t =>
    simp only [going, coming, added, after, changedBy_guarded]
    by_cases ht : t.isInterface
    · have hstep : Step l none none (some t) _ := .added t
      have hnew : TypeDesc.addNew l.interfaces [t]
          = if TypeDesc.listed l.interfaces t then l.interfaces else l.interfaces ++ [t] := rfl
      rw [hnew] at hstep
      simp only [ht, if_true, changedBy, Layout.addInterface]
      by_cases hlisted : TypeDesc.listed l.interfaces t
      · rw [if_pos hlisted] at hstep ⊢
        exact hstep
      · rw [if_neg hlisted] at hstep ⊢
        exact hstep
    · simp only [ht]
      exact .idle

end Operation

/-! ## Histories -/

section Histories

variable (adapters : List Adapter) (ts : List TypeDesc)

/-- The layout at the end of a history, the latest operation first, that begins with the
interfaces among the types. -/
def following : List Operation → Layout
  | [] => ofInterfaces ts
  | op :: earlier => op.after adapters (following earlier)

/-- The operation brings the interface, added itself or introduced by an advisor. -/
def Operation.Brings (l : Layout) (op : Operation) (t : TypeDesc) : Prop :=
  (∃ b, op.coming adapters l = some b ∧ Introduces b t) ∨
    ∃ t', op.added = some t' ∧ t'.same t = true

/-- The operation takes an advisor out that introduces the interface. -/
def Operation.Takes (l : Layout) (op : Operation) (t : TypeDesc) : Prop :=
  ∃ a, op.going adapters l = some a ∧ Introduces a t

/-- The interface was given at the beginning or added. -/
def Configured (ops : List Operation) (t : TypeDesc) : Prop :=
  (∃ t' ∈ ts, t'.isInterface = true ∧ t'.same t = true) ∨
    ∃ op ∈ ops, ∃ t', op.added = some t' ∧ t'.same t = true

/-- An advisor that introduces the interface was taken out, and the interface was not
brought by the same operation or since. -/
inductive Withdrawn (t : TypeDesc) : List Operation → Prop
  | now {op : Operation} {earlier : List Operation} :
    op.Takes adapters (following adapters ts earlier) t →
    ¬ op.Brings adapters (following adapters ts earlier) t → Withdrawn t (op :: earlier)
  | before {op : Operation} {earlier : List Operation} :
    Withdrawn t earlier → ¬ op.Brings adapters (following adapters ts earlier) t →
    Withdrawn t (op :: earlier)

variable {adapters ts}

theorem Withdrawn.not_of_brings {op : Operation} {earlier : List Operation} {t : TypeDesc}
    (h : op.Brings adapters (following adapters ts earlier) t) :
    ¬ Withdrawn adapters ts t (op :: earlier) := by
  intro hw
  cases hw with
  | now _ hnot => exact hnot h
  | before _ hnot => exact hnot h

/-- At the beginning what was given is listed. -/
theorem listed_ofInterfaces_iff {t : TypeDesc} :
    TypeDesc.listed (ofInterfaces ts).interfaces t = true ↔ Configured ts [] t := by
  have hlisted : TypeDesc.listed (ofInterfaces ts).interfaces t
      = (TypeDesc.listed [] t || TypeDesc.listed (ts.filter (·.isInterface)) t) :=
    TypeDesc.listed_addNew
  rw [hlisted]
  simp [TypeDesc.listed, Configured, List.any_filter]

/-- An interface is listed at the end exactly if it was configured or an advisor in the
list introduces it, and it was not withdrawn. -/
theorem listed_following_iff (ops : List Operation) (t : TypeDesc) :
    TypeDesc.listed (following adapters ts ops).interfaces t = true ↔
      (Configured ts ops t ∨ ∃ a ∈ (following adapters ts ops).advisors, Introduces a t) ∧
        ¬ Withdrawn adapters ts t ops := by
  induction ops with
  | nil =>
    have hnobody : ¬ ∃ a ∈ (following adapters ts []).advisors, Introduces a t := by
      rintro ⟨a, ha, _⟩
      cases ha
    have hkept : ¬ Withdrawn adapters ts t [] := nofun
    exact listed_ofInterfaces_iff.trans (by simp [hnobody, hkept])
  | cons op earlier ih =>
    have hstep := op.step adapters (following adapters ts earlier)
    constructor
    · -- it was brought just now, which makes up for any loss, or it was there and stays
      intro hlisted
      rcases (hstep.listed_iff t).mp hlisted with ⟨b, hb, hbt⟩ | hadded | ⟨hbefore, htaken⟩
      · exact ⟨.inr ⟨b, hstep.mem_of_coming hb, hbt⟩, Withdrawn.not_of_brings (.inl ⟨b, hb, hbt⟩)⟩
      · exact ⟨.inl (.inr ⟨op, List.mem_cons_self, hadded⟩), Withdrawn.not_of_brings (.inr hadded)⟩
      · obtain ⟨hwanted, hkept⟩ := ih.mp hbefore
        constructor
        · rcases hwanted with (hgiven | ⟨op', hop', hadded⟩) | ⟨a, ha, hat⟩
          · exact .inl (.inl hgiven)
          · exact .inl (.inr ⟨op', List.mem_cons_of_mem _ hop', hadded⟩)
          · -- the advisor is there still, for it would have taken the interface with it
            rcases hstep.mem_or_going ha with ha | hgoing
            · exact .inr ⟨a, ha, hat⟩
            · exact absurd ⟨a, hgoing, hat⟩ htaken
        · intro hw
          cases hw with
          | now htakes _ => exact htaken htakes
          | before hw _ => exact hkept hw
    · rintro ⟨hwanted, hkept⟩
      by_cases hbrings : op.Brings adapters (following adapters ts earlier) t
      · exact (hstep.listed_iff t).mpr (or_assoc.mp (.inl hbrings))
      · -- not brought just now, so it was wanted before, and neither lost then nor taken now
        refine (hstep.listed_iff t).mpr (.inr (.inr ⟨ih.mpr ⟨?_, fun hw => ?_⟩, fun htakes => ?_⟩))
        · rcases hwanted with (hgiven | ⟨op', hop', hadded⟩) | ⟨a, ha, hat⟩
          · exact .inl (.inl hgiven)
          · rcases List.mem_cons.mp hop' with rfl | hop'
            · exact absurd (.inr hadded) hbrings
            · exact .inl (.inr ⟨op', hop', hadded⟩)
          · rcases hstep.coming_or_mem ha with hcoming | ha
            · exact absurd (.inl ⟨a, hcoming, hat⟩) hbrings
            · exact .inr ⟨a, ha, hat⟩
        · exact hkept (.before hw hbrings)
        · exact hkept (.now htakes hbrings)

end Histories

end Layout

end Aspects
