import Aspects.Proofs.Steps.Tracking

/-!
# Loans are nested

A call that gets a target on loan writes `acquired` down, and `released` when it gives the
target back. What is between the two is written down by calls that user code makes
meanwhile, and by what these lead to in turn. `Nested` says of a stretch of the journal
that its loans are like brackets, each closed for the source and the target it was opened
for. Whatever the engine does adds such a stretch (`Leads.nests`): of all steps only
`Leads.lend` has to do with loans, and it opens and closes one.
-/

namespace Aspects

variable {σ : Type} {code : Code σ} {w w₁ w₂ : World σ}

/-- A target was got on loan or given back. -/
def Entry.isLoan : Entry → Bool
  | acquired .. => true
  | released .. => true
  | _ => false

/-- A stretch of the journal, the latest entry first, in which every target that was got
on loan was given back to its source, the last loan first. -/
inductive Nested : List Entry → Prop
  | nil : Nested []
  | other {es : List Entry} (e : Entry) (he : e.isLoan = false) : Nested es → Nested (e :: es)
  | loan {during before : List Entry} (s : SourceId) (o : Object) :
    Nested during → Nested before →
    Nested (.released s o :: (during ++ .acquired s o :: before))

namespace Nested

theorem append {es es' : List Entry} (h : Nested es) (h' : Nested es') : Nested (es ++ es') := by
  induction h with
  | nil => exact h'
  | other e he _ ih => exact other e he ih
  | loan s o hduring _ _ ih =>
    rw [List.cons_append, List.append_assoc, List.cons_append]
    exact loan s o hduring ih

theorem single {e : Entry} (he : e.isLoan = false) : Nested [e] :=
  other e he nil

end Nested

/-- What was written down from one world to the other is nested. -/
def World.Nests (w w' : World σ) : Prop :=
  ∃ es, w'.journal = es ++ w.journal ∧ Nested es

namespace World.Nests

theorem of_eq (h : w₁.journal = w.journal) : w.Nests w₁ :=
  ⟨[], h, .nil⟩

theorem refl (w : World σ) : w.Nests w :=
  of_eq rfl

theorem trans (h : w.Nests w₁) (h' : w₁.Nests w₂) : w.Nests w₂ := by
  obtain ⟨es, hes, hnested⟩ := h
  obtain ⟨es', hes', hnested'⟩ := h'
  exact ⟨es' ++ es, by rw [hes', hes, List.append_assoc], hnested'.append hnested⟩

theorem record (w : World σ) {e : Entry} (he : e.isLoan = false) : w.Nests (w.record e) :=
  ⟨[e], rfl, .single he⟩

/-- A loan with what was written down in its course. -/
theorem lend {s : SourceId} {o : Object} (h : (w.record (.acquired s o)).Nests w₁) :
    w.Nests (w₁.record (.released s o)) := by
  obtain ⟨es, hes, hnested⟩ := h
  refine ⟨.released s o :: (es ++ [.acquired s o]), ?_, .loan s o hnested .nil⟩
  simp [World.record, hes]

end World.Nests

theorem Entry.isLoan_of_isRemark {e : Entry} (h : e.isRemark = true) : e.isLoan = false := by
  cases e with
  | acquired s o => cases h
  | released s o => cases h
  | _ => rfl

/-- No change that stands alone has to do with loans. -/
theorem Change.nests (h : Change w w₁) : w.Nests w₁ := by
  cases h with
  | remark e he => exact .record w (e.isLoan_of_isRemark he)
  | reflag id f => exact .record w rfl
  | swap id old new _ _ => exact .record w rfl
  | tellActivated id l => exact .record w rfl
  | tellChanged id l => exact .record w rfl
  | _ => exact .of_eq rfl

/-- What the engine does adds loans that are nested. -/
theorem Leads.nests (h : Leads code w w₁) : w.Nests w₁ := by
  induction h with
  | refl w => exact .refl w
  | change _ hc ih => exact ih.trans hc.nests
  | keep room id m t links _ _ _ _ ih ihworking =>
    exact (ih.trans ihworking).trans (.of_eq rfl)
  | expose proxy _ _ ih ihduring =>
    -- which proxy is current is not written down
    exact ih.trans ihduring
  | lend s o _ _ _ ih ihduring ihafter => exact (ih.trans (.lend ihduring)).trans ihafter

/-- So does a run that is made of steps wherever it starts. -/
theorem Tracks.nests {α : Type} {r : Run σ α} {a : α} (h : ∀ start, Tracks (.steps code start) r r)
    (hr : r w = some (a, w₁)) : w.Nests w₁ :=
  ((h w w .refl).leads a w₁ hr).nests

end Aspects
