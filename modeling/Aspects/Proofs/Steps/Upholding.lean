import Aspects.Proofs.Steps.Tracking

/-!
# Runs that uphold a kind of worlds

A run that starts in a world of some kind may be sure to end in one, with an answer of
some sort. Whether it has an outcome at all is another matter, for user code may nest
deeper than there is room. `Run.Upholds` says both, the second under a proviso: with `False`
for the proviso it says what the answer is if there is one, with `True` that there is one.
-/

namespace Aspects

variable {σ : Type} {α β : Type} {T : Prop} {P : World σ → Prop} {Q Q' : α → Prop}
  {R : β → Prop}

/-- From every world of the kind `P` the run answers something of the sort `Q` and leaves a
world of the kind; and it does answer, provided that `T`. -/
structure Run.Upholds (T : Prop) (P : World σ → Prop) (r : Run σ α) (Q : α → Prop) : Prop where
  yields : ∀ w, P w → ∀ a w', r w = some (a, w') → P w' ∧ Q a
  answers : T → ∀ w, P w → ∃ a w', r w = some (a, w')

namespace Run.Upholds

variable {r : Run σ α} {k : α → Run σ β}

theorem exists_answer (h : Upholds T P r Q) (hT : T) {w : World σ} (hw : P w) :
    ∃ a w', r w = some (a, w') ∧ P w' ∧ Q a := by
  obtain ⟨a, w', ha⟩ := h.answers hT w hw
  exact ⟨a, w', ha, h.yields w hw a w' ha⟩

theorem of_exists (h : ∀ w, P w → ∃ a w', r w = some (a, w') ∧ P w' ∧ Q a) :
    Upholds T P r Q where
  yields w hw a w' ha := by
    obtain ⟨b, w₁, hb, hw₁, hQ⟩ := h w hw
    rw [ha] at hb
    cases hb
    exact ⟨hw₁, hQ⟩
  answers _ w hw := by
    obtain ⟨a, w', ha, _⟩ := h w hw
    exact ⟨a, w', ha⟩

theorem mono (h : Upholds T P r Q) (hQ : ∀ a, Q a → Q' a) : Upholds T P r Q' where
  yields w hw a w' ha := (h.yields w hw a w' ha).imp_right (hQ a)
  answers := h.answers

theorem pure {a : α} (h : Q a) : Upholds T P (Pure.pure a) Q :=
  .of_exists fun w hw => ⟨a, w, rfl, hw, h⟩

theorem bind (hr : Upholds T P r Q) (hk : ∀ a, Q a → Upholds T P (k a) R) :
    Upholds T P (r >>= k) R where
  yields w hw b w₂ hb := by
    obtain ⟨⟨a, w₁⟩, ha, hrest⟩ := Option.bind_eq_some_iff.mp hb
    obtain ⟨hw₁, hQ⟩ := hr.yields w hw a w₁ ha
    exact (hk a hQ).yields w₁ hw₁ b w₂ hrest
  answers hT w hw := by
    obtain ⟨a, w₁, ha, hw₁, hQ⟩ := hr.exists_answer hT hw
    obtain ⟨b, w₂, hb⟩ := (hk a hQ).answers hT w₁ hw₁
    exact ⟨b, w₂, (run_bind_of_some ha k).trans hb⟩

/-- It is enough that from each world of the kind it does what some run does that upholds
the kind. -/
theorem locally (h : ∀ w, P w → ∃ r', Upholds T P r' Q ∧ r w = r' w) : Upholds T P r Q where
  yields w hw a w' ha := by
    obtain ⟨r', hr', heq⟩ := h w hw
    exact hr'.yields w hw a w' (heq ▸ ha)
  answers hT w hw := by
    obtain ⟨r', hr', heq⟩ := h w hw
    rw [heq]
    exact hr'.answers hT w hw

theorem change {f : World σ → World σ} (a : World σ → α) (hP : ∀ w, P w → P (f w)) :
    Upholds T P (modifyGet fun w => (a w, f w)) fun _ => True :=
  .of_exists fun w hw => ⟨a w, f w, rfl, hP w hw, trivial⟩

theorem branch (c : Prop) [Decidable c] {r' : Run σ α} (h : Upholds T P r Q)
    (h' : Upholds T P r' Q) : Upholds T P (if c then r else r') Q := by
  split
  · exact h
  · exact h'

end Run.Upholds

/-- The act upholds the kind, and it does not fail. -/
def Act.Upholds (T : Prop) (P : World σ → Prop) (a : Act σ α) (Q : α → Prop) : Prop :=
  Run.Upholds T P a.run fun o => ∃ x, o = .ok x ∧ Q x

namespace Act.Upholds

theorem mono {a : Act σ α} (h : Upholds T P a Q) (hQ : ∀ x, Q x → Q' x) : Upholds T P a Q' :=
  Run.Upholds.mono h fun _ ⟨x, ho, hx⟩ => ⟨x, ho, hQ x hx⟩

theorem succeed {a : α} (h : Q a) : Upholds T P (pure a : Act σ α) Q :=
  Run.Upholds.pure ⟨a, rfl, h⟩

theorem andThen {a : Act σ α} {k : α → Act σ β} (ha : Upholds T P a Q)
    (hk : ∀ x, Q x → Upholds T P (k x) R) : Upholds T P (a >>= k) R := by
  unfold Upholds
  rw [ExceptT.run_bind]
  refine ha.bind fun o ⟨x, ho, hQ⟩ => ?_
  rw [ho]
  exact hk x hQ

theorem branch (c : Prop) [Decidable c] {a a' : Act σ α} (h : Upholds T P a Q)
    (h' : Upholds T P a' Q) : Upholds T P (if c then a else a') Q := by
  split
  · exact h
  · exact h'

/-- An act with one answer, as the run that it is. -/
theorem outcome {a : Act σ α} {x : α} (h : Upholds T P a (· = x)) :
    Run.Upholds T P a.run (· = .ok x) :=
  Run.Upholds.mono h fun o ⟨y, ho, hy⟩ => by rw [ho, hy]

theorem ofRun {r : Run σ α} (h : Run.Upholds T P r Q) : Upholds T P (Act.ofRun r) Q :=
  h.bind fun a hQ => .pure ⟨a, rfl, hQ⟩

end Act.Upholds

/-- If the act ends well, from a world of the kind, what it answers is of the sort; however
it ends, it leaves a world of the kind. -/
def Act.Yields (P : World σ → Prop) (a : Act σ α) (Q : α → Prop) : Prop :=
  Run.Upholds False P a.run fun o => ∀ x, o = .ok x → Q x

namespace Act.Yields

theorem mono {a : Act σ α} (h : Yields P a Q) (hQ : ∀ x, Q x → Q' x) : Yields P a Q' :=
  Run.Upholds.mono h fun _ ho x hx => hQ x (ho x hx)

theorem succeed {a : α} (h : Q a) : Yields P (pure a : Act σ α) Q :=
  Run.Upholds.pure fun _ hx => Except.ok.inj hx ▸ h

theorem fail (f : Fault) : Yields P (Act.fail f : Act σ α) Q :=
  Run.Upholds.pure fun _ hx => nomatch hx

theorem andThen {a : Act σ α} {k : α → Act σ β} (ha : Yields P a Q)
    (hk : ∀ x, Q x → Yields P (k x) R) : Yields P (a >>= k) R := by
  unfold Yields
  rw [ExceptT.run_bind]
  refine ha.bind fun o ho => ?_
  cases o with
  | ok x => exact hk x (ho x rfl)
  | error e => exact .pure fun _ hx => nomatch hx

theorem branch (c : Prop) [Decidable c] {a a' : Act σ α} (h : Yields P a Q)
    (h' : Yields P a' Q) : Yields P (if c then a else a') Q := by
  split
  · exact h
  · exact h'

theorem ofRun {r : Run σ α} (h : Run.Upholds False P r Q) : Yields P (Act.ofRun r) Q :=
  h.bind fun _ hQ => .pure fun _ hx => Except.ok.inj hx ▸ hQ

theorem ofExcept (o : Except Fault α) : Yields P (Act.ofExcept o) (o = .ok ·) := by
  cases o with
  | ok x => exact succeed rfl
  | error f => exact fail f

end Act.Yields

/-- A run that keeps to a trail upholds what holds along it. -/
theorem Tracks.upholds {code : Code σ} {τ : Trail code} {r : Run σ α} (h : Tracks τ r r)
    (hanswers : T → ∀ w, τ.holds w → ∃ x, r w = some x) :
    Run.Upholds T τ.holds r fun _ => True where
  yields w hw x w' hx := ⟨τ.onward hw ((h w hw).leads x w' hx), trivial⟩
  answers hT w hw := by
    obtain ⟨⟨x, w'⟩, hx⟩ := hanswers hT w hw
    exact ⟨x, w', hx⟩

end Aspects
