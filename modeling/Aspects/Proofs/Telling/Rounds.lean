import Aspects.Proofs.Telling.Life

/-!
# Rounds of telling

Listeners are told one after the other, and each may do what it likes before the next is
told. `Telling` is such a round together with the moments in which the listeners were
told, and what is to be shown of these moments is shown by an induction over it
(`Telling.keeps`).
-/

namespace Aspects

variable {σ : Type} {w w' : World σ}

/-- Listeners are told one after the other, each in the world that stands beside it in
which it begins to do what it does. -/
inductive Telling (env : Env σ) (entry : Routine → Entry) (callback : Routine → Action σ Unit) :
    List (Routine × World σ) → World σ → World σ → Prop
  | done (w : World σ) : Telling env entry callback [] w w
  | next {moments : List (Routine × World σ)} {w w₁ w₂ : World σ} (l : Routine) :
    env.run (callback l) (w.record (entry l)) = some ((), w₁) →
    Telling env entry callback moments w₁ w₂ →
    Telling env entry callback ((l, w.record (entry l)) :: moments) w w₂

namespace Telling

variable {env : Env σ} {entry : Routine → Entry} {callback : Routine → Action σ Unit}
  {moments : List (Routine × World σ)}

/-- Telling listeners is such a round. -/
theorem iff_notify {ls : List Routine} :
    Configuration.notify env entry callback ls w = some ((), w') ↔
      ∃ moments, moments.map (·.1) = ls ∧ Telling env entry callback moments w w' := by
  induction ls generalizing w with
  | nil =>
    constructor
    · intro h
      cases h
      exact ⟨[], rfl, .done _⟩
    · rintro ⟨moments, hls, h⟩
      rw [List.map_eq_nil_iff] at hls
      subst hls
      cases h
      rfl
  | cons l ls ih =>
    have hrun : Configuration.notify env entry callback (l :: ls) w
        = (env.run (callback l) (w.record (entry l))).bind fun r =>
            Configuration.notify env entry callback ls r.2 := rfl
    rw [hrun, Option.bind_eq_some_iff]
    constructor
    · rintro ⟨⟨_, w₁⟩, hl, hrest⟩
      obtain ⟨moments, hls, hmoments⟩ := ih.mp hrest
      exact ⟨(l, w.record (entry l)) :: moments, by rw [← hls]; rfl, .next l hl hmoments⟩
    · rintro ⟨moments, hls, h⟩
      cases h with
      | done => cases hls
      | @next rest _ w₁ _ l' hl hrest =>
        rw [List.map_cons, List.cons.injEq] at hls
        obtain ⟨rfl, hls⟩ := hls
        exact ⟨((), w₁), hl, ih.mpr ⟨rest, hls, hrest⟩⟩

/-- What holds as the telling begins, and is left alone by writing down who is told and by
what these do, holds whenever one is told and at the end. If nobody else is told the like
then those are told who are to be told, in their order. -/
theorem keeps (I : World σ → Prop) {choose : Entry → Option Routine}
    (hchosen : ∀ l, choose (entry l) = some l)
    (htold : ∀ v l, I v → I (v.record (entry l)))
    (hrun : ∀ l ∈ moments.map (·.1), ∀ v v', I v → env.run (callback l) v = some ((), v') →
      I v' ∧ v'.chosen choose = v.chosen choose)
    (h : Telling env entry callback moments w w') (hw : I w) :
    I w' ∧ (∀ m ∈ moments, I m.2) ∧
      w'.chosen choose = w.chosen choose ++ moments.map (·.1) := by
  induction h with
  | done w => exact ⟨hw, by simp, by simp⟩
  | @next moments w w₁ w₂ l hl _ ih =>
    have hbegins := htold w l hw
    obtain ⟨hw₁, hsame⟩ := hrun l List.mem_cons_self _ w₁ hbegins hl
    obtain ⟨hw₂, hmoments, hall⟩ := ih (fun l' hl' => hrun l' (List.mem_cons_of_mem _ hl')) hw₁
    refine ⟨hw₂, List.forall_mem_cons.mpr ⟨hbegins, hmoments⟩, ?_⟩
    rw [hall, hsame, World.chosen_record, hchosen]
    simp

end Telling

end Aspects
