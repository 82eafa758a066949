import Aspects.Adapters

/-!
# Making interceptors

All adapters of a list that understand the advice of an advisor are asked for what they make
of it, and each of the interceptors gets a number. This does not fail if some adapter
understands the advice, or if the advice is an interceptor already, and if no adapter refuses
what it claims to understand (`interceptors_made`). Nothing but the next number is changed by
it.
-/

namespace Aspects.Adapter

variable {σ : Type} {adapters : List Adapter} {a : Advisor} {S : Interception → Prop}

theorem number_cons_eq (i : Interception) (is : List Interception) :
    (number (i :: is) : Run σ _) =
      freshId >>= fun id => number is >>= fun made => pure (⟨id, i⟩ :: made) := by
  simp [number, List.mapM_cons]

theorem number_cons (i : Interception) (is : List Interception) (w : World σ) :
    number (i :: is) w = (number is { w with serial := w.serial + 1 }).map fun (made, w') =>
      (⟨w.serial, i⟩ :: made, w') := by
  rw [number_cons_eq]
  show (number is { w with serial := w.serial + 1 }).bind _ = _
  cases number is { w with serial := w.serial + 1 } with
  | none => rfl
  | some r => rfl

theorem number_eq (actions : List Interception) (w : World σ) :
    ∃ made serial, number actions w = some (made, { w with serial }) ∧
      made.map Interceptor.action = actions := by
  induction actions generalizing w with
  | nil => exact ⟨[], w.serial, rfl, rfl⟩
  | cons i is ih =>
    obtain ⟨made, serial, hmade, hactions⟩ := ih { w with serial := w.serial + 1 }
    refine ⟨⟨w.serial, i⟩ :: made, serial, ?_, by simp [hactions]⟩
    rw [number_cons, hmade]
    rfl

/-- If no adapter refuses, there is one interception for each of them. -/
theorem interceptions_ok {l : List Adapter} {advice : Advice}
    (h : ∀ adapter ∈ l, ∃ i, adapter.interception? advice = .ok i ∧ S i) :
    ∃ is, l.mapM (·.interception? advice) = .ok is ∧ is.length = l.length ∧ ∀ i ∈ is, S i := by
  induction l with
  | nil => exact ⟨[], rfl, rfl, fun _ hi => absurd hi List.not_mem_nil⟩
  | cons adapter l ih =>
    obtain ⟨i, hi, hS⟩ := h adapter List.mem_cons_self
    obtain ⟨is, his, hlength, hall⟩ := ih fun x hx => h x (List.mem_cons_of_mem _ hx)
    refine ⟨i :: is, ?_, by simp [hlength], fun j hj => ?_⟩
    · rw [List.mapM_cons, hi, his]
      rfl
    · rcases List.mem_cons.mp hj with rfl | hj
      · exact hS
      · exact hall j hj

/-- The interceptor that advice is already. -/
def own : Advice → List Interceptor
  | .interceptor i => [i]
  | _ => []

theorem interceptors_run {actions : List Interception}
    (h : interceptions adapters a.advice = .ok actions) {w w' : World σ}
    {made : List Interceptor} (hmade : number actions w = some (made, w'))
    (hsome : own a.advice ++ made ≠ []) :
    (interceptors adapters a).run w = some (.ok (own a.advice ++ made), w') := by
  have hempty : ¬ (own a.advice ++ made).isEmpty := by
    simpa using hsome
  unfold interceptors
  rw [h]
  show (Act.ofRun (number actions) >>= fun made =>
    if (own a.advice ++ made).isEmpty then _ else pure (own a.advice ++ made)).run w = _
  rw [Act.run_ofRun, hmade]
  simp only [Option.bind_some, if_neg hempty]
  rfl

/-- Advice that is understood, by adapters of which none refuses it. -/
theorem interceptors_made (hsupported : anySupports adapters a.advice = true)
    (hown : ∀ i, a.advice = .interceptor i → S i.action)
    (hmake : ∀ adapter ∈ adapters, adapter.supports a.advice = true →
      ∃ i, adapter.interception? a.advice = .ok i ∧ S i) (w : World σ) :
    ∃ made serial, (interceptors adapters a).run w = some (.ok made, { w with serial }) ∧
      ∀ x ∈ made, S x.action := by
  obtain ⟨actions, hactions, hlength, hall⟩ :=
    interceptions_ok (l := adapters.filter (·.supports a.advice)) fun adapter h =>
      hmake adapter (List.mem_filter.mp h).1 (List.mem_filter.mp h).2
  obtain ⟨made, serial, hmade, hmap⟩ := number_eq actions w
  refine ⟨own a.advice ++ made, serial, interceptors_run hactions hmade fun hnil => ?_,
    fun x hx => ?_⟩
  -- with no interceptor at all the advice is none itself, and no adapter understands it
  · obtain ⟨hnoOwn, rfl⟩ := List.append_eq_nil_iff.mp hnil
    rw [← hmap, List.map_nil, List.length_nil, eq_comm, List.length_eq_zero_iff,
      List.filter_eq_nil_iff] at hlength
    unfold anySupports at hsupported
    rw [Bool.or_eq_true] at hsupported
    rcases hsupported with hkind | hany
    · cases ha : a.advice with
      | interceptor i =>
        rw [ha] at hnoOwn
        cases hnoOwn
      | _ =>
        rw [ha] at hkind
        cases hkind
    · obtain ⟨adapter, hadapter, hs⟩ := List.any_eq_true.mp hany
      exact hlength adapter hadapter hs
  · rcases List.mem_append.mp hx with hx | hx
    · cases ha : a.advice with
      | interceptor i =>
        rw [ha] at hx
        rw [List.mem_singleton.mp hx]
        exact hown i ha
      | _ =>
        rw [ha] at hx
        cases hx
    · exact hall x.action (hmap ▸ List.mem_map_of_mem hx)

end Aspects.Adapter
