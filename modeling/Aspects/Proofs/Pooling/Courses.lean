import Aspects.Engine
import Aspects.Proofs.Pooling.Ledger

/-!
# Runs that keep the books of a pool

Whoever gets a target from a pooled source, or gives one back, takes the books of its pool
on by steps. A caller who wants a target takes one of four courses (`Source.Course`): one
has waited; a place is taken and a target made for it; a place is taken and given up again,
since none could be made; or nothing waits and all places are taken, and the caller times
out.

While a target is made the factory may turn to the same pool, and the books go on
(`Onward`). It is accountable for what it does if that comes to steps as well, if nobody
else loses a place or a target by it, and if what it makes is new. A caller whose factory is
accountable takes one of the courses (`Source.course_of_acquire`).
-/

namespace Aspects

variable {σ : Type} {env : Env σ} {id : SourceId} {w w₁ w₂ w' : World σ} {t : TypeDesc}
  {factory : Routine} {givesUp : Bool} {p : Pool} {l l₁ l₂ l' : Ledger} {caller : Nat}

/-! ## Books -/

/-- The pool of the source is the one in the books, and its targets have numbers that were
given out. -/
structure World.Books (w : World σ) (id : SourceId) (l : Ledger) : Prop where
  source : ∃ t factory givesUp, w.source id = .pooled t factory givesUp l.pool
  numbered : ∀ i ∈ l.known, i < w.serial

/-- From a world with its books to another one with its books, a stretch of steps in which
callers keep their places and the targets that they have got, but for those `held` which
may have come back. A target that was not known before has a new number. -/
structure Onward (id : SourceId) (held : List Object) (w : World σ) (l : Ledger)
    (w' : World σ) (l' : Ledger) : Prop where
  steps : l.Steps l'
  places : l.making ⊆ l'.making
  loans : ∀ o ∈ l.lent, o.id ∉ held.map (·.id) → o ∈ l'.lent
  serial_le : w.serial ≤ w'.serial
  known_new : ∀ i ∈ l'.known, i ∈ l.known ∨ w.serial ≤ i
  books : w'.Books id l'

/-- What was made on the way is a new object: it has one of the numbers that were drawn
before or one that was given out on the way, and the books do not know it. -/
structure Novel (drawn : List Nat) (w w' : World σ) (l' : Ledger) (o : Object) : Prop where
  number : o.id ∈ drawn ∨ w.serial ≤ o.id
  given : o.id < w'.serial
  unknown : o.id ∉ l'.known

namespace Onward

variable {held held' : List Object}

/-- Nothing happens to the pool. -/
theorem of_source (hbooks : w.Books id l) (hsource : w'.source id = w.source id)
    (hserial : w.serial ≤ w'.serial) : Onward id held w l w' l where
  steps := .refl
  places := List.Subset.refl _
  loans _ ho _ := ho
  serial_le := hserial
  known_new _ hi := .inl hi
  books := ⟨hsource ▸ hbooks.source, fun i hi => Nat.lt_of_lt_of_le (hbooks.numbered i hi) hserial⟩

theorem trans (h : Onward id held w l w₁ l₁) (h' : Onward id held w₁ l₁ w₂ l₂) :
    Onward id held w l w₂ l₂ where
  steps := h.steps.trans h'.steps
  places _ hcaller := h'.places (h.places hcaller)
  loans o ho hheld := h'.loans o (h.loans o ho hheld) hheld
  serial_le := Nat.le_trans h.serial_le h'.serial_le
  known_new i hi := by
    rcases h'.known_new i hi with hi | hi
    · exact h.known_new i hi
    · exact .inr (Nat.le_trans h.serial_le hi)
  books := h'.books

theorem mono (h : Onward id held w l w' l') (hheld : held ⊆ held') :
    Onward id held' w l w' l' where
  steps := h.steps
  places := h.places
  loans o ho hnot := h.loans o ho fun hmem => hnot (List.map_subset _ hheld hmem)
  serial_le := h.serial_le
  known_new := h.known_new
  books := h.books

/-- What has a number that was given out before, and is not known, stays unknown. -/
theorem unknown (h : Onward id held w l w' l') {i : Nat} (hi : i ∉ l.known)
    (hgiven : i < w.serial) : i ∉ l'.known := by
  intro hknown
  rcases h.known_new i hknown with hbefore | hnew
  · exact hi hbefore
  · omega

end Onward

/-- The source has another pool. -/
def World.withPool (w : World σ) (id : SourceId) (p : Pool) : World σ :=
  Source.updatePool id (fun _ => p) w

theorem World.source_updatePool (h : w.source id = .pooled t factory givesUp p)
    (f : Pool → Pool) :
    (Source.updatePool id f w).source id = .pooled t factory givesUp (f p) := by
  have hid : id.index < w.sources.size := by
    refine Nat.lt_of_not_le fun hle => ?_
    unfold World.source at h
    rw [Array.getElem?_eq_none hle] at h
    cases h
  unfold Source.updatePool
  rw [h]
  unfold World.setSource World.source
  simp [hid, Source.mapPool]

/-- The books are kept if the pool becomes that of the new ones. -/
theorem World.Books.updatePool (h : w.Books id l) {f : Pool → Pool}
    (hpool : l'.pool = f l.pool) (hknown : ∀ i ∈ l'.known, i < w.serial) :
    (Source.updatePool id f w).Books id l' := by
  obtain ⟨⟨t, factory, givesUp, hsource⟩, _⟩ := h
  refine ⟨⟨t, factory, givesUp, ?_⟩, hknown⟩
  rw [World.source_updatePool hsource, hpool]

/-! ## Getting targets and giving them back -/

namespace Source

/-- The failure of a caller who found nothing. -/
def outOfTime (t : TypeDesc) (p : Pool) : Failure :=
  .fault (.targetSource ("timed out waiting for a pooled " ++ t.name ++
    " (max size " ++ toString p.maxSize ++ ")"))

theorem acquire_pooled (h : w.source id = .pooled t factory givesUp p) :
    (acquire env id).run w = match p.offer with
      | .target o left => some (.ok (some o), w.withPool id left)
      | .place left => (createPooled env id factory).run (w.withPool id left)
      | .nothing => if givesUp then some (.error (outOfTime t p), w) else none := by
  unfold acquire
  rw [Act.run_world, h]
  dsimp only
  cases p.offer with
  | target o left => rfl
  | place left => rfl
  | nothing =>
    cases givesUp with
    | true => rfl
    | false => rfl

theorem createPooled_run (w : World σ) :
    (createPooled env id factory).run w
      = ((env.exec (env.code.create factory)).run w).map fun
          | (.ok o, w₁) => (.ok (some o), w₁)
          | (.error e, w₁) => (.error e, updatePool id Pool.giveUp w₁) := by
  unfold createPooled Act.attempt
  rw [Act.run_ofRun]
  cases (env.exec (env.code.create factory)).run w with
  | none => rfl
  | some made =>
    obtain ⟨_ | o, w₁⟩ := made
    · rfl
    · rfl

theorem release_pooled (h : w.source id = .pooled t factory givesUp p) (o : Object) :
    (release env id o).run w = some (.ok (), updatePool id (·.giveBack o) w) := by
  unfold release
  rw [Act.run_world, h]
  rfl

/-- Whenever the factory makes a target, or fails to, the books go on, and what it makes is
new. -/
def Accountable (env : Env σ) (id : SourceId) (factory : Routine) : Prop :=
  ∀ w l, w.Books id l → l.Balanced →
    ∀ made w', (env.exec (env.code.create factory)).run w = some (made, w') →
      ∃ l', Onward id [] w l w' l' ∧ ∀ o, made = .ok o → Novel [] w w' l' o

/-- The course of a caller who wants a target: what the caller gets, and the world and the
books afterwards. -/
inductive Course (env : Env σ) (id : SourceId) (factory : Routine) (caller : Nat) (l : Ledger)
    (w : World σ) : Outcome Value → World σ → Ledger → Prop
  | waited {o : Object} {left : Pool} (h : l.pool.offer = .target o left) :
    Course env id factory caller l w (.ok (some o)) (w.withPool id left) (l.lend o left)
  /-- A target was made for the place that was taken. -/
  | made {left : Pool} {o : Object} {w₁ : World σ} {l₁ : Ledger}
    (h : l.pool.offer = .place left)
    (hmade : (env.exec (env.code.create factory)).run (w.withPool id left)
      = some (.ok o, w₁))
    (honward : Onward id [] (w.withPool id left) (l.reserve caller left) w₁ l₁)
    (hnovel : Novel [] (w.withPool id left) w₁ l₁ o) :
    Course env id factory caller l w (.ok (some o)) w₁ (l₁.make caller o)
  /-- None could be made, and the place is given up. -/
  | failed {left : Pool} {e : Failure} {w₁ : World σ} {l₁ : Ledger}
    (h : l.pool.offer = .place left)
    (hfailed : (env.exec (env.code.create factory)).run (w.withPool id left)
      = some (.error e, w₁))
    (honward : Onward id [] (w.withPool id left) (l.reserve caller left) w₁ l₁) :
    Course env id factory caller l w (.error e) (updatePool id Pool.giveUp w₁)
      (l₁.fail caller)
  /-- Nothing waits, and all places are taken. -/
  | timedOut {t : TypeDesc} (hidle : l.pool.idle = [])
    (hfull : l.pool.maxSize ≤ l.pool.active) :
    Course env id factory caller l w (.error (outOfTime t l.pool)) w l

namespace Course

variable {got : Outcome Value}

/-- The places of others are still taken when the caller's is taken no more. -/
theorem places_erase (hcaller : caller ∉ l.making) (h : caller :: l.making ⊆ l₁.making) :
    l.making ⊆ l₁.making.erase caller := by
  intro other hother
  have hne : other ≠ caller := fun heq => hcaller (heq ▸ hother)
  exact (List.mem_erase_of_ne hne).mpr (h (List.mem_cons_of_mem _ hother))

/-- On every course the books go on. -/
theorem onward (h : Course env id factory caller l w got w' l') (hcaller : caller ∉ l.making)
    (hbooks : w.Books id l) : Onward id [] w l w' l' := by
  cases h with
  | @waited o left hoffer =>
    have hknown : ∀ i ∈ (l.lend o left).known, i ∈ l.known :=
      fun i hi => (Ledger.known_lend hoffer).mem_iff.mp hi
    exact {
      steps := .single (.lend hoffer)
      places := List.Subset.refl _
      loans := fun x hx _ => List.mem_cons_of_mem _ hx
      serial_le := Nat.le_refl _
      known_new := fun i hi => .inl (hknown i hi)
      books := hbooks.updatePool rfl fun i hi => hbooks.numbered i (hknown i hi) }
  | @made left o w₁ l₁ hoffer _ honward hnovel =>
    have hreserved := Ledger.Step.reserve caller hoffer hcaller
    have hstill : caller ∈ l₁.making := honward.places List.mem_cons_self
    have hknown : ∀ i ∈ (l₁.make caller o).known, i = o.id ∨ i ∈ l₁.known :=
      fun i hi => List.mem_cons.mp ((Ledger.known_make l₁ caller o).mem_iff.mp hi)
    refine {
      steps := (Relation.ReflTransGen.head hreserved honward.steps).tail
        (.make _ hstill hnovel.unknown)
      places := places_erase hcaller honward.places
      loans := fun x hx hnot => List.mem_cons_of_mem _ (honward.loans x hx hnot)
      serial_le := honward.serial_le
      known_new := fun i hi => ?_
      books := ⟨honward.books.source, fun i hi => ?_⟩ }
    · rcases hknown i hi with rfl | hi
      · exact .inr (hnovel.number.resolve_left List.not_mem_nil)
      · rw [← Ledger.known_reserve hoffer caller]
        exact honward.known_new i hi
    · rcases hknown i hi with rfl | hi
      · exact hnovel.given
      · exact honward.books.numbered i hi
  | @failed left e w₁ l₁ hoffer _ honward =>
    have hreserved := Ledger.Step.reserve caller hoffer hcaller
    have hstill : caller ∈ l₁.making := honward.places List.mem_cons_self
    refine {
      steps := (Relation.ReflTransGen.head hreserved honward.steps).tail (.fail hstill)
      places := places_erase hcaller honward.places
      loans := honward.loans
      serial_le := honward.serial_le
      known_new := fun i hi => ?_
      books := honward.books.updatePool rfl honward.books.numbered }
    rw [← Ledger.known_reserve hoffer caller]
    exact honward.known_new i hi
  | timedOut hidle hfull =>
    have hnothing := (Pool.offer_eq_nothing_iff _).mpr ⟨hidle, hfull⟩
    exact { Onward.of_source hbooks rfl (Nat.le_refl _) with
      steps := .single (.timeOut hnothing) }

/-- A target that the caller gets is lent then, and nobody had it before. -/
theorem lent (h : Course env id factory caller l w got w' l') (hbalanced : l.Balanced)
    {o : Object} (ho : got = .ok (some o)) : o ∈ l'.lent ∧ ∀ x ∈ l.lent, x.id ≠ o.id := by
  cases h with
  | waited hoffer =>
    cases ho
    obtain ⟨rest, hidle, _⟩ := Pool.of_offer_target hoffer
    refine ⟨List.mem_cons_self, fun x hx heq => ?_⟩
    have hdistinct := hbalanced.distinct
    unfold Ledger.known at hdistinct
    rw [hidle, List.cons_append, List.map_cons, List.nodup_cons] at hdistinct
    refine hdistinct.1 (List.mem_map.mpr ⟨x, List.mem_append_right _ hx, heq⟩)
  | made hoffer _ honward hnovel =>
    cases ho
    refine ⟨List.mem_cons_self, fun x hx heq => hnovel.unknown ?_⟩
    have hstill := honward.loans x hx List.not_mem_nil
    exact List.mem_map.mpr ⟨x, List.mem_append_right _ hstill, heq⟩
  | failed => cases ho
  | timedOut => cases ho

end Course

/-- A caller whose factory is accountable takes one of the courses. -/
theorem course_of_acquire (hsource : w.source id = .pooled t factory givesUp l.pool)
    (hbooks : w.Books id l) (hbalanced : l.Balanced) (hcaller : caller ∉ l.making)
    (hfactory : Accountable env id factory) {got : Outcome Value}
    (h : (acquire env id).run w = some (got, w')) :
    ∃ l', Course env id factory caller l w got w' l' := by
  rw [acquire_pooled hsource] at h
  cases hoffer : l.pool.offer with
  | target o left =>
    rw [hoffer] at h
    cases h
    exact ⟨_, .waited hoffer⟩
  | place left =>
    rw [hoffer] at h
    dsimp only at h
    rw [createPooled_run] at h
    obtain ⟨⟨made, w₁⟩, hmade, hk⟩ := Option.map_eq_some_iff.mp h
    -- the place is taken when the factory begins
    have hreserved : (w.withPool id left).Books id (l.reserve caller left) :=
      hbooks.updatePool rfl (Ledger.known_reserve hoffer caller ▸ hbooks.numbered)
    obtain ⟨l₁, honward, hnovel⟩ := hfactory _ _ hreserved
      (hbalanced.step (.reserve caller hoffer hcaller)) made w₁ hmade
    cases made with
    | ok o =>
      cases hk
      exact ⟨_, .made hoffer hmade honward (hnovel o rfl)⟩
    | error e =>
      cases hk
      exact ⟨_, .failed hoffer hmade honward⟩
  | nothing =>
    obtain ⟨hidle, hfull⟩ := (Pool.offer_eq_nothing_iff _).mp hoffer
    rw [hoffer] at h
    cases givesUp with
    | true =>
      cases h
      exact ⟨_, .timedOut hidle hfull⟩
    | false => cases h

/-- Giving back a target that is lent is a step, by which nobody else loses one. -/
theorem onward_of_release (hbooks : w.Books id l) {o : Object} (ho : o ∈ l.lent)
    {given : Outcome Unit} (h : (release env id o).run w = some (given, w')) :
    Onward id [o] w l w' (l.takeBack o) := by
  obtain ⟨t, factory, givesUp, hsource⟩ := hbooks.source
  rw [release_pooled hsource] at h
  cases h
  have hlent : ∃ o' ∈ l.lent, o'.same o = true := ⟨o, ho, beq_self_eq_true _⟩
  have hknown : ∀ i ∈ (l.takeBack o).known, i ∈ l.known :=
    fun i hi => (Ledger.known_takeBack hlent).mem_iff.mp hi
  refine {
    steps := .single (.takeBack hlent)
    places := List.Subset.refl _
    loans := fun x hx hnot => ?_
    serial_le := Nat.le_refl _
    known_new := fun i hi => .inl (hknown i hi)
    books := hbooks.updatePool rfl fun i hi => hbooks.numbered i (hknown i hi) }
  have hother : ¬x.same o = true := fun hsame =>
    hnot (List.mem_map.mpr ⟨o, List.mem_singleton_self o, (beq_iff_eq.mp hsame).symm⟩)
  exact (List.mem_eraseP_of_neg (p := (·.same o)) hother).mpr hx

end Source

end Aspects
