import Aspects.Proofs.Pooling.Courses

/-!
# Clients of a pool

A client of a pool is a program that gets targets from it, gives back none but those that it
still holds, and may draw numbers and do what has nothing to do with the pool meanwhile
(`Client`). A factory may be a client of the very pool for which it makes targets, if what
it makes is a new object. Then its pool runs it again while it is running, perhaps many
levels deep, and it is accountable all the same (`accountable_of_client`): by induction on
the room for nested commands, what it gets from the pool it gets by one of the courses.

So however clients and factories go about it, the books of the pool stay balanced
(`pool_accounted`).
-/

namespace Aspects

variable {σ : Type} {α : Type} {id : SourceId} {w w₁ w' : World σ} {l : Ledger}
  {held : List Object} {drawn : List Nat}

/-- Wherever the command is carried out, it leaves the source as it was, and takes back no
number that was given out. -/
def Command.LeavesAlone {β : Type} (c : Command σ β) (id : SourceId) : Prop :=
  ∀ env w b w', Engine.meaning env c w = some (b, w') →
    w'.source id = w.source id ∧ w.serial ≤ w'.serial

theorem Command.leavesAlone_note (line : String) (id : SourceId) :
    (Command.note line : Command σ Unit).LeavesAlone id := by
  intro env w b w' h
  cases h
  exact ⟨rfl, Nat.le_refl _⟩

/-- A program that is a client of the pool of the source, while it holds some targets from it
and has drawn some numbers. What it may answer depends on the numbers drawn by then. -/
inductive Client (id : SourceId) (may : List Nat → α → Prop) :
    List Object → List Nat → Action σ α → Prop
  | answers {held : List Object} {drawn : List Nat} {a : α} (h : may drawn a) :
    Client id may held drawn (.done a)
  | draws {held : List Object} {drawn : List Nat} {next : Nat → Action σ α}
    (h : ∀ n, Client id may held (n :: drawn) (next n)) :
    Client id may held drawn (.issue .fresh next)
  | gets {held : List Object} {drawn : List Nat} {next : Outcome Value → Action σ α}
    (hgot : ∀ o, Client id may (o :: held) drawn (next (.ok (some o))))
    (hfailed : ∀ e, Client id may held drawn (next (.error e))) :
    Client id may held drawn (.issue (.acquire id) next)
  | returns {held : List Object} {drawn : List Nat} {o : Object}
    {next : Outcome Unit → Action σ α} (ho : o ∈ held)
    (h : ∀ given, Client id may (held.filter (!·.same o)) drawn (next given)) :
    Client id may held drawn (.issue (.release id o) next)
  | turnsAway {held : List Object} {drawn : List Nat} {β : Type} {c : Command σ β}
    {next : β → Action σ α} (hc : c.LeavesAlone id)
    (h : ∀ b, Client id may held drawn (next b)) :
    Client id may held drawn (.issue c next)

/-- What a factory may answer: an object that has a number which it drew, or a failure. -/
def Makes (drawn : List Nat) (made : Outcome Object) : Prop :=
  ∀ o, made = .ok o → o.id ∈ drawn

/-- Numbers that were given out, but to none of the targets in the books. -/
def Spare (drawn : List Nat) (w : World σ) (l : Ledger) : Prop :=
  ∀ n ∈ drawn, n < w.serial ∧ n ∉ l.known

theorem Spare.onward {held : List Object} {w' : World σ} {l' : Ledger}
    (h : Spare drawn w l) (honward : Onward id held w l w' l') : Spare drawn w' l' :=
  fun n hn => ⟨Nat.lt_of_lt_of_le (h n hn).1 honward.serial_le,
    honward.unknown (h n hn).2 (h n hn).1⟩

/-- There is always one more caller. -/
theorem Ledger.exists_caller (l : Ledger) : ∃ caller, caller ∉ l.making := by
  refine ⟨l.making.max?.getD 0 + 1, fun hmem => ?_⟩
  have hle := List.le_max?_getD_of_mem (k := 0) hmem
  omega

/-- Commands are carried out, if at all, by an engine whose factories are accountable. -/
def Tended (env : Env σ) (id : SourceId) : Prop :=
  ∀ (β : Type) (c : Command σ β) (w : World σ) (b : β) (w' : World σ),
    env.perform c w = some (b, w') →
      ∃ inner : Env σ, (∀ factory, Source.Accountable inner id factory) ∧
        Engine.meaning inner c w = some (b, w')

namespace Client

variable {may : List Nat → α → Prop} {env : Env σ} {a : α}

theorem of_run_issue {β : Type} {c : Command σ β} {next : β → Action σ α}
    (h : env.run (.issue c next) w = some (a, w')) :
    ∃ b w₁, env.perform c w = some (b, w₁) ∧ env.run (next b) w₁ = some (a, w') := by
  obtain ⟨⟨b, w₁⟩, hperform, hrest⟩ := Option.bind_eq_some_iff.mp h
  exact ⟨b, w₁, hperform, hrest⟩

/-- A client has come to its end, with what it may answer. -/
def Ends (id : SourceId) (may : List Nat → α → Prop) (held : List Object) (drawn : List Nat)
    (w : World σ) (l : Ledger) (a : α) (w' : World σ) : Prop :=
  ∃ l' drawn', Onward id held w l w' l' ∧ may drawn' a ∧ Spare drawn' w' l' ∧
    ∀ n ∈ drawn', n ∈ drawn ∨ w.serial ≤ n

/-- It has so if it has done something first. -/
theorem Ends.after {l₁ : Ledger} (h : Ends id may held drawn w₁ l₁ a w')
    (honward : Onward id held w l w₁ l₁) : Ends id may held drawn w l a w' := by
  obtain ⟨l', drawn', hrest, hmay, hspare, hnumbers⟩ := h
  refine ⟨l', drawn', honward.trans hrest, hmay, hspare, fun n hn => ?_⟩
  rcases hnumbers n hn with hbefore | hnew
  · exact .inl hbefore
  · exact .inr (Nat.le_trans honward.serial_le hnew)

theorem Ends.after_draw (h : Ends id may held (w.serial :: drawn)
      { w with serial := w.serial + 1 } l a w') (hbooks : w.Books id l) :
    Ends id may held drawn w l a w' := by
  obtain ⟨l', drawn', hrest, hmay, hspare, hnumbers⟩ := h
  have honward : Onward id held w l { w with serial := w.serial + 1 } l :=
    .of_source hbooks rfl (Nat.le_succ _)
  refine ⟨l', drawn', honward.trans hrest, hmay, hspare, fun n hn => ?_⟩
  rcases hnumbers n hn with hbefore | hnew
  · rcases List.mem_cons.mp hbefore with rfl | hbefore
    · exact .inr (Nat.le_refl _)
    · exact .inl hbefore
  · exact .inr (Nat.le_trans (Nat.le_succ _) hnew)

/-- A target that was got on the way may come back: nobody has had it before. -/
theorem Ends.after_got {l₁ : Ledger} {o : Object} (h : Ends id may (o :: held) drawn w₁ l₁ a w')
    (honward : Onward id [] w l w₁ l₁) (hnew : ∀ x ∈ l.lent, x.id ≠ o.id) :
    Ends id may held drawn w l a w' := by
  obtain ⟨l', drawn', hrest, hmay, hspare, hnumbers⟩ :=
    h.after (honward.mono (List.nil_subset _))
  refine ⟨l', drawn', { hrest with loans := fun x hx hnot => ?_ }, hmay, hspare, hnumbers⟩
  refine hrest.loans x hx fun hmem => ?_
  rcases List.mem_cons.mp hmem with heq | hmem
  · exact hnew x hx heq
  · exact hnot hmem

/-- A client goes on by steps. Of those who have targets from the pool only it itself may
have given some back. -/
theorem ends (hE : Tended env id) {p : Action σ α} (hp : Client id may held drawn p)
    (hbooks : w.Books id l) (hbalanced : l.Balanced) (hheld : held ⊆ l.lent)
    (hspare : Spare drawn w l) (hrun : env.run p w = some (a, w')) :
    Ends id may held drawn w l a w' := by
  induction hp generalizing w l with
  | answers h =>
    cases hrun
    exact ⟨l, _, .of_source hbooks rfl (Nat.le_refl _), h, hspare, fun n hn => .inl hn⟩
  | draws h ih =>
    obtain ⟨n, w₁, hperform, hrest⟩ := of_run_issue hrun
    obtain ⟨inner, _, hmeaning⟩ := hE _ _ _ _ _ hperform
    cases hmeaning
    have honward : Onward id [] w l { w with serial := w.serial + 1 } l :=
      .of_source hbooks rfl (Nat.le_succ _)
    refine (ih _ honward.books hbalanced hheld (fun n hn => ?_) hrest).after_draw hbooks
    rcases List.mem_cons.mp hn with rfl | hn
    · -- the number has just been given out, so no target can have it
      exact ⟨Nat.lt_succ_self _, fun hknown => Nat.lt_irrefl _ (hbooks.numbered _ hknown)⟩
    · exact hspare.onward honward n hn
  | gets hgot hfailed ihgot ihfailed =>
    obtain ⟨got, w₁, hperform, hrest⟩ := of_run_issue hrun
    obtain ⟨inner, hfactories, hmeaning⟩ := hE _ _ _ _ _ hperform
    obtain ⟨t, factory, givesUp, hsource⟩ := hbooks.source
    obtain ⟨caller, hcaller⟩ := l.exists_caller
    obtain ⟨l₁, hcourse⟩ := Source.course_of_acquire hsource hbooks hbalanced hcaller
      (hfactories factory) hmeaning
    have honward := hcourse.onward hcaller hbooks
    have hbalanced₁ := hbalanced.steps honward.steps
    have hlent₁ : l.lent ⊆ l₁.lent := fun o ho => honward.loans o ho List.not_mem_nil
    have hheld₁ := List.Subset.trans hheld hlent₁
    have hspare₁ := hspare.onward honward
    match got with
    | .ok (some o) =>
      obtain ⟨hlent, hnew⟩ := hcourse.lent hbalanced rfl
      exact (ihgot o honward.books hbalanced₁ (List.cons_subset.mpr ⟨hlent, hheld₁⟩) hspare₁
        hrest).after_got honward hnew
    | .ok none => cases hcourse
    | .error e =>
      exact (ihfailed e honward.books hbalanced₁ hheld₁ hspare₁ hrest).after
        (honward.mono (List.nil_subset _))
  | @returns held drawn o next ho h ih =>
    obtain ⟨given, w₁, hperform, hrest⟩ := of_run_issue hrun
    obtain ⟨inner, _, hmeaning⟩ := hE _ _ _ _ _ hperform
    have honward := Source.onward_of_release hbooks (hheld ho) hmeaning
    have hstill : held.filter (!·.same o) ⊆ (l.takeBack o).lent := by
      intro x hx
      obtain ⟨hx, hother⟩ := List.mem_filter.mp hx
      refine honward.loans x (hheld hx) fun hmem => ?_
      have hid : x.id = o.id := List.mem_singleton.mp hmem
      simp [Object.same, hid] at hother
    obtain ⟨l', drawn', hends, hmay, hspare', hnumbers⟩ := ih given honward.books
      (hbalanced.steps honward.steps) hstill (hspare.onward honward) hrest
    refine Ends.after ⟨l', drawn', hends.mono List.filter_sublist.subset, hmay, hspare', hnumbers⟩
      (honward.mono ?_)
    exact List.cons_subset.mpr ⟨ho, List.nil_subset _⟩
  | @turnsAway held drawn β c next hc h ih =>
    obtain ⟨b, w₁, hperform, hrest⟩ := of_run_issue hrun
    obtain ⟨inner, _, hmeaning⟩ := hE _ _ _ _ _ hperform
    obtain ⟨hsource, hserial⟩ := hc inner w b w₁ hmeaning
    have honward : Onward id held w l w₁ l := .of_source hbooks hsource hserial
    exact (ih b honward.books hbalanced hheld (hspare.onward honward) hrest).after honward

end Client

theorem Engine.code_env (code : Code σ) (room : Nat) : (env code room).code = code := by
  cases room with
  | zero => rfl
  | succ room => rfl

/-- A factory that is a client is accountable if those are that its commands run. -/
theorem accountable_of_client {code : Code σ} {room : Nat}
    (hE : Tended (Engine.env code room) id) {factory : Routine}
    (h : Client id Makes [] [] (code.create factory).run) :
    Source.Accountable (Engine.env code room) id factory := by
  intro w l hbooks hbalanced made w' hrun
  rw [Engine.code_env] at hrun
  obtain ⟨l', drawn, honward, hmakes, hspare, hnumbers⟩ := Client.ends hE h hbooks hbalanced
    (List.nil_subset _) (fun n hn => absurd hn List.not_mem_nil) hrun
  refine ⟨l', honward, fun o ho => ?_⟩
  have hdrawn := hmakes o ho
  exact ⟨hnumbers _ hdrawn, (hspare _ hdrawn).1, (hspare _ hdrawn).2⟩

/-- If all factories are clients of the pool for which they make targets, those that commands
run are accountable, however deep the commands may be nested. -/
theorem tended_of_clients {code : Code σ}
    (h : ∀ factory, Client id Makes [] [] (code.create factory).run) (room : Nat) :
    Tended (Engine.env code room) id := by
  induction room with
  | zero =>
    intro β c w b w' hrun
    cases hrun
  | succ room ih =>
    intro β c w b w' hrun
    exact ⟨Engine.env code room, fun factory => accountable_of_client ih (h factory), hrun⟩

/-! ## The result -/

/-- Whatever has happened to a pool since it was new, the targets that wait and those that
are lent or being made are no more than it may hold; its counter stands for those that are
lent or being made; no target is in two places; and a factory that fails gives up the one
place that was taken for its caller.

It goes on like that. Who gets a target from a source with such a pool takes a course on
which the books go on, and finds nothing only if nothing waits and all places are taken; so
do the books when a target comes back that is lent, and through the whole run of a client,
where factories are accountable. They are so if they are clients of the pool themselves,
however deep they are nested. -/
theorem pool_accounted {size : Nat} {l : Ledger} (hl : (Ledger.opened size).Steps l) :
    (l.pool.maxSize = max size 1 ∧ l.Balanced ∧ ∀ caller ∈ l.making,
      (l.fail caller).pool = { l.pool with active := l.pool.active - 1 } ∧
        (l.fail caller).pool.active + 1 = l.pool.active) ∧
    (∀ (env : Env σ) (id : SourceId) (w : World σ), w.Books id l →
      (∀ t factory givesUp, w.source id = .pooled t factory givesUp l.pool →
        Source.Accountable env id factory → ∀ caller ∉ l.making, ∀ got w',
          (Source.acquire env id).run w = some (got, w') →
          ∃ l', Source.Course env id factory caller l w got w' l' ∧ Onward id [] w l w' l') ∧
      ∀ o ∈ l.lent, ∃ w', (Source.release env id o).run w = some (.ok (), w') ∧
        Onward id [o] w l w' (l.takeBack o)) ∧
    ∀ (code : Code σ) (id : SourceId),
      (∀ factory, Client id Makes [] [] (code.create factory).run) → ∀ room,
        (∀ factory, Source.Accountable (Engine.env code room) id factory) ∧
        ∀ (p : Action σ α) (may : List Nat → α → Prop), Client id may [] [] p →
          ∀ w a w', w.Books id l → Engine.run code room p w = some (a, w') →
            ∃ l', Onward id [] w l w' l' := by
  have hbalanced : l.Balanced := (Ledger.balanced_opened size).steps hl
  refine ⟨⟨hl.maxSize_eq, hbalanced, fun caller hcaller =>
    ⟨rfl, hbalanced.active_fail hcaller⟩⟩, fun env id w hbooks => ⟨?_, ?_⟩, ?_⟩
  · intro t factory givesUp hsource hfactory caller hcaller got w' hrun
    obtain ⟨l', hcourse⟩ :=
      Source.course_of_acquire hsource hbooks hbalanced hcaller hfactory hrun
    exact ⟨l', hcourse, hcourse.onward hcaller hbooks⟩
  · intro o ho
    obtain ⟨t, factory, givesUp, hsource⟩ := hbooks.source
    have hrun : (Source.release env id o).run w = _ := Source.release_pooled hsource o
    exact ⟨_, hrun, Source.onward_of_release hbooks ho hrun⟩
  · intro code id hclients room
    have hE := tended_of_clients hclients room
    refine ⟨fun factory => accountable_of_client hE (hclients factory), ?_⟩
    intro p may hp w a w' hbooks hrun
    obtain ⟨l', _, honward, _⟩ := Client.ends hE hp hbooks hbalanced (List.nil_subset _)
      (fun n hn => absurd hn List.not_mem_nil) hrun
    exact ⟨l', honward⟩

/-- A factory that first tries to get a target from the pool for which it makes one. What it
gets it gives back. -/
def Code.greedy : Code Unit :=
  { Code.idle with create := fun _ => ExceptT.mk do
      match ← Program.ofCommand (.acquire ⟨0⟩) with
      | .ok (some o) => discard (Program.ofCommand (.release ⟨0⟩ o))
      | _ => Program.ofCommand (.note "nothing waits")
      let n ← Program.ofCommand .fresh
      return .ok ⟨.root, n, .entity "made"⟩ }

/-- The one who asks gets the second target that is made. The first was made while that
was, and waits. -/
theorem greedy_accounted :
    ∃ w' l', (Source.acquire (Engine.env Code.greedy 3) ⟨0⟩).run
        { user := (), sources := #[.pooled .root ⟨0⟩ true (.ofSize 2)] }
          = some (.ok (some ⟨.root, 1, .entity "made"⟩), w') ∧
      (Ledger.opened 2).Steps l' ∧ l'.Balanced ∧ l'.pool.active = 1 ∧
      l'.pool.idle = [⟨.root, 0, .entity "made"⟩] := by
  have hclients : ∀ factory, Client ⟨0⟩ Makes [] [] (Code.greedy.create factory).run := by
    intro factory
    have hmakes (n : Nat) : Makes [n] (.ok ⟨.root, n, .entity "made"⟩) := by
      intro o ho
      cases ho
      exact List.mem_singleton_self n
    refine .gets (fun o => ?_) fun e => ?_
    · exact .returns (List.mem_singleton_self o) fun _ => .draws fun n => .answers (hmakes n)
    · exact .turnsAway (Command.leavesAlone_note _ _) fun _ => .draws fun n => .answers (hmakes n)
  obtain ⟨_, hruns, hcode⟩ :=
    pool_accounted (σ := Unit) (α := Unit) (l := .opened 2) .refl
  have hbooks : World.Books
      { user := (), sources := #[.pooled .root ⟨0⟩ true (.ofSize 2)] } ⟨0⟩ (.opened 2) :=
    ⟨⟨.root, ⟨0⟩, true, rfl⟩, fun i hi => nomatch hi⟩
  obtain ⟨l', _, honward⟩ := (hruns (Engine.env Code.greedy 3) ⟨0⟩ _ hbooks).1 .root ⟨0⟩ true rfl
    ((hcode Code.greedy ⟨0⟩ hclients 3).1 ⟨0⟩) 0 (by decide) _ _ rfl
  obtain ⟨t, factory, givesUp, hsource⟩ := honward.books.source
  have hpool := (Source.pooled.inj hsource).2.2.2
  obtain ⟨⟨_, hbalanced, _⟩, _⟩ := pool_accounted (σ := Unit) (α := Unit) honward.steps
  exact ⟨_, l', rfl, honward.steps, hbalanced, by rw [← hpool]; rfl, by rw [← hpool]; rfl⟩

end Aspects
