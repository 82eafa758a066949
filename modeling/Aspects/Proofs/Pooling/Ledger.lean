import Aspects.Pool
import Mathlib.Data.List.Nodup
import Mathlib.Logic.Relation

/-!
# The books of a pool

A pool counts what is lent and does not know to whom. The `Ledger` does: it lists the
targets that callers have got, and the callers whose place is taken while a target is made
for them. What can happen to a pool is a `Step` of its ledger: a caller gets a target that
waited, or has a place taken; the target for the place is made, or making it fails; a caller
times out; a target that is lent comes back. While one target is made any other step may
come in between, so a factory that turns to the pool itself is nothing special.

In every ledger that steps lead to from a new pool the books are `Balanced`. The counter of
the pool then never stands at nothing when something is taken off it.
-/

namespace Aspects

/-! ## Offers -/

namespace Pool

variable {p left : Pool} {o : Object}

/-- What a caller gets has waited, in front of all others. -/
theorem of_offer_target (h : p.offer = .target o left) :
    ∃ rest, p.idle = o :: rest ∧ left = { p with idle := rest, active := p.active + 1 } := by
  unfold offer at h
  split at h
  · next rest hidle =>
    cases h
    exact ⟨_, hidle, rfl⟩
  · split at h
    · cases h
    · cases h

/-- A place is given only if nothing waits and there is room. -/
theorem of_offer_place (h : p.offer = .place left) :
    p.idle = [] ∧ p.active < p.maxSize ∧ left = { p with active := p.active + 1 } := by
  unfold offer at h
  split at h
  · cases h
  · next hidle =>
    split at h
    · next hroom =>
      cases h
      exact ⟨hidle, hroom, rfl⟩
    · cases h

end Pool

/-- A pool with the targets that are lent, and the callers for whom one is being made. -/
structure Ledger where
  pool : Pool
  lent : List Object := []
  making : List Nat := []

namespace Ledger

/-- The ledger of a new pool. -/
def opened (size : Nat) : Ledger :=
  { pool := .ofSize size }

/-- The identities of the targets that wait or are lent. -/
def known (l : Ledger) : List Nat :=
  (l.pool.idle ++ l.lent).map (·.id)

/-- A target is lent, and that pool is left. -/
def lend (l : Ledger) (o : Object) (left : Pool) : Ledger :=
  { l with pool := left, lent := o :: l.lent }

/-- A place is taken for the caller, and that pool is left. -/
def reserve (l : Ledger) (caller : Nat) (left : Pool) : Ledger :=
  { l with pool := left, making := caller :: l.making }

/-- A target was made for the caller, who has it now. -/
def make (l : Ledger) (caller : Nat) (o : Object) : Ledger :=
  { l with lent := o :: l.lent, making := l.making.erase caller }

/-- No target could be made for the caller. -/
def fail (l : Ledger) (caller : Nat) : Ledger :=
  { l with pool := l.pool.giveUp, making := l.making.erase caller }

/-- A target comes back. -/
def takeBack (l : Ledger) (o : Object) : Ledger :=
  { l with pool := l.pool.giveBack o, lent := l.lent.eraseP (·.same o) }

/-- What can happen to a pool. -/
inductive Step (l : Ledger) : Ledger → Prop
  | lend {o : Object} {left : Pool} (h : l.pool.offer = .target o left) :
    Step l (l.lend o left)
  | reserve {left : Pool} (caller : Nat) (h : l.pool.offer = .place left)
    (hcaller : caller ∉ l.making) : Step l (l.reserve caller left)
  /-- What a factory makes is a new object. -/
  | make {caller : Nat} (o : Object) (h : caller ∈ l.making) (hnew : o.id ∉ l.known) :
    Step l (l.make caller o)
  | fail {caller : Nat} (h : caller ∈ l.making) : Step l (l.fail caller)
  /-- A caller who got nothing goes away. -/
  | timeOut (h : l.pool.offer = .nothing) : Step l l
  | takeBack {o : Object} (h : ∃ o' ∈ l.lent, o'.same o = true) : Step l (l.takeBack o)

/-- Steps, one after the other. -/
abbrev Steps : Ledger → Ledger → Prop :=
  Relation.ReflTransGen Step

/-- The pool has room for all that waits, is lent or is being made; its counter stands for
what is lent and being made; and no target is in two places. -/
structure Balanced (l : Ledger) : Prop where
  fits : l.pool.idle.length + l.pool.active ≤ l.pool.maxSize
  active_eq : l.pool.active = l.lent.length + l.making.length
  distinct : l.known.Nodup

variable {l l' : Ledger}

theorem balanced_opened (size : Nat) : (opened size).Balanced :=
  ⟨Nat.zero_le _, rfl, .nil⟩

/-! A target that is lent, or comes back, only changes places. -/

theorem known_lend {o : Object} {left : Pool} (h : l.pool.offer = .target o left) :
    (l.lend o left).known.Perm l.known := by
  obtain ⟨rest, hidle, rfl⟩ := Pool.of_offer_target h
  unfold known lend
  rw [hidle]
  exact List.perm_middle.map _

theorem known_takeBack {o : Object} (h : ∃ o' ∈ l.lent, o'.same o = true) :
    (l.takeBack o).known.Perm l.known := by
  obtain ⟨o', hmem, hsame⟩ := h
  obtain ⟨x, before, after, _, hx, hlent, herased⟩ :=
    List.exists_of_eraseP (p := (·.same o)) hmem hsame
  have hid : x.id = o.id := beq_iff_eq.mp hx
  unfold known takeBack Pool.giveBack
  rw [herased, hlent]
  simp only [List.map_append, List.map_cons, List.cons_append, hid]
  rw [← List.append_assoc, ← List.append_assoc]
  exact List.perm_middle.symm

/-! To take a place changes nothing about the targets, and what is made for it is one
more. -/

theorem known_reserve {left : Pool} (h : l.pool.offer = .place left) (caller : Nat) :
    (l.reserve caller left).known = l.known := by
  obtain ⟨_, _, rfl⟩ := Pool.of_offer_place h
  rfl

theorem known_make (l : Ledger) (caller : Nat) (o : Object) :
    (l.make caller o).known.Perm (o.id :: l.known) := by
  unfold known make
  exact (List.perm_middle (a := o)).map _

theorem length_takeBack {o : Object} (h : ∃ o' ∈ l.lent, o'.same o = true) :
    (l.takeBack o).lent.length + 1 = l.lent.length := by
  obtain ⟨o', hmem, hsame⟩ := h
  have hpos : 0 < l.lent.length := List.length_pos_of_mem hmem
  have hlength : (l.lent.eraseP (·.same o)).length = l.lent.length - 1 :=
    List.length_eraseP_of_mem hmem hsame
  show (l.lent.eraseP (·.same o)).length + 1 = _
  omega

/-- The caller's place is one of those counted. -/
theorem length_making {caller : Nat} (h : caller ∈ l.making) :
    (l.making.erase caller).length + 1 = l.making.length := by
  have hpos : 0 < l.making.length := List.length_pos_of_mem h
  rw [List.length_erase_of_mem h]
  omega

/-- Every step keeps the books balanced. -/
theorem Balanced.step (h : l.Balanced) (hs : l.Step l') : l'.Balanced := by
  obtain ⟨hfits, hactive, hdistinct⟩ := h
  cases hs with
  | @lend o left hoffer =>
    refine ⟨?_, ?_, (known_lend hoffer).nodup_iff.mpr hdistinct⟩
    · obtain ⟨rest, hidle, rfl⟩ := Pool.of_offer_target hoffer
      rw [hidle, List.length_cons] at hfits
      show rest.length + (l.pool.active + 1) ≤ l.pool.maxSize
      omega
    · obtain ⟨rest, _, rfl⟩ := Pool.of_offer_target hoffer
      show l.pool.active + 1 = (l.lent.length + 1) + l.making.length
      omega
  | @reserve left caller hoffer =>
    refine ⟨?_, ?_, known_reserve hoffer caller ▸ hdistinct⟩
    · obtain ⟨hidle, hroom, rfl⟩ := Pool.of_offer_place hoffer
      show l.pool.idle.length + (l.pool.active + 1) ≤ l.pool.maxSize
      rw [hidle, List.length_nil]
      omega
    · obtain ⟨_, _, rfl⟩ := Pool.of_offer_place hoffer
      show l.pool.active + 1 = l.lent.length + (l.making.length + 1)
      omega
  | @make caller o hcaller hnew =>
    have hlength := length_making hcaller
    refine ⟨hfits, ?_, ?_⟩
    · show l.pool.active = (l.lent.length + 1) + (l.making.erase caller).length
      omega
    · rw [(known_make l caller o).nodup_iff]
      exact List.nodup_cons.mpr ⟨hnew, hdistinct⟩
  | @fail caller hcaller =>
    have hlength := length_making hcaller
    refine ⟨?_, ?_, hdistinct⟩
    · show l.pool.idle.length + (l.pool.active - 1) ≤ l.pool.maxSize
      omega
    · show l.pool.active - 1 = l.lent.length + (l.making.erase caller).length
      omega
  | timeOut hoffer => exact ⟨hfits, hactive, hdistinct⟩
  | @takeBack o hlent =>
    have hlength := length_takeBack hlent
    refine ⟨?_, ?_, (known_takeBack hlent).nodup_iff.mpr hdistinct⟩
    · show (l.pool.idle.length + 1) + (l.pool.active - 1) ≤ l.pool.maxSize
      omega
    · show l.pool.active - 1 = (l.takeBack o).lent.length + l.making.length
      omega

/-- And so do all that happen one after the other. -/
theorem Balanced.steps (h : l.Balanced) (hs : l.Steps l') : l'.Balanced := by
  induction hs with
  | refl => exact h
  | tail _ hstep ih => exact ih.step hstep

theorem Step.maxSize_eq (hs : l.Step l') : l'.pool.maxSize = l.pool.maxSize := by
  cases hs with
  | lend hoffer =>
    obtain ⟨rest, _, rfl⟩ := Pool.of_offer_target hoffer
    rfl
  | reserve caller hoffer =>
    obtain ⟨_, _, rfl⟩ := Pool.of_offer_place hoffer
    rfl
  | _ => rfl

theorem Steps.maxSize_eq (hs : l.Steps l') : l'.pool.maxSize = l.pool.maxSize := by
  induction hs with
  | refl => rfl
  | tail _ hstep ih => rw [hstep.maxSize_eq, ih]

/-- The place of a caller for whom no target could be made is given up, and nothing else
changes. The counter did count that place. -/
theorem Balanced.active_fail (h : l.Balanced) {caller : Nat} (hcaller : caller ∈ l.making) :
    (l.fail caller).pool.active + 1 = l.pool.active := by
  have hlength := length_making hcaller
  have hactive := h.active_eq
  show l.pool.active - 1 + 1 = l.pool.active
  omega

end Ledger

end Aspects
