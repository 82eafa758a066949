import Aspects.Proofs.Steps.Engine
import Aspects.Proofs.Swapping.Hierarchy

/-!
# The targets of a swappable source

A swappable source compares a new target with the current one and with nothing else, so
what stands in it after many exchanges is held to the first target only as far as the test
is transitive. It is, as long as the type of the old target accepts that of the new one.
An exchange for the sake of interfaces alone (`Sideways`) asks only for those that the
old target offers. They include what the first target offered, unless a class extends an
interface; and if the first target offers none then nothing is left of its type
(`Exchanged.compatible_or_loosened`).

Of the steps of the engine only an exchange changes the target of a swappable source, and
each is written down in the journal. So the exchanges by which the current target came are
those of the journal (`Reaches.exchanges`), and this is what can be said of every run
(`swappable_throughout`).
-/

namespace Aspects

variable {σ : Type} {α : Type} {code : Code σ} {w w₁ w₂ : World σ} {s : SourceId}
  {first old new current : Object} {past later : List (Object × Object)}

namespace Source

/-! ## One exchange after the other -/

theorem compatible_iff :
    compatible current new = true ↔ current.type.accepts new.type = true ∨
      current.type.allInterfaces ≠ [] ∧
        ∀ i ∈ current.type.allInterfaces, i.accepts new.type = true := by
  simp [compatible, Object.isInstanceOf]

/-- How the current target came to stand where the first one stood: by these exchanges of
an old target for a new one, the latest first, each of which was accepted. -/
inductive Exchanged (first : Object) : List (Object × Object) → Object → Prop
  | start : Exchanged first [] first
  | next {past : List (Object × Object)} {old : Object} (new : Object) :
    Exchanged first past old → compatible old new = true →
    Exchanged first ((old, new) :: past) new

/-- The type of the old target does not accept that of the new one. -/
def Sideways (x : Object × Object) : Prop :=
  x.1.type.accepts x.2.type = false

/-- By the exchange the hold on the type of the first target may be lost. -/
def Loosens (first : Object) (x : Object × Object) : Prop :=
  Sideways x ∧ (first.type.allInterfaces = [] ∨ x.1.type.ExtendsInterface)

theorem Exchanged.trans (h : Exchanged first past old) (h' : Exchanged old later current) :
    Exchanged first (later ++ past) current := by
  induction h' with
  | start => exact h
  | next new _ hnew ih => exact .next new ih hnew

section Law

variable {known : TypeDesc → Prop}

/-- An exchange that the old type accepts takes nothing away. -/
theorem compatible_of_accepts (hcoherent : TypeDesc.Coherent known) (hfirst : known first.type)
    (hold : known old.type) (hnew : known new.type) (h : compatible first old = true)
    (haccepts : old.type.accepts new.type = true) : compatible first new = true := by
  rcases compatible_iff.mp h with hdirect | ⟨hsome, hoffered⟩
  · exact compatible_iff.mpr (.inl (hcoherent.accepts_trans hfirst hold hnew hdirect haccepts))
  · refine compatible_iff.mpr (.inr ⟨hsome, fun i hi => ?_⟩)
    have hi' := (hcoherent.accepts_of_mem_allInterfaces hfirst hi).1
    exact hcoherent.accepts_trans hi' hold hnew (hoffered i hi) haccepts

/-- An exchange for the sake of interfaces keeps those that the first target offers, if it
offers any and no class extends an interface. -/
theorem compatible_of_interfaces (hcoherent : TypeDesc.Coherent known)
    (hfirst : known first.type) (hold : known old.type) (hnew : known new.type)
    (h : compatible first old = true) (hexchange : compatible old new = true)
    (hsideways : Sideways (old, new)) (hsome : first.type.allInterfaces ≠ [])
    (hextends : ¬ old.type.ExtendsInterface) : compatible first new = true := by
  refine compatible_iff.mpr (.inr ⟨hsome, fun i hi => ?_⟩)
  obtain ⟨hi', hface, hself⟩ := hcoherent.accepts_of_mem_allInterfaces hfirst hi
  have hiold : i.accepts old.type = true := by
    rcases compatible_iff.mp h with hdirect | ⟨_, hoffered⟩
    · exact hcoherent.accepts_trans hi' hfirst hold hself hdirect
    · exact hoffered i hi
  obtain ⟨j, hj, hij⟩ := hcoherent.exists_mem_allInterfaces hold hface hextends hiold
  have hj' := (hcoherent.accepts_of_mem_allInterfaces hold hj).1
  have hjnew : j.accepts new.type = true := by
    rcases compatible_iff.mp hexchange with hdirect | ⟨_, hoffered⟩
    · exact absurd hdirect (by rw [hsideways]; exact Bool.false_ne_true)
    · exact hoffered j hj
  exact hcoherent.accepts_trans hi' hj' hnew hij hjnew

theorem Exchanged.known_current (h : Exchanged first past current) (hfirst : known first.type)
    (hpast : ∀ x ∈ past, known x.2.type) : known current.type := by
  cases h with
  | start => exact hfirst
  | next new _ _ => exact hpast _ List.mem_cons_self

/-- The current target is compatible with the first one, unless there was an exchange for
the sake of interfaces alone, and the first target offers none or the type that was given
up extends an interface. -/
theorem Exchanged.compatible_or_loosened (h : Exchanged first past current)
    (hcoherent : TypeDesc.Coherent known) (hfirst : known first.type)
    (hpast : ∀ x ∈ past, known x.2.type) :
    compatible first current = true ∨ ∃ x ∈ past, Loosens first x := by
  induction h with
  | start => exact .inl (compatible_iff.mpr (.inl (TypeDesc.accepts_self _)))
  | @next past old new hpast' hexchange ih =>
    have hbefore : ∀ x ∈ past, known x.2.type :=
      fun x hx => hpast x (List.mem_cons_of_mem _ hx)
    have hold := hpast'.known_current hfirst hbefore
    have hnew := hpast _ List.mem_cons_self
    rcases ih hbefore with hcompatible | ⟨x, hx, hlost⟩
    · by_cases hsideways : Sideways (old, new)
      · by_cases hlost : first.type.allInterfaces = [] ∨ old.type.ExtendsInterface
        · exact .inr ⟨_, List.mem_cons_self, hsideways, hlost⟩
        · obtain ⟨hsome, hextends⟩ := not_or.mp hlost
          exact .inl (compatible_of_interfaces hcoherent hfirst hold hnew hcompatible hexchange
            hsideways hsome hextends)
      · exact .inl (compatible_of_accepts hcoherent hfirst hold hnew hcompatible
          (Bool.not_eq_false _ ▸ hsideways))
    · exact .inr ⟨x, List.mem_cons_of_mem _ hx, hlost⟩

end Law

/-! ## What an exchange does -/

/-- An exchange is made exactly if the new target is compatible with the current one; one
that is refused changes nothing. -/
theorem run_swap (h : w.source s = .swappable current) (new : Object) :
    (swap s new : Act σ Object).run w =
      if compatible current new then
        some (.ok current, ((w.record (.swapped s current new)).setSource s
          (.swappable new)).record (.event
            ⟨.debug, "Swapped target", [("old", current.inspect), ("new", new.inspect)]⟩))
      else some (.error (.fault (.illegalArgument ("cannot swap target of type " ++
        current.type.name ++ " with incompatible " ++ new.type.name))), w) := by
  unfold swap
  rw [Act.run_world]
  simp only [h]
  cases compatible current new <;> rfl

end Source

/-! ## Along the steps -/

namespace World

theorem index_lt_of_swappable (h : w.source s = .swappable current) :
    s.index < w.sources.size := by
  refine Nat.lt_of_not_le fun hle => ?_
  unfold source at h
  rw [Array.getElem?_eq_none hle] at h
  cases h

theorem source_setSource_self (h : s.index < w.sources.size) (new : Source) :
    (w.setSource s new).source s = new := by
  simp [source, setSource, h]

theorem source_setSource_other {s' : SourceId} (h : s' ≠ s) (new : Source) :
    (w.setSource s new).source s' = w.source s' := by
  have hne : s.index ≠ s'.index := fun he => h (by cases s; cases s'; cases he; rfl)
  simp [source, setSource, hne]

end World

/-- The old and the new target, where the target of the source was exchanged. -/
def Entry.exchange? (s : SourceId) : Entry → Option (Object × Object)
  | swapped s' old new => if s' = s then some (old, new) else none
  | _ => none

theorem Entry.exchange?_of_isRemark {e : Entry} (he : e.isRemark) (s : SourceId) :
    e.exchange? s = none := by
  cases e with
  | event e => rfl
  | note line => rfl
  | _ => cases he

namespace World

/-- The exchanges of the target of the source that were written down since an earlier world,
the latest first. -/
def exchangesSince (w w' : World σ) (s : SourceId) : List (Object × Object) :=
  (w'.journal.take (w'.journal.length - w.journal.length)).filterMap (Entry.exchange? s)

theorem exchangesSince_of_append (es : List Entry) (h : w₁.journal = es ++ w.journal)
    (s : SourceId) : w.exchangesSince w₁ s = es.filterMap (Entry.exchange? s) := by
  unfold exchangesSince
  rw [h, List.length_append, Nat.add_sub_cancel, List.take_left]

/-- The journal grows, and a swappable source stays one, whose target came to stand there by
the exchanges that were written down. -/
def Exchanges (w w' : World σ) (s : SourceId) : Prop :=
  ∃ es, w'.journal = es ++ w.journal ∧ ∀ first, w.source s = .swappable first →
    ∃ current, Source.Exchanged first (es.filterMap (Entry.exchange? s)) current ∧
      w'.source s = .swappable current

namespace Exchanges

/-- The target stays, and no exchange of it is written down. -/
theorem of_stays (es : List Entry) (hes : es.filterMap (Entry.exchange? s) = [])
    (hj : w₁.journal = es ++ w.journal)
    (h : ∀ first, w.source s = .swappable first → w₁.source s = .swappable first) :
    w.Exchanges w₁ s := by
  refine ⟨es, hj, fun first hfirst => ⟨first, ?_, h first hfirst⟩⟩
  rw [hes]
  exact .start

theorem of_source (hj : w₁.journal = w.journal) (h : w₁.source s = w.source s) :
    w.Exchanges w₁ s :=
  of_stays [] rfl hj fun _ hfirst => h.trans hfirst

theorem of_entry {e : Entry} (he : e.exchange? s = none) (hj : w₁.journal = e :: w.journal)
    (h : w₁.source s = w.source s) : w.Exchanges w₁ s :=
  of_stays [e] (by rw [List.filterMap_cons, he, List.filterMap_nil]) hj
    fun _ hfirst => h.trans hfirst

theorem trans (h : w.Exchanges w₁ s) (h' : w₁.Exchanges w₂ s) : w.Exchanges w₂ s := by
  obtain ⟨es, hes, hpast⟩ := h
  obtain ⟨es', hes', hlater⟩ := h'
  refine ⟨es' ++ es, by rw [hes', hes, List.append_assoc], fun first hfirst => ?_⟩
  obtain ⟨old, hold, hold'⟩ := hpast first hfirst
  obtain ⟨current, hcurrent, hcurrent'⟩ := hlater old hold'
  rw [List.filterMap_append]
  exact ⟨current, hold.trans hcurrent, hcurrent'⟩

end Exchanges

end World

theorem Change.exchanges (h : Change w w₁) (s : SourceId) : w.Exchanges w₁ s := by
  cases h with
  | remark e he => exact .of_entry (Entry.exchange?_of_isRemark he s) rfl rfl
  | reflag id f => exact .of_entry (e := .reflagged id) rfl rfl rfl
  | tellActivated id l => exact .of_entry (e := .activated id l) rfl rfl rfl
  | tellChanged id l => exact .of_entry (e := .changed id l) rfl rfl rfl
  | newSource new =>
    refine .of_stays [] rfl rfl fun first hfirst => ?_
    have hin := World.index_lt_of_swappable hfirst
    rw [← hfirst]
    simp [World.source, Array.getElem?_push, Nat.ne_of_lt hin]
  | pool s' f =>
    by_cases he : s = s'
    · subst he
      refine .of_stays [] rfl rfl fun first hfirst => ?_
      unfold Source.updatePool
      rw [World.source_setSource_self (World.index_lt_of_swappable hfirst), hfirst]
      rfl
    · exact .of_source rfl (World.source_setSource_other he _)
  | swap s' old new hold hnew =>
    by_cases he : s' = s
    · subst he
      refine ⟨[.swapped s' old new], rfl, fun first hfirst => ⟨new, ?_, ?_⟩⟩
      · obtain rfl : old = first := by
          rw [hold] at hfirst
          exact Source.swappable.inj hfirst
        have hexchange : Entry.exchange? s' (.swapped s' old new) = some (old, new) := if_pos rfl
        rw [List.filterMap_cons, hexchange]
        exact .next new .start hnew
      · exact World.source_setSource_self
          (w := w.record (.swapped s' old new)) (World.index_lt_of_swappable hold) _
    · exact .of_entry (e := .swapped s' old new) (if_neg he) rfl
        (World.source_setSource_other (w := w.record (.swapped s' old new)) (Ne.symm he) _)
  | _ => exact .of_source rfl rfl

theorem Leads.exchanges (h : Leads code w w₁) (s : SourceId) : w.Exchanges w₁ s := by
  induction h with
  | refl w => exact .of_source rfl rfl
  | change _ hc ih => exact ih.trans (hc.exchanges s)
  | keep room id m t links _ _ _ _ ih ihmade =>
    exact (ih.trans ihmade).trans (.of_source rfl rfl)
  | expose proxy _ _ ih ihduring => exact ih.trans ihduring
  | @lend _ w₁ w₂ w₃ s' o _ _ _ ih ihduring ihafter =>
    -- what is written down about the loan is no exchange
    have hlent : w₁.Exchanges (w₁.record (.acquired s' o)) s := .of_entry rfl rfl rfl
    have hreturned : w₂.Exchanges (w₂.record (.released s' o)) s := .of_entry rfl rfl rfl
    exact ih.trans (hlent.trans (ihduring.trans (hreturned.trans ihafter)))

theorem Reaches.exchanges (h : Reaches code w w₁) (s : SourceId) : w.Exchanges w₁ s := by
  induction h with
  | refl => exact .of_source rfl rfl
  | leads _ hl ih => exact ih.trans (hl.exchanges s)
  | exposing proxy _ ih => exact ih
  | lending s' o _ ih => exact ih.trans (.of_entry (e := .acquired s' o) rfl rfl rfl)
  | returning s' o _ ih => exact ih.trans (.of_entry (e := .released s' o) rfl rfl rfl)

/-! ## The result -/

/-- Throughout every run, of a source that could be swapped at some moment `v` and held a
first target then: the exchanges of its target since that moment, as they were written down,
were accepted one by one and brought the current target. Over types that can be compared the
current target is compatible with the first one, unless one of these exchanges has loosened
the hold on its type. A further exchange is made exactly if the new target is compatible with
the current one, and is the next in the list; one that is refused changes nothing. -/
theorem swappable_throughout (code : Code σ) (room : Nat) (p : Action σ α) (w : World σ) :
    Engine.Throughout code room p w fun w' => Reaches code w w' ∧
      ∀ v, Reaches code v w' → ∀ s first, v.source s = .swappable first →
        ∃ current, w'.source s = .swappable current ∧
          Source.Exchanged first (v.exchangesSince w' s) current ∧
          (∀ known, TypeDesc.Coherent known → known first.type →
            (∀ x ∈ v.exchangesSince w' s, known x.2.type) →
            Source.compatible first current = true ∨
              ∃ x ∈ v.exchangesSince w' s, Source.Loosens first x) ∧
          ∀ new (env : Env σ),
            (Source.compatible current new = true →
              ∃ w'', Engine.meaning env (.swap s new) w' = some (.ok current, w'') ∧
                w''.source s = .swappable new ∧
                v.exchangesSince w'' s = (current, new) :: v.exchangesSince w' s) ∧
            (Source.compatible current new = false →
              ∃ e, Engine.meaning env (.swap s new) w' = some (.error e, w')) := by
  refine Engine.throughout (fun w' hr => ⟨hr, fun v hlater s first hfirst => ?_⟩) room p
  obtain ⟨es, hes, hpast⟩ := hlater.exchanges s
  obtain ⟨current, hexchanged, hcurrent⟩ := hpast first hfirst
  rw [World.exchangesSince_of_append es hes]
  refine ⟨current, hcurrent, hexchanged,
    fun known hcoherent hknown hall => hexchanged.compatible_or_loosened hcoherent hknown hall,
    fun new env => ⟨fun hnew => ?_, fun hnew => ?_⟩⟩
  · refine ⟨_, (Source.run_swap hcurrent new).trans (if_pos hnew), ?_, ?_⟩
    · exact World.source_setSource_self (w := w'.record _)
        (World.index_lt_of_swappable hcurrent) _
    · -- the exchange is written down, and after it a message
      let message : Event :=
        ⟨.debug, "Swapped target", [("old", current.inspect), ("new", new.inspect)]⟩
      have hexchange : Entry.exchange? s (.swapped s current new) = some (current, new) :=
        if_pos rfl
      rw [World.exchangesSince_of_append (.event message :: .swapped s current new :: es)
        (congrArg (fun j => Entry.event message :: .swapped s current new :: j) hes),
        List.filterMap_cons, List.filterMap_cons, hexchange]
      rfl
  · exact ⟨_, (Source.run_swap hcurrent new).trans
      (if_neg (by rw [hnew]; exact Bool.false_ne_true))⟩

/-! ## A hold that is lost -/

namespace Detour

/-- A class that offers no interface. -/
def base : TypeDesc := .plain "Base" .classKind

def service : TypeDesc := .plain "Service" .interfaceKind

/-- A class that extends the first one and offers a service. -/
def derived : TypeDesc := .named "Derived" .classKind (some base) [service] []

/-- Another class that offers the service. -/
def other : TypeDesc := .named "Other" .classKind none [service] []

def object (t : TypeDesc) : Object := ⟨t, 0, .entity t.name⟩

/-- A target is exchanged for one of a class that extends its own, and that one for one
that offers the same service. -/
def exchanges : Action Unit (Outcome Object) := do
  let s ← .ofCommand (.newSource (.swappable (object base)))
  let _ ← .ofCommand (.swap s (object derived))
  .ofCommand (.swap s (object other))

end Detour

theorem Detour.coherent :
    TypeDesc.Coherent (· ∈ [Detour.base, Detour.service, Detour.derived, Detour.other]) where
  parents {t p} ht hp := by
    simp only [List.mem_cons, List.not_mem_nil, or_false] at ht ⊢
    rcases ht with rfl | rfl | rfl | rfl
    · cases hp
    · cases hp
    · rcases List.mem_cons.mp hp with rfl | hp
      · exact .inl rfl
      · exact .inr (.inl (List.mem_singleton.mp hp))
    · exact .inr (.inl (List.mem_singleton.mp hp))
  identical {s t} hs ht h := by
    simp only [List.mem_cons, List.not_mem_nil, or_false] at hs ht
    rcases hs with rfl | rfl | rfl | rfl <;> rcases ht with rfl | rfl | rfl | rfl <;>
      first | rfl | exact absurd h (by decide)
  interfaces {t i} ht hi := by
    simp only [List.mem_cons, List.not_mem_nil, or_false] at ht
    rcases ht with rfl | rfl | rfl | rfl
    · cases hi
    · cases hi
    · exact List.mem_singleton.mp hi ▸ rfl
    · exact List.mem_singleton.mp hi ▸ rfl
  reference {t} ht _ := by
    simp only [List.mem_cons, List.not_mem_nil, or_false] at ht
    rcases ht with rfl | rfl | rfl | rfl
    · exact .inl rfl
    · exact .inr rfl
    · exact .inl rfl
    · exact .inl rfl

/-- Over types that can be compared, a target that a source would have refused stands in it
after two exchanges that were accepted. -/
theorem incompatible_by_detour :
    TypeDesc.Coherent (· ∈ [Detour.base, Detour.service, Detour.derived, Detour.other]) ∧
      Source.compatible (Detour.object Detour.base) (Detour.object Detour.other) = false ∧
      (Engine.run (Code.idle : Code Unit) 1 Detour.exchanges { user := () }).map
          (fun r => (r.1, r.2.source ⟨0⟩))
        = some (.ok (Detour.object Detour.derived), .swappable (Detour.object Detour.other)) :=
  ⟨Detour.coherent, by decide, rfl⟩

/-- A class that extends the service as if it were a class, and offers another one. -/
def Detour.extension : TypeDesc :=
  .named "Extension" .classKind (some service) [.plain "Printing" .interfaceKind] []

/-- The first target offers a service, and the hold on that is lost to such a class. -/
example :
    let printer : Object := Detour.object
      (.named "Printer" .classKind none [.plain "Printing" .interfaceKind] [])
    Source.compatible (Detour.object Detour.other) (Detour.object Detour.extension) = true ∧
      Source.compatible (Detour.object Detour.extension) printer = true ∧
      Source.compatible (Detour.object Detour.other) printer = false := by
  decide

end Aspects
