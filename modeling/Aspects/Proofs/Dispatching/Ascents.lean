import Aspects.Proofs.Dispatching.Nearest
import Aspects.Proofs.Lookup.Visible
import Aspects.Proofs.Subtyping.Laws

/-!
# Lookup and dispatch

A declaration is looked up breadth first, in the hierarchy; an implementation is looked up
depth first: all that is above the first parent comes before the second parent. So a call
runs the first implementation in another list, the `ascent`, and this need not be the one on
the type whose declaration was found.

What the found type carries is run exactly if nothing else is carried by a type that comes
before it on the ascent (`dispatch_follows_lookup_iff`). This is so for every declaration on
a class, if classes extend classes and interfaces are what is implemented (`Layered`), and
for every one that the others can be reached from the type only through (`Bypasses`).
-/

namespace Aspects.TypeDesc

variable {d s t : TypeDesc} {k : MethodKey} {i : Implementation} {m : Method}

/-! ## The order of dispatch -/

/-- The type and all its supertypes depth first, a type as often as it is reached. -/
def ascent (t : TypeDesc) : List TypeDesc :=
  t :: t.parents.attach.flatMap fun ⟨p, hp⟩ =>
    have : p.weight < t.weight :=
      Nat.lt_of_le_of_lt (weight_le_weightList hp) (weight_parents_lt t)
    ascent p
termination_by t.weight

theorem ascent_eq (t : TypeDesc) : t.ascent = t :: t.parents.flatMap ascent := by
  rw [ascent]
  simp

theorem mem_ascent_iff : s ∈ t.ascent ↔ Above s t := by
  induction t using upward with
  | h t ih =>
    rw [ascent_eq, List.mem_cons, List.mem_flatMap, above_iff]
    exact or_congr_right (exists_congr fun p => and_congr_right fun hp => ih p hp)

/-- What is run is the first implementation on the ascent. -/
theorem findImplementation_eq_ascent (t : TypeDesc) (k : MethodKey) :
    t.findImplementation k = t.ascent.findSome? (·.ownImplementation? k) := by
  induction t using upward with
  | h t ih =>
    have hlist (ps : List TypeDesc) (hps : ps ⊆ t.parents) :
        ps.findSome? (findImplementation k)
          = (ps.flatMap ascent).findSome? (·.ownImplementation? k) := by
      induction ps with
      | nil => rfl
      | cons p ps ihps =>
        obtain ⟨hp, hps⟩ := List.cons_subset.mp hps
        rw [List.findSome?_cons, List.flatMap_cons, List.findSome?_append, ih p hp, ihps hps]
        cases p.ascent.findSome? (·.ownImplementation? k) <;> rfl
    rw [findImplementation_eq, ascent_eq, List.findSome?_cons, hlist _ (List.Subset.refl _)]
    cases t.ownImplementation? k <;> rfl

/-! ## Ways around a type -/

/-- The second type is reached from the third one on a way that does not lead through the
first one. -/
def Bypasses (d s t : TypeDesc) : Prop :=
  t ≠ d ∧ Relation.ReflTransGen (fun t p => p ∈ t.parents ∧ p ≠ d) t s

theorem Bypasses.of_parent {p : TypeDesc} (ht : t ≠ d) (hp : p ∈ t.parents)
    (h : Bypasses d s p) : Bypasses d s t :=
  ⟨ht, .head ⟨hp, h.1⟩ h.2⟩

/-- What is above a type but not the other one is reached around the other one. -/
theorem bypasses_of_not_above (h : ¬ Above d t) (hs : Above s t) : Bypasses d s t := by
  have hne : ∀ {c}, Above c t → c ≠ d := by
    rintro c hc rfl
    exact h hc
  refine ⟨hne .refl, ?_⟩
  induction hs with
  | refl => exact .refl
  | tail hc hp ih => exact ih.tail ⟨hp, hne (hc.tail hp)⟩

/-- A declaration that all others with an implementation are behind is the one that is run. -/
theorem findImplementation_of_overriding (hd : Above d t)
    (hown : d.ownImplementation? k = some i)
    (hbehind : ∀ s, Bypasses d s t → s.ownImplementation? k = none) :
    t.findImplementation k = some i := by
  induction t using upward with
  | h t ih =>
    rw [findImplementation_eq]
    by_cases htd : t = d
    · rw [htd, hown]
      rfl
    · rw [hbehind t ⟨htd, .refl⟩, Option.none_or]
      -- each parent leads to the type and runs what it carries, or runs nothing
      have hparent : ∀ p ∈ t.parents, ¬ Above d p → p.findImplementation k = none := by
        intro p hp hdp
        rw [findImplementation_eq_ascent, List.findSome?_eq_none_iff]
        intro s hs
        have haround := bypasses_of_not_above hdp (mem_ascent_iff.mp hs)
        exact hbehind s (haround.of_parent htd hp)
      have hfound : ∀ p ∈ t.parents, Above d p → p.findImplementation k = some i := by
        intro p hp hdp
        exact ih p hp hdp fun s hs => hbehind s (hs.of_parent htd hp)
      obtain ⟨p, hp, hdp⟩ := (above_iff.mp hd).resolve_left (Ne.symm htd)
      have hsome : (t.parents.findSome? (findImplementation k)).isSome := by
        rw [List.findSome?_isSome_iff]
        exact ⟨p, hp, by rw [hfound p hp hdp]; rfl⟩
      obtain ⟨j, hj⟩ := Option.isSome_iff_exists.mp hsome
      obtain ⟨q, hq, hqj⟩ := List.exists_of_findSome?_eq_some hj
      by_cases hdq : Above d q
      · rw [hj, ← hqj, hfound q hq hdq]
      · rw [hparent q hq hdq] at hqj
        cases hqj

/-! ## Layers -/

/-- Above the type only classes have a superclass, which is a class, and only interfaces are
implemented. -/
structure Layered (t : TypeDesc) : Prop where
  superclass : ∀ {s p}, Above s t → s.superclass = some p →
    s.isInterface = false ∧ p.isInterface = false
  interfaces : ∀ {s p}, Above s t → p ∈ s.interfaces → p.isInterface = true

/-- A class on the hierarchy is on the chain of superclasses, and what is before it there
comes before it in the hierarchy too. -/
theorem Layered.chain_of_hierarchy (h : t.Layered) :
    ∀ before s after, t.hierarchy = before ++ s :: after → s.isInterface = false →
      ∃ lower, lower ⊆ before ∧ t.superclassChain = lower ++ s.superclassChain := by
  intro before
  -- each listed type but the first is the parent of one that is listed before it
  induction hn : before.length using Nat.strongRecOn generalizing before with
  | ind n ih =>
    intro s after hsplit hs
    rcases climbs_hierarchy t before s after hsplit with ⟨rfl, rfl⟩ | ⟨c, hc, hsc⟩
    · exact ⟨[], List.Subset.refl _, rfl⟩
    · have hct : Above c t := by
        refine above_of_mem_hierarchy ?_
        rw [hsplit]
        exact List.mem_append_left _ hc
      have hsuper : c.superclass = some s := by
        refine (mem_parents.mp hsc).resolve_right fun hi => ?_
        rw [h.interfaces hct hi] at hs
        cases hs
      obtain ⟨before', between, rfl⟩ := List.append_of_mem hc
      rw [List.append_assoc] at hsplit
      have hlength : before'.length < n := by
        rw [← hn, List.length_append, List.length_cons]
        omega
      obtain ⟨lower, hlower, hchain⟩ := ih before'.length hlength before' rfl c
        (between ++ s :: after) hsplit (h.superclass hct hsuper).1
      refine ⟨lower ++ [c], ?_, ?_⟩
      · refine List.append_subset.mpr ⟨List.subset_append_of_subset_left _ hlower, ?_⟩
        exact List.cons_subset.mpr ⟨List.mem_append_right _ List.mem_cons_self,
          List.nil_subset _⟩
      · rw [hchain, superclassChain_eq c, hsuper]
        simp

/-! ## The declaration that is found -/

/-- The type of a declaration that is found comes after types that declare no such method. -/
theorem exists_of_findMethod (h : t.findMethod k = some m) :
    ∃ nearer further, t.hierarchy = nearer ++ m.declaring :: further ∧
      ∀ s ∈ nearer, s.ownImplementation? k = none := by
  obtain ⟨nearer, s, further, hsplit, hs, hnearer⟩ := List.findSome?_eq_some_iff.mp h
  obtain ⟨d, _, rfl⟩ := Option.map_eq_some_iff.mp hs
  refine ⟨nearer, further, hsplit, fun r hr => ?_⟩
  rw [ownImplementation?, Option.map_eq_none_iff.mp (hnearer r hr)]
  rfl

/-- What is found on a class is what is run, if the types are layered. -/
theorem Layered.findImplementation_eq (h : t.Layered) (hfound : t.findMethod k = some m)
    (hown : m.declaring.ownImplementation? k = some i)
    (hclass : m.declaring.isInterface = false) : t.findImplementation k = some i := by
  obtain ⟨nearer, further, hsplit, hnearer⟩ := exists_of_findMethod hfound
  obtain ⟨lower, hlower, hchain⟩ := h.chain_of_hierarchy nearer m.declaring further hsplit hclass
  have hnone : ∀ s ∈ lower, s.ownImplementation? k = none := fun s hs => hnearer s (hlower hs)
  refine findImplementation_of_chain ?_
  rw [hchain, List.findSome?_append, List.findSome?_eq_none_iff.mpr hnone, Option.none_or,
    superclassChain_eq, List.findSome?_cons, hown]

/-- A declaration that is found, on a type that carries an implementation for it, is the
visible one with its key, and a call runs something. What it runs is the implementation on
that type exactly if the types before that one on the ascent carry no other. So it is if the
type is a class and the types are layered, or if no other type with an implementation is
reached around it. -/
theorem dispatch_follows_lookup_iff (hfound : t.findMethod k = some m)
    (hown : m.declaring.ownImplementation? k = some i) :
    (m ∈ t.allMethods ∧ m.key = k) ∧
    (∃ before after, t.ascent = before ++ m.declaring :: after ∧ m.declaring ∉ before ∧
      t.findImplementation k = (before.findSome? (·.ownImplementation? k)).or (some i) ∧
      (t.findImplementation k = some i ↔
        ∀ j, before.findSome? (·.ownImplementation? k) = some j → j = i)) ∧
    (t.Layered → m.declaring.isInterface = false → t.findImplementation k = some i) ∧
    ((∀ s, Bypasses m.declaring s t → s.ownImplementation? k = none) →
      t.findImplementation k = some i) := by
  obtain ⟨nearer, further, hsplit, _⟩ := exists_of_findMethod hfound
  have habove : Above m.declaring t := by
    refine above_of_mem_hierarchy ?_
    rw [hsplit]
    exact List.mem_append_right _ List.mem_cons_self
  refine ⟨⟨mem_allMethods_of_findMethod hfound, key_of_findMethod hfound⟩, ?_, ?_, ?_⟩
  · obtain ⟨before, after, hascent, hbefore⟩ :=
      List.eq_append_cons_of_mem (mem_ascent_iff.mpr habove)
    have hruns : t.findImplementation k
        = (before.findSome? (·.ownImplementation? k)).or (some i) := by
      rw [findImplementation_eq_ascent, hascent, List.findSome?_append, List.findSome?_cons, hown]
    refine ⟨before, after, hascent, hbefore, hruns, ?_⟩
    rw [hruns]
    cases before.findSome? (·.ownImplementation? k) with
    | none => simp
    | some j => simp
  · exact fun hlayered hclass => hlayered.findImplementation_eq hfound hown hclass
  · exact fun hbehind => findImplementation_of_overriding habove hown hbehind

/-- The method that a stream inherits is found on the class that runs it. -/
theorem stream_closes :
    Sockets.stream.findMethod Sockets.closing = some ⟨Sockets.handle, "close", [], void⟩ ∧
      Sockets.handle.ownImplementation? Sockets.closing = some (.raw ⟨1⟩) ∧
      Sockets.stream.findImplementation Sockets.closing = some (.raw ⟨1⟩) := by
  have hhierarchy : Sockets.stream.hierarchy = [Sockets.stream, Sockets.handle] :=
    Scans.hierarchy_eq (.goesOn rfl (.goesOn rfl (.ends (by decide))))
  have hfound : Sockets.stream.findMethod Sockets.closing
      = some ⟨Sockets.handle, "close", [], void⟩ := by
    rw [findMethod, hhierarchy]
    rfl
  have hascent : Sockets.stream.ascent = [Sockets.stream, Sockets.handle] := by
    rw [ascent_eq]
    show Sockets.stream :: [Sockets.handle].flatMap ascent = _
    rw [List.flatMap_singleton, ascent_eq]
    rfl
  have hlayered : Sockets.stream.Layered := by
    constructor
    · intro s p hs hp
      rw [← mem_ascent_iff, hascent, List.mem_cons, List.mem_singleton] at hs
      rcases hs with rfl | rfl
      · cases hp
        exact ⟨rfl, rfl⟩
      · cases hp
    · intro s p hs hp
      rw [← mem_ascent_iff, hascent, List.mem_cons, List.mem_singleton] at hs
      rcases hs with rfl | rfl
      · cases hp
      · cases hp
  obtain ⟨_, _, hclass, _⟩ := dispatch_follows_lookup_iff hfound rfl
  exact ⟨hfound, rfl, hclass hlayered rfl⟩

def Sockets.types : List TypeDesc :=
  [Sockets.closeable, Sockets.handle, Sockets.stream, Sockets.socket]

theorem Sockets.identified : Identified (· ∈ Sockets.types) where
  parents {t p} ht hp := by
    simp only [Sockets.types, List.mem_cons, List.not_mem_nil, or_false] at ht ⊢
    rcases ht with rfl | rfl | rfl | rfl
    · cases hp
    · cases hp
    · exact .inr (.inl (List.mem_singleton.mp hp))
    · rcases List.mem_cons.mp hp with rfl | hp
      · exact .inr (.inr (.inl rfl))
      · exact .inl (List.mem_singleton.mp hp)
  identical := eq_of_same (by decide)

/-- A default is found and passed over, on a socket for what a class further up carries, and
on a file for the default that it overrides. -/
theorem defaults_passed_over :
    (Identified (· ∈ Sockets.types) ∧
      Sockets.socket.findMethod Sockets.closing = some ⟨Sockets.closeable, "close", [], void⟩ ∧
      Sockets.closeable.ownImplementation? Sockets.closing = some (.raw ⟨0⟩) ∧
      Sockets.socket.findImplementation Sockets.closing = some (.raw ⟨1⟩)) ∧
    Identified (· ∈ Diamond.types) ∧ Diamond.readable ∈ Diamond.seekable.parents ∧
      Diamond.file.findMethod ⟨"read", []⟩ = some ⟨Diamond.seekable, "read", [], int⟩ ∧
      Diamond.seekable.ownImplementation? ⟨"read", []⟩ = some (.raw ⟨1⟩) ∧
      Diamond.file.findImplementation ⟨"read", []⟩ = some (.raw ⟨0⟩) := by
  have hsocket : Sockets.socket.hierarchy
      = [Sockets.socket, Sockets.stream, Sockets.closeable, Sockets.handle] :=
    Scans.hierarchy_eq (.goesOn rfl (.goesOn rfl (.goesOn rfl (.goesOn rfl (.ends (by decide))))))
  have hfile : Diamond.file.hierarchy
      = [Diamond.file, Diamond.buffered, Diamond.seekable, Diamond.readable] :=
    Scans.hierarchy_eq (.goesOn rfl (.goesOn rfl (.goesOn rfl (.goesOn rfl (.ends (by decide))))))
  refine ⟨⟨Sockets.identified, ?_, rfl, rfl⟩, Diamond.described.identified,
    List.mem_singleton_self _, ?_, rfl, rfl⟩
  · rw [findMethod, hsocket]
    rfl
  · rw [findMethod, hfile]
    rfl

end Aspects.TypeDesc
