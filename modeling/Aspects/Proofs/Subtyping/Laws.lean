import Aspects.TypeDesc.Builder
import Aspects.Proofs.Subtyping.Walking

/-!
# The laws of subtyping

The types of a program are there from the start, or were built over other types of the
program (`Described`). Nothing is asked of what is extended and implemented: a class may
extend an interface, and whatever may stand where an interface is expected. So long as
equality tells the types apart, accepting is a preorder all the same, the walk through the
supertypes lists what is above a type, each type once, and a class or interface other than
the root accepts exactly those types whose walk it is on (`subtyping_laws`).
-/

namespace Aspects.TypeDesc

variable {known : TypeDesc → Prop} {t : TypeDesc} {b : Builder}

/-- The types that are there from the start. -/
inductive BuiltIn : TypeDesc → Prop
  | root : BuiltIn root
  | void : BuiltIn void
  | primitive (name : String) : BuiltIn (primitive name)

/-- A builder that was given only types that are known to extend and implement. -/
inductive Builder.Over (known : TypeDesc → Prop) : Builder → Prop
  | ofClass (name : String) : Over known (ofClass name)
  | ofInterface (name : String) : Over known (ofInterface name)
  | extending {b : Builder} {p : TypeDesc} (hb : Over known b) (hp : known p) :
      Over known (b.extending p)
  | implementing {b : Builder} {i : TypeDesc} (hb : Over known b) (hi : known i) :
      Over known (b.implementing i)
  | declare {b : Builder} (hb : Over known b) (name : String) (params : List TypeDesc)
      (result : TypeDesc) : Over known (b.declare name params result)
  | method {b : Builder} (hb : Over known b) (name : String) (params : List TypeDesc)
      (result : TypeDesc) (body : Routine) : Over known (b.method name params result body)
  | methodRaw {b : Builder} (hb : Over known b) (name : String) (params : List TypeDesc)
      (result : TypeDesc) (body : Routine) : Over known (b.methodRaw name params result body)

/-- The types of a program: each is there from the start or was built over the others, and
equality tells them apart. -/
structure Described (known : TypeDesc → Prop) : Prop where
  built : ∀ {t}, known t → t.BuiltIn ∨ ∃ b, Builder.Over known b ∧ t = b.build
  identical : ∀ {s t}, known s → known t → s.same t = true → s = t

theorem BuiltIn.parents_eq (h : t.BuiltIn) : t.parents = [] := by
  cases h <;> rfl

/-- A builder makes a class or an interface, and does not change its mind. -/
theorem Builder.Over.reference (h : Over known b) : b.build.IsReference := by
  have hkind : b.kind = .classKind ∨ b.kind = .interfaceKind := by
    induction h with
    | ofClass name => exact .inl rfl
    | ofInterface name => exact .inr rfl
    | @extending b p _ _ ih =>
      unfold Builder.extending
      split
      · exact ih
      · exact ih
    | implementing _ _ ih => exact ih
    | declare _ _ _ _ ih => exact ih
    | method _ _ _ _ _ ih => exact ih
    | methodRaw _ _ _ _ _ ih => exact ih
  exact hkind

/-- What is built has no parents but those that the builder was given. -/
theorem Builder.Over.known_parents (h : Over known b) : ∀ p ∈ b.build.parents, known p := by
  induction h with
  | ofClass name => exact fun p hp => absurd hp List.not_mem_nil
  | ofInterface name => exact fun p hp => absurd hp List.not_mem_nil
  | @extending b q _ hq ih =>
    intro p hp
    rw [mem_parents] at hp
    unfold Builder.extending at hp
    split at hp
    · -- one more parent of an interface
      rcases hp with hsuper | hinterface
      · exact ih p (mem_parents.mpr (.inl hsuper))
      · rcases List.mem_append.mp hinterface with hinterface | hnew
        · exact ih p (mem_parents.mpr (.inr hinterface))
        · exact List.mem_singleton.mp hnew ▸ hq
    · -- the superclass of a class, in the place of an earlier one
      rcases hp with hsuper | hinterface
      · cases hsuper
        exact hq
      · exact ih p (mem_parents.mpr (.inr hinterface))
  | @implementing b i _ hi ih =>
    intro p hp
    rcases mem_parents.mp hp with hsuper | hinterface
    · exact ih p (mem_parents.mpr (.inl hsuper))
    · rcases mem_addNew hinterface with hinterface | hnew
      · exact ih p (mem_parents.mpr (.inr hinterface))
      · exact List.mem_singleton.mp hnew ▸ hi
  | declare _ _ _ _ ih => exact ih
  | method _ _ _ _ _ ih => exact ih
  | methodRaw _ _ _ _ _ ih => exact ih

namespace Described

theorem identified (h : Described known) : Identified known where
  parents {t p} ht hp := by
    rcases h.built ht with hbuiltIn | ⟨b, hb, rfl⟩
    · rw [hbuiltIn.parents_eq] at hp
      cases hp
    · exact hb.known_parents p hp
  identical := h.identical

theorem reference (h : Described known) (ht : known t) (hparents : t.parents ≠ []) :
    t.IsReference := by
  rcases h.built ht with hbuiltIn | ⟨b, hb, rfl⟩
  · exact absurd hbuiltIn.parents_eq hparents
  · exact hb.reference

end Described

/-- Over the types of a program, accepting is reflexive and transitive. The loop through the
supertypes of a type comes to an end with one list, which begins with the type and has all
that is above it and nothing else, each type once. A class or interface other than the root
accepts a type exactly if it is on that list. -/
theorem subtyping_laws (h : Described known) :
    (∀ t, known t → t.accepts t = true) ∧
    (∀ r s t, known r → known s → known t → r.accepts s = true → s.accepts t = true →
      r.accepts t = true) ∧
    (∀ t, known t →
      (∀ ts, Scans [t] 0 ts ↔ ts = t.hierarchy) ∧
      t.hierarchy.head? = some t ∧ t.hierarchy.Nodup ∧
      ∀ s, s ∈ t.hierarchy ↔ Above s t) ∧
    (∀ s t, known s → known t → s.IsReference → s ≠ root →
      (s.accepts t = true ↔ s ∈ t.hierarchy)) := by
  have hidentified := h.identified
  refine ⟨fun t _ => accepts_self t, ?_, ?_, ?_⟩
  · intro r s t hr hs ht hrs hst
    exact hidentified.accepts_trans h.reference hr hs ht hrs hst
  · intro t ht
    refine ⟨fun ts => scans_iff, head?_hierarchy t, nodup_hierarchy t, fun s => ?_⟩
    exact hidentified.mem_hierarchy_iff ht
  · intro s t hs ht href hroot
    rw [hidentified.accepts_iff_above hs ht href hroot, hidentified.mem_hierarchy_iff ht]

namespace Diamond

def readable : TypeDesc := ((Builder.ofInterface "Readable").methodRaw "read" [] int ⟨0⟩).build

/-- Reads as its parent does. -/
def buffered : TypeDesc := ((Builder.ofInterface "Buffered").extending readable).build

/-- Has a way of its own to read. -/
def seekable : TypeDesc :=
  (((Builder.ofInterface "Seekable").extending readable).methodRaw "read" [] int ⟨1⟩).build

/-- A class in which the two ways to read come together. -/
def file : TypeDesc :=
  (((Builder.ofClass "File").implementing buffered).implementing seekable).build

def types : List TypeDesc := [readable, buffered, seekable, file]

theorem described : Described (· ∈ types) where
  built {t} ht := by
    simp only [types, List.mem_cons, List.not_mem_nil, or_false] at ht
    right
    rcases ht with rfl | rfl | rfl | rfl
    · exact ⟨_, .methodRaw (.ofInterface _) _ _ _ _, rfl⟩
    · exact ⟨_, .extending (.ofInterface _) (by simp [types]), rfl⟩
    · exact ⟨_, .methodRaw (.extending (.ofInterface _) (by simp [types])) _ _ _ _, rfl⟩
    · have hbuffered : Builder.Over (· ∈ types) ((Builder.ofClass "File").implementing buffered) :=
        .implementing (.ofClass _) (by simp [types])
      exact ⟨_, .implementing hbuffered (by simp [types]), rfl⟩
  identical := eq_of_same (by decide)

end Diamond

/-- A type that is reached in two ways is listed once, and accepts. -/
theorem diamond_listed_once :
    Described (· ∈ Diamond.types) ∧
      Diamond.file.hierarchy
        = [Diamond.file, Diamond.buffered, Diamond.seekable, Diamond.readable] ∧
      Diamond.file.hierarchy.Nodup ∧ Diamond.readable.accepts Diamond.file = true := by
  obtain ⟨_, htrans, hwalk, _⟩ := subtyping_laws Diamond.described
  obtain ⟨hscans, _, hnodup, _⟩ := hwalk Diamond.file (by simp [Diamond.types])
  have hscan : Scans [Diamond.file] 0
      [Diamond.file, Diamond.buffered, Diamond.seekable, Diamond.readable] :=
    .goesOn rfl (.goesOn rfl (.goesOn rfl (.goesOn rfl (.ends (by decide)))))
  have haccepts : Diamond.readable.accepts Diamond.file = true :=
    htrans Diamond.readable Diamond.buffered Diamond.file (by simp [Diamond.types])
      (by simp [Diamond.types]) (by simp [Diamond.types]) (by decide) (by decide)
  exact ⟨Diamond.described, ((hscans _).mp hscan).symm, hnodup, haccepts⟩

end Aspects.TypeDesc
