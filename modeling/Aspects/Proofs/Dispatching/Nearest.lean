import Aspects.TypeDesc.Builder
import Aspects.Proofs.Subtyping.Accepting

/-!
# The shape that is matched and the shape that runs

A method is matched in the shape that it has on the nearest type of the superclass chain
that carries it out itself. The call goes another way: it looks at the type, and then at
each of its parents with everything above that parent, interfaces included. Since the
superclass comes first among the parents, what the chain carries is found before any
default of an interface, whether that one was met further down or not
(`findImplementation_of_chain`). So the implementation that runs is the one of the shape
that was matched (`nearest_shape_runs`).
-/

namespace Aspects

variable {t : TypeDesc} {k : MethodKey} {i : Implementation}

namespace Method

/-- Declared on another type, a method is what it was but for that type. -/
theorem redeclare_eq (m : Method) (t : TypeDesc) :
    m.redeclare t = { m with declaring := (m.redeclare t).declaring } := by
  unfold redeclare
  split <;> rfl

theorem same_declaring_redeclare (m : Method) (t : TypeDesc) :
    (m.redeclare t).declaring.same t = true := by
  unfold redeclare
  split
  · assumption
  · exact TypeDesc.same_refl t

end Method

namespace TypeDesc

/-! ## One step up -/

theorem superclassChain_eq (t : TypeDesc) :
    t.superclassChain = t :: t.superclass.toList.flatMap superclassChain := by
  cases t with
  | root => rfl
  | named n kind superclass is ms =>
    cases superclass with
    | none => rfl
    | some s => simp [superclassChain, TypeDesc.superclass]

@[simp]
theorem ownImplementation?_root (k : MethodKey) : root.ownImplementation? k = none := rfl

/-- The type itself is asked first, and then its parents in turn. -/
theorem findImplementation_eq (t : TypeDesc) (k : MethodKey) :
    t.findImplementation k
      = (t.ownImplementation? k).or (t.parents.findSome? (findImplementation k)) := by
  cases t with
  | root => simp [findImplementation]
  | named n kind superclass is ms =>
    rw [findImplementation, findInList_eq_findSome?, parents]
    cases superclass with
    | none => rfl
    | some s =>
      simp only [findInOption, TypeDesc.superclass, interfaces, Option.toList_some,
        List.singleton_append, List.findSome?_cons]
      cases findImplementation k s <;> rfl

/-! ## Up the chain of superclasses -/

/-- What the chain of superclasses carries is found before anything else. -/
theorem findImplementation_of_chain
    (h : t.superclassChain.findSome? (·.ownImplementation? k) = some i) :
    t.findImplementation k = some i := by
  induction t using upward with
  | h t ih =>
    rw [superclassChain_eq, List.findSome?_cons] at h
    rw [findImplementation_eq]
    cases hown : t.ownImplementation? k with
    | some j =>
      rw [hown] at h
      exact h
    | none =>
      rw [hown] at h
      cases hsuper : t.superclass with
      | none =>
        rw [hsuper] at h
        cases h
      | some s =>
        -- the superclass is the first of the parents, so no interface is asked before it
        have hchain : s.superclassChain.findSome? (·.ownImplementation? k) = some i := by
          simpa [hsuper] using h
        have hfound : s.findImplementation k = some i :=
          ih s (mem_parents.mpr (.inl hsuper)) hchain
        simp [parents, hsuper, hfound]

/-- Either some type on the chain of superclasses carries out the method itself. Then the
most specific shape of the method is the one declared on the nearest such type, alike in all
but the declaring type, and a call runs the implementation of just that type. Or none does,
and the most specific shape is the method as it was given. -/
theorem nearest_shape_runs (t : TypeDesc) (m : Method) :
    (∃ nearer d further i, t.superclassChain = nearer ++ d :: further ∧
      (∀ s ∈ nearer, s.ownImplementation? m.key = none) ∧
      d.ownImplementation? m.key = some i ∧
      t.mostSpecificMethod m = m.redeclare d ∧
      (m.redeclare d).declaring.same d = true ∧
      m.redeclare d = { m with declaring := (m.redeclare d).declaring } ∧
      t.findImplementation m.key = some i) ∨
    ((∀ s ∈ t.superclassChain, s.ownImplementation? m.key = none) ∧
      t.mostSpecificMethod m = m) := by
  cases hfind : t.superclassChain.find? fun s => (s.ownImplementation? m.key).isSome with
  | none =>
    right
    refine ⟨fun s hs => ?_, by rw [mostSpecificMethod, hfind]⟩
    have hnone := List.find?_eq_none.mp hfind s hs
    simpa using hnone
  | some d =>
    left
    obtain ⟨hd, nearer, further, hchain, hnearer⟩ := List.find?_eq_some_iff_append.mp hfind
    obtain ⟨i, hi⟩ := Option.isSome_iff_exists.mp hd
    have hnone : ∀ s ∈ nearer, s.ownImplementation? m.key = none := by
      intro s hs
      simpa using hnearer s hs
    have hruns : t.findImplementation m.key = some i := by
      refine findImplementation_of_chain ?_
      rw [hchain, List.findSome?_append, List.findSome?_eq_none_iff.mpr hnone, Option.none_or,
        List.findSome?_cons, hi]
    refine ⟨nearer, d, further, i, hchain, hnone, hi, ?_, ?_, ?_, hruns⟩
    · rw [mostSpecificMethod, hfind]
    · exact m.same_declaring_redeclare d
    · exact m.redeclare_eq d

namespace Sockets

def closing : MethodKey := ⟨"close", []⟩

/-- An interface with a default. -/
def closeable : TypeDesc :=
  ((Builder.ofInterface "Closeable").methodRaw "close" [] void ⟨0⟩).build

/-- A class with a way of its own to close. -/
def handle : TypeDesc := ((Builder.ofClass "Handle").methodRaw "close" [] void ⟨1⟩).build

def stream : TypeDesc := ((Builder.ofClass "Stream").extending handle).build

/-- The default is nearer than what the class two steps up carries. -/
def socket : TypeDesc :=
  (((Builder.ofClass "Socket").extending stream).implementing closeable).build

end Sockets

/-- A default that is met first is neither matched nor run. -/
example :
    (Sockets.socket.mostSpecificMethod ⟨Sockets.closeable, "close", [], void⟩).declaring
        = Sockets.handle ∧
      Sockets.socket.findImplementation Sockets.closing = some (.raw ⟨1⟩) :=
  ⟨rfl, rfl⟩

end TypeDesc

end Aspects
