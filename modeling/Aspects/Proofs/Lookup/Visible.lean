import Aspects.TypeDesc.Lookup
import Mathlib.Data.List.Nodup

/-!
# The visible methods of a type

Of all methods declared in a hierarchy those are visible that come first with their key.
So no two visible methods have one key (`eq_of_key_eq`), and every method declared in the
hierarchy has a visible one with its key, which may be another method that hides it
(`exists_visible`). Whatever goes by the key alone is found first among the visible methods
if it is found first in the hierarchy (`find?_allMethods`), so lookups by key and by name
find visible methods, and they find something exactly if a type of the hierarchy declares it.
-/

namespace Aspects.TypeDesc

variable {m m' : Method} {ms : List Method} {seen : List MethodKey} {s t : TypeDesc}

/-- A key that was seen is not new. -/
theorem key_not_mem_of_mem_newKeys (h : m ∈ newKeys seen ms) : m.key ∉ seen := by
  induction ms generalizing seen with
  | nil => cases h
  | cons x ms ih =>
    unfold newKeys at h
    split at h
    · exact ih h
    · next hnew =>
      rcases List.mem_cons.mp h with rfl | h
      · simpa using hnew
      · intro hseen
        exact ih h (List.mem_cons_of_mem _ hseen)

theorem nodup_keys_newKeys (seen : List MethodKey) (ms : List Method) :
    ((newKeys seen ms).map (·.key)).Nodup := by
  induction ms generalizing seen with
  | nil => exact List.nodup_nil
  | cons m ms ih =>
    unfold newKeys
    split
    · exact ih seen
    · rw [List.map_cons, List.nodup_cons]
      refine ⟨fun hmem => ?_, ih (m.key :: seen)⟩
      obtain ⟨m', hm', hkey⟩ := List.mem_map.mp hmem
      have hnew := key_not_mem_of_mem_newKeys hm'
      rw [hkey] at hnew
      exact hnew List.mem_cons_self

/-- No two visible methods have one key. -/
theorem eq_of_key_eq (hm : m ∈ t.allMethods) (hm' : m' ∈ t.allMethods) (h : m.key = m'.key) :
    m = m' := by
  have hnodup : (t.allMethods.map (·.key)).Nodup := nodup_keys_newKeys [] _
  exact List.inj_on_of_nodup_map hnodup hm hm' h

/-- Leaving out keys that were seen does not change what is found first, if what is looked for
depends on the key alone and no key that was seen has it. -/
theorem find?_newKeys {p : Method → Bool} (hp : ∀ m m', m.key = m'.key → p m = p m')
    (hseen : ∀ m, m.key ∈ seen → p m = false) : (newKeys seen ms).find? p = ms.find? p := by
  induction ms generalizing seen with
  | nil => rfl
  | cons x ms ih =>
    unfold newKeys
    split
    · next hx =>
      -- a method that is left out is not the one that is looked for
      have hpx : p x = false := hseen x (by simpa using hx)
      rw [List.find?_cons, hpx]
      exact ih hseen
    · rw [List.find?_cons, List.find?_cons]
      cases hpx : p x with
      | true => rfl
      | false =>
        apply ih
        intro m hm
        rcases List.mem_cons.mp hm with hmx | hm
        · rw [hp m x hmx, hpx]
        · exact hseen m hm

/-- Of the visible methods the same is found first as of all that the hierarchy declares. -/
theorem find?_allMethods (t : TypeDesc) {p : Method → Bool}
    (hp : ∀ m m', m.key = m'.key → p m = p m') :
    t.allMethods.find? p = (t.hierarchy.flatMap declaredMethods).find? p :=
  find?_newKeys hp fun _ hm => absurd hm List.not_mem_nil

/-! ## Looking up by key -/

/-- The place of a method leads to the first method with the key. -/
theorem ownMethod?_eq_find? (t : TypeDesc) (k : MethodKey) :
    t.ownMethod? k = t.methods.find? fun d => d.key = k := by
  have hplaces : ∀ ds before : List (DeclaredMethod TypeDesc),
      (((ds.zipIdx before.length).map fun x => (x.1.key, x.2)).lookup k).bind
          (fun i => (before ++ ds)[i]?)
        = ds.find? fun d => d.key = k := by
    intro ds
    induction ds with
    | nil => intro before; rfl
    | cons d ds ih =>
      intro before
      rw [List.zipIdx_cons, List.map_cons, List.lookup_cons, List.find?_cons]
      by_cases hd : d.key = k
      · simp [hd]
      · have hd' : (k == d.key) = false := beq_eq_false_iff_ne.mpr fun h => hd h.symm
        have hrest := ih (before ++ [d])
        rw [List.length_append, List.length_singleton, List.append_assoc,
          List.singleton_append] at hrest
        simp only [hd', hd, decide_false]
        exact hrest
  exact hplaces t.methods []

/-- The nearest declaration with a key is the first with it in the hierarchy. -/
theorem findMethod_eq_find? (t : TypeDesc) (k : MethodKey) :
    t.findMethod k = (t.hierarchy.flatMap declaredMethods).find? fun m => m.key = k := by
  rw [findMethod, List.find?_flatMap]
  congr 1
  funext s
  rw [ownMethod?_eq_find?, declaredMethods, List.find?_map]
  rfl

/-- What is found by a key is found among the visible methods. -/
theorem findMethod_eq_find?_allMethods (t : TypeDesc) (k : MethodKey) :
    t.findMethod k = t.allMethods.find? fun m => m.key = k := by
  rw [findMethod_eq_find?, find?_allMethods]
  intro m m' h
  rw [h]

/-- The method that is found by its key is the visible one. -/
theorem mem_allMethods_of_findMethod {k : MethodKey} (h : t.findMethod k = some m) :
    m ∈ t.allMethods := by
  rw [findMethod_eq_find?_allMethods] at h
  exact List.mem_of_find?_eq_some h

theorem key_of_findMethod {k : MethodKey} (h : t.findMethod k = some m) : m.key = k := by
  rw [findMethod_eq_find?] at h
  simpa using List.find?_some h

/-- Some method is found by a key exactly if a type of the hierarchy declares one with it. -/
theorem isSome_findMethod_iff {k : MethodKey} :
    (t.findMethod k).isSome = true ↔ ∃ s ∈ t.hierarchy, ∃ d ∈ s.methods, d.key = k := by
  simp only [findMethod, List.findSome?_isSome_iff, Option.isSome_map, ownMethod?_eq_find?,
    List.find?_isSome, decide_eq_true_eq]

/-- The keys of the visible methods are those of the methods that the hierarchy declares. -/
theorem mem_keys_allMethods_iff {k : MethodKey} :
    k ∈ t.allMethods.map (·.key) ↔ ∃ s ∈ t.hierarchy, ∃ d ∈ s.methods, d.key = k := by
  rw [← isSome_findMethod_iff, findMethod_eq_find?_allMethods, List.find?_isSome, List.mem_map]
  simp only [decide_eq_true_eq]

/-- A method that is declared in the hierarchy is visible, or a visible method hides it. -/
theorem exists_visible (hs : s ∈ t.hierarchy) (hm : m ∈ s.declaredMethods) :
    ∃ m₀ ∈ t.allMethods, m₀.key = m.key := by
  obtain ⟨d, hd, rfl⟩ := List.mem_map.mp hm
  exact List.mem_map.mp (mem_keys_allMethods_iff.mpr ⟨s, hs, d, hd, rfl⟩)

/-- A key finds the one visible method that has it. -/
theorem findMethod_eq_some_iff {k : MethodKey} :
    t.findMethod k = some m ↔ m ∈ t.allMethods ∧ m.key = k := by
  constructor
  · intro h
    exact ⟨mem_allMethods_of_findMethod h, key_of_findMethod h⟩
  · rintro ⟨hm, hkey⟩
    have hsome : (t.findMethod k).isSome = true := by
      rw [isSome_findMethod_iff, ← mem_keys_allMethods_iff, ← hkey]
      exact List.mem_map_of_mem hm
    obtain ⟨m', hm'⟩ := Option.isSome_iff_exists.mp hsome
    -- what is found is visible and has the same key
    have heq : m' = m :=
      eq_of_key_eq (mem_allMethods_of_findMethod hm') hm ((key_of_findMethod hm').trans hkey.symm)
    rw [hm', heq]

/-! ## Looking up by name -/

/-- What is found by a name is the first visible method with that name. -/
theorem methodNamed_eq_find?_allMethods (t : TypeDesc) (name : String) :
    t.methodNamed name = t.allMethods.find? fun m => m.name = name := by
  rw [find?_allMethods, methodNamed, List.find?_flatMap]
  · congr 1
    funext s
    rw [declaredMethods, List.find?_map]
    rfl
  · intro m m' h
    have hname : m.name = m'.name := congrArg MethodKey.name h
    rw [hname]

theorem isSome_methodNamed_iff {name : String} :
    (t.methodNamed name).isSome = true ↔ ∃ s ∈ t.hierarchy, ∃ d ∈ s.methods, d.name = name := by
  simp only [methodNamed, List.findSome?_isSome_iff, Option.isSome_map, List.find?_isSome,
    beq_iff_eq]

theorem name_of_methodNamed {name : String} (h : t.methodNamed name = some m) :
    m.name = name := by
  rw [methodNamed_eq_find?_allMethods] at h
  simpa using List.find?_some h

end Aspects.TypeDesc
