import Aspects.Proofs.Declaring.Builders
import Aspects.Proofs.Subtyping.Laws

/-!
# Three ways to look a method up

The visible methods of a type are listed by one walk through its hierarchy, a method is found
by its key in the index of each type on the way, and by its name among the methods of each
type on the way. All three stop at the same declarations: what is found by a key is the
visible method with the key, and what is found by a name is the first visible method with the
name (`lookups_agree`).

The index of a type is a hash table, and a table does not tell which of two methods with one
key was declared first. It need not: a type that was constructed declares each key once, and
so does every type above it (`Constructed.declaresOnce`).
-/

namespace Aspects.TypeDesc

variable {s t : TypeDesc}

/-! ## Constructed types -/

/-- A builder has come to be what it is by calls to one that holds no methods. -/
theorem Builder.Over.exists_calls {known : TypeDesc → Prop} {b : Builder} (h : Over known b) :
    ∃ (b₀ : Builder) (calls : List Call), b₀.methods = [] ∧ b₀.after calls = b := by
  have hnext : ∀ {b : Builder} (c : Call),
      (∃ (b₀ : Builder) (calls : List Call), b₀.methods = [] ∧ b₀.after calls = b) →
      ∃ (b₀ : Builder) (calls : List Call), b₀.methods = [] ∧ b₀.after calls = b.perform c := by
    rintro _ c ⟨b₀, calls, hb₀, rfl⟩
    exact ⟨b₀, calls ++ [c], hb₀, after_concat b₀ calls c⟩
  induction h with
  | ofClass name => exact ⟨.ofClass name, [], rfl, rfl⟩
  | ofInterface name => exact ⟨.ofInterface name, [], rfl, rfl⟩
  | @extending _ p _ _ ih => exact hnext (.extending p) ih
  | @implementing _ i _ _ ih => exact hnext (.implementing i) ih
  | declare _ name params result ih => exact hnext (.declare name params result) ih
  | method _ name params result body ih => exact hnext (.method name params result body) ih
  | methodRaw _ name params result body ih => exact hnext (.methodRaw name params result body) ih

/-- The types that there can be: those that are there from the start, and those that are built
over others. -/
inductive Constructed : TypeDesc → Prop
  | builtIn {t : TypeDesc} (h : t.BuiltIn) : Constructed t
  | built {b : Builder} (h : Builder.Over Constructed b) : Constructed b.build

/-- The nearest declaration with the key, by the hash tables. -/
def findTabled (t : TypeDesc) (k : MethodKey) : Option Method :=
  t.hierarchy.findSome? fun s => (s.tabled? k).map (Method.ofDeclared s)

namespace Constructed

theorem of_above (ht : t.Constructed) (hs : Above s t) : s.Constructed := by
  induction hs with
  | refl => exact ht
  | tail _ hp ih =>
    cases ih with
    | builtIn h =>
      rw [h.parents_eq] at hp
      cases hp
    | built h => exact h.known_parents _ hp

theorem declaresOnce (ht : t.Constructed) : t.DeclaresOnce := by
  cases ht with
  | builtIn h => cases h <;> exact List.nodup_nil
  | built h =>
    obtain ⟨b₀, calls, hb₀, rfl⟩ := h.exists_calls
    exact Builder.declaresOnce_after hb₀ calls

/-- What is found in the tables is what is found in the indices. -/
theorem findTabled_eq (ht : t.Constructed) (k : MethodKey) : t.findTabled k = t.findMethod k := by
  have hlist : ∀ ss : List TypeDesc, ss ⊆ t.hierarchy →
      ss.findSome? (fun s => (s.tabled? k).map (Method.ofDeclared s))
        = ss.findSome? fun s => (s.ownMethod? k).map (Method.ofDeclared s) := by
    intro ss hss
    induction ss with
    | nil => rfl
    | cons s ss ih =>
      obtain ⟨hs, hss⟩ := List.cons_subset.mp hss
      have honce : s.DeclaresOnce := (ht.of_above (above_of_mem_hierarchy hs)).declaresOnce
      rw [List.findSome?_cons, List.findSome?_cons, honce.tabled?_eq, ih hss]
  exact hlist t.hierarchy (List.Subset.refl _)

end Constructed

/-! ## Agreement -/

/-- No two visible methods have one key, and their keys are those of the methods that the
hierarchy declares. A key finds the visible method that has it, if there is one, and for a type
that was constructed the hash tables lead to the same method. A name finds the first visible
method that has it. -/
theorem lookups_agree (t : TypeDesc) :
    (t.allMethods.map (·.key)).Nodup ∧
    (∀ k, k ∈ t.allMethods.map (·.key) ↔ ∃ s ∈ t.hierarchy, ∃ d ∈ s.methods, d.key = k) ∧
    (∀ k m, t.findMethod k = some m ↔ m ∈ t.allMethods ∧ m.key = k) ∧
    (∀ k, t.findMethod k = none ↔ k ∉ t.allMethods.map (·.key)) ∧
    (t.Constructed → ∀ k, t.findTabled k = t.findMethod k) ∧
    ∀ name, t.methodNamed name = t.allMethods.find? fun m => m.name = name := by
  refine ⟨nodup_keys_newKeys [] _, fun k => mem_keys_allMethods_iff,
    fun k m => findMethod_eq_some_iff, fun k => ?_, fun ht k => ht.findTabled_eq k,
    fun name => methodNamed_eq_find?_allMethods t name⟩
  rw [← Option.not_isSome_iff_eq_none, isSome_findMethod_iff, mem_keys_allMethods_iff]

/-- In a file the nearest way to read is found, by its key and by its name, and not the one of
the interface further up that it replaces. -/
theorem file_read_found :
    Diamond.file.Constructed ∧
      Diamond.file.findTabled ⟨"read", []⟩ = some ⟨Diamond.seekable, "read", [], int⟩ ∧
      Diamond.file.findMethod ⟨"read", []⟩ = some ⟨Diamond.seekable, "read", [], int⟩ ∧
      Diamond.file.methodNamed "read" = some ⟨Diamond.seekable, "read", [], int⟩ := by
  have hreadable : Diamond.readable.Constructed := .built (.methodRaw (.ofInterface _) _ _ _ _)
  have hbuffered : Diamond.buffered.Constructed := .built (.extending (.ofInterface _) hreadable)
  have hseekable : Diamond.seekable.Constructed :=
    .built (.methodRaw (.extending (.ofInterface _) hreadable) _ _ _ _)
  have hfile : Diamond.file.Constructed :=
    .built (.implementing (.implementing (.ofClass _) hbuffered) hseekable)
  have hhierarchy : Diamond.file.hierarchy
      = [Diamond.file, Diamond.buffered, Diamond.seekable, Diamond.readable] :=
    Scans.hierarchy_eq (.goesOn rfl (.goesOn rfl (.goesOn rfl (.goesOn rfl (.ends (by decide))))))
  have hvisible : Diamond.file.allMethods = [⟨Diamond.seekable, "read", [], int⟩] := by
    rw [allMethods, hhierarchy]
    rfl
  obtain ⟨_, _, hkey, _, htables, hname⟩ := lookups_agree Diamond.file
  have hfound : Diamond.file.findMethod ⟨"read", []⟩
      = some ⟨Diamond.seekable, "read", [], int⟩ := by
    apply (hkey _ _).mpr
    rw [hvisible]
    exact ⟨List.mem_singleton_self _, rfl⟩
  refine ⟨hfile, ?_, hfound, ?_⟩
  · rw [htables hfile]
    exact hfound
  · rw [hname, hvisible]
    rfl

end Aspects.TypeDesc
