import Mathlib.Data.List.Induction
import Aspects.Proofs.Lookup.Visible
import Aspects.TypeDesc.Builder

/-!
# What a builder makes of what it is given

A builder is given methods one by one, and some of them have a key that an earlier one has.
The type that it builds declares the last method with each key, at the place where the key
was first given (`Retains`). One call keeps to that (`Retains.place`), and so do all of them
(`retains_after`).

The index of a type is written down once, when all its methods are there. Since no two of
them have one key, it does not matter how the index treats a key that comes again: whether
the first entry counts, as in the list, or the last one, as in a hash table (`table`), it
leads from a key to the place of the method with the key and from any other key nowhere
(`DeclaresOnce.locates`).
-/

namespace Aspects.TypeDesc

variable {t : TypeDesc} {k : MethodKey} {i : Nat} {seek seek' : MethodKey → Option Nat}
  {offered held ms : List (DeclaredMethod TypeDesc)} {d e : DeclaredMethod TypeDesc}

/-! ## The index -/

/-- The index as a hash table, in which a later entry replaces an earlier one with its key. -/
def table (t : TypeDesc) : Std.HashMap MethodKey Nat :=
  .ofList t.index

/-- The method at the place that the table tells. -/
def tabled? (t : TypeDesc) (k : MethodKey) : Option (DeclaredMethod TypeDesc) :=
  t.table[k]?.bind fun i => t.methods[i]?

/-- No two methods declared on the type itself have one key. -/
def DeclaresOnce (t : TypeDesc) : Prop :=
  (t.methods.map (·.key)).Nodup

/-- Each key of a method leads to the place of that method, and no other key leads anywhere. -/
def Locates (seek : MethodKey → Option Nat) (ms : List (DeclaredMethod TypeDesc)) : Prop :=
  ∀ k i, seek k = some i ↔ ∃ hi : i < ms.length, ms[i].key = k

/-- There is one way to locate methods. -/
theorem Locates.unique (h : Locates seek ms) (h' : Locates seek' ms) : seek = seek' := by
  funext k
  apply Option.ext
  intro i
  rw [h k i, h' k i]

theorem mem_index_iff : (k, i) ∈ t.index ↔ ∃ hi : i < t.methods.length, t.methods[i].key = k := by
  simp [index, List.mem_zipIdx_iff_getElem?, List.getElem?_eq_some_iff]

theorem keys_index (t : TypeDesc) : t.index.map Prod.fst = t.methods.map (·.key) := by
  rw [index, List.map_map]
  show t.methods.zipIdx.map ((·.key) ∘ Prod.fst) = _
  rw [← List.map_map, List.zipIdx_map_fst]

namespace DeclaresOnce

/-- Whatever answers with an entry of the index, and does so for every key in it, locates the
methods. -/
theorem locates (h : t.DeclaresOnce) (hentry : ∀ k i, seek k = some i → (k, i) ∈ t.index)
    (hnone : ∀ k, seek k = none → k ∉ t.index.map Prod.fst) : Locates seek t.methods := by
  intro k i
  constructor
  · intro hseek
    exact mem_index_iff.mp (hentry k i hseek)
  · rintro ⟨hi, hkey⟩
    have hmem : (k, i) ∈ t.index := mem_index_iff.mpr ⟨hi, hkey⟩
    cases hseek : seek k with
    | none => exact absurd (List.mem_map_of_mem hmem) (hnone k hseek)
    | some j =>
      -- the two methods have one key, so they are at one place
      obtain ⟨hj, hkey'⟩ := mem_index_iff.mp (hentry k j hseek)
      have heq : (t.methods.map (·.key))[j]? = (t.methods.map (·.key))[i]? := by
        rw [List.getElem?_map, List.getElem?_map, List.getElem?_eq_getElem hj,
          List.getElem?_eq_getElem hi, Option.map_some, Option.map_some, hkey', hkey]
      have hlength : j < (t.methods.map (·.key)).length := by simpa using hj
      rw [(List.getElem?_inj hlength h).mp heq]

/-- The list of places, in which the first entry with a key counts. -/
theorem locates_index (h : t.DeclaresOnce) : Locates (t.index.lookup ·) t.methods := by
  apply h.locates
  · intro k i hseek
    obtain ⟨before, after, hsplit, _⟩ := List.lookup_eq_some_iff.mp hseek
    rw [hsplit]
    exact List.mem_append_right _ List.mem_cons_self
  · intro k hseek hmem
    obtain ⟨entry, hentry, rfl⟩ := List.mem_map.mp hmem
    simpa using List.lookup_eq_none_iff.mp hseek entry hentry

/-- The table, in which the last entry with a key counts. -/
theorem locates_table (h : t.DeclaresOnce) : Locates (t.table[·]?) t.methods := by
  have hdistinct : t.index.Pairwise fun x y => (x.1 == y.1) = false := by
    have hkeys : (t.index.map Prod.fst).Nodup := by
      rw [keys_index]
      exact h
    refine (List.pairwise_map.mp hkeys).imp fun hne => ?_
    exact beq_eq_false_iff_ne.mpr hne
  have hfound : ∀ k i, (k, i) ∈ t.index → t.table[k]? = some i := fun k i hmem =>
    Std.HashMap.getElem?_ofList_of_mem BEq.rfl hdistinct hmem
  apply h.locates
  · intro k i hseek
    by_cases hk : k ∈ t.index.map Prod.fst
    · obtain ⟨⟨_, j⟩, hmem, rfl⟩ := List.mem_map.mp hk
      rw [hfound _ j hmem] at hseek
      cases hseek
      exact hmem
    · have habsent : (t.index.map Prod.fst).contains k = false := by simpa using hk
      rw [table, Std.HashMap.getElem?_ofList_of_contains_eq_false habsent] at hseek
      cases hseek
  · intro k hseek hmem
    obtain ⟨⟨_, j⟩, hentry, rfl⟩ := List.mem_map.mp hmem
    rw [hfound _ j hentry] at hseek
    cases hseek

theorem tabled?_eq (h : t.DeclaresOnce) (k : MethodKey) : t.tabled? k = t.ownMethod? k := by
  have hseek : t.table[k]? = t.index.lookup k := congrFun (h.locates_table.unique h.locates_index) k
  rw [tabled?, ownMethod?, hseek]

end DeclaresOnce

namespace Builder

/-! ## What is retained -/

/-- The last of the methods that has the key. -/
def lastWith? (ms : List (DeclaredMethod TypeDesc)) (k : MethodKey) :
    Option (DeclaredMethod TypeDesc) :=
  ms.findRev? fun d => d.key = k

theorem lastWith?_concat (ms : List (DeclaredMethod TypeDesc)) (d : DeclaredMethod TypeDesc)
    (k : MethodKey) : lastWith? (ms ++ [d]) k = if d.key = k then some d else lastWith? ms k := by
  unfold lastWith?
  rw [List.findRev?_eq_find?_reverse, List.findRev?_eq_find?_reverse, List.reverse_append,
    List.reverse_singleton, List.singleton_append, List.find?_cons]
  by_cases h : d.key = k <;> simp [h]

theorem lastWith?_eq_none_iff : lastWith? ms k = none ↔ k ∉ ms.map (·.key) := by
  simp [lastWith?, List.findRev?_eq_find?_reverse]

/-- The methods that are held once the others were given, one after the other: one for each
key, in the order in which the keys were first given, and each of them the last that was
given with its key. -/
structure Retains (offered held : List (DeclaredMethod TypeDesc)) : Prop where
  once : (held.map (·.key)).Nodup
  keys : ∀ k, k ∈ held.map (·.key) ↔ k ∈ offered.map (·.key)
  ordered : (held.map (·.key)).Pairwise fun j k =>
    (offered.map (·.key)).idxOf j < (offered.map (·.key)).idxOf k
  last : ∀ d ∈ held, lastWith? offered d.key = some d

theorem Retains.nil : Retains [] [] where
  once := List.nodup_nil
  keys _ := Iff.rfl
  ordered := .nil
  last _ hd := absurd hd List.not_mem_nil

/-- Placing a method puts it in the list and takes out the one with its key. -/
theorem mem_place (hms : (ms.map (·.key)).Nodup) (h : e ∈ place ms d) :
    e = d ∨ e ∈ ms ∧ d.key ≠ e.key := by
  induction ms with
  | nil => exact .inl (List.mem_singleton.mp h)
  | cons x ms ih =>
    rw [List.map_cons, List.nodup_cons] at hms
    unfold place at h
    split at h
    · next hx =>
      rcases List.mem_cons.mp h with hd | hmem
      · exact .inl hd
      · -- the method that went was the only one with the key
        refine .inr ⟨List.mem_cons_of_mem _ hmem, fun hkey => hms.1 ?_⟩
        rw [hx, hkey]
        exact List.mem_map_of_mem hmem
    · next hx =>
      rcases List.mem_cons.mp h with rfl | hmem
      · exact .inr ⟨List.mem_cons_self, fun hkey => hx hkey.symm⟩
      · rcases ih hms.2 hmem with hd | ⟨he, hkey⟩
        · exact .inl hd
        · exact .inr ⟨List.mem_cons_of_mem _ he, hkey⟩

/-- A method that is placed keeps the order: a key that was there stays where it is, and a new
one goes behind all others. -/
theorem Retains.ordered_place (h : Retains offered held) (d : DeclaredMethod TypeDesc) :
    ((place held d).map (·.key)).Pairwise fun j k =>
      ((offered ++ [d]).map (·.key)).idxOf j < ((offered ++ [d]).map (·.key)).idxOf k := by
  rw [List.map_append]
  -- where a key was first given is the same however many methods follow
  have hsame : ∀ k ∈ held.map (·.key),
      (offered.map (·.key) ++ [d].map (·.key)).idxOf k = (offered.map (·.key)).idxOf k := by
    intro k hk
    exact List.idxOf_append_of_mem ((h.keys k).mp hk)
  have hordered : (held.map (·.key)).Pairwise fun j k =>
      (offered.map (·.key) ++ [d].map (·.key)).idxOf j
        < (offered.map (·.key) ++ [d].map (·.key)).idxOf k := by
    refine h.ordered.imp_of_mem fun hj hk hlt => ?_
    rw [hsame _ hj, hsame _ hk]
    exact hlt
  rw [keys_place]
  split
  · exact hordered
  · next hnew =>
    refine List.pairwise_append.mpr ⟨hordered, List.pairwise_singleton _ _, ?_⟩
    intro j hj k hk
    rw [List.mem_singleton.mp hk, hsame j hj, List.idxOf_append,
      if_neg fun hoffered => hnew ((h.keys _).mpr hoffered)]
    have hlt := List.idxOf_lt_length_iff.mpr ((h.keys j).mp hj)
    omega

/-- What is retained is so still when one more method is given and placed. -/
theorem Retains.place (h : Retains offered held) (d : DeclaredMethod TypeDesc) :
    Retains (offered ++ [d]) (place held d) where
  once := by
    refine (h.ordered_place d).imp fun hlt heq => ?_
    rw [heq] at hlt
    exact Nat.lt_irrefl _ hlt
  keys k := by
    rw [keys_place, List.map_append, List.mem_append, ← h.keys k, List.map_singleton,
      List.mem_singleton]
    split
    · next hold =>
      refine ⟨.inl, ?_⟩
      rintro (hk | rfl)
      · exact hk
      · exact hold
    · rw [List.mem_append, List.mem_singleton]
  ordered := h.ordered_place d
  last e he := by
    rw [lastWith?_concat]
    rcases mem_place h.once he with rfl | ⟨he, hkey⟩
    · rw [if_pos rfl]
    · rw [if_neg hkey]
      exact h.last e he

/-- Of what is retained, and of what was given, a key finds the same method. -/
theorem Retains.find?_eq (h : Retains offered held) (k : MethodKey) :
    held.find? (fun d => d.key = k) = lastWith? offered k := by
  cases hfound : held.find? (fun d => d.key = k) with
  | some d =>
    have hkey : d.key = k := by simpa using List.find?_some hfound
    rw [← hkey]
    exact (h.last d (List.mem_of_find?_eq_some hfound)).symm
  | none =>
    symm
    rw [lastWith?_eq_none_iff, ← h.keys]
    simpa using hfound

/-! ## Calls -/

/-- A call to a builder. -/
inductive Call where
  | extending (parent : TypeDesc)
  | implementing (i : TypeDesc)
  | declare (name : String) (params : List TypeDesc) (result : TypeDesc)
  | method (name : String) (params : List TypeDesc) (result : TypeDesc) (body : Routine)
  | methodRaw (name : String) (params : List TypeDesc) (result : TypeDesc) (body : Routine)

/-- The builder after a call. -/
def perform (b : Builder) : Call → Builder
  | .extending p => b.extending p
  | .implementing i => b.implementing i
  | .declare n ps r => b.declare n ps r
  | .method n ps r body => b.method n ps r body
  | .methodRaw n ps r body => b.methodRaw n ps r body

/-- The builder after calls, one after the other. -/
def after (b : Builder) (calls : List Call) : Builder :=
  calls.foldl perform b

/-- The method that a call gives to a builder of types with the name. -/
def Call.given? (owner : String) : Call → Option (DeclaredMethod TypeDesc)
  | extending _ => none
  | implementing _ => none
  | declare n ps r => some ⟨n, ps, r, none⟩
  | method n ps r body => some ⟨n, ps, r, some (.onInstance owner body)⟩
  | methodRaw n ps r body => some ⟨n, ps, r, some (.raw body)⟩

/-- The methods that the calls give, in order. -/
def given (owner : String) (calls : List Call) : List (DeclaredMethod TypeDesc) :=
  calls.filterMap (·.given? owner)

variable {b : Builder}

theorem given_concat (owner : String) (calls : List Call) (c : Call) :
    given owner (calls ++ [c]) = given owner calls ++ (c.given? owner).toList := by
  rw [given, List.filterMap_append]
  cases hc : c.given? owner <;> simp [hc, given]

theorem after_concat (b : Builder) (calls : List Call) (c : Call) :
    b.after (calls ++ [c]) = (b.after calls).perform c := by
  simp [after]

theorem name_perform (b : Builder) (c : Call) : (b.perform c).name = b.name := by
  cases c with
  | extending p =>
    show (b.extending p).name = b.name
    unfold extending
    split <;> rfl
  | _ => rfl

theorem name_after (b : Builder) (calls : List Call) : (b.after calls).name = b.name := by
  induction calls using List.reverseRecOn with
  | nil => rfl
  | append_singleton calls c ih => rw [after_concat, name_perform, ih]

/-- A call that gives a method has it placed; any other call leaves the methods alone. -/
theorem methods_perform (b : Builder) (c : Call) :
    (b.perform c).methods = (c.given? b.name).toList.foldl place b.methods := by
  cases c with
  | extending p =>
    show (b.extending p).methods = b.methods
    unfold extending
    split <;> rfl
  | _ => rfl

/-- What is held after calls is what they gave, as far as it is retained. -/
theorem retains_after (hb : b.methods = []) (calls : List Call) :
    Retains (given b.name calls) (b.after calls).methods := by
  induction calls using List.reverseRecOn with
  | nil =>
    show Retains [] b.methods
    rw [hb]
    exact .nil
  | append_singleton calls c ih =>
    rw [after_concat, methods_perform, name_after, given_concat]
    cases c.given? b.name with
    | none =>
      rw [Option.toList_none, List.append_nil]
      exact ih
    | some d => exact ih.place d

theorem declaresOnce_after (hb : b.methods = []) (calls : List Call) :
    (b.after calls).build.DeclaresOnce :=
  (retains_after hb calls).once

/-- What is built after calls declares one method for each key that was given, in the order in
which the keys were first given, and each as it was given last. The index, be it read as a list
or as a hash table, leads from the key of each of these methods to its place and from other keys
nowhere. So what is found for a key on the type itself, a method or an implementation, is what
the last call with that key gave. -/
theorem built_type_retains_last (hb : b.methods = []) (calls : List Call) :
    Retains (given b.name calls) (b.after calls).build.methods ∧
    Locates ((b.after calls).build.index.lookup ·) (b.after calls).build.methods ∧
    Locates ((b.after calls).build.table[·]?) (b.after calls).build.methods ∧
    ∀ k,
      (b.after calls).build.ownMethod? k = lastWith? (given b.name calls) k ∧
      (b.after calls).build.tabled? k = lastWith? (given b.name calls) k ∧
      (b.after calls).build.ownImplementation? k
        = (lastWith? (given b.name calls) k).bind (·.implementation) := by
  have hretains := retains_after hb calls
  have honce := declaresOnce_after hb calls
  have hown : ∀ k, (b.after calls).build.ownMethod? k = lastWith? (given b.name calls) k := by
    intro k
    rw [ownMethod?_eq_find?]
    exact hretains.find?_eq k
  refine ⟨hretains, honce.locates_index, honce.locates_table, fun k => ⟨hown k, ?_, ?_⟩⟩
  · rw [honce.tabled?_eq, hown]
  · rw [ownImplementation?, hown]

namespace Counters

def reading : MethodKey := ⟨"get", []⟩

def adding : MethodKey := ⟨"add", ["i64"]⟩

/-- The first method is given once more, now with an implementation and another result. -/
def calls : List Call :=
  [.declare "get" [] int, .methodRaw "add" [int] int ⟨0⟩,
    .implementing (plain "Gauge" .interfaceKind), .method "get" [] text ⟨1⟩]

def counter : TypeDesc := ((ofClass "Counter").after calls).build

end Counters

open Counters in
/-- The later way to read a counter is at the place of the earlier one. -/
theorem counter_reads_as_given_last :
    (ofClass "Counter").methods = [] ∧
      counter.methods.map (·.key) = [reading, adding] ∧
      (∀ i, counter.table[reading]? = some i ↔ i = 0) ∧
      counter.ownMethod? reading
        = some ⟨"get", [], text, some (.onInstance "Counter" ⟨1⟩)⟩ := by
  obtain ⟨_, _, htable, hfound⟩ := built_type_retains_last (b := ofClass "Counter") rfl calls
  have hat : counter.table[reading]? = some 0 := (htable reading 0).mpr ⟨by decide, rfl⟩
  refine ⟨rfl, rfl, fun i => ?_, ?_⟩
  · rw [hat, Option.some_inj, eq_comm]
  · exact (hfound reading).1

end Builder

end Aspects.TypeDesc
