import Aspects.Proofs.Concealing.Markers
import Aspects.Proofs.Lookup.Visible
import Aspects.Proofs.Subtyping.Walking
import Aspects.Scenario.Play

/-!
# What the type of a proxy may stand for

A proxy is used in place of other objects: it is to pass as each interface of its
configuration, as a proxy, and as the target, if that is known by an interface or the proxy
extends its class. Its type has all of these among its parents (`exists_parent_of_promised`),
so each of them accepts it; and over types that equality tells apart whatever is found on one
of them by its key is found on the type of the proxy too, by that key and by its name.

Making a proxy fails for want of advisors and target, or for want of a target type that is
asked for, and for nothing else (`made_proxy_conforms`).
-/

namespace Aspects

variable {σ : Type}

/-- What a type further up declares is found from below. -/
theorem TypeDesc.Identified.isSome_findMethod_of_above {known : TypeDesc → Prop}
    {s t : TypeDesc} {k : MethodKey} {m : Method} (h : Identified known) (ht : known t)
    (hs : Above s t) (hfound : s.findMethod k = some m) : (t.findMethod k).isSome = true := by
  have hsome : (s.findMethod k).isSome = true := by rw [hfound]; rfl
  obtain ⟨r, hr, d, hd, hkey⟩ := isSome_findMethod_iff.mp hsome
  have hrt : Above r t := hs.trans (above_of_mem_hierarchy hr)
  exact isSome_findMethod_iff.mpr ⟨r, (h.mem_hierarchy_iff ht).mpr hrt, d, hd, hkey⟩

/-- What is found by a key is found by its name, though there may be another method with the
name in front of it. -/
theorem TypeDesc.isSome_methodNamed_of_findMethod {t : TypeDesc} {k : MethodKey}
    (h : (t.findMethod k).isSome = true) : (t.methodNamed k.name).isSome = true := by
  obtain ⟨s, hs, d, hd, hkey⟩ := isSome_findMethod_iff.mp h
  exact isSome_methodNamed_iff.mpr ⟨s, hs, d, hd, congrArg MethodKey.name hkey⟩

namespace Proxy

open TypeDesc

variable {strategy : Strategy} {f : Flags} {interfaces : List TypeDesc}
  {target : Option TypeDesc} {number : Nat} {s t : TypeDesc}

/-- The types that a proxy is to pass as. -/
inductive Promised (strategy : Strategy) (interfaces : List TypeDesc)
    (target : Option TypeDesc) : TypeDesc → Prop
  /-- The interfaces that are proxied. -/
  | proxied {i : TypeDesc} (hi : i ∈ interfaces) (hface : i.isInterface = true) :
    Promised strategy interfaces target i
  | marker : Promised strategy interfaces target proxyMarker
  /-- The class of the target, where the proxy extends it. -/
  | extended {t : TypeDesc} (ht : target = some t) (hsub : strategy = .bySubclass)
      (hclass : t.kind = .classKind) : Promised strategy interfaces target t
  /-- The interface that the target is known by, listed or not. -/
  | offered {t : TypeDesc} (ht : target = some t) (hface : t.isInterface = true) :
    Promised strategy interfaces target t

theorem Promised.isReference (h : Promised strategy interfaces target s) : s.IsReference := by
  cases h with
  | proxied _ hface => exact .of_isInterface hface
  | marker => exact .inr rfl
  | extended _ _ hclass => exact .inl hclass
  | offered _ hface => exact .of_isInterface hface

/-- A proxy that extends its target is made only of a target that is no interface. -/
theorem byInterface_of_isInterface (h : chooseStrategy f interfaces (some t) = .ok strategy)
    (ht : t.isInterface = true) : strategy = .byInterface := by
  unfold chooseStrategy at h
  dsimp only at h
  rw [if_pos ht] at h
  split at h
  · cases h
    rfl
  · cases h
    rfl

/-- What the type of a proxy is listed to implement. -/
theorem exists_parent_of_listed (h : listed (addNew (addNew
      (baseType strategy interfaces target number).interfaces interfaces) (markers f)) s = true) :
    ∃ p ∈ (typeFor strategy f interfaces target number).parents, s.same p = true := by
  obtain ⟨p, hp, hsame⟩ := List.any_eq_true.mp h
  rw [typeFor_eq]
  exact ⟨p, mem_parents.mpr (.inr hp), (same_symm s p).trans hsame⟩

/-- A proxy has what it is to pass as among the parents of its type, or an equal type. -/
theorem exists_parent_of_promised (hchosen : chooseStrategy f interfaces target = .ok strategy)
    (h : Promised strategy interfaces target s) :
    ∃ p ∈ (typeFor strategy f interfaces target number).parents, s.same p = true := by
  cases h with
  | proxied hi =>
    apply exists_parent_of_listed
    rw [listed_addNew, listed_addNew, listed_of_mem hi, Bool.or_true, Bool.true_or]
  | marker =>
    have hmarker : listed (markers f) proxyMarker = true := listed_of_mem List.mem_cons_self
    apply exists_parent_of_listed
    rw [listed_addNew, hmarker, Bool.or_true]
  | extended ht hsub =>
    subst ht hsub
    rw [typeFor_eq]
    exact ⟨s, mem_parents.mpr (.inl rfl), same_refl s⟩
  | offered ht hface =>
    subst ht
    cases byInterface_of_isInterface hchosen hface
    apply exists_parent_of_listed
    rw [listed_addNew, listed_addNew]
    cases hlisted : listed interfaces s with
    | true => rw [Bool.or_true, Bool.true_or]
    | false =>
      -- what is not listed among the interfaces is implemented in front of them
      have hbase : (baseType .byInterface interfaces (some s) number).interfaces = [s] := by
        unfold baseType
        dsimp only
        rw [hface, hlisted]
        rfl
      rw [hbase, listed_singleton, same_refl, Bool.true_or, Bool.true_or]

theorem isReference_typeFor (strategy : Strategy) (f : Flags) (interfaces : List TypeDesc)
    (target : Option TypeDesc) (number : Nat) :
    (typeFor strategy f interfaces target number).IsReference := by
  rw [typeFor_eq]
  exact .inl (kind_baseType strategy interfaces target number)

/-- Whatever a proxy is to pass as accepts its type. -/
theorem accepts_of_promised (hchosen : chooseStrategy f interfaces target = .ok strategy)
    (h : Promised strategy interfaces target s) :
    s.accepts (typeFor strategy f interfaces target number) = true := by
  by_cases hroot : s = root
  · rw [hroot, root_accepts_iff]
    exact isReference_typeFor _ _ _ _ _
  · obtain ⟨p, hp, hsame⟩ := exists_parent_of_promised hchosen h
    exact accepts_of_parent h.isReference hroot hp (accepts_of_same hsame)

/-- Among types that are told apart the type of a proxy is below what it is to pass as. -/
theorem above_of_promised {known : TypeDesc → Prop} (hknown : Identified known)
    (hchosen : chooseStrategy f interfaces target = .ok strategy)
    (h : Promised strategy interfaces target s) (hs : known s)
    (ht : known (typeFor strategy f interfaces target number)) :
    Above s (typeFor strategy f interfaces target number) := by
  obtain ⟨p, hp, hsame⟩ := exists_parent_of_promised hchosen h
  have heq : s = p := hknown.identical hs (hknown.parents ht hp) hsame
  rw [heq]
  exact .of_parent hp (.refl)

/-! ## When a proxy is made -/

/-- There is nothing to make a proxy of: neither an advisor nor a target. -/
def Bare (w : World σ) (id : ConfigId) : Prop :=
  (w.config id).advisors = [] ∧ (w.source (w.config id).source).isEmpty = true

/-- The type of the target is asked for, and it is not known. -/
def Unresolved (w : World σ) (id : ConfigId) : Prop :=
  ((w.config id).flags.optimize = true ∨ (w.config id).flags.proxyTargetClass = true ∨
    (w.config id).interfaces = []) ∧ (w.config id).targetType? w = none

theorem chooseStrategy_error_iff {e : Fault} :
    chooseStrategy f interfaces target = .error e ↔
      ((f.optimize = true ∨ f.proxyTargetClass = true ∨ interfaces = []) ∧ target = none) ∧
        e = .unresolvableTargetType := by
  have hasks : (f.optimize || f.proxyTargetClass || interfaces.isEmpty) = true ↔
      f.optimize = true ∨ f.proxyTargetClass = true ∨ interfaces = [] := by
    rw [Bool.or_eq_true, Bool.or_eq_true, List.isEmpty_iff, or_assoc]
  unfold chooseStrategy
  rw [← hasks]
  split
  · next h =>
    cases target with
    | none => simp [h, eq_comm]
    | some t => simp
  · next h => simp [h]

/-- Making a proxy ends in one of three ways, and without a proxy nothing has changed. -/
theorem create_cases (w : World σ) (id : ConfigId) :
    (Bare w id ∧ (create id).run w = some (.error (.fault .noTargetOrAdvisors), w)) ∨
    (¬ Bare w id ∧ Unresolved w id ∧
      (create id).run w = some (.error (.fault .unresolvableTargetType), w)) ∨
    (¬ Bare w id ∧ ¬ Unresolved w id ∧
      ∃ proxy w', (create id).run w = some (.ok proxy, w')) := by
  have hbare : Bare w id ↔
      ((w.config id).advisors.isEmpty && (w.source (w.config id).source).isEmpty) = true := by
    rw [Bool.and_eq_true, List.isEmpty_iff]
    rfl
  have hworld : (Act.world : Act σ (World σ)).run w = some (.ok w, w) := rfl
  unfold create
  rw [run_bind_of_ok hworld, hbare]
  dsimp only
  split
  · next h => exact .inl ⟨h, rfl⟩
  · next h =>
    cases hchosen : chooseStrategy (w.config id).flags (w.config id).interfaces
      ((w.config id).targetType? w) with
    | error e =>
      obtain ⟨hunresolved, rfl⟩ := chooseStrategy_error_iff.mp hchosen
      exact .inr (.inl ⟨h, hunresolved, rfl⟩)
    | ok strategy =>
      refine .inr (.inr ⟨h, fun hunresolved => ?_, _, _, rfl⟩)
      have herror := chooseStrategy_error_iff.mpr ⟨hunresolved, rfl⟩
      rw [hchosen] at herror
      cases herror

end Proxy

open Proxy TypeDesc in
/-- Making a proxy fails if there is neither an advisor nor a target, or else if the type of
the target is asked for and not known, and then nothing has changed; otherwise there is a
proxy. The type of a proxy is accepted by everything that the proxy is to pass as. And if
equality tells the types apart, a method that is found on one of these by its key is found on
the type of the proxy too, and a call to the proxy by the name of the method finds a method
with that name. -/
theorem made_proxy_conforms (w : World σ) (id : ConfigId) :
    (∀ e w', (create id).run w = some (.error e, w') ↔ w' = w ∧
      (Bare w id ∧ e = .fault .noTargetOrAdvisors ∨
        ¬ Bare w id ∧ Unresolved w id ∧ e = .fault .unresolvableTargetType)) ∧
    ((∃ proxy w', (create id).run w = some (.ok proxy, w')) ↔
      ¬ Bare w id ∧ ¬ Unresolved w id) ∧
    ∀ proxy w', (create id).run w = some (.ok proxy, w') →
      ∃ strategy, proxy.payload = .proxy id strategy (w.config id).flags.concealed ∧
        ∀ s, Promised strategy (w.config id).interfaces ((w.config id).targetType? w) s →
          s.accepts proxy.type = true ∧
          ∀ known, Identified known → known proxy.type → known s →
            ∀ k m, s.findMethod k = some m →
              (∃ m', proxy.type.findMethod k = some m' ∧ m'.key = k) ∧
              ∃ m', (Scenario.Callee.named m.name).resolve proxy = pure m' ∧
                m'.name = m.name := by
  refine ⟨fun e w' => ?_, ?_, fun proxy w' hmade => ?_⟩
  · rcases create_cases w id with ⟨hbare, hrun⟩ | ⟨hbare, hunresolved, hrun⟩ |
      ⟨hbare, hunresolved, proxy, w₁, hrun⟩
    · rw [hrun]
      simp [hbare, and_comm, eq_comm]
    · rw [hrun]
      simp [hbare, hunresolved, and_comm, eq_comm]
    · rw [hrun]
      simp [hbare, hunresolved]
  · rcases create_cases w id with ⟨hbare, hrun⟩ | ⟨hbare, hunresolved, hrun⟩ |
      ⟨hbare, hunresolved, hmade⟩
    · rw [hrun]
      simp [hbare]
    · rw [hrun]
      simp [hunresolved]
    · exact iff_of_true hmade ⟨hbare, hunresolved⟩
  · obtain ⟨strategy, hchosen, htype, hpayload⟩ := create_ok hmade
    refine ⟨strategy, hpayload, fun s hs => ?_⟩
    rw [htype]
    refine ⟨accepts_of_promised hchosen hs, fun known hknown ht hsknown k m hfound => ?_⟩
    have habove := above_of_promised hknown hchosen hs hsknown ht
    have hsome := hknown.isSome_findMethod_of_above ht habove hfound
    have hname : m.name = k.name := congrArg MethodKey.name (key_of_findMethod hfound)
    obtain ⟨m₁, hm₁⟩ := Option.isSome_iff_exists.mp hsome
    obtain ⟨m₂, hm₂⟩ := Option.isSome_iff_exists.mp (isSome_methodNamed_of_findMethod hsome)
    refine ⟨⟨m₁, hm₁, key_of_findMethod hm₁⟩, m₂, ?_, ?_⟩
    · unfold Scenario.Callee.resolve
      dsimp only
      rw [hname, htype, hm₂]
    · rw [hname, name_of_methodNamed hm₂]

/-! ## A drawer behind its interface -/

namespace Drawers

open TypeDesc

def counting : MethodKey := ⟨"count", []⟩

def till : TypeDesc := ((Builder.ofInterface "Till").declare "count" [] int).build

/-- A class that inherits its method. -/
def drawer : TypeDesc := ((Builder.ofClass "Drawer").implementing till).build

/-- A configuration for a drawer by its interface, which asks for the class. -/
def config : Configuration where
  flags := { proxyTargetClass := true }
  layout := .ofInterfaces [till]

def world : World Unit :=
  { user := (), sources := #[.singleton ⟨drawer, 0, .entity "d"⟩], configs := #[config] }

def proxyType : TypeDesc :=
  Proxy.typeFor .bySubclass config.flags [till] (some drawer) 0

def types : List TypeDesc :=
  [proxyType, drawer, till, Proxy.proxyMarker, Proxy.advisedMarker]

theorem identified : Identified (· ∈ types) where
  parents {t p} ht hp := by
    simp only [types, List.mem_cons, List.not_mem_nil, or_false] at ht ⊢
    rcases ht with rfl | rfl | rfl | rfl | rfl
    · have hparents : proxyType.parents =
          [drawer, till, Proxy.proxyMarker, Proxy.advisedMarker] := rfl
      rw [hparents] at hp
      simp only [List.mem_cons, List.not_mem_nil, or_false] at hp
      exact .inr hp
    · exact .inr (.inr (.inl (List.mem_singleton.mp hp)))
    · cases hp
    · cases hp
    · cases hp
  identical := eq_of_same (by decide)

end Drawers

/-- A proxy that extends the class of drawers passes as a drawer, and what a drawer inherits
is found on it. -/
theorem proxy_counts_as_drawer :
    ∃ proxy w', (Proxy.create ⟨0⟩).run Drawers.world = some (.ok proxy, w') ∧
      Drawers.drawer.accepts proxy.type = true ∧
      (∃ m, proxy.type.findMethod Drawers.counting = some m ∧ m.key = Drawers.counting) ∧
      ∃ m, (Scenario.Callee.named "count").resolve proxy = pure m ∧ m.name = "count" := by
  have hmade : ∃ proxy w', (Proxy.create ⟨0⟩).run Drawers.world = some (.ok proxy, w') ∧
      proxy.type = Drawers.proxyType ∧ proxy.payload = .proxy ⟨0⟩ .bySubclass false :=
    ⟨_, _, rfl, rfl, rfl⟩
  obtain ⟨proxy, w', hmade, htype, hpayload⟩ := hmade
  obtain ⟨_, _, hconforms⟩ := made_proxy_conforms Drawers.world ⟨0⟩
  obtain ⟨strategy, hstrategy, hpasses⟩ := hconforms proxy w' hmade
  have hsub : strategy = .bySubclass := by
    rw [hpayload] at hstrategy
    cases hstrategy
    rfl
  obtain ⟨haccepts, hfinds⟩ := hpasses Drawers.drawer (.extended rfl hsub rfl)
  have hhierarchy : Drawers.drawer.hierarchy = [Drawers.drawer, Drawers.till] :=
    TypeDesc.Scans.hierarchy_eq (.goesOn rfl (.goesOn rfl (.ends (by decide))))
  have hfound : Drawers.drawer.findMethod Drawers.counting
      = some ⟨Drawers.till, "count", [], TypeDesc.int⟩ := by
    rw [TypeDesc.findMethod, hhierarchy]
    rfl
  have hknown : proxy.type ∈ Drawers.types := by
    rw [htype]
    exact List.mem_cons_self
  have hboth := hfinds (· ∈ Drawers.types) Drawers.identified hknown
    (List.mem_cons_of_mem _ List.mem_cons_self) Drawers.counting _ hfound
  exact ⟨proxy, w', hmade, haccepts, hboth⟩

end Aspects
