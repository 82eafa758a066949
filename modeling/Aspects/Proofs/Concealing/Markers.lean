import Aspects.Engine
import Aspects.Proofs.Swapping.Hierarchy

/-!
# The marker of proxies that show their configuration

The type of a proxy gets the marker if the proxy shows its configuration. But it is built
on other types too: on the interfaces of the configuration, and on the type of the target,
which it extends or, that being an interface, implements. Whatever marks one of these marks
the proxy. So the marker accepts the type of a proxy exactly if the proxy shows its
configuration or the marker accepts one of those types (`marker_shown_or_inherited`).

A proxy that shows its configuration is an object like others, and its type offers the
marker among its interfaces. Hence a proxy in front of it that takes over what it offers
is marked, even one that conceals its configuration (`concealed_and_marked`).
-/

namespace Aspects

variable {σ : Type}

namespace TypeDesc

variable {ts : List TypeDesc} {s t : TypeDesc}

/-- What is listed is accepted by something in the list, equal types being accepted. -/
theorem exists_accepts_of_listed (h : listed ts t = true) : ∃ i ∈ ts, t.accepts i = true := by
  obtain ⟨i, hi, hsame⟩ := List.any_eq_true.mp h
  exact ⟨i, hi, accepts_of_same ((same_symm t i).trans hsame)⟩

/-- The interfaces among the types are listed among the interfaces that a factory starts
with. -/
theorem listed_interfaces (ht : t.isInterface = true) (h : listed ts t = true) :
    listed (Layout.ofInterfaces ts).interfaces t = true := by
  obtain ⟨i, hi, hsame⟩ := List.any_eq_true.mp h
  have hface : i.isInterface = true := by
    unfold isInterface at ht ⊢
    rwa [kind_eq_of_same hsame]
  unfold Layout.ofInterfaces
  rw [listed_addNew, Bool.or_eq_true]
  exact .inr (List.any_eq_true.mpr ⟨i, List.mem_filter.mpr ⟨hi, hface⟩, hsame⟩)

/-- A type that is no interface offers what is listed on itself. -/
theorem listed_allInterfaces (hs : s.isInterface = false) (h : listed s.interfaces t = true) :
    listed s.allInterfaces t = true := by
  obtain ⟨i, hi, hsame⟩ := List.any_eq_true.mp h
  have hself : s ∈ s.superclassChain := mem_superclassChain.mpr (.inl rfl)
  unfold allInterfaces
  rw [if_neg (by rw [hs]; exact Bool.false_ne_true), foldl_addNew_interfaces, listed_addNew,
    Bool.or_eq_true]
  exact .inr (List.any_eq_true.mpr ⟨i, List.mem_flatMap.mpr ⟨s, hself, hi⟩, hsame⟩)

theorem Builder.foldl_implementing (b : Builder) (is : List TypeDesc) :
    is.foldl implementing b = { b with interfaces := addNew b.interfaces is } := by
  induction is generalizing b with
  | nil => rfl
  | cons i is ih =>
    rw [List.foldl_cons, ih]
    rfl

end TypeDesc

namespace Proxy

open TypeDesc

variable {strategy : Strategy} {f : Flags} {interfaces : List TypeDesc}
  {target : Option TypeDesc} {number : Nat} {t : TypeDesc}

/-- The types that the type of a proxy is built on, the markers apart. -/
def grounds (strategy : Strategy) (interfaces : List TypeDesc) (target : Option TypeDesc) :
    List TypeDesc :=
  match strategy, target with
  | .bySubclass, some t => t :: addNew [] interfaces
  | _, some t =>
    if t.isInterface && !listed interfaces t then addNew [t] interfaces
    else addNew [] interfaces
  | _, none => addNew [] interfaces

/-- The markers that the type of a proxy gets. -/
def markers (f : Flags) : List TypeDesc :=
  proxyMarker :: if f.concealed then [] else [advisedMarker]

theorem typeFor_eq (strategy : Strategy) (f : Flags) (interfaces : List TypeDesc)
    (target : Option TypeDesc) (number : Nat) :
    typeFor strategy f interfaces target number =
      { baseType strategy interfaces target number with
        interfaces := addNew (addNew (baseType strategy interfaces target number).interfaces
          interfaces) (markers f) : Builder }.build := by
  unfold typeFor markers
  rw [Builder.foldl_implementing]
  cases f.concealed with
  | true => rfl
  | false => rfl

theorem kind_baseType (strategy : Strategy) (interfaces : List TypeDesc)
    (target : Option TypeDesc) (number : Nat) :
    (baseType strategy interfaces target number).kind = .classKind := by
  unfold baseType
  split
  · rfl
  · dsimp only
    split
    · rfl
    · rfl
  · rfl

/-- The superclass that a proxy starts with, and the interfaces before the markers come. -/
theorem grounds_eq (strategy : Strategy) (interfaces : List TypeDesc)
    (target : Option TypeDesc) (number : Nat) :
    grounds strategy interfaces target =
      (baseType strategy interfaces target number).superclass.toList ++
        addNew (baseType strategy interfaces target number).interfaces interfaces := by
  unfold grounds baseType
  cases target with
  | none => cases strategy <;> rfl
  | some t =>
    cases strategy with
    | bySubclass => rfl
    | byInterface =>
      dsimp only
      split
      · rfl
      · rfl

theorem isInterface_typeFor (strategy : Strategy) (f : Flags) (interfaces : List TypeDesc)
    (target : Option TypeDesc) (number : Nat) :
    (typeFor strategy f interfaces target number).isInterface = false := by
  rw [typeFor_eq]
  unfold isInterface Builder.build
  rw [kind, kind_baseType]
  rfl

/-- All that is listed among the interfaces is listed among the grounds. -/
theorem listed_grounds (strategy : Strategy) (target : Option TypeDesc)
    (h : listed interfaces t = true) : listed (grounds strategy interfaces target) t = true := by
  rw [grounds_eq strategy interfaces target 0, listed_append, listed_addNew, h, Bool.or_true,
    Bool.or_true]

/-! ## The marker -/

/-- Of the markers themselves the marker accepts one that is there for a proxy that shows its
configuration. -/
theorem concealed_of_mem_markers {i : TypeDesc} (hi : i ∈ markers f)
    (h : advisedMarker.accepts i = true) : f.concealed = false := by
  have hother : advisedMarker.accepts proxyMarker = false := by decide
  unfold markers at hi
  cases hf : f.concealed with
  | false => rfl
  | true =>
    rw [hf, if_pos rfl, List.mem_singleton] at hi
    rw [hi, hother] at h
    cases h

theorem listed_marker_of_shown (hf : f.concealed = false) (strategy : Strategy)
    (interfaces : List TypeDesc) (target : Option TypeDesc) (number : Nat) :
    listed (typeFor strategy f interfaces target number).interfaces advisedMarker = true := by
  have hmarker : listed (markers f) advisedMarker = true := by
    unfold markers
    rw [hf]
    decide
  rw [typeFor_eq]
  show listed (addNew _ (markers f)) advisedMarker = true
  rw [listed_addNew, hmarker, Bool.or_true]

/-- The type of a proxy is marked if the proxy shows its configuration, or through what it is
built on. -/
theorem accepts_typeFor_iff (strategy : Strategy) (f : Flags) (interfaces : List TypeDesc)
    (target : Option TypeDesc) (number : Nat) :
    advisedMarker.accepts (typeFor strategy f interfaces target number) = true ↔
      f.concealed = false ∨
        ∃ g ∈ grounds strategy interfaces target, advisedMarker.accepts g = true := by
  have href : advisedMarker.IsReference := .inr rfl
  have hroot : advisedMarker ≠ root := nofun
  rw [accepts_iff href hroot, grounds_eq strategy interfaces target number]
  constructor
  · rintro (hsame | ⟨p, hp, hacc⟩)
    · -- the type of a proxy is a class, so it is not the marker
      have hclass := isInterface_typeFor strategy f interfaces target number
      unfold isInterface at hclass
      rw [← kind_eq_of_same hsame] at hclass
      cases hclass
    · rw [typeFor_eq] at hp
      rcases List.mem_append.mp hp with hsuper | his
      · exact .inr ⟨p, List.mem_append_left _ hsuper, hacc⟩
      · rcases mem_addNew his with hbase | hmarker
        · exact .inr ⟨p, List.mem_append_right _ hbase, hacc⟩
        · exact .inl (concealed_of_mem_markers hmarker hacc)
  · rintro (hshown | ⟨g, hg, hacc⟩)
    · have hlisted := listed_marker_of_shown hshown strategy interfaces target number
      obtain ⟨i, hi, hacc⟩ := exists_accepts_of_listed hlisted
      exact .inr ⟨i, mem_parents.mpr (.inr hi), hacc⟩
    · refine .inr ⟨g, ?_, hacc⟩
      rw [typeFor_eq]
      rcases List.mem_append.mp hg with hsuper | his
      · exact List.mem_append_left _ hsuper
      · exact List.mem_append_right _ (subset_addNew _ (markers f) his)

/-! ## Proxies that are made -/

theorem create_ok {w w' : World σ} {id : ConfigId} {proxy : Object}
    (h : (create id).run w = some (.ok proxy, w')) :
    ∃ strategy, chooseStrategy (w.config id).flags (w.config id).interfaces
        ((w.config id).targetType? w) = .ok strategy ∧
      proxy.type = typeFor strategy (w.config id).flags (w.config id).interfaces
        ((w.config id).targetType? w) w.proxyCount ∧
      proxy.payload = .proxy id strategy (w.config id).flags.concealed := by
  obtain ⟨w₀, w₁, hworld, hrest⟩ := of_run_bind_ok h
  cases hworld
  dsimp only at hrest
  split at hrest
  · cases hrest
  · obtain ⟨strategy, w₂, hstrategy, hmade⟩ := of_run_bind_ok hrest
    cases hchosen : chooseStrategy (w.config id).flags (w.config id).interfaces
      ((w.config id).targetType? w) with
    | error f =>
      rw [hchosen] at hstrategy
      cases hstrategy
    | ok chosen =>
      rw [hchosen] at hstrategy
      cases hstrategy
      cases hmade
      exact ⟨strategy, rfl, rfl, rfl⟩

theorem advised?_of_payload {proxy : Object} {id : ConfigId} {concealed : Bool}
    (h : proxy.payload = .proxy id strategy concealed) :
    advised? proxy = if concealed then none else some id := by
  unfold advised?
  rw [h]
  cases concealed with
  | true => rfl
  | false => rfl

theorem isSome_advised?_iff {proxy : Object} {id : ConfigId} {concealed : Bool}
    (h : proxy.payload = .proxy id strategy concealed) :
    (advised? proxy).isSome = true ↔ concealed = false := by
  rw [advised?_of_payload h]
  cases concealed with
  | true => simp
  | false => simp

/-- What a proxy that shows its configuration offers is marked. -/
theorem listed_offered_of_shown {w w' : World σ} {id : ConfigId} {shown : Object}
    (h : (create id).run w = some (.ok shown, w')) (hshown : (advised? shown).isSome = true) :
    listed (Layout.ofInterfaces shown.type.allInterfaces).interfaces advisedMarker = true := by
  obtain ⟨strategy, _, htype, hpayload⟩ := create_ok h
  have hflag := (isSome_advised?_iff hpayload).mp hshown
  rw [htype]
  refine listed_interfaces rfl (listed_allInterfaces (isInterface_typeFor _ _ _ _ _) ?_)
  exact listed_marker_of_shown hflag _ _ _ _

end Proxy

open Proxy in
/-- Whatever a proxy that was made stands in front of: it shows its configuration unless that
is concealed, and the marker accepts its type exactly if it does, or if the marker accepts
one of the types that its own is built on. The latter is so, concealed or not, whenever the
interfaces are those that a proxy which shows its configuration offers. -/
theorem marker_shown_or_inherited {w w' : World σ} {id : ConfigId} {proxy : Object}
    (h : (create id).run w = some (.ok proxy, w')) :
    advised? proxy = (if (w.config id).flags.concealed then none else some id) ∧
    (∃ strategy, chooseStrategy (w.config id).flags (w.config id).interfaces
        ((w.config id).targetType? w) = .ok strategy ∧
      (advisedMarker.accepts proxy.type = true ↔
        (advised? proxy).isSome = true ∨
          ∃ g ∈ grounds strategy (w.config id).interfaces ((w.config id).targetType? w),
            advisedMarker.accepts g = true)) ∧
    ∀ id₀ (w₀ : World σ) shown w₁, (create id₀).run w₀ = some (.ok shown, w₁) →
      (advised? shown).isSome = true →
      (w.config id).interfaces = (Layout.ofInterfaces shown.type.allInterfaces).interfaces →
      advisedMarker.accepts proxy.type = true := by
  obtain ⟨strategy, hstrategy, htype, hpayload⟩ := create_ok h
  refine ⟨advised?_of_payload hpayload, ⟨strategy, hstrategy, ?_⟩,
    fun id₀ w₀ shown w₁ hmade hshown hoffered => ?_⟩
  · rw [htype, accepts_typeFor_iff, isSome_advised?_iff hpayload]
  · have hlisted := listed_offered_of_shown hmade hshown
    rw [← hoffered] at hlisted
    rw [htype, accepts_typeFor_iff]
    exact .inr (TypeDesc.exists_accepts_of_listed (listed_grounds strategy _ hlisted))

/-! ## A concealed proxy in front of one that is not -/

def plainTarget : Object := ⟨.plain "Plain" .classKind, 0, .entity "p"⟩

/-- A world with a configuration for that target, which nothing is set for. -/
def plainWorld : World Unit :=
  { user := (), sources := #[.singleton plainTarget], configs := #[{}] }

/-- The proxy that is made there. -/
def shownProxy : Object :=
  ⟨Proxy.typeFor .bySubclass {} [] (some plainTarget.type) 0, 0, .proxy ⟨0⟩ .bySubclass false⟩

/-- A configuration for the proxy, which takes over what that offers and conceals itself. -/
def concealedConfig : Configuration where
  flags := { concealed := true }
  layout := .ofInterfaces shownProxy.type.allInterfaces

def concealedWorld : World Unit :=
  { user := (), sources := #[.singleton shownProxy], configs := #[concealedConfig] }

/-- The marker of the proxy behind is inherited. -/
theorem marker_inherited_from_shown :
    ∃ proxy w', (Proxy.create ⟨0⟩).run concealedWorld = some (.ok proxy, w') ∧
      Proxy.advised? proxy = none ∧ Proxy.advisedMarker.accepts proxy.type = true := by
  have hbehind : ∃ w', (Proxy.create ⟨0⟩).run plainWorld = some (.ok shownProxy, w') :=
    ⟨_, rfl⟩
  have hfront : ∃ proxy w', (Proxy.create ⟨0⟩).run concealedWorld = some (.ok proxy, w') :=
    ⟨_, _, rfl⟩
  obtain ⟨w₁, hbehind⟩ := hbehind
  obtain ⟨proxy, w', hfront⟩ := hfront
  obtain ⟨hadvised, _, hinherited⟩ := marker_shown_or_inherited hfront
  exact ⟨proxy, w', hfront, hadvised, hinherited _ _ _ _ hbehind rfl rfl⟩

/-- Makes a proxy that shows its configuration, and in front of it one that conceals its own
and takes over what the first one offers; answers whether the second one is marked, and
whether it shows its configuration. -/
def proxyInFront : ExceptT Failure (Action Unit) (Bool × Bool) := do
  let s ← ExceptT.lift (.ofCommand (.newSource (.singleton plainTarget)))
  let c ← ExceptT.lift (.ofCommand (.newConfig { source := s }))
  let shown ← ExceptT.mk (.ofCommand (.standardProxy c))
  let s' ← ExceptT.lift (.ofCommand (.newSource (.singleton shown)))
  let c' ← ExceptT.lift (.ofCommand (.newConfig
    { source := s', flags := { concealed := true }
      layout := .ofInterfaces shown.type.allInterfaces }))
  let proxy ← ExceptT.mk (.ofCommand (.standardProxy c'))
  return (Proxy.advisedMarker.accepts proxy.type, (Proxy.advised? proxy).isSome)

/-- The second one is marked, although it does not show its configuration. -/
theorem concealed_and_marked :
    (Engine.run Code.idle 1 proxyInFront.run { user := () }).map (·.1.toOption)
      = some (some (true, false)) := by
  decide +kernel

end Aspects
