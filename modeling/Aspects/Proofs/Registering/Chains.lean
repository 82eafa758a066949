import Aspects.Proofs.Lookup.Chains
import Aspects.Proofs.Registering.Growth

/-!
# Chains of configurations in order

What an advisor is looked at for as it comes in is needed when chains are made, and that may
be much later: some adapter has to understand its advice. For a configuration that has stayed
in order it does, and no adapter refuses what it claims to understand, so working a chain out
does not fail, whatever the pointcuts answer (`in_order_throughout`). The registry may gain
adapters even then, while the pointcuts are asked.
-/

namespace Aspects

open Aspects.Configuration

variable {σ : Type} {α : Type} {T : Prop} {code : Code σ} {w : World σ} {id : ConfigId}
  {a : AdaptersId} {env : Env σ} {m : Method} {t : Option TypeDesc}

/-- Asking the pointcut for a chain has an outcome, in any world of the kind. -/
structure Pointcut.Answers (P : World σ → Prop) (env : Env σ) (m : Method)
    (t : Option TypeDesc) (p : Pointcut) : Prop where
  matchesClass : ∀ w, P w → ∃ x, p.matchesClass env (t.getD m.declaring) w = some x
  matchesMethod : ∀ w, P w → ∃ x, (p.matchesMethod env m t).run w = some x
  residueFor : ∀ w, P w → ∃ x, p.residueFor env m t w = some x

/-- The advisors have pointcuts that can be asked for a chain, while the configuration stays
in order. -/
def World.Asks (w : World σ) (env : Env σ) (id : ConfigId) (a : AdaptersId) (m : Method)
    (t : Option TypeDesc) : Prop :=
  ∀ b ∈ (w.config id).advisors, b.pointcut.Answers (w.KeepsOrder · id a) env m t

/-- Looking a chain up does not fail, and it comes to an end if asking the pointcuts does. -/
structure World.MakesChain (w : World σ) (env : Env σ) (id : ConfigId) (a : AdaptersId)
    (m : Method) (t : Option TypeDesc) : Prop where
  never_fails : ∀ o w', (chainFor env id m t).run w = some (o, w') → ∃ chain, o = .ok chain
  succeeds : w.Asks env id a m t → ∃ chain w', (chainFor env id m t).run w = some (.ok chain, w')

namespace World.InOrder

/-- Pointcuts may do to a configuration what commands may. -/
theorem consults (henv : env.Tracks (.orderly code w id a) env) {p : Pointcut}
    (hanswers : T → p.Answers (w.KeepsOrder · id a) env m t) :
    p.Consults T (w.KeepsOrder · id a) (fun _ => True) env m t where
  matchesClass := (p.matchesClass_tracks henv _).upholds fun hT => (hanswers hT).matchesClass
  matchesMethod := (p.matchesMethod_tracks henv m t).upholds fun hT => (hanswers hT).matchesMethod
  residueFor := (p.residueFor_tracks henv m t).upholds fun hT => (hanswers hT).residueFor

/-- Interceptors can be made for an advisor of the list, now and with more adapters. -/
theorem intercepts (h : w.InOrder id a) {b : Advisor} (hb : b ∈ (w.config id).advisors) :
    b.Intercepts T (w.KeepsOrder · id a) a fun _ => True := by
  -- the advice was understood when the advisor came in, and adapters have only been added
  refine Advisor.intercepts (fun v serial hv => hv.trans (hv.inOrder.of_eq rfl rfl))
    (fun v hv => ?_) (fun _ _ => trivial) fun v hv adapter hadapter hs => ?_
  · obtain ⟨more, hmore⟩ := hv.adapters
    rw [← hmore]
    exact Adapter.anySupports_append (h.orderly.supported b hb) more
  · obtain ⟨i, hi⟩ := hv.inOrder.faithful adapter hadapter b.advice hs
    exact ⟨i, hi, trivial⟩

/-- A configuration in order that makes its chains with its registry. -/
theorem makesChain (h : w.InOrder id a) (hmaker : (w.config id).chainMaker = .standard a)
    (henv : env.Tracks (.orderly code w id a) env) (m : Method) (t : Option TypeDesc) :
    w.MakesChain env id a m t := by
  have hevent (v : World σ) (e : Event) (hv : w.KeepsOrder v id a) :
      w.KeepsOrder (v.record (.event e)) id a := hv.trans (hv.inOrder.record _)
  have hlinks : Act.Upholds (w.Asks env id a m t) (w.KeepsOrder · id a)
      (makeLinks env (w.config id) m t) (Link.All (fun _ => True) fun _ => True) :=
    makeLinks_upholds hevent hmaker (fun b hb => consults henv fun hasks => hasks b hb)
      fun b hb => h.intercepts hb
  -- of chains in the cache nothing is asked
  have hany (links : List Link) : Link.All (fun _ => True) (fun _ => True) links := by
    intro link _
    cases link with
    | fixed i => trivial
    | dynamic i p => exact ⟨trivial, trivial⟩
  obtain ⟨hyields, hanswers⟩ := chainFor_from hevent
    (fun v _ _ _ hv _ => hv.trans (hv.inOrder.keepChain ..)) (.refl h) (fun _ _ => hany _) hlinks
  have hnever : ∀ o w', (chainFor env id m t).run w = some (o, w') → ∃ chain, o = .ok chain := by
    intro o w' ho
    obtain ⟨_, chain, rfl, _⟩ := hyields o w' ho
    exact ⟨chain, rfl⟩
  refine ⟨hnever, fun hasks => ?_⟩
  obtain ⟨o, w', ho⟩ := hanswers hasks
  obtain ⟨chain, rfl⟩ := hnever o w' ho
  exact ⟨chain, w', ho⟩

end World.InOrder

/-- Throughout every run with a configuration that begins as factories begin, in which its
registry gains faithful adapters: the configuration is in order, its interfaces being
interfaces and distinct, its advisors understood by the registry and introducing interfaces
only; and if it makes its chains in the standard way with that registry then looking a chain
up never fails. -/
theorem in_order_throughout (code : Code σ) {grow : World σ → World σ} {c : Configuration}
    (hgrow : ∀ w, World.Gains c.adapters w (grow w)) {ts : List TypeDesc}
    (hlayout : c.layout = .ofInterfaces ts) {w w₁ : World σ}
    (hregistered : c.adapters.index < w.adapters.size)
    (hfaithful : ∀ adapter ∈ w.adapterList c.adapters, adapter.Faithful)
    (hmade : Configuration.make c w = some (id, w₁)) (room : Nat) (p : Action σ α) :
    Engine.ThroughoutGrowing code grow room p w₁ fun w' =>
      w'.InOrder id c.adapters ∧
      (c.chainMaker = .standard c.adapters → ∀ room m t,
        w'.MakesChain (Engine.growing code grow room) id c.adapters m t) := by
  have hinOrder := World.InOrder.made hlayout hregistered hfaithful hmade
  -- what is known where the run has got to is known of lookups that begin there
  refine Engine.throughoutGrowing hgrow hinOrder (fun w' hw' => ⟨hw'.inOrder, ?_⟩) room p
  intro hmaker room m t
  have hmaker₁ : (w₁.config id).chainMaker = .standard c.adapters := by
    rw [World.config_made hmade]
    simp [Configuration.fresh, hmaker, knownAdapters, hregistered]
  exact hw'.inOrder.makesChain (hw'.chainMaker_eq.trans hmaker₁)
    (Engine.growing_tracks hgrow room) m t

namespace Audited

/-- An adapter for the advice of an audit. -/
def adapter : Adapter := .user (.tagged "audit") (some default)

/-- Registers it in the list that is there from the beginning. -/
def register (w : World Unit) : World Unit :=
  { w with adapters := w.adapters.modify 0 (· ++ [adapter]) }

def service : TypeDesc := .plain "Service" .interfaceKind

def config : Configuration := { layout := .ofInterfaces [service] }

def advisor : Advisor := { id := 0, pointcut := .all, advice := .custom 0 "audit" }

/-- The advice is tried twice. -/
def program : Action Unit (Outcome Unit × Outcome Unit) := do
  let first ← .ofCommand (.addAdvisor ⟨0⟩ none advisor)
  let second ← .ofCommand (.addAdvisor ⟨0⟩ none advisor)
  return (first, second)

theorem register_gains (w : World Unit) : World.Gains config.adapters w (register w) where
  configs_eq := rfl
  size_le := Nat.le_of_eq (by simp [register])
  gained := by
    have hlist (w : World Unit) : w.adapterList config.adapters = w.adapters[0]?.getD [] := rfl
    rw [hlist, hlist, register, Array.getElem?_modify, if_pos rfl]
    cases w.adapters[0]? with
    | none => exact ⟨[], rfl, fun _ h => absurd h List.not_mem_nil⟩
    | some adapters =>
      refine ⟨[adapter], rfl, fun a ha => ?_⟩
      rw [List.mem_singleton.mp ha]
      exact fun _ _ => ⟨_, rfl⟩

end Audited

theorem audited_in_order :
    Engine.ThroughoutGrowing Code.idle Audited.register 1 Audited.program
      { user := (), configs := #[Audited.config] } fun w =>
      w.InOrder ⟨0⟩ default ∧
      (Audited.config.chainMaker = .standard default → ∀ room m t,
        w.MakesChain (Engine.growing Code.idle Audited.register room) ⟨0⟩ default m t) :=
  in_order_throughout (w := { user := () }) Code.idle Audited.register_gains rfl (by decide)
    (fun _ h => Adapter.faithful_of_mem_builtIn h) rfl 1 Audited.program

/-- At first no adapter understands the advice; then it comes in. -/
example :
    ((Engine.growing Code.idle Audited.register 1).run Audited.program
        { user := (), configs := #[Audited.config] }).map (·.1)
      = some (.error (.fault (.unknownAdviceType "Custom")), .ok ()) :=
  rfl

end Aspects
