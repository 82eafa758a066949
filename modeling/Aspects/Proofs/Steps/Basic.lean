import Aspects.Engine

/-!
# The steps of the engine

What the engine does to the world is made of few things. `Change` lists the changes that
stand alone. Three things go over a stretch of a run and are told as a whole: a chain is
worked out and then kept, a proxy is current while a call goes on, and a target is lent
for a call. `Leads` says that one world becomes another by such steps, so whatever is to
be shown of all runs is shown by an induction over it, one case a step.

User code may also be running inside of a stretch that has begun and not ended. `Reaches`
says that one world comes after another there or anywhere else, and what is to be shown
of all worlds that user code sees is shown by an induction over it.

Steps say what may become of the world, not by whose doing: the state of the user code may
become any, a memory may grow by any residue, and new adapters may be any. Where it matters
how a world came about, a statement speaks of the world of the run at hand, or ties the
others to that (`World.Recollects`, `SameMakings`).
-/

namespace Aspects

variable {σ : Type}

/-- A message of the engine or a line of user code. -/
def Entry.isRemark : Entry → Bool
  | event _ => true
  | note _ => true
  | _ => false

/-- What is done to a configuration. -/
inductive Configuration.Touch (c : Configuration) : Configuration → Prop
  /-- A layout of the next generation, only if the configuration is not frozen. -/
  | layout (l : Layout) (h : c.isFrozen = false) : Touch c (c.advance l)
  | emptyCache : Touch c { c with cache := [] }
  | source (s : SourceId) :
    Touch c { c with source := s, generation := c.generation + 1, cache := [] }
  /-- Other flags, which leave a frozen configuration frozen. -/
  | flags (f : Flags) (h : c.isFrozen → f.frozen) : Touch c { c with flags := f }
  | preFiltered (b : Bool) : Touch c { c with preFiltered := b }
  | listeners (ls : List Routine) : Touch c { c with listeners := ls }
  | wake : Touch c { c with active := true }

/-- The changes of the world that stand alone. -/
inductive Change : World σ → World σ → Prop
  | user (w : World σ) (s : σ) : Change w { w with user := s }
  | remark (w : World σ) (e : Entry) (he : e.isRemark) : Change w (w.record e)
  | number (w : World σ) : Change w { w with serial := w.serial + 1 }
  | proxy (w : World σ) : Change w { w with proxyCount := w.proxyCount + 1 }
  | newMemory (w : World σ) : Change w { w with memories := w.memories.push [] }
  /-- Something is remembered besides what was. -/
  | remember (w : World σ) (id : MemoId) (r : Remembered) :
    Change w (w.setMemory id (r :: w.memory id))
  | newAdapters (w : World σ) (extra : List Adapter) :
    Change w { w with adapters := w.adapters.push (Adapter.builtIn ++ extra) }
  | newSource (w : World σ) (s : Source) : Change w { w with sources := w.sources.push s }
  | pool (w : World σ) (id : SourceId) (f : Pool → Pool) :
    Change w (Source.updatePool id f w)
  /-- A target is exchanged for one that is compatible. This is written down. -/
  | swap (w : World σ) (id : SourceId) (old new : Object)
    (hold : w.source id = .swappable old) (hnew : Source.compatible old new) :
    Change w ((w.record (.swapped id old new)).setSource id (.swappable new))
  | newConfig (w : World σ) (c : Configuration) :
    Change w { w with configs := w.configs.push (c.fresh w) }
  | config (w : World σ) (id : ConfigId) (c : Configuration)
    (h : Configuration.Touch (w.config id) c) : Change w (w.setConfig id c)
  /-- Any flags, while a factory is put together. This is written down. -/
  | reflag (w : World σ) (id : ConfigId) (f : Flags) :
    Change w ((w.record (.reflagged id)).setConfig id { w.config id with flags := f })
  | tellActivated (w : World σ) (id : ConfigId) (l : Routine) :
    Change w (w.record (.activated id l))
  | tellChanged (w : World σ) (id : ConfigId) (l : Routine) :
    Change w (w.record (.changed id l))
  | newCatalogue (w : World σ) : Change w { w with catalogues := w.catalogues.push [] }
  | catalogue (w : World σ) (id : CatalogueId) (as : List Advisor) :
    Change w (w.setCatalogue id as)

/-- The world once a chain was worked out for a query from a generation: the chain has got
a number and is kept. -/
def World.keepChain (w : World σ) (id : ConfigId) (q : ChainQuery) (generation : Nat)
    (links : List Link) : World σ :=
  Configuration.update id (·.store ⟨q, generation, ⟨w.serial, links⟩⟩)
    { w with serial := w.serial + 1 }

/-- One world becomes another by steps of the engine that runs the user code. -/
inductive Leads (code : Code σ) : World σ → World σ → Prop
  | refl (w : World σ) : Leads code w w
  | change {w w₁ w₂ : World σ} : Leads code w w₁ → Change w₁ w₂ → Leads code w w₂
  /-- A chain that was not in the cache is worked out and kept under the generation in
  which that began. -/
  | keep {w w₁ w₂ : World σ} (room : Nat) (id : ConfigId) (m : Method)
    (t : Option TypeDesc) (links : List Link) :
    Leads code w w₁ → (w₁.config id).cached? m.key = none →
    (Configuration.makeLinks (Engine.env code room) (w₁.config id) m t).run w₁
      = some (.ok links, w₂) →
    Leads code w₁ w₂ →
    Leads code w (w₂.keepChain id ((w₁.config id).query m t) (w₁.config id).generation links)
  /-- A proxy is current for a while, and then the one that was so before. -/
  | expose {w w₁ w₂ : World σ} (proxy : Object) :
    Leads code w w₁ → Leads code { w₁ with current := some proxy } w₂ →
    Leads code w { w₂ with current := w₁.current }
  /-- A target is lent for a while and given back. -/
  | lend {w w₁ w₂ w₃ : World σ} (s : SourceId) (o : Object) :
    Leads code w w₁ → Leads code (w₁.record (.acquired s o)) w₂ →
    Leads code (w₂.record (.released s o)) w₃ → Leads code w w₃

namespace Leads

variable {code : Code σ} {w w₁ w₂ : World σ}

theorem one (h : Change w w₁) : Leads code w w₁ :=
  change (refl w) h

theorem trans (h : Leads code w w₁) (h' : Leads code w₁ w₂) : Leads code w w₂ := by
  induction h' with
  | refl _ => exact h
  | change _ hc ih => exact change (ih h) hc
  | keep room id m t links _ hmiss hmade hworking ih _ =>
    exact keep room id m t links (ih h) hmiss hmade hworking
  | expose proxy _ hduring ih _ => exact expose proxy (ih h) hduring
  | lend s o _ hduring hafter ih _ _ => exact lend s o (ih h) hduring hafter

end Leads

/-- One world comes after another in a run, perhaps inside of stretches that have begun
and not ended, where user code may be running. -/
inductive Reaches (code : Code σ) (w : World σ) : World σ → Prop
  | refl : Reaches code w w
  | leads {w₁ w₂ : World σ} : Reaches code w w₁ → Leads code w₁ w₂ → Reaches code w w₂
  | exposing {w₁ : World σ} (proxy : Object) :
    Reaches code w w₁ → Reaches code w { w₁ with current := some proxy }
  | lending {w₁ : World σ} (s : SourceId) (o : Object) :
    Reaches code w w₁ → Reaches code w (w₁.record (.acquired s o))
  | returning {w₁ : World σ} (s : SourceId) (o : Object) :
    Reaches code w w₁ → Reaches code w (w₁.record (.released s o))

theorem Reaches.trans {code : Code σ} {w w₁ w₂ : World σ} (h : Reaches code w w₁)
    (h' : Reaches code w₁ w₂) : Reaches code w w₂ := by
  induction h' with
  | refl => exact h
  | leads _ hl ih => exact ih.leads hl
  | exposing proxy _ ih => exact ih.exposing proxy
  | lending s o _ ih => exact ih.lending s o
  | returning s o _ ih => exact ih.returning s o

end Aspects
