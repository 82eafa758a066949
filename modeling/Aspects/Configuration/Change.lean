import Aspects.Chain
import Aspects.Configuration.Edit

/-!
# Changing a configuration

A structural change is refused if the configuration is frozen. One that changes
something starts a new generation, empties the cache of chains and, once the
configuration is active, tells every listener. Replacing the target source starts a new
generation and empties the cache too, but is told to nobody and not stopped by
freezing; the flags are changed without either.

A chain is worked out from the advisors and the generation as they are when the work
begins, and kept under that generation: if the configuration changes meanwhile, the
chain is stored but never found.
-/

namespace Aspects.Configuration

variable {σ : Type} {α : Type}

/-- Changes a configuration. -/
def update (id : ConfigId) (f : Configuration → Configuration) (w : World σ) : World σ :=
  w.setConfig id (f (w.config id))

/-- The configuration with the number. -/
def read (id : ConfigId) : Act σ Configuration := do
  return (← Act.world).config id

/-- The list of adapters, or the first of all lists for one that was never given out. -/
def knownAdapters (w : World σ) (a : AdaptersId) : AdaptersId :=
  if a.index < w.adapters.size then a else default

/-- The configuration as it is before anything was done with it. -/
def fresh (w : World σ) (c : Configuration) : Configuration :=
  { c with
    cache := [], generation := 0, active := false
    adapters := knownAdapters w c.adapters
    chainMaker := match c.chainMaker with
      | .standard a => .standard (knownAdapters w a)
      | .user body => .user body }

/-- A new configuration. -/
def make (c : Configuration) : Run σ ConfigId :=
  modifyGet fun w => (⟨w.configs.size⟩, { w with configs := w.configs.push (fresh w c) })

/-- Tells listeners, one after the other. Each time this is written down, and then the
listener may do what it does. -/
def notify (env : Env σ) (entry : Routine → Entry) (callback : Routine → Action σ Unit) :
    List Routine → Run σ Unit
  | [] => return ()
  | l :: ls => do
    record (entry l)
    env.run (callback l)
    notify env entry callback ls

/-- Tells listeners of a change. -/
def tellChanged (env : Env σ) (id : ConfigId) : List Routine → Run σ Unit :=
  notify env (.changed id) fun l => env.code.changed l id

/-- Tells listeners that the configuration is active. -/
def tellActivated (env : Env σ) (id : ConfigId) : List Routine → Run σ Unit :=
  notify env (.activated id) fun l => env.code.activated l id

/-- Empties the cache and, if the configuration is active, tells the listeners. -/
def afterChange (env : Env σ) (id : ConfigId) : Run σ Unit := do
  modify (update id fun c => { c with cache := [] })
  let c := (← get).config id
  if c.active then tellChanged env id c.listeners

/-- Carries out an edit, with all that follows from it. -/
def edit (env : Env σ) (id : ConfigId) (action : String) (e : Edit α) : Act σ α := do
  let c ← read id
  if c.isFrozen then Act.fail (.frozen action)
  else
    let (answer, changed) ← Act.ofExcept (e c.layout)
    match changed with
    | none => return answer
    | some l =>
      Act.update (update id (·.advance l))
      Act.ofRun (emit .debug "Proxy configuration changed" [("action", Text.quote action)])
      Act.ofRun (afterChange env id)
      return answer

/-- Refuses an advisor that may not come in. -/
def screen (id : ConfigId) (a : Advisor) : Act σ Unit := do
  let w ← Act.world
  match refusal? (w.adapterList (w.config id).adapters) a with
  | some f => Act.fail f
  | none => return ()

/-- Inserts an advisor at a place, or behind all others. -/
def addAdvisor (env : Env σ) (id : ConfigId) (place : Option Nat) (a : Advisor) :
    Act σ Unit := do
  screen id a
  edit env id "add advisor" (Layout.insert place a)

def removeAdvisor (env : Env σ) (id : ConfigId) (a : Advisor) : Act σ Bool :=
  edit env id "remove advisor" (Layout.remove a)

def removeAdvisorAt (env : Env σ) (id : ConfigId) (place : Nat) : Act σ Advisor :=
  edit env id "remove advisor" (Layout.removeAt place)

/-- Puts an advisor in the place of another. -/
def replaceAdvisor (env : Env σ) (id : ConfigId) (old new : Advisor) : Act σ Bool := do
  screen id new
  edit env id "replace advisor" (Layout.replace old new)

/-- Adds an advisor with the advice that matches everything. -/
def addAdvice (env : Env σ) (id : ConfigId) (place : Option Nat) (a : Advice) :
    Act σ Unit := do
  let w ← Act.world
  if Adapter.anySupports (w.adapterList (w.config id).adapters) a then
    let number ← Act.ofRun freshId
    addAdvisor env id place { id := number, pointcut := .all, advice := a }
  else Act.fail (.unknownAdviceType a.kind.name)

/-- Removes the first advisor with the advice. -/
def removeAdvice (env : Env σ) (id : ConfigId) (a : Advice) : Act σ Bool :=
  edit env id "remove advice" (Layout.removeAdvice a)

def addInterface (env : Env σ) (id : ConfigId) (t : TypeDesc) : Act σ Unit :=
  if t.isInterface then edit env id "add interface" (Layout.addInterface t)
  else Act.fail (.notAnInterface t.name)

def removeInterface (env : Env σ) (id : ConfigId) (t : TypeDesc) : Act σ Bool :=
  edit env id "remove interface" (Layout.removeInterface t)

/-- Replaces the target source. -/
def setSource (id : ConfigId) (s : SourceId) : Run σ Unit :=
  modify (update id fun c =>
    { c with source := s, generation := c.generation + 1, cache := [] })

def freeze (id : ConfigId) : Run σ Unit := do
  modify (update id fun c => { c with flags := { c.flags with frozen := true } })
  emit .debug "Proxy configuration frozen" []

/-- Freezes or, if it is not frozen, leaves a configuration as it is. -/
def setFrozen (id : ConfigId) (b : Bool) : Act σ Unit := do
  if (← read id).isFrozen && !b then Act.fail (.frozen "unfreeze")
  else Act.update (update id fun c => { c with flags := { c.flags with frozen := b } })

/-- Replaces the flags of a configuration that is not frozen. -/
def setFlags (id : ConfigId) (f : Flags) : Act σ Unit := do
  if (← read id).isFrozen then Act.fail (.frozen "replace configuration")
  else Act.update (update id fun c => { c with flags := f })

/-- Sets the flags while a factory is put together. -/
def replaceFlags (id : ConfigId) (f : Flags) : Run σ Unit :=
  modify fun w => update id (fun c => { c with flags := f }) (w.record (.reflagged id))

def setExposeProxy (id : ConfigId) (b : Bool) : Run σ Unit :=
  modify (update id fun c => { c with flags := { c.flags with exposeProxy := b } })

def setPreFiltered (id : ConfigId) (b : Bool) : Run σ Unit :=
  modify (update id fun c => { c with preFiltered := b })

def addListener (id : ConfigId) (l : Routine) : Run σ Unit :=
  modify (update id fun c => { c with listeners := c.listeners ++ [l] })

/-- Removes a listener however often it was added; was it there? -/
def removeListener (id : ConfigId) (l : Routine) : Run σ Bool := do
  let there := ((← get).config id).listeners.contains l
  modify (update id fun c => { c with listeners := c.listeners.filter (· != l) })
  return there

/-- Wakes a configuration up; the first time its listeners are told. -/
def activate (env : Env σ) (id : ConfigId) : Run σ Unit := do
  let c := (← get).config id
  if c.active then return ()
  else
    modify (update id fun c => { c with active := true })
    emit .debug "Proxy configuration activated" [("listeners", toString c.listeners.length)]
    tellActivated env id c.listeners

/-- The links that the configuration's way of making chains gives. -/
def makeLinks (env : Env σ) (c : Configuration) (m : Method) (t : Option TypeDesc) :
    Act σ (List Link) :=
  match c.chainMaker with
  | .standard adapters => Chain.standard env adapters c.advisors c.preFiltered m t
  | .user body => env.exec (env.code.makeChain body c.advisors c.preFiltered m t)

/-- The chain of a method, from the cache or worked out and kept. -/
def chainFor (env : Env σ) (id : ConfigId) (m : Method) (t : Option TypeDesc) :
    Act σ Chain := do
  let c ← read id
  match c.cached? m.key with
  | some chain =>
    Act.ofRun (emit .trace "Interceptor chain cache hit" [("method", m.signature)])
    return chain
  | none =>
    let links ← makeLinks env c m t
    let chain : Chain := ⟨← Act.ofRun freshId, links⟩
    Act.update (update id (·.store ⟨c.query m t, c.generation, chain⟩))
    return chain

/-- The configuration on one line. -/
def describe (w : World σ) (c : Configuration) : String :=
  "AdvisedSupport: " ++ toString c.interfaces.length ++ " interfaces [" ++
    ", ".intercalate (c.interfaces.map TypeDesc.name) ++ "]; " ++
    toString c.advisors.length ++ " advisors [" ++
    ", ".intercalate (c.advisors.map Advisor.display) ++ "]; targetSource [" ++
    (w.source c.source).inspect ++ "]; " ++ c.flags.display

end Aspects.Configuration
