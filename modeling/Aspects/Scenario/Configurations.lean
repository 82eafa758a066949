import Aspects.Configuration.Change
import Aspects.Proxy
import Aspects.Scenario.Advisors
import Aspects.Scenario.Sources
import Aspects.Scenario.Types

/-!
# Steps about configurations and proxies

Making factories and proxies, changing their configurations, and asking them what they
hold. A configuration is named by its factory, or by a proxy that shows it.
-/

namespace Aspects.Scenario

/-- How a user's way of making chains differs from the standard way. -/
inductive ChainSpec where
  | reversed
  | fails

/-- What a factory starts with. -/
inductive FactoryBase where
  | nothing
  /-- One target with all its interfaces. -/
  | target (object : String)
  /-- One interface, with targets from a source. -/
  | interface (type source : String)
  /-- Adapters and a way of making chains. -/
  | support (adapters : Option String) (chains : Option ChainSpec)

/-- A factory that a step makes. -/
structure FactorySpec where
  base : FactoryBase
  flags : Option Flags
  /-- The making of proxies is told. -/
  tellsProxies : Bool

/-- A change of a configuration. -/
inductive ConfigChange where
  | addAdvisor (advisor : String) (place : Option Nat)
  | removeAdvisor (advisor : String)
  | replaceAdvisor (old new : String)
  | removeAdvisorAt (place : Nat)
  | addAdvice (a : AdviceTerm) (place : Option Nat)
  | removeAdvice (a : AdviceTerm)
  | addInterface (type : String)
  | removeInterface (type : String)
  | setSource (source : String)
  | freeze
  | setFrozen (b : Bool)
  | setFlags (f : Flags)
  | setExposeProxy (b : Bool)
  | setPreFiltered (b : Bool)
  | addListener (listener : String)
  | removeListener (listener : String)

/-- A question to a configuration. -/
inductive ConfigQuery where
  | indexOf (advisor : String)
  | indexOfAdvice (a : AdviceTerm)
  | interfaceProxied (type : String)
  | everything
  | inspection
  /-- How many chains are in the cache. -/
  | cached
  /-- The chain of a method, and how it relates to the one answered before. -/
  | chain (m : MethodTerm) (target : Option String)

/-- A step about configurations and proxies. -/
inductive ConfigStep where
  | factory (id : String) (spec : FactorySpec)
  /-- Makes a proxy, gives it a name and describes it. -/
  | proxy (factory id : String)
  /-- Makes a proxy, gives it a name and answers it as a value. -/
  | proxyObject (factory id : String)
  | describeProxy (object : String)
  | change (on : String) (c : ConfigChange)
  | ask (on : String) (q : ConfigQuery)
  /-- Makes a listener that carries out statements when a configuration changes. -/
  | listener (id : String) (onChange : List Stmt)

/-- The flags, and how they are shown. -/
def reportFlags (f : Flags) : Report :=
  .record [
    ("proxy_target_class", .flag f.proxyTargetClass),
    ("optimize", .flag f.optimize),
    ("opaque", .flag f.concealed),
    ("expose_proxy", .flag f.exposeProxy),
    ("frozen", .flag f.frozen),
    ("display", .text f.display),
    ("debug", .text f.inspect)]

/-- A configuration with its interfaces and its source. -/
def Play.newConfig (source : Source) (types : List TypeDesc) : Play ConfigId := do
  let source ← issue (.newSource source)
  issue (.newConfig { source, layout := Layout.ofInterfaces types })

/-- Who makes the chains of a factory. -/
def ChainSpec.resolve (adapters : AdaptersId) : Option ChainSpec → Play ChainMaker
  | none => pure (.standard adapters)
  | some reversed => do return .user (← Play.define (.chain adapters false))
  | some fails => do return .user (← Play.define (.chain adapters true))

/-- The configuration that a factory starts with. -/
def FactoryBase.resolve : FactoryBase → Play ConfigId
  | nothing => Play.newConfig (.empty none) []
  | target name => do
    let o ← Play.object name
    Play.newConfig (.singleton o) o.type.allInterfaces
  | interface name source => do
    let t ← Play.type name
    let source ← Play.source source
    if t.isInterface then
      Play.issue (.newConfig { source, layout := Layout.ofInterfaces [t] })
    else throw (.failed (.fault (.notAnInterface t.name)))
  | support adapters chains => do
    let adapters ← Play.adapters adapters
    let chainMaker ← ChainSpec.resolve adapters chains
    let source ← Play.issue (.newSource (.empty none))
    Play.issue (.newConfig { source, adapters, chainMaker })

/-- The factory that a step makes. -/
def FactorySpec.resolve (spec : FactorySpec) : Play Factory := do
  let config ← spec.base.resolve
  if let some f := spec.flags then Play.issue (.replaceFlags config f)
  let maker ← if spec.tellsProxies then pure (.user (← Play.define .proxy)) else pure .standard
  return ⟨config, maker⟩

/-- The configuration with a number. -/
def Play.readConfig (c : ConfigId) : Play Configuration := do
  return (← world).config c

/-- The names of the interfaces of a configuration. -/
def Play.reportInterfaces (c : ConfigId) : Play Report := do
  return reportTypes (← readConfig c).interfaces

/-- The names of the advisors of a configuration. -/
def Play.reportAdvisors (c : ConfigId) : Play Report := do
  return (← stage).advisorNames (← readConfig c).advisors

/-- All that is known about a proxy. -/
def reportProxy (w : World Stage) (o : Object) (c : ConfigId) (strategy : Strategy) :
    Report :=
  .record [
    ("type", .text o.type.name),
    ("strategy", .text strategy.name),
    ("debug", .text (Proxy.inspect o)),
    ("advised", .flag (Proxy.advised? o).isSome),
    ("target_type", reportTypeName ((w.config c).targetType? w)),
    ("superclass", reportTypeName o.type.superclass),
    ("interfaces", reportTypes o.type.interfaces),
    ("is_aop_proxy", .flag (o.isInstanceOf Proxy.proxyMarker)),
    ("is_advised", .flag (o.isInstanceOf Proxy.advisedMarker)),
    ("same_object", .flag (o.same o))]

/-- All that is known about a proxy; of other objects their value. -/
def Play.describeProxy (o : Object) : Play Report := do
  match o.payload with
  | .proxy c strategy _ => return reportProxy (← world) o c strategy
  | _ => report o

/-- Makes a proxy and gives it a name. -/
def Play.makeProxy (factory id : String) : Play Object := do
  let f ← find (·.factories) factory
  let o ← attempt (.getProxy f.config f.maker)
  update (·.nameObject id o)
  return o

/-- Everything a configuration tells about itself. -/
def reportConfig (w : World Stage) (c : Configuration) : Report :=
  .record [
    ("advisors", w.user.advisorNames c.advisors),
    ("count", .nat c.advisors.length),
    ("interfaces", reportTypes c.interfaces),
    ("config", reportFlags c.flags),
    ("frozen", .flag c.flags.frozen),
    ("target_class", .flag c.flags.proxyTargetClass),
    ("expose", .flag c.flags.exposeProxy),
    ("opaque", .flag c.flags.concealed),
    ("optimize", .flag c.flags.optimize),
    ("prefiltered", .flag c.preFiltered),
    ("active", .flag c.active),
    ("cached", .nat c.cache.length),
    ("target_type", reportTypeName (c.targetType? w)),
    ("source", .text (w.source c.source).inspect),
    ("text", .text (c.describe w))]

/-- A chain, how it relates to the one that was answered before under the name, and how
many chains are in the cache now. -/
def reportChain (before : Option Chain) (chain : Chain) (cached : Nat) : Report :=
  let pairwise (old : Chain) : Report :=
    .flags (List.zipWith Link.same old.links chain.links)
  .record [
    ("units", .texts (chain.links.map Link.inspect)),
    ("hit", .flag (before.any (·.id == chain.id))),
    ("same", .option pairwise before),
    ("cached", .nat cached)]

/-- Asks for a chain and keeps it as the one answered last under the name. -/
def askChain (on : String) (c : ConfigId) (m : MethodTerm) (target : Option String) :
    Play Report := do
  let m ← m.resolve
  let chain ← Play.attempt (.chain c m (← Play.typeOption target))
  let key := (on, m.key)
  let before := (← Play.stage).chains.lookup key
  Play.update fun s =>
    { s with chains := (key, chain) :: s.chains.filter fun (k, _) => k != key }
  return reportChain before chain (← Play.readConfig c).cache.length

/-- Carries out a change of a configuration. -/
def ConfigChange.play (c : ConfigId) : ConfigChange → Play Report
  | addAdvisor name place => do
    Play.attempt (.addAdvisor c place (← Play.advisor name))
    Play.reportAdvisors c
  | removeAdvisor name => do
    return .flag (← Play.attempt (.removeAdvisor c (← Play.advisor name)))
  | replaceAdvisor old new => do
    let old ← Play.advisor old
    return .flag (← Play.attempt (.replaceAdvisor c old (← Play.advisor new)))
  | removeAdvisorAt place => do
    let a ← Play.attempt (.removeAdvisorAt c place)
    return .text ((← Play.stage).advisors.nameOf a.same)
  | addAdvice a place => do
    Play.attempt (.addAdvice c place (← a.resolve))
    return .nat (← Play.readConfig c).advisors.length
  | removeAdvice a => do return .flag (← Play.attempt (.removeAdvice c (← a.resolve)))
  | addInterface type => do
    Play.attempt (.addInterface c (← Play.type type))
    Play.reportInterfaces c
  | removeInterface type => do
    return .flag (← Play.attempt (.removeInterface c (← Play.type type)))
  | setSource source => do
    Play.issue (.setSource c (← Play.source source))
    return .null
  | freeze => do
    Play.issue (.freeze c)
    return .null
  | setFrozen b => do
    Play.attempt (.setFrozen c b)
    return .null
  | setFlags f => do
    Play.attempt (.setFlags c f)
    return .null
  | setExposeProxy b => do
    Play.issue (.setExposeProxy c b)
    return .null
  | setPreFiltered b => do
    Play.issue (.setPreFiltered c b)
    return .null
  | addListener name => do
    Play.issue (.addListener c (← Play.find (·.listeners) name))
    return .null
  | removeListener name => do
    return .flag (← Play.issue (.removeListener c (← Play.find (·.listeners) name)))

/-- Answers a question to a configuration that goes by a name. -/
def ConfigQuery.play (on : String) (c : ConfigId) : ConfigQuery → Play Report
  | indexOf name => do
    return .option .nat ((← Play.readConfig c).layout.placeOf (← Play.advisor name))
  | indexOfAdvice a => do
    let a ← a.resolve
    return .option .nat ((← Play.readConfig c).layout.placeOfAdvice a)
  | interfaceProxied type => do
    return .flag ((← Play.readConfig c).isInterfaceProxied (← Play.type type))
  | everything => do return reportConfig (← Play.world) (← Play.readConfig c)
  | inspection => do return .text ((← Play.readConfig c).describe (← Play.world))
  | cached => do return .nat (← Play.readConfig c).cache.length
  | chain m target => askChain on c m target

/-- Carries out a step about configurations. -/
def ConfigStep.play : ConfigStep → Play Report
  | factory id spec => do
    let f ← spec.resolve
    Play.update fun s => { s with factories := s.factories.put id f }
    Play.reportInterfaces f.config
  | proxy name id => do Play.describeProxy (← Play.makeProxy name id)
  | proxyObject name id => do Play.report (← Play.makeProxy name id)
  | describeProxy object => do
    let o ← Play.object object
    if o.isProxy then Play.describeProxy o else throw .noObject
  | change on c => do c.play (← Play.config on)
  | ask on q => do q.play on (← Play.config on)
  | listener id onChange => do
    let l ← Play.define (.listener id onChange)
    Play.update fun s => { s with listeners := s.listeners.put id l }
    return .null

end Aspects.Scenario
