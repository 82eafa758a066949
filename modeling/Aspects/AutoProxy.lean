import Aspects.Catalogue
import Aspects.Proxy

/-!
# Automatic proxies

Given an object and a catalogue, the advisors that can apply to the object's type are
put in order and a proxy is made that has exactly those. The object itself is answered
when proxying is switched off, when it is a proxy already, and when no advisor applies.

The advisors were filtered by type, so the configuration is marked as filtered. A
configuration that is to be frozen is frozen once the advisors are in.
-/

namespace Aspects.AutoProxy

variable {σ : Type}

/-- The advisors of a catalogue for an object, in the order in which they act. -/
def advisorsFor (env : Env σ) (id : CatalogueId) (o : Object) : Run σ (List Advisor) := do
  let as ← Catalogue.applicable env ((← get).catalogue id) o.type
  return Precedence.sort as

/-- A configuration for one target that offers all interfaces of its type. -/
def configFor (o : Object) : Run σ ConfigId := do
  let s ← Source.make (.singleton o)
  Configuration.make { source := s, layout := Layout.ofInterfaces o.type.allInterfaces }

/-- Adds advisors in order. -/
def addAll (env : Env σ) (id : ConfigId) : List Advisor → Act σ Unit
  | [] => return ()
  | a :: as => do
    Configuration.addAdvisor env id none a
    addAll env id as

/-- A proxy for the object with these advisors. -/
def proxyWith (env : Env σ) (f : Flags) (o : Object) (as : List Advisor) : Act σ Object := do
  let id ← Act.ofRun (configFor o)
  Act.ofRun (Configuration.replaceFlags id { f with frozen := false })
  addAll env id as
  Act.ofRun (Configuration.setPreFiltered id true)
  if f.frozen then Act.ofRun (Configuration.freeze id)
  Proxy.get env id .standard

/-- The object, or a proxy for it if advisors apply. -/
def wrap (env : Env σ) (enabled : Bool) (id : CatalogueId) (f : Flags) (name : String)
    (o : Object) : Act σ Object := do
  if !enabled || o.isProxy then return o
  else
    let as ← Act.ofRun (advisorsFor env id o)
    if as.isEmpty then
      Act.ofRun (emit .trace ("Object '" ++ name ++
        "' does not match any advisor, skipping proxy creation") [])
      return o
    else
      Act.ofRun (emit .info ("🔷 [AOP] Creating proxy for '" ++ name ++ "' (" ++
        o.type.name ++ ") with " ++ toString as.length ++ " advisor(s)") [])
      proxyWith env f o as

end Aspects.AutoProxy
