import Aspects.Adapters
import Aspects.Pointcut.Ask

/-!
# Chains

The chain for a method is made from the advisors in their order. An advisor whose
pointcut does not match the class contributes nothing, unless the advisors are known to
have been filtered by class before. An introduction is asked about nothing else; any
other advisor contributes fixed links if its pointcut always matches the method,
dynamic ones if it may, and none if it never does. A pointcut that cannot be asked is
reported, and its advisor left out.
-/

namespace Aspects.Chain

variable {σ : Type}

/-- The links of one advisor whose class filter was passed or waived. -/
def linksOf (env : Env σ) (adapters : AdaptersId) (a : Advisor) (m : Method)
    (t : Option TypeDesc) : Act σ (List Link) := do
  let interceptors : Act σ (List Interceptor) := do
    Adapter.interceptors ((← Act.world).adapterList adapters) a
  if a.isIntroduction then
    return (← interceptors).map .fixed
  match ← Act.attempt (a.pointcut.matchesMethod env m t) with
  | .ok .always => return (← interceptors).map .fixed
  | .ok .maybe =>
    let rest ← Act.ofRun (a.pointcut.residueFor env m t)
    return (← interceptors).map fun i => .dynamic i (rest.getD a.pointcut)
  | .ok .never => return []
  | .error f =>
    Act.ofRun (emit .warn "Skipping advisor whose pointcut could not be evaluated"
      [("advisor", a.display), ("method", m.display), ("error", f.display)])
    return []

/-- The links of all advisors. -/
def linksOfAll (env : Env σ) (adapters : AdaptersId) (preFiltered : Bool) (m : Method)
    (t : Option TypeDesc) : List Advisor → Act σ (List Link)
  | [] => return []
  | a :: as => do
    let passed ← if preFiltered then pure true
      else Act.ofRun (a.pointcut.matchesClass env (t.getD m.declaring))
    let links ← if passed then linksOf env adapters a m t else pure []
    return links ++ (← linksOfAll env adapters preFiltered m t as)

/-- The chain that the advisors make for the method. -/
def standard (env : Env σ) (adapters : AdaptersId) (advisors : List Advisor)
    (preFiltered : Bool) (m : Method) (t : Option TypeDesc) : Act σ (List Link) := do
  let links ← linksOfAll env adapters preFiltered m t advisors
  Act.ofRun (emit .trace "Resolved interceptor chain"
    [("method", m.signature), ("units", toString links.length)])
  return links

end Aspects.Chain
