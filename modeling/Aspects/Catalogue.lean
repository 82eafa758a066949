import Aspects.Pointcut.Ask
import Aspects.Precedence

/-!
# Catalogues of advisors

A catalogue keeps advisors in the order in which they were registered. An advisor can
apply to a type if its pointcut matches the class and, unless it is an introduction, at
least one method visible on the type is not ruled out. Those that can apply are answered
with the introductions first.

An aspect is a name, an explicit order and a list of pointcut expressions with advice;
each pair becomes an advisor that knows its place in the aspect.
-/

namespace Aspects

/-- An aspect: advice that belongs together, in the order of declaration. -/
structure Aspect where
  name : String
  order : Option Int
  declared : List (Expr × Advice)

namespace Catalogue

variable {σ : Type}

/-- Is one of the methods not ruled out by the pointcut? -/
def anyMethod (env : Env σ) (p : Pointcut) (t : TypeDesc) : List Method → Run σ Bool
  | [] => return false
  | m :: ms => do
    match ← (p.matchesMethod env m (some t)).run with
    | .ok .always => return true
    | .ok .maybe => return true
    | _ => anyMethod env p t ms

/-- Can the advisor apply to the type? -/
def canApply (env : Env σ) (a : Advisor) (t : TypeDesc) : Run σ Bool := do
  if ← a.pointcut.matchesClass env t then
    if a.isIntroduction then return true else anyMethod env a.pointcut t t.allMethods
  else return false

/-- The introductions, then the others. -/
def introductionsFirst (as : List Advisor) : List Advisor :=
  as.filter (·.isIntroduction) ++ as.filter (!·.isIntroduction)

/-- Those of the advisors that can apply to the type. -/
def keepApplicable (env : Env σ) (t : TypeDesc) : List Advisor → Run σ (List Advisor)
  | [] => return []
  | a :: as => do
    let kept ← canApply env a t
    let rest ← keepApplicable env t as
    return if kept then a :: rest else rest

/-- The advisors that can apply to the type, introductions first. -/
def applicable (env : Env σ) (as : List Advisor) (t : TypeDesc) : Run σ (List Advisor) :=
  keepApplicable env t (introductionsFirst as)

/-- A new, empty catalogue. -/
def make : Run σ CatalogueId :=
  modifyGet fun w =>
    (⟨w.catalogues.size⟩, { w with catalogues := w.catalogues.push [] })

/-- Registers an advisor under a number of its own. -/
def register (id : CatalogueId) (a : Advisor) : Run σ Unit := do
  emit .debug ("Registering advisor: " ++ a.display) []
  let number ← freshId
  modify fun w => w.setCatalogue id (w.catalogue id ++ [{ a with id := number }])

/-- Registers advisors in order. -/
def registerAll (id : CatalogueId) : List Advisor → Run σ Unit
  | [] => return ()
  | a :: as => do
    register id a
    registerAll id as

/-- Announces an aspect and registers its advisors. -/
def registerAspect (id : CatalogueId) (name : String) (as : List Advisor) : Run σ Unit := do
  emit .debug ("Registering aspect: " ++ name) []
  registerAll id as

def clear (id : CatalogueId) : Run σ Unit :=
  modify fun w => w.setCatalogue id []

/-- Registers the advisors of one registration. -/
def load (env : Env σ) (id : CatalogueId) (r : Registration σ) : Run σ Unit := do
  let as ← env.run r.advisors
  emit .debug ("  ├─ Loading " ++ r.name ++ ": " ++ toString as.length ++ " advisor(s)") []
  registerAll id as

/-- Registers the advisors of all registrations. -/
def loadAll (env : Env σ) (id : CatalogueId) : List (Registration σ) → Run σ Unit
  | [] => return ()
  | r :: rs => do
    load env id r
    loadAll env id rs

/-- Registers the advisors that the program brings along. -/
def autoLoad (env : Env σ) (id : CatalogueId) : Run σ Unit := do
  let registrations := env.code.registrations
  emit .info ("Auto-loading advisors from " ++ toString registrations.length ++
    " registration(s)") []
  loadAll env id registrations
  emit .info ("Auto-loaded " ++ toString ((← get).catalogue id).length ++ " advisor(s)") []

end Catalogue

namespace Aspect

variable {σ : Type}

/-- The advisor for one declaration, with the place it has in the aspect. -/
def advisor (name : String) (order : Option Int) (e : Expr) (a : Advice) (place : Nat) :
    Action σ Advisor := do
  let pointcut ← Program.ofCommand (.newMemo e none)
  let id ← Program.ofCommand .fresh
  return { id, pointcut, advice := a, aspect := some name, declarationOrder := place, order }

/-- The advisors of an aspect. -/
def advisors (a : Aspect) : Action σ (List Advisor) :=
  a.declared.zipIdx.mapM fun ((e, advice), place) => advisor a.name a.order e advice place

end Aspect

end Aspects
