import Aspects.Scenario.Configurations

/-!
# Steps about catalogues and automatic proxies

Filling catalogues of advisors, asking what is in them, and wrapping objects by them.
One catalogue is there from the start: the one that every program shares.
-/

namespace Aspects.Scenario

/-- A step about catalogues. -/
inductive CatalogueStep where
  | make (id : String)
  | register (catalogue advisor : String)
  | registerAspect (catalogue : String) (a : AspectTerm)
  | registerAll (catalogue : String) (advisors : List String)
  | clear (catalogue : String)
  | everything (catalogue : String)
  /-- The advisors that can apply to a type. -/
  | eligible (catalogue type : String)
  /-- Registers what the program brings along. -/
  | autoLoad (catalogue : String)
  /-- Wraps an object, announced by a text, and gives the result a name. Without a
  catalogue wrapping is switched off. -/
  | wrap (id : String) (catalogue : Option String) (object announced : String)
      (flags : Option Flags)

/-- The name of the catalogue that every program shares. -/
def sharedCatalogue : String := "global"

def Play.catalogue (name : String) : Play CatalogueId :=
  find (·.catalogues) name

/-- What is in a catalogue. -/
def Play.registered (c : CatalogueId) : Play (List Advisor) := do
  return (← world).catalogue c

/-- How much is in a catalogue. -/
def Play.reportFill (c : CatalogueId) : Play Report := do
  let as ← registered c
  return .list [.nat as.length, .flag as.isEmpty]

/-- The result of wrapping: a new proxy is described. -/
def Play.reportWrapped (before after : Object) : Play Report :=
  if after.same before then report after else describeProxy after

/-- Wraps an object and gives the result a name. -/
def Play.wrap (id : String) (catalogue : Option String) (o : Object) (announced : String)
    (flags : Option Flags) : Play Report := do
  let c ← Play.catalogue (catalogue.getD sharedCatalogue)
  let enabled := catalogue.isSome
  let as ← issue (.advisorsFor c o)
  let wrapped ← attempt (.wrap enabled c (flags.getD {}) announced o)
  update (·.nameObject id wrapped)
  return .record [
    ("enabled", .flag enabled),
    ("advisors", Scenario.reportAdvisors as),
    ("same", .flag (wrapped.same o)),
    ("result", ← reportWrapped o wrapped)]

/-- Carries out a step about catalogues. -/
def CatalogueStep.play : CatalogueStep → Play Report
  | make id => do
    let c ← Play.issue .newCatalogue
    Play.update fun s => { s with catalogues := s.catalogues.put id c }
    return .null
  | register name advisor => do
    let c ← Play.catalogue name
    Play.issue (.register c (← Play.advisor advisor))
    Play.reportFill c
  | registerAspect name a => do
    let c ← Play.catalogue name
    Play.issue (.registerAspect c a.name (← a.resolve))
    Play.reportFill c
  | registerAll name advisors => do
    let c ← Play.catalogue name
    (← advisors.mapM Play.advisor).forM fun a => Play.issue (.register c a)
    return .nat (← Play.registered c).length
  | clear name => do
    let c ← Play.catalogue name
    Play.issue (.clearCatalogue c)
    Play.reportFill c
  | everything name => do
    return reportAdvisors (← Play.registered (← Play.catalogue name))
  | eligible name type => do
    let as ← Play.registered (← Play.catalogue name)
    return reportAdvisors (← Play.issue (.applicable as (← Play.type type)))
  | autoLoad name => do
    let c ← Play.catalogue name
    Play.issue (.autoLoad c)
    return .nat (← Play.registered c).length
  | wrap id name object announced flags => do
    Play.wrap id name (← Play.object object) announced flags

end Aspects.Scenario
