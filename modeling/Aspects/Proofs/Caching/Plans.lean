import Aspects.Proofs.Steps.Engine
import Aspects.Proofs.Steps.Generations

/-!
# What chains are made from

The links of a chain are made from the advisors of a configuration, with its adapters, for
a method, a target type and a flag. `Made` says of links that they were made in this run
from what the configuration has now, at a moment when the pointcuts remembered nothing that
they do not remember now.

If the user code that pointcuts depend on does not change its mind then the chains go by a
`Plan`, which gives for every query the outline of its chain (`FollowsPlan`); and then links
that were made have the outline of the plan (`Made.outline`). Pure pointcuts, with a memory or
without, give such a plan (`followsPlan_of_holdsTo`). Of chains only the outline is compared,
for each that is worked out has interceptors with numbers of their own.
-/

namespace Aspects

variable {σ : Type} {code : Code σ} {start : World σ}

open Aspects.Configuration

/-- From `w₀` to `w` nothing has changed that chains of the configuration are made from:
the advisors, the way in which chains are made, and the adapters for it. -/
structure SameMakings (w₀ w : World σ) (id : ConfigId) : Prop where
  advisors_eq : (w.config id).advisors = (w₀.config id).advisors
  chainMaker_eq : (w.config id).chainMaker = (w₀.config id).chainMaker
  adapters_eq : ∀ a, (w.config id).chainMaker = .standard a →
    w.adapterList a = w₀.adapterList a

namespace SameMakings

variable {w w₁ w₂ : World σ} {id : ConfigId}

theorem refl (w : World σ) (id : ConfigId) : SameMakings w w id :=
  ⟨rfl, rfl, fun _ _ => rfl⟩

theorem trans (h : SameMakings w w₁ id) (h' : SameMakings w₁ w₂ id) :
    SameMakings w w₂ id where
  advisors_eq := h'.advisors_eq.trans h.advisors_eq
  chainMaker_eq := h'.chainMaker_eq.trans h.chainMaker_eq
  adapters_eq a ha :=
    (h'.adapters_eq a ha).trans (h.adapters_eq a (h'.chainMaker_eq.symm.trans ha))

/-- Within one generation nothing of the kind changes. -/
theorem of_outgrows (h : w.Settled) (hg : w.Outgrows w₁) (hid : id.index < w.configs.size)
    (hgen : (w₁.config id).generation = (w.config id).generation) :
    SameMakings w w₁ id where
  advisors_eq := (hg.config id hid).advisors_eq hgen
  chainMaker_eq := (hg.config id hid).chainMaker_eq
  adapters_eq a ha := by
    refine hg.adapterList_eq a (h.known id a ?_)
    rw [← (hg.config id hid).chainMaker_eq]
    exact ha

end SameMakings

/-- In a run from `start`, when nothing that chains are made from was other than it is in
`w`, and nothing was remembered that is not remembered there, the configuration's way of
making chains gave the links for the query. -/
def Made (code : Code σ) (start w : World σ) (id : ConfigId) (q : ChainQuery)
    (links : List Link) : Prop :=
  ∃ room w₀ w₁, Reaches code start w₀ ∧ w₀.Recollects w ∧ SameMakings w₀ w id ∧
    (w₀.config id).preFiltered = q.preFiltered ∧
    (makeLinks (Engine.env code room) (w₀.config id) q.method q.target).run w₀
      = some (.ok links, w₁)

theorem Made.mono {w w' : World σ} {id : ConfigId} {q : ChainQuery} {links : List Link}
    (h : Made code start w id q links) (hrecollects : w.Recollects w')
    (hsame : SameMakings w w' id) : Made code start w' id q links := by
  obtain ⟨room, w₀, w₁, hr, hw₀, h₀, hp, hmade⟩ := h
  exact ⟨room, w₀, w₁, hr, hw₀.trans hrecollects, h₀.trans hsame, hp, hmade⟩

/-- Links that the configuration as it is now makes. -/
theorem Made.now {w w₁ : World σ} {room : Nat} {id : ConfigId} {m : Method}
    {t : Option TypeDesc} {links : List Link} (hr : Reaches code start w)
    (h : (makeLinks (Engine.env code room) (w.config id) m t).run w = some (.ok links, w₁)) :
    Made code start w id ((w.config id).query m t) links :=
  ⟨room, w, w₁, hr, .refl w, .refl w id, rfl, h⟩

/-! ## Plans -/

/-- A link apart from the number of its interceptor. -/
def Link.outline : Link → Option Pointcut × Interception
  | fixed i => (none, i.action)
  | dynamic i p => (some p, i.action)

/-- The outlines of the chains for queries. -/
abbrev Plan := ChainQuery → List (Option Pointcut × Interception)

/-- For what is asked the chains of the configuration go by the plan, as long as nothing that
they are made from is other than in `w`, and nothing is remembered that is not remembered
there. -/
def FollowsPlan (code : Code σ) (start w : World σ) (id : ConfigId)
    (asked : Method → Option TypeDesc → Prop) (plan : Plan) : Prop :=
  ∀ room m t w₀ w₁ links, asked m t → Reaches code start w₀ → w₀.Recollects w →
    SameMakings w₀ w id →
    (makeLinks (Engine.env code room) (w₀.config id) m t).run w₀ = some (.ok links, w₁) →
    links.map Link.outline = plan ((w₀.config id).query m t)

theorem Made.outline {w : World σ} {id : ConfigId} {asked : Method → Option TypeDesc → Prop}
    {plan : Plan} (hplan : FollowsPlan code start w id asked plan) {q : ChainQuery}
    (hasked : asked q.method q.target) {links : List Link}
    (h : Made code start w id q links) : links.map Link.outline = plan q := by
  obtain ⟨room, w₀, w₁, hr, hw₀, hsame, hp, hmade⟩ := h
  rw [hplan room q.method q.target w₀ w₁ links hasked hr hw₀ hsame hmade, query, hp]

/-- The links are what is made for the query now: they were made from the advisors of now,
and whatever the plan by which chains go, they have the outline that it gives. -/
structure MadeOfNow (code : Code σ) (start w : World σ) (id : ConfigId) (q : ChainQuery)
    (links : List Link) : Prop where
  made : Made code start w id q links
  outline : ∀ asked plan, FollowsPlan code start w id asked plan → asked q.method q.target →
    links.map Link.outline = plan q

theorem Made.ofNow {w : World σ} {id : ConfigId} {q : ChainQuery} {links : List Link}
    (h : Made code start w id q links) : MadeOfNow code start w id q links :=
  ⟨h, fun _ _ hplan hasked => h.outline hplan hasked⟩

end Aspects
