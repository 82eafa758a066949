import Aspects.Proofs.Caching.Transparency
import Aspects.Proofs.Selecting.Stages
import Aspects.Proofs.Wrapping.Outcomes

/-!
# The class filter of wrapped objects

An advisor for an object has had its class filter asked about the type of the object, and the
answer was yes (`advisorsFor_accepted`). That is why the configuration of the proxy is marked
as filtered, and chains are made without asking again. The mark speaks of the advisors that
are there when the proxy is made. Whatever is done to the configuration later: a chain is
what the advisors of the list contribute, each in its turn (`Made.contributed`), and one that
was there from the beginning has accepted the type (`first_advisors_filtered`). An advisor
that comes in later is not asked, and may be in a chain for a type that it rejects
(`late_advisor_unfiltered`).
-/

namespace Aspects

variable {σ : Type} {α : Type} {code : Code σ} {env : Env σ} {start w w' : World σ}

/-! ## Where links come from -/

namespace Chain

section Turns

variable (env : Env σ) (adapters : AdaptersId) (preFiltered : Bool) (m : Method)
  (t : Option TypeDesc)

/-- From the first world to the second one the advisors had their turns, one after the other,
and these are the links that each of them contributed. -/
inductive Turns : List Advisor → World σ → List (List Link) → World σ → Prop
  | done (w : World σ) : Turns [] w [] w
  | next {a : Advisor} {as : List Advisor} {w v w' : World σ} {mine : List Link}
    {rest : List (List Link)}
    (hmine : (turn env adapters preFiltered m t a).run w = some (.ok mine, v))
    (hrest : Turns as v rest w') : Turns (a :: as) w (mine :: rest) w'

variable {env adapters preFiltered m t}

theorem exists_turns {as : List Advisor} {links : List Link}
    (h : (linksOfAll env adapters preFiltered m t as).run w = some (.ok links, w')) :
    ∃ pieces, Turns env adapters preFiltered m t as w pieces w' ∧ links = pieces.flatten := by
  induction as generalizing w links with
  | nil =>
    cases h
    exact ⟨[], .done _, rfl⟩
  | cons a as ih =>
    rw [linksOfAll_cons] at h
    obtain ⟨mine, w₁, hmine, hrest⟩ := of_run_bind_ok h
    obtain ⟨rest, w₂, hrest, hboth⟩ := of_run_bind_ok hrest
    cases hboth
    obtain ⟨pieces, hturns, rfl⟩ := ih hrest
    exact ⟨mine :: pieces, .next hmine hturns, rfl⟩

end Turns

/-- What an advisor contributes: nothing, or links for all interceptors that the adapters make
of its advice. -/
def Piece (adapters : List Adapter) (a : Advisor) (links : List Link) : Prop :=
  links = [] ∨ Link.Carry adapters a.advice links

section Pieces

variable {P : World σ → Prop} {adapters : AdaptersId} {as : List Adapter} {m : Method}
  {t : Option TypeDesc} {a : Advisor}

variable (hnumber : ∀ w, P w → P { w with serial := w.serial + 1 })
  (hadapters : ∀ w, P w → w.adapterList adapters = as)
include hnumber hadapters

/-- The interceptors that an advisor gets, with any way of making links of them. -/
theorem interceptors_piece (link : Interceptor → Link)
    (hcarries : ∀ i, (link i).interceptor = i) :
    Act.Yields P
      (do return (← (do Adapter.interceptors ((← Act.world).adapterList adapters) a :
        Act σ _)).map link)
      (Piece as a) := by
  refine .andThen (a.interceptors_yields hnumber hadapters) fun made hmade => .succeed ?_
  obtain ⟨hsome, actions, hactions, hmap⟩ := hmade
  exact .inr (Link.carry_map hcarries hsome hactions hmap)

variable (hevent : ∀ w e, P w → P (w.record (.event e)))
  (hasks : a.pointcut.Consults False P (fun _ => True) env m t)
include hevent hasks

theorem linksOf_piece : Act.Yields P (linksOf env adapters a m t) (Piece as a) := by
  have hfixed := interceptors_piece (a := a) hnumber hadapters .fixed fun _ => rfl
  refine .branch _ hfixed (.andThen (.ofRun hasks.matchesMethod) fun o _ => ?_)
  match o with
  | .ok .always => exact hfixed
  | .ok .maybe =>
    refine .andThen (.ofRun hasks.residueFor) fun rest _ => ?_
    exact interceptors_piece hnumber hadapters (fun i => .dynamic i _) fun _ => rfl
  | .ok .never => exact .succeed (.inl rfl)
  | .error f =>
    exact .andThen (.ofRun (emit_upholds hevent ..)) fun _ _ => .succeed (.inl rfl)

theorem turn_piece (preFiltered : Bool) :
    Act.Yields P (turn env adapters preFiltered m t a) (Piece as a) := by
  have hrest (passed : Bool) :
      Act.Yields P (if passed then linksOf env adapters a m t else pure []) (Piece as a) :=
    .branch _ (linksOf_piece hnumber hadapters hevent hasks) (.succeed (.inl rfl))
  unfold turn
  cases preFiltered with
  | true => exact hrest true
  | false => exact .andThen (.ofRun hasks.matchesClass) fun passed _ => hrest passed

end Pieces

/-- In a run every advisor contributes a piece, with the adapters that were there before. -/
theorem Turns.pieces {room : Nat} {adapters : AdaptersId} {preFiltered : Bool} {m : Method}
    {t : Option TypeDesc} {as : List Advisor} {pieces : List (List Link)} {w₀ : World σ}
    (hknown : adapters.index < w₀.adapters.size) (hr : Reaches code w₀ w)
    (h : Turns (Engine.env code room) adapters preFiltered m t as w pieces w') :
    List.Forall₂ (Piece (w₀.adapterList adapters)) as pieces := by
  induction h with
  | done w => exact .nil
  | @next a as w v w' mine rest hmine _ ih =>
    have henv := Engine.env_steps code w₀ room
    have hasks : a.pointcut.Consults False (Reaches code w₀) (fun _ => True)
        (Engine.env code room) m t :=
      ⟨(a.pointcut.matchesClass_tracks henv _).upholds nofun,
        (a.pointcut.matchesMethod_tracks henv m t).upholds nofun,
        (a.pointcut.residueFor_tracks henv m t).upholds nofun⟩
    have hpiece := turn_piece (fun v hv => hv.leads (.one (.number v)))
      (fun v hv => hv.outgrows.adapterList_eq adapters hknown)
      (fun v e hv => hv.leads (.one (.remark v (.event e) rfl))) hasks preFiltered
    obtain ⟨hv, hmine⟩ := hpiece.yields w hr _ v hmine
    exact .cons (hmine mine rfl) (ih hv)

end Chain

/-- The links were made in this run from the advisors that the configuration has now, as they
were contributed in turns, and with the adapters of now. -/
structure Contributed (code : Code σ) (start w : World σ) (id : ConfigId)
    (adapters : AdaptersId) (q : ChainQuery) (links : List Link) (pieces : List (List Link)) :
    Prop where
  turns : ∃ room w₀ w₁, Reaches code start w₀ ∧ w₀.Recollects w ∧ SameMakings w₀ w id ∧
    (w₀.config id).preFiltered = q.preFiltered ∧
    Chain.Turns (Engine.env code room) adapters q.preFiltered q.method q.target
      (w.config id).advisors w₀ pieces w₁
  flatten_eq : links = pieces.flatten
  pieces : List.Forall₂ (Chain.Piece (w.adapterList adapters)) (w.config id).advisors pieces

/-- Links that were made by a configuration that makes its chains the standard way. -/
theorem Made.contributed {id : ConfigId} {adapters : AdaptersId} {q : ChainQuery}
    {links : List Link} (hstart : start.Settled)
    (hmaker : (w.config id).chainMaker = .standard adapters)
    (h : Made code start w id q links) :
    ∃ pieces, Contributed code start w id adapters q links pieces := by
  obtain ⟨room, w₀, w₁, hr₀, hw₀, hsame, hp, hmade⟩ := h
  have hmaker₀ : (w₀.config id).chainMaker = .standard adapters :=
    hsame.chainMaker_eq.symm.trans hmaker
  unfold Configuration.makeLinks at hmade
  rw [hmaker₀, ← hsame.advisors_eq, hp] at hmade
  obtain ⟨links', w₂, hlinks, hdone⟩ := of_run_bind_ok hmade
  cases hdone
  obtain ⟨pieces, hturns, hflatten⟩ := Chain.exists_turns hlinks
  refine ⟨pieces, ⟨room, w₀, w₂, hr₀, hw₀, hsame, hp, hturns⟩, hflatten, ?_⟩
  rw [hsame.adapters_eq adapters hmaker]
  exact hturns.pieces ((hr₀.settled hstart).known id adapters hmaker₀) .refl

/-! ## Who was asked -/

namespace Catalogue

variable {t : TypeDesc}

/-- Where the candidates are asked from the world on, one after the other, whether they can
apply to the type, the advisor is asked in its turn, and its class filter says yes. -/
def Accepts (env : Env σ) (t : TypeDesc) (a : Advisor) : List Advisor → World σ → Prop
  | [], _ => False
  | b :: bs, w =>
    (b = a ∧ ∃ v, b.pointcut.matchesClass env t w = some (true, v)) ∨
      ∃ can v, canApply env b t w = some (can, v) ∧ Accepts env t a bs v

theorem matchesClass_of_canApply {a : Advisor} (h : canApply env a t w = some (true, w')) :
    ∃ v, a.pointcut.matchesClass env t w = some (true, v) := by
  obtain ⟨⟨passed, v⟩, hasked, hrest⟩ := Option.bind_eq_some_iff.mp h
  cases passed with
  | true => exact ⟨v, hasked⟩
  | false => cases hrest

/-- Those that are kept have accepted the type. -/
theorem keepApplicable_accepted {as kept : List Advisor}
    (h : keepApplicable env t as w = some (kept, w')) : ∀ a ∈ kept, Accepts env t a as w := by
  induction as generalizing w w' kept with
  | nil =>
    cases h
    exact List.forall_mem_nil _
  | cons b bs ih =>
    obtain ⟨⟨can, v⟩, hasked, hrest⟩ := Option.bind_eq_some_iff.mp h
    obtain ⟨⟨rest, w₂⟩, hrest, hkept⟩ := Option.bind_eq_some_iff.mp hrest
    have hlater : ∀ a ∈ rest, Accepts env t a (b :: bs) w :=
      fun a ha => .inr ⟨can, v, hasked, ih hrest a ha⟩
    cases can with
    | false =>
      cases hkept
      exact hlater
    | true =>
      cases hkept
      exact List.forall_mem_cons.mpr ⟨.inl ⟨rfl, matchesClass_of_canApply hasked⟩, hlater⟩

/-- An advisor whose class filter never says yes about the type does not accept it. -/
theorem not_accepts {a : Advisor} {as : List Advisor}
    (h : ∀ v v', a.pointcut.matchesClass env t v ≠ some (true, v')) :
    ¬ Accepts env t a as w := by
  induction as generalizing w with
  | nil => exact id
  | cons b bs ih =>
    rintro (⟨rfl, v, hasked⟩ | ⟨_, v, _, hrest⟩)
    · exact h w v hasked
    · exact ih hrest

end Catalogue

namespace AutoProxy

/-- The advisors that are found for an object have accepted its type. -/
theorem advisorsFor_accepted {id : CatalogueId} {o : Object} {as : List Advisor}
    (h : advisorsFor env id o w = some (as, w')) :
    ∀ a ∈ as, Catalogue.Accepts env o.type a
      (Catalogue.introductionsFirst (w.catalogue id)) w := by
  obtain ⟨⟨kept, w₁⟩, hkept, hsorted⟩ := Option.bind_eq_some_iff.mp h
  cases hsorted
  intro a ha
  exact Catalogue.keepApplicable_accepted hkept a ((Precedence.sort_perm kept).mem_iff.mp ha)

section Wrapped

variable {room : Nat} {enabled : Bool} {id : CatalogueId} {f : Flags} {name : String}
  {o proxy : Object}

/-- If wrapping an object gives another one, then advisors were found and a proxy was made
with them. -/
theorem made_of_wrap (ho : o.isProxy = false) (hproxy : proxy ≠ o)
    (h : (wrap env enabled id f name o).run w = some (.ok proxy, w')) :
    ∃ as w₁, ∃ e : Event, advisorsFor env id o w = some (as, w₁) ∧
      (proxyWith env f o as).run (w₁.record (.event e)) = some (.ok proxy, w') := by
  cases henabled : enabled with
  | false =>
    rw [wrap_idle (.inl henabled)] at h
    cases h
    exact absurd rfl hproxy
  | true =>
    cases hadvisors : advisorsFor env id o w with
    | none =>
      unfold wrap at h
      simp [henabled, ho, Act.run_ofRun, hadvisors] at h
    | some found =>
      obtain ⟨as, w₁⟩ := found
      by_cases has : as = []
      · subst has
        obtain ⟨w₂, hwrap, _⟩ := wrap_none henabled ho hadvisors f name
        rw [hwrap] at h
        cases h
        exact absurd rfl hproxy
      · obtain ⟨e, hwrap⟩ := wrap_some henabled ho hadvisors has f name
        rw [hwrap] at h
        exact ⟨as, w₁, e, rfl, h⟩

/-- If wrapping an object gives a proxy then it is one with advisors that have accepted the
type of the object. -/
theorem wraps_of_wrap (ho : o.isProxy = false) (hproxy : proxy.isProxy = true)
    (h : (wrap env enabled id f name o).run w = some (.ok proxy, w')) :
    ∃ as config, Wraps w' f o as proxy config ∧
      ∀ a ∈ as, Catalogue.Accepts env o.type a
        (Catalogue.introductionsFirst (w.catalogue id)) w := by
  have hother : proxy ≠ o := by
    rintro rfl
    rw [ho] at hproxy
    cases hproxy
  obtain ⟨as, w₁, e, hadvisors, hrun⟩ := made_of_wrap ho hother h
  obtain ⟨outcome, w₂, hends, hmade, _⟩ := proxyWith_ends env f o as (w₁.record (.event e))
  cases hends.symm.trans hrun
  obtain ⟨_, config, hwraps⟩ := hmade proxy rfl
  exact ⟨as, config, hwraps, advisorsFor_accepted hadvisors⟩

end Wrapped

/-- Throughout every run, when an object that is no proxy is wrapped and a proxy comes of it:
every advisor that is in the list then was asked in its turn, among the candidates of the
catalogue, whether its class filter accepts the type of the object, and said yes; one whose
class filter never accepts the type is not in the list. Whatever is done later, by the
configuration of the proxy or otherwise, a chain that is looked up there is made up of what
the advisors contribute that are in the list at that moment: each of them nothing, or the
links for all that the adapters make of its advice. -/
theorem first_advisors_filtered (code : Code σ) (room : Nat) (p : Action σ α) (s : σ) :
    Engine.Throughout code room p { user := s } fun w =>
      ∀ room enabled id f name o proxy config w', o.isProxy = false →
        (wrap (Engine.env code room) enabled id f name o).run w = some (.ok proxy, w') →
        proxy.proxyConfig? = some config →
        (∀ a ∈ (w'.config config).advisors, Catalogue.Accepts (Engine.env code room) o.type a
          (Catalogue.introductionsFirst (w.catalogue id)) w) ∧
        (∀ a, (∀ v v', a.pointcut.matchesClass (Engine.env code room) o.type v
            ≠ some (true, v')) →
          a ∉ (w'.config config).advisors) ∧
        ∀ {β : Type} (room) (q : Action σ β), Engine.Throughout code room q w' fun w'' =>
          ∀ room m t chain w₁,
            (Configuration.chainFor (Engine.env code room) config m t).run w''
              = some (.ok chain, w₁) →
            ∃ pieces, Contributed code { user := s } w'' config default
              ((w''.config config).origin m t) chain.links pieces := by
  refine Engine.throughout (fun w hr room enabled id f name o proxy config w' ho hwrap
    hconfig => ?_) room p
  obtain ⟨as, made, hwraps, haccepts⟩ := wraps_of_wrap ho (by simp [Object.isProxy, hconfig]) hwrap
  have hmade : made = config := by
    obtain ⟨strategy, hpayload⟩ := hwraps.payload
    unfold Object.proxyConfig? at hconfig
    rw [hpayload] at hconfig
    exact Option.some.inj hconfig
  subst hmade
  rw [hwraps.advisors_eq]
  refine ⟨haccepts, fun a hrejects ha => Catalogue.not_accepts hrejects (haccepts a ha),
    fun later q => ?_⟩
  have hleads : Leads code w w' :=
    (wrap_tracks (Engine.env_steps code w room) ((Trail.steps_passes code w).tells
      (Engine.env_steps code w room)) enabled id f name o w .refl).leads _ _ hwrap
  refine Engine.throughout (fun w'' hlater room m t chain w₁ hchain => ?_) later q
  have hr'' : Reaches code { user := s } w'' := (hr.leads hleads).trans hlater
  have hmaker : (w''.config made).chainMaker = .standard default :=
    (hlater.outgrows.config made hwraps.known).chainMaker_eq.trans hwraps.chainMaker_eq
  exact (((Sound.initial s).reaches hr'').chainFor hr'' hchain).contributed (.initial s) hmaker

end AutoProxy

/-! ## An advisor that comes in late

A proxy for a ledger with advice for all calls. Then the advice for calls to another class
comes in. -/

/-- Advice before every call. -/
def greeter : Advisor where
  id := 1
  pointcut := .all
  advice := .before ⟨1⟩

def posting : Method := ⟨ledger, "post", [], .void⟩

/-- Does the chain carry the advice for audited calls? -/
def Chain.audits (c : Chain) : Bool :=
  c.links.any fun link => link.interceptor.action matches .before ⟨0⟩

/-- Wraps a ledger, adds the auditor to the advisors of the proxy, and answers whether its
class filter accepts ledgers, and whether its advice is in the chain for ledgers, before it
came in and afterwards. -/
def auditLate : ExceptT Failure (Action Unit) (Bool × Bool × Bool) := do
  let id ← ExceptT.lift (.ofCommand .newCatalogue)
  ExceptT.lift (.ofCommand (.register id greeter))
  let proxy ← ExceptT.mk (.ofCommand (.wrap true id {} "postings" AutoProxy.postings))
  let config := proxy.proxyConfig?.getD default
  let before ← ExceptT.mk (.ofCommand (.chain config posting (some ledger)))
  ExceptT.mk (.ofCommand (.addAdvisor config none auditor))
  let accepts ← ExceptT.lift (.ofCommand (.matchesClass auditor.pointcut ledger))
  let after ← ExceptT.mk (.ofCommand (.chain config posting (some ledger)))
  return (accepts, before.audits, after.audits)

/-- The class filter rejects ledgers, and the advice is in the chain for them. -/
theorem late_advisor_unfiltered :
    (Engine.run auditing 1 auditLate.run { user := () }).map (·.1.toOption)
      = some (some (false, false, true)) := by
  decide +kernel

end Aspects
