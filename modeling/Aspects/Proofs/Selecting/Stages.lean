import Aspects.Proofs.Observing.Advisors
import Aspects.Proofs.Selecting.Memories

/-!
# Selecting in stages

Whether the advice of an advisor runs on a call is found out in stages: its class filter
is asked, unless the advisors were filtered before; its pointcut is asked about the method
without arguments; where that is left open, what is left of the pointcut goes into the
chain, and is asked about the arguments of each call. All of it comes to what the
pointcut answers when it is asked about the call at once (`staged_selection_exact`).

An advisor contributes when its turn comes (`Chain.turn`), and either contributes nothing,
where its pointcut matches no call, or all its interceptors, in links that say of every
call what the pointcut says of it (`Chain.Contributes`). The advisors before it may ask
user code; the memories of pointcuts only have to be right after that.
-/

namespace Aspects

variable {σ : Type} {α β : Type} {env : Env σ} {tests : Tests} {w w₁ w' : World σ}

namespace Act

theorem run_map (f : α → β) (a : Act σ α) (w : World σ) :
    (do return f (← a) : Act σ β).run w = (a.run w).map fun (o, w') => (o.map f, w') := by
  rw [run_bind]
  cases a.run w with
  | none => rfl
  | some x =>
    obtain ⟨_ | y, w₁⟩ := x
    · rfl
    · rfl

end Act

namespace Chain

/-! ## One advisor after the other -/

section Turns

variable (env : Env σ) (adapters : AdaptersId) (preFiltered : Bool) (m : Method)
  (t : Option TypeDesc)

/-- The links that an advisor contributes when its turn comes. -/
def turn (a : Advisor) : Act σ (List Link) := do
  let passed ← if preFiltered then pure true
    else Act.ofRun (a.pointcut.matchesClass env (t.getD m.declaring))
  if passed then linksOf env adapters a m t else pure []

theorem linksOfAll_cons (a : Advisor) (as : List Advisor) :
    linksOfAll env adapters preFiltered m t (a :: as) = (do
      let links ← turn env adapters preFiltered m t a
      return links ++ (← linksOfAll env adapters preFiltered m t as)) := by
  unfold turn
  cases preFiltered with
  | true => simp [linksOfAll]
  | false =>
    simp only [linksOfAll, Bool.false_eq_true, if_false, bind_assoc]
    refine bind_congr fun passed => ?_
    cases passed with
    | true => rfl
    | false => rfl

theorem linksOfAll_append (as bs : List Advisor) :
    linksOfAll env adapters preFiltered m t (as ++ bs) = (do
      let links ← linksOfAll env adapters preFiltered m t as
      return links ++ (← linksOfAll env adapters preFiltered m t bs)) := by
  induction as with
  | nil => simp [linksOfAll]
  | cons a as ih =>
    rw [List.cons_append, linksOfAll_cons, linksOfAll_cons, ih]
    simp only [bind_assoc, pure_bind, List.append_assoc]

variable {env adapters preFiltered m t}

/-- In a chain the links of an advisor are in one piece, and are what it contributed
when its turn came. -/
theorem standard_turn {pre post : List Advisor} {a : Advisor} {links : List Link}
    (h : (standard env adapters (pre ++ a :: post) preFiltered m t).run w
      = some (.ok links, w')) :
    ∃ before mine after w₁ w₂,
      links = before ++ mine ++ after ∧
      (linksOfAll env adapters preFiltered m t pre).run w = some (.ok before, w₁) ∧
      (turn env adapters preFiltered m t a).run w₁ = some (.ok mine, w₂) := by
  obtain ⟨all, w₄, hall, hk⟩ := of_run_bind_ok h
  have hlinks : all = links := by
    cases hk
    rfl
  subst hlinks
  rw [linksOfAll_append] at hall
  obtain ⟨before, w₁, hbefore, hrest⟩ := of_run_bind_ok hall
  obtain ⟨rest, w₃, hrest, hk⟩ := of_run_bind_ok hrest
  rw [linksOfAll_cons] at hrest
  obtain ⟨mine, w₂, hmine, hafter⟩ := of_run_bind_ok hrest
  obtain ⟨after, w₃', hafter, hk'⟩ := of_run_bind_ok hafter
  cases hk
  cases hk'
  exact ⟨before, mine, after, w₁, w₂, by rw [List.append_assoc], hbefore, hmine⟩

end Turns

end Chain

/-! ## What an advisor contributes -/

/-- Asked whether it runs on a call with the arguments the link says so, and asking it
changes nothing. -/
def Link.Says (env : Env σ) (m : Method) (t : Option TypeDesc) (args : List Value)
    (answer : Bool) : Link → Prop
  | fixed _ => answer = true
  | dynamic _ p => p.matchesRuntime env m t args = pure answer

namespace Chain

section Contributions

variable {asked : Questions} {owner : MemoId → Expr} {m : Method} {t : Option TypeDesc}
  {a : Advisor} (adapters : AdaptersId)

/-- In the world there is nothing for the advisor to contribute, and its pointcut matches
no call; or its interceptors are made there, and each becomes a link that says what the
pointcut says. -/
def Contributes (env : Env σ) (tests : Tests) (adapters : AdaptersId) (m : Method)
    (t : Option TypeDesc) (a : Advisor) (w : World σ)
    (contributed : Option (Outcome (List Link) × World σ)) : Prop :=
  contributed = some (.ok [], w) ∧ (∀ args, a.pointcut.holds tests m t args = false) ∨
    ∃ link : Interceptor → Link, (∀ i, (link i).interceptor = i) ∧
      (∀ i args, (link i).Says env m t args (a.pointcut.holds tests m t args)) ∧
      contributed = ((Adapter.interceptors (w.adapterList adapters) a).run w).map
        fun (o, w') => (o.map (·.map link), w')

/-- An advisor that is no introduction, and whose class filter was passed or waived. -/
theorem linksOf_contributes (hdistinct : asked.Distinct) (hm : asked m t)
    (hadvisor : a.isIntroduction = false) (h : a.pointcut.TestedBy env tests owner)
    (hw : w.Recalls tests asked owner) :
    ∃ w₁, w.Ponders w₁ ∧ w₁.Recalls tests asked owner ∧
      Contributes env tests adapters m t a w₁ ((linksOf env adapters a m t).run w) := by
  obtain ⟨o, w₁, hmatched, hponders, hw₁, ho⟩ :=
    Pointcut.matchesMethod_answers hdistinct hm h w hw
  unfold linksOf
  rw [if_neg (by simp [hadvisor])]
  simp only [Act.attempt, Act.run_ofRun, hmatched, Option.bind_some]
  cases hleft : a.pointcut.left? tests m t with
  | none =>
    rw [hleft] at ho
    obtain ⟨e, rfl⟩ := ho
    refine ⟨w₁.record _, hponders.trans ⟨_, _, rfl⟩, hw₁.of_memories rfl,
      .inl ⟨rfl, fun args => ?_⟩⟩
    simp [Pointcut.holds, hleft]
  | some r =>
    rw [hleft] at ho
    subst ho
    have hholds : ∀ args, a.pointcut.holds tests m t args = r.holds tests m args := by
      intro args
      simp [Pointcut.holds, hleft]
    unfold Contributes
    simp only [hholds]
    cases hverdict : r.verdict with
    | always =>
      cases Residue.eq_const_of_verdict (b := true) hverdict
      exact ⟨w₁, hponders, hw₁, .inr ⟨.fixed, fun _ => rfl, fun _ _ => rfl, Act.run_map _ _ _⟩⟩
    | never =>
      cases Residue.eq_const_of_verdict (b := false) hverdict
      exact ⟨w₁, hponders, hw₁, .inl ⟨rfl, fun _ => rfl⟩⟩
    | maybe =>
      obtain ⟨rest, w₂, hrest, hponders', hw₂, hsays⟩ :=
        Pointcut.residueFor_answers hdistinct hm h w₁ hw₁
      refine ⟨w₂, hponders.trans hponders', hw₂,
        .inr ⟨fun i => .dynamic i (rest.getD a.pointcut), fun _ => rfl,
          fun i args => hsays r hleft args, ?_⟩⟩
      simp only [Act.run_ofRun, hrest, Option.bind_some]
      exact Act.run_map _ _ _

/-- The same of an advisor's whole turn: a class that does not pass the filter has no
method that is matched. -/
theorem turn_contributes (hdistinct : asked.Distinct) (hm : asked m t)
    (hadvisor : a.isIntroduction = false) (h : a.pointcut.TestedBy env tests owner)
    (preFiltered : Bool) (hw : w.Recalls tests asked owner) :
    ∃ w₁, w.Ponders w₁ ∧ w₁.Recalls tests asked owner ∧
      Contributes env tests adapters m t a w₁
        ((turn env adapters preFiltered m t a).run w) := by
  unfold turn
  cases preFiltered with
  | true => exact linksOf_contributes adapters hdistinct hm hadvisor h hw
  | false =>
    have hclass : Run.Answers tests asked owner (a.pointcut.matchesClass env (t.getD m.declaring))
        _ := Pointcut.matchesClass_answers h
    obtain ⟨passed, w₁, hasked, hponders, hw₁, hfilter⟩ := hclass w hw
    simp only [Bool.false_eq_true, if_false, Act.run_ofRun, hasked, Option.bind_some]
    cases passed with
    | true =>
      obtain ⟨w₂, hponders', hw₂, hcontributes⟩ :=
        linksOf_contributes adapters hdistinct hm hadvisor h hw₁
      exact ⟨w₂, hponders.trans hponders', hw₂, hcontributes⟩
    | false =>
      refine ⟨w₁, hponders, hw₁, .inl ⟨rfl, fun args => ?_⟩⟩
      unfold Pointcut.holds
      cases hleft : a.pointcut.left? tests m t with
      | none => rfl
      | some r =>
        cases hfilter rfl r hleft
        rfl

end Contributions

end Chain

/-! ## Until its turn comes -/

section Keeping

variable {asked : Questions} {owner : MemoId → Expr} {m : Method} {t : Option TypeDesc}

namespace Adapter

theorem number_memories {actions : List Interception} {made : List Interceptor}
    (h : number actions w = some (made, w')) : w'.memories = w.memories := by
  induction actions generalizing w made with
  | nil =>
    cases h
    rfl
  | cons action actions ih =>
    rw [number_cons] at h
    obtain ⟨⟨made', w₁⟩, hmade, hk⟩ := Option.map_eq_some_iff.mp h
    cases hk
    exact ih (w := { w with serial := w.serial + 1 }) hmade

theorem interceptors_keeps (adapters : List Adapter) (a : Advisor) :
    Run.Keeps tests asked owner (interceptors adapters a : Act σ (List Interceptor)).run := by
  refine .andThen ?_ fun actions => ?_
  · cases interceptions adapters a.advice with
    | ok actions => exact .pure _
    | error fault => exact .pure _
  · refine .andThen (.ofRun (.of_memories fun w made w' => number_memories)) fun made => ?_
    exact .branch _ (.pure _) (.pure _)

end Adapter

namespace Chain

/-- Making links leaves the memories right if asking the pointcut does. -/
theorem linksOf_keeps (adapters : AdaptersId) {a : Advisor}
    (h : a.pointcut.Keeps env tests asked owner m t) :
    Run.Keeps tests asked owner (linksOf env adapters a m t).run := by
  have hmade : Run.Keeps tests asked owner
      (do Adapter.interceptors ((← Act.world).adapterList adapters) a : Act σ _).run :=
    fun w => Adapter.interceptors_keeps (w.adapterList adapters) a w
  refine .branch _ (.andThen hmade fun _ => .pure _) ?_
  refine .andThen (.ofRun h.matchesMethod) fun o => ?_
  match o with
  | .ok .always => exact .andThen hmade fun _ => .pure _
  | .ok .maybe =>
    exact .andThen (.ofRun h.residueFor) fun _ => .andThen hmade fun _ => .pure _
  | .ok .never => exact .pure _
  | .error f => exact .andThen (.ofRun (.emit _ _ _)) fun _ => .pure _

theorem turn_keeps (adapters : AdaptersId) (preFiltered : Bool) {a : Advisor}
    (h : a.pointcut.Keeps env tests asked owner m t) :
    Run.Keeps tests asked owner (turn env adapters preFiltered m t a).run := by
  unfold turn
  have hrest (passed : Bool) : Run.Keeps tests asked owner
      (if passed then linksOf env adapters a m t else pure []).run :=
    .branch _ (linksOf_keeps adapters h) (.pure _)
  cases preFiltered with
  | true => exact .andThen (.pure _) hrest
  | false => exact .andThen (.ofRun h.matchesClass) hrest

theorem linksOfAll_keeps (adapters : AdaptersId) (preFiltered : Bool) {as : List Advisor}
    (h : ∀ a ∈ as, a.pointcut.Keeps env tests asked owner m t) :
    Run.Keeps tests asked owner (linksOfAll env adapters preFiltered m t as).run := by
  induction as with
  | nil => exact .pure _
  | cons a as ih =>
    rw [linksOfAll_cons]
    refine .andThen (turn_keeps adapters preFiltered (h a List.mem_cons_self)) fun _ => ?_
    exact .andThen (ih fun b hb => h b (List.mem_cons_of_mem _ hb)) fun _ => .pure _

end Chain

end Keeping

/-! ## What the adapters make of the advice -/

namespace Adapter

/-- Interceptors that were made are at least one, and are for what the adapters make of
the advice. -/
theorem of_interceptors {adapters : List Adapter} {a : Advisor} {made : List Interceptor}
    (h : (interceptors adapters a).run w = some (.ok made, w')) :
    made ≠ [] ∧ ∃ actions, interceptions adapters a.advice = .ok actions ∧
      made.map Interceptor.action = (own a.advice).map Interceptor.action ++ actions := by
  cases hactions : interceptions adapters a.advice with
  | error fault =>
    unfold interceptors at h
    rw [hactions] at h
    cases h
  | ok actions =>
    obtain ⟨numbered, w₁, hnumbered, hmap⟩ := number_eq actions w
    by_cases hempty : own a.advice ++ numbered = []
    · unfold interceptors at h
      rw [hactions] at h
      replace h : (Act.ofRun (number actions) >>= fun made =>
          if (own a.advice ++ made).isEmpty then Act.fail (.unknownAdviceType a.advice.kind.name)
          else pure (own a.advice ++ made)).run w = some (.ok made, w') := h
      rw [Act.run_ofRun, hnumbered, Option.bind_some, hempty] at h
      cases h
    · rw [interceptors_run hactions hnumbered hempty] at h
      cases h
      exact ⟨hempty, actions, rfl, by rw [List.map_append, hmap]⟩

theorem length_of_mapM {l : List Adapter} {f : Adapter → Except Fault Interception}
    {actions : List Interception} (h : l.mapM f = .ok actions) : actions.length = l.length := by
  induction l generalizing actions with
  | nil =>
    cases h
    rfl
  | cons x l ih =>
    rw [List.mapM_cons] at h
    obtain ⟨action, _, hrest⟩ := ok_of_bind h
    obtain ⟨actions', hactions', hk⟩ := ok_of_bind hrest
    cases hk
    rw [List.length_cons, List.length_cons, ih hactions']

/-- Advice that the adapters understand, and of which they make something, is made into
interceptors. -/
theorem interceptors_of_supports {adapters : List Adapter} {a : Advisor}
    {actions : List Interception} (hsupports : anySupports adapters a.advice = true)
    (hactions : interceptions adapters a.advice = .ok actions) (w : World σ) :
    ∃ made w', (interceptors adapters a).run w = some (.ok made, w') := by
  obtain ⟨numbered, w₁, hnumbered, hmap⟩ := number_eq actions w
  refine ⟨_, _, interceptors_run hactions hnumbered fun hempty => ?_⟩
  -- with nothing made, the advice is no interceptor and no adapter understands it
  obtain ⟨hnoOwn, rfl⟩ := List.append_eq_nil_iff.mp hempty
  have hnone : (adapters.filter (·.supports a.advice)).length = 0 := by
    rw [← length_of_mapM hactions, ← hmap]
    rfl
  rcases Bool.or_eq_true_iff.mp hsupports with hkind | hany
  · cases ha : a.advice with
    | interceptor i => rw [ha] at hnoOwn; cases hnoOwn
    | _ => rw [ha] at hkind; cases hkind
  · obtain ⟨adapter, hmem, hs⟩ := List.any_eq_true.mp hany
    have hthere : adapter ∈ adapters.filter (·.supports a.advice) :=
      List.mem_filter.mpr ⟨hmem, hs⟩
    rw [List.length_eq_zero_iff.mp hnone] at hthere
    cases hthere

end Adapter

/-! ## The result -/

/-- The links carry the interceptors that the adapters make of the advice. -/
def Link.Carry (adapters : List Adapter) (a : Advice) (links : List Link) : Prop :=
  links ≠ [] ∧ ∃ actions, Adapter.interceptions adapters a = .ok actions ∧
    links.map (fun link => link.interceptor.action)
      = (Adapter.own a).map Interceptor.action ++ actions

theorem Link.carry_map {adapters : List Adapter} {a : Advice} {made : List Interceptor}
    {actions : List Interception} {link : Interceptor → Link}
    (hcarries : ∀ i, (link i).interceptor = i) (hsome : made ≠ [])
    (hactions : Adapter.interceptions adapters a = .ok actions)
    (hmap : made.map Interceptor.action = (Adapter.own a).map Interceptor.action ++ actions) :
    Link.Carry adapters a (made.map link) := by
  refine ⟨by simpa using hsome, actions, hactions, ?_⟩
  simpa [Function.comp_def, hcarries] using hmap

theorem Link.Says.unique {m : Method} {t : Option TypeDesc} {args : List Value} {b b' : Bool}
    {link : Link} (w : World σ) (h : link.Says env m t args b) (h' : link.Says env m t args b') :
    b = b' := by
  cases link with
  | fixed i => exact h.trans h'.symm
  | dynamic i p =>
    have hrun : (pure b : Run σ Bool) w = (pure b' : Run σ Bool) w :=
      congrFun (h.symm.trans h') w
    cases hrun
    rfl

/-- What an advisor has contributed is selected exactly where its pointcut matches. -/
theorem Chain.Contributes.selects {adapters : AdaptersId} {m : Method} {t : Option TypeDesc}
    {a : Advisor} {mine : List Link}
    (h : Contributes env tests adapters m t a w (some (.ok mine, w'))) (args : List Value) :
    ((Link.Carry (w.adapterList adapters) a.advice mine ∧
        ∀ link ∈ mine, link.Says env m t args true) ↔
      a.pointcut.holds tests m t args = true) ∧
    (a.pointcut.holds tests m t args = false → ∀ link ∈ mine, link.Says env m t args false) := by
  rcases h with ⟨hnone, hnever⟩ | ⟨link, hcarries, hsays, hmade⟩
  · cases hnone
    refine ⟨⟨fun hcarry => absurd rfl hcarry.1.1, fun hmatched => ?_⟩, ?_⟩
    · rw [hnever args] at hmatched
      cases hmatched
    · exact fun _ link hlink => absurd hlink List.not_mem_nil
  · obtain ⟨⟨_ | made, w₁⟩, hrun, hk⟩ := Option.map_eq_some_iff.mp hmade.symm
    · cases hk
    · cases hk
      obtain ⟨hsome, actions, hactions, hmap⟩ := Adapter.of_interceptors hrun
      have hall : ∀ l ∈ made.map link,
          l.Says env m t args (a.pointcut.holds tests m t args) := by
        intro l hl
        obtain ⟨i, _, rfl⟩ := List.mem_map.mp hl
        exact hsays i args
      have hcarry : Link.Carry (w.adapterList adapters) a.advice (made.map link) :=
        Link.carry_map hcarries hsome hactions hmap
      refine ⟨⟨fun hselected => ?_, fun hmatched => ⟨hcarry, ?_⟩⟩, fun hmatched => ?_⟩
      · -- there is a link, and it says one thing only
        obtain ⟨i, hi⟩ := List.exists_mem_of_ne_nil made hsome
        have hmem := List.mem_map_of_mem (f := link) hi
        exact (hall _ hmem).unique w (hselected.2 _ hmem)
      · rwa [hmatched] at hall
      · rwa [hmatched] at hall

/-- In a chain that was worked out the links of an advisor stand together. They carry its
interceptors, and all say that they run on a call with the arguments, exactly if its
pointcut says that it matches the call, whether or not its class was asked about before;
if the pointcut does not match, none of them runs. Nor does an advisor whose advice is
supported make it fail to work the chain out. -/
theorem staged_selection_exact {asked : Questions} (hdistinct : asked.Distinct)
    {owner : MemoId → Expr} {m : Method} {t : Option TypeDesc} (hm : asked m t) {a : Advisor}
    (hadvisor : a.isIntroduction = false) (h : a.pointcut.TestedBy env tests owner)
    (adapters : AdaptersId) (preFiltered : Bool) (pre post : List Advisor) :
    (∀ w actions, w.Recalls tests asked owner →
      Adapter.anySupports (w.adapterList adapters) a.advice = true →
      Adapter.interceptions (w.adapterList adapters) a.advice = .ok actions →
      ∃ mine w', (Chain.turn env adapters preFiltered m t a).run w = some (.ok mine, w')) ∧
    ∀ w links w', w.Recalls tests asked owner →
      (∀ b ∈ pre, b.pointcut.Keeps env tests asked owner m t) →
      (Chain.standard env adapters (pre ++ a :: post) preFiltered m t).run w
        = some (.ok links, w') →
      ∃ before mine after w₁ w₂, links = before ++ mine ++ after ∧
        (Chain.linksOfAll env adapters preFiltered m t pre).run w = some (.ok before, w₁) ∧
        (Chain.turn env adapters preFiltered m t a).run w₁ = some (.ok mine, w₂) ∧
        w₂.Recalls tests asked owner ∧
        ∀ args, ∃ matched,
          Run.Answers tests asked owner (a.pointcut.matchesRuntime env m t args)
            (· = matched) ∧
          ((Link.Carry (w₁.adapterList adapters) a.advice mine ∧
            ∀ link ∈ mine, link.Says env m t args true) ↔ matched = true) ∧
          (matched = false → ∀ link ∈ mine, link.Says env m t args false) := by
  refine ⟨fun w actions hw hsupports hactions => ?_, fun w links w' hw hpre hchain => ?_⟩
  · obtain ⟨w₁, hponders, _, hcontributes⟩ :=
      Chain.turn_contributes adapters hdistinct hm hadvisor h preFiltered hw
    rcases hcontributes with ⟨hrun, _⟩ | ⟨link, _, _, hrun⟩
    · exact ⟨[], w₁, hrun⟩
    · rw [← hponders.adapterList_eq] at hsupports hactions
      obtain ⟨made, w₂, hmade⟩ := Adapter.interceptors_of_supports hsupports hactions w₁
      rw [hmade] at hrun
      exact ⟨_, w₂, hrun⟩
  · obtain ⟨before, mine, after, w₁, w₂, hlinks, hbefore, hmine⟩ := Chain.standard_turn hchain
    have hw₁ := Chain.linksOfAll_keeps adapters preFiltered hpre w _ w₁ hw hbefore
    have hw₂ := Chain.turn_keeps adapters preFiltered (h.keeps hdistinct hm) w₁ _ w₂ hw₁ hmine
    refine ⟨before, mine, after, w₁, w₂, hlinks, hbefore, hmine, hw₂, fun args => ?_⟩
    refine ⟨_, Pointcut.matchesRuntime_answers hdistinct hm h args, ?_⟩
    obtain ⟨w₃, hponders, _, hcontributes⟩ :=
      Chain.turn_contributes adapters hdistinct hm hadvisor h preFiltered hw₁
    rw [hmine] at hcontributes
    rw [← hponders.adapterList_eq]
    exact hcontributes.selects args

/-- Advice before those calls whose arguments user code accepts, for a pointcut that has a
memory. -/
def gatekeeper : Advisor where
  id := 0
  pointcut := .memo ⟨0⟩ (.argsMatching ⟨0⟩) none
  advice := .before ⟨0⟩

theorem gatekeeper_selected_exact :
    ∃ links w', (Chain.standard (Engine.env (Code.idle : Code Unit) 0) ⟨0⟩ [gatekeeper] false
        default none).run { user := (), memories := #[[]] } = some (.ok links, w') ∧
      ∃ before mine after, links = before ++ mine ++ after ∧ mine ≠ [] ∧
        ∀ link ∈ mine, link.Says (Engine.env (Code.idle : Code Unit) 0) default none [] true := by
  let asked : Questions := fun m t => m = default ∧ t = none
  have hdistinct : asked.Distinct := by
    rintro m t m' t' ⟨rfl, rfl⟩ ⟨rfl, rfl⟩ _ _
    exact ⟨rfl, rfl⟩
  have hw : World.Recalls { user := (), memories := #[[]] }
      ⟨fun _ _ _ => .ok true, fun _ _ => true⟩ asked fun _ => .argsMatching ⟨0⟩ :=
    (World.Recalls.initial ()).newMemo (p := .memo ⟨0⟩ (.argsMatching ⟨0⟩) none) rfl
  have htested : gatekeeper.pointcut.TestedBy (Engine.env (Code.idle : Code Unit) 0)
      ⟨fun _ _ _ => .ok true, fun _ _ => true⟩ fun _ => .argsMatching ⟨0⟩ :=
    ⟨rfl, fun _ => rfl⟩
  refine ⟨_, _, rfl, ?_⟩
  obtain ⟨before, mine, after, w₁, w₂, hlinks, _, _, _, hargs⟩ :=
    (staged_selection_exact hdistinct ⟨rfl, rfl⟩ rfl htested ⟨0⟩ false [] []).2 _ _ _ hw
      (fun b hb => absurd hb List.not_mem_nil) rfl
  obtain ⟨matched, hmatched, hselected, _⟩ := hargs []
  obtain ⟨answer, w₃, hrun, _, _, rfl⟩ := hmatched _ hw
  cases hrun
  obtain ⟨hcarry, hsays⟩ := hselected.mpr rfl
  exact ⟨before, mine, after, hlinks, hcarry.1, hsays⟩

end Aspects
