import Aspects.Proofs.Registering.Layouts
import Aspects.Proofs.Steps.Engine

/-!
# A registry that grows

A configuration has a list of adapters, its registry, and while it is used the registry may
gain adapters: between two commands, and that is wherever user code may be running. The
engine does not register adapters itself, so the runs are taken here with something that
does so after every command (`Engine.growing`), whatever it may go by.

If the adapters of a registry are faithful, which is to say that they make an interceptor of
all advice that they claim to understand, and those that it gains are so as well, then a
configuration in order stays so. That is a trail (`Trail.orderly`).
-/

namespace Aspects

variable {σ : Type} {α : Type} {code : Code σ} {w w₁ w₂ : World σ} {id : ConfigId}
  {a : AdaptersId}

/-- The adapter makes an interceptor of all advice that it claims to understand. -/
def Adapter.Faithful (adapter : Adapter) : Prop :=
  ∀ a, adapter.supports a = true → ∃ i, adapter.interception? a = .ok i

/-- The adapters that every list starts with are faithful. -/
theorem Adapter.faithful_of_mem_builtIn {adapter : Adapter} (h : adapter ∈ builtIn) :
    adapter.Faithful := by
  intro a hs
  simp only [builtIn, List.mem_cons, List.not_mem_nil, or_false] at h
  -- each of them understands one kind of advice
  rcases h with rfl | rfl | rfl | rfl | rfl <;> cases a <;>
    first
    | exact ⟨_, rfl⟩
    | cases hs

/-- Faithful adapters were registered in the list, and nothing was done to configurations. -/
structure World.Gains (a : AdaptersId) (w w' : World σ) : Prop where
  configs_eq : w'.configs = w.configs
  size_le : w.adapters.size ≤ w'.adapters.size
  gained : ∃ more, w'.adapterList a = w.adapterList a ++ more ∧
    ∀ adapter ∈ more, adapter.Faithful

/-- The configuration has the registry, all adapters of the registry are faithful, and the
layout is in order with them. -/
structure World.InOrder (w : World σ) (id : ConfigId) (a : AdaptersId) : Prop where
  known : id.index < w.configs.size
  adapters_eq : (w.config id).adapters = a
  registered : a.index < w.adapters.size
  faithful : ∀ adapter ∈ w.adapterList a, adapter.Faithful
  orderly : (w.config id).layout.Orderly (w.adapterList a)

/-- The configuration is in order in the second world, the registry has at most gained
adapters since the first, and chains are made as they were then. -/
structure World.KeepsOrder (w w' : World σ) (id : ConfigId) (a : AdaptersId) : Prop where
  inOrder : w'.InOrder id a
  adapters : w.adapterList a <+: w'.adapterList a
  chainMaker_eq : (w'.config id).chainMaker = (w.config id).chainMaker

namespace World.KeepsOrder

theorem refl (h : w.InOrder id a) : w.KeepsOrder w id a :=
  ⟨h, List.prefix_refl _, rfl⟩

theorem trans (h : w.KeepsOrder w₁ id a) (h' : w₁.KeepsOrder w₂ id a) :
    w.KeepsOrder w₂ id a :=
  ⟨h'.inOrder, h.adapters.trans h'.adapters, h'.chainMaker_eq.trans h.chainMaker_eq⟩

end World.KeepsOrder

/-! ## What keeps a configuration in order -/

/-- A configuration that was just made. -/
theorem World.config_made {c : Configuration} (h : Configuration.make c w = some (id, w₁)) :
    w₁.config id = c.fresh w := by
  cases h
  exact World.config_push_self rfl _

namespace World.InOrder

/-- It is enough that the configuration has the same shape and the registry is the same. -/
theorem of_shape (h : w.InOrder id a) (hsize : w.configs.size ≤ w₁.configs.size)
    (hadapters : w.adapters.size ≤ w₁.adapters.size)
    (hlist : w₁.adapterList a = w.adapterList a)
    (hshape : (w.config id).SameShape (w₁.config id)) : w.KeepsOrder w₁ id a where
  inOrder := by
    refine ⟨Nat.lt_of_lt_of_le h.known hsize, hshape.adapters_eq.trans h.adapters_eq,
      Nat.lt_of_lt_of_le h.registered hadapters, ?_, ?_⟩
    · rw [hlist]
      exact h.faithful
    · rw [hlist, hshape.layout_eq]
      exact h.orderly
  adapters := hlist ▸ List.prefix_refl _
  chainMaker_eq := hshape.chainMaker_eq

/-- Nothing but the configurations and the adapters matters. -/
theorem of_eq (h : w.InOrder id a) (hconfigs : w₁.configs = w.configs)
    (hadapters : w₁.adapters = w.adapters) : w.KeepsOrder w₁ id a := by
  refine h.of_shape (Nat.le_of_eq (by rw [hconfigs])) (Nat.le_of_eq (by rw [hadapters]))
    (adapterList_congr hadapters a) ?_
  rw [config_congr hconfigs]
  exact .refl _

theorem record (h : w.InOrder id a) (e : Entry) : w.KeepsOrder (w.record e) id a :=
  h.of_eq rfl rfl

theorem stir (h : w.InOrder id a) (hs : Stir w w₁) : w.KeepsOrder w₁ id a :=
  h.of_shape hs.change.outgrows.size_le hs.change.outgrows.adapters_le
    (hs.change.outgrows.adapterList_eq a h.registered) (hs.shape id h.known)

theorem keepChain (h : w.InOrder id a) (id' : ConfigId) (q : ChainQuery) (generation : Nat)
    (links : List Link) : w.KeepsOrder (w.keepChain id' q generation links) id a := by
  have hgrown := w.keepChain_outgrows id' q generation links
  refine h.of_shape hgrown.size_le hgrown.adapters_le (hgrown.adapterList_eq a h.registered) ?_
  by_cases he : id = id'
  · subst he
    rw [config_keepChain_self h.known]
    exact ⟨rfl, rfl, rfl⟩
  · rw [config_keepChain_other he]
    exact .refl _

/-- Faithful adapters may be registered. -/
theorem gains (h : w.InOrder id a) (hg : World.Gains a w w₁) : w.KeepsOrder w₁ id a := by
  obtain ⟨more, hlist, hmore⟩ := hg.gained
  have hconfig : w₁.config id = w.config id := config_congr hg.configs_eq id
  refine ⟨⟨?_, ?_, Nat.lt_of_lt_of_le h.registered hg.size_le, fun adapter hadapter => ?_, ?_⟩,
    ⟨more, hlist.symm⟩, by rw [hconfig]⟩
  · rw [hg.configs_eq]
    exact h.known
  · rw [hconfig]
    exact h.adapters_eq
  · rw [hlist] at hadapter
    rcases List.mem_append.mp hadapter with hold | hnew
    · exact h.faithful adapter hold
    · exact hmore adapter hnew
  · rw [hconfig, hlist]
    exact h.orderly.append more

/-- A configuration may get a layout that is in order, any other one any layout. -/
theorem restructured (h : w.InOrder id a) {id' : ConfigId} {l : Layout}
    (hl : id' = id → l.Orderly (w.adapterList a)) (action : String) :
    w.KeepsOrder (w.restructured id' action l) id a := by
  by_cases he : id' = id
  · subst he
    have hconfig := World.config_restructured h.known action l
    refine ⟨⟨?_, ?_, h.registered, h.faithful, ?_⟩, List.prefix_refl _, by rw [hconfig]; rfl⟩
    · show id'.index < (w.restructured id' action l).configs.size
      simp only [World.restructured, World.record, World.setConfig, Array.size_setIfInBounds]
      exact h.known
    · rw [hconfig]
      exact h.adapters_eq
    · rw [hconfig]
      exact hl rfl
  · have hother : (w.restructured id' action l).config id = w.config id :=
      config_setConfig_other (Ne.symm he) _
    refine h.of_shape ?_ (Nat.le_refl _) rfl (by rw [hother]; exact .refl _)
    simp [World.restructured, World.record, World.setConfig]

theorem woken (h : w.InOrder id a) (id' : ConfigId) : w.KeepsOrder (w.woken id') id a := by
  refine h.of_shape (by simp [World.woken, World.record, World.setConfig]) (Nat.le_refl _) rfl ?_
  by_cases he : id' = id
  · subst he
    rw [World.config_woken h.known]
    exact ⟨rfl, rfl, rfl⟩
  · have hother : (w.woken id').config id = w.config id := config_setConfig_other (Ne.symm he) _
    rw [hother]
    exact .refl _

/-- A configuration as a factory begins with it, with a registry that exists. -/
theorem made {c : Configuration} {ts : List TypeDesc} (hlayout : c.layout = .ofInterfaces ts)
    (hregistered : c.adapters.index < w.adapters.size)
    (hfaithful : ∀ adapter ∈ w.adapterList c.adapters, adapter.Faithful)
    (hmade : Configuration.make c w = some (id, w₁)) : w₁.InOrder id c.adapters := by
  have hconfig := World.config_made hmade
  cases hmade
  refine ⟨by simp, ?_, hregistered, hfaithful, ?_⟩
  · rw [hconfig]
    exact if_pos hregistered
  · rw [hconfig]
    show c.layout.Orderly _
    rw [hlayout]
    exact .ofInterfaces _ ts

end World.InOrder

/-! ## The trail -/

/-- The configuration was in order at the start, and stays so. -/
def Trail.orderly (code : Code σ) (start : World σ) (id : ConfigId) (a : AdaptersId) :
    Trail code where
  holds w := start.KeepsOrder w id a
  leads w w' := w.InOrder id a → w.KeepsOrder w' id a
  runs _ := True
  refl _ := .refl
  trans h h' hw := (h hw).trans (h' (h hw).inOrder)
  onward hw h := hw.trans (h hw.inOrder)
  stir hs hw := hw.stir hs
  keep id' m _ links _ _ _ hworking hw :=
    (hworking hw).trans ((hworking hw).inOrder.keepChain id' _ _ links)
  lent _ _ hw := hw.trans (hw.inOrder.record _)
  returned _ _ hw := hw.trans (hw.inOrder.record _)
  lend s o hduring hafter hw := by
    have hlent := hw.record (.acquired s o)
    have hback := hlent.trans (hduring hlent.inOrder)
    have hreturned := hback.trans (hback.inOrder.record (.released s o))
    exact hreturned.trans (hafter hreturned.inOrder)

namespace Trail

variable {start : World σ} {env env' : Env σ}

theorem orderly_exposes : (Trail.orderly code start id a).Exposes where
  exposing _ hw := hw.trans (hw.inOrder.of_eq rfl rfl)
  expose {w _} proxy hduring hw := by
    have hexposed : w.KeepsOrder { w with current := some proxy } id a := hw.of_eq rfl rfl
    have hended := hexposed.trans (hduring hexposed.inOrder)
    exact hended.trans (hended.inOrder.of_eq rfl rfl)

/-- Listeners are told in a world in order, and each leaves it in order. -/
theorem orderly_round {entry : Routine → Entry} {v : World σ} (h : w.KeepsOrder w₁ id a)
    (hround : (Trail.orderly code start id a).Round entry w₁ v) : w.KeepsOrder v id a := by
  induction hround with
  | start => exact h
  | told l _ ih => exact ih.trans (ih.inOrder.record _)
  | onward _ hl ih => exact ih.trans (hl ih.inOrder)

theorem orderly_tells (henv : env.Tracks (.orderly code start id a) env') :
    (Trail.orderly code start id a).Tells env env' := by
  -- the layout is all that an edit changes of what has to be in order; the listeners that are
  -- told of it find it in order already
  refine .of_edits (fun {_ w id' c e} action hw hc => ?_) fun id' => ?_
  · have hkept (x) (l : Layout) (he : e (w.config id').layout = .ok (x, some l))
        (hin : w.InOrder id a) : w.KeepsOrder (w.restructured id' action l) id a := by
      refine hin.restructured (fun heq => ?_) action
      subst heq
      have horder := hc.keepsOrder
      rw [hin.adapters_eq] at horder
      exact horder _ x l hin.orderly he
    exact Configuration.edit_tracksFrom henv hw id' action e
      (fun x l he _ hin => hkept x l he hin)
      fun x l v he _ _ hround hin => orderly_round (hkept x l he hin) hround
  · exact Configuration.activate_tracks henv id' (fun w _ hin => hin.woken id')
      fun w v _ _ hround hin => orderly_round (hin.woken id') hround

end Trail

/-! ## Runs in which the registry grows -/

namespace Engine

/-- The environment with room for so many levels of nested commands, in which adapters may
be registered after each of them. -/
def growing (code : Code σ) (grow : World σ → World σ) : Nat → Env σ
  | 0 => ⟨code, fun _ _ => none⟩
  | room + 1 => ⟨code, fun c => do
      let answer ← meaning (growing code grow room) c
      modify grow
      return answer⟩

open Classical in
/-- The same environment, where a command is carried out only if the property holds. -/
noncomputable def growingWatched (code : Code σ) (grow : World σ → World σ)
    (P : World σ → Prop) : Nat → Env σ
  | 0 => ⟨code, fun _ _ => none⟩
  | room + 1 => ⟨code, fun c w =>
      if P w then (do
        let answer ← meaning (growingWatched code grow P room) c
        modify grow
        return answer : Run σ _) w
      else none⟩

/-- The property holds wherever the program, or user code that it leads to, has a command
carried out, and where the program ends, with adapters registered all the while. -/
def ThroughoutGrowing (code : Code σ) (grow : World σ → World σ) (room : Nat)
    (p : Action σ α) (w : World σ) (P : World σ → Prop) : Prop :=
  (growingWatched code grow P room).run p w = (growing code grow room).run p w ∧
    ∀ answer w', (growing code grow room).run p w = some (answer, w') → P w'

variable {start : World σ} {grow : World σ → World σ} (hgrow : ∀ w, World.Gains a w (grow w))
include hgrow

theorem grow_tracks : Tracks (.orderly code start id a) (modify grow : Run σ Unit) (modify grow) :=
  fun _ _ => .change (fun _ => PUnit.unit) fun hin => hin.gains (hgrow _)

theorem growing_tracks (room : Nat) :
    (growing code grow room).Tracks (.orderly code start id a) (growing code grow room) := by
  induction room with
  | zero => exact ⟨rfl, rfl, fun _ => .nothing⟩
  | succ room ih =>
    refine ⟨rfl, rfl, fun c => .bind ?_ fun _ => .bind (grow_tracks hgrow) fun _ => .pure _⟩
    exact meaning_tracks trivial ih (Trail.orderly_tells ih) c
      (proxyCall_tracks trivial ih Trail.orderly_exposes c)

theorem growingWatched_tracks {P : World σ → Prop}
    (hP : ∀ w, start.KeepsOrder w id a → P w) (room : Nat) :
    (growing code grow room).Tracks (.orderly code start id a)
      (growingWatched code grow P room) := by
  induction room with
  | zero => exact ⟨rfl, rfl, fun _ => .nothing⟩
  | succ room ih =>
    refine ⟨rfl, rfl, fun c w hw => ?_⟩
    have hmeaning := meaning_tracks trivial ih (Trail.orderly_tells ih) c
      (proxyCall_tracks trivial ih Trail.orderly_exposes c)
    have hc := Tracks.bind hmeaning (fun x => .bind (grow_tracks hgrow) fun _ => .pure x) w hw
    exact ⟨(if_pos (hP w hw)).trans hc.same, hc.leads⟩

/-- What holds of a configuration that has stayed in order holds throughout every run. -/
theorem throughoutGrowing {P : World σ → Prop} (h : start.InOrder id a)
    (hP : ∀ w, start.KeepsOrder w id a → P w) (room : Nat) (p : Action σ α) :
    ThroughoutGrowing code grow room p start P := by
  have htracks : (growing code grow room).Tracks (.orderly code start id a)
      (growingWatched code grow P room) := growingWatched_tracks hgrow hP room
  have hrun := htracks.run (fun _ => p) start (.refl h)
  exact ⟨hrun.same, fun _ w' ha => hP w' (hrun.leads _ w' ha h)⟩

end Engine

end Aspects
