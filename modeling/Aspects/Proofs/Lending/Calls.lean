import Aspects.Proofs.Lending.Nesting
import Aspects.Proofs.Observing.Calls

/-!
# Every target on loan is given back

A call to a proxy ends in one of three ways (`Proxy.Course`). Its source has nothing to
give and fails, and so does the call. Or there is no target, or one that its source does
not want back, and the call goes on and ends with nothing given back. Or the target is on
loan: the call goes on, whatever becomes of it, and then that target is given back to
that source, once. The source is the one that the configuration had when the call began,
whichever it has afterwards, and what comes of giving back makes no difference to what
the call answers.

What user code does meanwhile may be calls to proxies as well. They are nested in this one
(`World.Nests`), and so are all the calls of a run.
-/

namespace Aspects

variable {σ : Type} {α : Type} {code : Code σ} {room : Nat} {w w' : World σ}

/-- The world once a target was given back: a failure to take it is reported. -/
def World.afterRelease (w : World σ) (s : SourceId) : Outcome Unit → World σ
  | .ok _ => w
  | .error e => w.record (.event ⟨.warn, "Failed to release target",
      [("source", (w.source s).inspect), ("error", e.display)]⟩)

/-- The world when a call to the proxy, which began in `w`, is over. -/
def World.leaving (w : World σ) (id : ConfigId) (w₁ : World σ) : World σ :=
  if (w.config id).flags.exposeProxy then { w₁ with current := w.current } else w₁

namespace Proxy

/-- The course of a call that gets its target from the source `s`: what it comes to, and
the worlds in between. -/
inductive Course (env : Env σ) (proxy : Object) (id : ConfigId) (s : SourceId) (m : Method)
    (args : List Value) (w : World σ) : Outcome Value → World σ → Prop
  /-- The source fails, and nothing is given back. -/
  | failed {e : Failure} {w₁ : World σ} :
    (Source.acquire env s).run w = some (.error e, w₁) → w.Nests w₁ →
    Course env proxy id s m args w (.error e) w₁
  /-- There is no target, or one that the source does not want back. -/
  | kept {target : Option Object} {o : Outcome Value} {w₁ w₂ : World σ} :
    (Source.acquire env s).run w = some (.ok target, w₁) → w.Nests w₁ →
    target = none ∨ (w₁.source s).isStatic = true →
    (callOn env proxy id s target m args).run w₁ = some (o, w₂) → w₁.Nests w₂ →
    Course env proxy id s m args w o w₂
  /-- The target is on loan, and it is given back once. -/
  | lent {target : Object} {o : Outcome Value} {answer : Outcome Unit}
    {w₁ w₂ w₃ : World σ} :
    (Source.acquire env s).run w = some (.ok (some target), w₁) → w.Nests w₁ →
    (w₁.source s).isStatic = false →
    (callOn env proxy id s (some target) m args).run (w₁.record (.acquired s target))
      = some (o, w₂) → (w₁.record (.acquired s target)).Nests w₂ →
    (Source.release env s target).run (w₂.record (.released s target)) = some (answer, w₃) →
    (w₂.record (.released s target)).Nests w₃ →
    Course env proxy id s m args w o (w₃.afterRelease s answer)

/-- Putting a target back is asking its source to take it, and reporting that it failed. -/
theorem putBack_eq (env : Env σ) (s : SourceId) (o : Object) (w : World σ) :
    putBack env s o w
      = ((Source.release env s o).run w).map fun (answer, w₁) =>
          ((), w₁.afterRelease s answer) := by
  show ((Source.release env s o).run w).bind _ = _
  cases (Source.release env s o).run w with
  | none => rfl
  | some r =>
    obtain ⟨_ | _, w₁⟩ := r
    · rfl
    · rfl

section Through

variable {proxy : Object} {id : ConfigId} {s : SourceId} {m : Method} {args : List Value}
  {o : Outcome Value}

/-- A call, from getting its target to giving it back, takes one of the three courses. -/
theorem Course.of_run
    (h : (callThrough (Engine.env code room) proxy id m args).run w = some (o, w')) :
    Course (Engine.env code room) proxy id (w.config id).source m args w o w' := by
  have htracks (start : World σ) := Engine.env_steps code start room
  have hcall {t : Option Object} {w₀ w₂ : World σ} {o₁ : Outcome Value}
      (hgone : (callOn (Engine.env code room) proxy id (w.config id).source t m args).run w₀
        = some (o₁, w₂)) :=
    Tracks.nests (fun start => callOn_tracks ((Trail.steps_passes code start).runs room)
      (htracks start) proxy _ _ _ m args) hgone
  unfold callThrough at h
  rw [Configuration.run_reading, Act.run_bind] at h
  obtain ⟨⟨outcome, w₁⟩, hacquired, hrest⟩ := Option.bind_eq_some_iff.mp h
  have hbefore := Tracks.nests (fun start => Source.acquire_tracks (htracks start) _) hacquired
  cases outcome with
  | error e =>
    cases hrest
    exact .failed hacquired hbefore
  | ok target =>
    by_cases hkept : target = none ∨ (w₁.source (w.config id).source).isStatic = true
    · simp only [returning_static _ _ _ _ _ hkept] at hrest
      exact .kept hacquired hbefore hkept hrest (hcall hrest)
    · obtain ⟨hsome, hdynamic⟩ := not_or.mp hkept
      obtain ⟨target, rfl⟩ := Option.ne_none_iff_exists'.mp hsome
      rw [Bool.not_eq_true] at hdynamic
      simp only [returning_dynamic _ _ _ _ _ hdynamic, putBack_eq] at hrest
      obtain ⟨⟨o', w₂⟩, hgone, hrest⟩ := Option.bind_eq_some_iff.mp hrest
      rw [Option.map_map] at hrest
      obtain ⟨⟨answer, w₃⟩, hgiven, hrest⟩ := Option.map_eq_some_iff.mp hrest
      cases hrest
      exact .lent hacquired hbefore hdynamic hgone (hcall hgone) hgiven
        (Tracks.nests (fun start => Source.release_tracks (htracks start) _ _) hgiven)

/-- Each of the three courses is one that a call takes. -/
theorem Course.run {env : Env σ} (h : Course env proxy id (w.config id).source m args w o w') :
    (callThrough env proxy id m args).run w = some (o, w') := by
  unfold callThrough
  rw [Configuration.run_reading, Act.run_bind]
  cases h with
  | failed hacquired _ =>
    rw [hacquired]
    rfl
  | kept hacquired _ hkept hgone _ =>
    rw [hacquired, Option.bind_some]
    exact (returning_static _ _ _ _ _ hkept).trans hgone
  | lent hacquired _ hdynamic hgone _ hgiven _ =>
    rw [hacquired, Option.bind_some]
    refine (returning_dynamic _ _ _ _ _ hdynamic).trans ?_
    simp only [hgone, Option.bind_some, putBack_eq, hgiven, Option.map_some]

end Through

/-- The same of the whole call, in whose course the proxy is current if its configuration
exposes it. -/
theorem call_course (proxy : Object) (id : ConfigId) (m : Method) (args : List Value)
    (o : Outcome Value) :
    (call (Engine.env code room) proxy id m args).run w = some (o, w') ↔
      ∃ w₁, Course (Engine.env code room) proxy id (w.config id).source m args
        (w.entering proxy id) o w₁ ∧ w' = w.leaving id w₁ := by
  have hconfig : (w.entering proxy id).config id = w.config id := by
    unfold World.entering
    split
    · rfl
    · rfl
  have hcourse (w₁ : World σ) :
      Course (Engine.env code room) proxy id (w.config id).source m args
          (w.entering proxy id) o w₁ ↔
        (callThrough (Engine.env code room) proxy id m args).run (w.entering proxy id)
          = some (o, w₁) := by
    rw [← hconfig]
    exact ⟨Course.run, Course.of_run⟩
  simp only [hcourse]
  unfold call World.leaving World.entering
  rw [Configuration.run_reading]
  cases (w.config id).flags.exposeProxy with
  | false => simp
  | true =>
    simp only [if_true]
    rw [run_exposing, Option.map_eq_some_iff]
    constructor
    · rintro ⟨⟨o', w₁⟩, hr, hk⟩
      cases hk
      exact ⟨w₁, hr, rfl⟩
    · rintro ⟨w₁, hr, rfl⟩
      exact ⟨(o, w₁), hr, rfl⟩

end Proxy

/-- Every run leaves loans behind that are nested. A call to a proxy in it comes to an end
exactly by one of the three courses of `Proxy.Course`, whatever user code does meanwhile:
a target on loan is given back once, to the source that it was got from, and no other
target is. -/
theorem loans_given_back (code : Code σ) (room : Nat) :
    (∀ (p : Action σ α) w a w', Engine.run code room p w = some (a, w') → w.Nests w') ∧
      ∀ w proxy id m args o w',
        (Proxy.call (Engine.env code room) proxy id m args).run w = some (o, w') ↔
          ∃ w₁, Proxy.Course (Engine.env code room) proxy id (w.config id).source m args
            (w.entering proxy id) o w₁ ∧ w' = w.leaving id w₁ := by
  refine ⟨fun p w a w' h => ?_, fun w proxy id m args o w' => ?_⟩
  · exact Tracks.nests (fun start => (Engine.env_steps code start room).run fun _ => p) h
  · exact Proxy.call_course proxy id m args o

/-- A call that fails, to an object without methods which can be exchanged. -/
def lentCall : Action Unit (Outcome Value) := do
  let s ← .ofCommand (.newSource (.swappable ⟨.root, 0, .entity "target"⟩))
  let c ← .ofCommand (.newConfig { source := s })
  .ofCommand (.call (some ⟨.root, 1, .proxy c .byInterface false⟩) default [])

/-- The object is given back all the same. -/
example :
    (Engine.run Code.idle 2 lentCall { user := () }).map
        (fun r => (r.1.isOk, r.2.journal.filter Entry.isLoan))
      = some (false, [.released ⟨0⟩ ⟨.root, 0, .entity "target"⟩,
          .acquired ⟨0⟩ ⟨.root, 0, .entity "target"⟩]) :=
  rfl

end Aspects
