import Shortcode.Proofs.FastPaths
import Shortcode.Proofs.Templates

/-!
# What the policy decides

A handler is quiet if it uses no more than the state of its host: it sets no policy, renders no
text, which would read the policy, and registers nothing.  Quiet handlers end in one way under all
policies.  So the policy decides nothing but the texts of the tags that are left to it.  There is an
answer for each other occurrence, a text and an anchor, that all policies share, and the policy
fills in the rest.

    w.Quiet renderer.registry → ∃ calls ending, renderer.FillsIn text w calls ending
                                                                              (exists_fillsIn)

A policy also decides whether the ways around a rendering are taken; these change nothing.
-/

namespace Shortcode

open Result (Alike)

variable {σ : Type}

/-! ## Endings -/

namespace Result

variable {ε α β : Type}

/-- The value or the error that a computation ends with. -/
def outcome? : Result σ ε α → Option (Except ε α)
  | .ok a _ => some (.ok a)
  | .error e _ => some (.error e)
  | .tooDeep => none

/-- The world that a computation ends in. -/
def world? : Result σ ε α → Option (World σ)
  | .ok _ w => some w
  | .error _ w => some w
  | .tooDeep => none

/-- The computation that ends in this way. -/
def ofExcept (e : Except ε α) (w : World σ) : Result σ ε α :=
  match e with
  | .ok a => .ok a w
  | .error e => .error e w

@[simp] theorem outcome?_ofExcept (e : Except ε α) (w : World σ) :
    (ofExcept e w).outcome? = some e := by
  cases e <;> rfl

@[simp] theorem world?_ofExcept (e : Except ε α) (w : World σ) :
    (ofExcept e w).world? = some w := by
  cases e <;> rfl

theorem map_ofExcept (f : α → β) (e : Except ε α) (w : World σ) :
    (ofExcept e w).map f = ofExcept (e.map f) w := by
  cases e <;> rfl

theorem Alike.outcome?_eq {τ : Type} {R : World σ → World τ → Prop} {x : Result σ ε α}
    {y : Result τ ε α} (h : Alike R x y) : x.outcome? = y.outcome? := by
  cases h <;> rfl

theorem Alike.exists_world? {τ : Type} {R : World σ → World τ → Prop} {x : Result σ ε α}
    {y : Result τ ε α} (h : Alike R x y) {w : World σ} (hw : x.world? = some w) :
    ∃ v, y.world? = some v ∧ R w v := by
  cases h with
  | ok h =>
    cases hw
    exact ⟨_, rfl, h⟩
  | error h =>
    cases hw
    exact ⟨_, rfl, h⟩
  | tooDeep => cases hw

theorem Alike.exists_of_world? {τ : Type} {R : World σ → World τ → Prop} {x : Result σ ε α}
    {y : Result τ ε α} (h : Alike R x y) {v : World τ} (hv : y.world? = some v) :
    ∃ w, x.world? = some w ∧ R w v := by
  cases h with
  | ok h =>
    cases hv
    exact ⟨_, rfl, h⟩
  | error h =>
    cases hv
    exact ⟨_, rfl, h⟩
  | tooDeep => cases hv

end Result

/-! ## Quiet handlers -/

/-- The program uses the state of its host and may ask what is registered; it does nothing else. -/
inductive Action.Quiet : Action σ → Prop
  | done (result : Except Failure Replacement) : Quiet (.done result)
  | getState {next : σ → Action σ} : (∀ s, Quiet (next s)) → Quiet (.getState next)
  | setState {s : σ} {next : Action σ} : Quiet next → Quiet (.setState s next)
  | isRegistered {r : Registry} {tag : Text} {next : Bool → Action σ} :
      (∀ found, Quiet (next found)) → Quiet (.isRegistered r tag next)

/-- All calls of the handler are quiet. -/
def Handler.Quiet (handler : Handler σ) : Prop := ∀ invocation, (handler invocation).Quiet

/-- All handlers of the registry are quiet. -/
def World.Quiet (w : World σ) (r : Registry) : Prop :=
  ∀ tag handler, w.handler? r tag = some handler → handler.Quiet

/-- A quiet program ends in one way in all worlds with the same handlers and the same state of the
host, whatever their policies, and changes that state alone. -/
theorem Action.Quiet.exists_run {a : Action σ} (h : a.Quiet) (w : World σ) (s : σ) :
    ∃ result s', ∀ render (v : World σ), v.tables = w.tables → v.state = s →
      a.run render v = .ofExcept result { v with state := s' } := by
  induction h generalizing s with
  | done result =>
    refine ⟨result, s, fun render v _ hs => ?_⟩
    subst hs
    cases result <;> rfl
  | getState _ ih =>
    obtain ⟨result, s', hrun⟩ := ih s s
    refine ⟨result, s', fun render v htables hs => ?_⟩
    rw [run, hs]
    exact hrun render v htables hs
  | @setState state next _ ih =>
    obtain ⟨result, s', hrun⟩ := ih state
    exact ⟨result, s', fun render v htables _ => hrun render { v with state := state } htables rfl⟩
  | @isRegistered r tag next _ ih =>
    obtain ⟨result, s', hrun⟩ := ih (w.isRegistered r tag) s
    refine ⟨result, s', fun render v htables hs => ?_⟩
    rw [run, World.isRegistered_of_tables htables]
    exact hrun render v htables hs

theorem Action.Quiet.watched {a : Action σ} (h : a.Quiet) : (a.carried .watching).Quiet := by
  induction h with
  | done result => exact .done result
  | getState _ ih => exact .getState fun s => ih s.state
  | setState _ ih => exact .getState fun _ => .setState ih
  | isRegistered _ ih => exact .isRegistered ih

/-- The handlers of a watched host are quiet if those of the host are. -/
theorem World.Quiet.watched {w : World σ} {r : Registry} (hw : w.Quiet r)
    (calls : List Invocation) (n : Nat) : (w.watched calls n).Quiet r := by
  intro tag handler hhandler invocation
  rw [World.watched, handler?_carried] at hhandler
  obtain ⟨found, hfound, rfl⟩ := Option.map_eq_some_iff.1 hhandler
  exact .getState fun _ => .setState (hw tag found hfound invocation).watched

/-! ## Answers and what the policy fills in -/

/-- Where there is no answer, the text that the policy makes of the tag; it is not moved. -/
def Policy.fillIn (p : Policy) (source : Text) (o : Occurrence) (answer : Option Placed) : Placed :=
  answer.getD ⟨p.apply (o.text source) o.context.isBody, none⟩

namespace Rules

variable {w : World σ} {r : Registry} (source : Text) (d : Document) (spans : List Span)

/-- Going through `os` with the handlers of `w` and the state `s` comes to `ending`, whatever the
policy is, and leaves the state `s'`.  An occurrence has no answer if it is left to the policy. -/
structure Answers (w : World σ) (r : Registry) (os : List Occurrence) (s : σ)
    (ending : Except RenderError (List (Option Placed))) (s' : σ) : Prop where
  left : ∀ answers, ending = .ok answers → answers.map Option.isNone = os.map (w.leavesToPolicy r)
  settled : ∀ render (p : Policy) (v : World σ), v.tables = w.tables → v.state = s →
    ∃ u, u.tables = w.tables ∧ u.state = s' ∧
      (Rules.mk r p).resolveAll render source d spans os v =
        .ofExcept (ending.map (List.zipWith (p.fillIn source) os)) u

/-- What an occurrence is resolved to if its handler ends with `result`. -/
def returned (o : Occurrence) : Except Failure Replacement → Except RenderError Resolved
  | .ok x => .ok ⟨x.text, x.placement.getD (.ofArguments o.arguments)⟩
  | .error failure => .error ⟨o.name, failure⟩

/-- An occurrence with a quiet handler is resolved in one way under all policies. -/
theorem exists_resolve_of_quiet (hw : w.Quiet r) {o : Occurrence} (hcalls : w.calls r o = true)
    (s : σ) : ∃ result s', ∀ render (p : Policy) (v : World σ), v.tables = w.tables → v.state = s →
      (Rules.mk r p).resolve render source d o v =
        .ofExcept (returned o result) { v with state := s' } := by
  have hregistered : (w.handler? r o.name).isSome = true := (Bool.and_eq_true_iff.1 hcalls).2
  obtain ⟨handler, hhandler⟩ := Option.isSome_iff_exists.1 hregistered
  -- the invocation does not mention the policy
  obtain ⟨result, s', hrun⟩ := (hw o.name handler hhandler
    ((Rules.mk r .leave).invocation source d o)).exists_run w s
  refine ⟨result, s', fun render p v htables hs => ?_⟩
  have hrun' : (handler ((Rules.mk r p).invocation source d o)).run render v = _ :=
    hrun render v htables hs
  rw [resolve_of_calls (by rw [World.calls_of_tables htables]; exact hcalls)
    (by rw [World.handler?_of_tables htables]; exact hhandler), hrun']
  cases result <;> rfl

/-- One occurrence is settled in one way under all policies, or left to them. -/
theorem exists_answer (hw : w.Quiet r) (o : Occurrence) (s : σ) :
    ∃ (answer : Except RenderError (Option Placed)) (s' : σ),
      (∀ a, answer = .ok a → a.isNone = w.leavesToPolicy r o) ∧
      ∀ render (p : Policy) (v : World σ), v.tables = w.tables → v.state = s →
        ∃ u, u.tables = w.tables ∧ u.state = s' ∧
          (Rules.mk r p).settle render source d spans o v =
            .ofExcept (answer.map (p.fillIn source o)) u := by
  cases hleaves : w.leavesToPolicy r o with
  | true =>
    refine ⟨.ok none, s, fun a ha => by cases ha; rfl, fun render p v htables hs => ?_⟩
    rw [settle, resolve_of_leavesToPolicy ⟨r, p⟩ htables hleaves]
    exact ⟨v, htables, hs, rfl⟩
  | false =>
    rcases w.tag_cases r o with hescaped | hcalls | hleaves'
    · refine ⟨.ok (some ⟨o.unescaped source, none⟩), s, fun a ha => by cases ha; rfl,
        fun render p v htables hs => ?_⟩
      rw [settle, resolve_of_escaped hescaped]
      exact ⟨v, htables, hs, rfl⟩
    · obtain ⟨result, s', hresolve⟩ := exists_resolve_of_quiet source d hw hcalls s
      refine ⟨(returned o result).map fun x => some ⟨x.text, o.anchor? x.placement d spans⟩, s',
        fun a ha => ?_, fun render p v htables hs => ?_⟩
      · cases result with
        | error failure => cases ha
        | ok x =>
          cases ha
          rfl
      · rw [settle, hresolve render p v htables hs]
        cases result with
        | error failure => exact ⟨{ v with state := s' }, htables, rfl, rfl⟩
        | ok x =>
          have hcovers := covers_place o ⟨x.text, x.placement.getD (.ofArguments o.arguments)⟩ d
            spans { v with state := s' }
          exact ⟨_, hcovers.tables.trans htables, hcovers.state,
            congrArg (Result.ok · _) (place_fst ..)⟩
    · rw [hleaves] at hleaves'
      cases hleaves'

/-- With quiet handlers a walk through occurrences comes to the same answers under all policies. -/
theorem exists_answers (hw : w.Quiet r) (os : List Occurrence) (s : σ) :
    ∃ ending s', Answers source d spans w r os s ending s' := by
  induction os generalizing s with
  | nil =>
    exact ⟨.ok [], s, ⟨fun _ ha => by cases ha; rfl, fun _ _ v htables hs => ⟨v, htables, hs, rfl⟩⟩⟩
  | cons o rest ih =>
    obtain ⟨answer, s₁, hisNone, hone⟩ := exists_answer source d spans hw o s
    cases answer with
    | error e =>
      refine ⟨.error e, s₁, ⟨nofun, fun render p v htables hs => ?_⟩⟩
      obtain ⟨u, hu, hs₁, hsettle⟩ := hone render p v htables hs
      rw [resolveAll_cons, hsettle]
      exact ⟨u, hu, hs₁, rfl⟩
    | ok a =>
      obtain ⟨ending, s', hleft, hrest⟩ := ih s₁
      refine ⟨ending.map (a :: ·), s', ⟨fun answers ha => ?_, fun render p v htables hs => ?_⟩⟩
      · cases ending with
        | error e => cases ha
        | ok more =>
          cases ha
          rw [List.map_cons, List.map_cons, hisNone a rfl, hleft more rfl]
      · obtain ⟨u, hu, hs₁, hsettle⟩ := hone render p v htables hs
        obtain ⟨u', hu', hs', hall⟩ := hrest render p u hu hs₁
        refine ⟨u', hu', hs', ?_⟩
        rw [resolveAll_cons, hsettle]
        show Result.map _ (resolveAll render ⟨r, p⟩ source d spans rest u) = _
        rw [hall, Result.map_ofExcept]
        cases ending <;> rfl

end Rules

/-! ## Main statement -/

namespace Renderer

/-- The rendering of a text makes `calls` and comes to `ending`, whatever the policy of the world is
and whatever the renderer takes in its place. -/
structure FillsIn (renderer : Renderer σ) (text : Text) (w : World σ) (calls : List Invocation)
    (ending : Except RenderError (List (Option Placed))) : Prop where
  /-- The occurrences without an answer are those that are left to the policy: stray close tags and
  tags without a handler, unless they are escaped. -/
  left : ∀ answers, ending = .ok answers →
    answers.map Option.isNone =
      (renderer.scan text w).occurrences.map (w.leavesToPolicy renderer.registry)
  /-- Each policy settles every occurrence as its answer says, with the same anchors, and fills in
  the others, or comes to the same error. -/
  settled : ∀ (p wide : Policy) (render : Rendering σ),
    let scan := renderer.scan text w
    let analysis := renderer.analyzer text scan.markup w.state
    ((Rules.mk renderer.registry p).resolveAll render text analysis.1
      (scan.occurrences.map (·.span)) scan.occurrences
      { w with policy := wide, state := analysis.2 }).outcome? =
        some (ending.map (List.zipWith (p.fillIn text) scan.occurrences))
  /-- The output is put together from these, also where a way around is taken. -/
  output : ∀ (own : Option Policy) (wide : Policy) (depth : Nat),
    let scan := renderer.scan text w
    (renderWithin (depth + 1) { renderer with policy := own } text
      { w with policy := wide }).outcome? =
        some (ending.map fun answers => Segment.assemble text scan.segments
          (List.zipWith ((own.getD wide).fillIn text) scan.occurrences answers))
  /-- These are the calls that are noted. -/
  calls : ∀ (own : Option Policy) (wide : Policy) (depth : Nat),
    ∃ v, (renderWithin (depth + 1) (Renderer.watched { renderer with policy := own }) text
      (World.watched { w with policy := wide } [] 0)).world? = some v ∧ v.state.calls = calls

variable {renderer : Renderer σ} {text : Text} {w : World σ}

/-- A thorough rendering puts together what the walk through its occurrences comes to. -/
theorem thoroughStep_of_answers {s' : σ} {ending : Except RenderError (List (Option Placed))}
    (h : Rules.Answers text (renderer.analyzer text (renderer.scan text w).markup w.state).1
      ((renderer.scan text w).occurrences.map (·.span)) w renderer.registry
      (renderer.scan text w).occurrences
      (renderer.analyzer text (renderer.scan text w).markup w.state).2 ending s')
    (render : Rendering σ) (own : Option Policy) (wide : Policy) :
    ∃ u : World σ, u.state = s' ∧
      thoroughStep render { renderer with policy := own } text { w with policy := wide } =
        .ofExcept (ending.map fun answers => Segment.assemble text (renderer.scan text w).segments
          (List.zipWith ((own.getD wide).fillIn text) (renderer.scan text w).occurrences answers))
          u := by
  obtain ⟨u, -, hs, hall⟩ := h.settled render (own.getD wide)
    { w with
      policy := wide
      state := (renderer.analyzer text (renderer.scan text w).markup w.state).2 }
    rfl rfl
  refine ⟨u, hs, ?_⟩
  show Rules.renderSegments render ⟨renderer.registry, own.getD wide⟩ text
    (renderer.scan text w).segments _ _ = _
  rw [Rules.renderSegments_eq_map]
  refine (congrArg (Result.map _) hall).trans ?_
  rw [Result.map_ofExcept]
  cases ending <;> rfl

/-- **The policy only touches unregistered tags.**  With quiet handlers a text is rendered under all
policies with the same calls, the same relocations and the same texts of all tags that are escaped
or have a handler, or fails with the same error.  The outputs differ only in what the policy makes
of the other tags. -/
theorem exists_fillsIn (renderer : Renderer σ) (text : Text) (w : World σ)
    (hw : w.Quiet renderer.registry) : ∃ calls ending, renderer.FillsIn text w calls ending := by
  obtain ⟨ending, s', h⟩ := Rules.exists_answers text
    (renderer.analyzer text (renderer.scan text w).markup w.state).1
    ((renderer.scan text w).occurrences.map (·.span)) hw (renderer.scan text w).occurrences
    (renderer.analyzer text (renderer.scan text w).markup w.state).2
  -- the same walk on a watched host, whose state holds the calls
  obtain ⟨_, s'', hwatched⟩ := Rules.exists_answers text
    (renderer.watched.analyzer text (renderer.watched.scan text (w.watched [] 0)).markup
      (w.watched [] 0).state).1
    ((renderer.watched.scan text (w.watched [] 0)).occurrences.map (·.span)) (hw.watched [] 0)
    (renderer.watched.scan text (w.watched [] 0)).occurrences
    (renderer.watched.analyzer text (renderer.watched.scan text (w.watched [] 0)).markup
      (w.watched [] 0).state).2
  refine ⟨s''.calls, ending, h.left, fun p wide render => ?_, fun own wide depth => ?_,
    fun own wide depth => ?_⟩
  · obtain ⟨u, -, -, hall⟩ := h.settled render p { w with
      policy := wide
      state := (renderer.analyzer text (renderer.scan text w).markup w.state).2 } rfl rfl
    show Result.outcome? _ = _
    rw [hall, Result.outcome?_ofExcept]
  · obtain ⟨u, -, hstep⟩ := thoroughStep_of_answers h (fun r => renderWithin depth (.standard r))
      own wide
    rw [renderWithin, (alike_step _ _ _ _).outcome?_eq, hstep]
    exact Result.outcome?_ofExcept _ _
  · obtain ⟨u, hu, hstep⟩ := thoroughStep_of_answers hwatched
      (fun r => thoroughWithin depth (.standard r)) own wide
    have hthorough : (thoroughWithin (depth + 1) (Renderer.watched { renderer with policy := own })
        text (World.watched { w with policy := wide } [] 0)).world? = some u := by
      show Result.world? (thoroughStep _ _ _ _) = _
      exact (congrArg Result.world? hstep).trans (Result.world?_ofExcept _ _)
    obtain ⟨v, hv, hcalls⟩ := (alike_calls { renderer with policy := own } text
      { w with policy := wide } (depth + 1) 0 []).exists_of_world? hthorough
    exact ⟨v, hv, by rw [hcalls, hu]⟩

/-- A tag with a handler is moved in front of its block, another is escaped, and three are left to
the policy: one in an attribute value, one in ordinary text and a stray close tag. -/
theorem exists_fillsIn_relocated :
    (let r : Registry := ⟨0, []⟩;
    let count : Handler Nat := fun i => .getState fun n => .isRegistered r i.name fun _ =>
      .setState (n + 1) (.give (Text.ofNat n) none);
    let w : World Nat :=
      ((World.initial 7).newRegistry []).2.register r (Text.ofString "count") count;
    let text := Text.ofString
      "<p title='[x]'>[x][[y]][/count][count class=left]</p>";
    let output := fun p : Policy =>
      ((standard r).renderWithin 1 text { w with policy := p }).value?;
    w.Quiet r ∧ (∃ calls ending, (standard r).FillsIn text w calls ending) ∧
      output .strip = some (Text.ofString "7<p title=''>[y]</p>") ∧
      output .warn = some (Text.ofString
        ("7<p title='[x]'><strong class=\"warning\">[x]</strong>" ++
          "[y]<strong class=\"warning\">[/count]</strong></p>")) ∧
      output .leave = some (Text.ofString "7<p title='[x]'>[x][y][/count]</p>")) := by
  intro r count w text output
  have hw : w.Quiet r := by
    intro tag handler hhandler invocation
    rcases World.handler?_register hhandler with rfl | hnone
    · exact .getState fun _ => .isRegistered fun _ => .setState (.done _)
    · cases hnone
  exact ⟨hw, exists_fillsIn (standard r) text w hw, by decide +kernel, by decide +kernel,
    by decide +kernel⟩

end Renderer

end Shortcode
