import Shortcode.Proofs.Untouched
import Shortcode.Proofs.Watching

/-!
# Ways around a rendering

A text without a `[`, or with white space only, is not scanned, and a text without an actionable tag
is neither analysed nor put together again.  A thorough rendering does all of it for every text.
The two end alike: with the same text or error, after the same calls, with the same handlers.  Only
the thorough one looks for the elements of a text with nothing to do, and only the other one logs
that there was nothing to do.

    Alike (renderer.Agrees text w)
      (renderer.renderWithin depth text w) (renderer.thoroughWithin depth text w)
                                                                       (alike_thoroughWithin)
-/

namespace Shortcode

open Result (Alike)

variable {σ : Type}

/-! ## Thorough renderings -/

namespace Renderer

/-- Renders a text, always with a scan, an analysis and a rewriting; `render` renders the texts that
handlers ask for. -/
def thoroughStep (render : Rendering σ) (renderer : Renderer σ) (text : Text) (w : World σ) :
    Result σ RenderError Text :=
  let scan := renderer.scan text w
  let (document, state) := renderer.analyzer text scan.markup w.state
  (renderer.rules w).renderSegments render text scan.segments document { w with state := state }

/-- Renders a text thoroughly, and so the texts that handlers ask for, with at most `depth` texts
inside each other. -/
def thoroughWithin : Nat → Renderer σ → Text → World σ → Result σ RenderError Text
  | 0, _, _, _ => .tooDeep
  | depth + 1, renderer, text, w =>
    renderer.thoroughStep (fun r => thoroughWithin depth (.standard r)) text w

variable {renderer : Renderer σ} {render render' : Rendering σ} {text : Text} {w v : World σ}

/-! ### One text -/

/-- With an actionable tag no way around is taken. -/
theorem step_of_busy (h : renderer.hasActionable text w = true) :
    renderer.step render text w = renderer.thoroughStep render text w := by
  have hplain : isPlain text ≠ true := fun hplain => by
    rw [hasActionable_of_isPlain hplain] at h
    cases h
  rw [step, if_neg hplain]
  exact if_pos h

theorem step_of_idle (h : renderer.hasActionable text w = false) :
    renderer.step render text w =
      .ok text (if isPlain text then w else renderer.recordUnchanged text w) := by
  rw [step]
  split
  · rfl
  · exact if_neg (Bool.eq_false_iff.1 h)

/-- Without an actionable tag the text is put together as it was. -/
theorem thoroughStep_of_idle (h : renderer.hasActionable text w = false) :
    renderer.thoroughStep render text w =
      .ok text { w with
        state := (renderer.analyzer text (renderer.scan text w).markup w.state).2 } :=
  renderSegments_of_idle h render _ _

end Renderer

/-! ## Worlds with other logs -/

theorem World.handler?_of_tables {w v : World σ} (h : w.tables = v.tables) (r : Registry) :
    w.handler? r = v.handler? r := by
  funext tag
  rw [handler?, handler?, handlers, handlers, h]

/-- Two worlds that differ in their logs alone; the first has all messages of the second. -/
structure World.Covers (w v : World σ) : Prop where
  policy : w.policy = v.policy
  tables : w.tables = v.tables
  shared : w.shared = v.shared
  log : v.log.Sublist w.log
  state : w.state = v.state

namespace World.Covers

variable {w v u : World σ}

theorem refl (w : World σ) : w.Covers w := ⟨rfl, rfl, rfl, .refl _, rfl⟩

theorem trans (h : w.Covers v) (h' : v.Covers u) : w.Covers u :=
  ⟨h.policy.trans h'.policy, h.tables.trans h'.tables, h.shared.trans h'.shared,
    h'.log.trans h.log, h.state.trans h'.state⟩

theorem record (h : w.Covers v) (level : LogLevel) (message : Text) :
    (w.record level message).Covers (v.record level message) :=
  ⟨h.policy, h.tables, h.shared, h.log.append (.refl _), h.state⟩

theorem modifyHandlers (h : w.Covers v) (r : Registry)
    (f : TagMap (Handler σ) → TagMap (Handler σ)) :
    (w.modifyHandlers r f).Covers (v.modifyHandlers r f) :=
  ⟨h.policy, congrArg (List.modify · r.id f) h.tables, h.shared, h.log, h.state⟩

theorem handler?_eq (h : w.Covers v) (r : Registry) (tag : Text) :
    v.handler? r tag = w.handler? r tag :=
  congrFun (handler?_of_tables h.tables.symm r) tag

theorem recorded (w : World σ) (level : LogLevel) (message : Text) :
    (w.record level message).Covers w :=
  ⟨rfl, rfl, rfl, List.sublist_append_left _ _, rfl⟩

end World.Covers

/-- A host beside itself, with other messages in its log. -/
def Likeness.logs : Likeness σ σ where
  worlds := World.Covers
  handler := id
  handler?_eq h r tag := by rw [h.handler?_eq, Option.map_id_fun, id]
  record h level message := h.record level message

section

variable {render render' : Rendering σ}

/-- Handlers cannot read the log. -/
theorem World.kept_covers : World.Kept (fun _ => True) (World.Covers (σ := σ)) where
  state h := h.state
  isRegistered h r tag := (Likeness.logs.isRegistered_eq h r tag).symm
  setState h _ := ⟨h.policy, h.tables, h.shared, h.log, rfl⟩
  setPolicy h _ := ⟨rfl, h.tables, h.shared, h.log, h.state⟩
  register h r _ _ _ := (h.record _ _).modifyHandlers r _
  unregister h r _ := h.modifyHandlers r _

theorem Action.alike_run_covers (hrender : Likeness.logs.Renders render render') (a : Action σ)
    {w v : World σ} (h : w.Covers v) : Alike World.Covers (a.run render w) (a.run render' v) :=
  alike_run World.kept_covers hrender a.registersOnly_true h

theorem Likeness.runs_logs (hrender : Likeness.logs.Renders render render') :
    Likeness.logs.Runs render render' := fun handler invocation _ _ h =>
  (handler invocation).alike_run_covers hrender h

end

namespace Renderer

variable {renderer : Renderer σ} {text : Text} {w v : World σ}

theorem rules_eq_of_covers (h : w.Covers v) : renderer.rules v = renderer.rules w := by
  rw [rules, rules, h.policy]

theorem scan_eq_of_covers (h : w.Covers v) : renderer.scan text v = renderer.scan text w :=
  congrArg (Scan.ofText text) (funext fun tag => Likeness.logs.isRegistered_eq h _ tag)

theorem hasActionable_eq_of_covers (h : w.Covers v) :
    renderer.hasActionable text v = renderer.hasActionable text w := by
  rw [hasActionable, hasActionable, scan_eq_of_covers h, rules_eq_of_covers h]
  exact congrArg (List.any _) (funext fun o => Likeness.logs.isActionable_eq h _ o)

theorem alike_thoroughStep {render render' : Rendering σ}
    (hrender : Likeness.logs.Renders render render') (h : w.Covers v) :
    Alike World.Covers (renderer.thoroughStep render text w)
      (renderer.thoroughStep render' text v) := by
  unfold thoroughStep
  rw [scan_eq_of_covers h, rules_eq_of_covers h, ← h.state]
  exact Likeness.alike_renderSegments (Likeness.runs_logs hrender) _
    ⟨h.policy, h.tables, h.shared, h.log, rfl⟩

/-- The texts that handlers ask for may be rendered thoroughly: the elements that the markup makes
are found without a trace. -/
theorem renders_thoroughWithin (depth : Nat) :
    Likeness.logs (σ := σ).Renders (fun r => renderWithin depth (.standard r))
      (fun r => thoroughWithin depth (.standard r)) := by
  induction depth with
  | zero => exact fun _ _ _ _ _ => .tooDeep
  | succ depth ih =>
    intro r text w v h
    show Alike _ (renderWithin (depth + 1) (standard r) text w)
      (thoroughWithin (depth + 1) (standard r) text v)
    rw [renderWithin, thoroughWithin]
    cases hbusy : (standard r : Renderer σ).hasActionable text w with
    | true =>
      rw [step_of_busy hbusy]
      exact alike_thoroughStep ih h
    | false =>
      rw [step_of_idle hbusy, thoroughStep_of_idle ((hasActionable_eq_of_covers h).trans hbusy)]
      refine .ok ?_
      split
      · exact h
      · exact (World.Covers.recorded w _ _).trans h

/-! ## Ends that agree -/

/-- How the worlds after a rendering and after a thorough one compare.  The state of the host is the
same or, with nothing to do, differs by what the analysis did to it. -/
structure Agrees (renderer : Renderer σ) (text : Text) (start w v : World σ) : Prop where
  policy : w.policy = v.policy
  tables : w.tables = v.tables
  shared : w.shared = v.shared
  log : v.log.Sublist w.log
  busy : renderer.hasActionable text start = true → w.state = v.state
  idle : renderer.hasActionable text start = false → w.state = start.state ∧
    v.state = (renderer.analyzer text (renderer.scan text start).markup start.state).2

theorem agrees_of_busy {u : World σ} (hbusy : renderer.hasActionable text w = true)
    (h : u.Covers v) : renderer.Agrees text w u v :=
  ⟨h.policy, h.tables, h.shared, h.log, fun _ => h.state,
    fun hidle => Bool.noConfusion (hbusy.symm.trans hidle)⟩

/-- Without an actionable tag both renderings end with the text itself. -/
theorem alike_of_idle (hidle : renderer.hasActionable text w = false)
    (render render' : Rendering σ) :
    Alike (renderer.Agrees text w) (renderer.step render text w)
      (renderer.thoroughStep render' text w) := by
  have hcovers : (if isPlain text then w else renderer.recordUnchanged text w).Covers w := by
    split
    · exact .refl w
    · exact .recorded w _ _
  rw [step_of_idle hidle, thoroughStep_of_idle hidle]
  exact .ok ⟨hcovers.policy, hcovers.tables, hcovers.shared, hcovers.log,
    fun hbusy => Bool.noConfusion (hbusy.symm.trans hidle), fun _ => ⟨hcovers.state, rfl⟩⟩

/-- One text is rendered thoroughly. -/
theorem alike_step (renderer : Renderer σ) (text : Text) (w : World σ) (render : Rendering σ) :
    Alike (renderer.Agrees text w) (renderer.step render text w)
      (renderer.thoroughStep render text w) := by
  cases hbusy : renderer.hasActionable text w with
  | true =>
    rw [step_of_busy hbusy]
    exact .refl (fun u => agrees_of_busy hbusy (.refl u)) _
  | false => exact alike_of_idle hbusy render render

/-- All texts are rendered thoroughly. -/
theorem alike_thoroughWithin (renderer : Renderer σ) (text : Text) (w : World σ) (depth : Nat) :
    Alike (renderer.Agrees text w) (renderer.renderWithin depth text w)
      (renderer.thoroughWithin depth text w) := by
  cases depth with
  | zero => exact .tooDeep
  | succ depth =>
    rw [renderWithin, thoroughWithin]
    cases hbusy : renderer.hasActionable text w with
    | true =>
      rw [step_of_busy hbusy]
      exact (alike_thoroughStep (renders_thoroughWithin depth) (.refl w)).mono
        fun _ _ => agrees_of_busy hbusy
    | false => exact alike_of_idle hbusy _ _

/-! ## Watched renderings -/

/-- The second renderer is the first one on a watched host, where an analysis counts `k`. -/
structure WatchedAs (k : Nat) (renderer : Renderer σ) (renderer' : Renderer (Watched σ)) :
    Prop where
  registry : renderer'.registry = renderer.registry
  policy : renderer'.policy = renderer.policy
  analyzer : ∀ source markup state calls n, renderer'.analyzer source markup ⟨state, calls, n⟩ =
    ((renderer.analyzer source markup state).1,
      ⟨(renderer.analyzer source markup state).2, calls, n + k⟩)

theorem watchedAs_standard (r : Registry) : WatchedAs 0 (standard r : Renderer σ) (.standard r) :=
  ⟨rfl, rfl, fun _ _ _ _ _ => rfl⟩

theorem watchedAs_watched (renderer : Renderer σ) : WatchedAs 1 renderer renderer.watched :=
  ⟨rfl, rfl, fun _ _ _ _ _ => rfl⟩

section

variable {k n : Nat} {renderer' : Renderer (Watched σ)} {calls since : List Invocation}
  {render : Rendering σ} {render' : Rendering (Watched σ)} (hr : WatchedAs k renderer renderer')

include hr

theorem rules_watched : renderer'.rules (w.watched calls n) = renderer.rules w := by
  rw [rules, rules, hr.registry, hr.policy]
  rfl

theorem scan_watched : renderer'.scan text (w.watched calls n) = renderer.scan text w := by
  rw [scan, scan, hr.registry]
  exact congrArg (Scan.ofText text) (funext fun tag => w.isRegistered_carried _ _ _ tag)

theorem hasActionable_watched :
    renderer'.hasActionable text (w.watched calls n) = renderer.hasActionable text w := by
  rw [hasActionable, hasActionable, scan_watched hr, rules_watched hr]
  exact congrArg (List.any _) (funext fun o =>
    Likeness.isActionable_eq (Likeness.watching_worlds_iff.2 (w.watches_watched calls n)) _ o)

theorem watches_thoroughStep
    (hrender : ∀ n, (Likeness.watching since n).Renders render render')
    {v : World (Watched σ)} (h : w.Watches since n v) :
    Alike (World.Watches since (n + k)) (renderer.thoroughStep render text w)
      (renderer'.thoroughStep render' text v) := by
  obtain ⟨calls, hcalls, rfl⟩ := h
  have hanalyzer := hr.analyzer text (renderer.scan text w).markup w.state calls n
  unfold thoroughStep
  rw [scan_watched hr, rules_watched hr]
  show Alike _ _ (Rules.renderSegments render' _ text _
    (renderer'.analyzer text (renderer.scan text w).markup ⟨w.state, calls, n⟩).1
    { w.watched calls n with state := (renderer'.analyzer text _ ⟨w.state, calls, n⟩).2 })
  rw [hanalyzer]
  exact (Likeness.alike_renderSegments (Likeness.runs_watching (hrender (n + k))) _
    (Likeness.watching_worlds_iff.2 ⟨calls, hcalls, rfl⟩)).mono
      fun _ _ => Likeness.watching_worlds_iff.1

theorem watches_step (hrender : ∀ n, (Likeness.watching since n).Renders render render')
    {v : World (Watched σ)} (h : w.Watches since n v) :
    Alike (World.Watches since (n + if renderer.hasActionable text w then k else 0))
      (renderer.step render text w) (renderer'.step render' text v) := by
  cases hbusy : renderer.hasActionable text w with
  | true =>
    have hbusy' : renderer'.hasActionable text v = true := by
      obtain ⟨calls, -, rfl⟩ := h
      rw [hasActionable_watched hr, hbusy]
    rw [step_of_busy hbusy, step_of_busy hbusy']
    exact watches_thoroughStep hr hrender h
  | false =>
    obtain ⟨calls, hcalls, rfl⟩ := h
    rw [step_of_idle hbusy, step_of_idle ((hasActionable_watched hr).trans hbusy),
      if_neg Bool.false_ne_true, Nat.add_zero]
    refine .ok ?_
    split
    · exact ⟨calls, hcalls, rfl⟩
    · refine ⟨calls, hcalls, ?_⟩
      rw [recordUnchanged, hr.registry]
      rfl

end

/-- The texts that handlers ask for are rendered on the watched host as on the host itself; their
analyses are not counted. -/
theorem renders_watching (since : List Invocation) (n depth : Nat) :
    (Likeness.watching (σ := σ) since n).Renders (fun r => renderWithin depth (.standard r))
      (fun r => renderWithin depth (.standard r)) := by
  induction depth generalizing n with
  | zero => exact fun _ _ _ _ _ => .tooDeep
  | succ depth ih =>
    intro r text w v h
    have hstep : Alike _ ((standard r).step _ text w) ((standard r).step _ text v) :=
      watches_step (watchedAs_standard r) ih (Likeness.watching_worlds_iff.1 h)
    rw [ite_self] at hstep
    exact hstep.mono fun _ _ => Likeness.watching_worlds_iff.2

theorem renders_watching_thorough (since : List Invocation) (n depth : Nat) :
    (Likeness.watching (σ := σ) since n).Renders (fun r => thoroughWithin depth (.standard r))
      (fun r => thoroughWithin depth (.standard r)) := by
  induction depth generalizing n with
  | zero => exact fun _ _ _ _ _ => .tooDeep
  | succ depth ih =>
    intro r text w v h
    exact (watches_thoroughStep (watchedAs_standard r) ih (Likeness.watching_worlds_iff.1 h)).mono
      fun _ _ => Likeness.watching_worlds_iff.2

section

variable (renderer) (text) (w) (depth n : Nat) (calls : List Invocation)

/-- Watching a rendering changes nothing, and the elements of the text are looked for once or not at
all. -/
theorem watches_renderWithin :
    Alike (World.Watches calls (n + if renderer.hasActionable text w then 1 else 0))
      (renderer.renderWithin depth text w)
      (renderer.watched.renderWithin depth text (w.watched calls n)) := by
  cases depth with
  | zero => exact .tooDeep
  | succ depth =>
    exact watches_step (watchedAs_watched renderer) (fun n => renders_watching calls n depth)
      (w.watches_watched calls n)

theorem watches_thoroughWithin :
    Alike (World.Watches calls (n + 1)) (renderer.thoroughWithin depth text w)
      (renderer.watched.thoroughWithin depth text (w.watched calls n)) := by
  cases depth with
  | zero => exact .tooDeep
  | succ depth =>
    exact watches_thoroughStep (watchedAs_watched renderer)
      (fun n => renders_watching_thorough calls n depth) (w.watches_watched calls n)

/-- The same calls are noted. -/
theorem alike_calls :
    Alike (fun v v' => v.state.calls = v'.state.calls)
      (renderer.watched.renderWithin depth text (w.watched calls n))
      (renderer.watched.thoroughWithin depth text (w.watched calls n)) := by
  refine (alike_thoroughWithin renderer.watched text (w.watched calls n) depth).mono
    fun v v' h => ?_
  cases hbusy : renderer.watched.hasActionable text (w.watched calls n) with
  | true => rw [h.busy hbusy]
  | false =>
    obtain ⟨hv, hv'⟩ := h.idle hbusy
    rw [hv, hv']
    rfl

end

/-! ## Main statement -/

/-- The ways around the scan, the analysis and the rewriting of a text change nothing. -/
structure FastPathsExact (renderer : Renderer σ) (text : Text) (w : World σ) (depth : Nat) :
    Prop where
  /-- The rendering and the thorough one end with one text or error, with the same policy and the
  same handlers. -/
  agrees : Alike (renderer.Agrees text w) (renderer.renderWithin depth text w)
    (renderer.thoroughWithin depth text w)
  /-- So they do if the texts that handlers ask for are rendered in one way, whatever it is. -/
  agreesAlone : ∀ render, Alike (renderer.Agrees text w) (renderer.step render text w)
    (renderer.thoroughStep render text w)
  /-- The analyzer runs once if a tag is actionable and else never. -/
  watches : ∀ n calls,
    Alike (World.Watches calls (n + if renderer.hasActionable text w then 1 else 0))
      (renderer.renderWithin depth text w)
      (renderer.watched.renderWithin depth text (w.watched calls n))
  /-- In a thorough rendering it always runs once. -/
  watchesThorough : ∀ n calls,
    Alike (World.Watches calls (n + 1)) (renderer.thoroughWithin depth text w)
      (renderer.watched.thoroughWithin depth text (w.watched calls n))
  /-- Both call the same handlers in the same order, with the same arguments. -/
  calls : ∀ n calls, Alike (fun v v' => v.state.calls = v'.state.calls)
    (renderer.watched.renderWithin depth text (w.watched calls n))
    (renderer.watched.thoroughWithin depth text (w.watched calls n))
  /-- A tag that is not actionable stands for its own text. -/
  kept : ∀ (rules : Rules) o, rules.isActionable o w = false → ∀ render source d,
    rules.resolve render source d o w = .ok ⟨o.text source, .inline⟩ w
  /-- No call is noted for it. -/
  uncalled : ∀ (rules : Rules) o, rules.isActionable o w = false → ∀ n calls render source d,
    rules.resolve render source d o (w.watched calls n) =
      .ok ⟨o.text source, .inline⟩ (w.watched calls n)

/-- **The fast paths change nothing.**  A text that is not scanned, or whose tags are all left
alone, is rendered as it would be by a scan, an analysis and a rewriting, with the same calls of
handlers and the same handlers afterwards.  Its elements are looked for once or, with nothing to do,
never. -/
theorem fastPathsExact (renderer : Renderer σ) (text : Text) (w : World σ) (depth : Nat) :
    renderer.FastPathsExact text w depth where
  agrees := alike_thoroughWithin renderer text w depth
  agreesAlone := alike_step renderer text w
  watches := watches_renderWithin renderer text w depth
  watchesThorough := watches_thoroughWithin renderer text w depth
  calls := alike_calls renderer text w depth
  kept _ _ h := Rules.resolve_of_not_actionable h
  uncalled rules o h n calls := by
    refine Rules.resolve_of_not_actionable ?_
    rw [← h]
    exact Likeness.isActionable_eq
      (Likeness.watching_worlds_iff.2 (w.watches_watched calls n)) rules o

/-- A handler that renders its content is called again for the tag in it; the elements that are
looked for in the content are not counted. -/
example :
    let w := ((World.initial ()).newRegistry []).2.register ⟨0, []⟩ (Text.ofString "t") fun i =>
      .rendered i.registry (i.content.getD []) fun out => .give out none
    let ends := (standard ⟨0, []⟩).watched.renderWithin 3 (Text.ofString "[t]a[t/][/t]")
      (w.watched [] 0)
    (match ends with
      | .ok out v => some (out, v.state.calls.map (·.name), v.state.analyses)
      | _ => none) =
      some (Text.ofString "a", [Text.ofString "t", Text.ofString "t"], 1) := by
  decide +kernel

end Renderer

end Shortcode
