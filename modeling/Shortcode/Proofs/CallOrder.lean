import Shortcode.Proofs.Hearing
import Shortcode.Proofs.Templates

/-!
# Calls in document order

A rendering goes through the occurrences of its text from left to right.  Each one that is no escape
and no stray close tag and whose name has a handler when it is reached is one call of that handler;
nothing else is called.  The first call that fails ends the rendering.  `Rules.Calls` says so, with
the world that each occurrence is reached in, and the calls are those that are heard.

    Calls … (renderer.scan text w).occurrences start calls ending ∧
      Alike … (renderer.renderWithin …) ending ∧
        renderer.heard.renderWithin … (w.heard noted 0) notes `noted ++ calls`  (renderWithin_calls)
-/

namespace Shortcode

open Result (Alike)

variable {σ τ : Type}

/-! ## Going through a text -/

namespace Rules

/-- Going through the occurrences from world `w` on makes `calls` and comes to `ending`. -/
inductive Calls (render : Rendering σ) (registry : Registry) (source : Text) (d : Document) :
    List Occurrence → World σ → List Invocation → Result σ RenderError Unit → Prop
  | done {w : World σ} : Calls render registry source d [] w [] (.ok () w)
  /-- An escape, a stray close tag, or a tag that has no handler now. -/
  | passed {o : Occurrence} {rest : List Occurrence} {w : World σ} {calls : List Invocation}
      {ending : Result σ RenderError Unit} :
      w.calls registry o = false → Calls render registry source d rest w calls ending →
      Calls render registry source d (o :: rest) w calls ending
  /-- The handler gives a text.  Nothing but messages is added before the next tag is reached. -/
  | returned {o : Occurrence} {rest : List Occurrence} {w u v : World σ} {handler : Handler σ}
      {replacement : Replacement} {calls : List Invocation} {ending : Result σ RenderError Unit} :
      w.calls registry o = true → w.handler? registry o.name = some handler →
      (handler ⟨o.name, o.arguments, o.contentText source, registry, .of o d⟩).run render w =
        .ok replacement u →
      v.Covers u → Calls render registry source d rest v calls ending →
      Calls render registry source d (o :: rest) w
        (⟨o.name, o.arguments, o.contentText source, registry, .of o d⟩ :: calls) ending
  /-- The handler fails, and the other tags are not reached. -/
  | failed {o : Occurrence} {rest : List Occurrence} {w u : World σ} {handler : Handler σ}
      {failure : Failure} :
      w.calls registry o = true → w.handler? registry o.name = some handler →
      (handler ⟨o.name, o.arguments, o.contentText source, registry, .of o d⟩).run render w =
        .error failure u →
      Calls render registry source d (o :: rest) w
        [⟨o.name, o.arguments, o.contentText source, registry, .of o d⟩]
        (.error ⟨o.name, failure⟩ u)
  /-- The handler renders texts inside each other more deeply than is allowed for. -/
  | tooDeep {o : Occurrence} {rest : List Occurrence} {w : World σ} {handler : Handler σ} :
      w.calls registry o = true → w.handler? registry o.name = some handler →
      (handler ⟨o.name, o.arguments, o.contentText source, registry, .of o d⟩).run render w =
        .tooDeep →
      Calls render registry source d (o :: rest) w
        [⟨o.name, o.arguments, o.contentText source, registry, .of o d⟩] .tooDeep

section

variable {render : Rendering σ} {render' : Rendering (Heard σ)} {rules : Rules} {source : Text}
  {d : Document} {spans : List Span} {o : Occurrence} {rest : List Occurrence} {w u : World σ}

/-! ### One tag -/

/-- What a tag stands for that is not given to a handler. -/
def unhandled (rules : Rules) (source : Text) (o : Occurrence) : Resolved :=
  ⟨if o.escaped then o.unescaped source
    else rules.policy.apply (o.text source) o.context.isBody, .inline⟩

theorem resolve_of_calls_eq_false (h : w.calls rules.registry o = false) (render : Rendering σ)
    (source : Text) (d : Document) :
    rules.resolve render source d o w = .ok (rules.unhandled source o) w := by
  rcases w.tag_cases rules.registry o with hescaped | hcalls | hleaves
  · rw [resolve_of_escaped hescaped, unhandled, if_pos hescaped]
  · rw [h] at hcalls
    cases hcalls
  · have hescaped : ¬ o.escaped = true := by
      simp only [World.leavesToPolicy, Bool.and_eq_true, Bool.not_eq_true'] at hleaves
      simp [hleaves.1]
    rw [resolve_of_leavesToPolicy rules rfl hleaves, unhandled, if_neg hescaped]

theorem resolutions_of_ok {r : Resolved} (h : rules.resolve render source d o w = .ok r u) :
    rules.resolutions render source d spans (o :: rest) w =
      (rules.resolutions render source d spans rest (place o r d spans u).2).map (r :: ·) := by
  rw [resolutions, h]
  dsimp only
  cases rules.resolutions render source d spans rest (place o r d spans u).2 <;> rfl

theorem resolutions_of_error {e : RenderError}
    (h : rules.resolve render source d o w = .error e u) :
    rules.resolutions render source d spans (o :: rest) w = .error e u := by
  rw [resolutions, h]

theorem resolutions_of_tooDeep (h : rules.resolve render source d o w = .tooDeep) :
    rules.resolutions render source d spans (o :: rest) w = .tooDeep := by
  rw [resolutions, h]

/-! ### One tag on a carrier -/

theorem calls_carried (c : Carrier σ τ) (w : World σ) (s : τ) (r : Registry) (o : Occurrence) :
    (w.carried c s).calls r o = w.calls r o := by
  rw [World.calls, World.calls, w.isRegistered_carried]

/-- Placing a text does no more than log a message. -/
theorem place_map (f : World σ → World τ)
    (hf : ∀ u level message, f (u.record level message) = (f u).record level message)
    (o : Occurrence) (resolved : Resolved) (w : World σ) :
    (place o resolved d spans (f w)).2 = f (place o resolved d spans w).2 := by
  unfold place
  cases o.destination resolved.placement d spans with
  | inline => rfl
  | anchor a => rfl
  | refused why => exact (hf w _ _).symm

theorem place_heard (o : Occurrence) (resolved : Resolved) (w : World σ) (noted : List Invocation) :
    (place o resolved d spans (w.heard noted 0)).2 =
      (place o resolved d spans w).2.heard noted 0 :=
  place_map (World.heard · noted 0) (fun _ _ _ => rfl) o resolved w

/-- A tag with a handler makes one call, which is noted. -/
theorem alike_resolve_heard {handler : Handler σ}
    (hrender : ∀ noted, (Likeness.hearing noted 1).Renders render render')
    (hcalls : w.calls rules.registry o = true)
    (hhandler : w.handler? rules.registry o.name = some handler) (source : Text) (d : Document)
    (noted : List Invocation) :
    Alike (fun u v => v = u.heard (noted ++ [rules.invocation source d o]) 0)
      (rules.resolve render source d o w) (rules.resolve render' source d o (w.heard noted 0)) := by
  have hcalls' : (w.heard noted 0).calls rules.registry o = true :=
    (calls_carried ..).trans hcalls
  have hhandler' : (w.heard noted 0).handler? rules.registry o.name =
      some (handler.carried .hearing) := by
    rw [World.heard, w.handler?_carried, hhandler, Option.map_some]
  have hrun : Alike (fun u v => v = u.heard (noted ++ [rules.invocation source d o]) 0) _ _ :=
    handler.alike_run_direct (rules.invocation source d o) (hrender _) w
  rw [resolve_of_calls hcalls hhandler, resolve_of_calls hcalls' hhandler']
  exact hrun.resolved o

end

/-! ### All tags -/

/-- Going through the occurrences from world `w` on makes `calls`, comes to `ending`, and is heard
as it is. -/
structure Makes (render : Rendering σ) (render' : Rendering (Heard σ)) (rules : Rules)
    (source : Text) (d : Document) (spans : List Span) (os : List Occurrence) (w : World σ)
    (calls : List Invocation) (ending : Result σ RenderError Unit) : Prop where
  made : Calls render rules.registry source d os w calls ending
  ends : Alike World.Covers ((rules.resolutions render source d spans os w).map fun _ => ()) ending
  heard : ∀ noted, Alike (fun u v => v = u.heard (noted ++ calls) 0)
    (rules.resolutions render source d spans os w)
    (rules.resolutions render' source d spans os (w.heard noted 0))

namespace Makes

variable {render : Rendering σ} {render' : Rendering (Heard σ)} {rules : Rules} {source : Text}
  {d : Document} {spans : List Span} {o : Occurrence} {rest : List Occurrence} {w u : World σ}
  {calls : List Invocation} {ending : Result σ RenderError Unit}

theorem nil : Makes render render' rules source d spans [] w [] (.ok () w) where
  made := .done
  ends := .ok (.refl w)
  heard noted := .ok (by rw [List.append_nil])

theorem passed (hcalls : w.calls rules.registry o = false)
    (h : Makes render render' rules source d spans rest w calls ending) :
    Makes render render' rules source d spans (o :: rest) w calls ending where
  made := .passed hcalls h.made
  ends := by
    rw [resolutions_of_ok (resolve_of_calls_eq_false hcalls render source d), Result.map_map]
    exact h.ends
  heard noted := by
    have hcalls' : (w.heard noted 0).calls rules.registry o = false :=
      (calls_carried ..).trans hcalls
    rw [resolutions_of_ok (resolve_of_calls_eq_false hcalls render source d),
      resolutions_of_ok (resolve_of_calls_eq_false hcalls' render' source d)]
    exact (h.heard noted).map _

section

variable {handler : Handler σ}
  (hrender : ∀ noted, (Likeness.hearing noted 1).Renders render render')
  (hcalls : w.calls rules.registry o = true)
  (hhandler : w.handler? rules.registry o.name = some handler)

include hrender hcalls hhandler

theorem returned {replacement : Replacement} {r : Resolved}
    (hr : r = ⟨replacement.text, replacement.placement.getD (.ofArguments o.arguments)⟩)
    (hrun : (handler (rules.invocation source d o)).run render w = .ok replacement u)
    (h : Makes render render' rules source d spans rest (place o r d spans u).2 calls ending) :
    Makes render render' rules source d spans (o :: rest) w
      (rules.invocation source d o :: calls) ending := by
  have hresolve : rules.resolve render source d o w = .ok r u := by
    rw [resolve_of_calls hcalls hhandler, hrun, hr, Occurrence.resolved]
  refine ⟨.returned hcalls hhandler hrun (covers_place ..) h.made, ?_, fun noted => ?_⟩
  · rw [resolutions_of_ok hresolve, Result.map_map]
    exact h.ends
  · have hone := alike_resolve_heard hrender hcalls hhandler source d noted
    rw [hresolve] at hone
    obtain ⟨_, hresolve', rfl⟩ := hone.exists_of_ok
    rw [resolutions_of_ok hresolve, resolutions_of_ok hresolve', place_heard]
    have hrest := h.heard (noted ++ [rules.invocation source d o])
    rw [List.append_assoc] at hrest
    exact hrest.map _

theorem failed {failure : Failure}
    (hrun : (handler (rules.invocation source d o)).run render w = .error failure u) :
    Makes render render' rules source d spans (o :: rest) w [rules.invocation source d o]
      (.error ⟨o.name, failure⟩ u) := by
  have hresolve : rules.resolve render source d o w = .error ⟨o.name, failure⟩ u := by
    rw [resolve_of_calls hcalls hhandler, hrun, Occurrence.resolved]
  refine ⟨.failed hcalls hhandler hrun, ?_, fun noted => ?_⟩
  · rw [resolutions_of_error hresolve]
    exact .error (.refl u)
  · have hone := alike_resolve_heard hrender hcalls hhandler source d noted
    rw [hresolve] at hone
    obtain ⟨_, hresolve', rfl⟩ := hone.exists_of_error
    rw [resolutions_of_error hresolve, resolutions_of_error hresolve']
    exact .error rfl

theorem tooDeep (hrun : (handler (rules.invocation source d o)).run render w = .tooDeep) :
    Makes render render' rules source d spans (o :: rest) w [rules.invocation source d o]
      .tooDeep := by
  have hresolve : rules.resolve render source d o w = .tooDeep := by
    rw [resolve_of_calls hcalls hhandler, hrun, Occurrence.resolved]
  refine ⟨.tooDeep hcalls hhandler hrun, ?_, fun noted => ?_⟩
  · rw [resolutions_of_tooDeep hresolve]
    exact .tooDeep
  · have hone := alike_resolve_heard hrender hcalls hhandler source d noted
    rw [hresolve] at hone
    rw [resolutions_of_tooDeep hresolve, resolutions_of_tooDeep hone.eq_of_tooDeep]
    exact .tooDeep

end

end Makes

/-- Whatever the handlers do, some calls are made on the way through the occurrences. -/
theorem exists_makes {render : Rendering σ} {render' : Rendering (Heard σ)}
    (hrender : ∀ noted, (Likeness.hearing noted 1).Renders render render') (rules : Rules)
    (source : Text) (d : Document) (spans : List Span) (os : List Occurrence) (w : World σ) :
    ∃ calls ending, Makes render render' rules source d spans os w calls ending := by
  induction os generalizing w with
  | nil => exact ⟨[], _, .nil⟩
  | cons o rest ih =>
    cases hcalls : w.calls rules.registry o with
    | false =>
      obtain ⟨calls, ending, h⟩ := ih w
      exact ⟨calls, ending, h.passed hcalls⟩
    | true =>
      obtain ⟨handler, hhandler⟩ : ∃ handler, w.handler? rules.registry o.name = some handler :=
        Option.isSome_iff_exists.1 (Bool.and_eq_true_iff.1 hcalls).2
      cases hrun : (handler (rules.invocation source d o)).run render w with
      | ok replacement u =>
        obtain ⟨calls, ending, h⟩ := ih (place o _ d spans u).2
        exact ⟨_, ending, .returned hrender hcalls hhandler rfl hrun h⟩
      | error failure u => exact ⟨_, _, .failed hrender hcalls hhandler hrun⟩
      | tooDeep => exact ⟨_, _, .tooDeep hrender hcalls hhandler hrun⟩

end Rules

/-! ## Rendering a text -/

/-- Only an occurrence with a close tag encloses text, and the text lies between its tags. -/
theorem Scan.content_of_mem {source : Text} {pairs : Text → Bool} {o : Occurrence}
    (ho : o ∈ (ofText source pairs).occurrences) :
    (o.content.isSome = true ↔ o.form = .enclosing) ∧
      ∀ c, o.content = some c → o.span.start < c.start ∧ c.stop < o.span.stop := by
  constructor
  · rw [occurrences_ofText] at ho
    cases (Occurrence.pairing_ofBrackets pairs (tags source)).origin ho with
    | single _ halone => exact iff_of_false Bool.false_ne_true halone.form_ne
    | pair _ _ _ _ _ => exact iff_of_true rfl rfl
  · intro c hc
    obtain ⟨hstart, -, hstop⟩ := content_bounds ho hc
    exact ⟨hstart, hstop⟩

namespace Renderer

variable {renderer : Renderer σ} {text : Text} {w : World σ} {render : Rendering σ}

/-- The document of a text and the world that its first tag is reached in.  With nothing to do the
elements of the text are not looked for. -/
def analyzed (renderer : Renderer σ) (text : Text) (w : World σ) : Document × World σ :=
  if renderer.hasActionable text w then
    let (document, state) := renderer.analyzer text (renderer.scan text w).markup w.state
    (document, { w with state := state })
  else (.empty, w)

/-- With nothing to do nothing is called. -/
theorem calls_of_idle (hidle : renderer.hasActionable text w = false) (d : Document) :
    Rules.Calls render renderer.registry text d (renderer.scan text w).occurrences w []
      (.ok () w) := by
  have hnone : ∀ o ∈ (renderer.scan text w).occurrences,
      w.calls renderer.registry o = false := by
    refine fun o ho => Bool.eq_false_iff.2 fun hcalls => List.any_eq_false.1 hidle o ho ?_
    simp only [World.calls, Bool.and_eq_true] at hcalls
    have hregistered : w.isRegistered (renderer.rules w).registry o.name = true := hcalls.2
    rw [Rules.isActionable, hcalls.1.2, hregistered, Bool.and_self, Bool.or_true]
  generalize (renderer.scan text w).occurrences = os at hnone
  induction os with
  | nil => exact .done
  | cons o rest ih =>
    obtain ⟨ho, hrest⟩ := List.forall_mem_cons.1 hnone
    exact .passed ho (ih hrest)

/-- With something to do the text is put together, in the world in which its first tag is
reached. -/
theorem renderWithin_of_busy (hbusy : renderer.hasActionable text w = true) (depth : Nat) :
    renderer.renderWithin (depth + 1) text w =
      (renderer.rules w).renderSegments (fun r => renderWithin depth (.standard r)) text
        (renderer.scan text w).segments (renderer.analyzed text w).1
        (renderer.analyzed text w).2 := by
  rw [renderWithin, step_of_busy hbusy, thoroughStep, analyzed, if_pos hbusy]

/-- So is the text on a host that carries the other one. -/
theorem renderWithin_carried_of_busy (c : Carrier σ τ) {s : τ} (hget : c.get s = w.state)
    (hbusy : renderer.hasActionable text w = true) (depth : Nat) :
    (renderer.carried c).renderWithin (depth + 1) text (w.carried c s) =
      (renderer.rules w).renderSegments (fun r => renderWithin depth (.standard r)) text
        (renderer.scan text w).segments (renderer.analyzed text w).1
        ((renderer.analyzed text w).2.carried c (c.set (renderer.analyzed text w).2.state s)) := by
  have hbusy' : (renderer.carried c).hasActionable text (w.carried c s) = true :=
    (Carrier.hasActionable_carried renderer).trans hbusy
  rw [renderWithin, step_of_busy hbusy', analyzed, if_pos hbusy]
  exact Carrier.thoroughStep_carried renderer _ hget

theorem renderWithin_heard_of_busy (hbusy : renderer.hasActionable text w = true) (depth : Nat)
    (noted : List Invocation) :
    renderer.heard.renderWithin (depth + 1) text (w.heard noted 0) =
      (renderer.rules w).renderSegments (fun r => renderWithin depth (.standard r)) text
        (renderer.scan text w).segments (renderer.analyzed text w).1
        ((renderer.analyzed text w).2.heard noted 0) :=
  renderWithin_carried_of_busy .hearing rfl hbusy depth

/-- The occurrences of a text stand one after the other, and what one encloses lies between its own
tags.  Going through them from left to right makes the calls of `Rules.Calls`, and the rendering
ends as that walk does: it succeeds, or fails with the first call that fails, and leaves what the
calls up to there have left.  A host that hears the rendering notes those calls, in that order, and
no others. -/
theorem renderWithin_calls (renderer : Renderer σ) (depth : Nat) (text : Text) (w : World σ) :
    let os := (renderer.scan text w).occurrences
    ((os.map (·.span)).Pairwise fun a b => a.stop ≤ b.start) ∧
    (∀ o ∈ os, (o.content.isSome = true ↔ o.form = .enclosing) ∧
      ∀ c, o.content = some c → o.span.start < c.start ∧ c.stop < o.span.stop) ∧
    ∃ calls ending,
      Rules.Calls (fun r => renderWithin depth (.standard r)) renderer.registry text
        (renderer.analyzed text w).1 os (renderer.analyzed text w).2 calls ending ∧
      Alike World.Covers ((renderer.renderWithin (depth + 1) text w).map fun _ => ()) ending ∧
      ∀ noted, Alike (fun u v => v = u.heard (noted ++ calls) 0)
        (renderer.renderWithin (depth + 1) text w)
        (renderer.heard.renderWithin (depth + 1) text (w.heard noted 0)) := by
  intro os
  have hinOrder : ((os.map (·.span)).Pairwise fun a b => a.stop ≤ b.start) := by
    have hspans := (Scan.occurrences_inOrder text (w.isRegistered renderer.registry)).1
    rw [← Scan.occurrences_ofText] at hspans
    exact hspans.pairwise
  refine ⟨hinOrder, fun o ho => Scan.content_of_mem ho, ?_⟩
  cases hbusy : renderer.hasActionable text w with
  | false =>
    refine ⟨[], .ok () w, ?_, ?_, fun noted => ?_⟩
    · rw [analyzed, hbusy]
      exact calls_of_idle hbusy _
    · rw [renderWithin, step_of_idle hbusy]
      refine .ok ?_
      split
      · exact .refl w
      · exact .recorded w _ _
    · rw [List.append_nil]
      exact ((Carrier.analyzes_carried renderer fun _ _ h => h).alike_of_idle hbusy
        (World.carries_hearing_iff.2 rfl)).mono
        fun u v => World.carries_hearing_iff.1
  | true =>
    obtain ⟨calls, ending, h⟩ := Rules.exists_makes
      (fun noted => Likeness.renders_hearing depth noted 0) (renderer.rules w) text
      (renderer.analyzed text w).1 (os.map (·.span)) os (renderer.analyzed text w).2
    refine ⟨calls, ending, h.made, ?_, fun noted => ?_⟩
    · rw [renderWithin_of_busy hbusy, Rules.renderSegments_eq_map, Rules.resolveAll_eq,
        Result.map_map, Result.map_map]
      exact h.ends
    · rw [renderWithin_of_busy hbusy, renderWithin_heard_of_busy hbusy,
        Rules.renderSegments_eq_map, Rules.renderSegments_eq_map, Rules.resolveAll_eq,
        Rules.resolveAll_eq]
      exact ((h.heard noted).map _).map _

end Renderer

end Shortcode
