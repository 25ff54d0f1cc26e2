import Shortcode.Proofs.CallOrder

/-!
# What a rendering takes from its start

A rendering asks three things of the world that handlers may change while it runs: the policy, which
names take content, and who handles a tag.  The first two are asked once, at its start; the third is
asked for each tag when the rendering comes to it.  `Rules.Goes` is a walk through the occurrences
of a text that does so.

    renderer.Walks (renderer.policy.getD w.policy) (w.isRegistered renderer.registry) depth text w
                                                                                          (walks)

So a policy that is set while a text is rendered says nothing about that text, but about each text
whose rendering starts later, be it inside a handler.
-/

namespace Shortcode

open Result (Alike)

variable {σ : Type}

/-! ## Walks with one policy -/

namespace Rules

/-- Going through the occurrences from world `w` on comes to `ending`.  The policy is `p` all the
way; the handler of a tag is the one that is registered when the tag is reached. -/
inductive Goes (render : Rendering σ) (registry : Registry) (p : Policy) (source : Text)
    (d : Document) (spans : List Span) :
    List Occurrence → World σ → Result σ RenderError (List Placed) → Prop
  | done {w : World σ} : Goes render registry p source d spans [] w (.ok [] w)
  | escaped {o : Occurrence} {rest : List Occurrence} {w : World σ}
      {ending : Result σ RenderError (List Placed)} :
      o.escaped = true → Goes render registry p source d spans rest w ending →
      Goes render registry p source d spans (o :: rest) w
        (ending.map (⟨o.unescaped source, none⟩ :: ·))
  /-- A stray close tag, or a tag that has no handler now. -/
  | left {o : Occurrence} {rest : List Occurrence} {w : World σ}
      {ending : Result σ RenderError (List Placed)} :
      w.leavesToPolicy registry o = true → Goes render registry p source d spans rest w ending →
      Goes render registry p source d spans (o :: rest) w
        (ending.map (⟨p.apply (o.text source) o.context.isBody, none⟩ :: ·))
  /-- The handler that the tag has now gives a text.  Nothing but messages is added before the next
  tag is reached. -/
  | returned {o : Occurrence} {rest : List Occurrence} {w u v : World σ} {handler : Handler σ}
      {x : Replacement} {ending : Result σ RenderError (List Placed)} :
      w.calls registry o = true → w.handler? registry o.name = some handler →
      (handler ⟨o.name, o.arguments, o.contentText source, registry, .of o d⟩).run render w =
        .ok x u →
      v.Covers u → Goes render registry p source d spans rest v ending →
      Goes render registry p source d spans (o :: rest) w
        (ending.map
          (⟨x.text, o.anchor? (x.placement.getD (.ofArguments o.arguments)) d spans⟩ :: ·))
  | failed {o : Occurrence} {rest : List Occurrence} {w u : World σ} {handler : Handler σ}
      {failure : Failure} :
      w.calls registry o = true → w.handler? registry o.name = some handler →
      (handler ⟨o.name, o.arguments, o.contentText source, registry, .of o d⟩).run render w =
        .error failure u →
      Goes render registry p source d spans (o :: rest) w (.error ⟨o.name, failure⟩ u)
  | tooDeep {o : Occurrence} {rest : List Occurrence} {w : World σ} {handler : Handler σ} :
      w.calls registry o = true → w.handler? registry o.name = some handler →
      (handler ⟨o.name, o.arguments, o.contentText source, registry, .of o d⟩).run render w =
        .tooDeep →
      Goes render registry p source d spans (o :: rest) w .tooDeep

variable {render : Rendering σ} {rules : Rules} {source : Text} {d : Document} {spans : List Span}
  {o : Occurrence} {rest : List Occurrence} {w u : World σ}

theorem resolveAll_of_ok {r : Resolved} (h : rules.resolve render source d o w = .ok r u) :
    rules.resolveAll render source d spans (o :: rest) w =
      (rules.resolveAll render source d spans rest (place o r d spans u).2).map
        (⟨r.text, o.anchor? r.placement d spans⟩ :: ·) := by
  rw [resolveAll_cons, settle, h]
  show Result.map _ _ = _
  rw [place_fst]

/-- A text that stays where its tag stands is placed without a trace. -/
theorem resolveAll_of_inline {text : Text}
    (h : rules.resolve render source d o w = .ok ⟨text, .inline⟩ u) :
    rules.resolveAll render source d spans (o :: rest) w =
      (rules.resolveAll render source d spans rest u).map (⟨text, none⟩ :: ·) := by
  rw [resolveAll_cons, settle, h]
  rfl

/-- Resolving all occurrences is such a walk. -/
theorem goes_resolveAll (rules : Rules) (os : List Occurrence) (w : World σ) :
    Goes render rules.registry rules.policy source d spans os w
      (rules.resolveAll render source d spans os w) := by
  induction os generalizing w with
  | nil => exact .done
  | cons o rest ih =>
    rcases w.tag_cases rules.registry o with hescaped | hcalls | hleaves
    · rw [resolveAll_of_inline (resolve_of_escaped hescaped)]
      exact .escaped hescaped (ih w)
    · obtain ⟨handler, hhandler⟩ : ∃ handler, w.handler? rules.registry o.name = some handler :=
        Option.isSome_iff_exists.1 (Bool.and_eq_true_iff.1 hcalls).2
      have hresolve : rules.resolve render source d o w = _ := resolve_of_calls hcalls hhandler
      cases hrun : (handler (rules.invocation source d o)).run render w with
      | ok x u =>
        rw [hrun] at hresolve
        rw [resolveAll_of_ok hresolve]
        exact .returned hcalls hhandler hrun (covers_place ..) (ih _)
      | error failure u =>
        rw [hrun] at hresolve
        rw [resolveAll_cons, settle, hresolve]
        exact .failed hcalls hhandler hrun
      | tooDeep =>
        rw [hrun] at hresolve
        rw [resolveAll_cons, settle, hresolve]
        exact .tooDeep hcalls hhandler hrun
    · rw [resolveAll_of_inline (resolve_of_leavesToPolicy rules rfl hleaves render source d)]
      exact .left hleaves (ih w)

end Rules

namespace Renderer

/-- The rendering walks through the occurrences that the text has with `pairs`, under the policy `p`
all the way, and puts together what the walk comes to. -/
def Walks (renderer : Renderer σ) (p : Policy) (pairs : Text → Bool) (depth : Nat) (text : Text)
    (w : World σ) : Prop :=
  ∃ ending, Rules.Goes (fun r => renderWithin depth (.standard r)) renderer.registry p text
      (renderer.analyzed text w).1 ((Scan.ofText text pairs).occurrences.map (·.span))
      (Scan.ofText text pairs).occurrences (renderer.analyzed text w).2 ending ∧
    Alike World.Covers (renderer.renderWithin (depth + 1) text w)
      (ending.map (Segment.assemble text (Scan.ofText text pairs).segments))

/-- The policy and the names that take content are those of the start. -/
theorem walks (renderer : Renderer σ) (depth : Nat) (text : Text) (w : World σ) :
    renderer.Walks (renderer.policy.getD w.policy) (w.isRegistered renderer.registry) depth text
      w := by
  refine ⟨_, (renderer.rules w).goes_resolveAll _ _, ?_⟩
  cases hbusy : renderer.hasActionable text w with
  | true =>
    rw [renderWithin_of_busy hbusy, Rules.renderSegments_eq_map]
    exact .refl .refl _
  | false =>
    -- nothing is to be done, and the walk puts the text together as it was
    have hnone : ∀ o ∈ (renderer.scan text w).occurrences,
        (renderer.rules w).isActionable o w = false := fun o ho =>
      Bool.eq_false_iff.2 fun h => List.any_eq_false.1 hbusy o ho h
    have hwalk : ((renderer.rules w).resolveAll (fun r => renderWithin depth (.standard r)) text
        (renderer.analyzed text w).1 ((renderer.scan text w).occurrences.map (·.span))
        (renderer.scan text w).occurrences (renderer.analyzed text w).2).map
          (Segment.assemble text (renderer.scan text w).segments) = .ok text w := by
      rw [analyzed, hbusy, if_neg Bool.false_ne_true, Rules.resolveAll_of_not_actionable hnone]
      exact congrArg (Result.ok · w) (Scan.assemble_sources text _)
    have hends : Alike World.Covers
        (Result.ok text (if isPlain text then w else renderer.recordUnchanged text w) :
          Result σ RenderError Text) (.ok text w) := by
      refine .ok ?_
      split
      · exact .refl w
      · exact .recorded w _ _
    rw [renderWithin, step_of_idle hbusy]
    rwa [← hwalk] at hends

end Renderer

/-! ## Two runs through one text -/

/-- The worlds that `R` relates have handlers for the same names and give the tags of a text to
handlers that end alike. -/
structure Rules.Matching (R : World σ → World σ → Prop) (render : Rendering σ) (registry : Registry)
    (text : Text) (d : Document) (os : List Occurrence) : Prop where
  names : ∀ {u v}, R u v → u.isRegistered registry = v.isRegistered registry
  record : ∀ {u v}, R u v → ∀ level message,
    R (u.record level message) (v.record level message)
  runs : ∀ o ∈ os, ∀ {u v : World σ} {handler handler' : Handler σ}, R u v →
    u.calls registry o = true → u.handler? registry o.name = some handler →
    v.handler? registry o.name = some handler' →
    Alike R
      ((handler ⟨o.name, o.arguments, o.contentText text, registry, .of o d⟩).run render u)
      ((handler' ⟨o.name, o.arguments, o.contentText text, registry, .of o d⟩).run render v)

/-- A tag is resolved alike under one policy. -/
theorem Rules.Matching.alike_resolve {R : World σ → World σ → Prop} {render : Rendering σ}
    {rules : Rules} {text : Text} {d : Document} {os : List Occurrence}
    (h : Rules.Matching R render rules.registry text d os) {o : Occurrence} (ho : o ∈ os)
    {u v : World σ} (hR : R u v) :
    Alike R (rules.resolve render text d o u) (rules.resolve render text d o v) := by
  have hnames := h.names hR
  rcases u.tag_cases rules.registry o with hescaped | hcalls | hleaves
  · rw [Rules.resolve_of_escaped hescaped, Rules.resolve_of_escaped hescaped]
    exact .ok hR
  · have hcalls' : v.calls rules.registry o = true := by
      rw [World.calls, ← hnames]
      exact hcalls
    obtain ⟨handler, hhandler⟩ := Option.isSome_iff_exists.1 (Bool.and_eq_true_iff.1 hcalls).2
    obtain ⟨handler', hhandler'⟩ := Option.isSome_iff_exists.1 (Bool.and_eq_true_iff.1 hcalls').2
    rw [Rules.resolve_of_calls hcalls hhandler, Rules.resolve_of_calls hcalls' hhandler']
    exact (h.runs o ho hR hcalls hhandler hhandler').resolved o
  · have hleaves' : v.leavesToPolicy rules.registry o = true := by
      rw [World.leavesToPolicy, ← hnames]
      exact hleaves
    rw [Rules.resolve_of_leavesToPolicy rules rfl hleaves,
      Rules.resolve_of_leavesToPolicy rules rfl hleaves']
    exact .ok hR

namespace Renderer

variable {renderer : Renderer σ} {text : Text} {w v : World σ}

/-- From starts with one policy and one state of the host, runs whose handlers end alike end alike.
The relation may leave the policy out, so handlers may set what policies they like. -/
theorem alike_renderWithin_of_matching {R : World σ → World σ → Prop} (depth : Nat)
    (hstart : ∀ state, R { w with state := state } { v with state := state })
    (hstate : v.state = w.state)
    (hpolicy : renderer.policy.getD v.policy = renderer.policy.getD w.policy)
    (h : Rules.Matching R (fun r => renderWithin depth (.standard r)) renderer.registry text
      (renderer.analyzed text w).1 (renderer.scan text w).occurrences) :
    Alike R (renderer.renderWithin (depth + 1) text w)
      (renderer.renderWithin (depth + 1) text v) := by
  have hR : R w v := by
    have hsame := hstart w.state
    rw [← hstate] at hsame
    rwa [show ({ w with state := v.state } : World σ) = w by rw [hstate]] at hsame
  have hrules : renderer.rules v = renderer.rules w := congrArg (Rules.mk _) hpolicy
  have hscan : renderer.scan text v = renderer.scan text w :=
    congrArg (Scan.ofText text) (h.names hR).symm
  have hactionable : renderer.hasActionable text v = renderer.hasActionable text w := by
    rw [hasActionable, hasActionable, hscan, hrules]
    refine congrArg (List.any _) (funext fun o => ?_)
    have hregistered : v.isRegistered (renderer.rules w).registry =
        w.isRegistered (renderer.rules w).registry := (h.names hR).symm
    rw [Rules.isActionable, Rules.isActionable, hregistered]
  cases hbusy : renderer.hasActionable text w with
  | false =>
    rw [renderWithin, renderWithin, step_of_idle hbusy, step_of_idle (hactionable.trans hbusy)]
    refine .ok ?_
    split
    · exact hR
    · exact h.record hR _ _
  | true =>
    have hstart' : R (renderer.analyzed text w).2 (renderer.analyzed text v).2 := by
      rw [analyzed, analyzed, if_pos hbusy, if_pos (hactionable.trans hbusy), hscan, hstate]
      exact hstart _
    have hdocument : (renderer.analyzed text v).1 = (renderer.analyzed text w).1 := by
      rw [analyzed, analyzed, if_pos hbusy, if_pos (hactionable.trans hbusy), hscan, hstate]
    rw [renderWithin_of_busy hbusy, renderWithin_of_busy (hactionable.trans hbusy), hrules, hscan,
      hdocument]
    exact Rules.alike_renderSegments h.record _ (fun o ho _ _ hR => h.alike_resolve ho hR) hstart'

end Renderer

end Shortcode
