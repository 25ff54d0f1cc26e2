import Shortcode.Proofs.Untouched

/-!
# What the policy is applied to

Which tags take content is settled when a text is scanned, and who handles a tag when it is
resolved; the handlers of the tags in front of it run in between.  `Rules.Reaches` tells in which
world each occurrence is resolved.

A tag that is left to the policy is a single bracket tag, so that the policy never takes away
enclosed text, unless its name had a handler when the rendering started and was unregistered since:

    renderer.Resolves render text w o v → (renderer.rules w).handler? o v = none →
      (w.isRegistered … o.name = true → v.isRegistered … o.name = true) →
        o.content = none ∧ ∃ b ∈ Scan.tags text, o.span = b.span            (policy_spares_content)
-/

namespace Shortcode

variable {σ : Type}

/-! ## Occurrences and the worlds they are resolved in -/

namespace Rules

/-- Going through the occurrences from world `w` on, `o` is resolved in the world `v`. -/
inductive Reaches (render : Rendering σ) (rules : Rules) (source : Text) (d : Document)
    (spans : List Span) : List Occurrence → World σ → Occurrence → World σ → Prop
  | here {o : Occurrence} {rest : List Occurrence} {w : World σ} :
      Reaches render rules source d spans (o :: rest) w o w
  | later {o p : Occurrence} {rest : List Occurrence} {w w' v : World σ} {r : Resolved} :
      rules.resolve render source d o w = .ok r w' →
      Reaches render rules source d spans rest (place o r d spans w').2 p v →
      Reaches render rules source d spans (o :: rest) w p v

variable {render : Rendering σ} {rules : Rules} {source : Text} {d : Document}
  {spans : List Span} {os : List Occurrence} {o : Occurrence} {w v : World σ}

theorem Reaches.mem (h : rules.Reaches render source d spans os w o v) : o ∈ os := by
  induction h with
  | here => exact List.mem_cons_self
  | later _ _ ih => exact List.mem_cons_of_mem _ ih

end Rules

/-- Rendering a text that starts in world `w` resolves the occurrence `o` in the world `v`. -/
structure Renderer.Resolves (render : Rendering σ) (renderer : Renderer σ) (text : Text)
    (w : World σ) (o : Occurrence) (v : World σ) : Prop where
  scanned : isPlain text = false
  actionable : (renderer.scan text w).occurrences.any ((renderer.rules w).isActionable · w) = true
  reaches :
    let analysis := renderer.analyzer text (renderer.scan text w).markup w.state
    (renderer.rules w).Reaches render text analysis.1
      ((renderer.scan text w).occurrences.map (·.span)) (renderer.scan text w).occurrences
      { w with state := analysis.2 } o v

/-! ## Enclosing occurrences -/

namespace Occurrence

/-- An occurrence that is no escape is one bracket tag, or a pair of a name that takes content. -/
theorem Origin.single_or_pair {pairs : Text → Bool} {bs : List Bracket} {o : Occurrence}
    (h : Origin pairs bs o) (hescaped : o.escaped = false) :
    (o.form ≠ .enclosing ∧ o.content = none ∧ ∃ b ∈ bs, o.span = b.span) ∨
      o.form = .enclosing ∧ pairs o.name = true := by
  cases h with
  | @single pre rest b arguments form hbs halone =>
    refine .inl ⟨halone.form_ne, rfl, b, by simp [hbs], ?_⟩
    show widen b.span b.isEscape = b.span
    rw [show b.isEscape = false from hescaped]
    rfl
  | @pair pre mid after b close arguments _ _ _ _ hpairs =>
    refine .inr ⟨rfl, ?_⟩
    have hnot : (b.lead && close.trail) = false := hescaped
    rwa [hnot, Bool.false_or] at hpairs

end Occurrence

/-! ## Main statement -/

namespace Renderer

variable {render : Rendering σ} {renderer : Renderer σ} {text : Text} {w v : World σ}
  {o : Occurrence}

/-- **The policy spares content.**  A tag that is left to the policy is a single bracket tag, and
the policy is given the text of that tag alone, if its name has not lost its handler since the
rendering started. -/
theorem policy_spares_content (h : renderer.Resolves render text w o v)
    (hescaped : o.escaped = false) (hhandler : (renderer.rules w).handler? o v = none)
    (hkept : w.isRegistered renderer.registry o.name = true →
      v.isRegistered renderer.registry o.name = true) :
    o.form ≠ .enclosing ∧ o.content = none ∧ (∃ b ∈ Scan.tags text, o.span = b.span) ∧
      ∀ d, (renderer.rules w).resolve render text d o v =
        .ok ⟨(renderer.rules w).policy.apply (o.text text) o.context.isBody, .inline⟩ v := by
  have hmem : o ∈ (renderer.scan text w).occurrences := h.reaches.mem
  rw [scan, Scan.occurrences_ofText] at hmem
  have horigin := (Occurrence.pairing_ofBrackets (w.isRegistered renderer.registry)
    (Scan.tags text)).origin hmem
  have hsingle : o.form ≠ .enclosing ∧ o.content = none ∧
      ∃ b ∈ Scan.tags text, o.span = b.span := by
    rcases horigin.single_or_pair hescaped with hsingle | ⟨hform, hpairs⟩
    · exact hsingle
    · -- a name that takes content had a handler, so it still has one
      have hregistered := hkept hpairs
      have hclose : ¬ o.form = .strayClose := by
        rw [hform]
        decide
      rw [Rules.handler?, if_neg hclose] at hhandler
      have hnone : (v.handler? renderer.registry o.name).isSome = true := hregistered
      rw [show v.handler? renderer.registry o.name = none from hhandler] at hnone
      cases hnone
  exact ⟨hsingle.1, hsingle.2.1, hsingle.2.2, fun d =>
    Rules.resolve_of_handler?_eq_none hescaped hhandler render text d⟩

/-- A close tag with nothing to close is left to the policy though its name has a handler, in a
rendering in which another handler unregisters itself. -/
theorem policy_spares_content_stray :
    (let registry : Registry := ⟨0, []⟩;
    let text := Text.ofString "[once][t /]x[/t]";
    let once : Handler Unit := fun i => .unregister i.registry i.name fun _ => .give [] none;
    let keep : Handler Unit := fun i => .give (i.content.getD []) none;
    let w : World Unit := ((((World.initial ()).newRegistry []).2.register registry
      (Text.ofString "once") once).register registry (Text.ofString "t") keep);
    let v := (w.unregister registry (Text.ofString "once")).2;
    let o : Occurrence := ⟨Text.ofString "t", .empty, none, .strayClose, ⟨12, 16⟩, false, .body⟩;
    let strip : Renderer Unit := ⟨registry, .standard, some .strip⟩;
    strip.Resolves (fun r => renderWithin text.length (.standard r)) text w o v ∧
      o.escaped = false ∧ (strip.rules w).handler? o v = none ∧
      w.isRegistered registry o.name = true ∧ v.isRegistered registry o.name = true ∧
      o.form ≠ .enclosing ∧ o.content = none ∧ (∃ b ∈ Scan.tags text, o.span = b.span) ∧
      ∀ d, (strip.rules w).resolve (fun r => renderWithin text.length (.standard r)) text d o v =
        .ok ⟨(strip.rules w).policy.apply (o.text text) o.context.isBody, .inline⟩ v) := by
  intro registry text once keep w v o strip
  have hoccurrences : (strip.scan text w).occurrences =
      [⟨Text.ofString "once", .empty, none, .opening, ⟨0, 6⟩, false, .body⟩,
        ⟨Text.ofString "t", .empty, none, .selfClosing, ⟨6, 11⟩, false, .body⟩, o] := by
    decide +kernel
  have hresolves : strip.Resolves (fun r => renderWithin text.length (.standard r)) text w o v := by
    refine ⟨by decide +kernel, by decide +kernel, ?_⟩
    rw [hoccurrences]
    exact .later rfl (.later rfl .here)
  have hregistered : v.isRegistered registry o.name = true := by decide +kernel
  exact ⟨hresolves, rfl, rfl, by decide +kernel, hregistered,
    policy_spares_content hresolves rfl rfl fun _ => hregistered⟩

/-- The handler of `[kill]` unregisters `t`, so the pair behind it is left to the policy with its
content, and stripping takes the content away. -/
theorem exists_policy_takes_content :
    (let registry : Registry := ⟨0, []⟩;
    let text := Text.ofString "[kill][t]x[/t]";
    let kill : Handler Unit := fun i => .unregister i.registry (Text.ofString "t") fun found =>
      .give (if found then Text.ofString "true" else Text.ofString "false") none;
    let keep : Handler Unit := fun i => .give (i.content.getD []) none;
    let w : World Unit := { (((World.initial ()).newRegistry []).2.register registry
      (Text.ofString "kill") kill).register registry (Text.ofString "t") keep with
        policy := .strip };
    (∃ o v,
      (standard registry).Resolves (fun r => renderWithin text.length (.standard r)) text w o v ∧
        o.escaped = false ∧ ((standard registry).rules w).handler? o v = none ∧
        o.form = .enclosing ∧ o.contentText text = some (Text.ofString "x")) ∧
      ((standard registry).render text w).value? = some (Text.ofString "true")) := by
  intro registry text kill keep w
  let t : Occurrence := ⟨Text.ofString "t", .empty, some ⟨9, 10⟩, .enclosing, ⟨6, 14⟩, false, .body⟩
  have hoccurrences : ((standard registry).scan text w).occurrences =
      [⟨Text.ofString "kill", .empty, none, .opening, ⟨0, 6⟩, false, .body⟩, t] := by
    decide +kernel
  refine ⟨⟨t, (w.unregister registry (Text.ofString "t")).2,
    ⟨by decide +kernel, by decide +kernel, ?_⟩, rfl, ?_, rfl, by decide +kernel⟩, ?_⟩
  · rw [hoccurrences]
    exact .later rfl .here
  · rfl
  · decide +kernel

end Renderer

end Shortcode
