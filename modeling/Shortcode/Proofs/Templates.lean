import Shortcode.Proofs.FastPaths
import Shortcode.Proofs.Registering
import Shortcode.Proofs.TokenPlaces
import Shortcode.Settings

/-!
# Renderings with templates

The handlers of a settings file fill templates.  Such a handler does one thing besides giving a
text: it renders the content of its tag, if the tag has content, with the registry that it was
called by.  So a rendering in which all handlers fill templates changes the log alone, and since
content is shorter than the text that it stands in, the length of the text is depth enough.

    w.OnlyTemplates r → text.length < depth →
      ∃ out v, (standard r).renderWithin depth text w = .ok out v ∧ v.Covers w
                                                                    (exists_renderWithin_templates)
-/

namespace Shortcode

open Result (Alike)

variable {σ : Type}

/-! ## Worlds whose handlers fill templates -/

namespace World

variable {w v : World σ} {r : Registry}

/-- Every handler of a registry fills a template. -/
def OnlyTemplates (w : World σ) (r : Registry) : Prop :=
  ∀ tag handler, w.handler? r tag = some handler →
    ∃ template placement, handler = Template.handler template placement

theorem OnlyTemplates.register (hw : w.OnlyTemplates r) (tag template : Text)
    (placement : Option Placement) :
    (w.register r tag (Template.handler template placement)).OnlyTemplates r := by
  intro other found hfound
  rcases handler?_register hfound with rfl | hfound
  · exact ⟨template, placement, rfl⟩
  · exact hw other found hfound

/-- Registering the handlers of settings registers templates only. -/
theorem OnlyTemplates.registerEach (hw : w.OnlyTemplates r) (read : FileReader)
    (specs : List (Text × TemplateSpec)) :
    (Settings.registerEach read r specs w).2.OnlyTemplates r := by
  induction specs generalizing w with
  | nil => exact hw
  | cons e rest ih =>
    rw [Settings.registerEach]
    cases Settings.body read e.1 e.2 with
    | error error => exact hw
    | ok template => exact ih (hw.register e.1 template e.2.placement)

/-- The handlers of a registry that was empty before the settings were read fill templates. -/
theorem onlyTemplates_registerAll (h : ∀ tag, w.handler? r tag = none) (read : FileReader)
    (s : Settings) : (s.registerAll read r w).2.OnlyTemplates r :=
  OnlyTemplates.registerEach (fun tag _ hfound => by cases (h tag).symm.trans hfound) read _

/-! ## Tags of a registry -/

/-- Whether a tag is given to a handler. -/
def calls (w : World σ) (r : Registry) (o : Occurrence) : Bool :=
  !o.escaped && o.form != .strayClose && w.isRegistered r o.name

/-- Whether a tag is left to the policy. -/
def leavesToPolicy (w : World σ) (r : Registry) (o : Occurrence) : Bool :=
  !o.escaped && (o.form == .strayClose || !w.isRegistered r o.name)

theorem OnlyTemplates.exists_template (hw : w.OnlyTemplates r) {o : Occurrence}
    (hcalls : w.calls r o = true) :
    ∃ template placement, w.handler? r o.name = some (Template.handler template placement) := by
  have hregistered : (w.handler? r o.name).isSome = true := (Bool.and_eq_true_iff.1 hcalls).2
  obtain ⟨found, hfound⟩ := Option.isSome_iff_exists.1 hregistered
  obtain ⟨template, placement, rfl⟩ := hw o.name found hfound
  exact ⟨template, placement, hfound⟩

/-- A tag is an escape, has a handler or is left to the policy. -/
theorem tag_cases (w : World σ) (r : Registry) (o : Occurrence) :
    o.escaped = true ∨ w.calls r o = true ∨ w.leavesToPolicy r o = true := by
  rw [calls, leavesToPolicy, bne]
  cases o.escaped <;> cases o.form == .strayClose <;> cases w.isRegistered r o.name <;> simp

/-! ## The same handlers -/

theorem isRegistered_of_tables (h : w.tables = v.tables) (r : Registry) :
    w.isRegistered r = v.isRegistered r := by
  funext tag
  rw [isRegistered, isRegistered, handlers, handlers, h]

theorem calls_of_tables (h : w.tables = v.tables) (r : Registry) : w.calls r = v.calls r := by
  funext o
  rw [calls, calls, isRegistered_of_tables h]

theorem leavesToPolicy_of_tables (h : w.tables = v.tables) (r : Registry) :
    w.leavesToPolicy r = v.leavesToPolicy r := by
  funext o
  rw [leavesToPolicy, leavesToPolicy, isRegistered_of_tables h]

theorem OnlyTemplates.of_tables (hw : w.OnlyTemplates r) (h : v.tables = w.tables) :
    v.OnlyTemplates r := by
  intro tag found hfound
  rw [handler?_of_tables h] at hfound
  exact hw tag found hfound

end World

/-! ## Tags with templates -/

/-- What a tag stands for whose handler fills a template, if its content is rendered as `out`. -/
def Template.resolved (template : Text) (placement : Option Placement) (o : Occurrence)
    (out : Text) : Resolved :=
  ⟨fill (valueOf out o.arguments) template, placement.getD (.ofArguments o.arguments)⟩

namespace Rules

variable {render : Rendering σ} {rules : Rules} {source : Text} {d : Document} {o : Occurrence}
  {u w : World σ}

theorem resolve_of_escaped (h : o.escaped = true) :
    rules.resolve render source d o w = .ok ⟨o.unescaped source, .inline⟩ w := by
  rw [resolve, if_pos h]

/-- A tag that is left to the policy in a world is so in any world with the same handlers. -/
theorem resolve_of_leavesToPolicy (rules : Rules) (hu : u.tables = w.tables)
    (h : w.leavesToPolicy rules.registry o = true) (render : Rendering σ) (source : Text)
    (d : Document) : rules.resolve render source d o u =
      .ok ⟨rules.policy.apply (o.text source) o.context.isBody, .inline⟩ u := by
  rw [← World.leavesToPolicy_of_tables hu] at h
  simp only [World.leavesToPolicy, Bool.and_eq_true, Bool.not_eq_true', Bool.or_eq_true,
    beq_iff_eq] at h
  obtain ⟨hescaped, hform⟩ := h
  refine resolve_of_handler?_eq_none hescaped ?_ render source d
  unfold handler?
  split
  · rfl
  · rename_i hstray
    have hnone : (u.handler? rules.registry o.name).isSome = false := hform.resolve_left hstray
    simpa using hnone

/-- A tag with a handler stands for what the handler gives. -/
theorem resolve_of_calls {handler : Handler σ} (hcalls : w.calls rules.registry o = true)
    (hhandler : w.handler? rules.registry o.name = some handler) :
    rules.resolve render source d o w =
      o.resolved ((handler (rules.invocation source d o)).run render w) := by
  simp only [World.calls, Bool.and_eq_true, Bool.not_eq_true', bne_iff_ne, ne_eq] at hcalls
  obtain ⟨⟨hescaped, hform⟩, -⟩ := hcalls
  have hfound : rules.handler? o w = some handler := by rw [handler?, if_neg hform, hhandler]
  rewrite [resolve, if_neg (by simp [hescaped]), hfound]
  rfl

/-- A handler that fills a template renders the content of its tag and nothing else, in any world
with the same handlers. -/
theorem resolve_of_template (rules : Rules) {template : Text} {placement : Option Placement}
    (hu : u.tables = w.tables) (hcalls : w.calls rules.registry o = true)
    (hhandler : w.handler? rules.registry o.name = some (Template.handler template placement)) :
    rules.resolve render source d o u =
      match o.contentText source with
      | none => .ok (Template.resolved template placement o []) u
      | some content =>
        match render rules.registry content u with
        | .ok out v => .ok (Template.resolved template placement o out) v
        | .error e v => .error ⟨o.name, e.toFailure⟩ v
        | .tooDeep => .tooDeep := by
  rw [← World.calls_of_tables hu] at hcalls
  rw [← World.handler?_of_tables hu] at hhandler
  rw [resolve_of_calls hcalls hhandler]
  simp only [Occurrence.resolved, Template.handler, Template.rendered, invocation]
  cases o.contentText source with
  | none => rfl
  | some content =>
    simp only [Action.rendered, Action.run]
    cases render rules.registry content u with
    | ok out v => rfl
    | error e v => rfl
    | tooDeep => rfl

/-- A tag whose handler fills one template in both worlds is resolved alike, under any policies, if
its content is rendered alike. -/
theorem alike_resolve_of_same_template {R : World σ → World σ → Prop} {r : Registry} {p q : Policy}
    {render' : Rendering σ} {v : World σ} {template : Text} {placement : Option Placement}
    (hu : u.calls r o = true)
    (hhandler : u.handler? r o.name = some (Template.handler template placement))
    (hv : v.calls r o = true)
    (hhandler' : v.handler? r o.name = some (Template.handler template placement)) (h : R u v)
    (hrender : ∀ content, o.contentText source = some content →
      Alike R (render r content u) (render' r content v)) :
    Alike R ((Rules.mk r p).resolve render source d o u)
      ((Rules.mk r q).resolve render' source d o v) := by
  rw [resolve_of_template ⟨r, p⟩ rfl hu hhandler, resolve_of_template ⟨r, q⟩ rfl hv hhandler']
  cases hcontent : o.contentText source with
  | none => exact .ok h
  | some content =>
    have hout := hrender content hcontent
    dsimp only
    generalize render r content u = x at hout ⊢
    generalize render' r content v = y at hout ⊢
    cases hout with
    | ok h => exact .ok h
    | error h => exact .error h
    | tooDeep => exact .tooDeep

/-- So it is in worlds with the handlers of one world. -/
theorem alike_resolve_of_template {R : World σ → World σ → Prop} {r : Registry} {p q : Policy}
    {render' : Rendering σ} {v : World σ} (hw : w.OnlyTemplates r) (hcalls : w.calls r o = true)
    (hu : u.tables = w.tables) (hv : v.tables = w.tables) (h : R u v)
    (hrender : ∀ content, o.contentText source = some content →
      Alike R (render r content u) (render' r content v)) :
    Alike R ((Rules.mk r p).resolve render source d o u)
      ((Rules.mk r q).resolve render' source d o v) := by
  obtain ⟨template, placement, hhandler⟩ := hw.exists_template hcalls
  exact alike_resolve_of_same_template ((congrFun (World.calls_of_tables hu r) o).trans hcalls)
    ((congrFun (World.handler?_of_tables hu r) _).trans hhandler)
    ((congrFun (World.calls_of_tables hv r) o).trans hcalls)
    ((congrFun (World.handler?_of_tables hv r) _).trans hhandler) h hrender

/-- Nothing but a message is added when a text is placed. -/
theorem covers_place (o : Occurrence) (resolved : Resolved) (d : Document) (spans : List Span)
    (w : World σ) : (place o resolved d spans w).2.Covers w := by
  unfold place
  cases o.destination resolved.placement d spans with
  | inline => exact .refl w
  | anchor a => exact .refl w
  | refused why => exact .recorded w _ _

end Rules

/-! ## Renderings that come to an end -/

/-- The content of a tag is shorter than the text that the tag stands in. -/
theorem Scan.length_contentText_lt {source : Text} {pairs : Text → Bool} {o : Occurrence}
    (ho : o ∈ (ofText source pairs).occurrences) {content : Text}
    (hcontent : o.contentText source = some content) : content.length < source.length := by
  obtain ⟨c, hc, rfl⟩ := Option.map_eq_some_iff.1 hcontent
  have hbounds := content_bounds ho hc
  have hmem : o.span ∈ (Occurrence.ofBrackets pairs (tags source)).map (·.span) :=
    List.mem_map_of_mem (occurrences_ofText source pairs ▸ ho)
  have hspan := (occurrences_inOrder source pairs).1.bounds hmem
  simp only [Span.slice, List.length_take, List.length_drop]
  omega

namespace Rules

variable {render : Rendering σ} {rules : Rules} {source : Text} {d : Document} {o : Occurrence}
  {u w : World σ}

/-- A tag whose handler fills a template does not fail if its content is rendered. -/
theorem exists_resolve_of_template (hw : w.OnlyTemplates rules.registry)
    (hcalls : w.calls rules.registry o = true) (hu : u.Covers w)
    (hrender : ∀ content, o.contentText source = some content →
      ∃ out v, render rules.registry content u = .ok out v ∧ v.Covers w) :
    ∃ r v, rules.resolve render source d o u = .ok r v ∧ v.Covers w := by
  obtain ⟨template, placement, hhandler⟩ := hw.exists_template hcalls
  rw [resolve_of_template rules hu.tables hcalls hhandler]
  cases hcontent : o.contentText source with
  | none => exact ⟨_, u, rfl, hu⟩
  | some content =>
    obtain ⟨out, v, hout, hv⟩ := hrender content hcontent
    exact ⟨Template.resolved template placement o out, v, by simp only [hout], hv⟩

/-- If no tag fails, whatever was logged before it, all tags are resolved. -/
theorem exists_resolutions_of_resolve (spans : List Span) {os : List Occurrence}
    (h : ∀ o ∈ os, ∀ u : World σ, u.Covers w →
      ∃ r v, rules.resolve render source d o u = .ok r v ∧ v.Covers w) (hu : u.Covers w) :
    ∃ rs v, rules.resolutions render source d spans os u = .ok rs v ∧ v.Covers w := by
  induction os generalizing u with
  | nil => exact ⟨[], u, rfl, hu⟩
  | cons o rest ih =>
    obtain ⟨r, v, hr, hv⟩ := h o List.mem_cons_self u hu
    obtain ⟨rs, last, hrs, hlast⟩ := ih (fun p hp => h p (List.mem_cons_of_mem _ hp))
      ((covers_place o r d spans v).trans hv)
    exact ⟨r :: rs, last, by rw [resolutions, hr]; simp only [hrs], hlast⟩

theorem exists_renderSegments_of_resolve {segments : List Segment}
    (h : ∀ o ∈ segments.filterMap Segment.occurrence?, ∀ u : World σ, u.Covers w →
      ∃ r v, rules.resolve render source d o u = .ok r v ∧ v.Covers w) (hu : u.Covers w) :
    ∃ out v, rules.renderSegments render source segments d u = .ok out v ∧ v.Covers w := by
  obtain ⟨rs, v, hrs, hv⟩ := exists_resolutions_of_resolve
    ((segments.filterMap Segment.occurrence?).map (·.span)) h hu
  exact ⟨_, v, by rw [renderSegments_eq_map, resolveAll_eq, hrs, Result.map, Result.map], hv⟩

end Rules

namespace Renderer

variable {w : World σ} {r : Registry}

/-- A rendering with templates ends with a text, with no more than messages added to the world. -/
theorem exists_renderWithin_templates (hw : w.OnlyTemplates r) {depth : Nat} {text : Text}
    (hdepth : text.length < depth) :
    ∃ out v, (standard r).renderWithin depth text w = .ok out v ∧ v.Covers w := by
  induction depth generalizing text w with
  | zero => omega
  | succ depth ih =>
    rw [renderWithin]
    cases hbusy : (standard r).hasActionable text w with
    | false =>
      refine ⟨text, _, step_of_idle hbusy, ?_⟩
      split
      · exact .refl w
      · exact .recorded w _ _
    | true =>
      rw [step_of_busy hbusy]
      refine Rules.exists_renderSegments_of_resolve (fun o ho u hu => ?_) (.refl w)
      have hscan : o ∈ (Scan.ofText text (w.isRegistered r)).occurrences := ho
      rcases w.tag_cases r o with hescaped | hcalls | hleaves
      · exact ⟨_, u, Rules.resolve_of_escaped hescaped, hu⟩
      · refine Rules.exists_resolve_of_template hw hcalls hu fun content hcontent => ?_
        -- the content is shorter than the text, so one level less is enough for it
        have hlt := Scan.length_contentText_lt hscan hcontent
        obtain ⟨out, v, hout, hv⟩ :=
          ih (hw.of_tables hu.tables) (by omega : content.length < depth)
        exact ⟨out, v, hout, hv.trans hu⟩
      · exact ⟨_, u, Rules.resolve_of_leavesToPolicy _ hu.tables hleaves _ _ _, hu⟩

end Renderer

end Shortcode
