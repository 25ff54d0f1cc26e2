import Shortcode.Proofs.Templates

/-!
# Renderings that descend

A handler that fills a template renders the content of its tag and nothing else, and the content is
shorter than the text that is being rendered.  `Renderer.descend` renders by recursion on the length
of the text: it gives up where a handler asks for a text that is not shorter than the one that the
handler was called for.  With templates it never gives up, so the depth that is allowed for does not
matter either, as long as it exceeds the length of the text.

    text.length < depth →
      (standard r).renderWithin depth text w = (standard r).descend text w = .ok out v
                                                                 (renderWithin_templates_eq_descend)
-/

namespace Shortcode

open Result (Alike)

variable {σ : Type}

/-- Renders texts of less than `n` bytes and gives up at others. -/
def Rendering.shorterThan (n : Nat) (render : Rendering σ) : Rendering σ := fun r text w =>
  if text.length < n then render r text w else .tooDeep

/-- A host beside itself, in one world that has no more than messages added to `base`. -/
def Likeness.covering (base : World σ) : Likeness σ σ where
  worlds w v := w = v ∧ w.Covers base
  handler := id
  handler?_eq := by
    rintro w _ ⟨rfl, -⟩ r tag
    rw [Option.map_id_fun, id]
  record := by
    rintro w _ ⟨rfl, h⟩ level message
    exact ⟨rfl, (World.Covers.recorded w _ _).trans h⟩

namespace Renderer

/-- Renders a text, and inside it only texts that are shorter than the text around them. -/
def descend (renderer : Renderer σ) (text : Text) (w : World σ) : Result σ RenderError Text :=
  renderer.step (fun r inner u =>
    if inner.length < text.length then descend (.standard r) inner u else .tooDeep) text w
termination_by text.length

theorem descend_eq (renderer : Renderer σ) (text : Text) (w : World σ) :
    renderer.descend text w =
      renderer.step (.shorterThan text.length fun r => (standard r).descend) text w := by
  rw [descend]
  rfl

variable {r : Registry} {w : World σ}

/-- With templates, a rendering of some depth and one that descends end in the same way. -/
theorem alike_descend (hw : w.OnlyTemplates r) {depth : Nat} {text : Text}
    (hdepth : text.length < depth) :
    Alike (Likeness.covering w).worlds ((standard r).renderWithin depth text w)
      ((standard r).descend text w) := by
  induction depth generalizing text w with
  | zero => omega
  | succ depth ih =>
    rw [renderWithin, descend_eq]
    cases hbusy : (standard r).hasActionable text w with
    | false =>
      rw [step_of_idle hbusy, step_of_idle hbusy]
      refine .ok ⟨rfl, ?_⟩
      split
      · exact .refl w
      · exact .recorded w _ _
    | true =>
      rw [step_of_busy hbusy, step_of_busy hbusy]
      refine Likeness.alike_renderSegments_of_resolve _ (fun o ho u _ hu => ?_) ⟨rfl, .refl w⟩
      obtain ⟨rfl, hu⟩ := hu
      have hscan : o ∈ (Scan.ofText text (w.isRegistered r)).occurrences := ho
      rcases w.tag_cases r o with hescaped | hcalls | hleaves
      · rw [Rules.resolve_of_escaped hescaped, Rules.resolve_of_escaped hescaped]
        exact .ok ⟨rfl, hu⟩
      · refine Rules.alike_resolve_of_template hw hcalls hu.tables hu.tables ⟨rfl, hu⟩
          fun content hcontent => ?_
        -- the content is shorter than the text, so descending does not give up at it
        have hlt := Scan.length_contentText_lt hscan hcontent
        rw [Rendering.shorterThan, if_pos hlt]
        exact (ih (hw.of_tables hu.tables) (by omega : content.length < depth)).mono
          fun _ _ h => ⟨h.1, h.2.trans hu⟩
      · rw [Rules.resolve_of_leavesToPolicy _ hu.tables hleaves,
          Rules.resolve_of_leavesToPolicy _ hu.tables hleaves]
        exact .ok ⟨rfl, hu⟩

/-- With templates a descending rendering does not give up, nor does any handler fail. -/
theorem exists_descend_templates (hw : w.OnlyTemplates r) (text : Text) :
    ∃ out v, (standard r).descend text w = .ok out v ∧ v.Covers w ∧
      ∀ depth, text.length < depth → (standard r).renderWithin depth text w = .ok out v := by
  have hdescend : ∀ {depth : Nat} {out : Text} {v : World σ}, text.length < depth →
      (standard r).renderWithin depth text w = .ok out v →
        (standard r).descend text w = .ok out v := by
    intro depth out v hdepth hout
    have halike := alike_descend hw hdepth
    rw [hout] at halike
    obtain ⟨_, hdescend, rfl, -⟩ := halike.exists_of_ok
    exact hdescend
  obtain ⟨out, v, hout, hv⟩ := exists_renderWithin_templates hw text.length.lt_succ_self
  refine ⟨out, v, hdescend text.length.lt_succ_self hout, hv, fun depth hdepth => ?_⟩
  obtain ⟨out', v', hout', -⟩ := exists_renderWithin_templates hw hdepth
  have hsame := (hdescend hdepth hout').symm.trans (hdescend text.length.lt_succ_self hout)
  rw [hout', hsame]

end Renderer

/-! ## Settings whose templates can be read -/

/-- Handlers are registered up to the first without a template. -/
theorem Settings.registerEach_of_bodies {read : FileReader} {specs : List (Text × TemplateSpec)}
    (h : ∀ e ∈ specs, ∃ template, body read e.1 e.2 = .ok template) (r : Registry) (w : World σ) :
    (registerEach read r specs w).1 = .ok () := by
  induction specs generalizing w with
  | nil => rfl
  | cons e rest ih =>
    obtain ⟨⟨template, htemplate⟩, hrest⟩ := List.forall_mem_cons.1 h
    rw [registerEach, htemplate]
    exact ih hrest _

namespace Renderer

/-- With settings whose templates can all be read, every text is rendered without an error, however
its tags are nested, whatever the policy and whatever the host did before.  Each text that a handler
renders is shorter than the one around it. -/
theorem renderWithin_templates_eq_descend (read : FileReader) (s : Settings) (name : Text)
    (before : World σ)
    (hbodies : ∀ e ∈ s.handlers.entries, ∃ template, Settings.body read e.1 e.2 = .ok template) :
    let r := (before.newRegistry name).1
    let filled := s.registerAll read r (before.newRegistry name).2
    filled.1 = .ok () ∧
      ∀ (text : Text) (w : World σ), w.tables = filled.2.tables →
        ∃ out v, (standard r).descend text w = .ok out v ∧ v.Covers w ∧
          (standard r).render text w = .ok out v ∧
          ∀ depth, text.length < depth → (standard r).renderWithin depth text w = .ok out v := by
  intro r filled
  refine ⟨Settings.registerEach_of_bodies hbodies r _, fun text w hw => ?_⟩
  have hfilled : filled.2.OnlyTemplates r :=
    World.onlyTemplates_registerAll (before.handler?_newRegistry name) read s
  obtain ⟨out, v, hdescend, hv, hdepth⟩ := exists_descend_templates (hfilled.of_tables hw) text
  exact ⟨out, v, hdescend, hv, hdepth _ text.length.lt_succ_self, hdepth⟩

/-- Tags in each other, one of them in a tag of its own name. -/
theorem renderWithin_templates_nested :
    (let read : FileReader := fun _ => .error .notFound;
    let bold : TemplateSpec := ⟨some (.ofString "<b>{content}</b>"), none, none⟩;
    let note : TemplateSpec := ⟨some (.ofString "({content})"), none, none⟩;
    let s : Settings := { Settings.default with
      handlers := .ofList [(Text.ofString "b", bold), (Text.ofString "i", note)]
      tags_valid := by decide +kernel };
    let r : Registry := ⟨0, []⟩;
    let filled : World Unit := (s.registerAll read r ((World.initial ()).newRegistry []).2).2;
    let text := Text.ofString "[b]1[i]2[b]3[/i][/b]";
    let out := Text.ofString "<b>1(2<b></b>3)</b>";
    (∀ e ∈ s.handlers.entries, ∃ template, Settings.body read e.1 e.2 = .ok template) ∧
      ∃ v, (standard r).descend text filled = .ok out v ∧ v.Covers filled ∧
        (standard r).render text filled = .ok out v ∧
        ∀ depth, text.length < depth →
          (standard r).renderWithin depth text filled = .ok out v) := by
  intro read bold note s r filled text out
  have hbodies : ∀ e ∈ s.handlers.entries,
      ∃ template, Settings.body read e.1 e.2 = .ok template := by
    have hentries :
        s.handlers.entries = [(Text.ofString "b", bold), (Text.ofString "i", note)] := rfl
    rw [hentries]
    simp only [List.forall_mem_cons]
    exact ⟨⟨_, rfl⟩, ⟨_, rfl⟩, List.forall_mem_nil _⟩
  have hout : ((standard r).render text filled).value? = some out := by decide +kernel
  obtain ⟨-, hrender⟩ := renderWithin_templates_eq_descend read s [] (World.initial ()) hbodies
  obtain ⟨out', v, hdescend, hv, hsame, hdepth⟩ := hrender text filled rfl
  have htext : (standard r).render text filled = .ok out' v := hsame
  rw [htext] at hout
  obtain rfl : out' = out := Option.some.inj hout
  exact ⟨hbodies, v, hdescend, hv, hsame, hdepth⟩

end Renderer

end Shortcode
