import Shortcode.Proofs.Templates

/-!
# Warnings where no mark-up is allowed

A tag without a handler that stands in an attribute value or a raw text body is kept as it is, under
`warn` as under `leave`.  Whether it stands there is decided for each text that is rendered.  The
content of a tag is rendered as a text of its own, and a tag in it may stand in ordinary text there
although the content itself lies in an attribute value:

    <a title="[b][x][/b]">     with   [handlers.b]  template = "{content}"

So the two policies give one output if the tags that are left to the policy stand where no mark-up
is allowed in each text that the rendering involves.

    (∀ o ∈ (Scan.ofText text …).occurrences, o.context.isBody = false) →
      (∀ content ∈ w.contents r text, w.WarnsNowhere r content) →
        ∃ out, the output under `warn` and the output under `leave` are `out`      (warn_eq_leave)
-/

namespace Shortcode

open Result (Alike)

variable {σ : Type}

/-! ## Texts inside a rendering -/

namespace World

variable {w v : World σ} {r : Registry} {text : Text}

/-- The contents of the tags of a text that have handlers. -/
def contents (w : World σ) (r : Registry) (text : Text) : List Text :=
  ((Scan.ofText text (w.isRegistered r)).occurrences.filter (w.calls r)).filterMap
    (·.contentText text)

theorem mem_contents {content : Text} : content ∈ w.contents r text ↔
    ∃ o ∈ (Scan.ofText text (w.isRegistered r)).occurrences,
      w.calls r o = true ∧ o.contentText text = some content := by
  simp only [contents, List.mem_filterMap, List.mem_filter, and_assoc]

/-- Rendering a text with templates involves the text and all that rendering its contents
involves. -/
inductive Involves (w : World σ) (r : Registry) : Text → Text → Prop
  | whole (text : Text) : Involves w r text text
  | content {text content part : Text} :
      content ∈ w.contents r text → Involves w r content part → Involves w r text part

/-- No tag that is left to the policy stands in ordinary text, neither in the text nor in any other
text that its rendering involves. -/
def WarnsNowhere (w : World σ) (r : Registry) (text : Text) : Prop :=
  ∀ part, w.Involves r text part → ∀ o ∈ (Scan.ofText part (w.isRegistered r)).occurrences,
    w.leavesToPolicy r o = true → o.context.isBody = false

/-- A text and its contents, one level at a time. -/
theorem warnsNowhere_iff : w.WarnsNowhere r text ↔
    (∀ o ∈ (Scan.ofText text (w.isRegistered r)).occurrences,
      w.leavesToPolicy r o = true → o.context.isBody = false) ∧
    ∀ content ∈ w.contents r text, w.WarnsNowhere r content := by
  constructor
  · intro h
    exact ⟨h text (.whole text), fun content hcontent part hpart =>
      h part (.content hcontent hpart)⟩
  · rintro ⟨hwhole, hcontents⟩ part hpart
    cases hpart with
    | whole => exact hwhole
    | content hcontent hpart => exact hcontents _ hcontent part hpart

/-- Two policies say the same of every tag that is left to them while a text is rendered. -/
def PoliciesAgree (w : World σ) (r : Registry) (p q : Policy) (text : Text) : Prop :=
  ∀ part, w.Involves r text part → ∀ o ∈ (Scan.ofText part (w.isRegistered r)).occurrences,
    w.leavesToPolicy r o = true →
      p.apply (o.text part) o.context.isBody = q.apply (o.text part) o.context.isBody

theorem PoliciesAgree.content {p q : Policy} (h : w.PoliciesAgree r p q text) {content : Text}
    (hcontent : content ∈ w.contents r text) : w.PoliciesAgree r p q content :=
  fun part hpart => h part (.content hcontent hpart)

/-- Where no mark-up is allowed, a warning is the tag itself. -/
theorem WarnsNowhere.policiesAgree (h : w.WarnsNowhere r text) :
    w.PoliciesAgree r .warn .leave text := by
  intro part hpart o ho hleaves
  rw [h part hpart o ho hleaves]
  rfl

end World

/-! ## Two policies side by side -/

/-- Two worlds with the handlers of `start`, the first under the policy `p` and the second under
`q`. -/
structure World.UnderPolicies (start : World σ) (p q : Policy) (w v : World σ) : Prop where
  left_tables : w.tables = start.tables
  right_tables : v.tables = start.tables
  left_policy : w.policy = p
  right_policy : v.policy = q

/-- A host beside itself, under another policy. -/
def Likeness.policies (start : World σ) (p q : Policy) : Likeness σ σ where
  worlds := start.UnderPolicies p q
  handler := id
  handler?_eq h r tag := by
    rw [World.handler?_of_tables h.left_tables, World.handler?_of_tables h.right_tables,
      Option.map_id_fun, id]
  record h _ _ := ⟨h.left_tables, h.right_tables, h.left_policy, h.right_policy⟩

section

variable {start w v : World σ} {p q : Policy} {r : Registry} {text : Text}

/-- Under two policies that agree about every tag left to them, texts are rendered alike. -/
theorem Renderer.alike_thoroughWithin_policies (hstart : start.OnlyTemplates r)
    (hagree : start.PoliciesAgree r p q text) (depth : Nat)
    (h : start.UnderPolicies p q w v) :
    Alike (start.UnderPolicies p q) ((standard r).thoroughWithin depth text w)
      ((standard r).thoroughWithin depth text v) := by
  induction depth generalizing text w v with
  | zero => exact .tooDeep
  | succ depth ih =>
    have hleft : (standard r).scan text w = Scan.ofText text (start.isRegistered r) :=
      congrArg (Scan.ofText text) (World.isRegistered_of_tables h.left_tables r)
    have hright : (standard r).scan text v = Scan.ofText text (start.isRegistered r) :=
      congrArg (Scan.ofText text) (World.isRegistered_of_tables h.right_tables r)
    have hrulesLeft : (standard r).rules w = ⟨r, p⟩ := congrArg (Rules.mk r) h.left_policy
    have hrulesRight : (standard r).rules v = ⟨r, q⟩ := congrArg (Rules.mk r) h.right_policy
    rw [thoroughWithin, thoroughWithin, thoroughStep, thoroughStep, hleft, hright, hrulesLeft,
      hrulesRight]
    refine (Likeness.policies start p q).alike_renderSegments_of_resolve _
      (fun o ho w' v' h' => ?_) h
    rcases start.tag_cases r o with hescaped | hcalls | hleaves
    · rw [Rules.resolve_of_escaped hescaped, Rules.resolve_of_escaped hescaped]
      exact .ok h'
    · refine Rules.alike_resolve_of_template hstart hcalls h'.left_tables h'.right_tables h'
        fun content hcontent => ?_
      have hmem : content ∈ start.contents r text :=
        World.mem_contents.2 ⟨o, ho, hcalls, hcontent⟩
      exact ih (hagree.content hmem) h'
    · -- only here do the two policies write anything
      have hsame := hagree text (.whole text) o ho hleaves
      rw [Rules.resolve_of_leavesToPolicy ⟨r, p⟩ h'.left_tables hleaves,
        Rules.resolve_of_leavesToPolicy ⟨r, q⟩ h'.right_tables hleaves, hsame]
      exact .ok h'

/-- So they are by renderings that take the ways around. -/
theorem Renderer.value?_renderWithin_policies (hstart : start.OnlyTemplates r)
    (hagree : start.PoliciesAgree r p q text) (depth : Nat)
    (h : start.UnderPolicies p q w v) :
    ((standard r).renderWithin depth text w).value? =
      ((standard r).renderWithin depth text v).value? :=
  calc ((standard r).renderWithin depth text w).value?
    _ = ((standard r).thoroughWithin depth text w).value? :=
      (renders_thoroughWithin depth r text (.refl w)).value?_eq
    _ = ((standard r).thoroughWithin depth text v).value? :=
      (alike_thoroughWithin_policies hstart hagree depth h).value?_eq
    _ = ((standard r).renderWithin depth text v).value? :=
      (renders_thoroughWithin depth r text (.refl v)).value?_eq.symm

end

/-! ## Main statement -/

namespace Renderer

/-- **Warnings where no mark-up is allowed.**  With the handlers of settings, a text all of whose
tags stand in attribute values or raw text bodies is rendered under `warn` as under `leave`, if no
tag of an enclosed text that is left to the policy stands in ordinary text of the enclosed text. -/
theorem warn_eq_leave {read : FileReader} {s : Settings} {r : Registry} {before w : World σ}
    {text : Text} (hbefore : ∀ tag, before.handler? r tag = none)
    (hregister : s.registerAll read r before = (.ok (), w))
    (htop : ∀ o ∈ (Scan.ofText text (w.isRegistered r)).occurrences, o.context.isBody = false)
    (hcontents : ∀ content ∈ w.contents r text, w.WarnsNowhere r content) :
    ∃ out, ((standard r).render text { w with policy := .warn }).value? = some out ∧
      ((standard r).render text { w with policy := .leave }).value? = some out := by
  have hw : w.OnlyTemplates r := by
    have hall := World.onlyTemplates_registerAll hbefore read s
    rwa [hregister] at hall
  have hnowhere : w.WarnsNowhere r text :=
    World.warnsNowhere_iff.2 ⟨fun o ho _ => htop o ho, hcontents⟩
  have hunder : w.UnderPolicies .warn .leave { w with policy := .warn }
      { w with policy := .leave } := ⟨rfl, rfl, rfl, rfl⟩
  have hsame := value?_renderWithin_policies hw hnowhere.policiesAgree (text.length + 1) hunder
  obtain ⟨out, v, hout, -⟩ := exists_renderWithin_templates
    (hw.of_tables (v := { w with policy := .leave }) rfl) (Nat.lt_succ_self text.length)
  have hleave : ((standard r).render text { w with policy := .leave }).value? = some out := by
    rw [render, hout, Result.value?]
  exact ⟨out, hsame.trans hleave, hleave⟩

/-- In an attribute value the content of `[b]` holds a tag of its own and an element, in whose
attribute stands a tag without a handler; so does one in the script behind it. -/
theorem warn_eq_leave_nested :
    (let read : FileReader := fun _ => .error .notFound;
    let note : TemplateSpec := ⟨some (.ofString "{content}"), none, none⟩;
    let s : Settings := { Settings.default with
      handlers := .ofList [(Text.ofString "b", note), (Text.ofString "c", note)]
      tags_valid := by decide +kernel };
    let r : Registry := ⟨0, []⟩;
    let before : World Unit := ((World.initial ()).newRegistry []).2;
    let w : World Unit := (s.registerAll read r before).2;
    let text := Text.ofString "<a title=\"[b]<i alt='[x]'>[c]y[/c][/b]\"><script>[x]</script>";
    (∀ tag, before.handler? r tag = none) ∧ s.registerAll read r before = (.ok (), w) ∧
      (∀ o ∈ (Scan.ofText text (w.isRegistered r)).occurrences, o.context.isBody = false) ∧
      (∀ content ∈ w.contents r text, w.WarnsNowhere r content) ∧
      ∃ out, ((standard r).render text { w with policy := .warn }).value? = some out ∧
        ((standard r).render text { w with policy := .leave }).value? = some out) := by
  intro read note s r before w text
  have hbefore : ∀ tag, before.handler? r tag = none := fun _ => rfl
  have hregister : s.registerAll read r before = (.ok (), w) := rfl
  have htop : ∀ o ∈ (Scan.ofText text (w.isRegistered r)).occurrences,
      o.context.isBody = false := by
    decide +kernel
  have hlast : w.contents r (Text.ofString "y") = [] := by decide +kernel
  have hinner : w.contents r (Text.ofString "<i alt='[x]'>[c]y[/c]") = [Text.ofString "y"] := by
    decide +kernel
  have houter : w.contents r text = [Text.ofString "<i alt='[x]'>[c]y[/c]"] := by decide +kernel
  have hcontents : ∀ content ∈ w.contents r text, w.WarnsNowhere r content := by
    simp only [houter, List.mem_singleton, forall_eq]
    refine World.warnsNowhere_iff.2 ⟨by decide +kernel, ?_⟩
    simp only [hinner, List.mem_singleton, forall_eq]
    refine World.warnsNowhere_iff.2 ⟨by decide +kernel, ?_⟩
    simp only [hlast, List.not_mem_nil, false_implies, implies_true]
  exact ⟨hbefore, hregister, htop, hcontents, warn_eq_leave hbefore hregister htop hcontents⟩

/-- The content of `[b]` lies in an attribute value, but as a text of its own it is ordinary text,
so the warning is written into the attribute value. -/
theorem exists_warn_ne_leave :
    (let read : FileReader := fun _ => .error .notFound;
    let s : Settings := { Settings.default with
      handlers := .ofList [(Text.ofString "b", ⟨some (.ofString "{content}"), none, none⟩)]
      tags_valid := by decide +kernel };
    let r : Registry := ⟨0, []⟩;
    let before : World Unit := ((World.initial ()).newRegistry []).2;
    let w : World Unit := (s.registerAll read r before).2;
    let text := Text.ofString "<a title=\"[b][x][/b]\">";
    (∀ tag, before.handler? r tag = none) ∧ s.registerAll read r before = (.ok (), w) ∧
      (∀ o ∈ (Scan.ofText text (w.isRegistered r)).occurrences, o.context.isBody = false) ∧
      ((standard r).render text { w with policy := .warn }).value? =
        some (Text.ofString
          "<a title=\"<strong class=\"warning\">[x]</strong>\">") ∧
      ((standard r).render text { w with policy := .leave }).value? =
        some (Text.ofString "<a title=\"[x]\">") ∧
      ((standard r).render text { w with policy := .warn }).value? ≠
        ((standard r).render text { w with policy := .leave }).value?) := by
  intro read s r before w text
  have hwarn : ((standard r).render text { w with policy := .warn }).value? =
      some (Text.ofString
        "<a title=\"<strong class=\"warning\">[x]</strong>\">") := by
    decide +kernel
  have hleave : ((standard r).render text { w with policy := .leave }).value? =
      some (Text.ofString "<a title=\"[x]\">") := by
    decide +kernel
  refine ⟨fun _ => rfl, rfl, by decide +kernel, hwarn, hleave, ?_⟩
  rw [hwarn, hleave]
  decide +kernel

end Renderer

end Shortcode
