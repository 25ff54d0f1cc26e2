import Shortcode.Proofs.ScanSlices
import Shortcode.Proofs.WarnAsLeave

/-!
# Registrations that a text does not mention

A text mentions a name if it holds a `[` or a `[/` in front of it.  The name of every tag is
mentioned where the tag stands, and content is a part of its text.  What templates put into the
output is not read again.  So with templates, a handler for a name that the text does not mention
makes no difference, also while the contents of tags are rendered.

    w.OnlyTemplates r → ¬ n.MentionedIn text → w.Involves r text part →
      (standard r).Same part w (w.register r n handler)                    (same_of_not_mentioned)
-/

namespace Shortcode

open Byte
open Result (Alike)

variable {σ : Type}

/-! ## Mentions -/

/-- Whether an open or a close tag whose name starts with `name` could stand in the text. -/
def Text.MentionedIn (name text : Text) : Prop :=
  leftBracket :: name <:+: text ∨ leftBracket :: slash :: name <:+: text

theorem Text.MentionedIn.mono {name part text : Text} (h : name.MentionedIn part)
    (hpart : part <:+: text) : name.MentionedIn text :=
  h.imp (·.trans hpart) (·.trans hpart)

theorem Span.slice_infix (s : Span) (text : Text) : s.slice text <:+: text :=
  (List.take_prefix _ _).isInfix.trans (List.drop_suffix _ _).isInfix

theorem Cursor.Reaches.rest_suffix {c d : Cursor} (h : c.Reaches d) : d.rest <:+ c.rest := by
  obtain ⟨n, -, rfl⟩ := h
  exact List.drop_suffix _ _

/-- The content of a tag is a part of the text. -/
theorem Occurrence.contentText_infix {o : Occurrence} {source content : Text}
    (h : o.contentText source = some content) : content <:+: source := by
  obtain ⟨c, -, rfl⟩ := Option.map_eq_some_iff.1 h
  exact c.slice_infix source

namespace Bracket

variable {context : Context} {c d : Cursor} {b : Bracket}

theorem name_prefix_of_readClosing {start : Nat} (h : readClosing context start c = some (b, d)) :
    b.name <+: c.rest := by
  unfold readClosing at h
  simp only at h
  split at h
  · cases h
  · cases h
    exact List.takeWhile_prefix _

theorem name_prefix_of_readOpening {start : Nat} (h : readOpening context start c = some (b, d)) :
    b.name <+: c.rest := by
  unfold readOpening at h
  simp only at h
  split at h
  · cases h
  · split at h
    · cases h
    · cases h
      exact List.takeWhile_prefix _

/-- The name of a tag stands behind its `[` or `[/`. -/
theorem name_mentioned_of_readSingle (hpeek : c.peek? = some leftBracket)
    (h : readSingle? context c = some (b, d)) : b.name.MentionedIn c.rest := by
  obtain ⟨rest, hrest⟩ := List.head?_eq_some_iff.1 hpeek
  have hinner : (c.advance 1).rest = rest := by
    rw [Cursor.advance, hrest, List.drop_one, List.tail_cons]
  unfold readSingle? at h
  simp only at h
  split at h
  · rename_i hslash
    obtain ⟨after, hafter⟩ := List.isPrefixOf_iff_prefix.1 hslash
    have hname := name_prefix_of_readClosing h
    rw [Cursor.advance, ← hafter] at hname
    right
    rw [hrest, ← hinner, ← hafter]
    exact (List.cons_prefix_cons.2 ⟨rfl, List.cons_prefix_cons.2 ⟨rfl, hname⟩⟩).isInfix
  · have hname := name_prefix_of_readOpening h
    left
    rw [hrest, ← hinner]
    exact (List.cons_prefix_cons.2 ⟨rfl, hname⟩).isInfix

theorem name_mentioned_of_read (hpeek : c.peek? = some leftBracket)
    (h : read? context c = some (b, d)) : b.name.MentionedIn c.rest := by
  unfold read? at h
  simp only at h
  split at h
  · cases h
  · rename_i b' after hsingle
    have hmentioned : b'.name.MentionedIn c.rest := by
      split at hsingle
      · rename_i hlead
        have hpeek' : (c.advance 1).peek? = some leftBracket :=
          c.peek?_advance.trans (beq_iff_eq.1 hlead)
        exact (name_mentioned_of_readSingle hpeek' hsingle).mono (List.drop_suffix _ _).isInfix
      · exact name_mentioned_of_readSingle hpeek hsingle
    cases h
    exact hmentioned

end Bracket

/-- A text mentions the name of every tag in it. -/
theorem Scan.mentioned_of_mem_tags {source : Text} {b : Bracket} (hb : b ∈ tags source) :
    b.name.MentionedIn source := by
  rcases readIn_of_mem_tags hb with ⟨d, e, hreach, hpeek, hread, -⟩ | ⟨region, -, hb⟩
  · exact (Bracket.name_mentioned_of_read hpeek hread).mono hreach.rest_suffix.isInfix
  · obtain ⟨d, e, hreach, hpeek, hread, -⟩ := exists_read_of_mem_brackets hb
    exact ((Bracket.name_mentioned_of_read hpeek hread).mono hreach.rest_suffix.isInfix).mono
      (region.span.slice_infix source)

/-! ## Pairing asks for names of tags -/

namespace Occurrence

/-- Only the names of the tags decide how they are paired. -/
theorem ofBrackets_congr {pairs pairs' : Text → Bool} {bs : List Bracket}
    (h : ∀ b ∈ bs, pairs b.name = pairs' b.name) : ofBrackets pairs bs = ofBrackets pairs' bs := by
  induction hn : bs.length using Nat.strongRecOn generalizing bs with
  | _ n ih =>
    subst hn
    cases bs with
    | nil => rw [ofBrackets, ofBrackets]
    | cons b rest =>
      obtain ⟨hb, hrest⟩ := List.forall_mem_cons.1 h
      have hlater := ih _ (Nat.lt_succ_self _) hrest rfl
      rw [ofBrackets, ofBrackets, hlater, hb]
      split
      · rfl
      · split
        · rfl
        · split
          · rfl
          · split
            · rfl
            · rename_i close after hfind
              obtain ⟨mid, rfl, -, -⟩ := findClose?_eq_some hfind
              rw [ih after.length (Nat.lt_succ_of_lt (length_findClose_lt hfind))
                (fun c hc => hrest c (List.mem_append_right _ (List.mem_cons_of_mem _ hc))) rfl]

theorem Origin.exists_name {pairs : Text → Bool} {bs : List Bracket} {o : Occurrence}
    (h : Origin pairs bs o) : ∃ b ∈ bs, b.name = o.name := by
  cases h with
  | @single pre rest b arguments form hbs _ => exact ⟨b, by simp [hbs], rfl⟩
  | @pair pre mid after b close arguments hbs _ _ _ _ => exact ⟨b, by simp [hbs], rfl⟩

end Occurrence

theorem Scan.mentioned_of_mem_occurrences {source : Text} {pairs : Text → Bool} {o : Occurrence}
    (ho : o ∈ (ofText source pairs).occurrences) : o.name.MentionedIn source := by
  rw [occurrences_ofText] at ho
  obtain ⟨b, hb, hname⟩ :=
    ((Occurrence.pairing_ofBrackets pairs (tags source)).origin ho).exists_name
  exact hname ▸ mentioned_of_mem_tags hb

/-- A scan asks for no names but those that the text mentions. -/
theorem Scan.ofText_congr {source : Text} {pairs pairs' : Text → Bool}
    (h : ∀ name, name.MentionedIn source → pairs name = pairs' name) :
    ofText source pairs = ofText source pairs' := by
  have hsame : Occurrence.ofBrackets pairs (tags source) =
      Occurrence.ofBrackets pairs' (tags source) :=
    Occurrence.ofBrackets_congr fun b hb => h b.name (mentioned_of_mem_tags hb)
  unfold ofText
  exact congrArg (fun os => Scan.mk (segmentsFrom source.length 0 os) _) hsame

/-! ## Worlds that differ in one tag -/

/-- The worlds `u` and `u'` have the handlers of `w` and of `v` and one policy. -/
structure World.Beside (w v u u' : World σ) : Prop where
  left_tables : u.tables = w.tables
  right_tables : u'.tables = v.tables
  policy : u.policy = u'.policy

/-- The handlers of the registry are the same for all names but one. -/
def World.SameBut (r : Registry) (n : Text) (w v : World σ) : Prop :=
  ∀ tag, tag ≠ n → v.handler? r tag = w.handler? r tag

section

variable {w v u u' : World σ} {r : Registry} {n text : Text}

theorem World.SameBut.isRegistered_eq (h : w.SameBut r n v) {name : Text}
    (hn : ¬ n.MentionedIn text) (hname : name.MentionedIn text) :
    v.isRegistered r name = w.isRegistered r name := by
  have hne : name ≠ n := fun he => hn (he ▸ hname)
  show (v.handler? r name).isSome = (w.handler? r name).isSome
  rw [h name hne]

theorem Renderer.scan_eq_of_sameBut (h : w.SameBut r n v) (hn : ¬ n.MentionedIn text) :
    Scan.ofText text (v.isRegistered r) = Scan.ofText text (w.isRegistered r) :=
  Scan.ofText_congr fun _ hname => h.isRegistered_eq hn hname

/-- A tag whose handler fills a template is resolved alike, with templates on the left, if its
content is rendered alike. -/
theorem Rules.alike_resolve_of_sameBut {render render' : Rendering σ} {d : Document}
    {o : Occurrence} {p : Policy} (hw : w.OnlyTemplates r) (hsame : w.SameBut r n v)
    (hname : o.name ≠ n) (h : w.Beside v u u')
    (hrender : ∀ content, o.contentText text = some content →
      Alike (w.Beside v) (render r content u) (render' r content u')) :
    Alike (w.Beside v) ((Rules.mk r p).resolve render text d o u)
      ((Rules.mk r p).resolve render' text d o u') := by
  have hhandler := hsame o.name hname
  have hregistered : v.isRegistered r o.name = w.isRegistered r o.name :=
    congrArg Option.isSome hhandler
  rcases w.tag_cases r o with hescaped | hcalls | hleaves
  · rw [resolve_of_escaped hescaped, resolve_of_escaped hescaped]
    exact .ok h
  · have hcalls' : v.calls r o = true := by
      rw [World.calls, hregistered]
      exact hcalls
    obtain ⟨template, placement, hfound⟩ := hw.exists_template hcalls
    exact alike_resolve_of_same_template
      ((congrFun (World.calls_of_tables h.left_tables r) o).trans hcalls)
      ((congrFun (World.handler?_of_tables h.left_tables r) _).trans hfound)
      ((congrFun (World.calls_of_tables h.right_tables r) o).trans hcalls')
      ((congrFun (World.handler?_of_tables h.right_tables r) _).trans (hhandler.trans hfound))
      h hrender
  · have hleaves' : v.leavesToPolicy r o = true := by
      rw [World.leavesToPolicy, hregistered]
      exact hleaves
    rw [resolve_of_leavesToPolicy ⟨r, p⟩ h.left_tables hleaves,
      resolve_of_leavesToPolicy ⟨r, p⟩ h.right_tables hleaves']
    exact .ok h

namespace Renderer

/-- With templates, texts that do not mention the name are rendered alike, at any depth. -/
theorem alike_thoroughWithin_of_sameBut (hw : w.OnlyTemplates r) (hsame : w.SameBut r n v)
    (hn : ¬ n.MentionedIn text) (depth : Nat) (h : w.Beside v u u') :
    Alike (w.Beside v) ((standard r).thoroughWithin depth text u)
      ((standard r).thoroughWithin depth text u') := by
  induction depth generalizing text u u' with
  | zero => exact .tooDeep
  | succ depth ih =>
    have hleft : (standard r).scan text u = Scan.ofText text (w.isRegistered r) :=
      congrArg (Scan.ofText text) (World.isRegistered_of_tables h.left_tables r)
    have hright : (standard r).scan text u' = Scan.ofText text (w.isRegistered r) :=
      (congrArg (Scan.ofText text) (World.isRegistered_of_tables h.right_tables r)).trans
        (scan_eq_of_sameBut hsame hn)
    have hrules : (standard r).rules u' = (standard r).rules u :=
      congrArg (Rules.mk r) h.policy.symm
    rw [thoroughWithin, thoroughWithin, thoroughStep, thoroughStep, hleft, hright, hrules]
    refine Rules.alike_renderSegments (fun h _ _ => ⟨h.left_tables, h.right_tables, h.policy⟩) _
      (fun o ho u u' h => ?_) ⟨h.left_tables, h.right_tables, h.policy⟩
    have hname : o.name ≠ n := fun he => hn (he ▸ Scan.mentioned_of_mem_occurrences ho)
    refine Rules.alike_resolve_of_sameBut hw hsame hname h fun content hcontent => ?_
    -- the content is a part of the text, so it does not mention the name either
    exact ih (fun hmentioned => hn (hmentioned.mono (Occurrence.contentText_infix hcontent))) h

/-! ## Main statement -/

/-- The text is rendered to one output in both worlds, and at each depth it is rendered to one
output or to none. -/
structure Same (renderer : Renderer σ) (text : Text) (w v : World σ) : Prop where
  output : ∃ out, (renderer.render text w).value? = some out ∧
    (renderer.render text v).value? = some out
  within : ∀ depth, (renderer.renderWithin depth text w).value? =
    (renderer.renderWithin depth text v).value?

theorem same_of_sameBut (hw : w.OnlyTemplates r) (hsame : w.SameBut r n v)
    (hpolicy : w.policy = v.policy) (hn : ¬ n.MentionedIn text) : (standard r).Same text w v := by
  have hwithin : ∀ depth, ((standard r).renderWithin depth text w).value? =
      ((standard r).renderWithin depth text v).value? := fun depth =>
    calc ((standard r).renderWithin depth text w).value?
      _ = ((standard r).thoroughWithin depth text w).value? :=
        (renders_thoroughWithin depth r text (.refl w)).value?_eq
      _ = ((standard r).thoroughWithin depth text v).value? :=
        (alike_thoroughWithin_of_sameBut hw hsame hn depth ⟨rfl, rfl, hpolicy⟩).value?_eq
      _ = ((standard r).renderWithin depth text v).value? :=
        (renders_thoroughWithin depth r text (.refl v)).value?_eq.symm
  obtain ⟨out, u, hout, -⟩ := exists_renderWithin_templates hw (Nat.lt_succ_self text.length)
  have hleft : ((standard r).render text w).value? = some out := by
    rw [render, hout, Result.value?]
  exact ⟨⟨out, hleft, (hwithin _).symm.trans hleft⟩, hwithin⟩

end Renderer

/-- What the rendering of a text involves is a part of the text. -/
theorem World.Involves.infix {part : Text} (h : w.Involves r text part) : part <:+: text := by
  induction h with
  | whole text => exact List.infix_refl text
  | content hcontent _ ih =>
    obtain ⟨o, -, -, htext⟩ := World.mem_contents.1 hcontent
    exact ih.trans (Occurrence.contentText_infix htext)

/-- **A registration that a text does not mention has no effect.**  With templates, adding,
replacing or removing a handler for the name changes neither the rendering of the text nor that of
any enclosed text that it involves, whatever the templates write. -/
theorem Renderer.same_of_not_mentioned (hw : w.OnlyTemplates r) (hn : ¬ n.MentionedIn text)
    {part : Text} (hpart : w.Involves r text part) :
    (∀ handler, (standard r).Same part w (w.register r n handler)) ∧
      (standard r).Same part w (w.unregister r n).2 := by
  have hn' : ¬ n.MentionedIn part := fun h => hn (h.mono hpart.infix)
  exact ⟨fun handler => same_of_sameBut hw
      (fun _ hne => World.handler?_register_of_ne hne handler) rfl hn',
    same_of_sameBut hw (fun _ hne => World.handler?_unregister_of_ne hne) rfl hn'⟩

end

/-- The tag in the content of `[b]` puts `[n]` into the output by substitution, and `[b]` does so
literally.  Neither is read again, though a text that holds them is rendered otherwise with a
handler for `n`. -/
theorem Renderer.same_of_not_mentioned_nested :
    (let read : FileReader := fun _ => .error .notFound;
    let template := fun t => TemplateSpec.mk (some (.ofString t)) none none;
    let s : Settings := { Settings.default with
      handlers := .ofList [(Text.ofString "b", template "[n]\x7bcontent\x7d"),
        (Text.ofString "t", template "[\x7bv\x7d]")]
      tags_valid := by decide +kernel };
    let r : Registry := ⟨0, []⟩;
    let w : World Unit := (s.registerAll read r ((World.initial ()).newRegistry []).2).2;
    let n := Text.ofString "n";
    let text := Text.ofString "[b]n[t v=n][/b]";
    let part := Text.ofString "n[t v=n]";
    let other : Handler Unit := fun _ => .give (Text.ofString "other") none;
    w.OnlyTemplates r ∧ ¬ n.MentionedIn text ∧ w.Involves r text part ∧
      ((∀ handler, (standard r).Same part w (w.register r n handler)) ∧
        (standard r).Same part w (w.unregister r n).2) ∧
      ((standard r).render text (w.register r n other)).value? = some (Text.ofString "[n]n[n]") ∧
      ((standard r).render (Text.ofString "[n]n[n]") (w.register r n other)).value? =
        some (Text.ofString "othernother")) := by
  intro read template s r w n text part other
  have hw : w.OnlyTemplates r := World.onlyTemplates_registerAll (fun _ => rfl) read s
  have hn : ¬ n.MentionedIn text := by
    have hopen : ¬ leftBracket :: n <:+: text := by decide +kernel
    have hclose : ¬ leftBracket :: slash :: n <:+: text := by decide +kernel
    exact fun h => h.elim hopen hclose
  have hcontents : w.contents r text = [part] := by decide +kernel
  have hpart : w.Involves r text part :=
    .content (by rw [hcontents]; exact List.mem_singleton_self part) (.whole part)
  exact ⟨hw, hn, hpart, same_of_not_mentioned hw hn hpart, by decide +kernel, by decide +kernel⟩

end Shortcode
