import Mathlib.Data.List.TakeWhile
import Shortcode.Proofs.TokenPlaces

/-!
# Raw text bodies

Behind a start tag of `script` or `style` the text is read for tags only, up to the first `</name`.
If an end tag of that name starts there, or nothing of the kind follows, then no token is found in
the body, every tag in it has the context of the body, and the next token is that end tag.

    (Scan.ofText source pairs).markup = pre ++ .start tag :: post → tag.rawText? = some element →
      endsWhole source element tag.span.stop →
        RawTextKept source pairs element (rawBody source element tag.span.stop) post
                                                                          (rawTextKept_of_endsWhole)

A `</name` that goes on with another byte of a name also ends the raw text, although it is no end
tag of that name (`exists_not_rawTextKept`).
-/

namespace Shortcode

open Byte

/-! ## Letters up to case -/

namespace Byte

/-- A letter as end tags of raw text have it in lower case. -/
def isLowerLetter (b : UInt8) : Bool := 0x61 ≤ b && b ≤ 0x7A

theorem lower_table : ∀ n, n < 256 →
    (isLowerLetter (lower n.toUInt8) = true → isLetter n.toUInt8 = true ∧
      isElementNameByte n.toUInt8 = true) ∧
    (isLowerLetter (lower n.toUInt8) = false → lower n.toUInt8 = n.toUInt8) := by
  decide +kernel

theorem of_isLowerLetter_lower {b : UInt8} (h : isLowerLetter (lower b) = true) :
    isLetter b = true ∧ isElementNameByte b = true := by
  have hb := (lower_table b.toNat b.toNat_lt).1
  rw [show b.toNat.toUInt8 = b by simp] at hb
  exact hb h

/-- Only letters have another lower case. -/
theorem eq_of_lower_eq {b l : UInt8} (h : lower b = l) (hl : isLowerLetter l = false) : b = l := by
  have hb := (lower_table b.toNat b.toNat_lt).2
  rw [show b.toNat.toUInt8 = b by simp] at hb
  rw [← hb (h ▸ hl), h]

theorem isElementNameByte_of_ends {b : UInt8}
    (h : (isSpace b || b == slash || b == greater) = true) : isElementNameByte b = false := by
  rw [isElementNameByte, ← Bool.not_eq_true', bne, bne, ← Bool.not_or, ← Bool.not_or, Bool.not_not]
  exact h

end Byte

theorem rawTextNames_lower : ∀ element ∈ rawTextNames, element ≠ [] ∧
    (∀ b ∈ element, isLowerLetter b = true) ∧ Text.lower element = element := by
  decide +kernel

theorem StartTag.mem_rawTextNames {tag : StartTag} {element : Text}
    (h : tag.rawText? = some element) : element ∈ rawTextNames := by
  unfold rawText? at h
  split at h
  · rename_i hname
    cases h
    simpa using (Bool.and_eq_true_iff.1 hname).2
  · cases h

namespace Text

/-- A search for less finds the same place, if what is searched for stands there. -/
theorem takeUntil_eq_of_imp {stop stop' : Text → Bool} (himp : ∀ t, stop' t = true → stop t = true)
    {t : Text} (h : dropUntil stop t = [] ∨ stop' (dropUntil stop t) = true) :
    takeUntil stop' t = takeUntil stop t := by
  induction t with
  | nil => rfl
  | cons b rest ih =>
    by_cases hb : stop (b :: rest) = true
    · rw [dropUntil, if_pos hb] at h
      have hb' : stop' (b :: rest) = true := h.resolve_left (List.cons_ne_nil b rest)
      rw [takeUntil, takeUntil, if_pos hb, if_pos hb']
    · have hb' : ¬ stop' (b :: rest) = true := fun h => hb (himp _ h)
      rw [dropUntil, if_neg hb] at h
      rw [takeUntil, takeUntil, if_neg hb, if_neg hb', ih h]

theorem drop_length_takeUntil (stop : Text → Bool) (t : Text) :
    t.drop (takeUntil stop t).length = dropUntil stop t := by
  conv =>
    lhs
    arg 2
    rw [← takeUntil_append_dropUntil stop t]
  exact List.drop_left

end Text

namespace Cursor

/-- A search for a byte that is there does not run to the end. -/
theorem not_atEnd_skipWhile {p : UInt8 → Bool} {c : Cursor} {b : UInt8} (hmem : b ∈ c.rest)
    (hb : p b = false) : (c.skipWhile p).atEnd = false := by
  rw [atEnd, List.isEmpty_eq_false_iff]
  intro hnil
  rw [List.dropWhile_eq_nil_iff.1 hnil b hmem] at hb
  cases hb

end Cursor

/-! ## End tags -/

/-- Whether an end tag of `element` starts in front of this rest: the name, up to case, with a byte
behind it that is not part of a name, and a `>` from there on. -/
def Token.startsEndOf (element rest : Text) : Bool :=
  Scan.endsRawText element rest &&
    ((rest.drop (2 + element.length)).head?.any fun b => isSpace b || b == slash || b == greater) &&
    (rest.drop (2 + element.length)).contains greater

/-- The body of `element` that starts at `pos` and runs to the first end tag of that name, or to the
end of the text. -/
def Scan.rawBody (source element : Text) (pos : Nat) : Span :=
  ⟨pos, pos + (Text.takeUntil (Token.startsEndOf element) (source.drop pos)).length⟩

/-- The first `</name` behind `pos`, if there is one, starts an end tag of that name. -/
def Scan.endsWhole (source element : Text) (pos : Nat) : Bool :=
  let rest := Text.dropUntil (Scan.endsRawText element) (source.drop pos)
  rest.isEmpty || Token.startsEndOf element rest

section

variable {element : Text} (helement : element ∈ rawTextNames)

include helement

theorem Scan.exists_of_endsRawText {rest : Text} (h : Scan.endsRawText element rest = true) :
    ∃ name after, rest = less :: slash :: (name ++ after) ∧ Text.lower name = element ∧
      after = rest.drop (2 + element.length) := by
  obtain ⟨-, -, hlower⟩ := rawTextNames_lower element helement
  have hpattern : Text.lower ([less, slash] ++ element) = less :: slash :: element := by
    rw [Text.lower, List.map_append, ← Text.lower, ← Text.lower, hlower]
    rfl
  have hlen : ([less, slash] ++ element).length = 2 + element.length := by simp; omega
  simp only [Scan.endsRawText, Text.startsIgnoringCase, Text.sameIgnoringCase, Bool.and_eq_true,
    beq_iff_eq, hpattern, hlen] at h
  have hsplit := List.take_append_drop (2 + element.length) rest
  generalize htake : rest.take (2 + element.length) = front at h hsplit
  obtain ⟨-, hfront⟩ := h
  -- the front is `</` and the name, byte by byte up to case
  cases front with
  | nil => simp [Text.lower] at hfront
  | cons first front =>
    cases front with
    | nil => simp [Text.lower] at hfront
    | cons second name =>
      rw [Text.lower, List.map_cons, List.map_cons, List.cons_eq_cons, List.cons_eq_cons] at hfront
      obtain ⟨hfirst, hsecond, hname⟩ := hfront
      have hfirst := eq_of_lower_eq hfirst.symm (by decide)
      have hsecond := eq_of_lower_eq hsecond.symm (by decide)
      refine ⟨name, rest.drop (2 + element.length), ?_, hname.symm, rfl⟩
      rw [← hfirst, ← hsecond]
      exact hsplit.symm

/-- An end tag of a raw text element is read where it starts. -/
theorem Token.read_of_startsEndOf {c : Cursor} (h : Token.startsEndOf element c.rest = true) :
    ∃ d, Token.read? c = some (.finish element (c.spanTo d), d) := by
  obtain ⟨hne, hletters, -⟩ := rawTextNames_lower element helement
  simp only [startsEndOf, Bool.and_eq_true] at h
  obtain ⟨⟨hends, hbehind⟩, hcontains⟩ := h
  obtain ⟨name, after, hrest, hname, hafter⟩ := Scan.exists_of_endsRawText helement hends
  rw [← hafter] at hbehind hcontains
  have hbytes : ∀ b ∈ name, isLetter b = true ∧ isElementNameByte b = true := fun b hb =>
    of_isLowerLetter_lower (hletters _ (hname ▸ List.mem_map_of_mem hb))
  obtain ⟨b, hb, hbstop⟩ := (Option.any_eq_true _ _).1 hbehind
  have hrest2 : (c.advance 2).rest = name ++ after := by rw [Cursor.advance_rest, hrest]; rfl
  obtain ⟨htake, hskip⟩ := Cursor.takeWhile_of_append hrest2 (fun b hb => (hbytes b hb).2)
    (fun b' hb' => by
      cases hb.symm.trans hb'
      exact isElementNameByte_of_ends hbstop)
  have hclose := Cursor.not_atEnd_skipWhile (p := (· != greater))
    (c := (c.advance 2).skipWhile isElementNameByte) (b := greater)
    (by rw [hskip]; simpa using hcontains) rfl
  refine ⟨(((c.advance 2).skipWhile isElementNameByte).skipWhile (· != greater)).advance 1, ?_⟩
  -- the name is not empty, so a letter stands behind the slash
  have hname' : name ≠ [] := by
    rintro rfl
    exact hne hname.symm
  obtain ⟨l, name, rfl⟩ := List.exists_cons_of_ne_nil hname'
  have hl := (hbytes l List.mem_cons_self).1
  rw [read?, hrest]
  have hslash : ((slash : UInt8) = bang) = False := by decide
  have hquestion : ((slash : UInt8) = question) = False := by decide
  simp [hl, readFinish?, hclose, htake, hname, hslash, hquestion]

/-- The pass goes on with an end tag where one starts. -/
theorem Pass.eq_finish_cons {source : Text} {e : Cursor} {items : List Piece}
    (hpass : Pass source e items) (h : Token.startsEndOf element e.rest = true) :
    ∃ stop rest, items = .token (.finish element ⟨e.pos, stop⟩) :: rest := by
  obtain ⟨d, hread⟩ := Token.read_of_startsEndOf helement h
  cases hpass with
  | done hnil =>
    rw [Token.read?, hnil] at hread
    cases hread
  | skip _ _ hnone _ => exact nomatch hnone.symm.trans hread
  | bracket hpeek _ _ =>
    rw [Token.read_eq_none (by rw [hpeek]; decide)] at hread
    cases hread
  | token hread' _ _ _ =>
    cases hread'.symm.trans hread
    exact ⟨d.pos, _, rfl⟩

end

/-! ## The pass behind a token -/

theorem Pass.eq_nil {source : Text} {e : Cursor} {items : List Piece} (hpass : Pass source e items)
    (h : e.rest = []) : items = [] := by
  cases hpass with
  | done _ => rfl
  | skip hne _ _ _ => exact absurd h hne
  | bracket hpeek _ _ => exact absurd h (Cursor.rest_ne_nil hpeek)
  | token hread _ _ _ =>
    rw [Token.read?, h] at hread
    cases hread

/-- Behind a token the pass goes on where the extent of the token ends. -/
theorem Pass.behind {source : Text} {c : Cursor} {pre post : List Piece} {t : Token}
    (hpass : Pass source c (pre ++ .token t :: post)) (hc : c.Over source) :
    ∃ e, e.Over source ∧ e.pos = (t.extent source).stop ∧ Pass source e post := by
  generalize hitems : pre ++ .token t :: post = items at hpass
  induction hpass generalizing pre with
  | done _ => simp at hitems
  | skip hne _ _ _ ih => exact ih ((Cursor.reaches_next hne).over hc) hitems
  | bracket _ hread _ ih =>
    cases pre with
    | nil => cases hitems
    | cons p pre =>
      exact ih ((Bracket.readFrom_of_read hread).reaches.over hc) (List.cons_eq_cons.1 hitems).2
  | token hread hde he hrest ih =>
    have hover := hde.over ((Token.readFrom_of_read hread).reaches.over hc)
    cases pre with
    | nil =>
      cases hitems
      exact ⟨_, hover, he, hrest⟩
    | cons p pre => exact ih hover (List.cons_eq_cons.1 hitems).2

theorem Piece.exists_of_filterMap_token? {items : List Piece} {pre post : List Token} {t : Token}
    (h : items.filterMap Piece.token? = pre ++ t :: post) :
    ∃ front back, items = front ++ .token t :: back ∧ post = back.filterMap Piece.token? := by
  obtain ⟨front, back, rfl, -, hback⟩ := List.filterMap_eq_append_iff.1 h
  obtain ⟨front', p, back', rfl, -, hp, hpost⟩ := List.filterMap_eq_cons_iff.1 hback
  cases p with
  | bracket b => cases hp
  | token t' =>
    cases hp
    exact ⟨front ++ front', back', by rw [List.append_assoc], hpost.symm⟩

/-! ## Main statement -/

/-- What makes a span behind the start tag of `element` a body that is not read as markup; `post`
are the tokens behind the start tag. -/
structure RawTextKept (source : Text) (pairs : Text → Bool) (element : Text) (body : Span)
    (post : List Token) : Prop where
  token_apart : ∀ t ∈ (Scan.ofText source pairs).markup,
    t.span.stop ≤ body.start ∨ body.stop ≤ t.span.start
  /-- This also holds of tags that are left to the handler of a tag around them. -/
  tag_verbatim : ∀ b ∈ Scan.tags source, body.start ≤ b.span.start → b.span.start < body.stop →
    ∃ n, b.context = .verbatim n element
  occurrence_verbatim : ∀ o ∈ (Scan.ofText source pairs).occurrences,
    body.start ≤ o.span.start → o.span.start < body.stop → ∃ n, o.context = .verbatim n element
  next_finish : ∀ t ∈ post.head?, ∃ stop, t = .finish element ⟨body.stop, stop⟩

section

variable {source : Text} {tag : StartTag} {element : Text}

theorem Scan.rawBody_eq {pos : Nat} (h : Scan.endsWhole source element pos = true) :
    Scan.rawBody source element pos = Region.rawText source element pos := by
  have himp : ∀ t, Token.startsEndOf element t = true → Scan.endsRawText element t = true := by
    intro t ht
    simp only [Token.startsEndOf, Bool.and_eq_true] at ht
    exact ht.1.1
  rw [rawBody, Region.rawText, Text.takeUntil_eq_of_imp himp]
  rw [endsWhole, Bool.or_eq_true, List.isEmpty_iff] at h
  exact h

variable (htag : .start tag ∈ Scan.tokens source) (hraw : tag.rawText? = some element)

include htag hraw

/-- What stands at an offset of the text that is read for tags only has the context of that text. -/
theorem Situated.verbatim_of_rawText {context : Context} {span : Span} {content : Option Span}
    (h : Situated source context span content) {pos : Nat} (hstart : span.start ≤ pos)
    (hstop : pos < span.stop) (hcontent : ∀ c, content = some c → pos ≤ c.start)
    (hlo : tag.span.stop ≤ pos) (hhi : pos < (Region.rawText source element tag.span.stop).stop) :
    ∃ n, context = .verbatim n element := by
  have hlt : tag.span.start < tag.span.stop := (Scan.proper_of_mem_tokens htag).start_lt_stop
  have hext := Token.extent_of_rawText source hraw
  cases h with
  | body _ htokens =>
    rcases htokens _ htag with hle | hle | ⟨c, hc, hle, -⟩
    · have hle : span.stop ≤ tag.span.start := hle
      omega
    · rw [hext] at hle
      dsimp only at hle
      omega
    · have hle : c.start ≤ tag.span.start := hle
      have := hcontent c hc
      omega
  | @value tag' a v n htag' ha hv _ h1 h2 =>
    have hin := (Scan.proper_of_mem_tokens htag').value_bounds ha hv
    have hle' : tag'.span.stop ≤ ((Token.start tag').extent source).stop :=
      Token.span_stop_le_extent source (.start tag')
    rcases Scan.token_eq_or_apart htag' htag with heq | hle | hle
    · cases heq
      omega
    · have hle : _ ≤ tag.span.start := hle
      omega
    · rw [hext] at hle
      have hle : (Region.rawText source element tag.span.stop).stop ≤ tag'.span.start := hle
      omega
  | @verbatim tag' element' n htag' hraw' hctx h1 h2 =>
    have hlt' : tag'.span.start < tag'.span.stop :=
      (Scan.proper_of_mem_tokens htag').start_lt_stop
    rcases Scan.token_eq_or_apart htag' htag with heq | hle | hle
    · cases heq
      cases hraw.symm.trans hraw'
      exact ⟨n, hctx⟩
    · rw [Token.extent_of_rawText source hraw'] at hle
      have hle : (Region.rawText source element' tag'.span.stop).stop ≤ tag.span.start := hle
      omega
    · rw [hext] at hle
      have hle : (Region.rawText source element tag.span.stop).stop ≤ tag'.span.start := hle
      omega

/-- No token lies in the text that is read for tags only. -/
theorem Scan.token_apart_rawText {t : Token} (ht : t ∈ Scan.tokens source) :
    t.span.stop ≤ tag.span.stop ∨
      (Region.rawText source element tag.span.stop).stop ≤ t.span.start := by
  have hext := Token.extent_of_rawText source hraw
  have hlt : tag.span.start < tag.span.stop := (Scan.proper_of_mem_tokens htag).start_lt_stop
  rcases Scan.token_eq_or_apart ht htag with rfl | hle | hle
  · exact .inl (Nat.le_refl _)
  · have h1 := t.span_stop_le_extent source
    have hle : _ ≤ tag.span.start := hle
    exact .inl (by omega)
  · rw [hext] at hle
    exact .inr hle

end

/-- The next token is the end tag that ends the body, if the first `</name` starts one. -/
theorem next_of_endsWhole {source : Text} {pairs : Text → Bool} {pre post : List Token}
    {tag : StartTag} {element : Text}
    (hmarkup : (Scan.ofText source pairs).markup = pre ++ .start tag :: post)
    (hraw : tag.rawText? = some element)
    (hwhole : Scan.endsWhole source element tag.span.stop = true) :
    ∀ t ∈ post.head?, ∃ stop,
      t = .finish element ⟨(Region.rawText source element tag.span.stop).stop, stop⟩ := by
  have hover := Cursor.over_ofText source
  obtain ⟨items, hpass, hpieces⟩ := exists_pass hover 0
  rw [Scan.markup_ofText, Scan.tokens, hpieces, Piece.expand_token?] at hmarkup
  obtain ⟨front, back, rfl, rfl⟩ := Piece.exists_of_filterMap_token? hmarkup
  obtain ⟨e, he, hpos, hback⟩ := hpass.behind hover
  have hext := Token.extent_of_rawText source hraw
  rw [hext] at hpos
  have hrest : e.rest = Text.dropUntil (Scan.endsRawText element) (source.drop tag.span.stop) := by
    rw [he.2, hpos, Region.rawText, ← List.drop_drop, Text.drop_length_takeUntil]
  rw [Scan.endsWhole, ← hrest, Bool.or_eq_true, List.isEmpty_iff] at hwhole
  rcases hwhole with hnil | hstarts
  · rw [hback.eq_nil hnil]
    rintro t ht
    cases ht
  · obtain ⟨stop, rest, rfl⟩ := hback.eq_finish_cons (StartTag.mem_rawTextNames hraw) hstarts
    rintro t ht
    cases ht
    exact ⟨stop, by rw [hpos]⟩

/-- **Raw text is not read as markup.**  If the first `</name` behind the start tag of a raw text
element, if there is one, starts an end tag of that name, no token is found in the body, every tag
in it has its context, and the next token is that end tag. -/
theorem rawTextKept_of_endsWhole {source : Text} {pairs : Text → Bool} {pre post : List Token}
    {tag : StartTag} {element : Text}
    (hmarkup : (Scan.ofText source pairs).markup = pre ++ .start tag :: post)
    (hraw : tag.rawText? = some element)
    (hwhole : Scan.endsWhole source element tag.span.stop = true) :
    RawTextKept source pairs element (Scan.rawBody source element tag.span.stop) post := by
  have helement := StartTag.mem_rawTextNames hraw
  have htag : .start tag ∈ Scan.tokens source := by
    rw [← Scan.markup_ofText source pairs, hmarkup]
    simp
  rw [Scan.rawBody_eq hwhole]
  constructor
  · exact fun t ht => Scan.token_apart_rawText htag hraw ht
  · intro b hb hstart hstop
    have hproper := Scan.proper_of_mem_tags hb
    exact (Scan.tag_situated hb).verbatim_of_rawText htag hraw b.outer_start_le
      (Nat.lt_of_lt_of_le hproper.start_lt_stop b.span_stop_le_outer) nofun hstart hstop
  · intro o ho hstart hstop
    have hlt := (Scan.occurrences_inOrder source pairs).2 o
      (Scan.occurrences_ofText source pairs ▸ ho)
    exact (Scan.occurrence_situated ho).verbatim_of_rawText htag hraw (Nat.le_refl _) hlt
      (fun c hc => Nat.le_of_lt (Scan.content_bounds ho hc).1) hstart hstop
  · exact next_of_endsWhole hmarkup hraw hwhole

/-- A `<` in a script starts no token, and a tag in it is the script's. -/
theorem rawTextKept_comparison :
    (let source := Text.ofString "<script>if (a<b) [t]</script><p>";
    let script := Text.ofString "script";
    let paragraph : Token := .start ⟨Text.ofString "p", ⟨29, 32⟩, [], false⟩;
    (Scan.ofText source fun _ => true).markup =
        [.start ⟨script, ⟨0, 8⟩, [], false⟩, .finish script ⟨20, 29⟩, paragraph] ∧
      RawTextKept source (fun _ => true) script ⟨8, 20⟩ [.finish script ⟨20, 29⟩, paragraph]) :=
  ⟨by decide +kernel,
    @rawTextKept_of_endsWhole _ _ [] _ ⟨Text.ofString "script", ⟨0, 8⟩, [], false⟩ _
      (by decide +kernel) (by decide +kernel) (by decide +kernel)⟩

/-- A `</script` that goes on with another byte of a name ends the raw text: the end tag of another
name is found in front of the end of the body, and the tag behind it is one of ordinary text. -/
theorem exists_not_rawTextKept :
    (let source := Text.ofString "<script></scripty>[t]</script>";
    let script := Text.ofString "script";
    ∃ tag post, (Scan.ofText source fun _ => true).markup = .start tag :: post ∧
      tag.rawText? = some script ∧
      ¬ RawTextKept source (fun _ => true) script
        (Scan.rawBody source script tag.span.stop) post) := by
  refine ⟨⟨Text.ofString "script", ⟨0, 8⟩, [], false⟩,
    [.finish (Text.ofString "scripty") ⟨8, 18⟩, .finish (Text.ofString "script") ⟨21, 30⟩],
    by decide +kernel, by decide +kernel, fun h => ?_⟩
  have hbody : Scan.rawBody (Text.ofString "<script></scripty>[t]</script>")
      (Text.ofString "script") 8 = ⟨8, 21⟩ := by decide +kernel
  have hfound := h.token_apart (.finish (Text.ofString "scripty") ⟨8, 18⟩) (by decide +kernel)
  rw [hbody] at hfound
  simp [Token.span] at hfound

end Shortcode
