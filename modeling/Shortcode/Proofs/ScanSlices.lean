import Shortcode.Proofs.BracketSlices
import Shortcode.Proofs.RawText
import Shortcode.Proofs.TokenSlices

/-!
# What scanning a text cuts out

The pass over a text, and the passes over its attribute values and raw text bodies, look for tags
and tokens at `[` and `<` only.  So whatever they cut out of a text that can be cut at ASCII bytes
is a run of whole characters, and so are the tags, tokens and regions that they find.

    source.Regular → Span.AllFit source (Scan.slices source)                    (fits_scanSlices)
    source.Regular → b ∈ Scan.tags source → b.Fits source                         (fits_of_mem_tags)
-/

namespace Shortcode

open Byte

/-! ## Texts without markup -/

/-- Where looking for tags goes on from a `[`: behind the tag that starts there or, without one,
behind the `[`.  The context of the tag does not count. -/
def Bracket.goOn (c : Cursor) : Cursor :=
  match read? .body c with
  | some (_, after) => after
  | none => c.advance 1

namespace Bracket

/-- Where the reading of a tag ends does not depend on the context. -/
theorem read?_context (context context' : Context) (c : Cursor) :
    (read? context c).map (·.2) = (read? context' c).map (·.2) := by
  have hclosing : ∀ start c, (readClosing context start c).map (·.2) =
      (readClosing context' start c).map (·.2) := by
    intro start c
    unfold readClosing
    simp only
    split <;> rfl
  have hopening : ∀ start c, (readOpening context start c).map (·.2) =
      (readOpening context' start c).map (·.2) := by
    intro start c
    unfold readOpening
    simp only
    split
    · rfl
    · split <;> rfl
  have hsingle : ∀ c, (readSingle? context c).map (·.2) = (readSingle? context' c).map (·.2) := by
    intro c
    unfold readSingle?
    simp only
    split
    · exact hclosing _ _
    · exact hopening _ _
  have hread : ∀ context, (read? context c).map (·.2) =
      ((readSingle? context (if c.peekAt? 1 == some leftBracket then c.advance 1 else c)).map
        (·.2)).map fun after =>
          if after.startsWith [rightBracket] then after.advance 1 else after := by
    intro context
    unfold read?
    simp only
    split <;> rename_i h <;> rw [h] <;> rfl
  rw [hread, hread, hsingle]

variable {context : Context} {c d : Cursor} {b : Bracket}

theorem goOn_of_read (h : read? context c = some (b, d)) : goOn c = d := by
  have hcontext := read?_context .body context c
  rw [h] at hcontext
  obtain ⟨⟨b', _⟩, h', rfl⟩ := Option.map_eq_some_iff.1 hcontext
  rw [goOn, h']

theorem goOn_of_none (h : read? context c = none) : goOn c = c.advance 1 := by
  have hcontext := read?_context .body context c
  rw [h] at hcontext
  rw [goOn, Option.map_eq_none_iff.1 hcontext]

theorem reaches_goOn (hne : c.rest ≠ []) : c.Reaches (goOn c) := by
  unfold goOn
  split
  · rename_i h
    exact (readFrom_of_read h).reaches
  · exact Cursor.reaches_next hne

theorem length_goOn_lt (hne : c.rest ≠ []) : (goOn c).rest.length < c.rest.length := by
  unfold goOn
  split
  · rename_i h
    exact length_read_lt h
  · exact Cursor.length_advance_lt (by decide) hne

end Bracket

namespace Scan

/-- What looking for the tags of a text without markup cuts out. -/
def bracketSlices (c : Cursor) : List Span :=
  if hne : c.rest = [] then []
  else
    have := Bracket.length_goOn_lt hne
    have := Cursor.length_advance_lt (by decide : 0 < 1) hne
    if c.peek? = some leftBracket then Bracket.slices c ++ bracketSlices (Bracket.goOn c)
    else bracketSlices (c.advance 1)
termination_by c.rest.length

theorem bracketSlices_bracket {c : Cursor} (hpeek : c.peek? = some leftBracket) :
    bracketSlices c = Bracket.slices c ++ bracketSlices (Bracket.goOn c) := by
  rw [bracketSlices, dif_neg (Cursor.rest_ne_nil hpeek), if_pos hpeek]

theorem bracketSlices_next {c : Cursor} (hpeek : c.peek? ≠ some leftBracket) (hne : c.rest ≠ []) :
    bracketSlices c = bracketSlices (c.advance 1) := by
  rw [bracketSlices, dif_neg hne, if_neg hpeek]

/-- Each tag is read at a `[` in the text, and what its reading cuts out is in the list. -/
theorem exists_read_of_mem_brackets {context : Context} {c : Cursor} {b : Bracket}
    (hb : b ∈ brackets context c) : ∃ d e, c.Reaches d ∧ d.peek? = some leftBracket ∧
      Bracket.read? context d = some (b, e) ∧ Bracket.slices d ⊆ bracketSlices c := by
  induction hn : c.rest.length using Nat.strongRecOn generalizing c with
  | _ n ih =>
    subst hn
    rw [brackets] at hb
    split at hb
    · cases hb
    · rename_i first rest hrest
      have hne : c.rest ≠ [] := by simp [hrest]
      have hpeek : c.peek? = some first := congrArg List.head? hrest
      have hlater : ∀ {c'}, c.Reaches c' → c'.rest.length < c.rest.length →
          bracketSlices c' ⊆ bracketSlices c → b ∈ brackets context c' →
          ∃ d e, c.Reaches d ∧ d.peek? = some leftBracket ∧
            Bracket.read? context d = some (b, e) ∧ Bracket.slices d ⊆ bracketSlices c := by
        intro c' hreach hlt hsub hb
        obtain ⟨d, e, hd, hread⟩ := ih _ hlt hb rfl
        exact ⟨d, e, hreach.trans hd, hread.1, hread.2.1, List.Subset.trans hread.2.2 hsub⟩
      split at hb
      · rename_i hfirst
        rw [hfirst] at hpeek
        have hsub := bracketSlices_bracket hpeek
        split at hb
        · rename_i tag after htag
          rcases List.mem_cons.1 hb with rfl | hb
          · exact ⟨c, after, .refl c, hpeek, htag, by
              rw [hsub]
              exact List.subset_append_left _ _⟩
          · refine hlater (Bracket.readFrom_of_read htag).reaches (Bracket.length_read_lt htag) ?_
              hb
            rw [hsub, Bracket.goOn_of_read htag]
            exact List.subset_append_right _ _
        · rename_i htag
          refine hlater (Cursor.reaches_next hne) (Cursor.length_advance_lt (by decide) hne) ?_ hb
          rw [hsub, Bracket.goOn_of_none htag]
          exact List.subset_append_right _ _
      · rename_i hfirst
        refine hlater (Cursor.reaches_next hne) (Cursor.length_advance_lt (by decide) hne) ?_ hb
        have hnot : c.peek? ≠ some leftBracket := by simpa [hpeek] using hfirst
        rw [bracketSlices_next hnot hne]
        exact List.Subset.refl _

end Scan

namespace Text

section

variable {source : Text} {hi : Nat} {c : Cursor} (h : source.Front hi)

include h

theorem Front.fits_bracketSlices (hc : c.Over (source.take hi)) :
    Span.AllFit source (Scan.bracketSlices c) := by
  induction hn : c.rest.length using Nat.strongRecOn generalizing c with
  | _ n ih =>
    subst hn
    rw [Scan.bracketSlices]
    split
    · exact .nil
    · rename_i hne
      split
      · rename_i hpeek
        exact .append (h.sound_bracket hc hpeek).1
          (ih _ (Bracket.length_goOn_lt hne) ((Bracket.reaches_goOn hne).over hc) rfl)
      · exact ih _ (Cursor.length_advance_lt (by decide) hne)
          ((Cursor.reaches_next hne).over hc) rfl

theorem Front.fits_brackets (hc : c.Over (source.take hi)) (context : Context) :
    ∀ b ∈ Scan.brackets context c, b.Fits source := by
  intro b hb
  obtain ⟨d, e, hd, hpeek, hread, -⟩ := Scan.exists_read_of_mem_brackets hb
  exact ((h.sound_bracket (hd.over hc) hpeek).2 hread).2

end

end Text

/-! ## Regions -/

section

variable {source : Text} {s : Span}

theorem Span.fits_iff : s.fits source = true ↔ s.start ≤ s.stop ∧ s.stop ≤ source.length ∧
    source.isBoundary s.start = true ∧ source.isBoundary s.stop = true := by
  simp [Span.fits, and_assoc]

/-- The text up to the end of a run of whole characters. -/
theorem Text.Regular.front_of_fits (h : source.Regular) (hs : s.fits source = true) :
    source.Front s.stop :=
  have hs := Span.fits_iff.1 hs
  ⟨h, hs.2.1, hs.2.2.2⟩

/-- A cursor over a part of the text is a cursor over the text up to the end of that part. -/
theorem Cursor.over_slice (hs : s.fits source = true) :
    (Cursor.ofText (s.slice source) s.start).Over (source.take s.stop) := by
  obtain ⟨hle, hlen, -, -⟩ := Span.fits_iff.1 hs
  constructor
  · show s.start ≤ (source.take s.stop).length
    rw [List.length_take]
    omega
  · show (source.drop s.start).take s.length = (source.take s.stop).drop s.start
    rw [List.drop_take]
    rfl

end

namespace Scan

/-- What reading a part of the text for tags cuts out: the part, and what its reading cuts out. -/
def regionSlices (source : Text) (s : Span) : List Span :=
  s :: bracketSlices (.ofText (s.slice source) s.start)

/-- What is cut out of the values of a start tag and of the raw text behind it. -/
def insideSlices (source : Text) : Token → List Span
  | .start tag =>
    (Attribute.values tag.attributes).flatMap (regionSlices source) ++
      match tag.rawText? with
      | some element => regionSlices source (Region.rawText source element tag.span.stop)
      | none => []
  | _ => []

/-- Where the pass goes on behind a token that ends at the cursor. -/
def behind (c : Cursor) : Token → Cursor
  | .start tag =>
    match tag.rawText? with
    | some element => c.skipUntil (endsRawText element)
    | none => c
  | _ => c

theorem reaches_behind (c : Cursor) (t : Token) : c.Reaches (behind c t) := by
  unfold behind
  split
  · split
    · exact Cursor.reaches_skipUntil _ _
    · exact .refl c
  · exact .refl c

theorem behind_pos {source : Text} {c : Cursor} (hc : c.Over source) {t : Token}
    (hspan : t.span.stop = c.pos) : (behind c t).pos = (t.extent source).stop := by
  cases t with
  | finish name span => exact hspan.symm
  | opaqueText span => exact hspan.symm
  | start tag =>
    have hstop : tag.span.stop = c.pos := hspan
    simp only [behind, Token.extent]
    cases tag.rawText? with
    | none => exact hstop.symm
    | some element =>
      rw [hstop]
      exact hc.skipRawText

end Scan

/-- Where the pass goes on from a `<`: behind the token that starts there and the raw text that
belongs to it or, without one, behind the `<`. -/
def Token.goOn (c : Cursor) : Cursor :=
  match read? c with
  | some (t, after) => Scan.behind after t
  | none => c.advance 1

namespace Token

variable {c : Cursor}

theorem reaches_goOn (hne : c.rest ≠ []) : c.Reaches (goOn c) := by
  unfold goOn
  split
  · rename_i h
    exact (readFrom_of_read h).reaches.trans (Scan.reaches_behind _ _)
  · exact Cursor.reaches_next hne

theorem length_goOn_lt (hne : c.rest ≠ []) : (goOn c).rest.length < c.rest.length := by
  unfold goOn
  split
  · rename_i t after h
    obtain ⟨n, -, hbehind⟩ := Scan.reaches_behind after t
    rw [hbehind]
    exact Nat.lt_of_le_of_lt (Cursor.length_advance_le _ _) (length_read_lt h)
  · exact Cursor.length_advance_lt (by decide) hne

/-- What is cut out where a `<` stands: of a token, and of the parts that are read for tags. -/
def allSlices (source : Text) (c : Cursor) : List Span :=
  slices c ++
    match read? c with
    | some (t, _) => Scan.insideSlices source t
    | none => []

end Token

namespace Scan

/-- What the pass over a text cuts out, in order. -/
def passSlices (source : Text) (c : Cursor) : List Span :=
  if hne : c.rest = [] then []
  else
    have := Bracket.length_goOn_lt hne
    have := Token.length_goOn_lt hne
    have := Cursor.length_advance_lt (by decide : 0 < 1) hne
    if c.peek? = some leftBracket then
      Bracket.slices c ++ passSlices source (Bracket.goOn c)
    else if c.peek? = some less then
      Token.allSlices source c ++ passSlices source (Token.goOn c)
    else passSlices source (c.advance 1)
termination_by c.rest.length

section

variable {source : Text} {c : Cursor}

theorem passSlices_bracket (hpeek : c.peek? = some leftBracket) :
    passSlices source c = Bracket.slices c ++ passSlices source (Bracket.goOn c) := by
  rw [passSlices, dif_neg (Cursor.rest_ne_nil hpeek), if_pos hpeek]

theorem passSlices_token (hpeek : c.peek? = some less) :
    passSlices source c = Token.allSlices source c ++ passSlices source (Token.goOn c) := by
  rw [passSlices, dif_neg (Cursor.rest_ne_nil hpeek), if_neg (by rw [hpeek]; decide), if_pos hpeek]

theorem passSlices_next (hbracket : c.peek? ≠ some leftBracket) (htoken : c.peek? ≠ some less)
    (hne : c.rest ≠ []) : passSlices source c = passSlices source (c.advance 1) := by
  rw [passSlices, dif_neg hne, if_neg hbracket, if_neg htoken]

end

/-- What scanning a text cuts out, in order. -/
def slices (source : Text) : List Span := passSlices source (.ofText source 0)

end Scan

/-- The token is a run of whole characters, and so are the values and the raw text that belong to
it. -/
structure Token.Fits (source : Text) (t : Token) : Prop where
  span : t.span.fits source = true
  value : ∀ tag, t = .start tag → Span.AllFit source (Attribute.values tag.attributes)
  rawText : ∀ tag element, t = .start tag → tag.rawText? = some element →
    (Region.rawText source element tag.span.stop).fits source = true

namespace Text.Regular

section

variable {source : Text} (h : source.Regular)

include h

theorem fits_rawText {element : Text} (helement : element ∈ rawTextNames) {pos : Nat}
    (hle : pos ≤ source.length) (hpos : source.isBoundary pos = true) :
    (Region.rawText source element pos).fits source = true := by
  have hover : (Cursor.mk pos (source.drop pos)).Over (source.take source.length) := by
    rw [List.take_length]
    exact ⟨hle, rfl⟩
  have hend : ((Cursor.mk pos (source.drop pos)).skipUntil (Scan.endsRawText element)).Sound
      source source.length :=
    h.front.sound_skipUntil hover fun b rest hends => by
      obtain ⟨name, after, hrest, -⟩ := Scan.exists_of_endsRawText helement hends
      rw [(List.cons_eq_cons.1 hrest).1]
      decide
  exact Front.fits_spanTo ⟨hover, hpos⟩ hend (Cursor.reaches_skipUntil _ _)

theorem fits_of_read {c d : Cursor} (hc : c.Over source) {t : Token}
    (hread : Token.read? c = some (t, d)) : t.Fits source := by
  obtain ⟨-, hspan, hvalues⟩ := h.front.sound_token (by rwa [List.take_length]) hread
  refine ⟨hspan, hvalues, ?_⟩
  rintro tag element rfl hraw
  obtain ⟨-, hlen, -, hstop⟩ := Span.fits_iff.1 hspan
  exact h.fits_rawText (StartTag.mem_rawTextNames hraw) hlen hstop

theorem fits_regionSlices {s : Span} (hs : s.fits source = true) :
    Span.AllFit source (Scan.regionSlices source s) :=
  .cons hs ((h.front_of_fits hs).fits_bracketSlices (Cursor.over_slice hs))

theorem fits_insideSlices {t : Token} (ht : t.Fits source) :
    Span.AllFit source (Scan.insideSlices source t) := by
  unfold Scan.insideSlices
  split
  · rename_i tag
    refine .append ?_ ?_
    · intro s hs
      obtain ⟨v, hv, hs⟩ := List.mem_flatMap.1 hs
      exact h.fits_regionSlices (ht.value tag rfl v hv) s hs
    · split
      · rename_i element hraw
        exact h.fits_regionSlices (ht.rawText tag element rfl hraw)
      · exact .nil
  · exact .nil

theorem fits_passSlices {c : Cursor} (hc : c.Over source) :
    Span.AllFit source (Scan.passSlices source c) := by
  induction hn : c.rest.length using Nat.strongRecOn generalizing c with
  | _ n ih =>
    subst hn
    have hc' : c.Over (source.take source.length) := by rwa [List.take_length]
    rw [Scan.passSlices]
    split
    · exact .nil
    · rename_i hne
      split
      · rename_i hpeek
        exact .append (h.front.sound_bracket hc' hpeek).1
          (ih _ (Bracket.length_goOn_lt hne) ((Bracket.reaches_goOn hne).over hc) rfl)
      · split
        · refine .append (.append (h.front.fits_tokenSlices hc') ?_)
            (ih _ (Token.length_goOn_lt hne) ((Token.reaches_goOn hne).over hc) rfl)
          split
          · rename_i t after htoken
            exact h.fits_insideSlices (h.fits_of_read hc htoken)
          · exact .nil
        · exact ih _ (Cursor.length_advance_lt (by decide) hne)
            ((Cursor.reaches_next hne).over hc) rfl

/-- Whatever scanning a text cuts out is a run of whole characters. -/
theorem fits_scanSlices : Span.AllFit source (Scan.slices source) :=
  h.fits_passSlices (Cursor.over_ofText source)

end

/-- The names of elements, attributes, tags and keys, an attribute value, and the name of a tag that
is not closed. -/
example : Scan.slices (Text.ofString "<p é='[t ü=1]'>[u") =
    [⟨1, 2⟩, ⟨3, 5⟩, ⟨7, 15⟩, ⟨8, 9⟩, ⟨10, 12⟩, ⟨13, 14⟩, ⟨18, 19⟩] := by
  decide +kernel

end Text.Regular

/-! ## What is found -/

/-- Where the pass from a cursor on finds a piece, and that what reading the piece cuts out is in
its list. -/
def Piece.ReadIn (source : Text) (c : Cursor) : Piece → Prop
  | .bracket b => ∃ d e, c.Reaches d ∧ d.peek? = some leftBracket ∧
      Bracket.read? .body d = some (b, e) ∧ Bracket.slices d ⊆ Scan.passSlices source c
  | .token t => ∃ d e, c.Reaches d ∧ Token.read? d = some (t, e) ∧
      Token.slices d ⊆ Scan.passSlices source c ∧
      Scan.insideSlices source t ⊆ Scan.passSlices source c

section

variable {source : Text} {c d : Cursor}

theorem Piece.ReadIn.mono {p : Piece} (h : p.ReadIn source d) (hreach : c.Reaches d)
    (hsub : Scan.passSlices source d ⊆ Scan.passSlices source c) : p.ReadIn source c := by
  cases p with
  | bracket b =>
    obtain ⟨d', e, hd, hpeek, hread, hslices⟩ := h
    exact ⟨d', e, hreach.trans hd, hpeek, hread, List.Subset.trans hslices hsub⟩
  | token t =>
    obtain ⟨d', e, hd, hread, hslices, hinside⟩ := h
    exact ⟨d', e, hreach.trans hd, hread, List.Subset.trans hslices hsub,
      List.Subset.trans hinside hsub⟩

/-- One byte further on the pass cuts out no more. -/
theorem Scan.passSlices_skip (hne : c.rest ≠ [])
    (hbracket : c.peek? = some leftBracket → Bracket.read? .body c = none)
    (htoken : Token.read? c = none) : passSlices source (c.advance 1) ⊆ passSlices source c := by
  by_cases hpeek : c.peek? = some leftBracket
  · rw [passSlices_bracket hpeek, Bracket.goOn_of_none (hbracket hpeek)]
    exact List.subset_append_right _ _
  · by_cases hless : c.peek? = some less
    · rw [passSlices_token hless, Token.goOn, htoken]
      exact List.subset_append_right _ _
    · rw [passSlices_next hpeek hless hne]
      exact List.Subset.refl _

theorem Pass.readIn {items : List Piece} (hpass : Pass source c items) (hc : c.Over source) :
    ∀ p ∈ items, p.ReadIn source c := by
  induction hpass with
  | done _ => exact nofun
  | skip hne hbracket htoken _ ih =>
    have hreach := Cursor.reaches_next hne
    exact fun p hp => (ih (hreach.over hc) p hp).mono hreach
      (Scan.passSlices_skip hne hbracket htoken)
  | @bracket c d b items hpeek hread _ ih =>
    have hreach := (Bracket.readFrom_of_read hread).reaches
    have hslices : Scan.passSlices source c = _ := Scan.passSlices_bracket hpeek
    rw [Bracket.goOn_of_read hread] at hslices
    refine List.forall_mem_cons.2 ⟨⟨c, d, .refl c, hpeek, hread, ?_⟩, fun p hp =>
      (ih (hreach.over hc) p hp).mono hreach ?_⟩
    · rw [hslices]
      exact List.subset_append_left _ _
    · rw [hslices]
      exact List.subset_append_right _ _
  | @token c d e t items hread hde hpos _ ih =>
    have hfrom := Token.readFrom_of_read hread
    have hover := hfrom.reaches.over hc
    have hbehind : e = Scan.behind d t := by
      refine hde.eq_of_pos (Scan.reaches_behind d t) ?_
      rw [hpos, Scan.behind_pos hover (congrArg Span.stop hfrom.span_eq)]
    have hpeek : c.peek? = some less := by
      refine Decidable.byContradiction fun hnot => ?_
      rw [Token.read_eq_none hnot] at hread
      cases hread
    have hslices : Scan.passSlices source c = _ := Scan.passSlices_token hpeek
    rw [Token.goOn, Token.allSlices, hread] at hslices
    simp only [← hbehind] at hslices
    refine List.forall_mem_cons.2 ⟨⟨c, d, .refl c, hread, ?_, ?_⟩, fun p hp =>
      (ih (hde.over hover) p hp).mono (hfrom.reaches.trans hde) ?_⟩
    · rw [hslices]
      exact fun s hs => List.mem_append_left _ (List.mem_append_left _ hs)
    · rw [hslices]
      exact fun s hs => List.mem_append_left _ (List.mem_append_right _ hs)
    · rw [hslices]
      exact List.subset_append_right _ _

namespace Scan

theorem readIn_of_mem_tokens {t : Token} (ht : t ∈ tokens source) :
    (Piece.token t).ReadIn source (.ofText source 0) := by
  have hover := Cursor.over_ofText source
  obtain ⟨items, hpass, hpieces⟩ := exists_pass hover 0
  rw [tokens, hpieces, Piece.expand_token?] at ht
  obtain ⟨p, hp, he⟩ := List.mem_filterMap.1 ht
  cases p with
  | bracket b => cases he
  | token t' =>
    cases he
    exact hpass.readIn hover _ hp

/-- A tag is read in ordinary text or in a region. -/
theorem readIn_of_mem_tags {b : Bracket} (hb : b ∈ tags source) :
    (Piece.bracket b).ReadIn source (.ofText source 0) ∨
      ∃ r ∈ regions source, b ∈ r.brackets source := by
  have hover := Cursor.over_ofText source
  obtain ⟨items, hpass, hpieces⟩ := exists_pass hover 0
  rw [tags, hpieces] at hb
  rw [regions, tokens, hpieces, Piece.expand_token?]
  exact (Piece.mem_expand_bracket? hb).imp_left fun hb => hpass.readIn hover _ hb

/-- A region is the value of an attribute of a start tag or the raw text behind it. -/
theorem exists_token_of_mem_regions {r : Region} (hr : r ∈ regions source) :
    ∃ tag, .start tag ∈ tokens source ∧ (r.span ∈ Attribute.values tag.attributes ∨
      ∃ element, tag.rawText? = some element ∧
        r.span = Region.rawText source element tag.span.stop) := by
  obtain ⟨t, ht, n, hr⟩ := Region.mem_ofTokens hr
  cases t with
  | finish name span => cases hr
  | opaqueText span => cases hr
  | start tag =>
    have hvalue : ∀ {n}, r ∈ Region.ofAttributes source tag.name n tag.attributes →
        r.span ∈ Attribute.values tag.attributes := by
      intro n hn
      obtain ⟨a, ha, hv, -⟩ := Region.mem_ofAttributes hn
      exact List.mem_filterMap.2 ⟨a, ha, hv⟩
    refine ⟨tag, ht, ?_⟩
    rw [Region.ofToken] at hr
    split at hr
    · exact .inl (hvalue hr)
    · rename_i element hraw
      rcases List.mem_append.1 hr with hr | hr
      · exact .inl (hvalue hr)
      · cases List.mem_singleton.1 hr
        exact .inr ⟨element, hraw, rfl⟩

end Scan

end

namespace Text.Regular

variable {source : Text} (h : source.Regular)

include h

theorem fits_of_mem_tokens {t : Token} (ht : t ∈ Scan.tokens source) : t.Fits source := by
  obtain ⟨d, e, hd, hread, -⟩ := Scan.readIn_of_mem_tokens ht
  exact h.fits_of_read (hd.over (Cursor.over_ofText source)) hread

theorem fits_of_mem_regions {r : Region} (hr : r ∈ Scan.regions source) :
    r.span.fits source = true := by
  obtain ⟨tag, ht, hcases⟩ := Scan.exists_token_of_mem_regions hr
  have hfits := h.fits_of_mem_tokens ht
  rcases hcases with hvalue | ⟨element, hraw, hspan⟩
  · exact hfits.value tag rfl r.span hvalue
  · rw [hspan]
    exact hfits.rawText tag element rfl hraw

theorem fits_of_mem_tags {b : Bracket} (hb : b ∈ Scan.tags source) : b.Fits source := by
  rcases Scan.readIn_of_mem_tags hb with ⟨d, e, hd, hpeek, hread, -⟩ | ⟨r, hr, hb⟩
  · have hover : d.Over (source.take source.length) := by
      rw [List.take_length]
      exact hd.over (Cursor.over_ofText source)
    exact ((h.front.sound_bracket hover hpeek).2 hread).2
  · have hs := h.fits_of_mem_regions hr
    exact (h.front_of_fits hs).fits_brackets (Cursor.over_slice hs) r.context b hb

end Text.Regular

end Shortcode
