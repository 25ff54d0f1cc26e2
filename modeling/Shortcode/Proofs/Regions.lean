import Shortcode.Proofs.BracketOrder
import Shortcode.Proofs.TokenOrder

/-!
# Regions and the pass over a document

A `Region` is a part of a document that is read for tags apart from the text around it: an attribute
value with a `[` in it, or a raw text body.  The regions of a document follow from its tokens alone
(`Region.ofTokens`) and are numbered from 1.

`Pass source c items` tells how the pass goes from `c` to the end of the text: `items` are the tags
of ordinary text and the tokens, in order.  The tags of the regions come in between:

    ∃ items, Pass source c items ∧ Scan.pieces n c = Piece.expand source n items    (exists_pass)
-/

namespace Shortcode

open Byte

/-- A part of a document that is read for tags apart from the text around it. -/
structure Region where
  context : Context
  span : Span
  deriving DecidableEq

namespace Region

/-- The tags in a region. -/
def brackets (source : Text) (r : Region) : List Bracket :=
  Scan.brackets r.context (.ofText (r.span.slice source) r.span.start)

/-- The regions of the attributes of a start tag; `n` is the number of the last region so far. -/
def ofAttributes (source element : Text) : Nat → List Attribute → List Region
  | _, [] => []
  | n, a :: rest =>
    match a.value with
    | none => ofAttributes source element n rest
    | some v =>
      if (v.slice source).contains leftBracket then
        ⟨.attributeValue (n + 1) element a.name, v⟩ :: ofAttributes source element (n + 1) rest
      else ofAttributes source element n rest

/-- The raw text body of `element` that starts at `pos`. -/
def rawText (source element : Text) (pos : Nat) : Span :=
  ⟨pos, pos + (Text.takeUntil (Scan.endsRawText element) (source.drop pos)).length⟩

/-- The regions of a token. -/
def ofToken (source : Text) (n : Nat) : Token → List Region
  | .start tag =>
    let values := ofAttributes source tag.name n tag.attributes
    match tag.rawText? with
    | none => values
    | some element =>
      values ++ [⟨.verbatim (n + values.length + 1) element, rawText source element tag.span.stop⟩]
  | _ => []

/-- The regions of a document with these tokens. -/
def ofTokens (source : Text) : Nat → List Token → List Region
  | _, [] => []
  | n, t :: rest => ofToken source n t ++ ofTokens source (n + (ofToken source n t).length) rest

end Region

/-! ## The pass -/

/-- A token with the raw text body behind it. -/
def Token.extent (source : Text) : Token → Span
  | .start tag =>
    match tag.rawText? with
    | none => tag.span
    | some element => ⟨tag.span.start, (Region.rawText source element tag.span.stop).stop⟩
  | t => t.span

namespace Piece

/-- What the pass steps over at once. -/
def extent (source : Text) : Piece → Span
  | .bracket b => b.outer
  | .token t => t.extent source

/-- Puts the tags of the regions behind the tokens that they belong to. -/
def expand (source : Text) : Nat → List Piece → List Piece
  | _, [] => []
  | n, .bracket b :: rest => .bracket b :: expand source n rest
  | n, .token t :: rest =>
    .token t :: (((Region.ofToken source n t).flatMap (·.brackets source)).map .bracket ++
      expand source (n + (Region.ofToken source n t).length) rest)

end Piece

/-- How the pass goes from a cursor to the end of the text, with the tags of ordinary text and the
tokens that it finds. -/
inductive Pass (source : Text) : Cursor → List Piece → Prop
  | done {c : Cursor} : c.rest = [] → Pass source c []
  | skip {c : Cursor} {items : List Piece} : c.rest ≠ [] →
      (c.peek? = some leftBracket → Bracket.read? .body c = none) → Token.read? c = none →
      Pass source (c.advance 1) items → Pass source c items
  | bracket {c d : Cursor} {b : Bracket} {items : List Piece} :
      c.peek? = some leftBracket → Bracket.read? .body c = some (b, d) → Pass source d items →
      Pass source c (.bracket b :: items)
  | token {c d e : Cursor} {t : Token} {items : List Piece} :
      Token.read? c = some (t, d) → d.Reaches e → e.pos = (t.extent source).stop →
      Pass source e items → Pass source c (.token t :: items)

/-! ## Regions are what is read -/

theorem Token.read_eq_none {c : Cursor} (h : c.peek? ≠ some less) : Token.read? c = none := by
  unfold Token.read?
  split
  · rename_i first second rest hc
    rw [if_pos]
    rw [Cursor.peek?, hc, List.head?_cons, ne_eq, Option.some.injEq] at h
    simpa using h
  · rfl

namespace Scan

theorem attributeBrackets_eq {source : Text} {c : Cursor} (hc : c.Over source) (element : Text)
    (n : Nat) {as : List Attribute} (has : ∀ v ∈ Attribute.values as, c.pos ≤ v.start) :
    attributeBrackets c element n as =
      ((Region.ofAttributes source element n as).flatMap (·.brackets source),
        n + (Region.ofAttributes source element n as).length) := by
  induction as generalizing n with
  | nil => rfl
  | cons a rest ih =>
    rw [attributeBrackets, Region.ofAttributes]
    cases hv : a.value with
    | none =>
      rw [Attribute.values, List.filterMap_cons_none hv] at has
      exact ih n has
    | some v =>
      rw [Attribute.values, List.filterMap_cons_some hv] at has
      have hrest := fun n => ih n fun w hw => has w (List.mem_cons_of_mem _ hw)
      simp only [hc.slice_eq (has v List.mem_cons_self), hrest]
      split
      · simp only [List.flatMap_cons, List.length_cons, Region.brackets]
        congr 1
        omega
      · rfl

theorem rawTextBrackets_eq {source : Text} {c : Cursor} (hc : c.Over source) (n : Nat)
    (element : Text) :
    rawTextBrackets n element c =
      Region.brackets source ⟨.verbatim n element, Region.rawText source element c.pos⟩ := by
  unfold rawTextBrackets Region.brackets Region.rawText Span.slice Span.length
  rw [Cursor.takeUntil, hc.2]
  congr 2
  dsimp only
  rw [Nat.add_sub_cancel_left]
  conv =>
    rhs
    arg 2
    rw [← Text.takeUntil_append_dropUntil (endsRawText element) (source.drop c.pos)]
  rw [List.take_left]

end Scan

/-! ## Following the pass -/

theorem Token.ReadFrom.slice_values {c d : Cursor} {tag : StartTag}
    (h : Token.ReadFrom c d (.start tag)) : ∀ v ∈ Attribute.values tag.attributes,
      c.pos ≤ v.start := by
  intro v hv
  have := ((h.values_inOrder tag rfl).bounds hv).1
  omega

/-- The pass goes on behind the raw text body of a start tag, at the end of its extent. -/
theorem Cursor.Over.skipRawText {source element : Text} {d : Cursor} (hd : d.Over source) :
    (d.skipUntil (Scan.endsRawText element)).pos = (Region.rawText source element d.pos).stop := by
  show d.pos + (Text.takeUntil (Scan.endsRawText element) d.rest).length = _
  rw [hd.2]
  rfl

/-- The pass can be followed from a cursor with `n` regions behind it, and finds `found`. -/
def Follows (source : Text) (n : Nat) (c : Cursor) (found : List Piece) : Prop :=
  ∃ items, Pass source c items ∧ found = Piece.expand source n items

namespace Follows

variable {source : Text} {n : Nat} {c d : Cursor} {found : List Piece}

theorem skip (hne : c.rest ≠ [])
    (hbracket : c.peek? = some leftBracket → Bracket.read? .body c = none)
    (htoken : Token.read? c = none) (h : Follows source n (c.advance 1) found) :
    Follows source n c found := by
  obtain ⟨items, hpass, hfound⟩ := h
  exact ⟨items, .skip hne hbracket htoken hpass, hfound⟩

theorem bracket {b : Bracket} (hpeek : c.peek? = some leftBracket)
    (hread : Bracket.read? .body c = some (b, d)) (h : Follows source n d found) :
    Follows source n c (.bracket b :: found) := by
  obtain ⟨items, hpass, rfl⟩ := h
  exact ⟨.bracket b :: items, .bracket hpeek hread hpass, rfl⟩

/-- Only start tags have regions. -/
theorem token {t : Token} (hnot : ∀ tag, t ≠ .start tag) (hread : Token.read? c = some (t, d))
    (h : Follows source n d found) : Follows source n c (.token t :: found) := by
  obtain ⟨items, hpass, rfl⟩ := h
  have hstop : t.span.stop = d.pos := congrArg Span.stop (Token.readFrom_of_read hread).span_eq
  cases t with
  | start tag => exact absurd rfl (hnot tag)
  | finish name span => exact ⟨_ :: items, .token hread (.refl d) hstop.symm hpass, rfl⟩
  | opaqueText span => exact ⟨_ :: items, .token hread (.refl d) hstop.symm hpass, rfl⟩

theorem start {tag : StartTag} (hraw : tag.rawText? = none)
    (hread : Token.read? c = some (.start tag, d))
    (h : Follows source (n + (Region.ofAttributes source tag.name n tag.attributes).length) d
      found) :
    Follows source n c (.token (.start tag) ::
      (((Region.ofAttributes source tag.name n tag.attributes).flatMap (·.brackets source)).map
        .bracket ++ found)) := by
  obtain ⟨items, hpass, rfl⟩ := h
  have hstop : tag.span.stop = d.pos := congrArg Span.stop (Token.readFrom_of_read hread).span_eq
  refine ⟨.token (.start tag) :: items, .token hread (.refl d) ?_ hpass, ?_⟩
  · simp only [Token.extent, hraw, hstop]
  · simp only [Piece.expand, Region.ofToken, hraw]

/-- The pass goes on behind a raw text body. -/
theorem rawText {tag : StartTag} {element : Text} (hc : c.Over source)
    (hraw : tag.rawText? = some element) (hread : Token.read? c = some (.start tag, d))
    (h : Follows source (n + (Region.ofAttributes source tag.name n tag.attributes).length + 1)
      (d.skipUntil (Scan.endsRawText element)) found) :
    Follows source n c (.token (.start tag) ::
      (((Region.ofAttributes source tag.name n tag.attributes).flatMap (·.brackets source)).map
        .bracket ++
      ((Scan.rawTextBrackets
          (n + (Region.ofAttributes source tag.name n tag.attributes).length + 1) element d).map
        .bracket ++ found))) := by
  obtain ⟨items, hpass, rfl⟩ := h
  have hfrom := Token.readFrom_of_read hread
  have hover := hfrom.reaches.over hc
  have hstop : tag.span.stop = d.pos := congrArg Span.stop hfrom.span_eq
  have hskip := Cursor.reaches_skipUntil (Scan.endsRawText element) d
  refine ⟨.token (.start tag) :: items, .token hread hskip ?_ hpass, ?_⟩
  · simp only [Token.extent, hraw, hstop]
    exact hover.skipRawText
  · simp only [Piece.expand, Region.ofToken, hraw, hstop, Scan.rawTextBrackets_eq hover,
      List.length_append, List.length_singleton, List.flatMap_append, List.flatMap_singleton,
      List.map_append, List.append_assoc, Nat.add_assoc]

end Follows

theorem exists_pass {source : Text} {c : Cursor} (hc : c.Over source) (n : Nat) :
    ∃ items, Pass source c items ∧ Scan.pieces n c = Piece.expand source n items := by
  show Follows source n c (Scan.pieces n c)
  induction hlen : c.rest.length using Nat.strongRecOn generalizing c n with
  | _ len ih =>
    subst hlen
    rw [Scan.pieces]
    split
    · rename_i hnil
      exact ⟨[], .done hnil, rfl⟩
    · rename_i first rest hrest
      have hne : c.rest ≠ [] := by simp [hrest]
      have hpeek : c.peek? = some first := by simp [Cursor.peek?, hrest]
      have hnext := ih _ (Cursor.length_advance_lt (by decide : 0 < 1) hne)
        ((Cursor.reaches_next hne).over hc) n rfl
      split
      · rename_i hb
        have hbracket : c.peek? = some leftBracket := by rw [hpeek, hb]
        have hnone : Token.read? c = none := Token.read_eq_none (by rw [hbracket]; decide)
        split
        · rename_i tag d htag
          have hread := Bracket.readFrom_of_read htag
          exact .bracket hbracket htag
            (ih _ (Bracket.length_read_lt htag) (hread.reaches.over hc) n rfl)
        · rename_i htag
          exact .skip hne (fun _ => htag) hnone hnext
      · rename_i hb
        have hnob : c.peek? ≠ some leftBracket := by simpa [hpeek] using hb
        split
        · split
          · rename_i htok
            exact .skip hne (fun e => absurd e hnob) htok hnext
          · rename_i tag d htok
            have hread := Token.readFrom_of_read htok
            have hover := hread.reaches.over hc
            simp only [Scan.attributeBrackets_eq hc tag.name n hread.slice_values]
            split
            · rename_i hraw
              exact .start hraw htok (ih _ (Token.length_read_lt htok) hover _ rfl)
            · rename_i element hraw
              have hskip := Cursor.reaches_skipUntil (Scan.endsRawText element) d
              have hlt := Nat.lt_of_le_of_lt
                (Cursor.length_skipUntil_le (Scan.endsRawText element) d)
                (Token.length_read_lt htok)
              exact .rawText hc hraw htok (ih _ hlt (hskip.over hover) _ rfl)
          · rename_i token d hnot htok
            have hread := Token.readFrom_of_read htok
            exact .token hnot htok
              (ih _ (Token.length_read_lt htok) (hread.reaches.over hc) n rfl)
        · rename_i hless
          have hnone : Token.read? c = none := Token.read_eq_none (by simpa [hpeek] using hless)
          exact .skip hne (fun e => absurd e hnob) hnone hnext

end Shortcode
