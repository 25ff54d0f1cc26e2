import Shortcode.Proofs.Boundaries
import Shortcode.Proofs.TokenOrder

/-!
# What reading a token cuts out

The names of elements and attributes are cut out while a token is read.  Each of them is a run of
whole characters, and so are the token that is found and the values of its attributes.

    Span.AllFit source (Token.slices c)                                 (Front.fits_tokenSlices)
-/

namespace Shortcode

open Byte

namespace Attribute

/-- What reading the attributes of a start tag cuts out: their names. -/
def slices (c : Cursor) : List Span :=
  let c' := c.skipWhile isSpace
  match hc : c'.rest with
  | [] => []
  | b :: rest =>
    if b = greater then []
    else if b = slash then
      if rest.head? = some greater then []
      else
        have : (c'.advance 1).rest.length < c.rest.length :=
          Nat.lt_of_lt_of_le (Cursor.length_advance_lt (by decide) (by simp [hc]))
            (Cursor.length_skipWhile_le _ _)
        slices (c'.advance 1)
    else
      c'.spanTo ((c'.advance 1).skipWhile isAttributeNameByte) ::
        match h : read? c' with
        | none => []
        | some (_, after) =>
          have : after.rest.length < c.rest.length :=
            Nat.lt_of_lt_of_le (length_read_lt (by simp [hc]) h) (Cursor.length_skipWhile_le _ _)
          slices after
termination_by c.rest.length

theorem slices_of_slash {c : Cursor} {b : UInt8} {rest : Text}
    (hrest : (c.skipWhile isSpace).rest = b :: rest) (hgreater : ¬ b = greater) (hslash : b = slash)
    (hend : ¬ rest.head? = some greater) :
    slices c = slices ((c.skipWhile isSpace).advance 1) := by
  rw [slices]
  simp only
  rw [hrest]
  simp only [if_neg hgreater, if_pos hslash, if_neg hend]

theorem slices_of_read {c after : Cursor} {b : UInt8} {rest : Text} {a : Attribute}
    (hrest : (c.skipWhile isSpace).rest = b :: rest) (hgreater : ¬ b = greater)
    (hslash : ¬ b = slash) (hread : read? (c.skipWhile isSpace) = some (a, after)) :
    slices c = (c.skipWhile isSpace).spanTo
      (((c.skipWhile isSpace).advance 1).skipWhile isAttributeNameByte) :: slices after := by
  rw [slices]
  simp only
  rw [hrest]
  simp only [if_neg hgreater, if_neg hslash]
  rw [hread]

end Attribute

namespace Token

/-- What reading the name of an element cuts out. -/
def nameSlice (c : Cursor) : Span := c.spanTo (c.skipWhile isElementNameByte)

/-- What looking for a token at a `<` cuts out. -/
def slices (c : Cursor) : List Span :=
  match c.rest with
  | first :: second :: rest =>
    if first != less then []
    else if second = bang || second = question then []
    else if second = slash && rest.head?.any isLetter then [nameSlice (c.advance 2)]
    else if isLetter second then
      nameSlice (c.advance 1) :: Attribute.slices ((c.advance 1).skipWhile isElementNameByte)
    else []
  | _ => []

theorem slices_of_rest {c : Cursor} {first second : UInt8} {rest : Text}
    (hrest : c.rest = first :: second :: rest) :
    slices c =
      if first != less then []
      else if second = bang || second = question then []
      else if second = slash && rest.head?.any isLetter then [nameSlice (c.advance 2)]
      else if isLetter second then
        nameSlice (c.advance 1) :: Attribute.slices ((c.advance 1).skipWhile isElementNameByte)
      else [] := by
  rw [slices, hrest]

end Token

namespace Text

section

variable {source : Text} {hi : Nat} {c d : Cursor} (h : source.Front hi)

include h

theorem Front.sound_attributeValue (hc : c.Sound source hi) {v : Span}
    (hread : Attribute.readValue? c = some (v, d)) : d.Sound source hi ∧ v.fits source = true := by
  unfold Attribute.readValue? at hread
  split at hread
  · cases hread
  · rename_i b hb
    simp only at hread
    split at hread
    · rename_i hquote
      have hascii := isAscii_of_isQuote b hquote
      have hfirst := h.sound_next hc.within hb hascii
      have hends := isAscii_of_bne_eq_false hascii
      split at hread
      · cases hread
      · rename_i hend
        cases hread
        exact ⟨h.sound_next_skipWhile hfirst.within hends hend,
          Front.fits_spanTo hfirst (h.sound_skipWhile hfirst.within hends)
            (Cursor.reaches_skipWhile _ _)⟩
    · cases hread
      have hlast := h.sound_skipWhile hc.within isAscii_of_not_isUnquotedValueByte
      exact ⟨hlast, Front.fits_spanTo hc hlast (Cursor.reaches_skipWhile _ _)⟩

/-- The name of an attribute may start with any character and ends at an ASCII byte. -/
theorem Front.sound_attribute (hc : c.Sound source hi) (hne : c.rest ≠ []) :
    (c.spanTo ((c.advance 1).skipWhile isAttributeNameByte)).fits source = true ∧
      ∀ {a d}, Attribute.read? c = some (a, d) →
        d.Sound source hi ∧ ∀ v, a.value = some v → v.fits source = true := by
  have hnext := Cursor.reaches_next hne
  have hname := h.sound_skipWhile (hnext.over hc.within) isAscii_of_not_isAttributeNameByte
  refine ⟨Front.fits_spanTo hc hname (hnext.trans (Cursor.reaches_skipWhile _ _)), ?_⟩
  intro a d hread
  unfold Attribute.read? at hread
  simp only at hread
  have hsign := h.sound_skipWhile_of_isAscii hname isAscii_of_isSpace
  split at hread
  · rename_i hequals
    obtain ⟨⟨v, after⟩, hv, he⟩ := Option.map_eq_some_iff.1 hread
    cases he
    have hbehind := h.sound_next hsign.within hequals (by decide)
    obtain ⟨hd, hfit⟩ :=
      h.sound_attributeValue (h.sound_skipWhile_of_isAscii hbehind isAscii_of_isSpace) hv
    refine ⟨hd, ?_⟩
    rintro v' ⟨⟩
    exact hfit
  · cases hread
    exact ⟨hname, nofun⟩

theorem Front.sound_attributes (hc : c.Sound source hi) :
    Span.AllFit source (Attribute.slices c) ∧
      ∀ {as s d}, Attribute.readAll? c = some (as, s, d) →
        d.Sound source hi ∧ Span.AllFit source (Attribute.values as) := by
  induction hn : c.rest.length using Nat.strongRecOn generalizing c with
  | _ n ih =>
    subst hn
    have hskip := h.sound_skipWhile_of_isAscii hc isAscii_of_isSpace
    have hle := Cursor.length_skipWhile_le isSpace c
    constructor
    · rw [Attribute.slices]
      simp only
      split
      · exact .nil
      · rename_i b rest hrest
        have hne : (c.skipWhile isSpace).rest ≠ [] := by simp [hrest]
        have hpeek : (c.skipWhile isSpace).peek? = some b := congrArg List.head? hrest
        split
        · exact .nil
        · split
          · rename_i hslash
            split
            · exact .nil
            · have hlt := Cursor.length_advance_lt (by decide : 0 < 1) hne
              exact (ih _ (Nat.lt_of_lt_of_le hlt hle)
                (h.sound_next hskip.within hpeek (hslash ▸ by decide)) rfl).1
          · have hattr := h.sound_attribute hskip hne
            refine .cons hattr.1 ?_
            split
            · exact .nil
            · rename_i a after ha
              exact (ih _ (Nat.lt_of_lt_of_le (Attribute.length_read_lt hne ha) hle)
                (hattr.2 ha).1 rfl).1
    · intro as s d hread
      rw [Attribute.readAll?] at hread
      simp only at hread
      split at hread
      · cases hread
      · rename_i b rest hrest
        have hne : (c.skipWhile isSpace).rest ≠ [] := by simp [hrest]
        have hpeek : (c.skipWhile isSpace).peek? = some b := congrArg List.head? hrest
        split at hread
        · rename_i hgreater
          cases hread
          exact ⟨h.sound_next hskip.within hpeek (hgreater ▸ by decide), .nil⟩
        · split at hread
          · rename_i hslash
            subst hslash
            split at hread
            · rename_i hgreater
              obtain ⟨rest', rfl⟩ := List.head?_eq_some_iff.1 hgreater
              cases hread
              exact ⟨h.sound_advance hskip.within (List.cons_ne_nil slash [greater])
                (by decide +kernel) ⟨rest', hrest.symm⟩, .nil⟩
            · have hlt := Cursor.length_advance_lt (by decide : 0 < 1) hne
              exact (ih _ (Nat.lt_of_lt_of_le hlt hle)
                (h.sound_next hskip.within hpeek (by decide)) rfl).2 hread
          · split at hread
            · cases hread
            · rename_i a after ha
              obtain ⟨⟨more, s', stop⟩, hmore, he⟩ := Option.map_eq_some_iff.1 hread
              cases he
              obtain ⟨hafter, hvalue⟩ := (h.sound_attribute hskip hne).2 ha
              obtain ⟨hd, hvalues⟩ := (ih _ (Nat.lt_of_lt_of_le
                (Attribute.length_read_lt hne ha) hle) hafter rfl).2 hmore
              refine ⟨hd, ?_⟩
              cases hv : a.value with
              | none =>
                rw [Attribute.values, List.filterMap_cons_none hv]
                exact hvalues
              | some v =>
                rw [Attribute.values, List.filterMap_cons_some hv]
                exact .cons (hvalue v hv) hvalues

theorem Front.fits_nameSlice (hc : c.Sound source hi) :
    (Token.nameSlice c).fits source = true ∧ (c.skipWhile isElementNameByte).Sound source hi := by
  have hname := h.sound_skipWhile hc.within isAscii_of_not_isElementNameByte
  exact ⟨Front.fits_spanTo hc hname (Cursor.reaches_skipWhile _ _), hname⟩

theorem Front.sound_comment (hc : c.Over (source.take hi)) (hlen : 4 ≤ c.rest.length) :
    (Token.readComment c).2.Sound source hi := by
  have hover := (Cursor.reaches_advance hlen).over hc
  have hstop : ∀ b rest, [hyphen, hyphen, greater].isPrefixOf (b :: rest) = true →
      isAscii b = true := by
    intro b rest hstarts
    simp only [List.isPrefixOf, Bool.and_eq_true, beq_iff_eq] at hstarts
    rw [← hstarts.1]
    decide
  have hclose := h.sound_skipUntil hover hstop
  unfold Token.readComment
  simp only
  split
  · exact hclose
  · rename_i hend
    have hfound := Text.stop_dropUntil ([hyphen, hyphen, greater].isPrefixOf ·)
      (t := (c.advance 4).rest) (by simpa [Cursor.atEnd, Cursor.skipUntil] using hend)
    exact h.sound_advance hclose.within (List.cons_ne_nil hyphen [hyphen, greater])
      (by decide +kernel) (List.isPrefixOf_iff_prefix.1 hfound)

theorem Front.sound_start (hc : c.Sound source hi) (hpeek : c.peek? = some less) :
    Span.AllFit source (Token.nameSlice (c.advance 1) ::
        Attribute.slices ((c.advance 1).skipWhile isElementNameByte)) ∧
      ∀ {t d}, Token.readStart? c = some (t, d) → d.Sound source hi ∧
        ∀ tag, t = .start tag → Span.AllFit source (Attribute.values tag.attributes) := by
  obtain ⟨hfit, hname⟩ := h.fits_nameSlice (h.sound_next hc.within hpeek (by decide))
  have hattrs := h.sound_attributes hname
  refine ⟨.cons hfit hattrs.1, fun {t d} hread => ?_⟩
  obtain ⟨⟨as, s, stop⟩, ha, he⟩ := Option.map_eq_some_iff.1 hread
  cases he
  obtain ⟨hd, hvalues⟩ := hattrs.2 ha
  refine ⟨hd, ?_⟩
  rintro tag ⟨⟩
  exact hvalues

theorem Front.sound_finish (hc : c.Over (source.take hi)) {rest : Text}
    (hrest : c.rest = less :: slash :: rest) :
    (Token.nameSlice (c.advance 2)).fits source = true ∧
      ∀ {t d}, Token.readFinish? c = some (t, d) → d.Sound source hi := by
  have hbehind : (c.advance 2).Sound source hi :=
    h.sound_advance hc (List.cons_ne_nil less [slash]) (by decide +kernel) ⟨rest, hrest.symm⟩
  obtain ⟨hfit, hname⟩ := h.fits_nameSlice hbehind
  refine ⟨hfit, fun {t d} hread => ?_⟩
  unfold Token.readFinish? at hread
  simp only at hread
  split at hread
  · cases hread
  · rename_i hend
    cases hread
    exact h.sound_next_skipWhile hname.within (isAscii_of_bne_eq_false (by decide)) hend

/-- Looking for a token at a `<` cuts out whole characters. -/
theorem Front.fits_tokenSlices (hc : c.Over (source.take hi)) :
    Span.AllFit source (Token.slices c) := by
  unfold Token.slices
  split
  · rename_i first second rest hrest
    split
    · exact .nil
    · rename_i hfirst
      have hless : first = less := by simpa using hfirst
      subst hless
      have hpeek : c.peek? = some less := congrArg List.head? hrest
      split
      · exact .nil
      · split
        · rename_i hslash
          have hslash : second = slash := of_decide_eq_true (Bool.and_eq_true_iff.1 hslash).1
          subst hslash
          exact .single (h.sound_finish hc hrest).1
        · split
          · exact (h.sound_start (sound_of_peek hc hpeek (by decide)) hpeek).1
          · exact .nil
  · exact .nil

/-- A token is a run of whole characters, and so are the values in it. -/
theorem Front.sound_token (hc : c.Over (source.take hi)) {t : Token}
    (hread : Token.read? c = some (t, d)) :
    d.Sound source hi ∧ t.span.fits source = true ∧
      ∀ tag, t = .start tag → Span.AllFit source (Attribute.values tag.attributes) := by
  have hfrom := Token.readFrom_of_read hread
  suffices c.Sound source hi ∧ d.Sound source hi ∧
      ∀ tag, t = .start tag → Span.AllFit source (Attribute.values tag.attributes) by
    obtain ⟨hsound, hd, hvalues⟩ := this
    exact ⟨hd, hfrom.span_eq ▸ Front.fits_spanTo hsound hd hfrom.reaches, hvalues⟩
  unfold Token.read? at hread
  split at hread
  · rename_i first second rest hrest
    split at hread
    · cases hread
    · rename_i hfirst
      have hless : first = less := by simpa using hfirst
      subst hless
      have hpeek : c.peek? = some less := congrArg List.head? hrest
      have hsound := sound_of_peek hc hpeek (by decide)
      refine ⟨hsound, ?_⟩
      split at hread
      · rename_i hcomment
        have hlen := (List.isPrefixOf_iff_prefix.1 (Bool.and_eq_true_iff.1 hcomment).2).length_le
        cases hread
        refine ⟨h.sound_comment hc ?_, nofun⟩
        rw [hrest]
        simp only [List.length_cons, List.length_nil] at hlen ⊢
        omega
      · split at hread
        · unfold Token.readDeclaration? at hread
          simp only at hread
          split at hread
          · cases hread
          · rename_i hend
            cases hread
            exact ⟨h.sound_next_skipWhile hc (isAscii_of_bne_eq_false (by decide)) hend, nofun⟩
        · split at hread
          · rename_i hslash
            have hslash : second = slash := of_decide_eq_true (Bool.and_eq_true_iff.1 hslash).1
            subst hslash
            obtain ⟨-, name, rfl⟩ := Token.reaches_of_readFinish (by simp [hrest]) hread
            exact ⟨(h.sound_finish hc hrest).2 hread, nofun⟩
          · split at hread
            · exact (h.sound_start hsound hpeek).2 hread
            · cases hread
  · cases hread

end

end Text

end Shortcode
