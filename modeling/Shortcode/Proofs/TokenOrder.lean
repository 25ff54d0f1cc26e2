import Shortcode.Markup.Token
import Shortcode.Proofs.CursorReach

/-!
# Where markup tokens stand

The token that is read at a `<` takes up exactly the text up to the cursor after it, and the
attribute values of a start tag lie inside it in the order in which they are written.
-/

namespace Shortcode

open Byte

/-- The spans of the values of attributes, in order. -/
def Attribute.values (as : List Attribute) : List Span := as.filterMap (·.value)

namespace Token

/-- `t` was read at `c` and ends at `d`. -/
structure ReadFrom (c d : Cursor) (t : Token) : Prop where
  reaches : c.Reaches d
  span_eq : t.span = c.spanTo d
  pos_lt : c.pos < d.pos
  values_inOrder : ∀ tag, t = .start tag →
    Span.InOrder (d.pos - 1) (c.pos + 1) (Attribute.values tag.attributes)

end Token

/-! ## Attributes -/

namespace Attribute

theorem reaches_of_readValue {c d : Cursor} {v : Span} (h : readValue? c = some (v, d)) :
    c.Reaches d ∧ c.pos ≤ v.start ∧ v.start ≤ v.stop ∧ v.stop ≤ d.pos := by
  unfold readValue? at h
  split at h
  · cases h
  · rename_i b hb
    simp only at h
    split at h
    · split at h
      · cases h
      · rename_i hend
        cases h
        have h1 := Cursor.reaches_next (Cursor.rest_ne_nil hb)
        have h2 := Cursor.reaches_skipWhile (· != b) (c.advance 1)
        exact ⟨(h1.trans h2).next hend, h1.pos_le, h2.pos_le, Nat.le_succ _⟩
    · cases h
      have h1 := Cursor.reaches_skipWhile isUnquotedValueByte c
      exact ⟨h1, Nat.le_refl _, h1.pos_le, Nat.le_refl _⟩

theorem reaches_of_read {c d : Cursor} {a : Attribute} (hc : c.rest ≠ [])
    (h : read? c = some (a, d)) :
    c.Reaches d ∧ ∀ v, a.value = some v → c.pos ≤ v.start ∧ v.start ≤ v.stop ∧ v.stop ≤ d.pos := by
  unfold read? at h
  simp only at h
  have h1 : c.Reaches ((c.advance 1).skipWhile isAttributeNameByte) :=
    (Cursor.reaches_next hc).trans (Cursor.reaches_skipWhile _ _)
  split at h
  · rename_i hsign
    obtain ⟨⟨v, after⟩, hv, he⟩ := Option.map_eq_some_iff.1 h
    cases he
    have h2 := h1.trans <| (Cursor.reaches_skipWhile _ _).trans <|
      (Cursor.reaches_next (Cursor.rest_ne_nil hsign)).trans (Cursor.reaches_skipWhile isSpace _)
    obtain ⟨h3, h4, h5, h6⟩ := reaches_of_readValue hv
    refine ⟨h2.trans h3, ?_⟩
    rintro v' hv'
    cases hv'
    exact ⟨Nat.le_trans h2.pos_le h4, h5, h6⟩
  · cases h
    exact ⟨h1, fun v hv => by cases hv⟩

/-- The values lie in front of the `>` that ends the tag. -/
theorem reaches_of_readAll {c d : Cursor} {as : List Attribute} {s : Bool}
    (h : readAll? c = some (as, s, d)) :
    c.Reaches d ∧ c.pos < d.pos ∧ Span.InOrder (d.pos - 1) c.pos (values as) := by
  induction hn : c.rest.length using Nat.strongRecOn generalizing c as with
  | _ n ih =>
    subst hn
    have hlen := Token.length_readAll_lt h
    rw [readAll?] at h
    simp only at h
    have hsp := Cursor.reaches_skipWhile isSpace c
    have hle : (c.skipWhile isSpace).rest.length ≤ c.rest.length := Cursor.length_skipWhile_le _ _
    have hpos := hsp.pos_le
    split at h
    · cases h
    · rename_i b rest hc
      have hne : (c.skipWhile isSpace).rest ≠ [] := by simp [hc]
      have h1 := Cursor.reaches_next hne
      split at h
      · cases h
        have : c.pos ≤ ((c.skipWhile isSpace).advance 1).pos - 1 := hpos
        exact ⟨hsp.trans h1, (hsp.trans h1).pos_lt hlen, this⟩
      · split at h
        · split at h
          · rename_i hgt
            cases h
            have h2 : (c.skipWhile isSpace).Reaches ((c.skipWhile isSpace).advance 2) := by
              refine Cursor.reaches_advance ?_
              cases rest with
              | nil => cases hgt
              | cons r rest => simp [hc]
            have : c.pos ≤ ((c.skipWhile isSpace).advance 2).pos - 1 := by
              show c.pos ≤ (c.skipWhile isSpace).pos + 2 - 1
              omega
            exact ⟨hsp.trans h2, (hsp.trans h2).pos_lt hlen, this⟩
          · have hlt := Cursor.length_advance_lt (by decide : 0 < 1) hne
            obtain ⟨h3, h4, h5⟩ := ih _ (Nat.lt_of_lt_of_le hlt hle) h rfl
            exact ⟨hsp.trans (h1.trans h3), ((hsp.trans h1).trans h3).pos_lt hlen,
              h5.mono_left (hsp.trans h1).pos_le⟩
        · split at h
          · cases h
          · rename_i a after ha
            obtain ⟨⟨more, s', stop⟩, hm, he⟩ := Option.map_eq_some_iff.1 h
            cases he
            obtain ⟨h3, h4⟩ := reaches_of_read hne ha
            have hlt := Nat.lt_of_lt_of_le (length_read_lt hne ha) hle
            obtain ⟨h5, h6, h7⟩ := ih _ hlt hm rfl
            refine ⟨hsp.trans (h3.trans h5), (hsp.trans (h3.trans h5)).pos_lt hlen, ?_⟩
            cases hv : a.value with
            | none =>
              rw [values, List.filterMap_cons_none hv]
              exact h7.mono_left (hsp.trans h3).pos_le
            | some v =>
              obtain ⟨h8, h9, h10⟩ := h4 v hv
              rw [values, List.filterMap_cons_some hv]
              exact ⟨Nat.le_trans hpos h8, h9, h7.mono_left h10⟩

end Attribute

/-! ## Tokens -/

namespace Token

theorem reaches_readComment {c : Cursor} (h : 4 ≤ c.rest.length) :
    c.Reaches (readComment c).2 := by
  have h1 := (Cursor.reaches_advance h).trans
    (Cursor.reaches_skipUntil ([hyphen, hyphen, greater].isPrefixOf ·) (c.advance 4))
  unfold readComment
  simp only
  split
  · exact h1
  · rename_i hend
    refine h1.trans (Cursor.reaches_advance ?_)
    have hclose := Text.stop_dropUntil ([hyphen, hyphen, greater].isPrefixOf ·)
      (t := (c.advance 4).rest) (by simpa [Cursor.atEnd, Cursor.skipUntil] using hend)
    exact (List.isPrefixOf_iff_prefix.1 hclose).length_le

theorem reaches_of_readDeclaration {c d : Cursor} {t : Token}
    (h : readDeclaration? c = some (t, d)) : c.Reaches d ∧ t = .opaqueText (c.spanTo d) := by
  unfold readDeclaration? at h
  simp only at h
  split at h
  · cases h
  · rename_i hend
    cases h
    exact ⟨(Cursor.reaches_skipWhile _ _).next hend, rfl⟩

theorem reaches_of_readFinish {c d : Cursor} {t : Token} (hc : 2 ≤ c.rest.length)
    (h : readFinish? c = some (t, d)) :
    c.Reaches d ∧ ∃ name, t = .finish name (c.spanTo d) := by
  unfold readFinish? at h
  simp only at h
  split at h
  · cases h
  · rename_i hend
    cases h
    have hname := (Cursor.reaches_advance hc).trans (Cursor.reaches_skipWhile isElementNameByte _)
    have hlast := hname.trans (Cursor.reaches_skipWhile (· != greater) _)
    exact ⟨hlast.next hend, _, rfl⟩

theorem reaches_of_readStart {c d : Cursor} {t : Token} (hc : c.rest ≠ [])
    (h : readStart? c = some (t, d)) :
    c.Reaches d ∧ ∃ tag, t = .start tag ∧ tag.span = c.spanTo d ∧
      Span.InOrder (d.pos - 1) (c.pos + 1) (Attribute.values tag.attributes) := by
  unfold readStart? at h
  obtain ⟨⟨as, s, stop⟩, ha, he⟩ := Option.map_eq_some_iff.1 h
  cases he
  obtain ⟨h1, -, h3⟩ := Attribute.reaches_of_readAll ha
  have h4 := Cursor.reaches_skipWhile isElementNameByte (c.advance 1)
  exact ⟨(Cursor.reaches_next hc).trans (h4.trans h1), _, rfl, rfl, h3.mono_left h4.pos_le⟩

theorem readFrom_of_read {c d : Cursor} {t : Token} (h : read? c = some (t, d)) :
    ReadFrom c d t := by
  have hlt := length_read_lt h
  suffices c.Reaches d ∧ t.span = c.spanTo d ∧ ∀ tag, t = .start tag →
      Span.InOrder (d.pos - 1) (c.pos + 1) (Attribute.values tag.attributes) from
    ⟨this.1, this.2.1, this.1.pos_lt hlt, this.2.2⟩
  unfold read? at h
  split at h
  · rename_i first second rest hc
    have hne : c.rest ≠ [] := by simp [hc]
    split at h
    · cases h
    · split at h
      · rename_i hcomment
        have hlen := (List.isPrefixOf_iff_prefix.1 (Bool.and_eq_true_iff.1 hcomment).2).length_le
        cases h
        refine ⟨reaches_readComment ?_, rfl, fun tag ht => by cases ht⟩
        rw [hc]
        simp only [List.length_cons, List.length_nil] at hlen ⊢
        omega
      · split at h
        · obtain ⟨h1, rfl⟩ := reaches_of_readDeclaration h
          exact ⟨h1, rfl, fun tag ht => by cases ht⟩
        · split at h
          · obtain ⟨h1, name, rfl⟩ := reaches_of_readFinish (by simp [hc]) h
            exact ⟨h1, rfl, fun tag ht => by cases ht⟩
          · split at h
            · obtain ⟨h1, tag, rfl, hspan, hvalues⟩ := reaches_of_readStart hne h
              refine ⟨h1, hspan, fun tag' ht => ?_⟩
              cases ht
              exact hvalues
            · cases h
  · cases h

end Token

end Shortcode
