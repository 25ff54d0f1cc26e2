import Shortcode.Cursor

/-!
# Markup tokens

A `Token` is one construct of the markup between which the text of a document stands: a start tag,
an end tag, or a comment or declaration.  A `<` that starts none of them, or one that is not ended,
is text.

    <name attribute attribute=value attribute="value" attribute='value' />
    </name anything but the end>
    <!-- comment -->   <!declaration>   <?declaration>

A comment without its `-->` runs to the end of the text.
-/

namespace Shortcode

open Byte

/-- An attribute of a start tag. -/
structure Attribute where
  /-- In lower case. -/
  name : Text
  /-- The value without its quotes; none for a name alone. -/
  value : Option Span
  deriving DecidableEq

structure StartTag where
  /-- In lower case. -/
  name : Text
  span : Span
  attributes : List Attribute
  /-- Whether the tag ends with `/>`. -/
  selfClosing : Bool
  deriving DecidableEq

/-- One construct of the markup. -/
inductive Token where
  | start (tag : StartTag)
  | finish (name : Text) (span : Span)
  /-- A comment, a document type or a processing instruction. -/
  | opaqueText (span : Span)
  deriving DecidableEq

def Token.span : Token → Span
  | .start tag => tag.span
  | .finish _ span => span
  | .opaqueText span => span

/-- Elements whose body is raw text: tags are read in it, but no markup. -/
def rawTextNames : List Text := [Text.ofString "script", Text.ofString "style"]

/-- The element whose raw text body starts after the tag. -/
def StartTag.rawText? (tag : StartTag) : Option Text :=
  if !tag.selfClosing && rawTextNames.contains tag.name then some tag.name else none

/-! ## Names -/

def Byte.isElementNameByte (b : UInt8) : Bool := !isSpace b && b != slash && b != greater

def Byte.isAttributeNameByte (b : UInt8) : Bool :=
  !isSpace b && b != equals && b != slash && b != greater

def Byte.isUnquotedValueByte (b : UInt8) : Bool := !isSpace b && b != greater

namespace Attribute

/-! ## Attributes -/

/-- The value at the cursor, which is past the `=` and the white space behind it. -/
def readValue? (c : Cursor) : Option (Span × Cursor) :=
  match c.peek? with
  | none => none
  | some b =>
    if isQuote b then
      let first := c.advance 1
      let last := first.skipWhile (· != b)
      if last.atEnd then none else some (first.spanTo last, last.advance 1)
    else
      let last := c.skipWhile isUnquotedValueByte
      some (c.spanTo last, last)

/-- The attribute at the cursor.  Its name takes at least one byte, be it a quote or an `=`. -/
def read? (c : Cursor) : Option (Attribute × Cursor) :=
  let afterName := (c.advance 1).skipWhile isAttributeNameByte
  let name := Text.lower (c.slice (c.spanTo afterName))
  let sign := afterName.skipWhile isSpace
  if sign.peek? = some equals then
    (readValue? ((sign.advance 1).skipWhile isSpace)).map fun (value, after) =>
      (⟨name, some value⟩, after)
  else some (⟨name, none⟩, afterName)

theorem length_readValue_le {c c' : Cursor} {v : Span} (h : readValue? c = some (v, c')) :
    c'.rest.length ≤ c.rest.length := by
  unfold readValue? at h
  split at h
  · cases h
  · simp only at h
    split at h
    · split at h
      · cases h
      · cases h
        exact Nat.le_trans (Cursor.length_advance_le _ _)
          (Nat.le_trans (Cursor.length_skipWhile_le _ _) (Cursor.length_advance_le _ _))
    · cases h
      exact Cursor.length_skipWhile_le _ _

theorem length_read_lt {c c' : Cursor} {a : Attribute} (hc : c.rest ≠ [])
    (h : read? c = some (a, c')) : c'.rest.length < c.rest.length := by
  unfold read? at h
  simp only at h
  have hlt : ((c.advance 1).skipWhile isAttributeNameByte).rest.length < c.rest.length :=
    Nat.lt_of_le_of_lt (Cursor.length_skipWhile_le _ _) (Cursor.length_advance_lt (by decide) hc)
  split at h
  · obtain ⟨⟨v, after⟩, hv, he⟩ := Option.map_eq_some_iff.1 h
    cases he
    refine Nat.lt_of_le_of_lt (length_readValue_le hv) (Nat.lt_of_le_of_lt ?_ hlt)
    exact Nat.le_trans (Cursor.length_skipWhile_le _ _)
      (Nat.le_trans (Cursor.length_advance_le _ _) (Cursor.length_skipWhile_le _ _))
  · cases h
    exact hlt

/-- The attributes up to the end of a start tag, whether it ends with `/>`, and the cursor after
it.  A slash that does not end the tag is skipped. -/
def readAll? (c : Cursor) : Option (List Attribute × Bool × Cursor) :=
  let c' := c.skipWhile isSpace
  match hc : c'.rest with
  | [] => none
  | b :: rest =>
    if b = greater then some ([], false, c'.advance 1)
    else if b = slash then
      if rest.head? = some greater then some ([], true, c'.advance 2)
      else
        have : (c'.advance 1).rest.length < c.rest.length :=
          Nat.lt_of_lt_of_le (Cursor.length_advance_lt (by decide) (by simp [hc]))
            (Cursor.length_skipWhile_le _ _)
        readAll? (c'.advance 1)
    else
      match h : read? c' with
      | none => none
      | some (a, after) =>
        have : after.rest.length < c.rest.length :=
          Nat.lt_of_lt_of_le (length_read_lt (by simp [hc]) h) (Cursor.length_skipWhile_le _ _)
        (readAll? after).map fun (more, selfClosing, stop) => (a :: more, selfClosing, stop)
termination_by c.rest.length

end Attribute

namespace Token

/-! ## Tokens -/

/-- A comment; the cursor is at its `<!--`. -/
def readComment (c : Cursor) : Token × Cursor :=
  let close := (c.advance 4).skipUntil ([hyphen, hyphen, greater].isPrefixOf ·)
  let after := if close.atEnd then close else close.advance 3
  (.opaqueText (c.spanTo after), after)

/-- A declaration, which runs to the next `>`. -/
def readDeclaration? (c : Cursor) : Option (Token × Cursor) :=
  let close := c.skipWhile (· != greater)
  if close.atEnd then none
  else some (.opaqueText (c.spanTo (close.advance 1)), close.advance 1)

/-- An end tag; what stands between its name and its `>` does not count. -/
def readFinish? (c : Cursor) : Option (Token × Cursor) :=
  let name := (c.advance 2).takeWhile isElementNameByte
  let close := ((c.advance 2).skipWhile isElementNameByte).skipWhile (· != greater)
  if close.atEnd then none
  else some (.finish (Text.lower name) (c.spanTo (close.advance 1)), close.advance 1)

/-- A start tag with its attributes. -/
def readStart? (c : Cursor) : Option (Token × Cursor) :=
  let name := (c.advance 1).takeWhile isElementNameByte
  (Attribute.readAll? ((c.advance 1).skipWhile isElementNameByte)).map
    fun (attributes, selfClosing, after) =>
      (.start ⟨Text.lower name, c.spanTo after, attributes, selfClosing⟩, after)

/-- The token at the cursor, and the cursor after it. -/
def read? (c : Cursor) : Option (Token × Cursor) :=
  match c.rest with
  | first :: second :: rest =>
    if first != less then none
    else if second = bang && [hyphen, hyphen].isPrefixOf rest then some (readComment c)
    else if second = bang || second = question then readDeclaration? c
    else if second = slash && rest.head?.any isLetter then readFinish? c
    else if isLetter second then readStart? c
    else none
  | _ => none

/-! ## Lemmas -/

theorem length_readAll_lt {c c' : Cursor} {as : List Attribute} {s : Bool}
    (h : Attribute.readAll? c = some (as, s, c')) : c'.rest.length < c.rest.length := by
  induction hn : c.rest.length using Nat.strongRecOn generalizing c as with
  | _ n ih =>
    subst hn
    rw [Attribute.readAll?] at h
    simp only at h
    split at h
    · cases h
    · rename_i b rest hc
      have hle : (c.skipWhile isSpace).rest.length ≤ c.rest.length := Cursor.length_skipWhile_le _ _
      have hne : (c.skipWhile isSpace).rest ≠ [] := by simp [hc]
      have h1 : ((c.skipWhile isSpace).advance 1).rest.length < c.rest.length :=
        Nat.lt_of_lt_of_le (Cursor.length_advance_lt (by decide) hne) hle
      have h2 : ((c.skipWhile isSpace).advance 2).rest.length < c.rest.length :=
        Nat.lt_of_lt_of_le (Cursor.length_advance_lt (by decide) hne) hle
      split at h
      · cases h
        exact h1
      · split at h
        · split at h
          · cases h
            exact h2
          · exact Nat.lt_trans (ih _ h1 h rfl) h1
        · split at h
          · cases h
          · rename_i a after ha
            obtain ⟨⟨more, s', stop⟩, hm, he⟩ := Option.map_eq_some_iff.1 h
            cases he
            have h3 : after.rest.length < c.rest.length :=
              Nat.lt_of_lt_of_le (Attribute.length_read_lt hne ha) hle
            exact Nat.lt_trans (ih _ h3 hm rfl) h3

/-- A token holds at least one byte. -/
theorem length_read_lt {c c' : Cursor} {t : Token} (h : read? c = some (t, c')) :
    c'.rest.length < c.rest.length := by
  unfold read? at h
  split at h
  · rename_i first second rest hc
    have hne : c.rest ≠ [] := by simp [hc]
    have step : ∀ n, 0 < n → (c.advance n).rest.length < c.rest.length := fun n hn =>
      Cursor.length_advance_lt hn hne
    have close : ∀ d : Cursor, d.rest.length ≤ c.rest.length → d.atEnd = false →
        (d.advance 1).rest.length < c.rest.length := fun d hd he =>
      Nat.lt_of_lt_of_le (Cursor.length_advance_lt (by decide)
        (by simpa [Cursor.atEnd] using he)) hd
    split at h
    · cases h
    · split at h
      · cases h
        have hle : ((c.advance 4).skipUntil ([hyphen, hyphen, greater].isPrefixOf ·)).rest.length
            < c.rest.length :=
          Nat.lt_of_le_of_lt (Cursor.length_skipUntil_le _ _) (step 4 (by decide))
        split
        · exact hle
        · exact Nat.lt_of_le_of_lt (Cursor.length_advance_le _ _) hle
      · split at h
        · unfold readDeclaration? at h
          simp only at h
          split at h
          · cases h
          · rename_i he
            cases h
            exact close _ (Cursor.length_skipWhile_le _ _) (by simpa using he)
        · split at h
          · unfold readFinish? at h
            simp only at h
            split at h
            · cases h
            · rename_i he
              cases h
              refine close _ ?_ (by simpa using he)
              exact Nat.le_trans (Cursor.length_skipWhile_le _ _)
                (Nat.le_trans (Cursor.length_skipWhile_le _ _) (Cursor.length_advance_le _ _))
          · split at h
            · obtain ⟨⟨as, s, stop⟩, ha, he⟩ := Option.map_eq_some_iff.1 h
              cases he
              refine Nat.lt_of_lt_of_le (length_readAll_lt ha) ?_
              exact Nat.le_trans (Cursor.length_skipWhile_le _ _) (Cursor.length_advance_le _ _)
            · cases h
  · cases h

end Token

end Shortcode
