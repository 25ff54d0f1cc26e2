import Shortcode.Markup.Token

/-!
# Tokens read step by step

The readers here move a cursor as they go.  One that gives up leaves the cursor where it did, so it
takes a part of the text with it.  `Token.lex` puts the cursor back, and thereby reads a token or
nothing.
-/

namespace Shortcode

open Byte

/-- What a reader found, if it did not give up, and where the cursor is then. -/
abbrev Move (α : Type) := Option α × Cursor

namespace Move

variable {α β : Type}

/-- What was found, with the cursor after it. -/
def found? (m : Move α) : Option (α × Cursor) := m.1.map (·, m.2)

/-- Goes on from what was found. -/
def andThen (m : Move α) (next : α → Cursor → Move β) : Move β :=
  match m with
  | (some a, c) => next a c
  | (none, c) => (none, c)

theorem found?_andThen (m : Move α) (next : α → Cursor → Move β) :
    (m.andThen next).found? = m.found?.bind fun (a, c) => (next a c).found? := by
  rcases m with ⟨_ | a, c⟩ <;> rfl

end Move

namespace Attribute

/-! ## Attributes -/

/-- Moves past the value at the cursor, or to the end of the text if its quote never comes again. -/
def moveValue (c : Cursor) : Move Span :=
  match c.peek? with
  | none => (none, c)
  | some b =>
    if isQuote b then
      let first := c.advance 1
      let last := first.skipWhile (· != b)
      if last.atEnd then (none, last) else (some (first.spanTo last), last.advance 1)
    else
      let last := c.skipWhile isUnquotedValueByte
      (some (c.spanTo last), last)

/-- Moves past the attribute at the cursor.  White space behind a name alone is given back. -/
def move (c : Cursor) : Move Attribute :=
  let afterName := (c.advance 1).skipWhile isAttributeNameByte
  let name := Text.lower (c.slice (c.spanTo afterName))
  let sign := afterName.skipWhile isSpace
  if sign.peek? = some equals then
    (moveValue ((sign.advance 1).skipWhile isSpace)).andThen fun value after =>
      (some ⟨name, some value⟩, after)
  else (some ⟨name, none⟩, afterName)

theorem found?_moveValue (c : Cursor) : (moveValue c).found? = readValue? c := by
  unfold moveValue readValue?
  cases c.peek? with
  | none => rfl
  | some b =>
    dsimp only
    split
    · split <;> rfl
    · rfl

theorem found?_move (c : Cursor) : (move c).found? = read? c := by
  unfold move read?
  dsimp only
  split
  · rw [Move.found?_andThen, found?_moveValue]
    cases readValue? _ <;> rfl
  · rfl

theorem read?_of_move {c c' : Cursor} {a : Attribute} (h : move c = (some a, c')) :
    read? c = some (a, c') := by
  rw [← found?_move, h]
  rfl

/-- Moves past the attributes and the end of a start tag. -/
def moveAll (c : Cursor) : Move (List Attribute × Bool) :=
  let c' := c.skipWhile isSpace
  match hc : c'.rest with
  | [] => (none, c')
  | b :: rest =>
    if b = greater then (some ([], false), c'.advance 1)
    else if b = slash then
      if rest.head? = some greater then (some ([], true), c'.advance 2)
      else
        have : (c'.advance 1).rest.length < c.rest.length :=
          Nat.lt_of_lt_of_le (Cursor.length_advance_lt (by decide) (by simp [hc]))
            (Cursor.length_skipWhile_le _ _)
        moveAll (c'.advance 1)
    else
      match h : move c' with
      | (none, after) => (none, after)
      | (some a, after) =>
        have : after.rest.length < c.rest.length :=
          Nat.lt_of_lt_of_le (length_read_lt (by simp [hc]) (read?_of_move h))
            (Cursor.length_skipWhile_le _ _)
        (moveAll after).andThen fun (more, selfClosing) stop =>
          (some (a :: more, selfClosing), stop)
termination_by c.rest.length

end Attribute

namespace Token

/-! ## Tokens -/

def moveComment (c : Cursor) : Move Token :=
  let close := (c.advance 4).skipUntil ([hyphen, hyphen, greater].isPrefixOf ·)
  let after := if close.atEnd then close else close.advance 3
  (some (.opaqueText (c.spanTo after)), after)

def moveDeclaration (c : Cursor) : Move Token :=
  let close := c.skipWhile (· != greater)
  if close.atEnd then (none, close)
  else (some (.opaqueText (c.spanTo (close.advance 1))), close.advance 1)

def moveFinish (c : Cursor) : Move Token :=
  let name := (c.advance 2).takeWhile isElementNameByte
  let close := ((c.advance 2).skipWhile isElementNameByte).skipWhile (· != greater)
  if close.atEnd then (none, close)
  else (some (.finish (Text.lower name) (c.spanTo (close.advance 1))), close.advance 1)

def moveStart (c : Cursor) : Move Token :=
  let name := (c.advance 1).takeWhile isElementNameByte
  (Attribute.moveAll ((c.advance 1).skipWhile isElementNameByte)).andThen
    fun (attributes, selfClosing) after =>
      (some (.start ⟨Text.lower name, c.spanTo after, attributes, selfClosing⟩), after)

/-- Moves past the token at the cursor, or as far as the construct could be followed. -/
def move (c : Cursor) : Move Token :=
  match c.rest with
  | first :: second :: rest =>
    if first != less then (none, c)
    else if second = bang && [hyphen, hyphen].isPrefixOf rest then moveComment c
    else if second = bang || second = question then moveDeclaration c
    else if second = slash && rest.head?.any isLetter then moveFinish c
    else if isLetter second then moveStart c
    else (none, c)
  | _ => (none, c)

/-- The token at the cursor.  Without one the cursor is put back. -/
def lex (c : Cursor) : Move Token :=
  match move c with
  | (some t, after) => (some t, after)
  | (none, _) => (none, c)

end Token

end Shortcode
