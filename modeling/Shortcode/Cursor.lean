import Shortcode.Span

/-!
# Cursors

A `Cursor` is a place in a document: its offset and the text from there on.  A cursor over an
attribute value or a script body starts at the offset of that part, so what it reads is placed in
the whole document.  Every reader of the library takes a cursor and gives back the one after what
it read; the rest getting shorter is what makes the loops over it end.
-/

namespace Shortcode

/-- An offset into a document and the text from there on. -/
structure Cursor where
  pos : Nat
  rest : Text

namespace Cursor

/-- The cursor at the start of `text`, which lies at offset `base` of its document. -/
def ofText (text : Text) (base : Nat) : Cursor := ⟨base, text⟩

def atEnd (c : Cursor) : Bool := c.rest.isEmpty

/-- The byte at the cursor. -/
def peek? (c : Cursor) : Option UInt8 := c.rest.head?

/-- The byte `n` bytes after the cursor. -/
def peekAt? (c : Cursor) (n : Nat) : Option UInt8 := c.rest[n]?

def startsWith (pattern : Text) (c : Cursor) : Bool := pattern.isPrefixOf c.rest

/-- Whether the text at the cursor starts with `pattern`, up to the case of ASCII letters. -/
def startsIgnoringCase (pattern : Text) (c : Cursor) : Bool :=
  Text.startsIgnoringCase pattern c.rest

/-- The cursor `n` bytes further on. -/
def advance (c : Cursor) (n : Nat) : Cursor := ⟨c.pos + n, c.rest.drop n⟩

/-- The byte at the cursor and the cursor after it. -/
def next? (c : Cursor) : Option (UInt8 × Cursor) := c.peek?.map fun b => (b, c.advance 1)

/-- The longest run of bytes at the cursor that satisfy `p`. -/
def takeWhile (p : UInt8 → Bool) (c : Cursor) : Text := c.rest.takeWhile p

/-- The cursor after the longest run of bytes that satisfy `p`. -/
def skipWhile (p : UInt8 → Bool) (c : Cursor) : Cursor :=
  ⟨c.pos + (c.rest.takeWhile p).length, c.rest.dropWhile p⟩

/-- The text in front of the first place whose rest satisfies `stop`. -/
def takeUntil (stop : Text → Bool) (c : Cursor) : Text := c.rest.takeUntil stop

/-- The cursor at the first place whose rest satisfies `stop`, or at the end. -/
def skipUntil (stop : Text → Bool) (c : Cursor) : Cursor :=
  ⟨c.pos + (c.rest.takeUntil stop).length, c.rest.dropUntil stop⟩

/-- The text of a span that lies at or after the cursor. -/
def slice (c : Cursor) (s : Span) : Text := (c.rest.drop (s.start - c.pos)).take s.length

/-- The span from this cursor to a later one. -/
def spanTo (c later : Cursor) : Span := ⟨c.pos, later.pos⟩

/-! ## Lemmas -/

theorem advance_rest (c : Cursor) (n : Nat) : (c.advance n).rest = c.rest.drop n := rfl

theorem length_advance_le (c : Cursor) (n : Nat) : (c.advance n).rest.length ≤ c.rest.length := by
  simp [advance_rest]

theorem length_advance_lt {c : Cursor} {n : Nat} (hn : 0 < n) (h : c.rest ≠ []) :
    (c.advance n).rest.length < c.rest.length := by
  have := List.length_pos_iff.2 h
  simp only [advance_rest, List.length_drop]
  omega

theorem length_skipWhile_le (p : UInt8 → Bool) (c : Cursor) :
    (c.skipWhile p).rest.length ≤ c.rest.length :=
  Text.length_dropWhile_le p c.rest

theorem length_skipUntil_le (stop : Text → Bool) (c : Cursor) :
    (c.skipUntil stop).rest.length ≤ c.rest.length :=
  Text.length_dropUntil_le stop c.rest

/-- A run of at least one byte leaves a shorter rest. -/
theorem length_skipWhile_lt {p : UInt8 → Bool} {c : Cursor} (h : c.takeWhile p ≠ []) :
    (c.skipWhile p).rest.length < c.rest.length := by
  have e := congrArg List.length (List.takeWhile_append_dropWhile (p := p) (l := c.rest))
  rw [List.length_append] at e
  have := List.length_pos_iff.2 h
  simp only [takeWhile] at this
  show (c.rest.dropWhile p).length < _
  omega

end Cursor

end Shortcode
