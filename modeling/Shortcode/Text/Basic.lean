/-!
# Text and byte classes

A `Text` is the UTF-8 bytes of a document and every offset of the library counts bytes.  All
delimiters are ASCII, so a test on single bytes never stops inside a character.

    takeUntil stop text ++ dropUntil stop text = text        (takeUntil_append_dropUntil)
-/

namespace Shortcode

/-- The UTF-8 bytes of a text. -/
abbrev Text := List UInt8

/-! ## Bytes -/

namespace Byte

abbrev bang : UInt8 := 0x21
abbrev doubleQuote : UInt8 := 0x22
abbrev hash : UInt8 := 0x23
abbrev dollar : UInt8 := 0x24
abbrev ampersand : UInt8 := 0x26
abbrev singleQuote : UInt8 := 0x27
abbrev comma : UInt8 := 0x2C
abbrev hyphen : UInt8 := 0x2D
abbrev dot : UInt8 := 0x2E
abbrev slash : UInt8 := 0x2F
abbrev semicolon : UInt8 := 0x3B
abbrev less : UInt8 := 0x3C
abbrev equals : UInt8 := 0x3D
abbrev greater : UInt8 := 0x3E
abbrev question : UInt8 := 0x3F
abbrev leftBracket : UInt8 := 0x5B
abbrev backslash : UInt8 := 0x5C
abbrev rightBracket : UInt8 := 0x5D
abbrev underscore : UInt8 := 0x5F
abbrev leftBrace : UInt8 := 0x7B
abbrev rightBrace : UInt8 := 0x7D
abbrev tilde : UInt8 := 0x7E

/-- Space, tab, line feed, form feed or carriage return. -/
def isSpace (b : UInt8) : Bool :=
  b == 0x20 || b == 0x09 || b == 0x0A || b == 0x0C || b == 0x0D

def isDigit (b : UInt8) : Bool := 0x30 ≤ b && b ≤ 0x39

def isLetter (b : UInt8) : Bool := (0x41 ≤ b && b ≤ 0x5A) || (0x61 ≤ b && b ≤ 0x7A)

def isAlphanumeric (b : UInt8) : Bool := isLetter b || isDigit b

def isQuote (b : UInt8) : Bool := b == doubleQuote || b == singleQuote

/-- The lower-case letter of an upper-case one; any other byte is kept. -/
def lower (b : UInt8) : UInt8 := if 0x41 ≤ b && b ≤ 0x5A then b + 0x20 else b

/-- The second and later bytes of a character. -/
def isContinuation (b : UInt8) : Bool := 0x80 ≤ b && b < 0xC0

end Byte

/-! ## Texts -/

namespace Text

def ofString (s : String) : Text := s.toList.flatMap String.utf8EncodeChar

/-- The string with these bytes, if they are valid UTF-8. -/
def toString? (t : Text) : Option String := String.fromUTF8? ⟨t.toArray⟩

/-- Decimal digits of a number. -/
def ofNat (n : Nat) : Text := ofString (toString n)

def lower (t : Text) : Text := t.map Byte.lower

/-- Whether two texts are equal up to the case of ASCII letters. -/
def sameIgnoringCase (a b : Text) : Bool := a.length == b.length && lower a == lower b

/-- Whether `text` starts with `pattern`, up to the case of ASCII letters. -/
def startsIgnoringCase (pattern text : Text) : Bool :=
  sameIgnoringCase pattern (text.take pattern.length)

/-- The part in front of the first place whose rest satisfies `stop`. -/
def takeUntil (stop : Text → Bool) : Text → Text
  | [] => []
  | b :: rest => if stop (b :: rest) then [] else b :: takeUntil stop rest

/-- The text from the first place whose rest satisfies `stop`. -/
def dropUntil (stop : Text → Bool) : Text → Text
  | [] => []
  | b :: rest => if stop (b :: rest) then b :: rest else dropUntil stop rest

/-- Whether offset `pos` lies between two characters of `text` or at one of its ends. -/
def isBoundary (text : Text) (pos : Nat) : Bool :=
  if pos = 0 then true
  else
    match text[pos]? with
    | some b => !Byte.isContinuation b
    | none => pos == text.length

/-! ## Lemmas -/

theorem takeUntil_append_dropUntil (stop : Text → Bool) (t : Text) :
    takeUntil stop t ++ dropUntil stop t = t := by
  induction t with
  | nil => rfl
  | cons b rest ih => by_cases h : stop (b :: rest) <;> simp [takeUntil, dropUntil, h, ih]

theorem length_dropUntil_le (stop : Text → Bool) (t : Text) :
    (dropUntil stop t).length ≤ t.length := by
  have h := congrArg List.length (takeUntil_append_dropUntil stop t)
  rw [List.length_append] at h
  omega

theorem length_dropWhile_le (p : UInt8 → Bool) (t : Text) :
    (t.dropWhile p).length ≤ t.length :=
  (List.dropWhile_suffix p).length_le

end Text

end Shortcode
