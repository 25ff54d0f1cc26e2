import Shortcode.Arguments.Basic
import Shortcode.Cursor
import Shortcode.Text.Quoted

/-!
# Reading an argument list

A list such as `foo="bar", baz=1 flag` is a run of separators (white space and commas) and entries.
An entry is a key, or a key and a value with `=` and optional white space between them.  A value is
written in double quotes, in single quotes or bare; a key alone has the empty value.

The list is either a whole text or the part of a tag in front of its `]` or `/]` (`Terminator`).
-/

namespace Shortcode

open Byte

namespace Byte

/-- White space and commas part a tag's name from its arguments and these from each other. -/
def isSeparator (b : UInt8) : Bool := isSpace b || b == comma

def isKeyByte (b : UInt8) : Bool :=
  !isSeparator b && !(b == slash || b == singleQuote || b == doubleQuote || b == equals ||
    b == leftBracket || b == rightBracket)

end Byte

/-- Why an argument list could not be read. -/
inductive ArgumentError where
  /-- The quote that opened a value at `offset` never came again. -/
  | unterminatedQuote (quote : UInt8) (offset : Nat)
  /-- The byte at `offset` starts neither a key nor a separator. -/
  | unexpectedCharacter (byte : UInt8) (offset : Nat)
  /-- The text ended at `offset` in front of the end of the tag. -/
  | unexpectedEnd (offset : Nat)
  deriving DecidableEq

def ArgumentError.message : ArgumentError → Text
  | .unterminatedQuote quote offset =>
    Text.ofString "unterminated " ++ [quote] ++ Text.ofString " quote opened at byte " ++
      Text.ofNat offset
  | .unexpectedCharacter byte offset =>
    Text.ofString "unexpected character " ++ Text.quotedCharacter (Char.ofNat byte.toNat) ++
      Text.ofString " at byte " ++ Text.ofNat offset
  | .unexpectedEnd offset =>
    Text.ofString "argument list ended at byte " ++ Text.ofNat offset ++
      Text.ofString " before the tag was closed"

/-- Where an argument list stops. -/
inductive Terminator where
  /-- The list is the whole text. -/
  | endOfText
  /-- The list stops in front of `]` or `/]`. -/
  | endOfTag
  deriving DecidableEq

/-- Whether the list stops in front of this rest. -/
def Terminator.reached : Terminator → Text → Bool
  | .endOfText, rest => rest.isEmpty
  | .endOfTag, rest => [rightBracket].isPrefixOf rest || [slash, rightBracket].isPrefixOf rest

namespace Arguments

/-! ## Algorithm -/

/-- The value after an opening quote, which stands at `offset`. -/
def quotedValue (quote : UInt8) (offset : Nat) (c : Cursor) :
    Except ArgumentError (Text × Cursor) :=
  let after := c.skipWhile (· != quote)
  if after.atEnd then .error (.unterminatedQuote quote offset)
  else .ok (c.takeWhile (· != quote), after.advance 1)

/-- Whether a bare value stops in front of this rest. -/
def endsBareValue (stop : Terminator) (rest : Text) : Bool :=
  rest.head?.any isSeparator || stop.reached rest

/-- The value after `=` and the white space behind it. -/
def value (stop : Terminator) (c : Cursor) : Except ArgumentError (Text × Cursor) :=
  match c.peek? with
  | some b =>
    if isQuote b then quotedValue b c.pos (c.advance 1)
    else .ok (c.takeUntil (endsBareValue stop), c.skipUntil (endsBareValue stop))
  | none => .ok ([], c)

/-- The entry at the cursor, which is past all separators and not at the end of the list. -/
def entry (stop : Terminator) (c : Cursor) : Except ArgumentError ((Text × Text) × Cursor) :=
  match c.peek? with
  | none => .error (.unexpectedEnd c.pos)
  | some b =>
    let key := c.takeWhile isKeyByte
    let afterKey := c.skipWhile isKeyByte
    let beforeSign := afterKey.skipWhile isSpace
    if key.isEmpty then .error (.unexpectedCharacter b c.pos)
    else if beforeSign.peek? = some equals then do
      let (value, after) ← value stop ((beforeSign.advance 1).skipWhile isSpace)
      return ((key, value), after)
    else .ok ((key, []), afterKey)

/-! ## Lemmas -/

theorem length_quotedValue_le {quote : UInt8} {offset : Nat} {c c' : Cursor} {v : Text}
    (h : quotedValue quote offset c = .ok (v, c')) : c'.rest.length ≤ c.rest.length := by
  unfold quotedValue at h
  simp only at h
  split at h
  · cases h
  · cases h
    exact Nat.le_trans (Cursor.length_advance_le _ _) (Cursor.length_skipWhile_le _ _)

theorem length_value_le {stop : Terminator} {c c' : Cursor} {v : Text}
    (h : value stop c = .ok (v, c')) : c'.rest.length ≤ c.rest.length := by
  unfold value at h
  split at h
  · split at h
    · exact Nat.le_trans (length_quotedValue_le h) (Cursor.length_advance_le _ _)
    · cases h
      exact Cursor.length_skipUntil_le _ _
  · cases h
    exact Nat.le_refl _

/-- An entry holds at least one byte. -/
theorem length_entry_lt {stop : Terminator} {c c' : Cursor} {e : Text × Text}
    (h : entry stop c = .ok (e, c')) : c'.rest.length < c.rest.length := by
  unfold entry at h
  split at h
  · cases h
  · simp only at h
    split at h
    · cases h
    · rename_i hkey
      have hlt : (c.skipWhile isKeyByte).rest.length < c.rest.length :=
        Cursor.length_skipWhile_lt (by simpa using hkey)
      split at h
      · cases hv : value stop
            ((((c.skipWhile isKeyByte).skipWhile isSpace).advance 1).skipWhile isSpace) with
        | error e => rw [hv] at h; cases h
        | ok p =>
          rw [hv] at h
          cases h
          refine Nat.lt_of_le_of_lt (length_value_le hv) (Nat.lt_of_le_of_lt ?_ hlt)
          exact Nat.le_trans (Cursor.length_skipWhile_le _ _)
            (Nat.le_trans (Cursor.length_advance_le _ _) (Cursor.length_skipWhile_le _ _))
      · cases h
        exact hlt

/-! ## The list -/

/-- Reads entries into `args` up to the end of the list and stops in front of it. -/
def readInto (stop : Terminator) (args : Arguments) (c : Cursor) :
    Except ArgumentError (Arguments × Cursor) :=
  let c' := c.skipWhile isSeparator
  if stop.reached c'.rest then .ok (args, c')
  else
    match h : entry stop c' with
    | .error e => .error e
    | .ok ((key, value), after) =>
      have : after.rest.length < c.rest.length :=
        Nat.lt_of_lt_of_le (length_entry_lt h) (Cursor.length_skipWhile_le _ _)
      readInto stop (args.insert key value) after
termination_by c.rest.length

/-- The arguments in front of the end of a tag. -/
def read (stop : Terminator) (c : Cursor) : Except ArgumentError (Arguments × Cursor) :=
  readInto stop empty c

/-- The arguments that the whole of `raw` lists. -/
def ofText (raw : Text) : Except ArgumentError Arguments :=
  (read .endOfText (.ofText raw 0)).map (·.1)

end Arguments

end Shortcode
