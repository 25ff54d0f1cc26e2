import Shortcode.Toml.Scalar

/-!
# Writing TOML

Keys and strings are written in the plainest notation that can hold them:

* a key bare, else in double quotes, else in single quotes, else in double quotes with escapes;
* a string in double quotes on one line, else in single quotes on one line, else in double quotes
  over several lines, else in single quotes over several lines, else in double quotes with escapes.

A notation with escapes is used only where control characters or quotes leave no other.  A string
with a line end starts on the line after its opening quotes.
-/

namespace Shortcode.Toml

open Byte

/-! ## What a text holds -/

/-- The length of the longest run of `b`. -/
def longestRun (b : UInt8) (t : Text) : Nat :=
  (t.foldl (fun (longest, current) c =>
    if c == b then (max longest (current + 1), current + 1) else (longest, 0)) (0, 0)).1

/-- Control characters that no notation without escapes can hold; tabs and line feeds are none. -/
def isControl (b : UInt8) : Bool := (b < 0x20 && b != 0x09 && b != 0x0A) || b == 0x7F

def holdsControl (t : Text) : Bool := t.any isControl

def holdsNewline (t : Text) : Bool := t.contains 0x0A

def holdsBackslash (t : Text) : Bool := t.contains backslash

/-! ## Notations -/

/-- The notations of a string. -/
inductive Quoting where
  | basic
  | literal
  | longBasic
  | longLiteral
  deriving DecidableEq

/-- The plainest notation that can hold a string. -/
def Quoting.ofText (t : Text) : Quoting :=
  let control := holdsControl t
  let newline := holdsNewline t
  let escaped := holdsBackslash t
  let doubles := longestRun doubleQuote t
  let singles := longestRun singleQuote t
  if !control && !escaped && doubles = 0 && !newline then .basic
  else if !control && singles = 0 && !newline then .literal
  else if !control && !escaped && doubles ≤ 2 then .longBasic
  else if !control && singles ≤ 2 then .longLiteral
  else if newline then .longBasic
  else .basic

/-- The four hexadecimal digits of a byte's code point. -/
def fourDigits (b : UInt8) : Text :=
  let digits := (Nat.toDigits 16 b.toNat).map Char.toUpper
  Text.ofString (String.ofList (List.replicate (4 - digits.length) '0' ++ digits))

/-- A byte of a string in double quotes that follows `quotes` double quotes; over several lines
line feeds and up to two double quotes stay as they are. -/
def escapeByte (long : Bool) (quotes : Nat) (b : UInt8) : Text :=
  if b = doubleQuote then
    if quotes < (if long then 2 else 0) then [b] else [backslash, doubleQuote]
  else if b = 0x08 then Text.ofString "\\b"
  else if b = 0x09 then Text.ofString "\\t"
  else if b = 0x0A then if long then [b] else Text.ofString "\\n"
  else if b = 0x0C then Text.ofString "\\f"
  else if b = 0x0D then Text.ofString "\\r"
  else if b = backslash then Text.ofString "\\\\"
  else if b < 0x20 || b = 0x7F then Text.ofString "\\u" ++ fourDigits b
  else [b]

/-- The bytes between double quotes; `quotes` counts the unescaped double quotes just written. -/
def escapeFrom (long : Bool) (quotes : Nat) : Text → Text
  | [] => []
  | b :: rest =>
    let written := escapeByte long quotes b
    written ++ escapeFrom long (if written = [doubleQuote] then quotes + 1 else 0) rest

/-- A string with its quotes. -/
def writeString (t : Text) : Text :=
  let lead : Text := if holdsNewline t then [0x0A] else []
  let double : Text := [doubleQuote]
  let doubles : Text := [doubleQuote, doubleQuote, doubleQuote]
  let singles : Text := [singleQuote, singleQuote, singleQuote]
  match Quoting.ofText t with
  | .basic => double ++ escapeFrom false 0 t ++ double
  | .literal => [singleQuote] ++ t ++ [singleQuote]
  | .longBasic => doubles ++ lead ++ escapeFrom true 0 t ++ doubles
  | .longLiteral => singles ++ lead ++ t ++ singles

def isBareKey (t : Text) : Bool :=
  !t.isEmpty && t.all fun b => isAlphanumeric b || b == underscore || b == hyphen

/-- A key, in quotes where it has to be. -/
def writeKey (t : Text) : Text :=
  if isBareKey t then t
  else
    let control := holdsControl t || holdsNewline t
    if !control && !holdsBackslash t && longestRun doubleQuote t = 0 then
      [doubleQuote] ++ escapeFrom false 0 t ++ [doubleQuote]
    else if !control && longestRun singleQuote t = 0 then [singleQuote] ++ t ++ [singleQuote]
    else [doubleQuote] ++ escapeFrom false 0 t ++ [doubleQuote]

/-! ## Lines -/

/-- The line `key = "value"`. -/
def writePair (key value : Text) : Text :=
  writeKey key ++ Text.ofString " = " ++ writeString value ++ [0x0A]

/-- The line `[key.key]`. -/
def writeHeader (path : List Text) : Text :=
  [leftBracket] ++ [dot].intercalate (path.map writeKey) ++ [rightBracket, 0x0A]

/-- A table of strings: a header, unless the path is empty, and a line for each key. -/
structure Section where
  path : List Text
  pairs : List (Text × Text)

namespace Section

def write (s : Section) : Text :=
  (if s.path.isEmpty then [] else writeHeader s.path) ++
    s.pairs.flatMap fun p => writePair p.1 p.2

/-- The sections with a blank line between them. -/
def writeAll (sections : List Section) : Text := ([0x0A] : Text).intercalate (sections.map write)

end Section

end Shortcode.Toml
