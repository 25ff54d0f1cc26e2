import Shortcode.Text.Characters

/-!
# Quoted texts

How a text or character is shown in a message: between quotes, with a backslash in front of the
quote and of a backslash, with the short forms of the null character, tab, line feed and carriage
return, and with the code point of any other character that would not show.
-/

namespace Shortcode

namespace Text

/-- The digits of a code point in lower-case hexadecimal. -/
def hexDigits (n : Nat) : String := String.ofList (Nat.toDigits 16 n)

/-- A character as it is written between quotes of the given kind. -/
def escape (quote c : Char) : String :=
  if c = '\x00' then "\\0"
  else if c = '\t' then "\\t"
  else if c = '\n' then "\\n"
  else if c = '\r' then "\\r"
  else if c = '\\' then "\\\\"
  else if c = quote then String.ofList ['\\', c]
  else if CharacterClass.isUnprintable c then "\\u\x7b" ++ hexDigits c.toNat ++ "\x7d"
  else String.ofList [c]

/-- The text between double quotes. -/
def quoted (t : Text) : Text :=
  [Byte.doubleQuote] ++ t.characters.flatMap (fun c => ofString (escape '"' c)) ++
    [Byte.doubleQuote]

/-- A character between single quotes. -/
def quotedCharacter (c : Char) : Text :=
  [Byte.singleQuote] ++ ofString (escape '\'' c) ++ [Byte.singleQuote]

end Text

end Shortcode
