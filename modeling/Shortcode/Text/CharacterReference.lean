import Shortcode.Text.Basic
import Shortcode.Text.NamedCharacter

/-!
# Character references

A reference is an `&`, a body and a `;`.  The body is `#` and decimal digits, `#x` and hexadecimal
digits, or a name.  Anything else stays as it is written, and so do references to no character and
to control characters below the space other than white space.  What a reference stands for is not
read again.
-/

namespace Shortcode

open Byte

namespace CharacterReference

/-! ## Algorithm -/

/-- The value of a digit in a base up to sixteen. -/
def digit? (base : Nat) (b : UInt8) : Option Nat :=
  let value :=
    if isDigit b then b.toNat - 0x30
    else if isLetter b then (Byte.lower b).toNat - 0x61 + 10
    else base
  if value < base then some value else none

/-- The number that a non-empty run of digits writes. -/
def number? (base : Nat) (digits : Text) : Option Nat :=
  if digits.isEmpty then none
  else digits.foldlM (fun n b => (digit? base b).map (n * base + ·)) 0

/-- The character with this code point, if there is one that a reference may stand for: below the
space these are the tab, the line feed, the form feed and the carriage return. -/
def character? (n : Nat) : Option Char :=
  if n.isValidChar ∧ (0x20 ≤ n ∨ n ∈ [0x09, 0x0A, 0x0C, 0x0D]) then some (Char.ofNat n) else none

/-- The character that the body of a reference stands for. -/
def ofBody? (body : Text) : Option Char :=
  match body with
  | first :: second :: digits =>
    if first = hash then
      if Byte.lower second = 0x78 then (number? 16 digits).bind character?
      else (number? 10 (second :: digits)).bind character?
    else named? body
  | _ => named? body
where
  /-- The character with this name. -/
  named? (name : Text) : Option Char :=
    if name.all isAlphanumeric then
      (Text.toString? name).bind fun s => (namedCharacter? s).map Char.ofNat
    else none

/-- The text with every reference replaced by its character. -/
def decode : Text → Text
  | [] => []
  | b :: rest =>
    if b = ampersand then
      match rest.dropWhile (· != semicolon), ofBody? (rest.takeWhile (· != semicolon)) with
      | _ :: _, some c =>
        String.utf8EncodeChar c ++ decode ((rest.dropWhile (· != semicolon)).drop 1)
      | _, _ => b :: decode rest
    else b :: decode rest
termination_by text => text.length
decreasing_by
  all_goals
    have := Text.length_dropWhile_le (· != semicolon) rest
    simp only [List.length_drop, List.length_cons]
    omega

end CharacterReference

end Shortcode
