import Shortcode.Text.CharacterReference
import Shortcode.Toml.Value

/-!
# TOML scalars

Strings in their four notations, and the words that write booleans, numbers and times.  A reader of
strings starts after the opening quotes and gives back the text after the closing ones.  Line ends
in strings stay as they are written.
-/

namespace Shortcode.Toml

open Byte

/-! ## Bytes -/

def isWhitespace (b : UInt8) : Bool := b == 0x20 || b == 0x09

/-- Bytes that may stand in comments and strings as they are; a tab may. -/
def isPlain (b : UInt8) : Bool := b == 0x09 || (0x20 ≤ b && b != 0x7F)

/-! ## Strings -/

/-- The character whose code point is written with exactly `count` hexadecimal digits. -/
def codePoint? (count : Nat) (t : Text) : Option (Text × Text) :=
  if (t.take count).length = count then
    match CharacterReference.number? 16 (t.take count) with
    | some n =>
      if n.isValidChar then some (String.utf8EncodeChar (Char.ofNat n), t.drop count) else none
    | none => none
  else none

/-- Bytes that stand for another after a backslash. -/
def shortEscapes : List (UInt8 × UInt8) :=
  [(0x62, 0x08), (0x74, 0x09), (0x6E, 0x0A), (0x66, 0x0C), (0x72, 0x0D), (0x65, 0x1B),
    (doubleQuote, doubleQuote), (backslash, backslash)]

/-- Bytes that announce a code point after a backslash, and the number of its digits. -/
def codePointEscapes : List (UInt8 × Nat) := [(0x78, 2), (0x75, 4), (0x55, 8)]

/-- What the escape after a backslash stands for. -/
def escape? : Text → Option (Text × Text)
  | [] => none
  | b :: rest =>
    match shortEscapes.lookup b with
    | some c => some ([c], rest)
    | none => (codePointEscapes.lookup b).bind fun count => codePoint? count rest

theorem length_codePoint_le {count : Nat} {t rest s : Text}
    (h : codePoint? count t = some (s, rest)) : rest.length ≤ t.length := by
  unfold codePoint? at h
  split at h
  · split at h
    · split at h
      · cases h
        simp
      · cases h
    · cases h
  · cases h

theorem length_escape_le {t rest s : Text} (h : escape? t = some (s, rest)) :
    rest.length ≤ t.length := by
  cases t with
  | nil => cases h
  | cons b t =>
    rw [escape?] at h
    split at h
    · cases h
      exact Nat.le_succ _
    · obtain ⟨count, -, hc⟩ := Option.bind_eq_some_iff.1 h
      exact Nat.le_succ_of_le (length_codePoint_le hc)

/-- A string on one line, with escapes. -/
def basic? : Text → Option (Text × Text)
  | [] => none
  | b :: rest =>
    if b = doubleQuote then some ([], rest)
    else if b = backslash then
      match h : escape? rest with
      | none => none
      | some (s, after) =>
        have := length_escape_le h
        (basic? after).map fun (t, stop) => (s ++ t, stop)
    else if isPlain b then (basic? rest).map fun (t, stop) => (b :: t, stop)
    else none
termination_by t => t.length
decreasing_by
  all_goals
    simp only [List.length_cons]
    omega

/-- A string on one line, without escapes. -/
def literal? (t : Text) : Option (Text × Text) :=
  match t.dropWhile fun b => isPlain b && b != singleQuote with
  | [] => none
  | b :: rest =>
    if b = singleQuote then some (t.takeWhile fun b => isPlain b && b != singleQuote, rest)
    else none

/-- Whether a byte in front of a text belongs to a line end: a line feed, or a carriage return in
front of one. -/
def isLineEnd (b : UInt8) (rest : Text) : Bool :=
  b == 0x0A || (b == 0x0D && rest.head? == some 0x0A)

/-- The text after the line end in front of it. -/
def newline? : Text → Option Text
  | [] => none
  | b :: rest =>
    if b = 0x0A then some rest
    else if b = 0x0D && rest.head? == some 0x0A then some (rest.drop 1)
    else none

theorem length_newline_lt {t rest : Text} (h : newline? t = some rest) :
    rest.length < t.length := by
  cases t with
  | nil => cases h
  | cons b t =>
    simp only [newline?] at h
    split at h
    · cases h
      exact Nat.lt_succ_self _
    · split at h
      · cases h
        simp only [List.length_drop, List.length_cons]
        omega
      · cases h

/-- The text without the line end in front of it. -/
def skipNewline (t : Text) : Text := (newline? t).getD t

/-- Closes a string over several lines, which three quotes end; one or two more quotes in front of
them belong to the string. -/
def closing? (quote : UInt8) (t : Text) : Option (Text × Text) :=
  let run := (t.take 5).takeWhile (· == quote)
  if run.length < 3 then none else some (run.drop 3, t.drop run.length)

/-- A string over several lines, without escapes. -/
def longLiteral? (t : Text) : Option (Text × Text) :=
  match closing? singleQuote t with
  | some closed => some closed
  | none =>
    match t with
    | [] => none
    | b :: rest =>
      if isPlain b || isLineEnd b rest then
        (longLiteral? rest).map fun (s, stop) => (b :: s, stop)
      else none
termination_by t.length

/-- The text without the white space and line ends in front of it. -/
def skipLines : Text → Text
  | [] => []
  | b :: rest =>
    if isWhitespace b || isLineEnd b rest then skipLines rest else b :: rest

theorem length_skipLines_le (t : Text) : (skipLines t).length ≤ t.length := by
  fun_induction skipLines t with
  | case1 => exact Nat.le_refl _
  | case2 b rest _ ih => exact Nat.le_succ_of_le ih
  | case3 b rest => exact Nat.le_refl _

/-- A backslash at the end of a line joins it with the next text: white space and line ends after it
are skipped. -/
def joinedLine? (t : Text) : Option Text := (newline? (t.dropWhile isWhitespace)).map skipLines

theorem length_joinedLine_lt {t rest : Text} (h : joinedLine? t = some rest) :
    rest.length < t.length := by
  obtain ⟨after, ha, rfl⟩ := Option.map_eq_some_iff.1 h
  exact Nat.lt_of_le_of_lt (length_skipLines_le after)
    (Nat.lt_of_lt_of_le (length_newline_lt ha) (Text.length_dropWhile_le _ _))

/-- A string over several lines, with escapes. -/
def longBasic? (t : Text) : Option (Text × Text) :=
  match closing? doubleQuote t with
  | some closed => some closed
  | none =>
    match t with
    | [] => none
    | b :: rest =>
      if b = backslash then
        match hj : joinedLine? rest with
        | some after =>
          have := length_joinedLine_lt hj
          longBasic? after
        | none =>
          match he : escape? rest with
          | none => none
          | some (s, after) =>
            have := length_escape_le he
            (longBasic? after).map fun (more, stop) => (s ++ more, stop)
      else if isPlain b || isLineEnd b rest then
        (longBasic? rest).map fun (s, stop) => (b :: s, stop)
      else none
termination_by t.length
decreasing_by
  all_goals
    try simp only [List.length_cons]
    omega

/-- The string whose first quote is in front of the text, in any of the four notations. -/
def string? (t : Text) : Option (Text × Text) :=
  if [doubleQuote, doubleQuote, doubleQuote].isPrefixOf t then longBasic? (skipNewline (t.drop 3))
  else if [singleQuote, singleQuote, singleQuote].isPrefixOf t then
    longLiteral? (skipNewline (t.drop 3))
  else if [doubleQuote].isPrefixOf t then basic? (t.drop 1)
  else if [singleQuote].isPrefixOf t then literal? (t.drop 1)
  else none

/-! ## Numbers -/

/-- Whether every underscore stands between two digits; `afterDigit` says whether there is a digit
in front of the text. -/
def isGroupedAfter (isDigit : UInt8 → Bool) (afterDigit : Bool) : Text → Bool
  | [] => true
  | b :: rest =>
    if b = underscore then afterDigit && rest.head?.any isDigit && isGroupedAfter isDigit false rest
    else isGroupedAfter isDigit (isDigit b) rest

/-- Whether every underscore of a text stands between two digits. -/
def isGrouped (isDigit : UInt8 → Bool) (t : Text) : Bool := isGroupedAfter isDigit false t

/-- The text without underscores. -/
def ungrouped (t : Text) : Text := t.filter (· != underscore)

/-- Whether a text starts with a minus, and the text after an optional sign. -/
def signed (t : Text) : Bool × Text :=
  match t with
  | b :: rest => if b = 0x2B then (false, rest) else if b = hyphen then (true, rest) else (false, t)
  | [] => (false, [])

/-- The number that decimal digits write after an optional sign. -/
def signedNumber? (t : Text) : Option Int :=
  (CharacterReference.number? 10 (ungrouped (signed t).2)).map fun n =>
    if (signed t).1 then -(n : Int) else n

/-- Whether a byte is a digit in a base up to sixteen. -/
def isDigitOf (base : Nat) (b : UInt8) : Bool := (CharacterReference.digit? base b).isSome

/-- The whole number that digits in a base other than ten write.  They may be missing, and then
there is no number. -/
def radix? (base : Nat) (t : Text) : Option (Option Int) :=
  let digits := ungrouped t
  if digits.all (isDigitOf base) && isGrouped (isDigitOf 16) t then
    some ((CharacterReference.number? base digits).map Int.ofNat)
  else none

/-- Bytes that make a number one with a fraction or an exponent. -/
def isFloatByte (b : UInt8) : Bool := b == dot || b == 0x65 || b == 0x45

/-- Whether the text after an optional sign has the form of a whole number in base ten: digits, and
after an underscore anything that makes no other number of it.  No needless zero stands in front. -/
def isDecimal (t : Text) : Bool :=
  let tail := t.dropWhile isDigit
  (t.length = 1 || t.head? != some 0x30) &&
    if tail.isEmpty then !t.isEmpty
    else tail.head? == some underscore && !tail.any isFloatByte && isGrouped (isDigitOf 16) t

/-- The whole number that a word writes.  A word may have the form of one and write none: only its
form decides whether the word may stand there. -/
def integer? (t : Text) : Option (Option Int) :=
  if [0x30, 0x78].isPrefixOf t then radix? 16 (t.drop 2)
  else if [0x30, 0x6F].isPrefixOf t then radix? 8 (t.drop 2)
  else if [0x30, 0x62].isPrefixOf t then radix? 2 (t.drop 2)
  else if isDecimal (signed t).2 then some (signedNumber? t)
  else none

/-- The least number that rounds to infinity in double precision. -/
def infinityBound : Nat := Nat.pow 2 1024 - Nat.pow 2 970

/-- Whether `m * 10 ^ e` is finite in double precision. -/
def isFinite (m : Nat) (e : Int) : Bool :=
  let magnitude : Int := (toString m).length + e
  if m = 0 || magnitude < 300 then true
  else if 320 < magnitude then false
  else if 0 ≤ e then m * Nat.pow 10 e.toNat < infinityBound
  else m < infinityBound * Nat.pow 10 (-e).toNat

/-- The number with a fraction, an exponent or both that a word writes: whether it is finite. -/
def float? (t : Text) : Option Bool :=
  let word := (signed t).2
  if word == Text.ofString "inf" || word == Text.ofString "nan" then some true
  else if !word.any isFloatByte || !isGrouped isDigit word then none
  else do
    let isMark := fun b => isFloatByte b && b != dot
    let mantissa := word.takeWhile (!isMark ·)
    let marked := word.dropWhile (!isMark ·)
    let whole := mantissa.takeWhile (· != dot)
    let pointed := mantissa.dropWhile (· != dot)
    let fraction := ungrouped (pointed.drop 1)
    if (ungrouped whole).isEmpty then none
    if whole.head? == some 0x30 && (ungrouped whole).length != 1 then none
    if !pointed.isEmpty && fraction.isEmpty then none
    let m ← CharacterReference.number? 10 (ungrouped whole ++ fraction)
    let e ← if marked.isEmpty then some 0 else signedNumber? (marked.drop 1)
    return isFinite m (e - fraction.length)

/-! ## Times -/

/-- The number of exactly `count` digits, and the text after them. -/
def fixed? (count : Nat) (t : Text) : Option (Nat × Text) :=
  if (t.take count).length = count then
    (CharacterReference.number? 10 (t.take count)).map fun n => (n, t.drop count)
  else none

/-- The text after a byte that has to come. -/
def expect? (b : UInt8) : Text → Option Text
  | [] => none
  | c :: rest => if c = b then some rest else none

def daysInMonth (year month : Nat) : Nat :=
  if month = 2 then
    if year % 4 = 0 && (year % 100 != 0 || year % 400 = 0) then 29 else 28
  else if month = 4 || month = 6 || month = 9 || month = 11 then 30
  else 31

/-- The text after a date. -/
def date? (t : Text) : Option Text := do
  let (year, t) ← fixed? 4 t
  let (month, t) ← fixed? 2 (← expect? hyphen t)
  let (day, t) ← fixed? 2 (← expect? hyphen t)
  if 1 ≤ month && month ≤ 12 && 1 ≤ day && day ≤ daysInMonth year month then some t else none

/-- The text after a fraction of a second. -/
def fraction? (t : Text) : Option Text :=
  match t with
  | b :: rest =>
    if b = dot then
      if rest.head?.any isDigit then some (rest.dropWhile isDigit) else none
    else some t
  | [] => some t

/-- The text after a time of day.  The seconds may be left out. -/
def time? (t : Text) : Option Text := do
  let (hour, t) ← fixed? 2 t
  let (minute, t) ← fixed? 2 (← expect? 0x3A t)
  if 23 < hour || 59 < minute then none
  else
    match expect? 0x3A t with
    | none => some t
    | some t => do
      let (second, t) ← fixed? 2 t
      if 60 < second then none else fraction? t

/-- Whether a text is an offset from universal time. -/
def isOffset (t : Text) : Bool :=
  match t with
  | [b] => Byte.lower b == 0x7A
  | b :: rest =>
    (b == 0x2B || b == hyphen) &&
      match fixed? 2 rest with
      | none => false
      | some (hour, rest) =>
        match (expect? 0x3A rest).bind (fixed? 2) with
        | some (minute, []) => hour ≤ 23 && minute ≤ 59
        | _ => false
  | [] => false

/-- Whether a word is a date, a time of day, or both with or without an offset. -/
def isDateTime (t : Text) : Bool :=
  match date? t with
  | none => time? t == some []
  | some [] => true
  | some (b :: rest) =>
    (Byte.lower b == 0x74 || b == 0x20) &&
      match time? rest with
      | none => false
      | some after => after.isEmpty || isOffset after

/-! ## Words -/

/-- Bytes that end a word: white space, line ends and what has a meaning between values. -/
def wordEnds : List UInt8 :=
  [0x20, 0x09, 0x0A, 0x0D, equals, comma, hash, leftBracket, rightBracket, leftBrace, rightBrace]

/-- Bytes of the words that write booleans, numbers and times. -/
def isWordByte (b : UInt8) : Bool := !wordEnds.contains b

/-- The word in front of a text; a date and a time of day are one word with the space between. -/
def takeWord (t : Text) : Text × Text :=
  let word := t.takeWhile isWordByte
  let after := t.dropWhile isWordByte
  match after with
  | space :: rest =>
    if date? word == some [] && space = 0x20 && rest.head?.any isDigit then
      (word ++ space :: rest.takeWhile isWordByte, rest.dropWhile isWordByte)
    else (word, after)
  | [] => (word, after)

/-- The value that a word writes. -/
def word? (t : Text) : Option Value :=
  if t == Text.ofString "true" then some (.boolean true)
  else if t == Text.ofString "false" then some (.boolean false)
  else if isDateTime t then some .dateTime
  else
    match integer? t with
    | some n => some (.integer n)
    | none => (float? t).map .float

end Shortcode.Toml
