import Shortcode.Toml.Scalar

/-!
# Reading TOML

A document is lines: blank ones, comments, headers in single or double brackets, and keys with
values.  `document?` gives the table that the lines fill, or nothing if one of them is malformed or
adds to a table that is complete.  Arrays and inline tables may lie `nesting` deep in each other,
and a key may have as many parts.
-/

namespace Shortcode.Toml

open Byte

/-- How deep arrays and inline tables may lie in each other, and how many parts a key may have. -/
def nesting : Nat := 80

/-! ## Blank parts -/

/-- The text after white space, line ends and comments. -/
def skipBlank? (inComment : Bool) : Text → Option Text
  | [] => some []
  | b :: rest =>
    if isLineEnd b rest then skipBlank? false rest
    else if inComment then if isPlain b then skipBlank? true rest else none
    else if isWhitespace b then skipBlank? false rest
    else if b = hash then skipBlank? true rest
    else some (b :: rest)

/-- The text after the rest of a line that may hold a comment and nothing else. -/
def endLine? (t : Text) : Option Text :=
  let t := t.dropWhile isWhitespace
  let t := if t.head? = some hash then t.dropWhile isPlain else t
  if t.isEmpty then some [] else newline? t

/-! ## Keys -/

def isBareKeyByte (b : UInt8) : Bool := isAlphanumeric b || b == underscore || b == hyphen

/-- One part of a key: bare, or a string on one line. -/
def keyPart? (t : Text) : Option (Text × Text) :=
  if [doubleQuote].isPrefixOf t then basic? (t.drop 1)
  else if [singleQuote].isPrefixOf t then literal? (t.drop 1)
  else
    let bare := t.takeWhile isBareKeyByte
    if bare.isEmpty then none else some (bare, t.dropWhile isBareKeyByte)

/-- A key with dots between its parts; `fuel` bounds their number. -/
def keyParts? : Nat → Text → Option (List Text × Text)
  | 0, _ => none
  | fuel + 1, t => do
    let (part, t) ← keyPart? (t.dropWhile isWhitespace)
    let t := t.dropWhile isWhitespace
    match t with
    | b :: rest =>
      if b = dot then
        let (more, t) ← keyParts? fuel rest
        return (part :: more, t)
      else return ([part], t)
    | [] => return ([part], t)

def key? (t : Text) : Option (List Text × Text) := keyParts? nesting t

/-- A key, an equals sign and a value on one line. -/
def pair? (value : Text → Option (Value × Text)) (t : Text) :
    Option ((List Text × Value) × Text) := do
  let (key, t) ← key? t
  let (v, t) ← value ((← expect? equals t).dropWhile isWhitespace)
  return ((key, v), t)

/-- A key, an equals sign and a value in an inline table: line ends and comments may stand around
the equals sign. -/
def inlinePair? (value : Text → Option (Value × Text)) (t : Text) :
    Option ((List Text × Value) × Text) := do
  let (key, t) ← key? t
  let (v, t) ← value (← skipBlank? false (← expect? equals (← skipBlank? false t)))
  return ((key, v), t)

/-! ## Values -/

/-- Items with commas between them, up to the byte that ends the list; a comma may come last.
`fuel` bounds their number. -/
def items? {α : Type} (item : Text → Option (α × Text)) (close : UInt8) :
    Nat → Text → Option (List α × Text)
  | 0, _ => none
  | fuel + 1, t => do
    let t ← skipBlank? false t
    match expect? close t with
    | some after => return ([], after)
    | none =>
      let (x, t) ← item t
      let t ← skipBlank? false t
      match expect? close t with
      | some after => return ([x], after)
      | none =>
        let (more, t) ← items? item close fuel (← expect? comma t)
        return (x :: more, t)

/-- A value in which arrays and inline tables lie at most so deep. -/
def value? : Nat → Text → Option (Value × Text)
  | depth, t =>
    match t with
    | [] => none
    | b :: rest =>
      if isQuote b then (string? t).map fun (s, after) => (.string s, after)
      else if b = leftBracket then
        match depth with
        | 0 => none
        | depth + 1 =>
          (items? (value? depth) rightBracket (rest.length + 1) rest).map fun (vs, after) =>
            (.array false vs, after)
      else if b = leftBrace then
        match depth with
        | 0 => none
        | depth + 1 => do
          let pair := inlinePair? (value? depth)
          let (pairs, after) ← items? pair rightBrace (rest.length + 1) rest
          let table ← pairs.foldlM (fun v p => v.putAt p.1 p.2) (.table .inline [])
          return (table, after)
      else
        let (word, after) := takeWord t
        (word? word).map fun v => (v, after)

/-! ## Documents -/

/-- A document read so far: its table and the path of the last header. -/
structure Progress where
  table : Value
  path : List Text

/-- The key of a header, up to the brackets that close it. -/
def headerKey? (close : Text) (t : Text) : Option (List Text × Text) := do
  let (key, t) ← key? t
  if close.isPrefixOf t then some (key, t.drop close.length) else none

/-- Reads a line that starts with something other than white space. -/
def statement? (p : Progress) (t : Text) : Option (Progress × Text) := do
  if [leftBracket, leftBracket].isPrefixOf t then
    let (path, t) ← headerKey? [rightBracket, rightBracket] (t.drop 2)
    let last ← path.getLast?
    let table ← p.table.changeAt .implicit (Value.openItem last) path.dropLast
    return (⟨table, path⟩, t)
  else if [leftBracket].isPrefixOf t then
    let (path, t) ← headerKey? [rightBracket] (t.drop 1)
    let last ← path.getLast?
    let table ← p.table.changeAt .implicit (Value.openTable last) path.dropLast
    return (⟨table, path⟩, t)
  else
    let ((key, v), t) ← pair? (value? nesting) t
    let table ← p.table.changeAt .implicit (·.putAt key v) p.path
    return (⟨table, p.path⟩, t)

/-- Reads statements, each on a line of its own; `fuel` bounds their number. -/
def statements? : Nat → Progress → Text → Option Value
  | 0, _, _ => none
  | fuel + 1, p, t => do
    let t ← skipBlank? false t
    if t.isEmpty then return p.table
    let (p, t) ← statement? p t
    statements? fuel p (← endLine? t)

/-- The mark that may stand in front of a document. -/
def byteOrderMark : Text := [0xEF, 0xBB, 0xBF]

/-- The table that a document writes. -/
def document? (t : Text) : Option Value :=
  let t := if byteOrderMark.isPrefixOf t then t.drop 3 else t
  statements? (t.length + 1) ⟨.root, []⟩ t

end Shortcode.Toml
