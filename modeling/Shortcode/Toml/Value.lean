import Shortcode.Text.Basic

/-!
# TOML values

A document is a table that its lines fill step by step.  Each table knows how it came about, because
that decides what may still be added to it:

* a table opened by a header takes keys from the lines under the header and no other header;
* an implicit one, on the way to a header, may still get a header of its own;
* a dotted one, on the way of a dotted key, takes dotted keys only;
* an inline one is complete.
-/

namespace Shortcode.Toml

/-- How a table came about. -/
inductive TableKind where
  | header
  | implicit
  | dotted
  | inline
  deriving DecidableEq

/-- A value.  Of numbers and times only as much is kept as tells whether they can be read. -/
inductive Value where
  | string (text : Text)
  /-- A whole number, or none where a word has the form of one and writes none. -/
  | integer (n : Option Int)
  /-- A number with a fraction or an exponent, and whether it is finite in double precision or
  written as infinite or not a number. -/
  | float (inRange : Bool)
  | boolean (b : Bool)
  | dateTime
  /-- The items; `ofTables` if each was opened by a header in double brackets. -/
  | array (ofTables : Bool) (items : List Value)
  | table (kind : TableKind) (entries : List (Text × Value))

namespace Value

mutual

/-- Whether every number in a value can be read at all: whole ones in 128 bits, with or without a
sign, and others that are finite. -/
def isReadable : Value → Bool
  | .integer n => n.any fun n => -(2 ^ 127) ≤ n && n < 2 ^ 128
  | .float inRange => inRange
  | .array _ items => areReadable items
  | .table _ entries => entriesReadable entries
  | _ => true

def areReadable : List Value → Bool
  | [] => true
  | v :: rest => v.isReadable && areReadable rest

def entriesReadable : List (Text × Value) → Bool
  | [] => true
  | (_, v) :: rest => v.isReadable && entriesReadable rest

end

/-- The table of a document before its first line. -/
def root : Value := .table .header []

/-- Puts a value in place of the one at `key`. -/
def replace (key : Text) (value : Value) (entries : List (Text × Value)) : List (Text × Value) :=
  entries.map fun e => if e.1 = key then (key, value) else e

/-- Whether a value lets tables on the way of a path of this kind lead through it. -/
def leadsOn (kind : TableKind) : Value → Bool
  | .table .inline _ => false
  | .table .header _ => kind != .dotted
  | .table _ _ => true
  | _ => false

/-- Changes the table at the end of `path`; missing tables on the way are made with this kind.  A
path leads through the last table of an array of tables. -/
def changeAt (kind : TableKind) (change : Value → Option Value) : List Text → Value → Option Value
  | [], v => change v
  | key :: path, .table own entries =>
    match entries.lookup key with
    | none => do
      let child ← changeAt kind change path (.table kind [])
      return .table own (entries ++ [(key, child)])
    | some (.array true items) => do
      let last ← items.getLast?
      let child ← changeAt kind change path last
      return .table own (replace key (.array true (items.dropLast ++ [child])) entries)
    | some v =>
      if v.leadsOn kind then do
        let child ← changeAt kind change path v
        return .table own (replace key child entries)
      else none
  | _ :: _, _ => none

/-- Adds a new key to a table; one reached over dots must have been made for dotted keys. -/
def putNew (overDots : Bool) (key : Text) (value : Value) : Value → Option Value
  | .table kind entries =>
    if (kind == .dotted) != overDots || (entries.lookup key).isSome then none
    else some (.table kind (entries ++ [(key, value)]))
  | _ => none

/-- Adds a value at a dotted key of a table. -/
def putAt (table : Value) (keys : List Text) (value : Value) : Option Value := do
  let key ← keys.getLast?
  changeAt .dotted (putNew (keys.length != 1) key value) keys.dropLast table

/-- Opens a table for a header; an implicit one becomes explicit. -/
def openTable (key : Text) : Value → Option Value
  | .table kind entries =>
    match entries.lookup key with
    | none => some (.table kind (entries ++ [(key, .table .header [])]))
    | some (.table .implicit es) => some (.table kind (replace key (.table .header es) entries))
    | some _ => none
  | _ => none

/-- Opens the next table of an array of tables. -/
def openItem (key : Text) : Value → Option Value
  | .table kind entries =>
    match entries.lookup key with
    | none => some (.table kind (entries ++ [(key, .array true [.table .header []])]))
    | some (.array true items) =>
      some (.table kind (replace key (.array true (items ++ [.table .header []])) entries))
    | some _ => none
  | _ => none

end Value

end Shortcode.Toml
