import Shortcode.Text.Basic

/-!
# Arguments of a tag

An `Arguments` value is an insertion-ordered map: a key keeps the place of its first insertion and
the value of its last one.
-/

namespace Shortcode

/-- Key and value pairs in the order in which their keys first came. -/
structure Arguments where
  entries : List (Text × Text)
  deriving DecidableEq

namespace Arguments

def empty : Arguments := ⟨[]⟩

instance : Inhabited Arguments := ⟨empty⟩

/-- Replaces the value of `key` where the key stands, or adds the pair at the end. -/
def put (key value : Text) : List (Text × Text) → List (Text × Text)
  | [] => [(key, value)]
  | (k, v) :: rest => if k = key then (k, value) :: rest else (k, v) :: put key value rest

def insert (args : Arguments) (key value : Text) : Arguments := ⟨put key value args.entries⟩

/-- The value that `put` replaces, and what it makes of the entries. -/
def getThenPut? (key value : Text) : List (Text × Text) → Option Text × List (Text × Text)
  | [] => (none, [(key, value)])
  | (k, v) :: rest =>
    if k = key then (some v, (k, value) :: rest)
    else
      let (found, rest) := getThenPut? key value rest
      (found, (k, v) :: rest)

/-- Inserts and gives the value that the key had before. -/
def getThenInsert? (args : Arguments) (key value : Text) : Option Text × Arguments :=
  let (found, entries) := getThenPut? key value args.entries
  (found, ⟨entries⟩)

def get? (args : Arguments) (key : Text) : Option Text := args.entries.lookup key

def contains (args : Arguments) (key : Text) : Bool := (args.get? key).isSome

def size (args : Arguments) : Nat := args.entries.length

def isEmpty (args : Arguments) : Bool := args.entries.isEmpty

def keys (args : Arguments) : List Text := args.entries.map (·.1)

/-- Inserts the pairs from left to right. -/
def ofList (pairs : List (Text × Text)) : Arguments :=
  pairs.foldl (fun args p => args.insert p.1 p.2) empty

end Arguments

end Shortcode
