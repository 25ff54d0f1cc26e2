import Shortcode.Text.Basic

/-!
# Files

Why a file cannot be read, when two paths name the same place, and directory trees in which files
are looked up by path.
-/

namespace Shortcode

open Byte

/-! ## Errors -/

/-- Why the text of a file could not be read. -/
inductive FileError where
  | notFound
  | notDirectory
  | isDirectory
  | nameTooLong
  /-- The bytes are not valid UTF-8. -/
  | notText
  /-- The path holds a null character. -/
  | nullInPath
  | other (message : Text)
  deriving DecidableEq

namespace FileError

def message : FileError → Text
  | .notFound => Text.ofString "No such file or directory (os error 2)"
  | .notDirectory => Text.ofString "Not a directory (os error 20)"
  | .isDirectory => Text.ofString "Is a directory (os error 21)"
  | .nameTooLong => Text.ofString "File name too long (os error 36)"
  | .notText => Text.ofString "stream did not contain valid UTF-8"
  | .nullInPath => Text.ofString "file name contained an unexpected NUL byte"
  | .other message => message

/-- Whether the error means that there is nothing at the path. -/
def meansMissing : FileError → Bool
  | .notFound => true
  | .notDirectory => true
  | .nameTooLong => true
  | .nullInPath => true
  | _ => false

end FileError

/-- The bytes of the file at a path. -/
abbrev FileReader := Text → Except FileError Text

/-- The bytes, if they are valid UTF-8. -/
def checkText (bytes : Text) : Except FileError Text :=
  if (Text.toString? bytes).isSome then .ok bytes else .error .notText

/-- The text of the file at a path. -/
def FileReader.text (read : FileReader) (path : Text) : Except FileError Text := do
  checkText (← read path)

/-! ## Paths -/

namespace Path

/-- The parts of a path between its slashes. -/
def parts : Text → List Text
  | [] => [[]]
  | b :: rest =>
    if b = slash then [] :: parts rest
    else
      match parts rest with
      | [] => [[b]]
      | first :: more => (b :: first) :: more

/-- The steps of a path: empty parts do not count, nor do dots, except one that starts the path. -/
def steps (path : Text) : List Text :=
  match parts path with
  | [] => []
  | first :: more =>
    (if first.isEmpty then [] else [first]) ++ more.filter fun p => !p.isEmpty && p != [dot]

def isAbsolute (path : Text) : Bool := path.head? == some slash

/-- Whether two paths take the same steps from the same place. -/
def sameAs (a b : Text) : Bool := isAbsolute a == isAbsolute b && steps a == steps b

end Path

/-! ## Directory trees -/

/-- The files of a tree by their steps from the root.  A directory is there if a file lies in it or
if it is listed. -/
structure FileTree where
  files : List (List Text × Text)
  directories : List (List Text)

namespace FileTree

def isDirectory (tree : FileTree) (place : List Text) : Bool :=
  place.isEmpty || tree.directories.any (place.isPrefixOf ·) ||
    tree.files.any fun f => place.isPrefixOf f.1 && place != f.1

/-- How many bytes the name of a file or directory can have. -/
def longestName : Nat := 255

/-- How many bytes a path can have. -/
def longestPath : Nat := 4095

/-- The place that parts of a path lead to. -/
def walk (tree : FileTree) : List Text → List Text → Except FileError (List Text)
  | place, [] => .ok place
  | place, part :: rest =>
    if !tree.isDirectory place then
      .error (if (tree.files.lookup place).isSome then .notDirectory else .notFound)
    else if part.isEmpty || part == [dot] then tree.walk place rest
    else if part == [dot, dot] then tree.walk place.dropLast rest
    else if longestName < part.length then .error .nameTooLong
    else tree.walk (place ++ [part]) rest

/-- The bytes of the file that a path leads to from a directory. -/
def read (tree : FileTree) (directory : List Text) : FileReader := fun path =>
  if path.isEmpty then .error .notFound
  else if path.contains 0 then .error .nullInPath
  else if longestPath < path.length then .error .nameTooLong
  else do
    let place ← tree.walk (if Path.isAbsolute path then [] else directory) (Path.parts path)
    match tree.files.lookup place with
    | some bytes => .ok bytes
    | none => .error (if tree.isDirectory place then .isDirectory else .notFound)

end FileTree

end Shortcode
