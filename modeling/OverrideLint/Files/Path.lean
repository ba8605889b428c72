import OverrideLint.Text.Lowercase

/-! Paths as text, without a look at any file. -/
namespace OverrideLint.Path

/-- The parts of a text between slashes, the empty ones included. -/
def split : Text → List Text
  | [] => [[]]
  | c :: rest =>
    if c = '/' then [] :: split rest
    else match split rest with
      | [] => [[c]]
      | part :: following => (c :: part) :: following

def parts (path : String) : List String := (split path.toList).map String.ofList

def isAbsolute (path : String) : Bool := path.toList.head? == some '/'

/-- No file can be opened by a path with a null character in it. -/
def hasNull (path : String) : Bool := path.toList.contains (Char.ofNat 0)

def nullMessage : String := "embedded null byte"

/-- Empty parts and dots are dropped; a double dot drops the part before it. -/
def simplify (parts : List String) : List String :=
  parts.foldl
    (fun done part =>
      if part = "" ∨ part = "." then done
      else if part = ".." then done.dropLast
      else done ++ [part]) []

def join (directory name : String) : String :=
  if directory = "" ∨ directory.toList.getLast? = some '/' then directory ++ name
  else directory ++ "/" ++ name

/-- A simplified absolute path. Two slashes at the start, and no more, are kept. -/
structure Absolute where
  doubleSlash : Bool
  names : List String
deriving DecidableEq, Repr

namespace Absolute

def render (path : Absolute) : String :=
  (if path.doubleSlash then "//" else "/") ++ "/".intercalate path.names

/-- A path as seen from a directory. -/
def ofPath (cwd : List String) (path : String) : Absolute :=
  if isAbsolute path then
    ⟨(path.toList.takeWhile (· == '/')).length == 2, simplify (parts path)⟩
  else ⟨false, simplify (cwd ++ parts path)⟩

/-- A path and the directories above it, the nearest first. -/
def ancestors (path : Absolute) : List Absolute :=
  (List.range (path.names.length + 1)).reverse.map fun count =>
    ⟨path.doubleSlash, path.names.take count⟩

end Absolute

def sharedLength : List String → List String → Nat
  | a :: as, b :: bs => if a = b then sharedLength as bs + 1 else 0
  | _, _ => 0

/-- The way from one directory to a place. -/
def relative (base target : List String) : String :=
  let shared := sharedLength base target
  let steps := List.replicate (base.length - shared) ".." ++ target.drop shared
  if steps.isEmpty then "." else "/".intercalate steps

/-- The last dot of a file name and what follows it; dots at the start of the name do
not count. -/
def suffixOf (path : Text) : Text :=
  let name := ((split path).getLast?.getD []).dropWhile (· == '.')
  if name.contains '.' then '.' :: (name.reverse.takeWhile (· != '.')).reverse else []

end OverrideLint.Path
