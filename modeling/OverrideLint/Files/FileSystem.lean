import OverrideLint.Files.Entry
import OverrideLint.Files.Path

/-! Reading and writing files of a directory tree by their paths. -/
namespace OverrideLint

inductive PathError
  | notFound
  | permissionDenied
  | notADirectory
  | isADirectory
  | nameTooLong
deriving DecidableEq, Repr

namespace PathError

def number : PathError → Nat
  | notFound => 2
  | permissionDenied => 13
  | notADirectory => 20
  | isADirectory => 21
  | nameTooLong => 36

def words : PathError → String
  | notFound => "No such file or directory"
  | permissionDenied => "Permission denied"
  | notADirectory => "Not a directory"
  | isADirectory => "Is a directory"
  | nameTooLong => "File name too long"

def message (error : PathError) (path : String) : String :=
  s!"[Errno {error.number}] {error.words}: {quotedString path}"

end PathError

/-- A directory tree, the directory in which a command runs, and the paths that may
not be opened. -/
structure FileSystem where
  root : Entry
  cwd : List String
  unreadable : List String := []
  unwritable : List String := []

namespace FileSystem

def byteLength (text : String) : Nat := (Utf8.encode text.toList).length

/-- Longest name of an entry, and longest path, in bytes. -/
def maxName : Nat := 255
def maxPath : Nat := 4095

/-- Follows the parts of a path from a place. Every part but the last one has to be a
directory. -/
def follow (root : Entry) (place : List String) : List String → Except PathError (List String)
  | [] => .ok place
  | part :: rest =>
    match root.get? place with
    | none => .error .notFound
    | some (.file ..) => .error .notADirectory
    | some (.directory name entries) =>
      if part = "" ∨ part = "." then follow root place rest
      else if part = ".." then follow root place.dropLast rest
      else if maxName < byteLength part then .error .nameTooLong
      else if ((Entry.directory name entries).child? part).isSome then
        follow root (place ++ [part]) rest
      else .error .notFound

/-- The place that a path leads to. -/
def locate (fs : FileSystem) (path : String) : Except PathError (List String) :=
  if path = "" then .error .notFound
  else if maxPath < byteLength path then .error .nameTooLong
  else follow fs.root (if Path.isAbsolute path then [] else fs.cwd) (Path.parts path)

def entry (fs : FileSystem) (path : String) : Except PathError Entry := do
  match fs.root.get? (← fs.locate path) with
  | some entry => .ok entry
  | none => .error .notFound

def isFile (fs : FileSystem) (path : String) : Bool :=
  match fs.entry path with
  | .ok entry => !entry.isDirectory
  | .error _ => false

def read (fs : FileSystem) (path : String) : Except PathError Bytes :=
  if fs.unreadable.contains path then .error .permissionDenied
  else do
    match ← fs.entry path with
    | .file _ content => .ok content
    | .directory .. => .error .isADirectory

/-- Overwrites a file. -/
def write (fs : FileSystem) (path : String) (content : Bytes) : Except PathError FileSystem :=
  if fs.unwritable.contains path then .error .permissionDenied
  else do
    match ← fs.entry path with
    | .file .. =>
      .ok { fs with root := fs.root.setContent content (← fs.locate path) }
    | .directory .. => .error .isADirectory

/-- A path without dots, starting at the root. -/
def absolute (fs : FileSystem) (path : String) : Path.Absolute :=
  Path.Absolute.ofPath fs.cwd path

/-- A path as seen from the working directory. -/
def relative (fs : FileSystem) (path : String) : String :=
  Path.relative fs.cwd (fs.absolute path).names

end FileSystem
end OverrideLint
