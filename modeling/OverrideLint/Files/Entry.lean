import OverrideLint.Text.Utf8

/-! Directory trees. -/
namespace OverrideLint

inductive Entry
  | file (name : String) (content : Bytes)
  | directory (name : String) (entries : List Entry)

namespace Entry

def name : Entry → String
  | file name _ => name
  | directory name _ => name

def isDirectory : Entry → Bool
  | directory .. => true
  | file .. => false

def entries : Entry → List Entry
  | directory _ entries => entries
  | file .. => []

/-- An entry of a directory by its name. -/
def child? (entry : Entry) (name : String) : Option Entry :=
  entry.entries.find? (·.name == name)

/-- The entry that a sequence of names leads to. -/
def get? (entry : Entry) : List String → Option Entry
  | [] => some entry
  | name :: rest => (entry.child? name).bind (get? · rest)

/-- Replaces the content of the file at a sequence of names, if there is one. -/
def setContent (content : Bytes) : List String → Entry → Entry
  | [], file name _ => file name content
  | [], directory name entries => directory name entries
  | _ :: _, file name old => file name old
  | name :: rest, directory own entries =>
    directory own (entries.map fun entry =>
      if entry.name = name then setContent content rest entry else entry)

/-- Puts an entry into a directory, in place of one with its name. -/
def put (added : Entry) : Entry → Entry
  | file name content => file name content
  | directory own entries =>
    directory own (entries.filter (·.name != added.name) ++ [added])

/-- Puts an entry below a directory, and creates the directories on the way. -/
def insert (added : Entry) : List String → Entry → Entry
  | [], entry => put added entry
  | name :: rest, entry =>
    put (insert added rest ((entry.child? name).getD (directory name []))) entry

/-- Creates the directories of a sequence of names where they are missing. -/
def ensure : List String → Entry → Entry
  | [], entry => entry
  | name :: rest, entry =>
    put (ensure rest ((entry.child? name).getD (directory name []))) entry

end Entry
end OverrideLint
