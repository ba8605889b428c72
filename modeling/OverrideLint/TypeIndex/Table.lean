import OverrideLint.Heritage

/-! Declarations of types, one for each name and origin, in the order of their first
mention. A name is looked up as a whole and then by its last dotted segment; of
several declarations the one from the asking file is preferred, then the first. -/
namespace OverrideLint

structure Declaration where
  name : WideString
  origin : String
  members : List WideString
  bases : List WideString
deriving DecidableEq, Repr

/-- Adds names at the end, each only once. -/
def addNames (known added : List WideString) : List WideString :=
  added.foldl (fun names name => if names.contains name then names else names ++ [name]) known

namespace Declaration

def key (declaration : Declaration) : WideString × String :=
  (declaration.name, declaration.origin)

def extend (declaration : Declaration) (members bases : List WideString) : Declaration where
  name := declaration.name
  origin := declaration.origin
  members := addNames declaration.members members
  bases := addNames declaration.bases bases

end Declaration

abbrev DeclarationTable := List Declaration

/-- The part of a dotted name after its last dot. -/
def lastSegment? (name : WideString) : Option WideString :=
  if name.points.contains (.char '.') then
    some ⟨(name.points.reverse.takeWhile (· != .char '.')).reverse⟩
  else none

namespace DeclarationTable

/-- Declarations of one name and origin merge; others stay apart. -/
def declare (table : DeclarationTable) (name : WideString) (origin : String)
    (members bases : List WideString) : DeclarationTable :=
  if table.any (·.key == (name, origin)) then
    table.map fun entry => if entry.key == (name, origin) then entry.extend members bases else entry
  else table ++ [Declaration.extend ⟨name, origin, [], []⟩ members bases]

def named (table : DeclarationTable) (name : WideString) : List Declaration :=
  table.filter (·.name == name)

/-- The declarations that a name can stand for. -/
def candidates (table : DeclarationTable) (name : WideString) : List Declaration :=
  if (table.named name).isEmpty then
    match lastSegment? name with
    | some segment => table.named segment
    | none => []
  else table.named name

def lookup? (table : DeclarationTable) (name : WideString) (origin : String) :
    Option Declaration :=
  ((table.candidates name).find? (·.origin == origin)).or (table.candidates name).head?

/-- The log of a lookup that had to choose among several files. -/
def lookupLog (table : DeclarationTable) (name : WideString) (origin : String) :
    List LogEntry :=
  match table.candidates name with
  | first :: second :: others =>
    if (first :: second :: others).any (·.origin == origin) then []
    else
      let count := others.length + 2
      [⟨.debug, .index,
        "'" ++ name ++ s!"' is declared in {count} files; using {first.origin}"⟩]
  | _ => []

private theorem mem_of_mem_named {table : DeclarationTable} {name : WideString}
    {entry : Declaration} (h : entry ∈ table.named name) : entry ∈ table :=
  (List.mem_filter.1 h).1

private theorem mem_of_mem_candidates {table : DeclarationTable} {name : WideString}
    {entry : Declaration} (h : entry ∈ table.candidates name) : entry ∈ table := by
  unfold candidates at h
  split at h
  · split at h
    · exact mem_of_mem_named h
    · cases h
  · exact mem_of_mem_named h

theorem mem_of_lookup? {table : DeclarationTable} {name : WideString} {origin : String}
    {entry : Declaration} (h : table.lookup? name origin = some entry) : entry ∈ table := by
  rcases Option.or_eq_some_iff.1 h with found | ⟨_, first⟩
  · exact mem_of_mem_candidates (List.mem_of_find?_eq_some found)
  · exact mem_of_mem_candidates (List.mem_of_head? first)

end DeclarationTable
end OverrideLint
