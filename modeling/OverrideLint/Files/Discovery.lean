import OverrideLint.Settings
import OverrideLint.Text.Wildcard

/-! The source files below given paths. A directory's own files come first, in the
order of their names, then its subdirectories in that order. -/
namespace OverrideLint

namespace Entry

/-- Directories that are never entered from above. -/
def isSkipped (name : String) : Bool :=
  name == "node_modules" || name == ".git"

def ownFiles (entries : List Entry) : List String :=
  ((entries.filter (!·.isDirectory)).map (·.name)).mergeSort

mutual

/-- The paths of all files below a directory at a given path. -/
def filePaths (path : String) : Entry → List String
  | file .. => []
  | directory _ entries =>
    (ownFiles entries).map (Path.join path) ++
      ((branches path entries).mergeSort fun a b => a.1 ≤ b.1).flatMap (·.2)

/-- The paths below each subdirectory, by its name. -/
def branches (path : String) : List Entry → List (String × List String)
  | [] => []
  | entry :: rest =>
    if entry.isDirectory && !isSkipped entry.name then
      (entry.name, entry.filePaths (Path.join path entry.name)) :: branches path rest
    else branches path rest

end

end Entry

namespace Settings

/-- Exclusion patterns are tried on the relative path and on the path as given. -/
def excludes (settings : Settings) (fs : FileSystem) (path : String) : Bool :=
  settings.exclude.any fun pattern =>
    Wildcard.matchesWide pattern (fs.relative path) || Wildcard.matchesWide pattern path

def hasExtension (settings : Settings) (path : String) : Bool :=
  let name := Text.lower ((Path.split path.toList).getLast?.getD [])
  (settings.extensions.filterMap (·.toText?)).any fun extension =>
    (Text.lower extension).isSuffixOf name

/-- The source files that one path stands for. A file that is given counts whatever
its extension. -/
def sourcesAt? (settings : Settings) (fs : FileSystem) (path : String) : Option (List String) :=
  match fs.entry path with
  | .error _ => none
  | .ok (.file ..) => some ([path].filter (!settings.excludes fs ·))
  | .ok (.directory name entries) =>
    some (((Entry.directory name entries).filePaths path).filter fun file =>
      settings.hasExtension file && !settings.excludes fs file)

/-- The source files of several paths, up to the first path that does not exist. -/
def sources (settings : Settings) (fs : FileSystem) : List String → List String × Option String
  | [] => ([], none)
  | path :: rest =>
    match settings.sourcesAt? fs path with
    | none => ([], some path)
    | some found =>
      let more := sources settings fs rest
      (found ++ more.1, more.2)

end Settings
end OverrideLint
