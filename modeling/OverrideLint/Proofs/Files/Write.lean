import OverrideLint.Files.FileSystem

/-! Writing a file. What was written is found again under the same path, since a new
content leaves every name and every directory in place. -/
namespace OverrideLint

namespace Entry

variable {content : Bytes}

private theorem name_setContent (content : Bytes) (place : List String) (entry : Entry) :
    (setContent content place entry).name = entry.name := by
  cases place <;> cases entry <;> rfl

private theorem isDirectory_setContent (content : Bytes) (place : List String) (entry : Entry) :
    (setContent content place entry).isDirectory = entry.isDirectory := by
  cases place <;> cases entry <;> rfl

private theorem child?_setContent (name wanted : String) (rest : List String) (entry : Entry) :
    (setContent content (name :: rest) entry).child? wanted =
      (entry.child? wanted).map fun found =>
        if found.name = name then setContent content rest found else found := by
  cases entry with
  | file own old => rfl
  | directory own entries =>
    have hsame : ∀ found : Entry,
        ((if found.name = name then setContent content rest found else found).name == wanted) =
          (found.name == wanted) := by
      intro found
      split
      · rw [name_setContent]
      · rfl
    rw [setContent, child?, child?, Entry.entries, Entry.entries, List.find?_map]
    congr 2
    exact funext hsame

theorem get?_append (entry : Entry) (place : List String) (name : String) :
    entry.get? (place ++ [name]) = (entry.get? place).bind (·.child? name) := by
  induction place generalizing entry with
  | nil =>
    rw [List.nil_append, get?, get?, Option.bind_some]
    exact Option.bind_fun_some _
  | cons first place ih =>
    rw [List.cons_append, get?, get?, Option.bind_assoc]
    congr 1
    funext found
    exact ih found

theorem isDirectory_get?_setContent (place wanted : List String) (entry : Entry) :
    ((setContent content place entry).get? wanted).map isDirectory =
      (entry.get? wanted).map isDirectory := by
  induction wanted generalizing place entry with
  | nil => rw [get?, get?, Option.map_some, Option.map_some, isDirectory_setContent]
  | cons name wanted ih =>
    rw [get?, get?]
    cases place with
    | nil => cases entry <;> rfl
    | cons first rest =>
      rw [child?_setContent]
      cases entry.child? name with
      | none => rfl
      | some found =>
        rw [Option.map_some, Option.bind_some, Option.bind_some]
        split
        · exact ih rest found
        · rfl

theorem get?_setContent {place : List String} {entry : Entry} {name : String} {old : Bytes}
    (h : entry.get? place = some (file name old)) :
    (setContent content place entry).get? place = some (file name content) := by
  induction place generalizing entry with
  | nil =>
    cases h
    rfl
  | cons first place ih =>
    obtain ⟨found, hfound, hplace⟩ := Option.bind_eq_some_iff.1 h
    have hname : found.name = first := by
      have := List.find?_some hfound
      simpa using this
    rw [get?, child?_setContent, hfound, Option.map_some, Option.bind_some, if_pos hname]
    exact ih hplace

end Entry

namespace FileSystem

private theorem follow_congr {root root' : Entry}
    (h : ∀ place, (root'.get? place).map Entry.isDirectory = (root.get? place).map Entry.isDirectory)
    (place parts : List String) : follow root' place parts = follow root place parts := by
  induction parts generalizing place with
  | nil => rfl
  | cons part parts ih =>
    have hhere := h place
    have hchild := h (place ++ [part])
    rw [Entry.get?_append, Entry.get?_append] at hchild
    rw [follow, follow]
    cases hroot : root.get? place with
    | none =>
      rw [hroot, Option.map_none, Option.map_eq_none_iff] at hhere
      rw [hhere]
    | some entry =>
      obtain ⟨entry', hroot', hkind⟩ : ∃ entry', root'.get? place = some entry' ∧
          entry'.isDirectory = entry.isDirectory := by
        rw [hroot, Option.map_some] at hhere
        exact Option.map_eq_some_iff.1 hhere
      rw [hroot, hroot', Option.bind_some, Option.bind_some] at hchild
      have hsome : (entry'.child? part).isSome = (entry.child? part).isSome := by
        have := congrArg Option.isSome hchild
        rwa [Option.isSome_map, Option.isSome_map] at this
      rw [hroot']
      cases entry with
      | file name old =>
        cases entry' with
        | file name' old' => rfl
        | directory name' entries' => cases hkind
      | directory name entries =>
        cases entry' with
        | file name' old' => cases hkind
        | directory name' entries' =>
          dsimp only
          rw [hsome, ih place, ih place.dropLast, ih (place ++ [part])]

variable {fs after : FileSystem} {path : String} {content : Bytes}

private theorem entry_eq_ok_iff {found : Entry} :
    fs.entry path = .ok found ↔
      ∃ place, fs.locate path = .ok place ∧ fs.root.get? place = some found := by
  unfold entry
  cases hplace : fs.locate path with
  | error cause => simp [bind, Except.bind]
  | ok place =>
    cases hfound : fs.root.get? place with
    | none => simp [bind, Except.bind, hfound]
    | some other => simp [bind, Except.bind, hfound]

private theorem write_eq_ok (h : fs.write path content = .ok after) :
    ∃ place name old, fs.locate path = .ok place ∧
      fs.root.get? place = some (.file name old) ∧
      after = { fs with root := fs.root.setContent content place } := by
  unfold write at h
  split at h
  · cases h
  · cases hentry : fs.entry path with
    | error cause =>
      rw [hentry] at h
      cases h
    | ok found =>
      obtain ⟨place, hplace, hfound⟩ := entry_eq_ok_iff.1 hentry
      rw [hentry, hplace] at h
      cases found with
      | file name old =>
        cases h
        exact ⟨place, name, old, hplace, hfound, rfl⟩
      | directory name entries => cases h

/-- The same directories and files, the same paths that may not be written, and a command
that runs in the same place. What is in the files may differ. -/
structure SameShape (fs other : FileSystem) : Prop where
  cwd : other.cwd = fs.cwd
  unwritable : other.unwritable = fs.unwritable
  kinds : ∀ place,
    (other.root.get? place).map Entry.isDirectory = (fs.root.get? place).map Entry.isDirectory

theorem SameShape.refl (fs : FileSystem) : SameShape fs fs := ⟨rfl, rfl, fun _ => rfl⟩

theorem SameShape.symm {other : FileSystem} (h : SameShape fs other) : SameShape other fs :=
  ⟨h.cwd.symm, h.unwritable.symm, fun place => (h.kinds place).symm⟩

theorem SameShape.trans {other : FileSystem} (h : SameShape fs other)
    (h' : SameShape other after) : SameShape fs after :=
  ⟨h'.cwd.trans h.cwd, h'.unwritable.trans h.unwritable,
    fun place => (h'.kinds place).trans (h.kinds place)⟩

theorem SameShape.locate_eq {other : FileSystem} (h : SameShape fs other) (path : String) :
    other.locate path = fs.locate path := by
  unfold locate
  rw [h.cwd, follow_congr h.kinds]

theorem sameShape_write (h : fs.write path content = .ok after) : SameShape fs after := by
  obtain ⟨place, name, old, -, -, rfl⟩ := write_eq_ok h
  exact ⟨rfl, rfl, fun other => Entry.isDirectory_get?_setContent place other fs.root⟩

private theorem write_eq (fs : FileSystem) (path : String) (content : Bytes) :
    fs.write path content =
      if fs.unwritable.contains path then .error .permissionDenied
      else match fs.locate path with
        | .error cause => .error cause
        | .ok place =>
          match fs.root.get? place with
          | none => .error .notFound
          | some (.file ..) => .ok { fs with root := fs.root.setContent content place }
          | some (.directory ..) => .error .isADirectory := by
  unfold write entry
  split
  · rfl
  · cases hplace : fs.locate path with
    | error cause => rfl
    | ok place =>
      dsimp only [bind, Except.bind]
      rcases fs.root.get? place with _ | ⟨name, old⟩ | ⟨name, entries⟩ <;> rfl

/-- Whether a file can be written is not a matter of what it holds, or of what is written. -/
theorem SameShape.write_eq_error {other : FileSystem} {written : Bytes} {cause : PathError}
    (h : SameShape fs other) (hwrite : other.write path written = .error cause) :
    fs.write path content = .error cause := by
  rw [write_eq, h.unwritable, h.locate_eq] at hwrite
  rw [write_eq]
  by_cases hrefused : fs.unwritable.contains path = true
  · rw [if_pos hrefused] at hwrite ⊢
    exact hwrite
  rw [if_neg hrefused] at hwrite ⊢
  cases hplace : fs.locate path with
  | error other =>
    rw [hplace] at hwrite
    exact hwrite
  | ok place =>
    have hkind := h.kinds place
    rw [hplace] at hwrite
    dsimp only at hwrite ⊢
    generalize fs.root.get? place = found at hkind ⊢
    generalize other.root.get? place = found' at hkind hwrite
    rcases found with _ | ⟨name, old⟩ | ⟨name, entries⟩
    · rw [Option.map_none, Option.map_eq_none_iff] at hkind
      rw [hkind] at hwrite
      exact hwrite
    · rcases found' with _ | ⟨name', old'⟩ | ⟨name', entries'⟩
      · cases hkind
      · cases hwrite
      · cases hkind
    · rcases found' with _ | ⟨name', old'⟩ | ⟨name', entries'⟩
      · cases hkind
      · cases hkind
      · exact hwrite

theorem entry_write (h : fs.write path content = .ok after) :
    ∃ name, after.entry path = .ok (.file name content) := by
  obtain ⟨place, name, old, hplace, hentry, rfl⟩ := write_eq_ok h
  have hsame := (sameShape_write h).locate_eq path
  exact ⟨name, entry_eq_ok_iff.2 ⟨place, hsame.trans hplace, Entry.get?_setContent hentry⟩⟩

end FileSystem
end OverrideLint
