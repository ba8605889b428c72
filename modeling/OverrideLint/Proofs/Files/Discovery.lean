import Mathlib.Data.List.Nodup
import OverrideLint.Files.Discovery
import OverrideLint.Proofs.Files.Path
import OverrideLint.Proofs.Text.CodePoint
import OverrideLint.Proofs.Text.Wildcard

/-! Which files are found below a directory, and in which order. A file is told by its place: the
names on the way down to it. -/
namespace OverrideLint

/-- Where two ways part, there are two files, a file and a subdirectory, or two subdirectories. -/
inductive ComesBefore : List String → List String → Prop
  | files (shared : List String) {first second : String} (h : first < second) :
    ComesBefore (shared ++ [first]) (shared ++ [second])
  | fileFirst (shared : List String) (file directory : String) {rest : List String}
      (hrest : rest ≠ []) :
    ComesBefore (shared ++ [file]) (shared ++ directory :: rest)
  | directories (shared : List String) {first second : String} (h : first < second)
      {rest rest' : List String} (hrest : rest ≠ []) (hrest' : rest' ≠ []) :
    ComesBefore (shared ++ first :: rest) (shared ++ second :: rest')

theorem ComesBefore.cons {place place' : List String} (name : String)
    (h : ComesBefore place place') :
    ComesBefore (name :: place) (name :: place') := by
  cases h with
  | files shared h => exact .files (name :: shared) h
  | fileFirst shared file directory hrest => exact .fileFirst (name :: shared) file directory hrest
  | directories shared h hrest hrest' => exact .directories (name :: shared) h hrest hrest'

theorem ComesBefore.ne {place place' : List String} (h : ComesBefore place place') :
    place ≠ place' := by
  cases h with
  | files shared h =>
    intro heq
    have := List.append_cancel_left heq
    simp only [List.cons.injEq, and_true] at this
    exact String.lt_irrefl _ (this ▸ h)
  | fileFirst shared file directory hrest =>
    intro heq
    have := List.append_cancel_left heq
    simp only [List.cons.injEq] at this
    exact hrest this.2.symm
  | directories shared h =>
    intro heq
    have := List.append_cancel_left heq
    simp only [List.cons.injEq] at this
    exact String.lt_irrefl _ (this.1 ▸ h)

namespace Entry

inductive WellNamed : Entry → Prop
  | file (name : String) (content : Bytes) : WellNamed (file name content)
  | directory (name : String) {entries : List Entry} (hdistinct : (entries.map Entry.name).Nodup)
      (hnames : ∀ entry ∈ entries, Path.IsName entry.name)
      (hbelow : ∀ entry ∈ entries, WellNamed entry) : WellNamed (directory name entries)

mutual

def places : Entry → List (List String)
  | file .. => []
  | directory _ entries =>
    (ownFiles entries).map ([·]) ++
      ((placesIn entries).mergeSort fun a b => a.1 ≤ b.1).flatMap fun branch =>
        branch.2.map (branch.1 :: ·)

def placesIn : List Entry → List (String × List (List String))
  | [] => []
  | entry :: rest =>
    if entry.isDirectory && !isSkipped entry.name then
      (entry.name, entry.places) :: placesIn rest
    else placesIn rest

end

section Places

variable {entry : Entry} {entries : List Entry}

private theorem placesIn_eq (entries : List Entry) :
    placesIn entries = (entries.filter fun entry => entry.isDirectory && !isSkipped entry.name).map
      fun entry => (entry.name, entry.places) := by
  induction entries with
  | nil => rw [placesIn]; rfl
  | cons entry rest ih =>
    rw [placesIn, List.filter_cons, ih]
    split <;> rfl

private theorem branches_eq (path : String) (entries : List Entry) :
    branches path entries =
      (entries.filter fun entry => entry.isDirectory && !isSkipped entry.name).map
        fun entry => (entry.name, entry.filePaths (Path.join path entry.name)) := by
  induction entries with
  | nil => rw [branches]; rfl
  | cons entry rest ih =>
    rw [branches, List.filter_cons, ih]
    split <;> rfl

theorem filePaths_eq (path : String) (entry : Entry) :
    entry.filePaths path = entry.places.map (Path.descend path) := by
  cases entry with
  | file name content => rw [filePaths, places]; rfl
  | directory name entries =>
    have hbelow : ∀ entry ∈ entries, entry.filePaths (Path.join path entry.name) =
        entry.places.map (Path.descend (Path.join path entry.name)) := by
      intro entry hentry
      have := List.sizeOf_lt_of_mem hentry
      exact filePaths_eq (Path.join path entry.name) entry
    let extend (branch : String × List (List String)) : String × List String :=
      (branch.1, branch.2.map fun place => Path.descend path (branch.1 :: place))
    have hbranches : branches path entries = (placesIn entries).map extend := by
      rw [branches_eq, placesIn_eq, List.map_map]
      apply List.map_congr_left
      intro entry hentry
      rw [hbelow entry (List.mem_filter.1 hentry).1]
      rfl
    have hsort : ((placesIn entries).mergeSort fun a b => a.1 ≤ b.1).map extend =
        ((placesIn entries).map extend).mergeSort fun a b => a.1 ≤ b.1 :=
      List.map_mergeSort fun _ _ _ _ => rfl
    rw [filePaths, places, hbranches, ← hsort, List.map_append, List.map_map, List.flatMap_map,
      List.map_flatMap]
    simp only [List.map_map]
    rfl
termination_by sizeOf entry

private theorem mem_ownFiles {name : String} :
    name ∈ ownFiles entries ↔ ∃ content, file name content ∈ entries := by
  simp only [ownFiles, List.mem_mergeSort, List.mem_map, List.mem_filter]
  constructor
  · rintro ⟨_ | _, ⟨hentry, hfile⟩, rfl⟩
    · exact ⟨_, hentry⟩
    · cases hfile
  · rintro ⟨content, hfile⟩
    exact ⟨file name content, ⟨hfile, rfl⟩, rfl⟩

private theorem mem_places_directory {name : String} {place : List String} :
    place ∈ (directory name entries).places ↔
      (∃ file ∈ ownFiles entries, place = [file]) ∨
        ∃ entry ∈ entries, entry.isDirectory = true ∧ isSkipped entry.name = false ∧
          ∃ rest ∈ entry.places, place = entry.name :: rest := by
  rw [places, List.mem_append, placesIn_eq]
  simp only [List.mem_map, List.mem_flatMap, List.mem_mergeSort, List.mem_filter, Bool.and_eq_true,
    Bool.not_eq_true', eq_comm (b := place)]
  apply or_congr_right
  constructor
  · rintro ⟨_, ⟨entry, ⟨hentry, hdirectory, hskipped⟩, rfl⟩, hplace⟩
    exact ⟨entry, hentry, hdirectory, hskipped, hplace⟩
  · rintro ⟨entry, hentry, hdirectory, hskipped, hplace⟩
    exact ⟨_, ⟨entry, ⟨hentry, hdirectory, hskipped⟩, rfl⟩, hplace⟩

theorem ne_nil_of_mem_places {place : List String} (h : place ∈ entry.places) : place ≠ [] := by
  cases entry with
  | file name content =>
    rw [places] at h
    cases h
  | directory name entries =>
    rcases mem_places_directory.1 h with ⟨file, -, rfl⟩ | ⟨entry, -, -, -, rest, -, rfl⟩ <;> simp

private theorem child?_eq_some_iff {name : String} (hdistinct : (entries.map Entry.name).Nodup)
    {wanted : String} {found : Entry} :
    (directory name entries).child? wanted = some found ↔ found ∈ entries ∧ found.name = wanted := by
  constructor
  · intro h
    exact ⟨List.mem_of_find?_eq_some h, by simpa using List.find?_some h⟩
  · rintro ⟨hfound, rfl⟩
    cases hchild : (directory name entries).child? found.name with
    | none =>
      have := List.find?_eq_none.1 hchild found hfound
      simp at this
    | some other =>
      have hother : other ∈ entries := List.mem_of_find?_eq_some hchild
      have hname : other.name = found.name := by simpa using List.find?_some hchild
      rw [List.inj_on_of_nodup_map hdistinct hother hfound hname]

theorem mem_places_iff (hnamed : entry.WellNamed) {place : List String} :
    place ∈ entry.places ↔ place ≠ [] ∧
      (∃ name content, entry.get? place = some (file name content)) ∧
      ∀ directory ∈ place.dropLast, isSkipped directory = false := by
  induction place generalizing entry with
  | nil => simpa using fun h => ne_nil_of_mem_places h rfl
  | cons wanted rest ih =>
    cases hnamed with
    | file name content => simp [places, get?, child?, Entry.entries]
    | directory name hdistinct hnames hbelow =>
      rename_i entries
      have hget : (∃ name' content, (directory name entries).get? (wanted :: rest) =
          some (file name' content)) ↔ ∃ entry ∈ entries, entry.name = wanted ∧
            ∃ name' content, entry.get? rest = some (file name' content) := by
        simp only [get?, Option.bind_eq_some_iff, child?_eq_some_iff hdistinct]
        grind
      rw [mem_places_directory, hget]
      cases rest with
      | nil =>
        simp only [get?, Option.some.injEq, List.dropLast_singleton, List.cons.injEq, and_true,
          mem_ownFiles]
        constructor
        · rintro (⟨_, ⟨content, hfile⟩, rfl⟩ | ⟨entry, -, -, -, _, hrest, -, rfl⟩)
          · exact ⟨nofun, ⟨⟨_, hfile, rfl, _, content, rfl⟩, nofun⟩⟩
          · exact absurd rfl (ne_nil_of_mem_places hrest)
        · rintro ⟨-, ⟨_, hfile, rfl, name', content, rfl⟩, -⟩
          exact .inl ⟨_, ⟨content, hfile⟩, rfl⟩
      | cons next rest =>
        simp only [List.cons.injEq, reduceCtorEq, and_false, exists_false, false_or,
          List.dropLast_cons_cons, List.forall_mem_cons]
        constructor
        · rintro ⟨entry, hentry, -, hskipped, _, hrest, rfl, rfl⟩
          obtain ⟨-, hfile, hentered⟩ := (ih (hbelow entry hentry)).1 hrest
          exact ⟨nofun, ⟨entry, hentry, rfl, hfile⟩, hskipped, hentered⟩
        · rintro ⟨-, ⟨entry, hentry, rfl, hfile⟩, hskipped, hentered⟩
          have hrest := (ih (hbelow entry hentry)).2 ⟨nofun, hfile, hentered⟩
          refine ⟨entry, hentry, ?_, hskipped, _, hrest, rfl, rfl⟩
          cases entry with
          | file name content => simp [places] at hrest
          | directory name entries => rfl

theorem isName_of_mem_places (hnamed : entry.WellNamed) {place : List String}
    (h : place ∈ entry.places) : ∀ name ∈ place, Path.IsName name := by
  induction hnamed generalizing place with
  | file name content =>
    rw [places] at h
    cases h
  | directory name hdistinct hnames hbelow ih =>
    rcases mem_places_directory.1 h with
      ⟨file, hfile, rfl⟩ | ⟨entry, hentry, -, -, rest, hrest, rfl⟩
    · obtain ⟨content, hfile⟩ := mem_ownFiles.1 hfile
      exact List.forall_mem_singleton.2 (hnames _ hfile)
    · exact List.forall_mem_cons.2 ⟨hnames entry hentry, ih entry hentry hrest⟩

end Places

section Order

private theorem pairwise_mergeSort_key {α : Type} (key : α → String) {items : List α}
    (h : (items.map key).Nodup) :
    (items.mergeSort fun a b => key a ≤ key b).Pairwise fun a b => key a < key b := by
  have hle : (items.mergeSort fun a b => key a ≤ key b).Pairwise fun a b => key a ≤ key b := by
    have htrans : ∀ a b c, decide (key a ≤ key b) = true → decide (key b ≤ key c) = true →
        decide (key a ≤ key c) = true := by
      intro a b c hab hbc
      simp only [decide_eq_true_eq] at *
      exact String.le_trans hab hbc
    have htotal : ∀ a b, (decide (key a ≤ key b) || decide (key b ≤ key a)) = true := by
      intro a b
      simpa using String.le_total (key a) (key b)
    simpa using List.pairwise_mergeSort htrans htotal items
  have hne : (items.mergeSort fun a b => key a ≤ key b).Pairwise fun a b => key a ≠ key b :=
    List.pairwise_map.1 (((List.mergeSort_perm items _).map key).nodup_iff.2 h)
  exact (hle.and hne).imp fun h => Std.lt_of_le_of_ne h.1 h.2

private theorem pairwise_ownFiles {entries : List Entry} (h : (entries.map Entry.name).Nodup) :
    (ownFiles entries).Pairwise (· < ·) := by
  apply pairwise_mergeSort_key id
  rw [List.map_id]
  exact h.sublist (List.filter_sublist.map _)

theorem pairwise_places {entry : Entry} (hnamed : entry.WellNamed) :
    entry.places.Pairwise ComesBefore := by
  induction hnamed with
  | file name content => rw [places]; exact .nil
  | directory name hdistinct hnames hbelow ih =>
    rename_i entries
    have hbranch : ∀ branch ∈ (placesIn entries).mergeSort (fun a b => a.1 ≤ b.1),
        ∃ entry ∈ entries, branch = (entry.name, entry.places) := by
      intro branch hmem
      rw [List.mem_mergeSort, placesIn_eq] at hmem
      obtain ⟨entry, hentry, rfl⟩ := List.mem_map.1 hmem
      exact ⟨entry, (List.mem_filter.1 hentry).1, rfl⟩
    have hkeys : ((placesIn entries).map Prod.fst).Nodup := by
      rw [placesIn_eq, List.map_map]
      exact hdistinct.sublist (List.filter_sublist.map _)
    rw [places, List.pairwise_append, List.pairwise_flatMap]
    refine ⟨?_, ⟨?_, ?_⟩, ?_⟩
    · exact (pairwise_ownFiles hdistinct).map _ fun _ _ h => .files [] h
    · intro branch hmem
      obtain ⟨entry, hentry, rfl⟩ := hbranch branch hmem
      exact (ih entry hentry).map _ fun _ _ => ComesBefore.cons entry.name
    · refine (pairwise_mergeSort_key Prod.fst hkeys).imp_of_mem ?_
      intro first second hfirst hsecond hlt place hplace place' hplace'
      obtain ⟨_, -, rfl⟩ := hbranch first hfirst
      obtain ⟨_, -, rfl⟩ := hbranch second hsecond
      obtain ⟨rest, hrest, rfl⟩ := List.mem_map.1 hplace
      obtain ⟨rest', hrest', rfl⟩ := List.mem_map.1 hplace'
      exact .directories [] hlt (ne_nil_of_mem_places hrest) (ne_nil_of_mem_places hrest')
    · intro place hplace place' hplace'
      obtain ⟨file, -, rfl⟩ := List.mem_map.1 hplace
      obtain ⟨branch, hmem, hplace'⟩ := List.mem_flatMap.1 hplace'
      obtain ⟨_, -, rfl⟩ := hbranch branch hmem
      obtain ⟨rest, hrest, rfl⟩ := List.mem_map.1 hplace'
      exact .fileFirst [] file _ (ne_nil_of_mem_places hrest)

end Order

theorem nodup_map_descend {entry : Entry} (hnamed : entry.WellNamed) (path : String) :
    (entry.places.map (Path.descend path)).Nodup := by
  apply List.Nodup.map_on
  · intro place hplace place' hplace'
    exact Path.descend_injective (isName_of_mem_places hnamed hplace)
      (isName_of_mem_places hnamed hplace') (ne_nil_of_mem_places hplace)
      (ne_nil_of_mem_places hplace')
  · exact (pairwise_places hnamed).imp ComesBefore.ne

end Entry

namespace Settings

variable {settings : Settings} {fs : FileSystem}

/-- The name ends with an extension, in any case. No name ends with a surrogate. -/
def HasExtension (settings : Settings) (name : String) : Prop :=
  ∃ extension : Text, .ofText extension ∈ settings.extensions ∧
    Text.lower extension <:+ Text.lower name.toList

def Excluded (settings : Settings) (fs : FileSystem) (path : String) : Prop :=
  ∃ pattern ∈ settings.exclude,
    Wildcard.Matches (Wildcard.tokens pattern.points) (fs.relative path).toList ∨
      Wildcard.Matches (Wildcard.tokens pattern.points) path.toList

private theorem excludes_iff {path : String} :
    settings.excludes fs path = true ↔ settings.Excluded fs path := by
  simp only [excludes, Excluded, List.any_eq_true, Bool.or_eq_true, Wildcard.matchesWide_iff]

private theorem hasExtension_join_iff (directory : String) {name : String} (h : Path.IsName name) :
    settings.hasExtension (Path.join directory name) = true ↔ settings.HasExtension name := by
  simp only [hasExtension, HasExtension, Path.getLast?_split_join directory h, Option.getD_some,
    List.any_eq_true, List.isSuffixOf_iff_suffix, List.mem_filterMap,
    WideString.toText?_eq_some_iff, exists_eq_right]

/-- A file below a directory that counts as a source: no directory on the way is skipped, its name
has an extension that is asked for, and no pattern excludes its path. -/
structure Wants (settings : Settings) (fs : FileSystem) (path : String) (top : Entry)
    (place : List String) : Prop where
  file : ∃ name content, top.get? place = some (.file name content)
  entered : ∀ directory ∈ place.dropLast, directory ≠ "node_modules" ∧ directory ≠ ".git"
  extension : ∃ name ∈ place.getLast?, settings.HasExtension name
  kept : ¬ settings.Excluded fs (Path.descend path place)

private theorem isSkipped_eq_false_iff {name : String} :
    Entry.isSkipped name = false ↔ name ≠ "node_modules" ∧ name ≠ ".git" := by
  simp [Entry.isSkipped]

private theorem wants_iff {path : String} {top : Entry} (hdirectory : top.isDirectory = true)
    (hnamed : top.WellNamed) {place : List String} :
    settings.Wants fs path top place ↔ place ∈ top.places ∧
      settings.hasExtension (Path.descend path place) = true ∧
        settings.excludes fs (Path.descend path place) = false := by
  rw [← Bool.not_eq_true, excludes_iff]
  have hextension (hplace : place ∈ top.places) :
      settings.hasExtension (Path.descend path place) = true ↔
        ∃ name ∈ place.getLast?, settings.HasExtension name := by
    obtain ⟨way, name, rfl⟩ :=
      (List.eq_nil_or_concat place).resolve_left (Entry.ne_nil_of_mem_places hplace)
    have hname := Entry.isName_of_mem_places hnamed hplace name (by simp)
    rw [List.concat_eq_append, Path.descend, List.foldl_append]
    simpa using hasExtension_join_iff _ hname
  constructor
  · rintro ⟨hfile, hentered, hends, hkept⟩
    have hplace : place ∈ top.places := by
      refine (Entry.mem_places_iff hnamed).2 ⟨?_, hfile, ?_⟩
      · rintro rfl
        obtain ⟨name, content, hfound⟩ := hfile
        cases hfound
        cases hdirectory
      · exact fun directory hmem => isSkipped_eq_false_iff.2 (hentered directory hmem)
    exact ⟨hplace, (hextension hplace).2 hends, hkept⟩
  · rintro ⟨hplace, hends, hkept⟩
    obtain ⟨-, hfile, hentered⟩ := (Entry.mem_places_iff hnamed).1 hplace
    exact ⟨hfile, fun directory hmem => isSkipped_eq_false_iff.1 (hentered directory hmem),
      (hextension hplace).1 hends, hkept⟩

/-- The sources below a directory are exactly the files that are wanted, each once. The files of a
directory come by name and before those of its subdirectories, which follow one after the other,
by name as well. -/
theorem sourcesAt?_complete (settings : Settings) (fs : FileSystem) {path : String} {top : Entry}
    (htop : fs.entry path = .ok top) (hdirectory : top.isDirectory = true)
    (hnamed : top.WellNamed) :
    ∃ places : List (List String),
      settings.sourcesAt? fs path = some (places.map (Path.descend path)) ∧
      (places.map (Path.descend path)).Nodup ∧
      (∀ place, place ∈ places ↔ settings.Wants fs path top place) ∧
      places.Pairwise ComesBefore := by
  refine ⟨top.places.filter fun place => settings.hasExtension (Path.descend path place) &&
    !settings.excludes fs (Path.descend path place), ?_, ?_, ?_, ?_⟩
  · cases top with
    | file name content => cases hdirectory
    | directory name entries =>
      rw [sourcesAt?, htop]
      dsimp only
      rw [Entry.filePaths_eq, List.filter_map]
      rfl
  · exact (Entry.nodup_map_descend hnamed path).sublist (List.filter_sublist.map _)
  · intro place
    rw [List.mem_filter, Bool.and_eq_true, Bool.not_eq_true', wants_iff hdirectory hnamed]
  · exact (Entry.pairwise_places hnamed).filter _

def mixedTop : Entry :=
  .directory "src"
    [.directory "node_modules" [.file "x.ts" []], .file "z.ts" [], .file "notes.md" [],
      .directory "lib" [.file "c.TS" []], .directory "gen" [.file "g.ts" []], .file "a.tsx" []]

private theorem wellNamed_mixedTop : mixedTop.WellNamed := by
  have hleaf (directory name : String) (h : Path.IsName name) :
      (Entry.directory directory [.file name []]).WellNamed :=
    .directory directory (by simp) (by simpa [Entry.name] using h) (by simp [Entry.WellNamed.file])
  apply Entry.WellNamed.directory
  · simp [Entry.name]
  · simp only [List.forall_mem_cons, Entry.name]
    refine ⟨?_, ?_, ?_, ?_, ?_, ?_, nofun⟩ <;> constructor <;> decide
  · simp only [List.forall_mem_cons]
    refine ⟨hleaf _ _ ?_, .file .., .file .., hleaf _ _ ?_, hleaf _ _ ?_, .file .., nofun⟩ <;>
      constructor <;> decide

theorem sourcesAt?_complete_mixed :
    let fs : FileSystem := ⟨.directory "" [mixedTop], [], [], []⟩
    let settings : Settings := { exclude := ["*/gen/*"] }
    fs.entry "src/" = .ok mixedTop ∧ mixedTop.WellNamed ∧
      ∃ places : List (List String),
        settings.sourcesAt? fs "src/" = some (places.map (Path.descend "src/")) ∧
        ["z.ts"] ∈ places ∧ ["lib", "c.TS"] ∈ places ∧ ["gen", "g.ts"] ∉ places ∧
        ["node_modules", "x.ts"] ∉ places ∧ ["notes.md"] ∉ places ∧
        places.Pairwise ComesBefore := by
  intro fs settings
  have htop : fs.entry "src/" = .ok mixedTop := rfl
  obtain ⟨places, hsources, -, hwanted, hordered⟩ :=
    sourcesAt?_complete settings fs htop rfl wellNamed_mixedTop
  refine ⟨htop, wellNamed_mixedTop, places, hsources, ?_, ?_, ?_, ?_, ?_, hordered⟩
  · exact (hwanted _).2 ⟨⟨_, _, rfl⟩, by decide, ⟨_, rfl, ".ts".toList, by decide, by decide⟩,
      by rw [← excludes_iff]; decide +kernel⟩
  · exact (hwanted _).2 ⟨⟨_, _, rfl⟩, by decide, ⟨_, rfl, ".ts".toList, by decide, by decide⟩,
      by rw [← excludes_iff]; decide +kernel⟩
  · exact fun hmem => ((hwanted _).1 hmem).kept (excludes_iff.1 (by decide +kernel))
  · exact fun hmem => (((hwanted _).1 hmem).entered "node_modules" (by decide)).1 rfl
  · intro hmem
    obtain ⟨_, ⟨⟩, hends⟩ := ((hwanted _).1 hmem).extension
    have hname : Path.IsName "notes.md" := by constructor <;> decide
    have hends := (hasExtension_join_iff "src" hname).2 hends
    revert hends
    decide +kernel

end Settings
end OverrideLint
