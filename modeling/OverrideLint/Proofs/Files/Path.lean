import OverrideLint.Files.Path

/-! Paths put together from names. A path that goes down from a directory keeps the names apart,
so it tells the way, and its last part is the last name. -/
namespace OverrideLint.Path

structure IsName (name : String) : Prop where
  ne_empty : name ≠ ""
  noSlash : '/' ∉ name.toList

def descend (path : String) (place : List String) : String := place.foldl join path

/-- What stands before the name in a joined path: the directory, and a slash if it needs one. -/
private def stem (directory : String) : String :=
  if directory = "" ∨ directory.toList.getLast? = some '/' then directory else directory ++ "/"

private theorem join_eq (directory name : String) :
    join directory name = stem directory ++ name := by
  unfold join stem
  split <;> rfl

private theorem stem_join {directory name : String} (h : IsName name) :
    stem (join directory name) = stem directory ++ name ++ "/" := by
  have hname : name.toList ≠ [] := by simpa using h.ne_empty
  have hempty : join directory name ≠ "" := by simp [join_eq, h.ne_empty]
  have hlast : (join directory name).toList.getLast? ≠ some '/' := by
    obtain ⟨before, last, hlast⟩ := (List.eq_nil_or_concat name.toList).resolve_left hname
    have hslash : last ≠ '/' := by
      rintro rfl
      exact h.noSlash (by simp [hlast])
    simp [join_eq, hlast, hslash]
  rw [stem, if_neg (by simp [hempty, hlast]), join_eq]

private theorem toList_descend (path : String) {place : List String} (hplace : place ≠ [])
    (h : ∀ name ∈ place, IsName name) :
    (descend path place).toList =
      (stem path).toList ++ ['/'].intercalate (place.map String.toList) := by
  induction place generalizing path with
  | nil => exact absurd rfl hplace
  | cons name rest ih =>
    obtain ⟨hname, hrest⟩ := List.forall_mem_cons.1 h
    cases rest with
    | nil => simp [descend, join_eq]
    | cons next rest =>
      have hbelow := ih (join path name) (List.cons_ne_nil _ _) hrest
      have hstart : descend path (name :: next :: rest) =
          descend (join path name) (next :: rest) := rfl
      rw [hstart, hbelow, stem_join hname]
      simp [List.intercalate_cons_cons]

theorem descend_injective {path : String} {place place' : List String}
    (h : ∀ name ∈ place, IsName name) (h' : ∀ name ∈ place', IsName name) (hne : place ≠ [])
    (hne' : place' ≠ []) (heq : descend path place = descend path place') : place = place' := by
  have hparts {names : List String} (hnames : ∀ name ∈ names, IsName name) (hsome : names ≠ []) :
      (['/'].intercalate (names.map String.toList)).splitOn '/' = names.map String.toList := by
    apply List.splitOn_intercalate
    · intro part hpart
      obtain ⟨name, hname, rfl⟩ := List.mem_map.1 hpart
      exact (hnames name hname).noSlash
    · simpa using hsome
  have htext := congrArg String.toList heq
  rw [toList_descend path hne h, toList_descend path hne' h', List.append_cancel_left_eq] at htext
  have hnames := congrArg (List.splitOn '/') htext
  rw [hparts h hne, hparts h' hne'] at hnames
  exact List.map_inj_right (fun _ _ => String.toList_inj.1) |>.1 hnames

private theorem split_ne_nil (text : Text) : split text ≠ [] := by
  fun_cases split text <;> simp

private theorem split_of_noSlash {text : Text} (h : '/' ∉ text) : split text = [text] := by
  induction text with
  | nil => rfl
  | cons c rest ih =>
    rw [List.mem_cons, not_or] at h
    rw [split, if_neg (Ne.symm h.1), ih h.2]

private theorem split_append_slash (before after : Text) :
    split (before ++ '/' :: after) = split before ++ split after := by
  induction before with
  | nil => simp [split]
  | cons c rest ih =>
    rw [List.cons_append, split, split, ih]
    by_cases hc : c = '/'
    · rw [if_pos hc, if_pos hc, List.cons_append]
    · rw [if_neg hc, if_neg hc]
      cases hrest : split rest with
      | nil => exact absurd hrest (split_ne_nil rest)
      | cons part following => rfl

theorem getLast?_split_join (directory : String) {name : String} (h : IsName name) :
    (split (join directory name).toList).getLast? = some name.toList := by
  rw [join_eq, String.toList_append]
  have hname := split_of_noSlash h.noSlash
  obtain hstem | ⟨before, hstem⟩ : (stem directory).toList = [] ∨
      ∃ before, (stem directory).toList = before ++ ['/'] := by
    unfold stem
    split
    · rename_i hends
      rcases hends with rfl | hslash
      · exact .inl rfl
      · exact .inr (List.getLast?_eq_some_iff.1 hslash)
    · exact .inr ⟨directory.toList, by simp⟩
  · rw [hstem, List.nil_append, hname]
    rfl
  · rw [hstem, List.append_assoc, List.singleton_append, split_append_slash, hname]
    simp

end OverrideLint.Path
