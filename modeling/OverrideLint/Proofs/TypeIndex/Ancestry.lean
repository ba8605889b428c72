import Mathlib.Data.List.Nodup
import Mathlib.Logic.Relation
import OverrideLint.TypeIndex.Ancestry

/-! The search for the ancestry of a declaration visits exactly what can be reached by
following base names, each looked up in the file of the declaration that names it. -/
namespace OverrideLint

theorem mem_addNames {known added : List WideString} {name : WideString} :
    name ∈ addNames known added ↔ name ∈ known ∨ name ∈ added := by
  unfold addNames
  induction added generalizing known with
  | nil => simp
  | cons first added ih =>
    rw [List.foldl_cons, ih]
    by_cases hknown : first ∈ known
    · rw [if_pos (by simpa using hknown), List.mem_cons]
      constructor
      · rintro (h | h)
        · exact .inl h
        · exact .inr (.inr h)
      · rintro (h | rfl | h)
        · exact .inl h
        · exact .inl hknown
        · exact .inr h
    · rw [if_neg (by simpa using hknown)]
      simp [or_assoc]

namespace DeclarationTable

def Extends (table : DeclarationTable) (entry base : Declaration) : Prop :=
  ∃ name ∈ entry.bases, table.lookup? name entry.origin = some base

def Inherits (table : DeclarationTable) : Declaration → Declaration → Prop :=
  Relation.ReflTransGen table.Extends

def DistinctKeys (table : DeclarationTable) : Prop := (table.map Declaration.key).Nodup

variable {table : DeclarationTable} {entry base ancestor : Declaration}

theorem DistinctKeys.eq_of_key_eq (h : table.DistinctKeys) (hentry : entry ∈ table)
    (hbase : base ∈ table) (hkey : entry.key = base.key) : entry = base :=
  List.inj_on_of_nodup_map h hentry hbase hkey

theorem Extends.mem (h : table.Extends entry base) : base ∈ table := by
  obtain ⟨name, _, hlookup⟩ := h
  exact mem_of_lookup? hlookup

theorem Inherits.mem (h : table.Inherits entry ancestor) (hentry : entry ∈ table) :
    ancestor ∈ table := by
  induction h with
  | refl => exact hentry
  | tail _ hstep _ => exact hstep.mem

theorem lookupEntry?_eq_some {name : WideString} {origin : String} {found : table.Entry} :
    table.lookupEntry? name origin = some found ↔ table.lookup? name origin = some found.1 := by
  unfold lookupEntry?
  rw [Option.map_eq_some_iff]
  constructor
  · rintro ⟨⟨value, hvalue⟩, _, rfl⟩
    exact hvalue
  · intro h
    exact ⟨⟨found.1, h⟩, by simp [h], rfl⟩

theorem lookupEntry?_eq_none {name : WideString} {origin : String} :
    table.lookupEntry? name origin = none ↔ table.lookup? name origin = none := by
  simp [ lookupEntry?]

private theorem mem_basesOf {found : table.Entry} :
    found ∈ table.basesOf entry ↔ table.Extends entry found.1 := by
  unfold basesOf Extends
  rw [List.mem_filterMap]
  constructor
  · rintro ⟨name, hname, hfound⟩
    exact ⟨name, hname, lookupEntry?_eq_some.1 hfound⟩
  · rintro ⟨name, hname, hfound⟩
    exact ⟨name, hname, lookupEntry?_eq_some.2 hfound⟩

private theorem inherits_of_mem_visits {stack : List table.Entry}
    {seen : List (WideString × String)} (h : ancestor ∈ table.visits stack seen) :
    ∃ start ∈ stack, table.Inherits start.1 ancestor := by
  fun_induction visits table stack seen with
  | case1 seen => cases h
  | case2 seen first rest hseen ih =>
    obtain ⟨start, hstart, hpath⟩ := ih h
    exact ⟨start, List.mem_cons_of_mem _ hstart, hpath⟩
  | case3 seen first rest hseen ih =>
    rcases List.mem_cons.1 h with rfl | hlater
    · exact ⟨first, List.mem_cons_self, Relation.ReflTransGen.refl⟩
    · obtain ⟨start, hstart, hpath⟩ := ih hlater
      rcases List.mem_append.1 hstart with hbase | hrest
      · have hstep := mem_basesOf.1 (List.mem_reverse.1 hbase)
        exact ⟨first, List.mem_cons_self, Relation.ReflTransGen.head hstep hpath⟩
      · exact ⟨start, List.mem_cons_of_mem _ hrest, hpath⟩

/-- What a search has dealt with or will deal with: seen before, or visited. -/
def Reached (table : DeclarationTable) (stack : List table.Entry) (seen : List (WideString × String))
    (entry : Declaration) : Prop :=
  entry.key ∈ seen ∨ entry ∈ table.visits stack seen

private theorem reached_cons_of_seen {first : table.Entry} {rest : List table.Entry}
    {seen : List (WideString × String)} (hseen : seen.contains first.1.key = true) :
    table.Reached (first :: rest) seen entry ↔ table.Reached rest seen entry := by
  unfold Reached
  rw [visits, dif_pos hseen]

private theorem reached_cons_of_new (hkeys : table.DistinctKeys) {first : table.Entry}
    {rest : List table.Entry} {seen : List (WideString × String)}
    (hnew : ¬ seen.contains first.1.key = true) (hentry : entry ∈ table) :
    table.Reached (first :: rest) seen entry ↔
      table.Reached ((table.basesOf first.1).reverse ++ rest) (first.1.key :: seen) entry := by
  unfold Reached
  rw [visits, dif_neg hnew, List.mem_cons, List.mem_cons]
  constructor
  · rintro (hseen | rfl | hvisit)
    · exact .inl (.inr hseen)
    · exact .inl (.inl rfl)
    · exact .inr hvisit
  · rintro ((hkey | hseen) | hvisit)
    · exact .inr (.inl (hkeys.eq_of_key_eq hentry first.2 hkey))
    · exact .inl hseen
    · exact .inr (.inr hvisit)

private theorem reached_of_mem_stack (hkeys : table.DistinctKeys) {stack : List table.Entry}
    {seen : List (WideString × String)} {start : table.Entry} (h : start ∈ stack) :
    table.Reached stack seen start.1 := by
  induction stack, seen using visits.induct table with
  | case1 seen => cases h
  | case2 seen first rest hseen ih =>
    rw [reached_cons_of_seen hseen]
    rcases List.mem_cons.1 h with rfl | hrest
    · exact .inl (by simpa using hseen)
    · exact ih hrest
  | case3 seen first rest hnew ih =>
    rw [reached_cons_of_new hkeys hnew start.2]
    rcases List.mem_cons.1 h with rfl | hrest
    · exact .inl List.mem_cons_self
    · exact ih (List.mem_append_right _ hrest)

/-- What a search reaches is closed under taking bases, as long as the bases of what was
seen before are seen or still on the stack. -/
theorem Reached.extends (hkeys : table.DistinctKeys) {stack : List table.Entry}
    {seen : List (WideString × String)}
    (hpending : ∀ entry ∈ table, entry.key ∈ seen → ∀ base : table.Entry,
      table.Extends entry base.1 → base.1.key ∈ seen ∨ base ∈ stack)
    (hentry : entry ∈ table) (hreached : table.Reached stack seen entry)
    (hstep : table.Extends entry base) : table.Reached stack seen base := by
  induction stack, seen using visits.induct table with
  | case1 seen =>
    have hseen : entry.key ∈ seen := by simpa [Reached, visits] using hreached
    rcases hpending entry hentry hseen ⟨base, hstep.mem⟩ hstep with hbase | hbase
    · exact .inl hbase
    · cases hbase
  | case2 seen first rest hseen ih =>
    rw [reached_cons_of_seen hseen] at hreached ⊢
    apply ih _ hreached
    intro other hother hkey next hnext
    rcases hpending other hother hkey next hnext with hold | hstack
    · exact .inl hold
    · rcases List.mem_cons.1 hstack with rfl | hrest
      · exact .inl (by simpa using hseen)
      · exact .inr hrest
  | case3 seen first rest hnew ih =>
    rw [reached_cons_of_new hkeys hnew hentry] at hreached
    rw [reached_cons_of_new hkeys hnew hstep.mem]
    apply ih _ hreached
    intro other hother hkey next hnext
    rcases List.mem_cons.1 hkey with hsame | hold
    · have hfirst := hkeys.eq_of_key_eq hother first.2 hsame
      rw [hfirst] at hnext
      exact .inr (List.mem_append_left _ (List.mem_reverse.2 (mem_basesOf.2 hnext)))
    · rcases hpending other hother hold next hnext with hseen | hstack
      · exact .inl (List.mem_cons_of_mem _ hseen)
      · rcases List.mem_cons.1 hstack with rfl | hrest
        · exact .inl List.mem_cons_self
        · exact .inr (List.mem_append_right _ hrest)

private theorem mem_ancestry_iff (hkeys : table.DistinctKeys) (start : table.Entry) :
    ancestor ∈ table.ancestry start ↔ table.Inherits start.1 ancestor := by
  constructor
  · intro h
    obtain ⟨first, hfirst, hpath⟩ := inherits_of_mem_visits h
    rw [List.mem_singleton.1 hfirst] at hpath
    exact hpath
  · intro hpath
    have hreached : table.Reached [start] [] ancestor := by
      induction hpath with
      | refl => exact reached_of_mem_stack hkeys (List.mem_singleton.2 rfl)
      | tail hprefix hstep ih =>
        apply ih.extends hkeys _ (Inherits.mem hprefix start.2) hstep
        intro other _ hkey
        cases hkey
    simpa [Reached, ancestry] using hreached

theorem mem_inherited_iff (hkeys : table.DistinctKeys) (start : table.Entry) {member : WideString} :
    member ∈ table.inherited start ↔
      ∃ ancestor, table.Inherits start.1 ancestor ∧ member ∈ ancestor.members := by
  unfold inherited
  rw [mem_addNames, List.mem_flatMap]
  simp [mem_ancestry_iff hkeys]

end DeclarationTable
end OverrideLint
