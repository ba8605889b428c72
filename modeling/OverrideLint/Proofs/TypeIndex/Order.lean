import Mathlib.Data.List.Induction
import OverrideLint.Proofs.TypeIndex.Memory

/-! What an index answers depends on what it was told and, for each name, on the order in
which the origins of that name were first met. In which order anything else was declared,
and how often, makes no difference. -/
namespace OverrideLint

structure Declaration.Alike (entry other : Declaration) : Prop where
  key : entry.key = other.key
  members : ∀ name, name ∈ entry.members ↔ name ∈ other.members
  bases : ∀ name, name ∈ entry.bases ↔ name ∈ other.bases

theorem Declaration.Alike.symm {entry other : Declaration} (h : entry.Alike other) :
    other.Alike entry :=
  ⟨h.key.symm, fun name => (h.members name).symm, fun name => (h.bases name).symm⟩

def mentions (declared : List Declaration) (name : WideString) : List String :=
  (declared.filter (·.name == name)).map (·.origin)

def originsOf (declared : List Declaration) (name : WideString) : List String :=
  (mentions declared name).eraseDups

private theorem mem_mentions {declared : List Declaration} {name : WideString} {origin : String} :
    origin ∈ mentions declared name ↔ ∃ entry ∈ declared, entry.key = (name, origin) := by
  simp [mentions, Declaration.key, and_assoc]

private theorem mentions_append (declared later : List Declaration) (name : WideString) :
    mentions (declared ++ later) name = mentions declared name ++ mentions later name := by
  simp [mentions]

private theorem eraseDups_of_met {known again : List String} (later : List String)
    (h : ∀ origin ∈ again, origin ∈ known) :
    (known ++ (again ++ later)).eraseDups = (known ++ later).eraseDups := by
  have hnone : again.removeAll known = [] := by
    apply List.filter_eq_nil_iff.2
    simpa using h
  have hrest : (again ++ later).removeAll known = later.removeAll known := by
    rw [List.removeAll, List.filter_append]
    exact congrArg (· ++ later.removeAll known) hnone
  rw [List.eraseDups_append, List.eraseDups_append, hrest]

private theorem originsOf_of_met {declared again : List Declaration} (later : List Declaration)
    (name : WideString) (hmet : ∀ entry ∈ again, ∃ other ∈ declared, other.key = entry.key) :
    originsOf (declared ++ (again ++ later)) name = originsOf (declared ++ later) name := by
  simp only [originsOf, mentions_append]
  apply eraseDups_of_met
  intro origin horigin
  obtain ⟨entry, hentry, hkey⟩ := mem_mentions.1 horigin
  exact mem_mentions.2 (hkey ▸ hmet entry hentry)

namespace DeclarationTable

def merge (table : DeclarationTable) (entry : Declaration) : DeclarationTable :=
  table.declare entry.name entry.origin entry.members entry.bases

def ofDeclared (declared : List Declaration) : DeclarationTable := declared.foldl merge []

section Records

variable {table : DeclarationTable} {declared : List Declaration} {entry : Declaration}

/-- The entries of a name stand in the order of its origins. -/
def Ordered (table : DeclarationTable) (declared : List Declaration) : Prop :=
  ∀ name, (table.named name).map (·.origin) = originsOf declared name

def Collects (names : Declaration → List WideString) (table : DeclarationTable)
    (declared : List Declaration) : Prop :=
  ∀ entry ∈ table, ∀ name,
    name ∈ names entry ↔ ∃ other ∈ declared, other.key = entry.key ∧ name ∈ names other

theorem Ordered.exists_key_iff (h : table.Ordered declared) (key : WideString × String) :
    (∃ entry ∈ table, entry.key = key) ↔ ∃ other ∈ declared, other.key = key := by
  obtain ⟨name, origin⟩ := key
  refine Iff.trans ?_ mem_mentions
  rw [← List.mem_eraseDups, ← originsOf, ← h name]
  simp [named, Declaration.key, and_assoc]

private theorem any_key_iff {key : WideString × String} :
    table.any (·.key == key) = true ↔ ∃ entry ∈ table, entry.key = key := by
  simp

private theorem merge_of_known (h : table.any (·.key == entry.key) = true) :
    table.merge entry = table.map fun other =>
      if other.key == entry.key then other.extend entry.members entry.bases else other :=
  if_pos h

private theorem merge_of_new (h : ¬ table.any (·.key == entry.key) = true) :
    table.merge entry =
      table ++ [Declaration.extend ⟨entry.name, entry.origin, [], []⟩ entry.members entry.bases] :=
  if_neg h

private theorem map_origin_named (table : DeclarationTable) (name : WideString) :
    (table.named name).map (·.origin) =
      ((table.map Declaration.key).filter (·.1 == name)).map (·.2) := by
  simp [named, List.filter_map, Function.comp_def, Declaration.key]

theorem Ordered.merge_known (h : table.Ordered declared)
    (hknown : table.any (·.key == entry.key) = true) :
    (table.merge entry).Ordered (declared ++ [entry]) := by
  intro name
  have hmet : ∃ other ∈ declared, other.key = entry.key :=
    (h.exists_key_iff entry.key).1 (any_key_iff.1 hknown)
  have hagain : ∀ other ∈ [entry], ∃ earlier ∈ declared, earlier.key = other.key := by
    simpa using hmet
  have horigins := originsOf_of_met [] name hagain
  rw [List.append_nil, List.append_nil] at horigins
  have hkeys : (table.merge entry).map Declaration.key = table.map Declaration.key :=
    map_key_declare_of_known entry.members entry.bases hknown
  rw [horigins, ← h name, map_origin_named, map_origin_named, hkeys]

theorem Ordered.merge_new (h : table.Ordered declared)
    (hnew : ¬ table.any (·.key == entry.key) = true) :
    (table.merge entry).Ordered (declared ++ [entry]) := by
  intro name
  have hnamed := h name
  simp only [originsOf, named] at hnamed
  rw [merge_of_new hnew, originsOf, mentions_append]
  by_cases hname : entry.name = name
  · subst hname
    have hfresh : entry.origin ∉ mentions declared entry.name := by
      intro hmet
      exact hnew (any_key_iff.2 ((h.exists_key_iff entry.key).2 (mem_mentions.1 hmet)))
    have hown : mentions [entry] entry.name = [entry.origin] := by simp [mentions]
    simp [hown, named, Declaration.extend, List.eraseDups_append, List.eraseDups_cons,
      List.removeAll, hnamed, hfresh]
  · have hown : mentions [entry] name = [] := by simp [mentions, hname]
    simp [hown, named, Declaration.extend, hname, hnamed]

theorem Collects.merge {names : Declaration → List WideString} (hordered : table.Ordered declared)
    (h : table.Collects names declared) (entry : Declaration)
    (hextend : ∀ known : Declaration, ∀ name,
      name ∈ names (known.extend entry.members entry.bases) ↔
        name ∈ names known ∨ name ∈ names entry)
    (hblank : names ⟨entry.name, entry.origin, [], []⟩ = []) :
    (table.merge entry).Collects names (declared ++ [entry]) := by
  intro found hfound name
  simp only [List.mem_append, List.mem_singleton, or_and_right, exists_or, exists_eq_left]
  by_cases hknown : table.any (·.key == entry.key) = true
  · rw [merge_of_known hknown] at hfound
    obtain ⟨other, hother, rfl⟩ := List.mem_map.1 hfound
    by_cases hkey : other.key = entry.key
    · simp [hkey, hextend, h other hother]
    · simp [hkey, h other hother, Ne.symm hkey]
  · rw [merge_of_new hknown, List.mem_append, List.mem_singleton] at hfound
    rw [any_key_iff] at hknown
    rcases hfound with hfound | rfl
    · have hkey : entry.key ≠ found.key := fun hkey => hknown ⟨found, hfound, hkey.symm⟩
      simp [h found hfound, hkey]
    · have hnone : ¬ ∃ other ∈ declared, other.key = entry.key ∧ name ∈ names other := by
        rintro ⟨other, hother, hkey, _⟩
        exact hknown ((hordered.exists_key_iff entry.key).2 ⟨other, hother, hkey⟩)
      have hkey : (Declaration.extend ⟨entry.name, entry.origin, [], []⟩ entry.members
          entry.bases).key = entry.key := rfl
      simp [hextend, hblank, hkey, hnone]

structure Records (table : DeclarationTable) (declared : List Declaration) : Prop where
  distinctKeys : table.DistinctKeys
  ordered : table.Ordered declared
  members : table.Collects Declaration.members declared
  bases : table.Collects Declaration.bases declared

theorem Records.merge (h : table.Records declared) (entry : Declaration) :
    (table.merge entry).Records (declared ++ [entry]) where
  distinctKeys := h.distinctKeys.declare ..
  ordered := by
    by_cases hknown : table.any (·.key == entry.key) = true
    · exact h.ordered.merge_known hknown
    · exact h.ordered.merge_new hknown
  members := h.members.merge h.ordered entry (fun _ _ => mem_addNames) rfl
  bases := h.bases.merge h.ordered entry (fun _ _ => mem_addNames) rfl

theorem records_ofDeclared (declared : List Declaration) :
    (ofDeclared declared).Records declared := by
  induction declared using List.reverseRecOn with
  | nil => exact ⟨List.nodup_nil, fun _ => rfl, nofun, nofun⟩
  | append_singleton declared entry ih =>
    rw [ofDeclared, List.foldl_concat]
    exact ih.merge entry

end Records

section Alike

variable {table other : DeclarationTable} {declared told : List Declaration}

/-- The same declarations, with the origins of each name in the same order. -/
structure SameDeclared (declared told : List Declaration) : Prop where
  mem_iff : ∀ entry, entry ∈ declared ↔ entry ∈ told
  origins : ∀ name, originsOf declared name = originsOf told name

theorem SameDeclared.symm (h : SameDeclared declared told) : SameDeclared told declared :=
  ⟨fun entry => (h.mem_iff entry).symm, fun name => (h.origins name).symm⟩

private theorem map_key_named (table : DeclarationTable) (name : WideString) :
    (table.named name).map Declaration.key = ((table.named name).map (·.origin)).map (name, ·) := by
  rw [List.map_map]
  apply List.map_congr_left
  intro entry hentry
  have hname : entry.name = name := by simpa using (List.mem_filter.1 hentry).2
  simp [Declaration.key, hname]

private theorem map_key_candidates
    (h : ∀ name, (table.named name).map (·.origin) = (other.named name).map (·.origin))
    (name : WideString) :
    (table.candidates name).map Declaration.key = (other.candidates name).map Declaration.key := by
  have hkeys (name : WideString) :
      (table.named name).map Declaration.key = (other.named name).map Declaration.key := by
    rw [map_key_named, map_key_named, h]
  have hempty : (table.named name).isEmpty = (other.named name).isEmpty := by
    simpa using congrArg List.isEmpty (hkeys name)
  unfold candidates
  rw [hempty]
  split
  · split
    · exact hkeys _
    · rfl
  · exact hkeys name

private theorem map_key_lookup? (table : DeclarationTable) (name : WideString) (origin : String) :
    (table.lookup? name origin).map Declaration.key =
      (((table.candidates name).map Declaration.key).find? (·.2 == origin)).or
        ((table.candidates name).map Declaration.key).head? := by
  rw [List.find?_map, List.head?_map, ← Option.map_or]
  rfl

private theorem lookup?_alike (hrecords : table.Records declared) (hother : other.Records told)
    (hsame : SameDeclared declared told) (name : WideString) (origin : String) :
    Option.Rel Declaration.Alike (table.lookup? name origin) (other.lookup? name origin) := by
  have hkeys : (table.lookup? name origin).map Declaration.key =
      (other.lookup? name origin).map Declaration.key := by
    rw [map_key_lookup?, map_key_lookup?, map_key_candidates]
    intro name
    rw [hrecords.ordered, hother.ordered, hsame.origins]
  cases hfound : table.lookup? name origin with
  | none =>
    have hnone : other.lookup? name origin = none := by simpa [hfound] using hkeys.symm
    rw [hnone]
    exact .none
  | some entry =>
    rw [hfound, Option.map_some] at hkeys
    obtain ⟨found, hlookup, hkey⟩ := Option.map_eq_some_iff.1 hkeys.symm
    have hentry := mem_of_lookup? hfound
    have hmem := mem_of_lookup? hlookup
    rw [hlookup]
    refine .some ⟨hkey.symm, fun name => ?_, fun name => ?_⟩
    · simp [hrecords.members entry hentry, hother.members found hmem, hkey, hsame.mem_iff]
    · simp [hrecords.bases entry hentry, hother.bases found hmem, hkey, hsame.mem_iff]

theorem Inherits.alike (hrecords : table.Records declared) (hother : other.Records told)
    (hsame : SameDeclared declared told) {entry found ancestor : Declaration}
    (hentry : entry.Alike found) (h : table.Inherits entry ancestor) :
    ∃ reached, other.Inherits found reached ∧ ancestor.Alike reached := by
  induction h with
  | refl => exact ⟨found, .refl, hentry⟩
  | @tail middle base _ hstep ih =>
    obtain ⟨reached, hpath, halike⟩ := ih
    obtain ⟨name, hname, hlookup⟩ := hstep
    have hrel := lookup?_alike hrecords hother hsame name middle.origin
    rw [hlookup] at hrel
    cases hfound : other.lookup? name middle.origin with
    | none =>
      rw [hfound] at hrel
      cases hrel
    | some next =>
      rw [hfound] at hrel
      have horigin : middle.origin = reached.origin := congrArg Prod.snd halike.key
      refine ⟨next, hpath.tail ⟨name, (halike.bases name).1 hname, horigin ▸ hfound⟩, ?_⟩
      cases hrel with
      | some halike => exact halike

def SameAnswer : Option ResolvedType → Option ResolvedType → Prop :=
  Option.Rel fun type other =>
    type.name = other.name ∧ ∀ member, type.declares member = other.declares member

theorem typeOf?_same (hrecords : table.Records declared) (hother : other.Records told)
    (hsame : SameDeclared declared told) (name : WideString) (origin : String) :
    SameAnswer (table.typeOf? name origin) (other.typeOf? name origin) := by
  have hrel := lookup?_alike hrecords hother hsame name origin
  unfold typeOf?
  cases hfound : table.lookupEntry? name origin with
  | none =>
    rw [lookupEntry?_eq_none.1 hfound] at hrel
    have hother : other.lookupEntry? name origin = none := by
      rw [lookupEntry?_eq_none]
      cases hlookup : other.lookup? name origin with
      | none => rfl
      | some entry =>
        rw [hlookup] at hrel
        cases hrel
    rw [hother]
    exact .none
  | some entry =>
    rw [lookupEntry?_eq_some.1 hfound] at hrel
    cases hlookup : other.lookupEntry? name origin with
    | none =>
      rw [lookupEntry?_eq_none.1 hlookup] at hrel
      cases hrel
    | some found =>
      rw [lookupEntry?_eq_some.1 hlookup] at hrel
      have halike : entry.1.Alike found.1 := by
        cases hrel with
        | some halike => exact halike
      refine .some ⟨congrArg Prod.fst halike.key, fun member => ?_⟩
      rw [ResolvedType.declares, ResolvedType.declares, Bool.eq_iff_iff, List.contains_iff_mem,
        List.contains_iff_mem, mem_inherited_iff hrecords.distinctKeys,
        mem_inherited_iff hother.distinctKeys]
      constructor
      · rintro ⟨ancestor, hpath, hmember⟩
        obtain ⟨reached, hreached, hsame⟩ := hpath.alike hrecords hother hsame halike
        exact ⟨reached, hreached, (hsame.members member).1 hmember⟩
      · rintro ⟨ancestor, hpath, hmember⟩
        obtain ⟨reached, hreached, hsame⟩ := hpath.alike hother hrecords hsame.symm halike.symm
        exact ⟨reached, hreached, (hsame.members member).1 hmember⟩

end Alike
end DeclarationTable

def TypeOutline.declaration (origin : String) (outline : TypeOutline) : Declaration :=
  ⟨outline.name, origin, outline.members, outline.bases⟩

namespace TypeIndex

open DeclarationTable (SameAnswer SameDeclared merge ofDeclared)

def Operation.declared : Operation → List Declaration
  | declare name origin members bases => [⟨name, origin, members, bases⟩]
  | loadStubs origin stubs => (TypeOutline.ofStubs stubs).1.map (TypeOutline.declaration origin)
  | addSource source => source.declared.map (TypeOutline.declaration source.file)
  | resolveName .. => []
  | resolve _ => []
  | contains _ => []

def declaredBy (operations : List Operation) : List Declaration :=
  operations.flatMap Operation.declared

theorem Operation.table_anew (operation : Operation) (table : DeclarationTable) :
    (operation.anew table).2 = operation.declared.foldl merge table := by
  cases operation with
  | loadStubs origin stubs =>
    rw [declared, List.foldl_map]
    rfl
  | addSource source =>
    rw [declared, List.foldl_map]
    rfl
  | _ => rfl

theorem table_anew (operations : List Operation) (table : DeclarationTable) :
    (anew operations table).2 = (declaredBy operations).foldl merge table := by
  induction operations generalizing table with
  | nil => rfl
  | cons operation rest ih =>
    rw [anew, ih, operation.table_anew, ← List.foldl_append]
    rfl

theorem Coherent.run {index : TypeIndex} (h : index.Coherent) (operations : List Operation) :
    ((TypeIndex.perform operations).run index).value.2.Coherent := by
  induction operations generalizing index with
  | nil => exact h
  | cons operation rest ih => exact ih (h.perform operation).1

def answerAfter (operations : List Operation) (name : WideString) (origin : String) :
    Option ResolvedType :=
  ((resolveName name origin).run ((perform operations).run TypeIndex.empty).value.2).value.1

private theorem answerAfter_eq (operations : List Operation) (name : WideString) (origin : String) :
    answerAfter operations name origin =
      (ofDeclared (declaredBy operations)).typeOf? name origin := by
  rw [answerAfter, (Coherent.empty.run operations).value_resolveName,
    DeclarationTable.value_resolve, (Coherent.empty.performAll operations).2, table_anew]
  rfl

private theorem answerAfter_same {first second : List Operation}
    (h : SameDeclared (declaredBy first) (declaredBy second)) (name : WideString) (origin : String) :
    SameAnswer (answerAfter first name origin) (answerAfter second name origin) := by
  rw [answerAfter_eq, answerAfter_eq]
  exact DeclarationTable.typeOf?_same (DeclarationTable.records_ofDeclared _)
    (DeclarationTable.records_ofDeclared _) h name origin

/-- Operations that declare the same things in different orders lead to the same answers, as
long as the origins of each name are first met in the same order; and to declare once more what
was declared before changes no answer. -/
theorem answerAfter_order_free :
    (∀ first second : List Operation,
      (declaredBy first).Perm (declaredBy second) →
      (∀ name, originsOf (declaredBy first) name = originsOf (declaredBy second) name) →
      ∀ name origin,
        SameAnswer (answerAfter first name origin) (answerAfter second name origin)) ∧
    (∀ (before : List Operation) (again : Operation) (after : List Operation),
      (∀ entry ∈ again.declared, entry ∈ declaredBy before) →
      ∀ name origin,
        SameAnswer (answerAfter (before ++ again :: after) name origin)
          (answerAfter (before ++ after) name origin)) := by
  constructor
  · intro first second hperm horder
    exact answerAfter_same ⟨fun entry => hperm.mem_iff, horder⟩
  · intro before again after hagain
    have hsplit : declaredBy (before ++ again :: after) =
        declaredBy before ++ (again.declared ++ declaredBy after) := by
      simp [declaredBy]
    have hrest : declaredBy (before ++ after) = declaredBy before ++ declaredBy after := by
      simp [declaredBy]
    refine answerAfter_same ⟨fun entry => ?_, fun name => ?_⟩
    · rw [hsplit, hrest]
      simp only [List.mem_append]
      have := hagain entry
      tauto
    · rw [hsplit, hrest]
      exact originsOf_of_met _ name fun entry hentry => ⟨entry, hagain entry hentry, rfl⟩

def tangled : List Operation :=
  [.declare "Base" "a.ts" ["m"] ["lib.Mixin"], .declare "Base" "b.ts" ["o"] [],
    .loadStubs "<config>" [("Mixin", .array [.string "p"])],
    .declare "Derived" "b.ts" ["n"] ["Unknown", "Base"], .declare "Base" "a.ts" ["q"] ["Derived"]]

def untangled : List Operation :=
  [.declare "Base" "a.ts" ["q"] ["Derived"], .declare "Derived" "b.ts" ["n"] ["Unknown", "Base"],
    .resolveName "Base" "a.ts", .loadStubs "<config>" [("Mixin", .array [.string "p"])],
    .declare "Base" "b.ts" ["o"] [], .declare "Base" "a.ts" ["m"] ["lib.Mixin"]]

private def tangledNames : List WideString := ["Base", "Mixin", "Derived"]

theorem answerAfter_order_free_tangled :
    (declaredBy tangled).Perm (declaredBy untangled) ∧
      (∀ name, originsOf (declaredBy tangled) name = originsOf (declaredBy untangled) name) ∧
      SameAnswer (answerAfter tangled "Base" "c.ts") (answerAfter untangled "Base" "c.ts") ∧
      SameAnswer (answerAfter (tangled ++ [.declare "Base" "b.ts" ["o"] []]) "Base" "c.ts")
        (answerAfter (tangled ++ []) "Base" "c.ts") ∧
      (answerAfter tangled "Base" "c.ts").map (·.name) = some "Base" := by
  have hperm : (declaredBy tangled).Perm (declaredBy untangled) := by decide +kernel
  have horder : ∀ name,
      originsOf (declaredBy tangled) name = originsOf (declaredBy untangled) name := by
    intro name
    by_cases hname : name ∈ tangledNames
    · revert name
      decide +kernel
    · have hnone (declared : List Declaration)
          (h : ∀ entry ∈ declared, entry.name ∈ tangledNames) :
          originsOf declared name = [] := by
        have hempty : mentions declared name = [] := by
          apply List.eq_nil_iff_forall_not_mem.2
          intro origin horigin
          obtain ⟨entry, hentry, hkey⟩ := mem_mentions.1 horigin
          have hown : entry.name = name := congrArg Prod.fst hkey
          exact hname (hown ▸ h entry hentry)
        simp [originsOf, hempty]
      rw [hnone _ (by decide +kernel), hnone _ (by decide +kernel)]
  refine ⟨hperm, horder, answerAfter_order_free.1 _ _ hperm horder _ _,
    answerAfter_order_free.2 _ _ _ ?_ _ _, ?_⟩
  · decide +kernel
  · decide +kernel

end TypeIndex
end OverrideLint
