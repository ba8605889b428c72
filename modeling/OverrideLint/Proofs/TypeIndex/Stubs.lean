import OverrideLint.Proofs.Json.Fields
import OverrideLint.Proofs.TypeIndex.Memory

/-! Which stubs are accepted, what they declare, and how the others are refused. Names are
taken from whatever can be gone through item by item: an array of strings, but also a string
or an object. -/
namespace OverrideLint

namespace Json

/-- What is taken for a list of names: an array of strings, the code points of a string, the keys
of an object. -/
def Lists : Json → List WideString → Prop
  | array items, names => items = names.map string
  | string text, names => names = text.points.map fun point => ⟨[point]⟩
  | object fields, names => names = fields.map Prod.fst
  | _, _ => False

inductive IsAtom : Json → Prop
  | null : IsAtom Json.null
  | bool (value : Bool) : IsAtom (Json.bool value)
  | int (value : Int) : IsAtom (Json.int value)
  | real (literal : String) : IsAtom (Json.real literal)

theorem Lists.unique {value : Json} {names others : List WideString} (h : value.Lists names)
    (h' : value.Lists others) : names = others := by
  cases value with
  | array items =>
    have hinjective : Function.Injective string := fun _ _ heq => string.inj heq
    exact hinjective.list_map (h.symm.trans h')
  | string text => exact h.trans h'.symm
  | object fields => exact h.trans h'.symm
  | _ => exact h.elim

theorem mapM_asString?_map {α : Type} (f : α → WideString) (items : List α) :
    (items.map fun item => string (f item)).mapM asString? = some (items.map f) := by
  rw [mapM_asString?_eq_some_iff, List.map_map]
  rfl

end Json

namespace TypeOutline

open Json (Lists IsAtom)

private theorem names_cases (stub : WideString) (value : Json) :
    (∃ found, names stub value = .ok found ∧ Lists value found) ∨
      (IsAtom value ∧ names stub value = .error (.notAListing value.kindName)) ∨
      (∃ items, value = .array items ∧ (∀ found, ¬ Lists value found)) ∧
        names stub value = .error (.notNames stub) := by
  cases value with
  | null => exact .inr (.inl ⟨.null, rfl⟩)
  | bool b => exact .inr (.inl ⟨.bool b, rfl⟩)
  | int n => exact .inr (.inl ⟨.int n, rfl⟩)
  | real literal => exact .inr (.inl ⟨.real literal, rfl⟩)
  | string text =>
    refine .inl ⟨_, ?_, rfl⟩
    simp only [names, Json.listing?, Json.mapM_asString?_map]
  | object fields =>
    refine .inl ⟨_, ?_, rfl⟩
    simp only [names, Json.listing?, Json.mapM_asString?_map]
  | array items =>
    cases hitems : items.mapM Json.asString? with
    | some found =>
      exact .inl ⟨found, by simp only [names, Json.listing?, hitems],
        Json.mapM_asString?_eq_some_iff.1 hitems⟩
    | none =>
      refine .inr (.inr ⟨⟨items, rfl, ?_⟩, by simp only [names, Json.listing?, hitems]⟩)
      intro found hlists
      rw [Json.mapM_asString?_eq_some_iff.2 hlists] at hitems
      cases hitems

def FieldLists (lists : Json → List WideString → Prop) (fields : List (WideString × Json))
    (key : WideString) (names : List WideString) : Prop :=
  match fields.lookup key with
  | none => names = []
  | some value => lists value names

def FieldFaults (fields : List (WideString × Json)) (key : WideString) : Prop :=
  ∃ value, fields.lookup key = some value ∧ IsAtom value

/-- A body that gives the members and the bases of a type: the array of the member names, or an
object with both in fields that may be missing. -/
def Outlines (lists : Json → List WideString → Prop) (body : Json)
    (members bases : List WideString) : Prop :=
  match body with
  | .array items => items = members.map .string ∧ bases = []
  | .object fields =>
    FieldLists lists fields "members" members ∧ FieldLists lists fields "extends" bases
  | _ => False

def Outlined (lists : Json → List WideString → Prop) (body : Json) : Prop :=
  ∃ members bases, Outlines lists body members bases

/-- A body with a field that faults. The bases are looked for once the members are found. -/
def Faults (body : Json) : Prop :=
  match body with
  | .object fields =>
    FieldFaults fields "members" ∨
      (∃ members, FieldLists Lists fields "members" members) ∧ FieldFaults fields "extends"
  | _ => False

private theorem fieldNames_cases (stub : WideString) (fields : List (WideString × Json))
    (key : WideString) :
    (∃ found, fieldNames stub fields key = .ok found ∧ FieldLists Lists fields key found) ∨
      (∃ kind, fieldNames stub fields key = .error (.notAListing kind)) ∧ FieldFaults fields key ∨
      fieldNames stub fields key = .error (.notNames stub) ∧ ¬ FieldFaults fields key ∧
        ∀ found, ¬ FieldLists Lists fields key found := by
  unfold fieldNames FieldLists FieldFaults
  cases hvalue : fields.lookup key with
  | none => exact .inl ⟨[], rfl, rfl⟩
  | some value =>
    rcases names_cases stub value with hfound | ⟨hatom, herror⟩ | ⟨⟨items, rfl, hnone⟩, herror⟩
    · exact .inl hfound
    · exact .inr (.inl ⟨⟨_, herror⟩, value, rfl, hatom⟩)
    · refine .inr (.inr ⟨herror, ?_, hnone⟩)
      rintro ⟨_, ⟨⟩, hatom⟩
      cases hatom

theorem FieldLists.unique {fields : List (WideString × Json)} {key : WideString}
    {found other : List WideString}
    (h : FieldLists Lists fields key found) (h' : FieldLists Lists fields key other) :
    found = other := by
  unfold FieldLists at h h'
  cases hvalue : fields.lookup key with
  | none =>
    rw [hvalue] at h h'
    exact h.trans h'.symm
  | some value =>
    rw [hvalue] at h h'
    exact h.unique h'

theorem FieldFaults.not_lists {fields : List (WideString × Json)} {key : WideString}
    (h : FieldFaults fields key) (found : List WideString) :
    ¬ FieldLists Lists fields key found := by
  obtain ⟨value, hvalue, hatom⟩ := h
  rw [FieldLists, hvalue]
  cases hatom <;> exact id

theorem Outlines.unique {body : Json} {members bases others more : List WideString}
    (h : Outlines Lists body members bases) (h' : Outlines Lists body others more) :
    members = others ∧ bases = more := by
  cases body with
  | array items =>
    have hlists : (Json.array items).Lists members := h.1
    exact ⟨hlists.unique h'.1, h.2.trans h'.2.symm⟩
  | object fields => exact ⟨h.1.unique h'.1, h.2.unique h'.2⟩
  | _ => exact h.elim

theorem Outlines.exists_iff {body : Json} {members bases : List WideString}
    (h : Outlines Lists body members bases) (holds : List WideString → List WideString → Prop) :
    (∃ others more, Outlines Lists body others more ∧ holds others more) ↔ holds members bases := by
  constructor
  · rintro ⟨others, more, h', hholds⟩
    obtain ⟨rfl, rfl⟩ := h.unique h'
    exact hholds
  · exact fun hholds => ⟨members, bases, h, hholds⟩

theorem ofStub_cases (name : WideString) (body : Json) :
    (∃ outline, ofStub name body = .ok outline ∧ outline.name = name ∧
      Outlines Lists body outline.members outline.bases) ∨
    ∃ error, ofStub name body = .error error ∧ ¬ Outlined Lists body ∧
      (Faults body ∧ error.problem? = none ∨
        ¬ Faults body ∧ error.problem? = some (.config error.message)) := by
  cases body with
  | array items =>
    rcases names_cases name (.array items) with ⟨found, hfound, hlists⟩ | ⟨hatom, _⟩ |
      ⟨⟨_, _, hnone⟩, herror⟩
    · exact .inl ⟨⟨name, found, []⟩, by rw [ofStub, hfound]; rfl, rfl, hlists, rfl⟩
    · cases hatom
    · refine .inr ⟨.notNames name, by rw [ofStub, herror]; rfl, ?_, .inr ⟨id, rfl⟩⟩
      exact fun ⟨members, _, h⟩ => hnone members h.1
  | object fields =>
    rcases fieldNames_cases name fields "members" with
      ⟨members, hmembers, hlists⟩ | ⟨⟨kind, herror⟩, hfaults⟩ | ⟨herror, hsound, hnone⟩
    · rcases fieldNames_cases name fields "extends" with
        ⟨bases, hbases, hbaseLists⟩ | ⟨⟨kind, herror⟩, hfaults⟩ | ⟨herror, hsound, hnone⟩
      · refine .inl ⟨⟨name, members, bases⟩, ?_, rfl, hlists, hbaseLists⟩
        rw [ofStub, hmembers, hbases]
        rfl
      · refine .inr ⟨.notAListing kind, ?_, ?_, .inl ⟨.inr ⟨⟨members, hlists⟩, hfaults⟩, rfl⟩⟩
        · rw [ofStub, hmembers, herror]
          rfl
        · exact fun ⟨_, bases, h⟩ => hfaults.not_lists bases h.2
      · refine .inr ⟨.notNames name, ?_, ?_, .inr ⟨?_, rfl⟩⟩
        · rw [ofStub, hmembers, herror]
          rfl
        · exact fun ⟨_, bases, h⟩ => hnone bases h.2
        · rintro (hfaults | ⟨-, hfaults⟩)
          · exact hfaults.not_lists members hlists
          · exact hsound hfaults
    · refine .inr ⟨.notAListing kind, by rw [ofStub, herror]; rfl, ?_, .inl ⟨.inl hfaults, rfl⟩⟩
      exact fun ⟨members, _, h⟩ => hfaults.not_lists members h.1
    · refine .inr ⟨.notNames name, by rw [ofStub, herror]; rfl, ?_, .inr ⟨?_, rfl⟩⟩
      · exact fun ⟨members, _, h⟩ => hnone members h.1
      · rintro (hfaults | ⟨⟨members, hlists⟩, -⟩)
        · exact hsound hfaults
        · exact hnone members hlists
  | _ => exact .inr ⟨.notAnObject name, rfl, fun ⟨_, _, h⟩ => h, .inr ⟨id, rfl⟩⟩

def nameKeys : List WideString := ["members", "extends"]

def OnlyArrays (body : Json) : Prop :=
  match body with
  | .object fields => ∀ key ∈ nameKeys, ∀ value, fields.lookup key = some value →
    ∃ items, value = .array items
  | _ => True

private theorem fieldLists_of_array {fields : List (WideString × Json)} {key : WideString}
    (h : ∀ value, fields.lookup key = some value → ∃ items, value = .array items)
    (found : List WideString) :
    FieldLists Lists fields key found ↔ FieldLists Json.IsNames fields key found := by
  unfold FieldLists
  cases hvalue : fields.lookup key with
  | none => rfl
  | some value =>
    obtain ⟨items, rfl⟩ := h value hvalue
    exact ⟨congrArg Json.array, Json.array.inj⟩

private theorem not_fieldFaults_of_array {fields : List (WideString × Json)} {key : WideString}
    (h : ∀ value, fields.lookup key = some value → ∃ items, value = .array items) :
    ¬ FieldFaults fields key := by
  rintro ⟨value, hvalue, hatom⟩
  obtain ⟨items, rfl⟩ := h value hvalue
  cases hatom

theorem OnlyArrays.outlined_iff {body : Json} (h : OnlyArrays body) :
    Outlined Lists body ↔ Outlined Json.IsNames body := by
  cases body with
  | object fields =>
    apply exists_congr
    intro members
    apply exists_congr
    intro bases
    exact and_congr (fieldLists_of_array (h _ (by simp [nameKeys])) members)
      (fieldLists_of_array (h _ (by simp [nameKeys])) bases)
  | _ => rfl

theorem OnlyArrays.not_faults {body : Json} (h : OnlyArrays body) : ¬ Faults body := by
  cases body with
  | object fields =>
    rintro (hfaults | ⟨-, hfaults⟩)
    · exact not_fieldFaults_of_array (h _ (by simp [nameKeys])) hfaults
    · exact not_fieldFaults_of_array (h _ (by simp [nameKeys])) hfaults
  | _ => exact id

end TypeOutline

namespace DeclarationTable

variable {table later : DeclarationTable} {origin : String}

def Tells (table : DeclarationTable) (key : WideString × String)
    (holds : Declaration → Prop) : Prop :=
  ∃ entry ∈ table, entry.key = key ∧ holds entry

/-- Whatever an extension adds to an entry, a declaration adds to a table, under its own key. -/
theorem tells_declare (table : DeclarationTable) (name : WideString) (origin : String)
    {members bases : List WideString} {holds : Declaration → Prop} {added : Prop}
    (hextend : ∀ known : Declaration, holds (known.extend members bases) ↔ holds known ∨ added)
    (hblank : holds ⟨name, origin, [], []⟩ → added) (key : WideString × String) :
    (table.declare name origin members bases).Tells key holds ↔
      table.Tells key holds ∨ key = (name, origin) ∧ added := by
  unfold Tells declare
  split
  · rename_i hknown
    have hentry (entry : Declaration) :
        (if entry.key == (name, origin) then entry.extend members bases else entry).key = key ∧
            holds (if entry.key == (name, origin) then entry.extend members bases else entry) ↔
          entry.key = key ∧ holds entry ∨ entry.key = key ∧ key = (name, origin) ∧ added := by
      by_cases hkey : entry.key = (name, origin)
      · rw [if_pos (beq_iff_eq.2 hkey), Declaration.key_extend, hextend]
        grind
      · rw [if_neg (by simpa using hkey)]
        grind
    simp only [List.mem_map, exists_exists_and_eq_and, hentry, and_or_left, exists_or]
    apply or_congr_right
    constructor
    · rintro ⟨entry, _, _, hadded⟩
      exact hadded
    · rintro ⟨rfl, hadded⟩
      obtain ⟨entry, hentry, hkey⟩ := List.any_eq_true.1 hknown
      exact ⟨entry, hentry, beq_iff_eq.1 hkey, rfl, hadded⟩
  · have hblank' : holds (Declaration.extend ⟨name, origin, [], []⟩ members bases) ↔ added := by
      rw [hextend]
      exact ⟨fun h => h.elim hblank id, .inr⟩
    simp only [List.mem_append, List.mem_singleton, or_and_right, exists_or, exists_eq_left,
      hblank', Declaration.key_extend, eq_comm (b := key)]
    rfl

open TypeOutline (Outlines)

structure Adds (table later : DeclarationTable) (origin : String)
    (stubs : List (WideString × Json)) : Prop where
  keys : ∀ key, later.Tells key (fun _ => True) ↔
    table.Tells key (fun _ => True) ∨ ∃ stub ∈ stubs, key = (stub.1, origin)
  members : ∀ key member, later.Tells key (member ∈ ·.members) ↔
    table.Tells key (member ∈ ·.members) ∨ ∃ stub ∈ stubs, key = (stub.1, origin) ∧
      ∃ members bases, Outlines Json.Lists stub.2 members bases ∧ member ∈ members
  bases : ∀ key base, later.Tells key (base ∈ ·.bases) ↔
    table.Tells key (base ∈ ·.bases) ∨ ∃ stub ∈ stubs, key = (stub.1, origin) ∧
      ∃ members bases, Outlines Json.Lists stub.2 members bases ∧ base ∈ bases

theorem adds_nil (table : DeclarationTable) (origin : String) : Adds table table origin [] := by
  constructor <;> simp

theorem adds_declare (table : DeclarationTable) (origin : String) (name : WideString) {body : Json}
    {members bases : List WideString} (h : Outlines Json.Lists body members bases) :
    Adds table (table.declare name origin members bases) origin [(name, body)] where
  keys key := by
    rw [tells_declare table name origin (by simp) fun _ => trivial]
    simp
  members key member := by
    rw [tells_declare table name origin (fun _ => mem_addNames) (by simp)]
    simp only [List.mem_singleton, exists_eq_left, h.exists_iff]
  bases key base := by
    rw [tells_declare table name origin (fun _ => mem_addNames) (by simp)]
    simp only [List.mem_singleton, exists_eq_left, h.exists_iff]

theorem Adds.trans {last : DeclarationTable} {stubs more : List (WideString × Json)}
    (h : Adds table later origin stubs) (h' : Adds later last origin more) :
    Adds table last origin (stubs ++ more) where
  keys key := by
    rw [h'.keys, h.keys]
    simp only [List.mem_append, or_and_right, exists_or, or_assoc]
  members key member := by
    rw [h'.members, h.members]
    simp only [List.mem_append, or_and_right, exists_or, or_assoc]
  bases key base := by
    rw [h'.bases, h.bases]
    simp only [List.mem_append, or_and_right, exists_or, or_assoc]

end DeclarationTable

namespace TypeIndex

open TypeOutline (Outlined Faults OnlyArrays)

/-- The stubs are refused at the first one that gives no outline, as a fault or as a problem of
the configuration. Those before it are declared. -/
structure RefusedAt (stub : WideString × Json) (table later : DeclarationTable) (origin : String)
    (stubs : List (WideString × Json)) (error : StubError) : Prop where
  first : ∃ before after, stubs = before ++ stub :: after ∧
    (∀ earlier ∈ before, Outlined Json.Lists earlier.2) ∧ table.Adds later origin before
  refused : ¬ Outlined Json.Lists stub.2
  reported : Faults stub.2 ∧ error.problem? = none ∨
    ¬ Faults stub.2 ∧ error.problem? = some (.config error.message)

theorem RefusedAt.cons {table middle later : DeclarationTable} {origin : String}
    {stub first : WideString × Json} {stubs : List (WideString × Json)} {error : StubError}
    (h : RefusedAt stub middle later origin stubs error) (houtlined : Outlined Json.Lists first.2)
    (hadds : table.Adds middle origin [first]) :
    RefusedAt stub table later origin (first :: stubs) error where
  first := by
    obtain ⟨before, after, rfl, hbefore, hrest⟩ := h.first
    exact ⟨first :: before, after, rfl, List.forall_mem_cons.2 ⟨houtlined, hbefore⟩,
      hadds.trans hrest⟩
  refused := h.refused
  reported := h.reported

private theorem loadStubs_cases (index : TypeIndex) (origin : String)
    (stubs : List (WideString × Json)) :
    ((index.loadStubs origin stubs).2 = none ∧ (∀ stub ∈ stubs, Outlined Json.Lists stub.2) ∧
      index.table.Adds (index.loadStubs origin stubs).1.table origin stubs) ∨
    ∃ error, (index.loadStubs origin stubs).2 = some error ∧ ∃ stub ∈ stubs,
      RefusedAt stub index.table (index.loadStubs origin stubs).1.table origin stubs error := by
  induction stubs generalizing index with
  | nil => exact .inl ⟨rfl, nofun, DeclarationTable.adds_nil ..⟩
  | cons stub rest ih =>
    obtain ⟨name, body⟩ := stub
    rcases TypeOutline.ofStub_cases name body with
      ⟨outline, hread, rfl, houtlines⟩ | ⟨error, hread, hrefused, hreported⟩
    · have hload : index.loadStubs origin ((outline.name, body) :: rest) =
          (index.declareOutline origin outline).loadStubs origin rest := by
        rw [loadStubs, hread]
      have houtlined : Outlined Json.Lists body := ⟨_, _, houtlines⟩
      have hfirst : index.table.Adds (index.declareOutline origin outline).table origin
          [(outline.name, body)] :=
        DeclarationTable.adds_declare index.table origin outline.name houtlines
      rw [hload]
      rcases ih (index.declareOutline origin outline) with
        ⟨hnone, hall, hadds⟩ | ⟨error, hsome, stub, hstub, hrefused⟩
      · exact .inl ⟨hnone, List.forall_mem_cons.2 ⟨houtlined, hall⟩, hfirst.trans hadds⟩
      · exact .inr ⟨error, hsome, stub, List.mem_cons_of_mem _ hstub,
          hrefused.cons houtlined hfirst⟩
    · have hload : index.loadStubs origin ((name, body) :: rest) = (index, some error) := by
        rw [loadStubs, hread]
      rw [hload]
      exact .inr ⟨error, rfl, (name, body), List.mem_cons_self,
        ⟨[], rest, rfl, nofun, DeclarationTable.adds_nil ..⟩, hrefused, hreported⟩

private theorem loadStubs_eq_none_iff_outlined (index : TypeIndex) (origin : String)
    (stubs : List (WideString × Json)) :
    (index.loadStubs origin stubs).2 = none ↔ ∀ stub ∈ stubs, Outlined Json.Lists stub.2 := by
  rcases loadStubs_cases index origin stubs with
    ⟨hnone, hall, -⟩ | ⟨error, hsome, stub, hstub, hrefused⟩
  · exact iff_of_true hnone hall
  · apply iff_of_false
    · simp [hsome]
    · exact fun hall => hrefused.refused (hall stub hstub)

private theorem exists_refusedAt {index : TypeIndex} {origin : String}
    {stubs : List (WideString × Json)}
    {error : StubError} (h : (index.loadStubs origin stubs).2 = some error) : ∃ stub ∈ stubs,
      RefusedAt stub index.table (index.loadStubs origin stubs).1.table origin stubs error := by
  rcases loadStubs_cases index origin stubs with ⟨hnone, -⟩ | ⟨other, hsome, hrefused⟩
  · simp [hnone] at h
  · obtain rfl : other = error := Option.some.inj (hsome.symm.trans h)
    exact hrefused

/-- Stubs are loaded exactly if each of them gives an outline, and then each declares the names
that it lists and no others. Otherwise the first one that gives none is refused. The code points
of a string and the keys of an object pass for names, and a value with no items is a fault. Where
there are only arrays, stubs are loaded exactly if all the items are strings, and what is refused
is a problem of the configuration. -/
theorem loadStubs_validates (index : TypeIndex) (origin : String)
    (stubs : List (WideString × Json)) :
    ((index.loadStubs origin stubs).2 = none ↔ ∀ stub ∈ stubs, Outlined Json.Lists stub.2) ∧
      ((index.loadStubs origin stubs).2 = none →
        index.table.Adds (index.loadStubs origin stubs).1.table origin stubs) ∧
      (∀ error, (index.loadStubs origin stubs).2 = some error → ∃ stub ∈ stubs,
        RefusedAt stub index.table (index.loadStubs origin stubs).1.table origin stubs error) ∧
      ((∀ stub ∈ stubs, OnlyArrays stub.2) →
        ((index.loadStubs origin stubs).2 = none ↔
          ∀ stub ∈ stubs, Outlined Json.IsNames stub.2) ∧
        ∀ error, (index.loadStubs origin stubs).2 = some error →
          error.problem? = some (.config error.message)) := by
  have hiff := loadStubs_eq_none_iff_outlined index origin stubs
  refine ⟨hiff, ?_, fun _ => exists_refusedAt, ?_⟩
  · intro hnone
    rcases loadStubs_cases index origin stubs with ⟨-, -, hadds⟩ | ⟨error, hsome, -⟩
    · exact hadds
    · simp [hsome] at hnone
  · intro harrays
    constructor
    · rw [hiff]
      exact forall₂_congr fun stub hstub => (harrays stub hstub).outlined_iff
    · intro error hsome
      obtain ⟨stub, hstub, hrefused⟩ := exists_refusedAt hsome
      rcases hrefused.reported with ⟨hfaults, -⟩ | ⟨-, hproblem⟩
      · exact absurd hfaults (harrays stub hstub).not_faults
      · exact hproblem

def halfNamed : List (WideString × Json) :=
  [("A", .array [.string "a"]), ("B", .object [("extends", .array [.int 1])])]

theorem loadStubs_validates_halfNamed :
    (∀ stub ∈ halfNamed, OnlyArrays stub.2) ∧
      ¬ (∀ stub ∈ halfNamed, Outlined Json.IsNames stub.2) ∧
      (loadStubs {} "<config>" halfNamed).1.table = [⟨"A", "<config>", ["a"], []⟩] ∧
      ∃ error, (loadStubs {} "<config>" halfNamed).2 = some error ∧
        error.problem? = some (.config error.message) := by
  have harrays : ∀ stub ∈ halfNamed, OnlyArrays stub.2 := by
    simp only [halfNamed, List.forall_mem_cons, OnlyArrays]
    refine ⟨trivial, ?_, nofun⟩
    intro key _ value hvalue
    rw [List.lookup_cons] at hvalue
    split at hvalue <;> cases hvalue
    exact ⟨_, rfl⟩
  have hsome : (loadStubs {} "<config>" halfNamed).2 = some (.notNames "B") := by decide +kernel
  obtain ⟨hiff, hproblem⟩ := (loadStubs_validates {} "<config>" halfNamed).2.2.2 harrays
  refine ⟨harrays, ?_, by decide +kernel, _, hsome, hproblem _ hsome⟩
  rw [← hiff, hsome]
  exact nofun

/-- A string in place of the member names is taken apart into members, and a number there is a
fault and no problem of the configuration, though neither is an array of strings. -/
theorem members_not_an_array :
    (¬ Outlined Json.IsNames (.object [("members", .string "ab")]) ∧
      loadStubs {} "<config>" [("A", .object [("members", .string "ab")])] =
        ({ table := [⟨"A", "<config>", ["a", "b"], []⟩] }, none)) ∧
    ¬ Outlined Json.IsNames (.object [("members", .int 5)]) ∧
      ∃ error, (loadStubs {} "<config>" [("A", .object [("members", .int 5)])]).2 = some error ∧
        error.problem? = none := by
  refine ⟨⟨?_, rfl⟩, ?_, _, rfl, rfl⟩ <;> rintro ⟨_, _, ⟨⟩, _⟩

end TypeIndex
end OverrideLint
