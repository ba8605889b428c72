import OverrideLint.Json.Value

/-! Values as their readers take them: arrays of strings, and the fields of an object by key. -/
namespace OverrideLint.Json

def IsNames (value : Json) (names : List WideString) : Prop := value = array (names.map string)

theorem mapM_asString?_eq_some_iff {items : List Json} {names : List WideString} :
    items.mapM asString? = some names ↔ items = names.map string := by
  induction items generalizing names with
  | nil => cases names <;> simp
  | cons item rest ih =>
    rw [List.mapM_cons]
    cases item with
    | string text =>
      cases names with
      | nil => simp [asString?, Option.bind_eq_some_iff]
      | cons name names =>
        simpa [asString?, Option.bind_eq_some_iff, ih] using and_comm
    | _ => cases names <;> simp [asString?]

section Lookup

variable {fields : List (WideString × Json)} {field : WideString × Json} {key other : WideString}

private theorem lookup_cons_of_ne (h : other ≠ field.1) :
    (field :: fields).lookup other = fields.lookup other := by
  rw [List.lookup_cons, beq_false_of_ne h]

private theorem lookup_replaced (value : Json) (hkey : fields.any (·.1 == key) = true) :
    (fields.map fun field => if field.1 == key then (key, value) else field).lookup key =
      some value := by
  induction fields with
  | nil => cases hkey
  | cons field fields ih =>
    rw [List.map_cons]
    by_cases hfield : field.1 = key
    · rw [if_pos (by simp [hfield]), List.lookup_cons_self]
    · rw [if_neg (by simp [hfield]), lookup_cons_of_ne (Ne.symm hfield)]
      exact ih (by simpa [hfield] using hkey)

private theorem lookup_replaced_of_ne (value : Json) (hother : other ≠ key) :
    (fields.map fun field => if field.1 == key then (key, value) else field).lookup other =
      fields.lookup other := by
  induction fields with
  | nil => rfl
  | cons field fields ih =>
    rw [List.map_cons]
    by_cases hfield : field.1 = key
    · rw [if_pos (by simp [hfield]), lookup_cons_of_ne hother,
        lookup_cons_of_ne (hfield ▸ hother), ih]
    · rw [if_neg (by simp [hfield]), List.lookup_cons, List.lookup_cons, ih]

private theorem lookup_setField (value : Json) :
    (setField fields key value).lookup key = some value := by
  unfold setField
  split
  · rename_i hkey
    exact lookup_replaced value hkey
  · rename_i hkey
    have hnone : fields.lookup key = none := by
      rw [List.lookup_eq_none_iff]
      intro field hfield
      have hne : field.1 ≠ key := fun h => hkey (List.any_eq_true.2 ⟨field, hfield, by simp [h]⟩)
      simpa using hne.symm
    rw [List.lookup_append, hnone, Option.none_or, List.lookup_cons_self]

private theorem lookup_setField_of_ne (value : Json) (hother : other ≠ key) :
    (setField fields key value).lookup other = fields.lookup other := by
  unfold setField
  split
  · exact lookup_replaced_of_ne value hother
  · rw [List.lookup_append, lookup_cons_of_ne hother, List.lookup_nil, Option.or_none]

def lastValue? (written : List (WideString × Json)) (key : WideString) : Option Json :=
  written.reverse.lookup key

private theorem lookup_foldl_setField (written : List (WideString × Json)) :
    (written.foldl (fun known field => setField known field.1 field.2) fields).lookup key =
      (lastValue? written key).or (fields.lookup key) := by
  induction written generalizing fields with
  | nil => rfl
  | cons field written ih =>
    rw [List.foldl_cons, ih, lastValue?, lastValue?, List.reverse_cons, List.lookup_append,
      Option.or_assoc]
    congr 1
    by_cases hkey : key = field.1
    · rw [hkey, lookup_setField, List.lookup_cons_self, Option.some_or]
    · rw [lookup_setField_of_ne _ hkey, lookup_cons_of_ne hkey, List.lookup_nil, Option.none_or]

theorem lookup_of_ofFields {written : List (WideString × Json)}
    (h : ofFields written = object fields)
    (key : WideString) : fields.lookup key = lastValue? written key := by
  cases h
  rw [lookup_foldl_setField, List.lookup_nil, Option.or_none]

end Lookup
end OverrideLint.Json
