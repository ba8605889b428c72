import Mathlib.Data.List.Basic
import Mathlib.Tactic.Tauto
import OverrideLint.Suppression

/-! A table of suppressions forgets in which order, how often and next to what it was told
something. A finding is suppressed exactly if one of the recorded suppressions covers it. -/
namespace OverrideLint

namespace Suppression

def Covers (glob : String → String → Bool) : Suppression → String → String → Int → Prop
  | everywhere known, id, _, _ => known = id ∨ known = anyId
  | inFiles known pattern, id, file, _ =>
    (known = id ∨ known = anyId) ∧
      (pattern = file ∨ pattern.toList <:+ file.toList ∨ glob pattern file = true)
  | onLine source place ids, id, file, line =>
    source = file ∧ (place : Int) = line ∧ (id ∈ ids ∨ anyId ∈ ids)

instance decidableCovers (glob : String → String → Bool) :
    ∀ (suppression : Suppression) (id file : String) (line : Int),
      Decidable (suppression.Covers glob id file line)
  | everywhere known, id, _, _ => inferInstanceAs (Decidable (known = id ∨ known = anyId))
  | inFiles known pattern, id, file, _ =>
    inferInstanceAs (Decidable ((known = id ∨ known = anyId) ∧
      (pattern = file ∨ pattern.toList <:+ file.toList ∨ glob pattern file = true)))
  | onLine source place ids, id, file, line =>
    inferInstanceAs (Decidable (source = file ∧ (place : Int) = line ∧ (id ∈ ids ∨ anyId ∈ ids)))

theorem matchesFile_iff {glob : String → String → Bool} {pattern file : String} :
    matchesFile glob pattern file = true ↔
      pattern = file ∨ pattern.toList <:+ file.toList ∨ glob pattern file = true := by
  simp [matchesFile, or_assoc]

/-- What a table can be told: to read the directives of a file, or to suppress a finding in
files or everywhere. -/
inductive Call
  | load (file : String) (text : Text)
  | inFiles (id pattern : String)
  | everywhere (id : String)
deriving DecidableEq

def Call.recorded : Call → List Suppression
  | load file text => inline file text
  | inFiles id pattern => [.inFiles id pattern]
  | everywhere id => [.everywhere id]

end Suppression

namespace SuppressionTable

open Suppression (Call)

def after (calls : List Call) : SuppressionTable :=
  calls.foldl (fun table call => table.recordAll call.recorded) {}

section Names

variable {id : String}

private theorem names_iff {ids : List String} : names ids id = true ↔ id ∈ ids ∨ anyId ∈ ids := by
  simp [names]

theorem names_nil : names [] id = false := rfl

private theorem mem_unite {known added : List String} :
    id ∈ unite known added ↔ id ∈ known ∨ id ∈ added := by
  induction added with
  | nil => simp [unite]
  | cons first rest ih =>
    rw [unite, List.foldr_cons, List.mem_insert_iff, ← unite, ih, List.mem_cons]
    exact or_left_comm

private theorem names_unite (known added : List String) :
    names (unite known added) id = (names known id || names added id) := by
  rw [Bool.eq_iff_iff, Bool.or_eq_true]
  simp only [names_iff, mem_unite]
  exact or_or_or_comm

variable {κ : Type} [BEq κ] [LawfulBEq κ]

private theorem lookup_addIds (key asked : κ) (ids : List String) (store : List (κ × List String)) :
    (addIds key ids store).lookup asked =
      if asked == key then some (unite ((store.lookup asked).getD []) ids)
      else store.lookup asked := by
  induction store with
  | nil => cases h : asked == key <;> simp [addIds, List.lookup_cons, h]
  | cons entry rest ih =>
    obtain ⟨known, old⟩ := entry
    by_cases hkey : known = key
    · subst hkey
      cases h : asked == known <;> simp [addIds, List.lookup_cons, h]
    · by_cases hasked : asked = known
      · subst hasked
        simp [addIds, hkey]
      · have hother : (asked == known) = false := beq_false_of_ne hasked
        simp [addIds, List.lookup_cons, hkey, hother, ih]

private theorem any_addIds (id : String) (admits : κ → Bool) (key : κ) (ids : List String)
    (store : List (κ × List String)) :
    ((addIds key ids store).any fun entry => names entry.2 id && admits entry.1) =
      ((store.any fun entry => names entry.2 id && admits entry.1) ||
        names ids id && admits key) := by
  induction store with
  | nil => simp [addIds, names_unite, names_nil]
  | cons entry rest ih =>
    obtain ⟨known, old⟩ := entry
    by_cases hkey : known = key
    · subst hkey
      simp only [addIds, beq_self_eq_true, if_true, List.any_cons, names_unite,
        Bool.and_or_distrib_right]
      ac_rfl
    · simp [addIds, hkey, ih, Bool.or_assoc]

end Names

section Silences

variable (glob : String → String → Bool) (id file : String) (line : Int)

private theorem names_singleton (known : String) :
    names [known] id = true ↔ known = id ∨ known = anyId := by
  rw [names_iff, List.mem_singleton, List.mem_singleton, eq_comm, eq_comm (a := anyId)]

/-- One more suppression silences what it covers, and all that was silenced before. -/
theorem silences_record (table : SuppressionTable) (suppression : Suppression) :
    (table.record suppression).silences glob id file line = true ↔
      table.silences glob id file line = true ∨ suppression.Covers glob id file line := by
  cases suppression with
  | everywhere known =>
    simp only [record, silences, names_unite, Bool.or_eq_true, names_singleton, Suppression.Covers]
    tauto
  | inFiles known pattern =>
    have hfiles := any_addIds id (Suppression.matchesFile glob · file) pattern [known] table.inFiles
    simp only [record, silences, hfiles, Bool.or_eq_true, Bool.and_eq_true, names_singleton,
      Suppression.matchesFile_iff, Suppression.Covers]
    tauto
  | onLine source place ids =>
    simp only [record, silences, lookup_addIds, Bool.or_eq_true, Suppression.Covers]
    by_cases hplace : (file, line) = (source, (place : Int))
    · obtain ⟨rfl, rfl⟩ := Prod.mk.inj hplace
      simp only [beq_self_eq_true, if_true, Option.getD_some, names_unite, Bool.or_eq_true,
        ← names_iff]
      tauto
    · rw [if_neg (by simpa using hplace)]
      have hother : ¬ (source = file ∧ (place : Int) = line) := by
        rintro ⟨rfl, rfl⟩
        exact hplace rfl
      tauto

private theorem silences_recordAll (table : SuppressionTable) (suppressions : List Suppression) :
    (table.recordAll suppressions).silences glob id file line = true ↔
      table.silences glob id file line = true ∨
        ∃ suppression ∈ suppressions, suppression.Covers glob id file line := by
  induction suppressions generalizing table with
  | nil => simp [recordAll]
  | cons first rest ih =>
    rw [recordAll, List.foldl_cons, ← recordAll, ih, silences_record]
    simp [or_assoc]

private theorem silences_foldl (table : SuppressionTable) (calls : List Call) :
    (calls.foldl (fun table call => table.recordAll call.recorded) table).silences glob id file
        line = true ↔
      table.silences glob id file line = true ∨
        ∃ call ∈ calls, ∃ suppression ∈ call.recorded, suppression.Covers glob id file line := by
  induction calls generalizing table with
  | nil => simp
  | cons first rest ih =>
    rw [List.foldl_cons, ih, silences_recordAll]
    simp [or_assoc]

private theorem silences_after (calls : List Call) :
    (after calls).silences glob id file line = true ↔
      ∃ call ∈ calls, ∃ suppression ∈ call.recorded, suppression.Covers glob id file line := by
  have hempty : ({} : SuppressionTable).silences glob id file line = false := rfl
  rw [after, silences_foldl, hempty]
  simp

end Silences

section Keep

variable (glob : String → String → Bool)

def Covered (calls : List Call) (d : Diagnostic) : Prop :=
  ∃ call ∈ calls, ∃ suppression ∈ call.recorded,
    suppression.Covers glob d.finding.id d.location.file d.location.line

instance (calls : List Call) (d : Diagnostic) : Decidable (Covered glob calls d) :=
  inferInstanceAs (Decidable (∃ call ∈ calls, ∃ suppression ∈ call.recorded, _))

private theorem keep_after (calls : List Call) (diagnostics : List Diagnostic) :
    (after calls).keep glob diagnostics = diagnostics.filter fun d => ¬ Covered glob calls d := by
  apply List.filter_congr
  intro d _
  rw [Bool.eq_iff_iff, Bool.not_eq_true', decide_eq_true_eq, ← Bool.not_eq_true, silences_after]
  rfl

theorem Covered.mono {calls longer : List Call} {d : Diagnostic} (h : Covered glob calls d)
    (hsub : calls ⊆ longer) : Covered glob longer d := by
  obtain ⟨call, hcall, hcovers⟩ := h
  exact ⟨call, hsub hcall, hcovers⟩

/-- Whatever a table was told, it keeps exactly the diagnostics that no recorded suppression
covers by itself, in order and as they are. So the calls may come in any order and any number
of times, more calls never bring back a diagnostic, and to filter again changes nothing. -/
theorem keep_uncovered (calls : List Call) (diagnostics : List Diagnostic) :
    (after calls).keep glob diagnostics = diagnostics.filter (fun d => ¬ Covered glob calls d) ∧
      (∀ others : List Call, (∀ call, call ∈ others ↔ call ∈ calls) →
        (after others).keep glob diagnostics = (after calls).keep glob diagnostics) ∧
      (∀ longer, calls <+: longer →
        ((after longer).keep glob diagnostics).Sublist ((after calls).keep glob diagnostics)) ∧
      (after calls).keep glob ((after calls).keep glob diagnostics) =
        (after calls).keep glob diagnostics := by
  refine ⟨keep_after glob calls diagnostics, ?_, ?_, ?_⟩
  · intro others hsame
    rw [keep_after, keep_after]
    apply List.filter_congr
    intro d _
    apply decide_eq_decide.2
    apply not_congr
    exact ⟨fun h => h.mono glob fun call => (hsame call).1,
      fun h => h.mono glob fun call => (hsame call).2⟩
  · intro longer hprefix
    rw [keep_after, keep_after]
    apply List.monotone_filter_right
    intro d hkept
    rw [decide_eq_true_eq] at hkept ⊢
    exact fun h => hkept (h.mono glob hprefix.subset)
  · rw [keep, keep, List.filter_filter]
    simp only [Bool.and_self]

end Keep

def mixedCalls : List Call :=
  [.load "a.ts" "f() {} // override-jsdoc-disable-line\ng() {}".toList,
    .inFiles "overrideTagSpelling" "gen/*.ts", .everywhere "overrideTagNoBase"]

def findingAt (finding : Finding) (file : String) (line : Nat) : Diagnostic where
  finding := finding
  message := ""
  severity := .error
  span := .empty 0
  location := ⟨file, line, 1⟩

def mixedFindings : List Diagnostic :=
  [findingAt .missing "a.ts" 1, findingAt .missing "a.ts" 2, findingAt .spelling "gen/b.ts" 1,
    findingAt .missing "gen/b.ts" 1, findingAt .noBase "b.ts" 7]

theorem keep_uncovered_mixed :
    (∀ call, call ∈ mixedCalls.reverse ++ mixedCalls ↔ call ∈ mixedCalls) ∧
      mixedCalls <+: mixedCalls ++ [.everywhere "*"] ∧
      (after mixedCalls).keep Wildcard.matchesPattern mixedFindings =
        [findingAt .missing "a.ts" 2, findingAt .missing "gen/b.ts" 1] ∧
      (after (mixedCalls.reverse ++ mixedCalls)).keep Wildcard.matchesPattern mixedFindings =
        (after mixedCalls).keep Wildcard.matchesPattern mixedFindings ∧
      ((after (mixedCalls ++ [.everywhere "*"])).keep Wildcard.matchesPattern mixedFindings).Sublist
        ((after mixedCalls).keep Wildcard.matchesPattern mixedFindings) := by
  have hsame : ∀ call, call ∈ mixedCalls.reverse ++ mixedCalls ↔ call ∈ mixedCalls := by
    simp
  have hprefix : mixedCalls <+: mixedCalls ++ [.everywhere "*"] := List.prefix_append ..
  have hkeep := keep_uncovered Wildcard.matchesPattern mixedCalls mixedFindings
  exact ⟨hsame, hprefix, by decide +kernel, hkeep.2.1 _ hsame, hkeep.2.2.1 _ hprefix⟩

end SuppressionTable
end OverrideLint
