import OverrideLint.Proofs.TypeIndex.Ancestry
import OverrideLint.TypeIndex.Basic

/-! Whatever is declared in an index, and however often it was asked before, a name
resolves to the members of everything that its declaration inherits from. -/
namespace OverrideLint

@[simp]
theorem Declaration.key_extend (entry : Declaration) (members bases : List WideString) :
    (entry.extend members bases).key = entry.key := rfl

namespace DeclarationTable

theorem map_key_declare_of_known {table : DeclarationTable} {name : WideString} {origin : String}
    (members bases : List WideString) (h : table.any (·.key == (name, origin)) = true) :
    (table.declare name origin members bases).map Declaration.key = table.map Declaration.key := by
  unfold declare
  rw [if_pos h, List.map_map]
  apply List.map_congr_left
  intro entry _
  rw [Function.comp_apply]
  split
  · exact Declaration.key_extend ..
  · rfl

theorem DistinctKeys.declare {table : DeclarationTable} (h : table.DistinctKeys)
    (name : WideString) (origin : String) (members bases : List WideString) :
    (table.declare name origin members bases).DistinctKeys := by
  unfold DistinctKeys
  by_cases hknown : table.any (·.key == (name, origin)) = true
  · rw [map_key_declare_of_known members bases hknown]
    exact h
  · unfold DeclarationTable.declare
    rw [if_neg hknown, List.map_append, List.map_singleton]
    apply List.nodup_append.2
    refine ⟨h, List.nodup_singleton _, ?_⟩
    intro key hkey other hother hsame
    rw [List.mem_singleton.1 hother] at hsame
    obtain ⟨entry, hentry, rfl⟩ := List.mem_map.1 hkey
    exact hknown (List.any_eq_true.2 ⟨entry, hentry, beq_iff_eq.2 hsame⟩)

end DeclarationTable

namespace TypeIndex

inductive Reachable : TypeIndex → Prop
  | empty : Reachable TypeIndex.empty
  | declare {index : TypeIndex} (name : WideString) (origin : String)
      (members bases : List WideString) :
    Reachable index → Reachable (index.declare name origin members bases)
  | loadStubs {index : TypeIndex} (origin : String) (stubs : List (WideString × Json)) :
    Reachable index → Reachable (index.loadStubs origin stubs).1
  | addSource {index : TypeIndex} (source : SourceFile) :
    Reachable index → Reachable (index.addSource source).value.2
  | resolveName {index : TypeIndex} (name : WideString) (origin : String) :
    Reachable index → Reachable ((resolveName name origin).run index).value.2

/-- Declarations are kept apart by name and origin, and every remembered answer is the
one that the declarations give now. -/
structure Coherent (index : TypeIndex) : Prop where
  distinctKeys : index.table.DistinctKeys
  answers : ∀ name origin answer, index.answers.lookup (name, origin) = some answer →
    answer = (index.table.resolve name origin).value

variable {index : TypeIndex}

theorem Coherent.empty : TypeIndex.empty.Coherent := by
  refine ⟨List.nodup_nil, ?_⟩
  intro name origin answer h
  cases h

theorem Coherent.declare (h : index.Coherent) (name : WideString) (origin : String)
    (members bases : List WideString) :
    (index.declare name origin members bases).Coherent := by
  refine ⟨h.distinctKeys.declare name origin members bases, ?_⟩
  intro asked asker answer hlookup
  cases hlookup

theorem Coherent.loadStubs (h : index.Coherent) (origin : String)
    (stubs : List (WideString × Json)) :
    (index.loadStubs origin stubs).1.Coherent := by
  induction stubs generalizing index with
  | nil => exact h
  | cons stub rest ih =>
    unfold TypeIndex.loadStubs
    split
    · exact h
    · exact ih (h.declare _ _ _ _)

theorem Coherent.addDeclared (h : index.Coherent) (origin : String) (declared : List TypeOutline) :
    (index.addDeclared origin declared).Coherent := by
  unfold TypeIndex.addDeclared
  induction declared generalizing index with
  | nil => exact h
  | cons outline rest ih => exact ih (h.declare _ _ _ _)

theorem Coherent.value_resolveName (h : index.Coherent) (name : WideString) (origin : String) :
    ((resolveName name origin).run index).value.1 = (index.table.resolve name origin).value := by
  cases hlookup : index.answers.lookup (name, origin) with
  | none =>
    simp only [TypeIndex.resolveName, StateT.run, hlookup, Logged.value_bind, Logged.value_pure]
  | some answer =>
    simpa [TypeIndex.resolveName, StateT.run, hlookup] using h.answers name origin answer hlookup

theorem Coherent.resolveName (h : index.Coherent) (name : WideString) (origin : String) :
    ((resolveName name origin).run index).value.2.Coherent := by
  cases hlookup : index.answers.lookup (name, origin) with
  | some answer => simpa [TypeIndex.resolveName, StateT.run, hlookup] using h
  | none =>
    simp only [TypeIndex.resolveName, StateT.run, hlookup, Logged.value_bind, Logged.value_pure]
    refine ⟨h.distinctKeys, ?_⟩
    intro asked asker answer hasked
    rw [List.lookup_cons] at hasked
    split at hasked
    · rename_i hsame
      cases eq_of_beq hsame
      exact (Option.some.inj hasked).symm
    · exact h.answers asked asker answer hasked

theorem Reachable.coherent (h : index.Reachable) : index.Coherent := by
  induction h with
  | empty => exact .empty
  | declare name origin members bases _ ih => exact ih.declare name origin members bases
  | loadStubs origin stubs _ ih => exact ih.loadStubs origin stubs
  | addSource source _ ih => exact ih.addDeclared _ _
  | resolveName name origin _ ih => exact ih.resolveName name origin

/-- A name resolves exactly when a declaration is found for it, and then to the members
of every declaration that is reached from there by following bases. -/
theorem resolveName_exact (h : index.Reachable) (name : WideString) (origin : String) :
    (((resolveName name origin).run index).value.1 = none ↔
        index.table.lookup? name origin = none) ∧
      ∀ entry, index.table.lookup? name origin = some entry →
        ∃ type, ((resolveName name origin).run index).value.1 = some type ∧
          type.name = entry.name ∧
          ∀ member, type.declares member = true ↔
            ∃ ancestor, index.table.Inherits entry ancestor ∧ member ∈ ancestor.members := by
  have hcoherent := h.coherent
  rw [hcoherent.value_resolveName]
  cases hfound : index.table.lookupEntry? name origin with
  | none =>
    have hlookup : index.table.lookup? name origin = none := by
      simpa [DeclarationTable.lookupEntry?] using hfound
    refine ⟨by simp [DeclarationTable.resolve, hfound, hlookup], ?_⟩
    intro entry hentry
    rw [hlookup] at hentry
    cases hentry
  | some found =>
    have hlookup := DeclarationTable.lookupEntry?_eq_some.1 hfound
    refine ⟨by simp [DeclarationTable.resolve, hfound, hlookup], ?_⟩
    intro entry hentry
    cases hlookup.symm.trans hentry
    refine ⟨⟨found.1.name, index.table.inherited found⟩, ?_, rfl, ?_⟩
    · simp [DeclarationTable.resolve, hfound]
    · intro member
      rw [ResolvedType.declares, List.contains_iff_mem]
      exact DeclarationTable.mem_inherited_iff hcoherent.distinctKeys found

def mutualIndex : TypeIndex :=
  (TypeIndex.empty.declare "A" "a.ts" ["m"] ["lib.B", "Unknown"]).declare "B" "b.ts" ["n"] ["A", "B"]

theorem resolveName_exact_mutual :
    mutualIndex.Reachable ∧
      ∃ type, ((resolveName "A" "a.ts").run mutualIndex).value.1 = some type ∧
        type.name = "A" ∧ type.declares "m" = true ∧ type.declares "n" = true := by
  have hreachable : mutualIndex.Reachable := (Reachable.empty.declare ..).declare ..
  have hA : mutualIndex.table.lookup? "A" "a.ts" =
      some ⟨"A", "a.ts", ["m"], ["lib.B", "Unknown"]⟩ := by
    decide +kernel
  have hB : mutualIndex.table.lookup? "lib.B" "a.ts" = some ⟨"B", "b.ts", ["n"], ["A", "B"]⟩ := by
    decide +kernel
  obtain ⟨type, hanswer, hname, hmembers⟩ :=
    (resolveName_exact hreachable "A" "a.ts").2 _ hA
  refine ⟨hreachable, type, hanswer, hname, ?_, ?_⟩
  · exact (hmembers "m").2 ⟨_, Relation.ReflTransGen.refl, List.mem_singleton.2 rfl⟩
  · exact (hmembers "n").2 ⟨_, Relation.ReflTransGen.single ⟨"lib.B", List.mem_cons_self, hB⟩,
      List.mem_singleton.2 rfl⟩

end TypeIndex
end OverrideLint
