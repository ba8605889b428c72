import OverrideLint.TypeIndex.Table

/-! The declarations that a type inherits from. They are visited depth first, the
last base first, and each at most once, so cycles do no harm. -/
namespace OverrideLint.DeclarationTable

/-- A declaration of a given table. -/
abbrev Entry (table : DeclarationTable) := { entry : Declaration // entry ∈ table }

def lookupEntry? (table : DeclarationTable) (name : WideString) (origin : String) :
    Option table.Entry :=
  (table.lookup? name origin).attach.map fun found => ⟨found.1, mem_of_lookup? found.2⟩

/-- The bases of a declaration, as seen from its own file; unknown ones are left out. -/
def basesOf (table : DeclarationTable) (entry : Declaration) : List table.Entry :=
  entry.bases.filterMap (table.lookupEntry? · entry.origin)

/-- How many declarations have not been seen. -/
def unseen (table : DeclarationTable) (seen : List (WideString × String)) : Nat :=
  table.countP fun entry => !seen.contains entry.key

private theorem unseen_cons_lt {table : DeclarationTable} {seen : List (WideString × String)}
    {entry : Declaration} (hmem : entry ∈ table) (hnew : seen.contains entry.key = false) :
    table.unseen (entry.key :: seen) < table.unseen seen := by
  have le : ∀ rest : List Declaration,
      unseen rest (entry.key :: seen) ≤ unseen rest seen := fun rest =>
    List.countP_mono_left fun other _ h => by
      simp only [List.contains_cons, Bool.not_or, Bool.and_eq_true] at h
      exact h.2
  obtain ⟨before, after, rfl⟩ := List.append_of_mem hmem
  have hbefore := le before
  have hafter := le after
  simp only [unseen, List.countP_append, List.countP_cons, List.contains_cons, beq_self_eq_true,
    hnew, Bool.true_or, Bool.not_true, Bool.not_false, Bool.false_eq_true, if_true, if_false]
    at hbefore hafter ⊢
  omega

/-- The declarations visited from a stack of pending ones, without those seen. -/
def visits (table : DeclarationTable) (stack : List table.Entry)
    (seen : List (WideString × String)) : List Declaration :=
  match stack with
  | [] => []
  | entry :: rest =>
    if _hseen : seen.contains entry.1.key = true then visits table rest seen
    else entry.1 ::
      visits table ((table.basesOf entry.1).reverse ++ rest) (entry.1.key :: seen)
termination_by (table.unseen seen, stack.length)
decreasing_by
  · exact Prod.Lex.right _ (Nat.lt_succ_self _)
  · exact Prod.Lex.left _ _ (unseen_cons_lt entry.2 (Bool.eq_false_iff.2 _hseen))

/-- A declaration with everything that it inherits from. -/
def ancestry (table : DeclarationTable) (entry : table.Entry) : List Declaration :=
  table.visits [entry] []

/-- All members of a declaration, its own and the inherited ones. -/
def inherited (table : DeclarationTable) (entry : table.Entry) : List WideString :=
  addNames [] ((table.ancestry entry).flatMap (·.members))

def unknownBase (entry : Declaration) (base : WideString) : LogEntry :=
  ⟨.debug, .index, "'" ++ entry.name ++ "' extends unknown type '" ++ base ++ "'"⟩

/-- The log of looking up the bases of a visited declaration. -/
def basesLog (table : DeclarationTable) (entry : Declaration) : List LogEntry :=
  entry.bases.flatMap fun base =>
    table.lookupLog base entry.origin ++
      if (table.lookup? base entry.origin).isNone then [unknownBase entry base] else []

/-- The type that a name stands for in a file, worked out anew. -/
def resolve (table : DeclarationTable) (name : WideString) (origin : String) :
    Logged (Option ResolvedType) :=
  match table.lookupEntry? name origin with
  | none => ⟨none, table.lookupLog name origin⟩
  | some entry =>
    ⟨some ⟨entry.1.name, table.inherited entry⟩,
      table.lookupLog name origin ++ (table.ancestry entry).flatMap (basesLog table)⟩

end OverrideLint.DeclarationTable
