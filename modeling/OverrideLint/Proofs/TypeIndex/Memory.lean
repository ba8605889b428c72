import OverrideLint.Proofs.TypeIndex.Resolution

/-! An index that remembers its answers replies as one that keeps nothing but the
declarations and works every answer out anew, in whatever order it is told and asked. -/
namespace OverrideLint

/-- The outlines of stubs up to the first one that is wrong. -/
def TypeOutline.ofStubs : List (WideString × Json) → List TypeOutline × Option StubError
  | [] => ([], none)
  | (name, body) :: rest =>
    match ofStub name body with
    | .error error => ([], some error)
    | .ok outline => (outline :: (ofStubs rest).1, (ofStubs rest).2)

namespace DeclarationTable

def declareAll (table : DeclarationTable) (origin : String) (outlines : List TypeOutline) :
    DeclarationTable :=
  outlines.foldl (fun table outline =>
    table.declare outline.name origin outline.members outline.bases) table

def typeOf? (table : DeclarationTable) (name : WideString) (origin : String) : Option ResolvedType :=
  (table.lookupEntry? name origin).map fun entry => ⟨entry.1.name, table.inherited entry⟩

theorem value_resolve (table : DeclarationTable) (name : WideString) (origin : String) :
    (table.resolve name origin).value = table.typeOf? name origin := by
  unfold resolve typeOf?
  cases table.lookupEntry? name origin <;> rfl

end DeclarationTable

namespace TypeIndex

inductive Operation
  | declare (name : WideString) (origin : String) (members bases : List WideString)
  | loadStubs (origin : String) (stubs : List (WideString × Json))
  | addSource (source : SourceFile)
  | resolveName (name : WideString) (origin : String)
  | resolve (reference : TypeReference)
  | contains (name : WideString)

inductive Reply
  | declared
  | loaded (error : Option StubError)
  | indexed (count : Nat)
  | resolved (answer : Option ResolvedType)
  | answered (resolution : Resolution)
  | known (found : Bool)
deriving DecidableEq

namespace Operation

def perform : Operation → StateT TypeIndex Logged Reply
  | declare name origin members bases => fun index =>
    pure (.declared, index.declare name origin members bases)
  | loadStubs origin stubs => fun index =>
    pure (.loaded (index.loadStubs origin stubs).2, (index.loadStubs origin stubs).1)
  | addSource source => fun index => do
    let (count, index) ← index.addSource source
    return (.indexed count, index)
  | resolveName name origin => do return .resolved (← TypeIndex.resolveName name origin)
  | resolve reference => do return .answered (← TypeIndex.resolve reference)
  | contains name => fun index => do return (.known (← index.contains name), index)

/-- The reply that the declarations alone give, and the declarations behind it. -/
def anew : Operation → DeclarationTable → Reply × DeclarationTable
  | declare name origin members bases, table =>
    (.declared, table.declare name origin members bases)
  | loadStubs origin stubs, table =>
    (.loaded (TypeOutline.ofStubs stubs).2, table.declareAll origin (TypeOutline.ofStubs stubs).1)
  | addSource source, table =>
    (.indexed source.declared.length, table.declareAll source.file source.declared)
  | resolveName name origin, table => (.resolved (table.typeOf? name origin), table)
  | resolve reference, table =>
    (.answered (.ofOption (table.typeOf? reference.name reference.file)), table)
  | contains name, table => (.known (table.lookup? name "").isSome, table)

end Operation

def perform : List Operation → StateT TypeIndex Logged (List Reply)
  | [] => pure []
  | operation :: rest => do
    let reply ← operation.perform
    let replies ← perform rest
    return reply :: replies

def anew : List Operation → DeclarationTable → List Reply × DeclarationTable
  | [], table => ([], table)
  | operation :: rest, table =>
    ((operation.anew table).1 :: (anew rest (operation.anew table).2).1,
      (anew rest (operation.anew table).2).2)

variable {index : TypeIndex}

private theorem table_addDeclared (index : TypeIndex) (origin : String)
    (declared : List TypeOutline) :
    (index.addDeclared origin declared).table = index.table.declareAll origin declared := by
  unfold addDeclared DeclarationTable.declareAll
  induction declared generalizing index with
  | nil => rfl
  | cons outline rest ih => exact ih (index.declareOutline origin outline)

private theorem loadStubs_eq (index : TypeIndex) (origin : String)
    (stubs : List (WideString × Json)) :
    index.loadStubs origin stubs =
      (index.addDeclared origin (TypeOutline.ofStubs stubs).1, (TypeOutline.ofStubs stubs).2) := by
  induction stubs generalizing index with
  | nil => rfl
  | cons stub rest ih =>
    obtain ⟨name, body⟩ := stub
    unfold loadStubs TypeOutline.ofStubs
    cases TypeOutline.ofStub name body with
    | error error => rfl
    | ok outline => exact ih (index.declareOutline origin outline)

private theorem table_resolveName (index : TypeIndex) (name : WideString) (origin : String) :
    ((resolveName name origin).run index).value.2.table = index.table := by
  cases hlookup : index.answers.lookup (name, origin) with
  | none => simp only [resolveName, StateT.run, hlookup, Logged.value_bind, Logged.value_pure]
  | some answer => simp only [resolveName, StateT.run, hlookup, Logged.value_pure]

/-- One operation keeps the memory in agreement with the declarations, and replies from
them. -/
theorem Coherent.perform (h : index.Coherent) (operation : Operation) :
    (operation.perform.run index).value.2.Coherent ∧
      (operation.perform.run index).value.1 = (operation.anew index.table).1 ∧
      (operation.perform.run index).value.2.table = (operation.anew index.table).2 := by
  cases operation with
  | declare name origin members bases => exact ⟨h.declare name origin members bases, rfl, rfl⟩
  | loadStubs origin stubs =>
    refine ⟨h.loadStubs origin stubs, congrArg Reply.loaded ?_, ?_⟩
    · rw [loadStubs_eq]
    · change (index.loadStubs origin stubs).1.table = _
      rw [loadStubs_eq]
      exact table_addDeclared index origin _
  | addSource source =>
    exact ⟨h.addDeclared source.file source.declared, rfl, table_addDeclared index _ _⟩
  | resolveName name origin =>
    refine ⟨h.resolveName name origin, congrArg Reply.resolved ?_,
      table_resolveName index name origin⟩
    rw [← DeclarationTable.value_resolve]
    exact h.value_resolveName name origin
  | resolve reference =>
    refine ⟨h.resolveName reference.name reference.file,
      congrArg (fun answer => Reply.answered (.ofOption answer)) ?_,
      table_resolveName index reference.name reference.file⟩
    rw [← DeclarationTable.value_resolve]
    exact h.value_resolveName reference.name reference.file
  | contains name => exact ⟨h, rfl, rfl⟩

theorem Coherent.performAll (h : index.Coherent) (operations : List Operation) :
    ((TypeIndex.perform operations).run index).value.1 = (anew operations index.table).1 ∧
      ((TypeIndex.perform operations).run index).value.2.table =
        (anew operations index.table).2 := by
  induction operations generalizing index with
  | nil => exact ⟨rfl, rfl⟩
  | cons operation rest ih =>
    obtain ⟨hcoherent, hreply, htable⟩ := h.perform operation
    obtain ⟨hreplies, hlast⟩ := ih hcoherent
    rw [htable] at hreplies hlast
    exact ⟨congrArg₂ List.cons hreply hreplies, hlast⟩

/-- Whatever an index is told and asked, it gives the replies, and comes to the
declarations, of one that remembers no answer. -/
theorem perform_eq_anew (operations : List Operation) :
    ((perform operations).run TypeIndex.empty).value.1 = (anew operations []).1 ∧
      ((perform operations).run TypeIndex.empty).value.2.table = (anew operations []).2 :=
  Coherent.empty.performAll operations

end TypeIndex
end OverrideLint
