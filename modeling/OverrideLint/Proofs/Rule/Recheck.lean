import OverrideLint.Proofs.Rule.Findings
import OverrideLint.Proofs.Rule.Member
import OverrideLint.TypeIndex.Basic

/-! A check asks about base types and changes nothing but what is remembered of the answers.
So it finds what it would find if every answer were given at once, and a second check finds
the same. -/
namespace OverrideLint

namespace Rule

variable {σ α β : Type} {answers : σ → Oracle}

/-- An action whose result is told by the answers of the state, and which leaves every answer
as it was. -/
structure Steady (answers : σ → Oracle) (action : StateT σ Logged α) (result : Oracle → α) :
    Prop where
  returned_eq : ∀ state, returned action state = result (answers state)
  unchanged : ∀ state, answers (action.run state).value.2 = answers state

theorem Steady.pure (a : α) : Steady answers (pure a) fun _ => a :=
  ⟨fun _ => rfl, fun _ => rfl⟩

theorem Steady.tell (entries : List LogEntry) :
    Steady answers (liftM (Logged.tell entries)) fun _ => () :=
  ⟨fun _ => rfl, fun _ => rfl⟩

theorem Steady.bind {action : StateT σ Logged α} {result : Oracle → α}
    {next : α → StateT σ Logged β} {final : α → Oracle → β} (h : Steady answers action result)
    (hnext : ∀ a, Steady answers (next a) (final a)) :
    Steady answers (action >>= next) fun oracle => final (result oracle) oracle where
  returned_eq state := by
    calc returned (action >>= next) state
        = returned (next (returned action state)) (action.run state).value.2 := rfl
      _ = final (returned action state) (answers (action.run state).value.2) :=
        (hnext _).returned_eq _
      _ = final (result (answers state)) (answers state) := by
        rw [h.returned_eq, h.unchanged]
  unchanged state := ((hnext (returned action state)).unchanged _).trans (h.unchanged state)

theorem Steady.returned_again {action : StateT σ Logged α} {result : Oracle → α}
    (h : Steady answers action result) {other : StateT σ Logged β} {final : Oracle → β}
    (hother : Steady answers other final) (state : σ) :
    returned action (other.run state).value.2 = returned action state := by
  rw [h.returned_eq, h.returned_eq, hother.unchanged]

variable {resolve : TypeReference → StateT σ Logged Resolution}

private theorem findBase_cons {m : Type → Type} [Monad m] (resolve : TypeReference → m Resolution)
    (member : String) (reference : TypeReference) (rest : List TypeReference) :
    findBase resolve member (reference :: rest) = resolve reference >>= fun answer =>
      answer.type?.elim (findBase resolve member rest) fun type =>
        if type.declares member then pure (some type) else findBase resolve member rest := by
  rw [findBase]
  congr 1
  funext answer
  cases answer.type? <;> rfl

private theorem steady_findBase (h : ∀ reference, Steady answers (resolve reference) (· reference))
    (member : String) (references : List TypeReference) :
    Steady answers (findBase resolve member references)
      fun oracle => findBase (m := Id) oracle member references := by
  induction references with
  | nil => exact Steady.pure none
  | cons reference rest ih =>
    have hnext (answer : Resolution) : Steady answers
        (answer.type?.elim (findBase resolve member rest) fun type =>
          if type.declares member then Pure.pure (some type) else findBase resolve member rest)
        fun oracle => answer.type?.elim (findBase (m := Id) oracle member rest) fun type =>
          if type.declares member then some type else findBase (m := Id) oracle member rest := by
      cases answer.type? with
      | none => exact ih
      | some type =>
        dsimp only [Option.elim]
        split
        · exact Steady.pure (some type)
        · exact ih
    simp only [findBase_cons]
    exact (h reference).bind hnext

private theorem steady_baseOf (h : ∀ reference, Steady answers (resolve reference) (· reference))
    (parent : Node) (category : Category) (member : Member) :
    Steady answers (baseOf resolve parent category member)
      fun oracle => baseOf (m := Id) oracle parent category member := by
  unfold baseOf
  split
  · exact steady_findBase h ..
  · exact Steady.pure none

private theorem steady_checkMembers
    (h : ∀ reference, Steady answers (resolve reference) (· reference))
    (ctx : RuleContext) (visits : List (Visit × Member)) :
    Steady answers (checkMembers resolve ctx visits)
      fun oracle => checkMembers (m := Id) oracle ctx visits := by
  induction visits with
  | nil => exact Steady.pure []
  | cons visited rest ih =>
    obtain ⟨visit, member⟩ := visited
    have hfirst : Steady answers (checkMember resolve ctx visit member)
        fun oracle => checkMember (m := Id) oracle ctx visit member :=
      (steady_baseOf h ..).bind fun _ => Steady.pure _
    exact hfirst.bind fun _ => ih.bind fun _ => Steady.pure _

/-- A check of a file finds what it would find if every answer were given at once. -/
theorem steady_check (h : ∀ reference, Steady answers (resolve reference) (· reference))
    (severity : Severity) (source : SourceFile) :
    Steady answers (check resolve severity source)
      fun oracle => check (m := Id) oracle severity source :=
  steady_checkMembers h ..

end Rule

namespace TypeIndex

def reply (index : TypeIndex) (name : WideString) (origin : String) : Option ResolvedType :=
  (index.answers.lookup (name, origin)).getD (index.table.resolve name origin).value

def oracle (index : TypeIndex) : Rule.Oracle := fun reference =>
  .ofOption (index.reply reference.name reference.file)

theorem reply_resolveName (index : TypeIndex) (name : WideString) (origin : String) :
    ((resolveName name origin).run index).value.1 = index.reply name origin ∧
      ((resolveName name origin).run index).value.2.reply = index.reply := by
  cases hlookup : index.answers.lookup (name, origin) with
  | some answer => simp [resolveName, StateT.run, reply, hlookup]
  | none =>
    have hreply : index.reply name origin = (index.table.resolve name origin).value := by
      rw [reply, hlookup, Option.getD_none]
    simp only [resolveName, StateT.run, hlookup, Logged.value_bind, Logged.value_pure]
    refine ⟨hreply.symm, ?_⟩
    funext asked file
    by_cases hasked : (asked, file) = (name, origin)
    · cases hasked
      rw [hreply, reply, List.lookup_cons_self, Option.getD_some]
    · rw [reply, reply, List.lookup_cons, beq_false_of_ne hasked]

theorem steady_resolve (reference : TypeReference) :
    Rule.Steady oracle (resolve reference) (· reference) := by
  constructor
  · intro index
    exact congrArg Resolution.ofOption (index.reply_resolveName _ _).1
  · intro index
    have hsame := (index.reply_resolveName reference.name reference.file).2
    funext other
    exact congrArg (fun known => Resolution.ofOption (known other.name other.file)) hsame

end TypeIndex
end OverrideLint
