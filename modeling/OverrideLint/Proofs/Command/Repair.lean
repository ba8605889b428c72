import OverrideLint.Command.Check
import OverrideLint.Proofs.Edit.Progress
import OverrideLint.Proofs.Files.Write
import OverrideLint.Proofs.ParseTree.Placement
import OverrideLint.Proofs.Rule.Harmony
import OverrideLint.Proofs.Rule.Recheck

/-! The rounds of repair of one file. Every diagnostic carries an edit within the text, and of
such edits at least one is applied, so a round changes nothing only if there is nothing to
repair. Whatever is returned is what was last written. -/
namespace OverrideLint

namespace Work

variable {α β : Type} {workspace after : Workspace}

def outcome (action : Work α) (workspace : Workspace) : Except Halt α × Workspace :=
  (action.run.run workspace).value

theorem outcome_bind (action : Work α) (next : α → Work β) (workspace : Workspace) :
    outcome (action >>= next) workspace =
      match outcome action workspace with
      | (.ok a, after) => outcome (next a) after
      | (.error halt, after) => (.error halt, after) := by
  change (ExceptT.bindCont next (outcome action workspace).1 (outcome action workspace).2).value = _
  rcases outcome action workspace with ⟨halt | a, after⟩ <;> rfl

theorem outcome_ofLogged (action : Logged α) (workspace : Workspace) :
    outcome (ofLogged action) workspace = (.ok action.value, workspace) :=
  rfl

theorem outcome_attempt {ε : Type} (halt : ε → Halt) (action : ExceptT ε Logged α)
    (workspace : Workspace) :
    outcome (attempt halt action) workspace = (action.run.value.mapError halt, workspace) := by
  rw [attempt, outcome_bind, outcome_ofLogged]
  dsimp only
  cases action.run.value <;> rfl

theorem outcome_onIndex (action : StateT TypeIndex Logged α) (workspace : Workspace) :
    outcome (onIndex action) workspace =
      (.ok (Rule.returned action workspace.index),
        { workspace with index := (action.run workspace.index).value.2 }) :=
  rfl

end Work

namespace Command

open Rule (returned)

private theorem outcome_writeSource (file : String) (text : Text) (workspace : Workspace) :
    Work.outcome (writeSource file text) workspace =
      match workspace.files.write file (Utf8.encode text) with
      | .ok files => (.ok (), { workspace with files })
      | .error cause =>
        (.error (.reported (.source s!"cannot write {file}: {cause.message file}")), workspace) := by
  change Work.outcome (match workspace.files.write file (Utf8.encode text) with
    | .ok files => modify ({ · with files })
    | .error cause => throw (.reported (.source s!"cannot write {file}: {cause.message file}")))
    workspace = _
  cases workspace.files.write file (Utf8.encode text) <;> rfl

theorem steady_checkSource (settings : Settings) (source : SourceFile) :
    Rule.Steady TypeIndex.oracle (checkSource settings source) fun oracle =>
      Suppression.keep
        (settings.suppressions ++ Suppression.inline source.file source.text)
        (Rule.check (m := Id) oracle settings.severity source) :=
  (Rule.Steady.tell _).bind fun _ =>
    (Rule.steady_check TypeIndex.steady_resolve settings.severity source).bind fun _ =>
      (Rule.Steady.tell _).bind fun _ => Rule.Steady.pure _

/-- Every diagnostic of a file carries an edit within its text, and some of them, whichever
they are, always change it. -/
structure Repairable (settings : Settings) (source : SourceFile) : Prop where
  fix : ∀ index, ∀ diagnostic ∈ returned (checkSource settings source) index,
    ∃ edit, diagnostic.fix = some edit ∧ edit.span.stop ≤ source.text.length
  progress : ∀ index chosen, chosen ⊆ returned (checkSource settings source) index →
    chosen ≠ [] → (applyEdits source.text (fixesOf chosen)).changed = true

private theorem mem_check_of_mem_checkSource {settings : Settings} {source : SourceFile}
    {index : TypeIndex} {diagnostic : Diagnostic}
    (h : diagnostic ∈ returned (checkSource settings source) index) :
    diagnostic ∈ returned (Rule.check TypeIndex.resolve settings.severity source) index :=
  (List.mem_filter.1 h).1

private theorem fixesOf_ne_nil {diagnostics : List Diagnostic} (hne : diagnostics ≠ [])
    (hfix : ∀ diagnostic ∈ diagnostics, ∃ edit, diagnostic.fix = some edit) :
    fixesOf diagnostics ≠ [] := by
  obtain ⟨diagnostic, hmem⟩ := List.exists_mem_of_ne_nil diagnostics hne
  obtain ⟨edit, hedit⟩ := hfix diagnostic hmem
  exact List.ne_nil_of_mem (List.mem_filterMap.2 ⟨diagnostic, hmem, hedit⟩)

variable {parser : Parser} {settings : Settings} {source : SourceFile}

private theorem repairable_of_parse (hparser : parser.EndsWithin)
    (hsource : Yields (SourceFile.parse parser source.file source.text) source)
    (settings : Settings) : Repairable settings source := by
  have hfix (index : TypeIndex) : ∀ diagnostic ∈ returned (checkSource settings source) index,
      ∃ edit, diagnostic.fix = some edit ∧ edit.span.stop ≤ source.text.length := by
    intro diagnostic hmem
    obtain ⟨edit, hedit, visited, hvisited, hneeds⟩ :=
      Rule.exists_mayNeed (mem_check_of_mem_checkSource hmem)
    obtain ⟨hdocs, hstart⟩ := SourceFile.placed_of_parse hparser hsource visited hvisited
    exact ⟨edit, hedit, hneeds.stop_le_length hdocs hstart⟩
  refine ⟨hfix, ?_⟩
  intro index chosen hchosen hne
  have hin : ∀ edit ∈ fixesOf chosen, edit.span.stop ≤ source.text.length := by
    intro edit hedit
    obtain ⟨diagnostic, hmem, heq⟩ := List.mem_filterMap.1 hedit
    obtain ⟨other, hother, hstop⟩ := hfix index diagnostic (hchosen hmem)
    cases heq.symm.trans hother
    exact hstop
  have hsome : fixesOf chosen ≠ [] := by
    refine fixesOf_ne_nil hne fun diagnostic hmem => ?_
    obtain ⟨edit, hedit, _⟩ := hfix index diagnostic (hchosen hmem)
    exact ⟨edit, hedit⟩
  simpa [FixResult.changed] using applied_ne_nil hin hsome

def roundOf (settings : Settings) (source : SourceFile) (workspace : Workspace) : FixResult :=
  applyEdits source.text (fixesOf (returned (checkSource settings source) workspace.index))

def checked (settings : Settings) (source : SourceFile) (workspace : Workspace) : Workspace :=
  { workspace with index := ((checkSource settings source).run workspace.index).value.2 }

/-- A round that changes nothing finds nothing, and neither does a check after it. -/
theorem Repairable.clean (h : Repairable settings source) {workspace : Workspace}
    (hround : (roundOf settings source workspace).changed = false) :
    returned (checkSource settings source) (checked settings source workspace).index = [] := by
  have hsteady := steady_checkSource settings source
  change returned _ ((checkSource settings source).run workspace.index).value.2 = []
  rw [hsteady.returned_again hsteady]
  by_cases hnone : returned (checkSource settings source) workspace.index = []
  · exact hnone
  · have hchanged := h.progress workspace.index _ (List.Subset.refl _) hnone
    exact absurd (hround.symm.trans hchanged) Bool.false_ne_true

/-- How the repair of a file ends: with a round that changes nothing, after the last round, or
because a text cannot be written or a tree does not fit its text. -/
inductive Ending
  | settled (source : SourceFile)
  | exhausted (source : SourceFile)
  | unwritable (cause : PathError)
  | misfit (error : RangeError)

def Ending.result (file : String) : Ending → Except Halt SourceFile
  | settled source => .ok source
  | exhausted source => .ok source
  | unwritable cause =>
    .error (.reported (.source s!"cannot write {file}: {cause.message file}"))
  | misfit error => .error (.crashed error.message)

/-- The rounds of repair of a file, with the texts that they write, how they end, and the
workspace that they leave. -/
inductive Rounds (parser : Parser) (settings : Settings) :
    Nat → SourceFile → Workspace → List Text → Ending → Workspace → Prop
  | exhausted (source : SourceFile) (workspace : Workspace) :
    Rounds parser settings 0 source workspace [] (.exhausted source) workspace
  | settled (rounds : Nat) {source : SourceFile} {workspace : Workspace}
      (hround : (roundOf settings source workspace).changed = false) :
    Rounds parser settings (rounds + 1) source workspace [] (.settled source)
      (checked settings source workspace)
  | unwritable (rounds : Nat) {source : SourceFile} {workspace : Workspace} {cause : PathError}
      (hround : (roundOf settings source workspace).changed = true)
      (hwrite : workspace.files.write source.file
        (Utf8.encode (roundOf settings source workspace).text) = .error cause) :
    Rounds parser settings (rounds + 1) source workspace [] (.unwritable cause)
      (checked settings source workspace)
  | misfit (rounds : Nat) {source : SourceFile} {workspace : Workspace} {files : FileSystem}
      {error : RangeError}
      (hround : (roundOf settings source workspace).changed = true)
      (hwrite : workspace.files.write source.file
        (Utf8.encode (roundOf settings source workspace).text) = .ok files)
      (hparse : (SourceFile.parse parser source.file
        (roundOf settings source workspace).text).run.value = .error error) :
    Rounds parser settings (rounds + 1) source workspace
      [(roundOf settings source workspace).text] (.misfit error)
      { checked settings source workspace with files }
  | round {rounds : Nat} {source repaired : SourceFile} {workspace after : Workspace}
      {files : FileSystem} {texts : List Text} {ending : Ending}
      (hround : (roundOf settings source workspace).changed = true)
      (hwrite : workspace.files.write source.file
        (Utf8.encode (roundOf settings source workspace).text) = .ok files)
      (hparse : Yields (SourceFile.parse parser source.file
        (roundOf settings source workspace).text) repaired)
      (hrest : Rounds parser settings rounds repaired
        { checked settings source workspace with files } texts ending after) :
    Rounds parser settings (rounds + 1) source workspace
      ((roundOf settings source workspace).text :: texts) ending after

private theorem outcome_repair_of_unchanged {workspace : Workspace} (rounds : Nat)
    (hround : (roundOf settings source workspace).changed = false) :
    Work.outcome (repair parser settings (rounds + 1) source) workspace =
      (.ok source, checked settings source workspace) := by
  rw [repair, Work.outcome_bind, Work.outcome_onIndex]
  dsimp only
  rw [Work.outcome_bind, Work.tell, Work.outcome_ofLogged]
  dsimp only
  rw [if_pos (by simpa [roundOf] using hround)]
  rfl

private theorem outcome_repair_of_changed {workspace : Workspace} (rounds : Nat)
    (hround : (roundOf settings source workspace).changed = true) :
    Work.outcome (repair parser settings (rounds + 1) source) workspace =
      Work.outcome (do
        writeSource source.file (roundOf settings source workspace).text
        let repaired ← Work.attempt (fun error => .crashed error.message)
          (SourceFile.parse parser source.file (roundOf settings source workspace).text)
        repair parser settings rounds repaired) (checked settings source workspace) := by
  rw [repair, Work.outcome_bind, Work.outcome_onIndex]
  dsimp only
  rw [Work.outcome_bind, Work.tell, Work.outcome_ofLogged]
  dsimp only
  rw [if_neg (by simpa [roundOf] using hround), Work.outcome_bind, Work.tell,
    Work.outcome_ofLogged]
  rfl

theorem Rounds.outcome_repair {rounds : Nat} {workspace after : Workspace} {texts : List Text}
    {ending : Ending} (h : Rounds parser settings rounds source workspace texts ending after) :
    Work.outcome (repair parser settings rounds source) workspace =
      (ending.result source.file, after) := by
  induction h with
  | exhausted source workspace => rfl
  | settled rounds hround => exact outcome_repair_of_unchanged rounds hround
  | unwritable rounds hround hwrite =>
    rw [outcome_repair_of_changed rounds hround, Work.outcome_bind, outcome_writeSource, checked,
      hwrite]
    rfl
  | misfit rounds hround hwrite hparse =>
    rw [outcome_repair_of_changed rounds hround, Work.outcome_bind, outcome_writeSource, checked,
      hwrite]
    dsimp only
    rw [Work.outcome_bind, Work.outcome_attempt, hparse]
    rfl
  | @round rounds source repaired workspace after files texts ending hround hwrite hparse hrest ih =>
    obtain ⟨hfile, _⟩ := SourceFile.yields_parse hparse
    rw [outcome_repair_of_changed rounds hround, Work.outcome_bind, outcome_writeSource, checked,
      hwrite]
    dsimp only
    rw [Work.outcome_bind, Work.outcome_attempt, hparse, ← hfile]
    exact ih

theorem exists_rounds (parser : Parser) (settings : Settings) (rounds : Nat) (source : SourceFile)
    (workspace : Workspace) :
    ∃ texts ending after, Rounds parser settings rounds source workspace texts ending after := by
  induction rounds generalizing source workspace with
  | zero => exact ⟨_, _, _, .exhausted source workspace⟩
  | succ rounds ih =>
    cases hround : (roundOf settings source workspace).changed with
    | false => exact ⟨_, _, _, .settled rounds hround⟩
    | true =>
      cases hwrite : workspace.files.write source.file
          (Utf8.encode (roundOf settings source workspace).text) with
      | error cause => exact ⟨_, _, _, .unwritable rounds hround hwrite⟩
      | ok files =>
        cases hparse : (SourceFile.parse parser source.file
            (roundOf settings source workspace).text).run.value with
        | error error => exact ⟨_, _, _, .misfit rounds hround hwrite hparse⟩
        | ok repaired =>
          obtain ⟨texts, ending, after, hrest⟩ :=
            ih repaired { checked settings source workspace with files }
          exact ⟨_, _, _, .round hround hwrite hparse hrest⟩

theorem Rounds.clean (hparser : parser.EndsWithin) {rounds : Nat} {workspace after : Workspace}
    {texts : List Text} {ending : Ending} {repaired : SourceFile}
    (h : Rounds parser settings rounds source workspace texts ending after)
    (hsource : Yields (SourceFile.parse parser source.file source.text) source)
    (hending : ending = .settled repaired) :
    returned (checkSource settings repaired) after.index = [] := by
  induction h with
  | exhausted source workspace => cases hending
  | settled rounds hround =>
    cases hending
    exact (repairable_of_parse hparser hsource settings).clean hround
  | unwritable rounds hround hwrite => cases hending
  | misfit rounds hround hwrite hparse => cases hending
  | round hround hwrite hparse hrest ih =>
    obtain ⟨hfile, htext, _⟩ := SourceFile.yields_parse hparse
    exact ih (by rwa [hfile, htext]) hending

def lastText (source : SourceFile) (texts : List Text) : Text := texts.getLast?.getD source.text

theorem Rounds.text_eq {rounds : Nat} {workspace after : Workspace} {texts : List Text}
    {ending : Ending} {file : String} {repaired : SourceFile}
    (h : Rounds parser settings rounds source workspace texts ending after)
    (hending : ending.result file = .ok repaired) :
    repaired.file = source.file ∧ repaired.text = lastText source texts := by
  induction h with
  | exhausted source workspace =>
    cases hending
    exact ⟨rfl, rfl⟩
  | settled rounds hround =>
    cases hending
    exact ⟨rfl, rfl⟩
  | unwritable rounds hround hwrite => cases hending
  | misfit rounds hround hwrite hparse => cases hending
  | round hround hwrite hparse hrest ih =>
    obtain ⟨hfile, htext, _⟩ := SourceFile.yields_parse hparse
    obtain ⟨hsame, hlast⟩ := ih hending
    refine ⟨hsame.trans hfile, ?_⟩
    rw [hlast, lastText, lastText, List.getLast?_cons, htext]
    rfl

theorem Rounds.files_eq {rounds : Nat} {workspace after : Workspace} {texts : List Text}
    {ending : Ending} (h : Rounds parser settings rounds source workspace texts ending after) :
    (texts = [] → after.files = workspace.files) ∧
      (texts ≠ [] → ∃ name,
        after.files.entry source.file = .ok (.file name (Utf8.encode (lastText source texts)))) := by
  induction h with
  | exhausted source workspace => exact ⟨fun _ => rfl, (absurd rfl ·)⟩
  | settled rounds hround => exact ⟨fun _ => rfl, (absurd rfl ·)⟩
  | unwritable rounds hround hwrite => exact ⟨fun _ => rfl, (absurd rfl ·)⟩
  | misfit rounds hround hwrite hparse => exact ⟨nofun, fun _ => FileSystem.entry_write hwrite⟩
  | @round rounds source repaired workspace after files texts ending hround hwrite hparse hrest ih =>
    obtain ⟨hfile, htext, _⟩ := SourceFile.yields_parse hparse
    refine ⟨nofun, fun _ => ?_⟩
    rw [lastText, List.getLast?_cons, Option.getD_some, ← htext]
    by_cases hnone : texts = []
    · rw [ih.1 hnone, hnone, htext]
      exact FileSystem.entry_write hwrite
    · rw [← hfile]
      exact ih.2 hnone

/-- How a repair goes: it ends as its rounds do, a round that changes nothing ends it with a
clean file, and what it returns is what the file holds. -/
structure Course (parser : Parser) (settings : Settings) (rounds : Nat) (source : SourceFile)
    (workspace : Workspace) (texts : List Text) (ending : Ending) (after : Workspace) : Prop where
  trace : Rounds parser settings rounds source workspace texts ending after
  outcome : Work.outcome (repair parser settings rounds source) workspace =
    (ending.result source.file, after)
  clean : ∀ repaired, ending = .settled repaired →
    returned (checkSource settings repaired) after.index = []
  text : ∀ repaired, ending.result source.file = .ok repaired →
    repaired.file = source.file ∧ repaired.text = lastText source texts
  untouched : texts = [] → after.files = workspace.files
  written : texts ≠ [] → ∃ name,
    after.files.entry source.file = .ok (.file name (Utf8.encode (lastText source texts)))

/-- A repair stops early only with a file in which nothing is found, and returns the text that
it wrote last: every diagnostic can be repaired, and a round that has any repairs one. -/
theorem repair_course (hparser : parser.EndsWithin)
    (hsource : Yields (SourceFile.parse parser source.file source.text) source)
    (settings : Settings) (rounds : Nat) (workspace : Workspace) :
    Repairable settings source ∧
      ∃ texts ending after, Course parser settings rounds source workspace texts ending after := by
  obtain ⟨texts, ending, after, hrounds⟩ := exists_rounds parser settings rounds source workspace
  obtain ⟨huntouched, hwritten⟩ := hrounds.files_eq
  refine ⟨repairable_of_parse hparser hsource settings, texts, ending, after, hrounds,
    hrounds.outcome_repair, ?_, ?_, huntouched, hwritten⟩
  · intro repaired hending
    exact hrounds.clean hparser hsource hending
  · intro repaired hending
    exact hrounds.text_eq hending

def taggedText : Text := "class A \x7b /** @override */ m() \x7b\x7d \x7d".toList

def taggedTree : ParseTree :=
  .node "program" true ⟨0, 35⟩ none
    [.node "class_declaration" true ⟨0, 35⟩ none
      [.node "type_identifier" true ⟨6, 7⟩ (some "name") [],
        .node "class_body" true ⟨8, 35⟩ (some "body")
          [.node "comment" true ⟨10, 26⟩ none [],
            .node "method_definition" true ⟨27, 33⟩ none
              [.node "property_identifier" true ⟨27, 28⟩ (some "name") []]]]]

def taggedParser : Parser := fun _ text =>
  ⟨false, if text = taggedText then taggedTree else .node "program" true ⟨0, 0⟩ none []⟩

def taggedWorkspace : Workspace where
  files := ⟨.directory "" [.file "a.ts" (Utf8.encode taggedText)], [], [], []⟩

theorem repair_course_tagged :
    taggedParser.EndsWithin ∧
      ∃ source, Yields (SourceFile.parse taggedParser source.file source.text) source ∧
        (returned (checkSource {} source) taggedWorkspace.index).length = 1 ∧
        (roundOf {} source taggedWorkspace).changed = true ∧
        ∃ texts ending after,
          Course taggedParser {} maxPasses source taggedWorkspace texts ending after := by
  have hends : taggedParser.EndsWithin := by
    intro _ text tree htree
    unfold taggedParser at htree
    dsimp only at htree
    split at htree
    · rename_i heq
      rw [heq]
      revert tree
      decide +kernel
    · rw [List.mem_singleton.1 htree]
      exact Int.natCast_nonneg _
  have hcount : (SourceFile.parse taggedParser "a.ts" taggedText).run.value.map (fun source =>
      (returned (checkSource {} source) taggedWorkspace.index).length) = .ok 1 := by
    decide +kernel
  cases hparse : (SourceFile.parse taggedParser "a.ts" taggedText).run.value with
  | error error =>
    rw [hparse] at hcount
    cases hcount
  | ok source =>
    rw [hparse] at hcount
    obtain ⟨hfile, htext, _⟩ := SourceFile.yields_parse hparse
    have hsource : Yields (SourceFile.parse taggedParser source.file source.text) source := by
      rw [hfile, htext]
      exact hparse
    obtain ⟨hrepairable, hcourse⟩ := repair_course hends hsource {} maxPasses taggedWorkspace
    have hone := Except.ok.inj hcount
    refine ⟨hends, source, hsource, hone, ?_, hcourse⟩
    exact hrepairable.progress _ _ (List.Subset.refl _) (List.ne_nil_of_length_eq_add_one hone)

end Command
end OverrideLint
