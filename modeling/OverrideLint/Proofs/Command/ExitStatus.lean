import Mathlib.Data.List.TakeWhile
import OverrideLint.Proofs.Command.Phases

/-! The exit status of a run. The repairs of one file change neither what the index answers
nor which files can be written, so how each of them ends can be foreseen from the files at
the start. From that follow the diagnostics that remain, and with them the status and what
is printed. -/
namespace OverrideLint.Command

open Rule (returned)

def Ending.source? : Ending → Option SourceFile
  | settled source => some source
  | exhausted source => some source
  | unwritable _ => none
  | misfit _ => none

namespace Job

variable (job : Job)

def remainingIn (source : SourceFile) : List Diagnostic :=
  Suppression.keep
    (job.settings.suppressions ++ Suppression.inline source.file source.text)
    (Rule.check (m := Id) job.index.oracle job.settings.severity source)

def settle : Nat → SourceFile → Ending
  | 0, source => .exhausted source
  | rounds + 1, source =>
    let round := applyEdits source.text (fixesOf (job.remainingIn source))
    if round.changed = false then .settled source
    else match job.files.write source.file (Utf8.encode round.text) with
      | .error cause => .unwritable cause
      | .ok _ =>
        match (SourceFile.parse job.parser source.file round.text).run.value with
        | .error error => .misfit error
        | .ok repaired => settle rounds repaired

def ending (source : SourceFile) : Ending :=
  job.settle (if job.options.fix then maxPasses else 0) source

def final (source : SourceFile) : SourceFile := (job.ending source).source?.getD source

private def collect (findings : Findings) (sources : List SourceFile) : Findings where
  texts := (sources.map fun source => ((job.final source).file, (job.final source).text)).reverse
    ++ findings.texts
  diagnostics := findings.diagnostics ++
    sources.flatMap fun source => job.remainingIn (job.final source)
  failures := findings.failures + sources.countP fun source => (job.ending source).source?.isNone

private theorem collect_nil (findings : Findings) : job.collect findings [] = findings := by
  simp [collect]

private theorem collect_cons (findings : Findings) (source : SourceFile) (rest : List SourceFile) :
    job.collect findings (source :: rest) =
      job.collect ⟨((job.final source).file, (job.final source).text) :: findings.texts,
        findings.diagnostics ++ job.remainingIn (job.final source),
        findings.failures + if (job.ending source).source?.isNone then 1 else 0⟩ rest := by
  simp only [collect, List.map_cons, List.reverse_cons, List.append_assoc, List.singleton_append,
    List.flatMap_cons, List.countP_cons, Nat.add_assoc, Nat.add_comm]

/-- A workspace that differs from the one at the start of the repairs in what is remembered
and in what the files hold, and in nothing that matters to later repairs. -/
structure Keeps (workspace : Workspace) : Prop where
  oracle : workspace.index.oracle = job.index.oracle
  shape : job.files.SameShape workspace.files

variable {job} {workspace after : Workspace} {source : SourceFile}

theorem Keeps.returned_eq (h : job.Keeps workspace) (source : SourceFile) :
    returned (checkSource job.settings source) workspace.index = job.remainingIn source := by
  rw [(steady_checkSource job.settings source).returned_eq, h.oracle]
  rfl

theorem Keeps.roundOf_eq (h : job.Keeps workspace) (source : SourceFile) :
    roundOf job.settings source workspace =
      applyEdits source.text (fixesOf (job.remainingIn source)) := by
  rw [roundOf, h.returned_eq]

theorem Keeps.checked (h : job.Keeps workspace) (source : SourceFile) :
    job.Keeps (checked job.settings source workspace) :=
  ⟨((steady_checkSource job.settings source).unchanged workspace.index).trans h.oracle, h.shape⟩

theorem Keeps.written (h : job.Keeps workspace) {path : String} {content : Bytes}
    {files : FileSystem} (hwrite : workspace.files.write path content = .ok files) :
    job.Keeps { workspace with files } :=
  ⟨h.oracle, h.shape.trans (FileSystem.sameShape_write hwrite)⟩

theorem Keeps.write_ok (h : job.Keeps workspace) {path : String} {content written : Bytes}
    {files : FileSystem} (hwrite : workspace.files.write path content = .ok files) :
    ∃ files', job.files.write path written = .ok files' := by
  cases hfirst : job.files.write path written with
  | ok files' => exact ⟨files', rfl⟩
  | error cause => cases hwrite.symm.trans (h.shape.symm.write_eq_error hfirst)

/-- The rounds of a repair end as is foreseen from the start, whatever was repaired before. -/
theorem settle_of_rounds {rounds : Nat} {texts : List Text} {ending : Ending}
    (h : Rounds job.parser job.settings rounds source workspace texts ending after)
    (hkeeps : job.Keeps workspace) :
    ending = job.settle rounds source ∧ job.Keeps after := by
  induction h with
  | exhausted source workspace => exact ⟨rfl, hkeeps⟩
  | settled rounds hround =>
    rw [hkeeps.roundOf_eq] at hround
    rw [settle, if_pos hround]
    exact ⟨rfl, hkeeps.checked _⟩
  | unwritable rounds hround hwrite =>
    rw [hkeeps.roundOf_eq] at hround hwrite
    rw [settle, if_neg (by rw [hround]; decide), hkeeps.shape.write_eq_error hwrite]
    exact ⟨rfl, hkeeps.checked _⟩
  | @misfit rounds source workspace files error hround hwrite hparse =>
    -- The text is written to the files as they are now, and foreseen for those at the start.
    have hafter := (hkeeps.checked source).written hwrite
    rw [hkeeps.roundOf_eq] at hround hwrite hparse
    obtain ⟨files', hfirst⟩ := hkeeps.write_ok hwrite
    rw [settle, if_neg (by rw [hround]; decide), hfirst]
    dsimp only
    rw [hparse]
    exact ⟨rfl, hafter⟩
  | @round rounds source repaired workspace after files texts ending hround hwrite hparse hrest ih =>
    have hafter := (hkeeps.checked source).written hwrite
    rw [hkeeps.roundOf_eq] at hround hwrite hparse
    obtain ⟨files', hfirst⟩ := hkeeps.write_ok hwrite
    rw [settle, if_neg (by rw [hround]; decide), hfirst]
    dsimp only
    rw [hparse]
    exact ih hafter

private theorem outcome_repairIfAsked (hkeeps : job.Keeps workspace) (source : SourceFile) :
    ((∀ error, job.ending source ≠ .misfit error) ∧ ∃ after, job.Keeps after ∧
        Work.outcome (repairIfAsked job.parser job.options job.settings source) workspace =
          (.ok (job.final source, if (job.ending source).source?.isNone then 1 else 0), after)) ∨
      ((∃ error, job.ending source = .misfit error) ∧ ∃ halt after,
        Work.outcome (repairIfAsked job.parser job.options job.settings source) workspace =
          (.error halt, after)) := by
  unfold repairIfAsked final ending
  split
  · obtain ⟨texts, ending, after, hrounds⟩ :=
      exists_rounds job.parser job.settings maxPasses source workspace
    obtain ⟨hending, hafter⟩ := settle_of_rounds hrounds hkeeps
    have hrepair := Work.outcome_orReport (repair job.parser job.settings maxPasses source) workspace
    rw [hrounds.outcome_repair] at hrepair
    rw [← hending]
    cases ending with
    | settled repaired =>
      exact .inl ⟨nofun, after, hafter, Work.outcome_bind_ok hrepair⟩
    | exhausted repaired =>
      exact .inl ⟨nofun, after, hafter, Work.outcome_bind_ok hrepair⟩
    | unwritable cause =>
      exact .inl ⟨nofun, after, hafter, Work.outcome_bind_ok hrepair⟩
    | misfit error =>
      exact .inr ⟨⟨error, rfl⟩, _, after, Work.outcome_bind_error hrepair⟩
  · exact .inl ⟨nofun, workspace, hkeeps, rfl⟩

private theorem outcome_checkSources (hkeeps : job.Keeps workspace) (findings : Findings)
    (sources : List SourceFile) :
    ((∀ source ∈ sources, ∀ error, job.ending source ≠ .misfit error) ∧ ∃ after,
        Work.outcome (checkSources job.parser job.options job.settings findings sources) workspace =
          (.ok (job.collect findings sources), after)) ∨
      ((∃ source ∈ sources, ∃ error, job.ending source = .misfit error) ∧ ∃ halt after,
        Work.outcome (checkSources job.parser job.options job.settings findings sources) workspace =
          (.error halt, after)) := by
  induction sources generalizing findings workspace with
  | nil =>
    rw [checkSources, Work.outcome_pure, collect_nil]
    exact .inl ⟨nofun, workspace, rfl⟩
  | cons source rest ih =>
    rw [checkSources]
    rcases outcome_repairIfAsked hkeeps source with
      ⟨hfits, after, hafter, hrepair⟩ | ⟨hmisfit, halt, after, hrepair⟩
    · have hcheck := Work.outcome_onIndex (checkSource job.settings (job.final source)) after
      rw [Work.outcome_bind_ok hrepair, Work.outcome_bind_ok hcheck, hafter.returned_eq,
        collect_cons]
      rcases ih (hafter.checked (job.final source)) _ with
        ⟨hrest, hmore⟩ | ⟨⟨other, hmem, hmisfit⟩, hmore⟩
      · exact .inl ⟨List.forall_mem_cons.2 ⟨hfits, hrest⟩, hmore⟩
      · exact .inr ⟨⟨other, List.mem_cons_of_mem _ hmem, hmisfit⟩, hmore⟩
    · exact .inr ⟨⟨source, List.mem_cons_self, hmisfit⟩, halt, after,
        Work.outcome_bind_error hrepair⟩

variable (job)

def remaining : List Diagnostic :=
  job.sources.flatMap fun source => job.remainingIn (job.final source)

def texts : List (String × Text) :=
  (job.sources.map fun source => ((job.final source).file, (job.final source).text)).reverse

def unwritten : Nat := job.sources.countP fun source => (job.ending source).source?.isNone

private theorem collect_sources :
    job.collect {} job.sources = ⟨job.texts, job.remaining, job.unwritten⟩ := by
  simp [collect, texts, remaining, unwritten]

def printed (palette : Palette) : Printed :=
  Report.print (Format.ofName job.options.format) palette job.texts job.remaining

inductive Halts : Prop
  | missing {path : String} {cause : PathError} (hpath : path ∈ job.options.paths)
      (hentry : job.files.entry path = .error cause)
  | stubs (hstubs : ¬ job.StubsLoad)
  | faulty {path : String} (hpath : path ∈ job.discovered) (hfaulty : job.Faulty path)
  | misrepaired {source : SourceFile} {error : RangeError} (hsource : source ∈ job.sources)
      (hending : job.ending source = .misfit error)

/-- What makes a run fail: all that ends it early, a source that cannot be read or decoded, a
repaired one that cannot be written, and a report that cannot be printed. -/
inductive Fails (palette : Palette) : Prop
  | halts (hhalts : job.Halts)
  | unreadable {path : String} {error : SourceError} (hpath : path ∈ job.discovered)
      (hread : SourceFile.readText job.files path = .error error)
  | unwritable {source : SourceFile} {cause : PathError} (hsource : source ∈ job.sources)
      (hending : job.ending source = .unwritable cause)
  | unprintable {fault : WidthError} (hfault : (job.printed palette).fault = some fault)

def check (coloured : Bool) : Work Result := do
  let loaded ← findSources job.parser job.options job.settings
  buildIndex job.options job.settings loaded.1
  let findings ← checkSources job.parser job.options job.settings {} loaded.1
  return ⟨Report.print (Format.ofName job.options.format) ⟨coloured⟩ findings.texts
      findings.diagnostics,
    exitStatus (loaded.2 + findings.failures) (Report.errorCount findings.diagnostics)⟩

theorem outcome_check (coloured : Bool) :
    (job.Halts ∧ ∃ halt after,
        Work.outcome (job.check coloured) { files := job.files } = (.error halt, after)) ∨
      (¬ job.Halts ∧ ∃ after,
        Work.outcome (job.check coloured) { files := job.files } =
          (.ok ⟨job.printed ⟨coloured⟩,
            exitStatus (job.unread + job.unwritten) (Report.errorCount job.remaining)⟩, after)) := by
  rw [check]
  rcases outcome_findSources job { files := job.files } rfl with
    ⟨hentries, hsound, hfind⟩ | ⟨hmissing | ⟨path, hpath, hfaulty⟩, halt, hfind⟩
  · rw [Work.outcome_bind_ok hfind]
    rcases job.outcome_buildIndex with ⟨hstubs, hbuild⟩ | ⟨hstubs, halt, after, hbuild⟩
    · rw [Work.outcome_bind_ok hbuild]
      have hkeeps : job.Keeps ⟨job.files, job.index⟩ := ⟨rfl, .refl _⟩
      rcases outcome_checkSources hkeeps {} job.sources with
        ⟨hfits, after, hcheck⟩ | ⟨⟨source, hsource, error, hending⟩, halt, after, hcheck⟩
      · rw [Work.outcome_bind_ok hcheck, collect_sources]
        refine .inr ⟨?_, after, rfl⟩
        rintro (⟨hpath, hentry⟩ | hrefused | ⟨hpath, hfaulty⟩ | ⟨hsource, hending⟩)
        · obtain ⟨entry, hfound⟩ := hentries _ hpath
          cases hentry.symm.trans hfound
        · exact hrefused hstubs
        · exact hsound _ hpath hfaulty
        · exact hfits _ hsource _ hending
      · exact .inl ⟨.misrepaired hsource hending, halt, after, Work.outcome_bind_error hcheck⟩
    · exact .inl ⟨.stubs hstubs, halt, after, Work.outcome_bind_error hbuild⟩
  · obtain ⟨path, hpath, cause, hentry⟩ := hmissing
    exact .inl ⟨.missing hpath hentry, halt, _, Work.outcome_bind_error hfind⟩
  · exact .inl ⟨.faulty hpath hfaulty, halt, _, Work.outcome_bind_error hfind⟩

end Job

section Conclusion

private theorem outcome_check_eq (parser : Parser) (coloured : Bool) (options : Options)
    (files : FileSystem) :
    Work.outcome (check parser coloured options) { files } =
      match settingsFor files options with
      | .error error => (.error (Halt.ofSettingsError error), { files })
      | .ok settings =>
        Work.outcome (Job.check ⟨parser, files, options, settings⟩ coloured) { files } := by
  have hload := outcome_loadSettings options { files }
  rw [check, settingsFor]
  cases hsettings : readSettings files options with
  | error error =>
    rw [hsettings] at hload
    exact Work.outcome_bind_error hload
  | ok settings =>
    rw [hsettings] at hload
    exact Work.outcome_bind_ok hload

variable {options : Options} {ran : Logged (Except Halt Result × Workspace)} {after : Workspace}

private theorem conclude_of_error {halt : Halt} (h : ran.value = (.error halt, after)) :
    (conclude options ran).status = 2 := by
  unfold conclude
  rw [h]

private theorem conclude_of_ok {result : Result} (h : ran.value = (.ok result, after)) :
    (conclude options ran).output = result.report.output ∧
      (conclude options ran).status =
        if result.report.fault.isSome then 2 else result.status := by
  unfold conclude
  rw [h]
  dsimp only
  cases result.report.fault with
  | none => exact ⟨rfl, (if_neg Bool.false_ne_true).symm⟩
  | some fault => exact ⟨rfl, rfl⟩

private theorem exitStatus_eq_two_iff {failures errors : Nat} :
    exitStatus failures errors = 2 ↔ 0 < failures := by
  unfold exitStatus
  split
  · simp [*]
  · split <;> simp [*]

private theorem output_print {format : Format} {palette : Palette} {texts : List (String × Text)}
    {diagnostics : List Diagnostic}
    (h : (Report.print format palette texts diagnostics).fault = none) :
    (Report.print format palette texts diagnostics).output =
      String.join (diagnostics.map (Report.line format palette texts)) ++
        if format = .summary then Report.trailer diagnostics else "" := by
  have hall : diagnostics.takeWhile (fun d => (Report.fault? format texts d).isNone) =
      diagnostics := by
    rw [List.takeWhile_eq_self_iff]
    intro d hd
    rw [List.findSome?_eq_none_iff.1 h d hd]
    rfl
  rw [Report.print, hall]

end Conclusion

namespace Job

variable {job : Job}

private theorem unread_pos_iff (h : ¬ job.Halts) :
    0 < job.unread ↔ ∃ path ∈ job.discovered, ∃ error,
      SourceFile.readText job.files path = .error error := by
  rw [unread, List.countP_pos_iff]
  refine exists_congr fun path => and_congr_right fun hpath => ?_
  rw [source?, load_eq]
  cases hread : SourceFile.readText job.files path with
  | error error => simp [Except.toOption]
  | ok text =>
    cases hparse : (SourceFile.parse job.parser path text).run.value with
    | error cause => exact absurd (.faulty hpath (.misfit hread hparse)) h
    | ok source =>
      dsimp only
      rw [hparse]
      simp [Except.toOption, Except.mapError]

private theorem unwritten_pos_iff (h : ¬ job.Halts) :
    0 < job.unwritten ↔ ∃ source ∈ job.sources, ∃ cause,
      job.ending source = .unwritable cause := by
  rw [unwritten, List.countP_pos_iff]
  refine exists_congr fun source => and_congr_right fun hsource => ?_
  cases hending : job.ending source with
  | settled repaired => simp [Ending.source?]
  | exhausted repaired => simp [Ending.source?]
  | unwritable cause => simp [Ending.source?]
  | misfit error => exact absurd (.misrepaired hsource hending) h

private theorem fails_iff (palette : Palette) (h : ¬ job.Halts) :
    job.Fails palette ↔ 0 < job.unread + job.unwritten ∨
      (job.printed palette).fault.isSome = true := by
  have hunread := unread_pos_iff h
  have hunwritten := unwritten_pos_iff h
  constructor
  · rintro (hhalts | ⟨hpath, hread⟩ | ⟨hsource, hending⟩ | hfault)
    · exact absurd hhalts h
    · have := hunread.2 ⟨_, hpath, _, hread⟩
      exact .inl (by omega)
    · have := hunwritten.2 ⟨_, hsource, _, hending⟩
      exact .inl (by omega)
    · exact .inr (by rw [hfault]; rfl)
  · rintro (hpos | hfault)
    · rcases Nat.add_pos_iff_pos_or_pos.1 hpos with hpos | hpos
      · obtain ⟨path, hpath, error, hread⟩ := hunread.1 hpos
        exact .unreadable hpath hread
      · obtain ⟨source, hsource, cause, hending⟩ := hunwritten.1 hpos
        exact .unwritable hsource hending
    · obtain ⟨fault, hfault⟩ := Option.isSome_iff_exists.1 hfault
      exact .unprintable hfault

def remainingAt (job : Job) (path : String) : List Diagnostic :=
  (job.source? path).toList.flatMap job.remainingIn

private theorem final_of_not_fix (h : job.options.fix = false) (source : SourceFile) :
    job.final source = source := by
  rw [final, ending, h]
  rfl

private theorem remaining_of_not_fix (h : job.options.fix = false) :
    job.remaining = job.discovered.flatMap job.remainingAt := by
  simp only [remaining, final_of_not_fix h, sources, List.filterMap_eq_flatMap_toList,
    List.flatMap_assoc]
  rfl

/-- What a run under known settings answers. It fails for one of the known reasons, and else
its status says whether an error remains. Without repairs, all that remains in every file that
can be read is printed in the order of discovery, whatever becomes of other files. -/
structure Answers (job : Job) (palette : Palette) (outcome : Outcome) : Prop where
  failed : outcome.status = 2 ↔ job.Fails palette
  found : ¬ job.Fails palette →
    (outcome.status = 1 ↔ ∃ diagnostic ∈ job.remaining, diagnostic.severity = .error)
  clean : ¬ job.Fails palette →
    (outcome.status = 0 ↔ ∀ diagnostic ∈ job.remaining, diagnostic.severity ≠ .error)
  printed : (∀ path ∈ job.options.paths, ∃ entry, job.files.entry path = .ok entry) →
    job.StubsLoad → (∀ path ∈ job.discovered, ¬ job.Faulty path) → job.options.fix = false →
    job.remaining = job.discovered.flatMap job.remainingAt ∧
      outcome.output = (job.printed palette).output ∧
      ((job.printed palette).fault = none → outcome.output =
        String.join (job.remaining.map
          (Report.line (Format.ofName job.options.format) palette job.texts)) ++
        if Format.ofName job.options.format = .summary then Report.trailer job.remaining else "")

variable {palette : Palette} {outcome : Outcome}

theorem answers_of_halts (h : job.Halts) (hstatus : outcome.status = 2) :
    job.Answers palette outcome where
  failed := ⟨fun _ => .halts h, fun _ => hstatus⟩
  found hfails := absurd (.halts h) hfails
  clean hfails := absurd (.halts h) hfails
  printed := by
    intro hentries hstubs hsound hfix
    rcases h with ⟨hpath, hentry⟩ | hrefused | ⟨hpath, hfaulty⟩ | ⟨hsource, hending⟩
    · obtain ⟨entry, hfound⟩ := hentries _ hpath
      cases hentry.symm.trans hfound
    · exact absurd hstubs hrefused
    · exact absurd hfaulty (hsound _ hpath)
    · rw [ending, hfix] at hending
      cases hending

theorem answers_of_report (h : ¬ job.Halts)
    (houtput : outcome.output = (job.printed palette).output)
    (hstatus : outcome.status =
      if (job.printed palette).fault.isSome then 2
      else exitStatus (job.unread + job.unwritten) (Report.errorCount job.remaining)) :
    job.Answers palette outcome := by
  have hfails := fails_iff palette h
  have hrest : ¬ job.Fails palette →
      outcome.status = if 0 < Report.errorCount job.remaining then 1 else 0 := by
    intro hnot
    rw [hfails, not_or] at hnot
    rw [hstatus, if_neg hnot.2, exitStatus, if_neg hnot.1]
  have herrors : 0 < Report.errorCount job.remaining ↔
      ∃ diagnostic ∈ job.remaining, diagnostic.severity = .error := by
    rw [Report.errorCount, List.countP_pos_iff]
    simp only [decide_eq_true_eq]
  refine ⟨?_, ?_, ?_, ?_⟩
  · rw [hfails, hstatus]
    split
    · rename_i hfault
      exact ⟨fun _ => .inr hfault, fun _ => rfl⟩
    · rename_i hfault
      rw [exitStatus_eq_two_iff, or_iff_left hfault]
  · intro hnot
    rw [hrest hnot, ← herrors, ite_eq_left_iff]
    simp
  · intro hnot
    have hclean : (∀ diagnostic ∈ job.remaining, diagnostic.severity ≠ .error) ↔
        ¬ 0 < Report.errorCount job.remaining := by
      rw [herrors]
      simp only [not_exists, not_and, ne_eq]
    rw [hrest hnot, hclean, ite_eq_right_iff]
    simp
  · intro _ _ _ hfix
    refine ⟨remaining_of_not_fix hfix, houtput, fun hfault => ?_⟩
    exact houtput.trans (output_print hfault)

end Job

def mixedFiles : FileSystem where
  root := .directory "" [.file "a.ts" (Utf8.encode taggedText), .file "b.ts" [0xff]]
  cwd := []

def mixedJob : Job := ⟨taggedParser, mixedFiles, { paths := ["b.ts", "a.ts"] }, {}⟩

end OverrideLint.Command
