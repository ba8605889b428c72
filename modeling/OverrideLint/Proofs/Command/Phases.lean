import OverrideLint.Command.Basic
import OverrideLint.Proofs.Command.Repair

/-! The phases of a run. What each one ends with is told by the files at the start, the
command line and the settings alone: no phase before the repairs writes a file, and no repair
changes what the index answers or which files can be written. -/
namespace OverrideLint

namespace Work

variable {α β : Type} {workspace after : Workspace}

theorem outcome_bind_ok {action : Work α} {next : α → Work β} {a : α}
    (h : outcome action workspace = (.ok a, after)) :
    outcome (action >>= next) workspace = outcome (next a) after := by
  rw [outcome_bind, h]

theorem outcome_bind_error {action : Work α} {next : α → Work β} {halt : Halt}
    (h : outcome action workspace = (.error halt, after)) :
    outcome (action >>= next) workspace = (.error halt, after) := by
  rw [outcome_bind, h]

theorem outcome_pure (a : α) (workspace : Workspace) :
    outcome (pure a) workspace = (.ok a, workspace) :=
  rfl

theorem outcome_files (workspace : Workspace) :
    outcome files workspace = (.ok workspace.files, workspace) :=
  rfl

private theorem outcome_tryCatch (action : Work α) (handle : Halt → Work α)
    (workspace : Workspace) :
    outcome (tryCatch action handle) workspace =
      match outcome action workspace with
      | (.ok a, after) => (.ok a, after)
      | (.error halt, after) => outcome (handle halt) after := by
  change outcome (ExceptT.tryCatch action handle) workspace = _
  unfold outcome ExceptT.tryCatch ExceptT.run ExceptT.mk StateT.run
  change (StateT.bind action _ workspace).value = _
  unfold StateT.bind
  rcases action workspace with ⟨⟨halt | a, after⟩, log⟩ <;> rfl

theorem outcome_orReport (action : Work α) (workspace : Workspace) :
    outcome (orReport action) workspace =
      match outcome action workspace with
      | (.ok a, after) => (.ok (some a), after)
      | (.error (.reported _), after) => (.ok none, after)
      | (.error (.crashed message), after) => (.error (.crashed message), after) := by
  rw [orReport, outcome_tryCatch, map_eq_pure_bind, outcome_bind]
  rcases outcome action workspace with ⟨(problem | message) | a, after⟩ <;> rfl

end Work

namespace Command

/-- A run whose settings have been read. -/
structure Job where
  parser : Parser
  files : FileSystem
  options : Options
  settings : Settings

def readSettings (files : FileSystem) (options : Options) : Except SettingsError Settings :=
  match settingsPath? files options with
  | none => .ok {}
  | some path => (Settings.load loadingSteps files path).run.value

def settingsFor (files : FileSystem) (options : Options) : Except SettingsError Settings :=
  (readSettings files options).map (withSeverity · options)

theorem outcome_loadSettings (options : Options) (workspace : Workspace) :
    Work.outcome (loadSettings options) workspace =
      ((readSettings workspace.files options).mapError Halt.ofSettingsError, workspace) := by
  rw [loadSettings, Work.outcome_bind, Work.outcome_files]
  dsimp only
  unfold readSettings
  cases settingsPath? workspace.files options with
  | none => rfl
  | some path =>
    dsimp only
    rw [Work.outcome_bind, Work.info, Work.tell, Work.outcome_ofLogged]
    dsimp only
    rw [Work.outcome_bind, Work.outcome_files]
    exact Work.outcome_attempt ..

namespace Job

variable (job : Job)

def discovered : List String :=
  job.options.paths.flatMap fun path => (job.settings.sourcesAt? job.files path).getD []

def load (path : String) : Except SourceError SourceFile :=
  (SourceFile.load job.files job.parser path).run.value

def source? (path : String) : Option SourceFile := (job.load path).toOption

def sources : List SourceFile := job.discovered.filterMap job.source?

theorem load_eq (path : String) :
    job.load path =
      match SourceFile.readText job.files path with
      | .error error => .error error
      | .ok text =>
        (SourceFile.parse job.parser path text).run.value.mapError SourceError.misfit := by
  rw [load, SourceFile.load]
  cases SourceFile.readText job.files path with
  | error error => rfl
  | ok text =>
    change ((SourceFile.parse job.parser path text).run.value.mapError _) = _
    rfl

/-- A file whose loading ends the run: its path is that of no file, or its tree does not fit
its text. -/
inductive Faulty (path : String) : Prop
  | nullInPath (hnull : Path.hasNull path = true)
  | misfit {text : Text} {error : RangeError}
      (hread : SourceFile.readText job.files path = .ok text)
      (hparse : (SourceFile.parse job.parser path text).run.value = .error error)

private theorem readText_of_hasNull {files : FileSystem} {path : String}
    (h : Path.hasNull path = true) :
    SourceFile.readText files path = .error .nullInPath := by
  rw [SourceFile.readText, if_pos h]

/-- The only text that is not read and not reported is one that no file can hold. -/
theorem hasNull_of_readText {files : FileSystem} {path : String} {error : SourceError}
    (h : SourceFile.readText files path = .error error) (hnone : error.problem? = none) :
    Path.hasNull path = true := by
  unfold SourceFile.readText at h
  split at h
  · assumption
  split at h
  · cases h
    cases hnone
  · cases h
    cases hnone
  · split at h
    · cases h
      cases hnone
    · cases h

theorem faulty_iff {path : String} :
    job.Faulty path ↔ ∃ error, job.load path = .error error ∧ error.problem? = none := by
  rw [load_eq]
  constructor
  · rintro (hnull | ⟨hread, hparse⟩)
    · rw [readText_of_hasNull hnull]
      exact ⟨_, rfl, rfl⟩
    · rw [hread]
      dsimp only
      rw [hparse]
      exact ⟨_, rfl, rfl⟩
  · rintro ⟨error, hload, hnone⟩
    cases hread : SourceFile.readText job.files path with
    | error other =>
      rw [hread] at hload
      cases hload
      exact .nullInPath (hasNull_of_readText hread hnone)
    | ok text =>
      rw [hread] at hload
      dsimp only at hload
      cases hparse : (SourceFile.parse job.parser path text).run.value with
      | error cause => exact .misfit hread hparse
      | ok source =>
        rw [hparse] at hload
        cases hload

variable {workspace : Workspace}

theorem outcome_load (path : String) :
    (¬ job.Faulty path ∧
        Work.outcome (Work.orReport (Work.attempt Halt.ofSourceError
          (SourceFile.load job.files job.parser path))) workspace =
            (.ok (job.source? path), workspace)) ∨
      (job.Faulty path ∧ ∃ halt,
        Work.outcome (Work.orReport (Work.attempt Halt.ofSourceError
          (SourceFile.load job.files job.parser path))) workspace = (.error halt, workspace)) := by
  rw [Work.outcome_orReport, Work.outcome_attempt, faulty_iff, source?, load]
  cases (SourceFile.load job.files job.parser path).run.value with
  | ok source => exact .inl ⟨by simp, rfl⟩
  | error error =>
    cases hproblem : error.problem? with
    | none =>
      refine .inr ⟨⟨error, rfl, hproblem⟩, .crashed error.message, ?_⟩
      simp only [Except.mapError, Halt.ofSourceError, Halt.ofProblem?, hproblem]
    | some problem =>
      refine .inl ⟨by simp [hproblem], ?_⟩
      simp only [Except.mapError, Halt.ofSourceError, Halt.ofProblem?, hproblem]
      rfl

theorem outcome_loadSources (hfiles : workspace.files = job.files) (paths : List String) :
    ((∀ path ∈ paths, ¬ job.Faulty path) ∧
        Work.outcome (loadSources job.parser paths) workspace =
          (.ok (paths.filterMap job.source?, paths.countP fun path => (job.source? path).isNone),
            workspace)) ∨
      (∃ path ∈ paths, job.Faulty path) ∧
        ∃ halt, Work.outcome (loadSources job.parser paths) workspace = (.error halt, workspace) := by
  induction paths with
  | nil => exact .inl ⟨nofun, rfl⟩
  | cons path rest ih =>
    rw [loadSources, Work.outcome_bind_ok (Work.outcome_files workspace), hfiles]
    rcases job.outcome_load path with ⟨hpath, hload⟩ | ⟨hpath, halt, hload⟩
    · rw [Work.outcome_bind_ok hload]
      rcases ih with ⟨hrest, hothers⟩ | ⟨⟨other, hmem, hother⟩, halt, hothers⟩
      · rw [Work.outcome_bind_ok hothers]
        refine .inl ⟨List.forall_mem_cons.2 ⟨hpath, hrest⟩, ?_⟩
        cases hsource : job.source? path with
        | none =>
          rw [List.filterMap_cons_none hsource, List.countP_cons_of_pos (by rw [hsource]; rfl)]
          rfl
        | some source =>
          rw [List.filterMap_cons_some hsource, List.countP_cons_of_neg (by simp [hsource])]
          rfl
      · rw [Work.outcome_bind_error hothers]
        exact .inr ⟨⟨other, List.mem_cons_of_mem _ hmem, hother⟩, halt, rfl⟩
    · rw [Work.outcome_bind_error hload]
      exact .inr ⟨⟨path, List.mem_cons_self, hpath⟩, halt, rfl⟩

end Job

section Discovery

variable {settings : Settings} {files : FileSystem} {paths : List String}

private theorem sourcesAt?_eq_none_iff {path : String} :
    settings.sourcesAt? files path = none ↔ ∃ cause, files.entry path = .error cause := by
  unfold Settings.sourcesAt?
  rcases files.entry path with cause | ⟨name, content⟩ | ⟨name, entries⟩ <;> simp

private theorem sources_eq (settings : Settings) (files : FileSystem) (paths : List String) :
    (settings.sources files paths =
        (paths.flatMap fun path => (settings.sourcesAt? files path).getD [], none) ∧
        ∀ path ∈ paths, ∃ entry, files.entry path = .ok entry) ∨
      ∃ path ∈ paths, (settings.sources files paths).2 = some path ∧
        ∃ cause, files.entry path = .error cause := by
  induction paths with
  | nil => exact .inl ⟨rfl, nofun⟩
  | cons path rest ih =>
    rw [Settings.sources]
    cases hpath : settings.sourcesAt? files path with
    | none => exact .inr ⟨path, List.mem_cons_self, rfl, sourcesAt?_eq_none_iff.1 hpath⟩
    | some found =>
      rcases ih with ⟨heq, hentries⟩ | ⟨missing, hmem, hsome, hentry⟩
      · refine .inl ⟨?_, List.forall_mem_cons.2 ⟨?_, hentries⟩⟩
        · rw [heq, List.flatMap_cons, hpath]
          rfl
        · cases hentry : files.entry path with
          | error cause =>
            rw [sourcesAt?_eq_none_iff.2 ⟨cause, hentry⟩] at hpath
            cases hpath
          | ok entry => exact ⟨entry, rfl⟩
      · exact .inr ⟨missing, List.mem_cons_of_mem _ hmem, hsome, hentry⟩

end Discovery

namespace Job

variable (job : Job) {workspace : Workspace}

def unread : Nat := job.discovered.countP fun path => (job.source? path).isNone

theorem outcome_findSources (workspace : Workspace) (hfiles : workspace.files = job.files) :
    ((∀ path ∈ job.options.paths, ∃ entry, job.files.entry path = .ok entry) ∧
        (∀ path ∈ job.discovered, ¬ job.Faulty path) ∧
        Work.outcome (findSources job.parser job.options job.settings) workspace =
          (.ok (job.sources, job.unread), workspace)) ∨
      ((∃ path ∈ job.options.paths, ∃ cause, job.files.entry path = .error cause) ∨
          ∃ path ∈ job.discovered, job.Faulty path) ∧
        ∃ halt, Work.outcome (findSources job.parser job.options job.settings) workspace =
          (.error halt, workspace) := by
  rw [findSources, Work.outcome_bind_ok (Work.outcome_files workspace), hfiles]
  rcases sources_eq job.settings job.files job.options.paths with
    ⟨hfound, hentries⟩ | ⟨path, hmem, hmissing, hentry⟩
  · rw [hfound]
    rcases job.outcome_loadSources hfiles job.discovered with
      ⟨hsound, hload⟩ | ⟨hfault, halt, hload⟩
    · exact .inl ⟨hentries, hsound, Work.outcome_bind_ok hload⟩
    · exact .inr ⟨.inr hfault, halt, Work.outcome_bind_error hload⟩
  · -- The files before the missing path are read first, and a fault among them ends the run.
    refine .inr ⟨.inl ⟨path, hmem, hentry⟩, ?_⟩
    rcases job.outcome_loadSources hfiles (job.settings.sources job.files job.options.paths).1 with
      ⟨-, hload⟩ | ⟨-, halt, hload⟩
    · refine ⟨.reported (missingPath path), (Work.outcome_bind_ok hload).trans ?_⟩
      rw [hmissing]
      rfl
    · exact ⟨halt, Work.outcome_bind_error hload⟩

end Job

section Stubs

def StubsRead (stubs : List (WideString × Json)) : Prop :=
  ∀ stub ∈ stubs, ∃ outline, TypeOutline.ofStub stub.1 stub.2 = .ok outline

private theorem loadStubs_eq_none_iff (index : TypeIndex) (origin : String)
    (stubs : List (WideString × Json)) :
    (index.loadStubs origin stubs).2 = none ↔ StubsRead stubs := by
  induction stubs generalizing index with
  | nil => exact ⟨fun _ => nofun, fun _ => rfl⟩
  | cons stub rest ih =>
    obtain ⟨name, body⟩ := stub
    rw [TypeIndex.loadStubs, StubsRead, List.forall_mem_cons]
    cases TypeOutline.ofStub name body with
    | error error => simp
    | ok outline => exact (ih _).trans ⟨fun h => ⟨⟨outline, rfl⟩, h⟩, And.right⟩

private theorem outcome_loadStubs (origin : String) (stubs : List (WideString × Json))
    (workspace : Workspace) :
    Work.outcome (loadStubs origin stubs) workspace =
      (match (workspace.index.loadStubs origin stubs).2 with
        | some error => .error (.ofStubError error)
        | none => .ok (),
        { workspace with index := (workspace.index.loadStubs origin stubs).1 }) := by
  change Work.outcome (match (workspace.index.loadStubs origin stubs).2 with
    | some error => throw (.ofStubError error)
    | none => return) { workspace with index := (workspace.index.loadStubs origin stubs).1 } = _
  cases (workspace.index.loadStubs origin stubs).2 <;> rfl

private theorem outcome_loadStubs_of_read {origin : String} {stubs : List (WideString × Json)}
    (h : StubsRead stubs) (workspace : Workspace) :
    Work.outcome (loadStubs origin stubs) workspace =
      (.ok (), { workspace with index := (workspace.index.loadStubs origin stubs).1 }) := by
  rw [outcome_loadStubs, (loadStubs_eq_none_iff ..).2 h]

private theorem outcome_loadStubs_of_not_read {stubs : List (WideString × Json)}
    (h : ¬ StubsRead stubs) (origin : String) (workspace : Workspace) :
    ∃ halt after, Work.outcome (loadStubs origin stubs) workspace = (.error halt, after) := by
  rw [outcome_loadStubs]
  cases herror : (workspace.index.loadStubs origin stubs).2 with
  | none => exact absurd ((loadStubs_eq_none_iff ..).1 herror) h
  | some error => exact ⟨_, _, rfl⟩

def loadGivenStubs (options : Options) : Work Unit :=
  match Settings.givenPath options.types with
  | none => return
  | some path => do
    let stubs ← Work.attempt Halt.ofLoadError
      (ExceptT.mk (pure (loadObject loadingSteps (← Work.files) path)))
    loadStubs path stubs

def indexAll (options : Options) (settings : Settings) (sources : List SourceFile) :
    Work Unit := do
  if settings.indexSources && !options.noIndex then indexSources sources
  Work.info s!"declaration index holds {(← get).index.size} type(s)"

private theorem buildIndex_eq (options : Options) (settings : Settings)
    (sources : List SourceFile) :
    buildIndex options settings sources = (do
      loadStubs ((Settings.givenPath settings.path).getD "<config>") settings.types
      loadGivenStubs options
      indexAll options settings sources) := by
  unfold buildIndex loadGivenStubs indexAll
  cases Settings.givenPath options.types with
  | none => simp only [pure_bind]
  | some path => simp only [bind_assoc]

private theorem outcome_indexSources (sources : List SourceFile) (workspace : Workspace) :
    Work.outcome (indexSources sources) workspace =
      (.ok (), { workspace with
        index := sources.foldl (fun index source => (index.addSource source).value.2)
          workspace.index }) := by
  induction sources generalizing workspace with
  | nil => rfl
  | cons source rest ih =>
    exact ih { workspace with index := (workspace.index.addSource source).value.2 }

end Stubs

namespace Job

variable (job : Job)

def GivenStubsRead : Prop :=
  ∀ path, Settings.givenPath job.options.types = some path →
    ∃ stubs, loadObject loadingSteps job.files path = .ok stubs ∧ StubsRead stubs

structure StubsLoad : Prop where
  configured : StubsRead job.settings.types
  given : job.GivenStubsRead

def configured : TypeIndex :=
  (TypeIndex.empty.loadStubs ((Settings.givenPath job.settings.path).getD "<config>")
    job.settings.types).1

def stubbed : TypeIndex :=
  match Settings.givenPath job.options.types with
  | none => job.configured
  | some path =>
    match loadObject loadingSteps job.files path with
    | .error _ => job.configured
    | .ok stubs => (job.configured.loadStubs path stubs).1

def index : TypeIndex :=
  if job.settings.indexSources && !job.options.noIndex then
    job.sources.foldl (fun index source => (index.addSource source).value.2) job.stubbed
  else job.stubbed

theorem outcome_indexAll :
    Work.outcome (indexAll job.options job.settings job.sources) ⟨job.files, job.stubbed⟩ =
      (.ok (), ⟨job.files, job.index⟩) := by
  unfold indexAll index
  split
  · rw [Work.outcome_bind_ok (outcome_indexSources ..)]
    rfl
  · rfl

theorem outcome_loadGivenStubs :
    (job.GivenStubsRead ∧
        Work.outcome (loadGivenStubs job.options) ⟨job.files, job.configured⟩ =
          (.ok (), ⟨job.files, job.stubbed⟩)) ∨
      (¬ job.GivenStubsRead ∧ ∃ halt after,
        Work.outcome (loadGivenStubs job.options) ⟨job.files, job.configured⟩ =
          (.error halt, after)) := by
  unfold GivenStubsRead loadGivenStubs stubbed
  cases Settings.givenPath job.options.types with
  | none => exact .inl ⟨nofun, rfl⟩
  | some path =>
    dsimp only
    rw [Work.outcome_bind_ok (Work.outcome_files _)]
    dsimp only
    have hattempt := Work.outcome_attempt Halt.ofLoadError
      (ExceptT.mk (pure (loadObject loadingSteps job.files path))) ⟨job.files, job.configured⟩
    cases hobject : loadObject loadingSteps job.files path with
    | error error =>
      rw [hobject] at hattempt
      refine .inr ⟨fun h => ?_, _, _, Work.outcome_bind_error hattempt⟩
      obtain ⟨stubs, hstubs, -⟩ := h path rfl
      cases hobject.symm.trans hstubs
    | ok stubs =>
      rw [hobject] at hattempt
      rw [Work.outcome_bind_ok hattempt]
      by_cases hread : StubsRead stubs
      · refine .inl ⟨?_, outcome_loadStubs_of_read hread _⟩
        rintro _ ⟨⟩
        exact ⟨stubs, hobject, hread⟩
      · refine .inr ⟨fun h => ?_, outcome_loadStubs_of_not_read hread path _⟩
        obtain ⟨other, hother, hstubs⟩ := h path rfl
        cases hobject.symm.trans hother
        exact hread hstubs

theorem outcome_buildIndex :
    (job.StubsLoad ∧
        Work.outcome (buildIndex job.options job.settings job.sources) { files := job.files } =
          (.ok (), ⟨job.files, job.index⟩)) ∨
      (¬ job.StubsLoad ∧ ∃ halt after,
        Work.outcome (buildIndex job.options job.settings job.sources) { files := job.files } =
          (.error halt, after)) := by
  rw [buildIndex_eq]
  by_cases hconfigured : StubsRead job.settings.types
  · rw [Work.outcome_bind_ok (outcome_loadStubs_of_read hconfigured _)]
    rcases job.outcome_loadGivenStubs with ⟨hgiven, hload⟩ | ⟨hgiven, halt, after, hload⟩
    · exact .inl ⟨⟨hconfigured, hgiven⟩,
        (Work.outcome_bind_ok hload).trans job.outcome_indexAll⟩
    · exact .inr ⟨fun h => hgiven h.given, halt, after, Work.outcome_bind_error hload⟩
  · obtain ⟨halt, after, hload⟩ := outcome_loadStubs_of_not_read hconfigured
      ((Settings.givenPath job.settings.path).getD "<config>") { files := job.files }
    exact .inr ⟨fun h => hconfigured h.configured, halt, after, Work.outcome_bind_error hload⟩

end Job

end Command
end OverrideLint
