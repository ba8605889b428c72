import OverrideLint.Proofs.Json.Fields
import OverrideLint.Proofs.Text.CodePoint
import OverrideLint.Settings

/-! Which values of an object give settings. Every key is read on its own, so neither the order of
the keys nor any further key matters. -/
namespace OverrideLint

theorem Severity.ofText?_eq_some_iff {text : Text} {severity : Severity} :
    ofText? text = some severity ↔ String.ofList (Text.lower (Text.trim text)) = severity.name := by
  unfold ofText?
  dsimp only
  constructor
  · intro h
    have hname := List.find?_some h
    exact (beq_iff_eq.1 hname).symm
  · intro h
    rw [h]
    cases severity <;> rfl

namespace Settings

variable {α β : Type} {key : String} {value? : Option Json} {error : SettingsError}

def NamesSeverity (value : Json) (severity : Severity) : Prop :=
  ∃ word, value = .string (.ofText word) ∧
    String.ofList (Text.lower (Text.trim word)) = severity.name

def IsFlag (value : Json) (flag : Bool) : Prop := value = .bool flag

def IsObject (value : Json) (fields : List (WideString × Json)) : Prop := value = .object fields

/-- What is found where a value may stand: what the value gives, or the default if there is none. -/
def Found (Gives : Json → α → Prop) (default : α) (value? : Option Json) (found : α) : Prop :=
  match value? with
  | none => found = default
  | some value => Gives value found

structure GivenBy (settings : Settings) (value? : WideString → Option Json) : Prop where
  severity : Found NamesSeverity .error (value? "severity") settings.severity
  suppress : Found Json.IsNames [] (value? "suppress") settings.suppress
  exclude : Found Json.IsNames [] (value? "exclude") settings.exclude
  extensions : Found Json.IsNames [".ts", ".tsx", ".mts", ".cts"] (value? "extensions")
    settings.extensions
  indexSources : Found IsFlag true (value? "index_sources") settings.indexSources
  types : Found IsObject [] (value? "types") settings.types

theorem GivenBy.congr {settings : Settings} {value? other? : WideString → Option Json}
    (h : settings.GivenBy value?) (heq : ∀ key ∈ knownKeys, value? key = other? key) :
    settings.GivenBy other? := by
  simp only [knownKeys, List.forall_mem_cons] at heq
  obtain ⟨hseverity, hsuppress, hexclude, hextensions, hindexSources, htypes, -⟩ := heq
  exact ⟨hseverity ▸ h.severity, hsuppress ▸ h.suppress, hexclude ▸ h.exclude,
    hextensions ▸ h.extensions, hindexSources ▸ h.indexSources, htypes ▸ h.types⟩

section Readers

private theorem readSeverity_eq_ok_iff {known severity : Severity} :
    readSeverity known value? = .ok severity ↔ Found NamesSeverity known value? severity := by
  cases value? with
  | none => simp [readSeverity, Found, eq_comm]
  | some value =>
    cases value with
    | string word =>
      have hnames : NamesSeverity (.string word) severity ↔
          word.toText?.bind Severity.ofText? = some severity := by
        simp [NamesSeverity, Option.bind_eq_some_iff, WideString.toText?_eq_some_iff,
          Severity.ofText?_eq_some_iff]
      rw [Found, hnames, readSeverity]
      cases word.toText?.bind Severity.ofText? <;> simp
    | _ => simp [readSeverity, Found, NamesSeverity]

private theorem readStrings_eq_ok_iff {known names : List WideString} :
    readStrings key known value? = .ok names ↔ Found Json.IsNames known value? names := by
  cases value? with
  | none => simp [readStrings, Found, eq_comm]
  | some value =>
    cases value with
    | array items =>
      have hnames : Json.IsNames (.array items) names ↔ items.mapM Json.asString? = some names := by
        simp [Json.IsNames, Json.mapM_asString?_eq_some_iff]
      rw [Found, hnames, readStrings]
      cases items.mapM Json.asString? <;> simp
    | _ => simp [readStrings, Found, Json.IsNames]

private theorem readBool_eq_ok_iff {known flag : Bool} :
    readBool key known value? = .ok flag ↔ Found IsFlag known value? flag := by
  cases value? with
  | none => simp [readBool, Found, eq_comm]
  | some value => cases value <;> simp [readBool, Found, IsFlag]

private theorem readObject_eq_ok_iff {known fields : List (WideString × Json)} :
    readObject key known value? = .ok fields ↔ Found IsObject known value? fields := by
  cases value? with
  | none => simp [readObject, Found, eq_comm]
  | some value => cases value <;> simp [readObject, Found, IsObject]

def Refuses (result : Except SettingsError α) : Prop :=
  ∀ error, result = .error error → error.code? = some .configInvalidValue

theorem Refuses.bind {result : Except SettingsError α} {next : α → Except SettingsError β}
    (h : Refuses result) (hnext : ∀ found, Refuses (next found)) : Refuses (result >>= next) := by
  intro error herror
  cases result with
  | error first =>
    cases herror
    exact h error rfl
  | ok found => exact hnext found error herror

private theorem refuses_readSeverity (known : Severity) (value? : Option Json) :
    Refuses (readSeverity known value?) := by
  intro error h
  unfold readSeverity at h
  split at h
  · cases h
  · split at h <;> cases h
    rfl
  · cases h
    rfl

private theorem refuses_readStrings (known : List WideString) (value? : Option Json) :
    Refuses (readStrings key known value?) := by
  intro error h
  unfold readStrings at h
  split at h
  · cases h
  · split at h <;> cases h
    rfl
  · cases h
    rfl

private theorem refuses_readBool (known : Bool) (value? : Option Json) :
    Refuses (readBool key known value?) := by
  intro error h
  unfold readBool at h
  split at h <;> cases h
  rfl

private theorem refuses_readObject (known : List (WideString × Json)) (value? : Option Json) :
    Refuses (readObject key known value?) := by
  intro error h
  unfold readObject at h
  split at h <;> cases h
  rfl

end Readers

section Fields

variable {fields : List (WideString × Json)} {settings : Settings} {path : Option String}

private theorem bind_eq_ok_iff {result : Except SettingsError α} {next : α → Except SettingsError β}
    {last : β} :
    (result >>= next) = .ok last ↔ ∃ found, result = .ok found ∧ next found = .ok last := by
  cases result <;> simp [bind, Except.bind]

theorem ofFields_eq_ok_iff :
    ofFields fields path = .ok settings ↔
      settings.GivenBy (fun key => fields.lookup key) ∧ settings.path = path := by
  simp only [ofFields, bind_eq_ok_iff, readSeverity_eq_ok_iff, readStrings_eq_ok_iff,
    readBool_eq_ok_iff, readObject_eq_ok_iff]
  constructor
  · rintro ⟨severity, hseverity, suppress, hsuppress, exclude, hexclude, extensions, hextensions,
      indexSources, hindexSources, types, htypes, hsettings⟩
    cases hsettings
    exact ⟨⟨hseverity, hsuppress, hexclude, hextensions, hindexSources, htypes⟩, rfl⟩
  · rintro ⟨h, rfl⟩
    exact ⟨_, h.severity, _, h.suppress, _, h.exclude, _, h.extensions, _, h.indexSources, _,
      h.types, rfl⟩

theorem refuses_ofFields (fields : List (WideString × Json)) (path : Option String) :
    Refuses (ofFields fields path) := by
  refine (refuses_readSeverity _ _).bind fun _ => ?_
  refine (refuses_readStrings _ _).bind fun _ => ?_
  refine (refuses_readStrings _ _).bind fun _ => ?_
  refine (refuses_readStrings _ _).bind fun _ => ?_
  refine (refuses_readBool _ _).bind fun _ => ?_
  refine (refuses_readObject _ _).bind fun _ => ?_
  intro error h
  cases h

end Fields

end Settings
end OverrideLint
