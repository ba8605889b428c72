import OverrideLint.Proofs.Json.Breaks
import OverrideLint.Proofs.Settings.Values
import OverrideLint.Proofs.Text.Utf8

/-! Loading settings from a file, from its bytes to the settings. -/
namespace OverrideLint.Settings

variable {fs : FileSystem} {path : String} {content : Bytes} {text : Text} {steps : Nat}
  {settings : Settings}

def levelsLeft (steps : Nat) : Nat := Json.maxDepth - (steps + 1)

private theorem value_run_bind {ε α β : Type} (first : ExceptT ε Logged α)
    (next : α → ExceptT ε Logged β) :
    (first >>= next).run.value = first.run.value.bind fun found => (next found).run.value := by
  change (ExceptT.bindCont next first.run.value).value = _
  cases first.run.value <;> rfl

private theorem value_load (steps : Nat) (fs : FileSystem) (path : String) :
    (load steps fs path).run.value =
      ((loadObject (steps + 1) fs path).mapError SettingsError.unloadable).bind fun fields =>
        ofFields fields (some path) := by
  have hobject : ∀ fields,
      (ofObject fields (some path)).run.value = ofFields fields (some path) := by
    intro fields
    rw [ofObject, value_run_bind]
    rfl
  rw [load, value_run_bind]
  change ((loadObject (steps + 1) fs path).mapError SettingsError.unloadable).bind _ = _
  congr 1
  funext fields
  rw [value_run_bind, hobject]
  cases ofFields fields (some path) <;> rfl

section Outcomes

private theorem value_load_of_undecodable {cause : Utf8.DecodeError}
    (hpath : Path.hasNull path = false)
    (hread : fs.read path = .ok content) (hdecode : Utf8.decode content = .error cause) :
    (load steps fs path).run.value = .error (.unloadable (.undecodable cause)) := by
  rw [value_load, loadObject, if_neg (by simp [hpath]), hread]
  dsimp only
  rw [hdecode]
  rfl

private theorem exists_decodeError (h : ∀ text, content ≠ Utf8.encode text) :
    ∃ cause, Utf8.decode content = .error cause := by
  cases hdecode : Utf8.decode content with
  | ok text => exact absurd (Utf8.decode_eq_ok_iff.1 hdecode) (h text)
  | error cause => exact ⟨cause, rfl⟩

private def ofParsed (path : String) : Except Json.ReadError Json → Except SettingsError Settings
  | .error (.malformed fault line) => .error (.unloadable (.malformed path fault line))
  | .error (.oversized digits) => .error (.unloadable (.oversized digits))
  | .error (.tooDeep innermost) => .error (.unloadable (.tooDeep innermost))
  | .ok (.object fields) => ofFields fields (some path)
  | .ok _ => .error (.unloadable (.notAnObject path))

private theorem value_load_of_text (hpath : Path.hasNull path = false)
    (hread : fs.read path = .ok (Utf8.encode text)) :
    (load steps fs path).run.value =
      ofParsed path (Json.parseWithin (levelsLeft steps) (Text.normalizeBreaks text)) := by
  have hdecode : Utf8.decode (Utf8.encode text) = .ok text := Utf8.decode_eq_ok_iff.2 rfl
  rw [value_load, loadObject, if_neg (by simp [hpath]), hread]
  dsimp only
  rw [hdecode, levelsLeft]
  dsimp only
  cases Json.parseWithin (Json.maxDepth - (steps + 1)) (Text.normalizeBreaks text) with
  | error error => cases error <;> rfl
  | ok value => cases value <;> rfl

private theorem exists_written {digits levels : Nat} {fields : List (WideString × Json)}
    (h : Json.IsDocument digits levels (.object fields) text) :
    ∃ written, Json.ofFields written = .object fields := by
  obtain ⟨_, inner, _, -, -, -, hinner⟩ := h
  -- the value is an object by its index only, so the phrase is set free first
  generalize hphrase : Json.Phrase.value (.object fields) = phrase at hinner
  cases hinner with
  | emptyObject =>
    cases hphrase
    exact ⟨[], rfl⟩
  | object =>
    exact ⟨_, (Json.Phrase.value.inj hphrase).symm⟩
  | word _ h => cases h <;> cases hphrase
  | number _ h => cases h <;> cases hphrase
  | _ => cases hphrase

/-- The text is that of an object whose values, those written last under each key, give the
settings. -/
def SpelledIn (settings : Settings) (digits levels : Nat) (text : Text) : Prop :=
  ∃ written, Json.IsDocument digits levels (Json.ofFields written) text ∧
    settings.GivenBy (Json.lastValue? written)

private theorem ofParsed_object {written : List (WideString × Json)} :
    ofParsed path (.ok (Json.ofFields written)) = .ok settings ↔
      settings.path = some path ∧ settings.GivenBy (Json.lastValue? written) := by
  obtain ⟨fields, hfields⟩ : ∃ fields, Json.ofFields written = .object fields := ⟨_, rfl⟩
  rw [hfields, ofParsed, ofFields_eq_ok_iff, and_comm]
  have hsame := Json.lookup_of_ofFields hfields
  exact and_congr_right fun _ => ⟨fun h => h.congr fun key _ => hsame key,
    fun h => h.congr fun key _ => (hsame key).symm⟩

private theorem ofParsed_eq_ok_iff {levels : Nat} :
    ofParsed path (Json.parseWithin levels (Text.normalizeBreaks text)) = .ok settings ↔
      settings.path = some path ∧ settings.SpelledIn Json.maxDigits levels text := by
  constructor
  · intro h
    cases hparsed : Json.parseWithin levels (Text.normalizeBreaks text) with
    | error error =>
      rw [hparsed] at h
      cases error <;> cases h
    | ok value =>
      have hdocument := Json.isDocument_normalizeBreaks_iff.1 (Json.parseWithin_eq_ok_iff.1 hparsed)
      rw [hparsed] at h
      cases value with
      | object fields =>
        obtain ⟨written, hwritten⟩ := exists_written hdocument
        rw [← hwritten] at h hdocument
        obtain ⟨hpath, hgiven⟩ := ofParsed_object.1 h
        exact ⟨hpath, written, hdocument, hgiven⟩
      | _ => cases h
  · rintro ⟨hpath, written, hdocument, hgiven⟩
    rw [Json.parseWithin_eq_ok_iff.2 (Json.isDocument_normalizeBreaks_iff.2 hdocument)]
    exact ofParsed_object.2 ⟨hpath, hgiven⟩

private theorem code?_ofParsed {levels : Nat} (hfits : Json.Fits levels text)
    {error : SettingsError}
    (h : ofParsed path (Json.parseWithin levels (Text.normalizeBreaks text)) = .error error) :
    (error.code? = some .configInvalidJson ∧
      ∀ value digits needed, ¬ Json.IsDocument digits needed value text) ∨
    (error.code? = some .configInvalidValue ∧
      ∃ value, Json.IsDocument Json.maxDigits levels value text) := by
  cases hparsed : Json.parseWithin levels (Text.normalizeBreaks text) with
  | error failure =>
    obtain ⟨fault, line, rfl⟩ := Json.malformed_of_fits hfits.normalizeBreaks hparsed
    rw [hparsed] at h
    cases h
    refine .inl ⟨rfl, fun value digits needed hdocument => ?_⟩
    exact Json.not_isDocument_of_malformed hparsed (Json.isDocument_normalizeBreaks_iff.2 hdocument)
  | ok value =>
    have hdocument := Json.isDocument_normalizeBreaks_iff.1 (Json.parseWithin_eq_ok_iff.1 hparsed)
    rw [hparsed] at h
    refine .inr ⟨?_, value, hdocument⟩
    cases value with
    | object fields => exact refuses_ofFields fields (some path) error h
    | _ =>
      cases h
      rfl

private theorem ofParsed_of_spelledIn {digits needed : Nat} (levels : Nat)
    (h : settings.SpelledIn digits needed text) (hpath : settings.path = some path) :
    ofParsed path (Json.parseWithin levels (Text.normalizeBreaks text)) = .ok settings ∨
      ∃ error, ofParsed path (Json.parseWithin levels (Text.normalizeBreaks text)) = .error error ∧
        error.code? = none := by
  obtain ⟨written, hdocument, hgiven⟩ := h
  have hread := Json.isDocument_normalizeBreaks_iff.2 hdocument
  rcases Json.parseWithin_of_isDocument levels hread with hok | ⟨error, herror, hne, -⟩
  · rw [hok]
    exact .inl (ofParsed_object.2 ⟨hpath, hgiven⟩)
  · rw [herror]
    cases error with
    | malformed fault line => exact absurd rfl (hne fault line)
    | oversized digits => exact .inr ⟨_, rfl, rfl⟩
    | tooDeep innermost => exact .inr ⟨_, rfl, rfl⟩

end Outcomes

/-- A file gives settings exactly if its bytes encode a text of an object in which every one of the
six keys has a value of its kind, or is not there and has its default. Bytes that encode no text are
a fault that nobody reports. Any other content is reported, unless it is beyond the limits of the
reader. -/
theorem load_exact (steps : Nat) (hpath : Path.hasNull path = false)
    (hread : fs.read path = .ok content) :
    (∀ settings, (load steps fs path).run.value = .ok settings ↔
      settings.path = some path ∧
        ∃ text, content = Utf8.encode text ∧
          settings.SpelledIn Json.maxDigits (levelsLeft steps) text) ∧
    ((∀ text, content ≠ Utf8.encode text) →
      ∃ error, (load steps fs path).run.value = .error error ∧ error.code? = none) ∧
    (∀ text, content = Utf8.encode text → Json.Fits (levelsLeft steps) text →
      (∀ settings, (load steps fs path).run.value = .ok settings ↔
        settings.path = some path ∧ ∃ digits levels, settings.SpelledIn digits levels text) ∧
      ∀ error, (load steps fs path).run.value = .error error →
        (error.code? = some .configInvalidJson ∧
          ∀ value digits levels, ¬ Json.IsDocument digits levels value text) ∨
        (error.code? = some .configInvalidValue ∧
          ∃ value, Json.IsDocument Json.maxDigits (levelsLeft steps) value text)) ∧
    (∀ text settings digits levels, content = Utf8.encode text →
      settings.SpelledIn digits levels text → settings.path = some path →
      (load steps fs path).run.value = .ok settings ∨
        ∃ error, (load steps fs path).run.value = .error error ∧ error.code? = none) ∧
    ∀ text written other settings, content = Utf8.encode text →
      Json.IsDocument Json.maxDigits (levelsLeft steps) (Json.ofFields written) text →
      (∀ key ∈ knownKeys, Json.lastValue? other key = Json.lastValue? written key) →
      ((load steps fs path).run.value = .ok settings ↔
        settings.path = some path ∧ settings.GivenBy (Json.lastValue? other)) := by
  refine ⟨fun settings => ⟨fun h => ?_, ?_⟩, fun hcontent => ?_, ?_, ?_, ?_⟩
  · by_cases hcontent : ∃ text, content = Utf8.encode text
    · obtain ⟨text, rfl⟩ := hcontent
      rw [value_load_of_text hpath hread] at h
      obtain ⟨hsettings, hspelled⟩ := ofParsed_eq_ok_iff.1 h
      exact ⟨hsettings, text, rfl, hspelled⟩
    · obtain ⟨cause, hdecode⟩ := exists_decodeError (not_exists.1 hcontent)
      cases h.symm.trans (value_load_of_undecodable hpath hread hdecode)
  · rintro ⟨hsettings, text, rfl, hspelled⟩
    rw [value_load_of_text hpath hread]
    exact ofParsed_eq_ok_iff.2 ⟨hsettings, hspelled⟩
  · obtain ⟨cause, hdecode⟩ := exists_decodeError hcontent
    exact ⟨_, value_load_of_undecodable hpath hread hdecode, rfl⟩
  · rintro text rfl hfits
    rw [value_load_of_text hpath hread]
    refine ⟨fun settings => ⟨fun h => ?_, ?_⟩, fun error => code?_ofParsed hfits⟩
    · obtain ⟨hsettings, hspelled⟩ := ofParsed_eq_ok_iff.1 h
      exact ⟨hsettings, _, _, hspelled⟩
    · rintro ⟨hsettings, digits, levels, written, hdocument, hgiven⟩
      exact ofParsed_eq_ok_iff.2 ⟨hsettings, written, hdocument.of_fits hfits, hgiven⟩
  · rintro text settings digits levels rfl hspelled hsettings
    rw [value_load_of_text hpath hread]
    exact ofParsed_of_spelledIn (levelsLeft steps) hspelled hsettings
  · rintro text written other settings rfl hdocument hsame
    rw [value_load_of_text hpath hread,
      Json.parseWithin_eq_ok_iff.2 (Json.isDocument_normalizeBreaks_iff.2 hdocument),
      ofParsed_object]
    exact and_congr_right fun _ => ⟨fun h => h.congr fun key hkey => (hsame key hkey).symm,
      fun h => h.congr hsame⟩

def lone (code : Nat) (h : 0xD800 ≤ code ∧ code < 0xE000) : WideString :=
  ⟨[.surrogate ⟨code, h⟩]⟩

def highest : WideString := lone 0xDFFF (by decide)
def lowest : WideString := lone 0xD800 (by decide)

def styledText : Text :=
  ("\x7b\"x\":[0],\r\n\"severity\":1,\"severity\":\" Style\",\"suppress\":[\"\\ud800\"]," ++
    "\"types\":\x7b\"\\uDFFF\":[],\"\\ud800\":null\x7d\x7d").toList

def styledFiles : FileSystem :=
  ⟨.directory "" [.file "c.json" (Utf8.encode styledText)], [], [], []⟩

private def styledFields : List (WideString × Json) :=
  [("x", .array [.int 0]), ("severity", .int 1), ("severity", .string " Style"),
    ("suppress", .array [.string lowest]),
    ("types", .object [(highest, .array []), (lowest, .null)])]

private theorem spellsPoints_ofText (text : Text)
    (h : text.all (fun c => !decide (c.toNat < 0x20) && c != '"' && c != '\\') = true) :
    Json.SpellsPoints (WideString.ofText text).points text := by
  induction text with
  | nil => exact .nil
  | cons c text ih =>
    rw [List.all_cons, Bool.and_eq_true] at h
    obtain ⟨hc, htext⟩ := h
    have hplain : ¬ c.toNat < 0x20 ∧ c ≠ '"' ∧ c ≠ '\\' := by simpa [and_assoc] using hc
    exact .plain hplain.1 hplain.2.1 hplain.2.2 (ih htext)

private theorem isDocument_styledText :
    Json.IsDocument Json.maxDigits (levelsLeft 0) (Json.ofFields styledFields) styledText := by
  have hnone : Json.IsBlank [] := nofun
  have hbreak : Json.IsBlank ['\r', '\n'] := by simp [Json.IsBlank, Json.isSpace]
  have hname := spellsPoints_ofText "severity".toList (by decide)
  have hend : ¬ Json.StartsLow [] := by
    rintro ⟨_, _, _, _, _, _, h, -⟩
    cases h
  have hlowest : Json.SpellsPoints lowest.points "\\ud800".toList :=
    .unit (by decide) (fun _ => hend) .nil
  have hhighest : Json.SpellsPoints highest.points "\\uDFFF".toList :=
    .unit (by decide) (fun _ => hend) .nil
  have hx : Json.Spells Json.maxDigits 988 (.field ("x", .array [.int 0])) "\"x\":[0]".toList :=
    .field (spellsPoints_ofText ['x'] (by decide)) hnone hnone
      (.array hnone (.lastItem (.number _ (.int false .zero (by decide)))) hnone)
  have hone : Json.IsWhole ['1'] := .digits rfl (by decide) nofun
  have hnumber : Json.Spells Json.maxDigits 988 (.field ("severity", .int 1))
      "\"severity\":1".toList :=
    .field hname hnone hnone (.number _ (.int false hone (by decide)))
  have hstyle : Json.Spells Json.maxDigits 988 (.field ("severity", .string " Style"))
      "\"severity\":\" Style\"".toList :=
    .field hname hnone hnone (.string _ (spellsPoints_ofText " Style".toList (by decide)))
  have hsuppress : Json.Spells Json.maxDigits 988 (.field ("suppress", .array [.string lowest]))
      "\"suppress\":[\"\\ud800\"]".toList :=
    .field (spellsPoints_ofText "suppress".toList (by decide)) hnone hnone
      (.array hnone (.lastItem (.string _ hlowest)) hnone)
  have hstub : Json.Spells Json.maxDigits 987 (.field (highest, .array [])) "\"\\uDFFF\":[]".toList :=
    .field hhighest hnone hnone (.emptyArray _ hnone)
  have hnull : Json.Spells Json.maxDigits 987 (.field (lowest, .null)) "\"\\ud800\":null".toList :=
    .field hlowest hnone hnone (.word _ .null)
  have htypes : Json.Spells Json.maxDigits 988
      (.field ("types", .object [(highest, .array []), (lowest, .null)]))
      "\"types\":\x7b\"\\uDFFF\":[],\"\\ud800\":null\x7d".toList :=
    .field (spellsPoints_ofText "types".toList (by decide)) hnone hnone
      (.object hnone (.fields hstub hnone hnone (.lastField hnull)) hnone)
  refine ⟨[], _, [], ?_, hnone, hnone, .object hnone (.fields hx hnone hbreak
    (.fields hnumber hnone hnone (.fields hstyle hnone hnone
      (.fields hsuppress hnone hnone (.lastField htypes))))) hnone⟩
  decide +kernel

theorem load_exact_styled :
    Path.hasNull "c.json" = false ∧ styledFiles.read "c.json" = .ok (Utf8.encode styledText) ∧
      (load 0 styledFiles "c.json").run.value =
        .ok { severity := .style, suppress := [lowest],
              types := [(highest, .array []), (lowest, .null)], path := some "c.json" } := by
  have hpath : Path.hasNull "c.json" = false := by decide
  have hread : styledFiles.read "c.json" = .ok (Utf8.encode styledText) := rfl
  refine ⟨hpath, hread, ((load_exact 0 hpath hread).1 _).2 ⟨rfl, styledText, rfl, styledFields,
    isDocument_styledText, ?_⟩⟩
  exact ⟨⟨" Style".toList, rfl, by decide +kernel⟩, rfl, rfl, rfl, rfl, rfl⟩

/-- A byte that starts no character makes a file of settings that nobody reports. -/
theorem undecodable_not_reported :
    let fs : FileSystem := ⟨.directory "" [.file "c.json" [0xff]], [], [], []⟩
    fs.read "c.json" = .ok [0xff] ∧
      ∃ error, (load 0 fs "c.json").run.value = .error error ∧ error.code? = none := by
  have hdecode : Utf8.decode [0xff] = .error ⟨0xff, 0, 1, .invalidStart⟩ := by
    rw [Utf8.decode, Utf8.decodeFrom]
    rfl
  exact ⟨rfl, _, value_load_of_undecodable (by decide) rfl hdecode, rfl⟩

end OverrideLint.Settings
