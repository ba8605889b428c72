import OverrideLint.Proofs.Command.Repair
import OverrideLint.Proofs.Text.Breaks
import OverrideLint.Proofs.Text.Utf8

/-! What a repair writes back to a file. Decoding and encoding are inverse to each other, and
a round copies everything outside its edits. Line breaks alone are not kept: they are read as
line feeds and written as such. -/
namespace OverrideLint

namespace SourceFile

variable {fs : FileSystem} {parser : Parser} {path : String} {source : SourceFile}

private theorem exists_original_of_readText {text : Text} (h : readText fs path = .ok text) :
    ∃ original, fs.read path = .ok (Utf8.encode original) ∧
      text = Text.normalizeBreaks original := by
  unfold readText at h
  split at h
  · cases h
  · split at h
    · cases h
    · cases h
    · rename_i content hcontent
      split at h
      · cases h
      · rename_i original hdecode
        rw [Utf8.decode_eq_ok_iff] at hdecode
        exact ⟨original, hdecode ▸ hcontent, (Except.ok.inj h).symm⟩

theorem exists_original (h : (load fs parser path).run.value = .ok source) :
    ∃ original, fs.read path = .ok (Utf8.encode original) ∧ source.file = path ∧
      source.text = Text.normalizeBreaks original := by
  unfold load at h
  cases hread : readText fs path with
  | error error =>
    rw [hread] at h
    cases h
  | ok text =>
    rw [hread] at h
    change (parse parser path text).run.value.mapError SourceError.misfit = .ok source at h
    cases hparse : (parse parser path text).run.value with
    | error error =>
      rw [hparse] at h
      cases h
    | ok parsed =>
      rw [hparse] at h
      cases h
      obtain ⟨hfile, htext, _⟩ := yields_parse hparse
      obtain ⟨original, hcontent, hnormal⟩ := exists_original_of_readText hread
      exact ⟨original, hcontent, hfile, htext.trans hnormal⟩

end SourceFile

namespace Command

structure Rewrites (edits : List Edit) (before after : Text) : Prop where
  apart : edits.Pairwise fun a b => a.span.overlaps b.span = false
  within : ∀ edit ∈ edits, edit.span.stop ≤ before.length
  text_eq : after = Edit.splice edits before

variable {parser : Parser} {settings : Settings} {source : SourceFile} {workspace : Workspace}

private theorem rewrites_roundOf (settings : Settings) (source : SourceFile)
    (workspace : Workspace) :
    Rewrites (roundOf settings source workspace).applied source.text
      (roundOf settings source workspace).text := by
  have hspliced : (roundOf settings source workspace).Spliced source.text := applyEdits_spliced _ _
  exact ⟨hspliced.descending.imp Edit.LiesBefore.not_overlaps, hspliced.within, hspliced.text_eq⟩

theorem Rounds.first_eq {rounds : Nat} {after : Workspace} {text : Text} {later : List Text}
    {ending : Ending}
    (h : Rounds parser settings rounds source workspace (text :: later) ending after) :
    text = (roundOf settings source workspace).text := by
  cases h with
  | misfit _ _ _ _ => rfl
  | round _ _ _ _ => rfl

theorem Rounds.rewrites {rounds : Nat} {after : Workspace} {texts : List Text} {ending : Ending}
    (h : Rounds parser settings rounds source workspace texts ending after) :
    (source.text :: texts).IsChain fun before after => ∃ edits, Rewrites edits before after := by
  induction h with
  | exhausted source workspace => exact .singleton _
  | settled rounds hround => exact .singleton _
  | unwritable rounds hround hwrite => exact .singleton _
  | misfit rounds hround hwrite hparse =>
    exact .cons_cons ⟨_, rewrites_roundOf _ _ _⟩ (.singleton _)
  | round hround hwrite hparse hrest ih =>
    obtain ⟨_, htext, _⟩ := SourceFile.yields_parse hparse
    rw [htext] at ih
    exact .cons_cons ⟨_, rewrites_roundOf _ _ _⟩ ih

/-- What a repair has written, next to the text that the file held before. -/
structure WrittenBack (settings : Settings) (source : SourceFile) (workspace : Workspace)
    (original : Text) (texts : List Text) (after : Workspace) : Prop where
  read : source.text = Text.normalizeBreaks original
  same : source.text = original ↔ '\r' ∉ original
  others : source.text.filter (!Text.isBreak ·) = original.filter (!Text.isBreak ·)
  first : ∀ text later, texts = text :: later →
    Rewrites (roundOf settings source workspace).applied source.text text
  chain : (source.text :: texts).IsChain fun before after => ∃ edits, Rewrites edits before after
  written : texts ≠ [] → ∃ name bytes, after.files.entry source.file = .ok (.file name bytes) ∧
    Utf8.decode bytes = .ok (lastText source texts)

/-- A repair writes the text of the file with the edits of its rounds and nothing else changed,
except that every line break is written as a line feed. -/
theorem repair_writes_back {fs : FileSystem} {path : String}
    (hload : (SourceFile.load fs parser path).run.value = .ok source) (settings : Settings)
    (rounds : Nat) (workspace : Workspace) :
    ∃ original texts ending after, fs.read path = .ok (Utf8.encode original) ∧
      Work.outcome (repair parser settings rounds source) workspace = (ending.result path, after) ∧
      Rounds parser settings rounds source workspace texts ending after ∧
      WrittenBack settings source workspace original texts after := by
  obtain ⟨original, hcontent, rfl, htext⟩ := SourceFile.exists_original hload
  obtain ⟨texts, ending, after, hrounds⟩ := exists_rounds parser settings rounds source workspace
  refine ⟨original, texts, ending, after, hcontent, hrounds.outcome_repair, hrounds, htext, ?_, ?_,
    ?_, hrounds.rewrites, ?_⟩
  · rw [htext]
    exact Text.normalizeBreaks_eq_self_iff
  · rw [htext]
    exact Text.filter_normalizeBreaks original
  · rintro text later rfl
    rw [hrounds.first_eq]
    exact rewrites_roundOf settings source workspace
  · intro hsome
    obtain ⟨name, hentry⟩ := hrounds.files_eq.2 hsome
    exact ⟨name, _, hentry, Utf8.decode_eq_ok_iff.2 rfl⟩

def returnsText : Text :=
  "class A \x7b\r\n  /** @override */ m() \x7b\x7d\r\n\x7d\r\n".toList

def returnsTree : ParseTree :=
  .node "program" true ⟨0, 38⟩ none
    [.node "class_declaration" true ⟨0, 37⟩ none
      [.node "type_identifier" true ⟨6, 7⟩ (some "name") [],
        .node "class_body" true ⟨8, 37⟩ (some "body")
          [.node "comment" true ⟨12, 28⟩ none [],
            .node "method_definition" true ⟨29, 35⟩ none
              [.node "property_identifier" true ⟨29, 30⟩ (some "name") []]]]]

def returnsParser : Parser := fun _ text =>
  ⟨false, if text = Text.normalizeBreaks returnsText then returnsTree
    else .node "program" true ⟨0, 0⟩ none []⟩

def returnsWorkspace : Workspace where
  files := ⟨.directory "" [.file "a.ts" (Utf8.encode returnsText)], [], [], []⟩

private theorem exists_loaded_returns :
    ∃ source, (SourceFile.load returnsWorkspace.files returnsParser "a.ts").run.value = .ok source ∧
      (roundOf {} source returnsWorkspace).applied.map (fun edit =>
        (Text.slice source.text edit.span.start edit.span.stop, edit.text)) =
          [("@override".toList, [])] ∧
      (Work.outcome (repair returnsParser {} maxPasses source) returnsWorkspace).2.files.read
          "a.ts" =
        .ok (Utf8.encode "class A \x7b\n  /**  */ m() \x7b\x7d\n\x7d\n".toList) := by
  have hrun : (SourceFile.load returnsWorkspace.files returnsParser "a.ts").run.value.map
      (fun source => ((roundOf {} source returnsWorkspace).applied.map (fun edit =>
          (Text.slice source.text edit.span.start edit.span.stop, edit.text)),
        (Work.outcome (repair returnsParser {} maxPasses source) returnsWorkspace).2.files.read
          "a.ts")) =
      .ok ([("@override".toList, [])],
        .ok (Utf8.encode "class A \x7b\n  /**  */ m() \x7b\x7d\n\x7d\n".toList)) := by
    decide +kernel
  obtain ⟨source, hload, hresult⟩ := exists_ok_of_map hrun
  obtain ⟨happlied, hread⟩ := Prod.mk.inj hresult
  exact ⟨source, hload, happlied, hread⟩

theorem repair_writes_back_returns :
    ∃ source, (SourceFile.load returnsWorkspace.files returnsParser "a.ts").run.value = .ok source ∧
      ∃ original texts ending after, texts ≠ [] ∧
        returnsWorkspace.files.read "a.ts" = .ok (Utf8.encode original) ∧
        Work.outcome (repair returnsParser {} maxPasses source) returnsWorkspace =
          (ending.result "a.ts", after) ∧
        Rounds returnsParser {} maxPasses source returnsWorkspace texts ending after ∧
        WrittenBack {} source returnsWorkspace original texts after := by
  obtain ⟨source, hload, _, hread⟩ := exists_loaded_returns
  obtain ⟨original, texts, ending, after, hcontent, houtcome, hrounds, hback⟩ :=
    repair_writes_back hload {} maxPasses returnsWorkspace
  refine ⟨source, hload, original, texts, ending, after, ?_, hcontent, houtcome, hrounds, hback⟩
  intro hnone
  rw [houtcome, hrounds.files_eq.1 hnone] at hread
  revert hread
  decide +kernel

/-- The line breaks of a file are lost when it is repaired: one edit removes a tag, and what is
written is not the text around that tag. -/
theorem line_breaks_not_kept :
    ∃ source, (SourceFile.load returnsWorkspace.files returnsParser "a.ts").run.value = .ok source ∧
      (roundOf {} source returnsWorkspace).applied.map (fun edit =>
        (Text.slice source.text edit.span.start edit.span.stop, edit.text)) =
          [("@override".toList, [])] ∧
      ∀ before after, returnsText = before ++ "@override".toList ++ after →
        (Work.outcome (repair returnsParser {} maxPasses source) returnsWorkspace).2.files.read
          "a.ts" ≠ .ok (Utf8.encode (before ++ after)) := by
  obtain ⟨source, hload, happlied, hread⟩ := exists_loaded_returns
  refine ⟨source, hload, happlied, ?_⟩
  intro before after htext hkept
  rw [hread] at hkept
  have heq := Utf8.encode_injective (Except.ok.inj hkept)
  have hreturn : '\r' ∈ returnsText := by decide
  have htag : '\r' ∉ "@override".toList := by decide
  have hwritten : '\r' ∈ before ++ after := by
    rw [htext] at hreturn
    simp only [List.mem_append] at hreturn ⊢
    tauto
  rw [← heq] at hwritten
  revert hwritten
  decide

end Command
end OverrideLint
