import Mathlib.Data.List.Forall2
import OverrideLint.Proofs.Rule.Member

/-! What the scan of a member's tags reports. The first tag meant to be the override tag is
found and its spelling looked at, each later one is a duplicate, and of any other tag only
that it stands in a comment is ever noticed. -/
namespace OverrideLint

namespace OverrideTag

def HoldsOnly (text : Text) (comment : DocComment) (tag : DocTag) : Prop :=
  comment.tags = [tag] ∧
    ∃ filling, remainder text comment tag = ['/', '*', '*'] ++ filling ++ ['*', '/'] ∧
      ∀ c ∈ filling, Text.isBlank c = true ∨ c = '*'

structure Spans (text : Text) (comment : DocComment) (span : Span) : Prop where
  start : span.start = comment.span.start
  stop : span.stop = comment.span.stop ∨ span.stop = comment.span.stop + 1
  blank : span.stop = comment.span.stop + 1 ↔
    text[comment.span.stop]? = some ' ' ∨ text[comment.span.stop]? = some '\t'

/-- How a duplicate is removed: with its comment if that holds nothing else. -/
structure Removal (text : Text) (comment : DocComment) (tag : DocTag) (edit : Edit) : Prop where
  whole : HoldsOnly text comment tag → ∃ span, edit = .delete span ∧ Spans text comment span
  part : ¬ HoldsOnly text comment tag → edit = .delete tag.span

structure ReportsSpelling (ctx : RuleContext) (tag : DocTag) (d : Diagnostic) : Prop where
  finding : d.finding = .spelling
  message : d.message = s!"Syntax error: '{tag.name}' should be '{overrideName}' (case sensitive)"
  anchor : d.span = tag.span
  location : d.location = ctx.location tag.span.start
  severity : d.severity = ctx.severity
  fix : d.fix = some (.replace tag.nameSpan overrideName.toList)

structure ReportsDuplicate (ctx : RuleContext) (occurrence : DocComment × DocTag)
    (d : Diagnostic) : Prop where
  finding : d.finding = .duplicate
  message : d.message = "@override jsdoc tag already specified"
  anchor : d.span = occurrence.2.nameSpan
  location : d.location = ctx.location occurrence.2.nameSpan.start
  severity : d.severity = ctx.severity
  fix : ∃ edit, d.fix = some edit ∧ Removal ctx.text occurrence.1 occurrence.2 edit

private theorem isBareComment_iff {text : Text} :
    isBareComment text = true ↔
      ∃ filling, text = ['/', '*', '*'] ++ filling ++ ['*', '/'] ∧
        ∀ c ∈ filling, Text.isBlank c = true ∨ c = '*' := by
  have htake (filling : Text) :
      (filling ++ ['*', '/']).take ((filling ++ ['*', '/']).length - 2) = filling := by
    rw [List.length_append, List.length_cons, List.length_singleton, Nat.add_sub_cancel,
      List.take_left]
  constructor
  · intro h
    unfold isBareComment at h
    split at h
    · rename_i body
      rw [Bool.and_eq_true, List.isSuffixOf_iff_suffix] at h
      obtain ⟨⟨filling, rfl⟩, hall⟩ := h
      rw [htake, List.all_eq_true] at hall
      refine ⟨filling, rfl, fun c hc => ?_⟩
      simpa using hall c hc
    · cases h
  · rintro ⟨filling, rfl, hall⟩
    change isBareComment ('/' :: '*' :: '*' :: (filling ++ ['*', '/'])) = true
    rw [isBareComment, Bool.and_eq_true, List.isSuffixOf_iff_suffix, htake, List.all_eq_true]
    refine ⟨List.suffix_append _ _, fun c hc => ?_⟩
    simpa using hall c hc

private theorem holdsOnly_iff {text : Text} {comment : DocComment} {tag : DocTag}
    (hmem : tag ∈ comment.tags) :
    HoldsOnly text comment tag ↔
      comment.tags.length = 1 ∧ isBareComment (remainder text comment tag) = true := by
  rw [isBareComment_iff]
  refine and_congr_left fun _ => ?_
  constructor
  · intro honly
    rw [honly, List.length_singleton]
  · intro hone
    obtain ⟨other, hother⟩ := List.length_eq_one_iff.1 hone
    rw [hother] at hmem ⊢
    rw [List.mem_singleton.1 hmem]

private theorem spans_wholeSpan (text : Text) (comment : DocComment) :
    Spans text comment (wholeSpan text comment) := by
  unfold wholeSpan
  dsimp only
  split
  · rename_i hblank
    exact ⟨rfl, .inr rfl, iff_of_true rfl hblank⟩
  · rename_i hblank
    exact ⟨rfl, .inl rfl, iff_of_false (Nat.ne_of_lt (Nat.lt_succ_self _)) hblank⟩

theorem removal_deleteOccurrence (text : Text) {comment : DocComment} {tag : DocTag}
    (hmem : tag ∈ comment.tags) :
    Removal text comment tag (deleteOccurrence text comment tag) := by
  unfold deleteOccurrence
  split
  · rename_i honly
    rw [← holdsOnly_iff hmem] at honly
    exact ⟨fun _ => ⟨_, rfl, spans_wholeSpan text comment⟩, fun hnot => absurd honly hnot⟩
  · rename_i hnot
    rw [← holdsOnly_iff hmem] at hnot
    exact ⟨fun honly => absurd honly hnot, fun _ => rfl⟩

end OverrideTag

namespace TagScan

open OverrideTag (isIntended ReportsSpelling ReportsDuplicate deleteOccurrence)

variable {ctx : RuleContext}

/-- The diagnostics when a tag is found and others follow: one on its spelling unless that is
right, then one for each of the others in order. -/
structure Reports (ctx : RuleContext) (tag : DocTag) (later : List (DocComment × DocTag))
    (diagnostics : List Diagnostic) : Prop where
  correct : tag.name = overrideName → List.Forall₂ (ReportsDuplicate ctx) later diagnostics
  misspelled : tag.name ≠ overrideName → ∃ d duplicates, diagnostics = d :: duplicates ∧
    ReportsSpelling ctx tag d ∧ List.Forall₂ (ReportsDuplicate ctx) later duplicates

private theorem forall₂_duplicate (ctx : RuleContext) {later : List (DocComment × DocTag)}
    (hmem : ∀ occurrence ∈ later, occurrence.2 ∈ occurrence.1.tags) :
    List.Forall₂ (ReportsDuplicate ctx) later
      (later.map fun occurrence => OverrideTag.duplicate ctx occurrence.1 occurrence.2) := by
  rw [List.forall₂_map_right_iff, List.forall₂_same]
  intro occurrence hoccurrence
  exact ⟨rfl, rfl, rfl, rfl, rfl, _, rfl,
    OverrideTag.removal_deleteOccurrence ctx.text (hmem occurrence hoccurrence)⟩

private theorem reports_ofIntended (ctx : RuleContext) (comment : DocComment) (tag : DocTag)
    {later : List (DocComment × DocTag)}
    (hmem : ∀ occurrence ∈ later, occurrence.2 ∈ occurrence.1.tags) :
    Reports ctx tag later (ofIntended ctx ((comment, tag) :: later)).diagnostics := by
  constructor
  · intro hname
    rw [ofIntended, respelling, if_pos hname, List.nil_append]
    exact forall₂_duplicate ctx hmem
  · intro hname
    refine ⟨OverrideTag.misspelled ctx tag, _, ?_, ⟨rfl, rfl, rfl, rfl, rfl, rfl⟩,
      forall₂_duplicate ctx hmem⟩
    rw [ofIntended, respelling, if_neg hname, List.singleton_append]

structure First (docs : List DocComment) (occurrence : DocComment × DocTag)
    (later : List (DocComment × DocTag)) : Prop where
  intended : isIntended occurrence.2.name = true
  order : ∃ before after, occurrences docs = before ++ occurrence :: after ∧
    (∀ earlier ∈ before, isIntended earlier.2.name = false) ∧
    later = after.filter fun other => isIntended other.2.name

theorem First.intended_eq {docs : List DocComment} {occurrence : DocComment × DocTag}
    {later : List (DocComment × DocTag)} (h : First docs occurrence later) :
    TagScan.intended docs = occurrence :: later := by
  obtain ⟨before, after, hsplit, hbefore, rfl⟩ := h.order
  have hnone : before.filter (fun earlier => isIntended earlier.2.name) = [] := by
    rw [List.filter_eq_nil_iff]
    intro earlier hearlier
    simp [hbefore earlier hearlier]
  rw [TagScan.intended, hsplit, List.filter_append, hnone, List.nil_append, List.filter_cons,
    if_pos h.intended]

private theorem exists_first_or_none (docs : List DocComment) :
    (∃ occurrence later, First docs occurrence later) ∨
      ∀ occurrence ∈ occurrences docs, isIntended occurrence.2.name = false := by
  cases hfind : (occurrences docs).find? fun occurrence => isIntended occurrence.2.name with
  | none =>
    right
    intro occurrence hoccurrence
    simpa using List.find?_eq_none.1 hfind occurrence hoccurrence
  | some occurrence =>
    obtain ⟨hhere, before, after, hsplit, hbefore⟩ := List.find?_eq_some_iff_append.1 hfind
    refine .inl ⟨occurrence, _, hhere, before, after, hsplit, ?_, rfl⟩
    intro earlier hearlier
    simpa using hbefore earlier hearlier

/-- Comments at the same place with the same tags meant to be the override tag, of which
either both have a single tag or neither has. -/
structure Alike (a b : DocComment) : Prop where
  span : a.span = b.span
  intended : a.tags.filter (fun tag => isIntended tag.name) =
    b.tags.filter fun tag => isIntended tag.name
  single : a.tags.length = 1 ↔ b.tags.length = 1

theorem Alike.deleteOccurrence_eq {a b : DocComment} (h : Alike a b) (text : Text) (tag : DocTag) :
    deleteOccurrence text a tag = deleteOccurrence text b tag := by
  obtain ⟨span, tags⟩ := a
  obtain ⟨span', tags'⟩ := b
  obtain rfl : span = span' := h.span
  exact if_congr (and_congr h.single Iff.rfl) rfl rfl

private def trace (text : Text) (occurrence : DocComment × DocTag) : DocTag × Edit :=
  (occurrence.2, deleteOccurrence text occurrence.1 occurrence.2)

private theorem ofIntended_congr {a b : List (DocComment × DocTag)}
    (h : a.map (trace ctx.text) = b.map (trace ctx.text)) : ofIntended ctx a = ofIntended ctx b := by
  have hduplicate (later : List (DocComment × DocTag)) :
      (later.map fun occurrence => OverrideTag.duplicate ctx occurrence.1 occurrence.2) =
        (later.map (trace ctx.text)).map fun (tag, edit) =>
          ctx.diagnostic .duplicate "@override jsdoc tag already specified" tag.nameSpan
            (some edit) none := by
    rw [List.map_map]
    rfl
  cases a with
  | nil =>
    cases b with
    | nil => rfl
    | cons occurrence later => cases h
  | cons occurrence later =>
    cases b with
    | nil => cases h
    | cons other rest =>
      rw [List.map_cons, List.map_cons, List.cons.injEq] at h
      have htag : occurrence.2 = other.2 := congrArg Prod.fst h.1
      simp only [ofIntended, hduplicate, htag, h.2]

private theorem map_trace_intended_cons (text : Text) (comment : DocComment)
    (docs : List DocComment) :
    (intended (comment :: docs)).map (trace text) =
      (comment.tags.filter fun tag => isIntended tag.name).map
          (fun tag => (tag, deleteOccurrence text comment tag)) ++
        (intended docs).map (trace text) := by
  rw [intended, occurrences, List.flatMap_cons, List.filter_append, List.filter_map,
    List.map_append, List.map_map]
  rfl

private theorem map_trace_intended {docs docs' : List DocComment}
    (h : List.Forall₂ Alike docs docs')
    (text : Text) : (intended docs).map (trace text) = (intended docs').map (trace text) := by
  induction h with
  | nil => rfl
  | cons hcomment hrest ih =>
    simp only [map_trace_intended_cons, hcomment.intended, ih, hcomment.deleteOccurrence_eq]

/-- The scan finds the first tag in document order that is meant to be the override tag, and
reports its spelling and all later ones. Nothing of the other tags matters, but for whether
a tag is the only one of its comment. -/
theorem ofDocs_reports (ctx : RuleContext) (docs : List DocComment) :
    ((∃ occurrence later, First docs occurrence later ∧
        (ofDocs ctx docs).found = some occurrence.2 ∧
        Reports ctx occurrence.2 later (ofDocs ctx docs).diagnostics) ∨
      (∀ occurrence ∈ occurrences docs, isIntended occurrence.2.name = false) ∧
        ofDocs ctx docs = ⟨none, []⟩) ∧
      ∀ docs', List.Forall₂ Alike docs docs' → ofDocs ctx docs = ofDocs ctx docs' := by
  constructor
  · rcases exists_first_or_none docs with ⟨occurrence, later, hfirst⟩ | hnone
    · refine .inl ⟨occurrence, later, hfirst, ?_⟩
      rw [ofDocs_eq, hfirst.intended_eq]
      refine ⟨rfl, reports_ofIntended ctx occurrence.1 occurrence.2 ?_⟩
      intro other hother
      have hmem : other ∈ intended docs := by
        rw [hfirst.intended_eq]
        exact List.mem_cons_of_mem _ hother
      exact (mem_intended.1 hmem).2.1
    · have hempty : intended docs = [] := by
        rw [intended, List.filter_eq_nil_iff]
        intro occurrence hoccurrence
        simp [hnone occurrence hoccurrence]
      exact .inr ⟨hnone, by rw [ofDocs_eq, hempty, ofIntended]⟩
  · intro docs' halike
    rw [ofDocs_eq, ofDocs_eq]
    exact ofIntended_congr (map_trace_intended halike ctx.text)

def repeatedContext : RuleContext :=
  ⟨"a.ts", "/** @Overrides @see */ /** @override */ m".toList, .error⟩

def repeatedDocs (other : String) : List DocComment :=
  [(DocComment.ofText s!"/** @Overrides @{other} */".toList 0).value,
    (DocComment.ofText "/** @override */".toList 23).value]

theorem ofDocs_reports_repeated :
    (ofDocs repeatedContext (repeatedDocs "see")).diagnostics.map (·.fix) =
        [some (.replace ⟨5, 14, by decide⟩ overrideName.toList),
          some (.delete ⟨23, 40, by decide⟩)] ∧
      List.Forall₂ Alike (repeatedDocs "see") (repeatedDocs "use") ∧
      ofDocs repeatedContext (repeatedDocs "see") =
        ofDocs repeatedContext (repeatedDocs "use") := by
  have halike : List.Forall₂ Alike (repeatedDocs "see") (repeatedDocs "use") :=
    .cons ⟨by decide +kernel, by decide +kernel, by decide +kernel⟩
      (.cons ⟨rfl, rfl, Iff.rfl⟩ .nil)
  exact ⟨by decide +kernel, halike,
    (ofDocs_reports repeatedContext (repeatedDocs "see")).2 _ halike⟩

end TagScan
end OverrideLint
