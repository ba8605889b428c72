import OverrideLint.Edit.Apply
import OverrideLint.Rule.Check

/-! What the check of one member reports. The first tag meant to be the override tag
decides, every later one is a duplicate, and each report carries its repair. -/
namespace OverrideLint

namespace TagScan

/-- The tags meant to be the override tag, each with its comment, in document order. -/
def intended (docs : List DocComment) : List (DocComment × DocTag) :=
  (occurrences docs).filter fun occurrence => OverrideTag.isIntended occurrence.2.name

theorem mem_intended {docs : List DocComment} {occurrence : DocComment × DocTag} :
    occurrence ∈ intended docs ↔ occurrence.1 ∈ docs ∧ occurrence.2 ∈ occurrence.1.tags ∧
      OverrideTag.isIntended occurrence.2.name = true := by
  unfold intended occurrences
  rw [List.mem_filter, List.mem_flatMap]
  constructor
  · rintro ⟨⟨comment, hcomment, hpair⟩, hintended⟩
    obtain ⟨tag, htag, rfl⟩ := List.mem_map.1 hpair
    exact ⟨hcomment, htag, hintended⟩
  · rintro ⟨hcomment, htag, hintended⟩
    exact ⟨⟨occurrence.1, hcomment, List.mem_map.2 ⟨occurrence.2, htag, rfl⟩⟩, hintended⟩

def respelling (ctx : RuleContext) (tag : DocTag) : List Diagnostic :=
  if tag.name = overrideName then [] else [OverrideTag.misspelled ctx tag]

def ofIntended (ctx : RuleContext) : List (DocComment × DocTag) → TagScan
  | [] => ⟨none, []⟩
  | (_, tag) :: later =>
    ⟨some tag, respelling ctx tag ++
      later.map fun occurrence => OverrideTag.duplicate ctx occurrence.1 occurrence.2⟩

private theorem foldl_step_eq_filter (ctx : RuleContext) (scan : TagScan)
    (occurrences : List (DocComment × DocTag)) :
    occurrences.foldl (step ctx) scan =
      (occurrences.filter fun occurrence =>
        OverrideTag.isIntended occurrence.2.name).foldl (step ctx) scan := by
  induction occurrences generalizing scan with
  | nil => rfl
  | cons occurrence occurrences ih =>
    rw [List.foldl_cons, ih, List.filter_cons]
    split
    · rw [List.foldl_cons]
    · rename_i hother
      rw [step, if_pos (by simpa using hother)]

private theorem foldl_step_of_found (ctx : RuleContext) (found : DocTag)
    (diagnostics : List Diagnostic) {occurrences : List (DocComment × DocTag)}
    (hall : ∀ occurrence ∈ occurrences, OverrideTag.isIntended occurrence.2.name = true) :
    occurrences.foldl (step ctx) ⟨some found, diagnostics⟩ =
      ⟨some found, diagnostics ++ occurrences.map fun occurrence =>
        OverrideTag.duplicate ctx occurrence.1 occurrence.2⟩ := by
  induction occurrences generalizing diagnostics with
  | nil => rw [List.foldl_nil, List.map_nil, List.append_nil]
  | cons occurrence occurrences ih =>
    have hstep : step ctx ⟨some found, diagnostics⟩ occurrence = ⟨some found,
        diagnostics ++ [OverrideTag.duplicate ctx occurrence.1 occurrence.2]⟩ := by
      rw [step, hall occurrence List.mem_cons_self]
      rfl
    rw [List.foldl_cons, hstep, ih _ fun later hmem => hall later (List.mem_cons_of_mem _ hmem),
      List.map_cons, List.append_assoc]
    rfl

theorem ofDocs_eq (ctx : RuleContext) (docs : List DocComment) :
    ofDocs ctx docs = ofIntended ctx (intended docs) := by
  have hall : ∀ occurrence ∈ intended docs, OverrideTag.isIntended occurrence.2.name = true :=
    fun _ hmem => (List.mem_filter.1 hmem).2
  rw [ofDocs, foldl_step_eq_filter]
  change (intended docs).foldl (step ctx) ⟨none, []⟩ = _
  cases hdocs : intended docs with
  | nil => rfl
  | cons occurrence later =>
    rw [hdocs] at hall
    have hstep : step ctx ⟨none, []⟩ occurrence =
        ⟨some occurrence.2, respelling ctx occurrence.2⟩ := by
      rw [step, hall occurrence List.mem_cons_self, Bool.not_true, if_neg Bool.false_ne_true,
        Option.isSome_none, if_neg Bool.false_ne_true, respelling]
      split <;> rfl
    rw [List.foldl_cons, hstep,
      foldl_step_of_found ctx _ _ fun later hmem => hall later (List.mem_cons_of_mem _ hmem)]
    rfl

end TagScan

namespace Rule

def returned {σ α : Type} (action : StateT σ Logged α) (state : σ) : α :=
  (action.run state).value.1

def diagnosticsOf (ctx : RuleContext) (category : Category) (base : Option ResolvedType)
    (span : Span) (member : Member) : List Diagnostic :=
  let scan := TagScan.ofDocs ctx member.docs
  scan.diagnostics ++
    ((Outcome.decide category scan.found.isSome base.isSome).diagnostic? ctx span member.name
      scan.found (base.map (·.name))).toList

variable {σ : Type} {resolve : TypeReference → StateT σ Logged Resolution} {ctx : RuleContext}

theorem returned_checkMember (visit : Visit) (member : Member) (state : σ) :
    returned (checkMember resolve ctx visit member) state =
      diagnosticsOf ctx (Category.ofMember visit.parent visit.node.kind member)
        (returned (baseOf resolve visit.parent
          (Category.ofMember visit.parent visit.node.kind member) member) state)
        visit.node.span member :=
  rfl

theorem returned_checkMembers_cons (resolve : TypeReference → StateT σ Logged Resolution)
    (ctx : RuleContext) (visit : Visit) (member : Member) (rest : List (Visit × Member))
    (state : σ) :
    ∃ later, returned (checkMembers resolve ctx ((visit, member) :: rest)) state =
      returned (checkMember resolve ctx visit member) state ++
        returned (checkMembers resolve ctx rest) later :=
  ⟨_, rfl⟩

def repairs (text : Text) (category : Category) (baseFound : Bool) (start : Nat) :
    List (DocComment × DocTag) → List Edit
  | [] =>
    if Outcome.decide category false baseFound = .none then []
    else [.insert start overrideComment]
  | (_, tag) :: later =>
    (if tag.name = overrideName then [] else [.replace tag.nameSpan overrideName.toList]) ++
      later.map (fun occurrence => OverrideTag.deleteOccurrence text occurrence.1 occurrence.2) ++
      if Outcome.decide category true baseFound = .none then [] else [.delete tag.span]

/-- Every diagnostic of a member carries a repair, and these are the repairs. -/
theorem fix_diagnosticsOf (category : Category) (base : Option ResolvedType) (span : Span)
    (member : Member) :
    (diagnosticsOf ctx category base span member).map (·.fix) =
      (repairs ctx.text category base.isSome span.start (TagScan.intended member.docs)).map some := by
  unfold diagnosticsOf
  rw [TagScan.ofDocs_eq]
  cases TagScan.intended member.docs with
  | nil =>
    rw [repairs]
    cases category <;> cases base <;> rfl
  | cons occurrence later =>
    obtain ⟨comment, tag⟩ := occurrence
    have hlater : (later.map fun occurrence =>
          OverrideTag.duplicate ctx occurrence.1 occurrence.2).map (·.fix) =
        (later.map fun occurrence =>
          OverrideTag.deleteOccurrence ctx.text occurrence.1 occurrence.2).map some := by
      rw [List.map_map, List.map_map]
      rfl
    have hspelling : (TagScan.respelling ctx tag).map (·.fix) =
        (if tag.name = overrideName then []
          else [Edit.replace tag.nameSpan overrideName.toList]).map some := by
      unfold TagScan.respelling
      split <;> rfl
    simp only [TagScan.ofIntended, repairs, List.map_append, hlater, hspelling]
    cases category <;> cases base <;> rfl

theorem exists_fix_checkMember (resolve : TypeReference → StateT σ Logged Resolution)
    (ctx : RuleContext) (visit : Visit) (member : Member) (state : σ) :
    ∃ category baseFound,
      (returned (checkMember resolve ctx visit member) state).map (·.fix) =
        (repairs ctx.text category baseFound visit.node.span.start
          (TagScan.intended member.docs)).map some :=
  ⟨_, _, by rw [returned_checkMember, fix_diagnosticsOf]⟩

theorem fixesOf_of_map_fix {diagnostics : List Diagnostic} {edits : List Edit}
    (h : diagnostics.map (·.fix) = edits.map some) : fixesOf diagnostics = edits := by
  have : fixesOf diagnostics = (diagnostics.map (·.fix)).filterMap id := by
    rw [List.filterMap_map]
    rfl
  rw [this, h, List.filterMap_map]
  exact List.filterMap_some

end Rule
end OverrideLint
