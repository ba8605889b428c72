import OverrideLint.Proofs.Rule.RepairSite

/-! The repairs that one pass of the rule proposes for a file agree with each other. Any
two are apart, except that the deletion of a tag takes the rename of that tag with it. -/
namespace OverrideLint

open OverrideTag

def RenamedAndDeleted (tags : List DocTag) (a b : Edit) : Prop :=
  ∃ tag ∈ tags, a = .replace tag.nameSpan overrideName.toList ∧ b = .delete tag.span

/-- Two repairs are apart, or they rename and delete the same tag. -/
def Harmonious (tags : List DocTag) (a b : Edit) : Prop :=
  a.conflicts b = false ∨ RenamedAndDeleted tags a b ∨ RenamedAndDeleted tags b a

theorem RenamedAndDeleted.mono {tags tags' : List DocTag} {a b : Edit}
    (h : RenamedAndDeleted tags a b) (hsubset : tags ⊆ tags') : RenamedAndDeleted tags' a b := by
  obtain ⟨tag, htag, hedits⟩ := h
  exact ⟨tag, hsubset htag, hedits⟩

theorem Harmonious.mono {tags tags' : List DocTag} {a b : Edit} (h : Harmonious tags a b)
    (hsubset : tags ⊆ tags') : Harmonious tags' a b :=
  h.imp id (Or.imp (·.mono hsubset) (·.mono hsubset))

instance (tags : List DocTag) : Std.Symm (Harmonious tags) where
  symm a b h := by
    unfold Harmonious at h ⊢
    rw [Edit.conflicts_comm b a, or_comm (a := RenamedAndDeleted tags b a)]
    exact h

theorem DocTag.WellPlaced.contains {tag : DocTag} (h : tag.WellPlaced) :
    tag.span.contains tag.nameSpan = true := by
  have hbounds := h.bounds
  rw [Span.contains_eq_true]
  omega

theorem RenamedAndDeleted.swallowedBy {tags : List DocTag} {a b : Edit}
    (h : RenamedAndDeleted tags a b) (hplaced : ∀ tag ∈ tags, tag.WellPlaced) :
    a.SwallowedBy b := by
  obtain ⟨tag, htag, rfl, rfl⟩ := h
  have hnonempty := (hplaced tag htag).name_nonempty
  refine ⟨rfl, nofun, (hplaced tag htag).contains, ?_⟩
  intro hwidth
  simp only [Edit.span, Span.width] at hwidth
  omega

theorem Harmonious.renamedAndDeleted {tags : List DocTag} {edit deletion : Edit}
    (h : Harmonious tags edit deletion) (hswallowed : edit.SwallowedBy deletion) :
    RenamedAndDeleted tags edit deletion := by
  rcases h with hapart | hrenamed | ⟨tag, _, hrename, _⟩
  · rw [hswallowed.conflicts] at hapart
    cases hapart
  · exact hrenamed
  · have := hswallowed.isDeletion
    rw [hrename] at this
    cases this

theorem compatible_of_harmonious {edits : List Edit} {tags : List DocTag}
    (hplaced : ∀ tag ∈ tags, tag.WellPlaced) (h : edits.Pairwise (Harmonious tags)) :
    Edit.Compatible edits := by
  intro a ha b hb hne
  exact (h.forall ha hb hne).imp id (Or.imp (·.swallowedBy hplaced) (·.swallowedBy hplaced))

/-- Of harmonious edits none is skipped, and only renames of deleted tags are subsumed. -/
theorem applyEdits_of_harmonious {source : Text} {edits : List Edit} {tags : List DocTag}
    (hin : ∀ edit ∈ edits, edit.span.stop ≤ source.length)
    (hplaced : ∀ tag ∈ tags, tag.WellPlaced) (h : edits.Pairwise (Harmonious tags)) :
    (applyEdits source edits).skipped = [] ∧
      (∀ edit ∈ (applyEdits source edits).subsumed, ∃ deletion ∈ (applyEdits source edits).applied,
        RenamedAndDeleted tags edit deletion) ∧
      ∀ edit ∈ edits,
        edit ∈ (applyEdits source edits).applied ∨ edit ∈ (applyEdits source edits).subsumed := by
  have hall : ∀ a ∈ edits, ∀ b ∈ edits, a ≠ b → Harmonious tags a b :=
    fun a ha b hb hne => h.forall ha hb hne
  obtain ⟨hskipped, happlied⟩ :=
    applyEdits_of_compatible hin (compatible_of_harmonious hplaced h)
  refine ⟨hskipped, ?_, ?_⟩
  · intro edit hsubsumed
    obtain ⟨hedit, deletion, hdeletion, hswallowed⟩ := mem_subsumed_iff.1 hsubsumed
    have hrenamed :=
      (hall edit hedit deletion hdeletion hswallowed.ne.symm).renamedAndDeleted hswallowed
    refine ⟨deletion, (happlied deletion).2 ⟨hdeletion, ?_⟩, hrenamed⟩
    intro other hother hagain
    obtain ⟨_, _, hrename, _⟩ :=
      (hall deletion hdeletion other hother hagain.ne.symm).renamedAndDeleted hagain
    have := hswallowed.isDeletion
    rw [hrename] at this
    cases this
  · intro edit hedit
    by_cases hswallowed : ∃ deletion ∈ edits, edit.SwallowedBy deletion
    · exact .inr (mem_subsumed_iff.2 ⟨hedit, hswallowed⟩)
    · exact .inl ((happlied edit).2 ⟨hedit, fun deletion hmem hgone =>
        hswallowed ⟨deletion, hmem, hgone⟩⟩)

namespace Rule

variable {text : Text} {docs : List DocComment} {category : Category} {baseFound : Bool}
  {start : Nat}

theorem mem_unless {condition : Prop} [Decidable condition] {edit other : Edit} :
    edit ∈ (if condition then [] else [other]) ↔ ¬ condition ∧ edit = other := by
  split
  · simp [*]
  · simp [*]

private theorem pairwise_unless (R : Edit → Edit → Prop) (condition : Prop) [Decidable condition]
    (edit : Edit) : (if condition then [] else [edit]).Pairwise R := by
  split
  · exact List.Pairwise.nil
  · exact List.pairwise_singleton ..

variable {first : DocComment × DocTag} {later : List (DocComment × DocTag)} {edit : Edit}

theorem mem_repairs_cons :
    edit ∈ repairs text category baseFound start (first :: later) ↔
      (first.2.name ≠ overrideName ∧ edit = .replace first.2.nameSpan overrideName.toList) ∨
      (∃ occurrence ∈ later, edit = deleteOccurrence text occurrence.1 occurrence.2) ∨
      (Outcome.decide category true baseFound ≠ .none ∧ edit = .delete first.2.span) := by
  rw [repairs, List.mem_append, List.mem_append, List.mem_map, mem_unless, mem_unless, or_assoc]
  simp only [eq_comm, Ne]

theorem mem_repairs {occurrences : List (DocComment × DocTag)}
    (h : edit ∈ repairs text category baseFound start occurrences) :
    (∃ occurrence ∈ occurrences, IsRepair text occurrence edit) ∨
      edit = .insert start overrideComment := by
  cases occurrences with
  | nil =>
    rw [repairs] at h
    exact .inr (mem_unless.1 h).2
  | cons first later =>
    left
    rcases mem_repairs_cons.1 h with ⟨_, rfl⟩ | ⟨occurrence, hmem, rfl⟩ | ⟨_, rfl⟩
    · exact ⟨first, List.mem_cons_self, .rename⟩
    · exact ⟨occurrence, List.mem_cons_of_mem _ hmem, isRepair_deleteOccurrence text occurrence⟩
    · exact ⟨first, List.mem_cons_self, .delete⟩

theorem pairwise_repairs (h : Attached text docs) :
    (repairs text category baseFound start (TagScan.intended docs)).Pairwise
      (Harmonious (docs.flatMap (·.tags))) := by
  have hapart := h.apart
  have hoccurs := fun occurrence (hmem : occurrence ∈ TagScan.intended docs) => h.occurs hmem
  cases hintended : TagScan.intended docs with
  | nil => exact pairwise_unless ..
  | cons first later =>
    rw [hintended] at hapart hoccurs
    obtain ⟨hfirst, hlater⟩ := List.pairwise_cons.1 hapart
    obtain ⟨hoccursFirst, hdocs⟩ := hoccurs first List.mem_cons_self
    have hoccursLater := fun occurrence hmem =>
      (hoccurs occurrence (List.mem_cons_of_mem _ hmem)).1
    have hfree : ∀ edit, IsRepair text first edit → ∀ edit' ∈ later.map
        (fun occurrence => deleteOccurrence text occurrence.1 occurrence.2),
        edit.conflicts edit' = false := by
      intro edit hedit edit' hedit'
      obtain ⟨occurrence, hmem, rfl⟩ := List.mem_map.1 hedit'
      exact IsRepair.conflicts_eq_false (hfirst occurrence hmem) hoccursFirst
        (hoccursLater occurrence hmem) hedit (isRepair_deleteOccurrence text occurrence)
    rw [repairs]
    apply List.pairwise_append.2
      ⟨List.pairwise_append.2 ⟨pairwise_unless .., ?_, ?_⟩, pairwise_unless .., ?_⟩
    · apply List.pairwise_map.2
      refine hlater.imp_of_mem ?_
      intro a b ha hb hab
      exact .inl (IsRepair.conflicts_eq_false hab (hoccursLater a ha) (hoccursLater b hb)
        (isRepair_deleteOccurrence text a) (isRepair_deleteOccurrence text b))
    · intro edit hedit edit' hedit'
      rw [(mem_unless.1 hedit).2]
      exact .inl (hfree _ .rename edit' hedit')
    · intro edit hedit edit' hedit'
      rw [(mem_unless.1 hedit').2]
      rcases List.mem_append.1 hedit with hedit | hedit
      · rw [(mem_unless.1 hedit).2]
        exact .inr (.inl ⟨first.2, List.mem_flatMap.2 ⟨first.1, hdocs, hoccursFirst.mem⟩, rfl, rfl⟩)
      · left
        rw [Edit.conflicts_comm]
        exact hfree _ .delete edit hedit

end Rule

/-- What the tree of a file says about the text: comments were read where they stand and
are disjoint, members start at different offsets, and none starts in a comment or at a
blank. -/
structure SourceFile.WellAttached (source : SourceFile) : Prop where
  isSlice : ∀ visited ∈ source.root.memberVisits, ∀ comment ∈ visited.2.docs,
    comment.IsSlice source.text
  disjoint : (source.root.memberVisits.flatMap (·.2.docs)).Pairwise fun a b =>
    a.span.overlaps b.span = false
  within : ∀ visited ∈ source.root.memberVisits, visited.1.node.span.stop ≤ source.text.length
  distinct : (source.root.memberVisits.map (·.1.node.span.start)).Nodup
  outside : ∀ visited ∈ source.root.memberVisits,
    ∀ comment ∈ source.root.memberVisits.flatMap (·.2.docs),
      comment.span.start < visited.1.node.span.start →
        comment.span.stop ≤ visited.1.node.span.start
  notBlank : ∀ visited ∈ source.root.memberVisits,
    source.text[visited.1.node.span.start]? ≠ some ' ' ∧
      source.text[visited.1.node.span.start]? ≠ some '\t'

namespace Rule

/-- The edits that a member may need, whatever it is found to override. -/
def MayNeed (text : Text) (visited : Visit × Member) (edit : Edit) : Prop :=
  ∃ category baseFound, edit ∈ repairs text category baseFound visited.1.node.span.start
    (TagScan.intended visited.2.docs)

theorem MayNeed.repair_or_insert {text : Text} {visited : Visit × Member} {edit : Edit}
    (h : MayNeed text visited edit) (hdocs : ∀ comment ∈ visited.2.docs, comment.IsSlice text) :
    (∃ occurrence, Occurs text occurrence ∧ occurrence.1 ∈ visited.2.docs ∧
        IsRepair text occurrence edit) ∨
      edit = .insert visited.1.node.span.start overrideComment := by
  obtain ⟨category, baseFound, hedit⟩ := h
  rcases mem_repairs hedit with ⟨occurrence, hoccurrence, hrepair⟩ | hinsert
  · obtain ⟨hcomment, htag, _⟩ := TagScan.mem_intended.1 hoccurrence
    exact .inl ⟨occurrence, ⟨hdocs occurrence.1 hcomment, htag⟩, hcomment, hrepair⟩
  · exact .inr hinsert

theorem MayNeed.stop_le_length {text : Text} {visited : Visit × Member} {edit : Edit}
    (h : MayNeed text visited edit) (hdocs : ∀ comment ∈ visited.2.docs, comment.IsSlice text)
    (hstart : visited.1.node.span.start ≤ text.length) : edit.span.stop ≤ text.length := by
  rcases h.repair_or_insert hdocs with ⟨occurrence, hoccurs, _, hrepair⟩ | rfl
  · exact hrepair.stop_le_length hoccurs
  · exact hstart

variable {σ : Type} {resolve : TypeReference → StateT σ Logged Resolution} {ctx : RuleContext}

private theorem pairwise_fix_checkMembers (resolve : TypeReference → StateT σ Logged Resolution)
    (ctx : RuleContext) (R : Edit → Edit → Prop) {visits : List (Visit × Member)}
    (hone : ∀ visited ∈ visits, ∀ category baseFound, (repairs ctx.text category baseFound
      visited.1.node.span.start (TagScan.intended visited.2.docs)).Pairwise R)
    (htwo : visits.Pairwise fun a b => ∀ edit, MayNeed ctx.text a edit →
      ∀ edit', MayNeed ctx.text b edit' → R edit edit') (state : σ) :
    ∃ edits : List Edit,
      (returned (checkMembers resolve ctx visits) state).map (·.fix) = edits.map some ∧
      edits.Pairwise R ∧ ∀ edit ∈ edits, ∃ visited ∈ visits, MayNeed ctx.text visited edit := by
  induction visits generalizing state with
  | nil => exact ⟨[], rfl, List.Pairwise.nil, nofun⟩
  | cons visited visits ih =>
    obtain ⟨visit, member⟩ := visited
    obtain ⟨hfirst, hrest⟩ := List.pairwise_cons.1 htwo
    obtain ⟨later, hchecked⟩ :=
      returned_checkMembers_cons resolve ctx visit member visits state
    obtain ⟨edits, hfixes, hpairwise, hneeded⟩ :=
      ih (fun v hv => hone v (List.mem_cons_of_mem _ hv)) hrest later
    obtain ⟨category, baseFound, hown⟩ :=
      exists_fix_checkMember resolve ctx visit member state
    refine ⟨repairs ctx.text category baseFound visit.node.span.start
      (TagScan.intended member.docs) ++ edits, ?_, List.pairwise_append.2
      ⟨hone (visit, member) List.mem_cons_self category baseFound, hpairwise, ?_⟩, ?_⟩
    · rw [hchecked, List.map_append, List.map_append, hfixes, hown]
    · intro edit hedit edit' hedit'
      obtain ⟨other, hother, hneeds⟩ := hneeded edit' hedit'
      exact hfirst other hother edit ⟨category, baseFound, hedit⟩ edit' hneeds
    · intro edit hedit
      rcases List.mem_append.1 hedit with hedit | hedit
      · exact ⟨(visit, member), List.mem_cons_self, category, baseFound, hedit⟩
      · obtain ⟨other, hother, hneeds⟩ := hneeded edit hedit
        exact ⟨other, List.mem_cons_of_mem _ hother, hneeds⟩

theorem exists_mayNeed {severity : Severity} {source : SourceFile} {state : σ}
    {diagnostic : Diagnostic} (h : diagnostic ∈ returned (check resolve severity source) state) :
    ∃ edit, diagnostic.fix = some edit ∧
      ∃ visited ∈ source.root.memberVisits, MayNeed source.text visited edit := by
  obtain ⟨edits, hfixes, -, hneeded⟩ := pairwise_fix_checkMembers resolve
    ⟨source.file, source.text, severity⟩ (fun _ _ => True)
    (fun _ _ _ _ => List.pairwise_of_forall fun _ _ => trivial)
    (List.pairwise_of_forall fun _ _ _ _ _ _ => trivial) state
  have hfix : diagnostic.fix ∈ edits.map some := by
    rw [← hfixes]
    exact List.mem_map_of_mem h
  obtain ⟨edit, hedit, heq⟩ := List.mem_map.1 hfix
  exact ⟨edit, heq.symm, hneeded edit hedit⟩

theorem conflicts_insert_eq_false {text written : Text} {occurrence : DocComment × DocTag}
    {edit : Edit} {start : Nat} (h : IsRepair text occurrence edit)
    (hoccurs : Occurs text occurrence)
    (houtside : occurrence.1.span.start < start → occurrence.1.span.stop ≤ start)
    (hblank : text[start]? ≠ some ' ' ∧ text[start]? ≠ some '\t') :
    (Edit.insert start written).conflicts edit = false := by
  obtain ⟨hstart, hlt, hstop⟩ := h.extent hoccurs
  rw [Edit.conflicts_eq_false]
  constructor
  · rw [Span.overlaps_eq_false]
    by_cases hbefore : edit.span.start < start
    · left
      apply Nat.le_trans hstop
      exact stop_wholeSpan_le (houtside (Nat.lt_of_le_of_lt hstart hbefore)) hblank
    · right
      exact Nat.le_of_not_lt hbefore
  · intro heq
    rw [← heq] at hlt
    exact Nat.lt_irrefl _ hlt

def attachedTags (source : SourceFile) : List DocTag :=
  (source.root.memberVisits.flatMap (·.2.docs)).flatMap (·.tags)

end Rule

namespace SourceFile.WellAttached

variable {source : SourceFile}

theorem attached (h : source.WellAttached) {visited : Visit × Member}
    (hmem : visited ∈ source.root.memberVisits) : Attached source.text visited.2.docs :=
  ⟨h.isSlice visited hmem, (List.pairwise_flatMap.1 h.disjoint).1 visited hmem⟩

theorem wellPlaced (h : source.WellAttached) :
    ∀ tag ∈ Rule.attachedTags source, tag.WellPlaced := by
  intro tag htag
  obtain ⟨comment, hcomment, htag⟩ := List.mem_flatMap.1 htag
  obtain ⟨visited, hvisited, hcomment⟩ := List.mem_flatMap.1 hcomment
  exact (h.isSlice visited hvisited comment hcomment).wellPlaced.tags tag htag

theorem pairwise_apart (h : source.WellAttached) :
    source.root.memberVisits.Pairwise fun a b => ∀ edit, Rule.MayNeed source.text a edit →
      ∀ edit', Rule.MayNeed source.text b edit' → edit.conflicts edit' = false := by
  have hdocs := (List.pairwise_flatMap.1 h.disjoint).2
  have hstarts := List.pairwise_map.1 h.distinct
  refine (hdocs.and hstarts).imp_of_mem ?_
  rintro a b ha hb ⟨hdisjoint, hstart⟩ edit hneeds edit' hneeds'
  have hmemDocs : ∀ visited ∈ source.root.memberVisits, ∀ comment ∈ visited.2.docs,
      comment ∈ source.root.memberVisits.flatMap (·.2.docs) :=
    fun visited hvisited comment hcomment => List.mem_flatMap.2 ⟨visited, hvisited, hcomment⟩
  rcases hneeds.repair_or_insert (h.isSlice a ha) with ⟨x, hx, hxdocs, hrepair⟩ | rfl
  · rcases hneeds'.repair_or_insert (h.isSlice b hb) with ⟨y, hy, hydocs, hrepair'⟩ | rfl
    · exact IsRepair.conflicts_eq_false (.inl (hdisjoint x.1 hxdocs y.1 hydocs)) hx hy hrepair
        hrepair'
    · rw [Edit.conflicts_comm]
      exact Rule.conflicts_insert_eq_false hrepair hx
        (h.outside b hb x.1 (hmemDocs a ha x.1 hxdocs)) (h.notBlank b hb)
  · rcases hneeds'.repair_or_insert (h.isSlice b hb) with ⟨y, hy, hydocs, hrepair'⟩ | rfl
    · exact Rule.conflicts_insert_eq_false hrepair' hy
        (h.outside a ha y.1 (hmemDocs b hb y.1 hydocs)) (h.notBlank a ha)
    · rw [Edit.conflicts_eq_false]
      constructor
      · rw [Span.overlaps_eq_false]
        exact (Nat.le_total _ _).symm
      · intro heq
        exact hstart (congrArg (·.start) heq)

theorem stop_le_length (h : source.WellAttached) {visited : Visit × Member}
    (hmem : visited ∈ source.root.memberVisits) {edit : Edit}
    (hneeds : Rule.MayNeed source.text visited edit) : edit.span.stop ≤ source.text.length :=
  hneeds.stop_le_length (h.isSlice visited hmem)
    (Nat.le_trans visited.1.node.span.start_le_stop (h.within visited hmem))

end SourceFile.WellAttached

namespace Rule

variable {σ : Type}

def repairOnce (resolve : TypeReference → StateT σ Logged Resolution) (severity : Severity)
    (source : SourceFile) (state : σ) : FixResult :=
  applyEdits source.text (fixesOf (returned (check resolve severity source) state))

/-- One pass carries out every finding of a file: no repair is skipped, and one is subsumed
only if it renames a tag that is deleted in the same pass. -/
theorem repairOnce_carries_out (resolve : TypeReference → StateT σ Logged Resolution)
    (severity : Severity) (source : SourceFile) (state : σ) (h : source.WellAttached) :
    (repairOnce resolve severity source state).skipped = [] ∧
      (∀ edit ∈ (repairOnce resolve severity source state).subsumed,
        ∃ tag ∈ attachedTags source, edit = .replace tag.nameSpan overrideName.toList ∧
          tag.span.contains tag.nameSpan = true ∧
          .delete tag.span ∈ (repairOnce resolve severity source state).applied) ∧
      ∀ diagnostic ∈ returned (check resolve severity source) state,
        ∃ edit, diagnostic.fix = some edit ∧
          (edit ∈ (repairOnce resolve severity source state).applied ∨
            edit ∈ (repairOnce resolve severity source state).subsumed) := by
  have hone : ∀ visited ∈ source.root.memberVisits, ∀ category baseFound,
      (repairs source.text category baseFound visited.1.node.span.start
        (TagScan.intended visited.2.docs)).Pairwise (Harmonious (attachedTags source)) := by
    intro visited hvisited category baseFound
    refine (pairwise_repairs (h.attached hvisited)).imp (·.mono ?_)
    intro tag htag
    obtain ⟨comment, hcomment, htag⟩ := List.mem_flatMap.1 htag
    exact List.mem_flatMap.2 ⟨comment, List.mem_flatMap.2 ⟨visited, hvisited, hcomment⟩, htag⟩
  obtain ⟨edits, hfixes, hharmony, hneeded⟩ := pairwise_fix_checkMembers resolve
    ⟨source.file, source.text, severity⟩ (Harmonious (attachedTags source)) hone
    (h.pairwise_apart.imp fun hfree edit hedit edit' hedit' =>
      .inl (hfree edit hedit edit' hedit')) state
  have hin : ∀ edit ∈ edits, edit.span.stop ≤ source.text.length := by
    intro edit hedit
    obtain ⟨visited, hvisited, hneeds⟩ := hneeded edit hedit
    exact h.stop_le_length hvisited hneeds
  obtain ⟨hskipped, hsubsumed, hall⟩ := applyEdits_of_harmonious hin h.wellPlaced hharmony
  unfold repairOnce check
  rw [fixesOf_of_map_fix hfixes]
  refine ⟨hskipped, ?_, ?_⟩
  · intro edit hedit
    obtain ⟨deletion, hdeletion, tag, htag, hrename, rfl⟩ := hsubsumed edit hedit
    exact ⟨tag, htag, hrename, (h.wellPlaced tag htag).contains, hdeletion⟩
  · intro diagnostic hdiagnostic
    have hfix : diagnostic.fix ∈ edits.map some := by
      rw [← hfixes]
      exact List.mem_map_of_mem hdiagnostic
    obtain ⟨edit, hedit, heq⟩ := List.mem_map.1 hfix
    exact ⟨edit, heq.symm, hall edit hedit⟩

def crowdedFile : SourceFile where
  file := "crowded.ts"
  text := "/** @overrides */ /** @override */ f() {} g() {}".toList
  root := .mk .sourceFile ⟨0, 48, by decide⟩ .plain
    [.mk .classDeclaration ⟨0, 48, by decide⟩
      (.classLike ⟨some "A", some [⟨.extending, [⟨"B", .empty 0, "crowded.ts"⟩]⟩], []⟩)
      [.mk .method ⟨35, 41, by decide⟩
          (.member ⟨some ⟨"f", ⟨35, 36, by decide⟩, false⟩, [],
            [⟨⟨0, 17, by decide⟩, [⟨"overrides", ⟨5, 14, by decide⟩, ⟨4, 14, by decide⟩⟩]⟩,
              ⟨⟨18, 34, by decide⟩, [⟨"override", ⟨23, 31, by decide⟩, ⟨22, 31, by decide⟩⟩]⟩]⟩) [],
        .mk .method ⟨42, 48, by decide⟩
          (.member ⟨some ⟨"g", ⟨42, 43, by decide⟩, false⟩, [], []⟩) []]]

theorem wellAttached_crowdedFile : crowdedFile.WellAttached where
  isSlice := by decide +kernel
  disjoint := by decide +kernel
  within := by decide +kernel
  distinct := by decide +kernel
  outside := by decide +kernel
  notBlank := by decide +kernel

theorem repairOnce_carries_out_crowded :
    crowdedFile.WellAttached ∧
      (repairOnce (fun _ => pure (.found ⟨"B", ["g"]⟩)) .error crowdedFile ()).skipped = [] :=
  ⟨wellAttached_crowdedFile,
    (repairOnce_carries_out _ .error crowdedFile () wellAttached_crowdedFile).1⟩

end Rule
end OverrideLint
