import OverrideLint.Proofs.Rule.Member
import OverrideLint.Proofs.Tree.Preorder

/-! What the rule reports of a file: for every member in pre-order the findings on its
tags, and then the one outcome, if any, that its place, its tags and its base types call
for. -/
namespace OverrideLint

namespace TagScan

private theorem map_snd_occurrences (docs : List DocComment) :
    (occurrences docs).map Prod.snd = docs.flatMap (·.tags) := by
  unfold occurrences
  rw [List.map_flatMap]
  congr 1
  funext comment
  rw [List.map_map]
  exact List.map_id comment.tags

theorem found_ofDocs (ctx : RuleContext) (docs : List DocComment) :
    (ofDocs ctx docs).found =
      (docs.flatMap (·.tags)).find? fun tag => OverrideTag.isIntended tag.name := by
  have hhead : (ofDocs ctx docs).found = (intended docs).head?.map Prod.snd := by
    rw [ofDocs_eq]
    cases intended docs <;> rfl
  rw [hhead, intended, List.head?_filter, ← map_snd_occurrences, List.find?_map]
  rfl

end TagScan

namespace Rule

abbrev Oracle := TypeReference → Resolution

def Declares (oracle : Oracle) (member : String) (reference : TypeReference)
    (type : ResolvedType) : Prop :=
  oracle reference = .found type ∧ ↑member ∈ type.members

def HasBase (oracle : Oracle) (info : ClassInfo) (member : String) : Prop :=
  ∃ reference ∈ info.references, ∃ type, Declares oracle member reference type

/-- The first type, in the order of the heritage clauses, that has a member of the name. -/
def FirstBase (oracle : Oracle) (info : ClassInfo) (member : String) (type : ResolvedType) :
    Prop :=
  ∃ before reference after, info.references = before ++ reference :: after ∧
    Declares oracle member reference type ∧
    ∀ earlier ∈ before, ∀ other, ¬ Declares oracle member earlier other

def Tagged (member : Member) : Prop :=
  ∃ comment ∈ member.docs, ∃ tag ∈ comment.tags, OverrideTag.isIntended tag.name = true

def FirstTag (member : Member) (tag : DocTag) : Prop :=
  OverrideTag.isIntended tag.name = true ∧ ∃ before after,
    member.docs.flatMap (·.tags) = before ++ tag :: after ∧
      ∀ earlier ∈ before, OverrideTag.isIntended earlier.name = false

def shadowingKinds : List Kind := [.method, .property, .getAccessor, .setAccessor]

/-- A method, property or accessor of a class that is not static and has a known name. -/
structure Overrideable (visit : Visit) (member : Member) (info : ClassInfo) (name : MemberName) :
    Prop where
  kind : visit.node.kind ∈ shadowingKinds
  notStatic : .static ∉ member.modifiers
  parent : visit.parent.role = .classLike info
  parentKind : visit.parent.kind = .classDeclaration ∨ visit.parent.kind = .classExpression
  named : member.name = some name
  notComputed : name.computed = false

/-- Members that cannot override anything, and what is said of an override tag on them. -/
inductive CannotOverride (visit : Visit) (member : Member) : String → Prop
  | ofStatic :
    visit.node.kind ∈ shadowingKinds → .static ∈ member.modifiers →
    CannotOverride visit member "Extraneous override tag: static members cannot override"
  | ofConstructor :
    visit.node.kind = .constructor →
    CannotOverride visit member "Extraneous override tag: constructors always override the parent"
  | ofOther :
    visit.node.kind ≠ .constructor → visit.node.kind ∉ shadowingKinds →
    CannotOverride visit member "Extraneous override tag"

def missingDiagnostic (ctx : RuleContext) (span : Span) (name : MemberName) (type : ResolvedType) :
    Diagnostic :=
  ctx.diagnostic .missing
    "Member is overriding a base member. Use the @override JSDoc tag if the override is intended"
    name.span (some (.insert span.start "/** @override */ ".toList))
    (if type.name = "" then none else some type.name)

def noBaseDiagnostic (ctx : RuleContext) (name : MemberName) (tag : DocTag) : Diagnostic :=
  ctx.diagnostic .noBase "Member with @override keyword does not override any base class member"
    name.span (some (.delete tag.span)) none

def extraneousDiagnostic (ctx : RuleContext) (message : String) (tag : DocTag) : Diagnostic :=
  ctx.diagnostic .extraneous message tag.span (some (.delete tag.span)) none

/-- The outcomes as they are documented, each with its conditions. -/
inductive Documented (oracle : Oracle) (ctx : RuleContext) (visit : Visit) (member : Member) :
    Diagnostic → Prop
  | missing {info : ClassInfo} {name : MemberName} {type : ResolvedType} :
    Overrideable visit member info name → ¬ Tagged member →
    FirstBase oracle info name.text type →
    Documented oracle ctx visit member (missingDiagnostic ctx visit.node.span name type)
  | noBase {info : ClassInfo} {name : MemberName} {tag : DocTag} :
    Overrideable visit member info name → FirstTag member tag →
    ¬ HasBase oracle info name.text →
    Documented oracle ctx visit member (noBaseDiagnostic ctx name tag)
  | extraneous {message : String} {tag : DocTag} :
    CannotOverride visit member message → FirstTag member tag →
    Documented oracle ctx visit member (extraneousDiagnostic ctx message tag)

variable {oracle : Oracle} {ctx : RuleContext} {visit : Visit} {member : Member}
  {info : ClassInfo} {name : MemberName} {tag : DocTag} {type : ResolvedType}

private theorem find?_eq_some_iff_firstTag :
    ((member.docs.flatMap (·.tags)).find? fun tag => OverrideTag.isIntended tag.name) = some tag ↔
      FirstTag member tag := by
  rw [List.find?_eq_some_iff_append]
  simp only [FirstTag, Bool.not_eq_eq_eq_not, Bool.not_true]

private theorem found_eq_some_iff :
    (TagScan.ofDocs ctx member.docs).found = some tag ↔ FirstTag member tag := by
  rw [TagScan.found_ofDocs, find?_eq_some_iff_firstTag]

private theorem exists_firstTag_iff : (∃ tag, FirstTag member tag) ↔ Tagged member := by
  simp only [← find?_eq_some_iff_firstTag, ← Option.isSome_iff_exists, List.find?_isSome,
    List.mem_flatMap, Tagged]
  constructor
  · rintro ⟨tag, ⟨comment, hcomment, htag⟩, hintended⟩
    exact ⟨comment, hcomment, tag, htag, hintended⟩
  · rintro ⟨comment, hcomment, tag, htag, hintended⟩
    exact ⟨tag, ⟨comment, hcomment, htag⟩, hintended⟩

private theorem found_eq_none_iff :
    (TagScan.ofDocs ctx member.docs).found = none ↔ ¬ Tagged member := by
  rw [← exists_firstTag_iff, Option.eq_none_iff_forall_ne_some]
  simp only [ne_eq, found_eq_some_iff, not_exists]

private def declaring? (oracle : Oracle) (member : String) (reference : TypeReference) :
    Option ResolvedType :=
  (oracle reference).type?.filter (·.declares member)

private theorem declaring?_eq_some_iff {member : String} {reference : TypeReference} :
    declaring? oracle member reference = some type ↔ Declares oracle member reference type := by
  unfold declaring? Declares ResolvedType.declares
  cases oracle reference with
  | found other =>
    simp only [Resolution.type?, Option.filter_eq_some_iff, Option.some.injEq,
      Resolution.found.injEq, List.contains_iff_mem]
  | unknown => simp [Resolution.type?]
  | refused typeName => simp [Resolution.type?]

private theorem findBase_eq_findSome? (member : String) (references : List TypeReference) :
    findBase (m := Id) oracle member references =
      references.findSome? (declaring? oracle member) := by
  induction references with
  | nil => rfl
  | cons reference rest ih =>
    rw [List.findSome?_cons, ← ih, findBase]
    simp only [declaring?, bind, pure]
    cases (oracle reference).type? with
    | none => rfl
    | some type =>
      rw [Option.filter_some]
      by_cases hdeclares : type.declares member = true
      · simp only [if_pos hdeclares]
      · simp only [if_neg hdeclares]

private theorem findBase_eq_some_iff {member : String} :
    findBase (m := Id) oracle member info.references = some type ↔
      FirstBase oracle info member type := by
  rw [findBase_eq_findSome?, List.findSome?_eq_some_iff]
  simp only [FirstBase, declaring?_eq_some_iff, Option.eq_none_iff_forall_ne_some, ne_eq]

private theorem exists_firstBase_iff {member : String} :
    (∃ type, FirstBase oracle info member type) ↔ HasBase oracle info member := by
  simp only [← findBase_eq_some_iff, findBase_eq_findSome?]
  rw [← Option.isSome_iff_exists, List.findSome?_isSome_iff]
  simp only [HasBase, Option.isSome_iff_exists, declaring?_eq_some_iff]

private theorem mem_shadowingKinds {kind : Kind} :
    kind ∈ shadowingKinds ↔ kind.isOverrideable = true := by
  cases kind <;> decide

section Category

/-! The category of a member, read off the conditions that lead to it. -/

private theorem ofMember_eq_constructor_iff :
    Category.ofMember visit.parent visit.node.kind member = .constructor ↔
      visit.node.kind = .constructor := by
  unfold Category.ofMember
  repeat' split
  all_goals simp_all

private theorem ofMember_eq_nonOverrideable_iff :
    Category.ofMember visit.parent visit.node.kind member = .nonOverrideable ↔
      visit.node.kind ≠ .constructor ∧ visit.node.kind ∉ shadowingKinds := by
  rw [mem_shadowingKinds]
  unfold Category.ofMember
  repeat' split
  all_goals simp_all

private theorem ofMember_eq_static_iff :
    Category.ofMember visit.parent visit.node.kind member = .static ↔
      visit.node.kind ∈ shadowingKinds ∧ .static ∈ member.modifiers := by
  rw [mem_shadowingKinds]
  unfold Category.ofMember Member.isStatic
  repeat' split
  all_goals simp_all [Kind.isOverrideable]

private theorem class?_eq_some_iff {node : Node} :
    node.class? = some info ↔ node.role = .classLike info := by
  unfold Node.class?
  cases node.role <;> simp

private theorem isClass_iff {kind : Kind} :
    kind.isClass = true ↔ kind = .classDeclaration ∨ kind = .classExpression := by
  cases kind <;> decide

private theorem isNone_staticText_eq_false_iff :
    (member.name.bind MemberName.staticText).isNone = false ↔
      ∃ name, member.name = some name ∧ name.computed = false := by
  cases member.name with
  | none => simp
  | some name => cases hcomputed : name.computed <;> simp [MemberName.staticText, hcomputed]

private theorem isNone_class?_eq_false_iff {node : Node} :
    node.class?.isNone = false ↔ ∃ info, node.role = .classLike info := by
  simp only [← class?_eq_some_iff, ← Option.isSome_iff_exists, Option.isNone_eq_false_iff]

private theorem ofMember_eq_overrideable_iff :
    Category.ofMember visit.parent visit.node.kind member = .overrideable ↔
      ∃ info name, Overrideable visit member info name := by
  have hchain : Category.ofMember visit.parent visit.node.kind member = .overrideable ↔
      visit.node.kind.isOverrideable = true ∧ .static ∉ member.modifiers ∧
        visit.parent.class?.isNone = false ∧ visit.parent.kind.isClass = true ∧
        (member.name.bind MemberName.staticText).isNone = false := by
    unfold Category.ofMember Member.isStatic
    generalize visit.parent.class?.isNone = unrelated
    generalize (member.name.bind MemberName.staticText).isNone = unnamed
    repeat' split
    all_goals grind [Kind.isOverrideable]
  rw [hchain, isNone_class?_eq_false_iff, isNone_staticText_eq_false_iff, isClass_iff,
    ← mem_shadowingKinds]
  constructor
  · rintro ⟨hkind, hstatic, ⟨info, hparent⟩, hclass, name, hname, hcomputed⟩
    exact ⟨info, name, hkind, hstatic, hparent, hclass, hname, hcomputed⟩
  · rintro ⟨info, name, h⟩
    exact ⟨h.kind, h.notStatic, ⟨info, h.parent⟩, h.parentKind, name, h.named, h.notComputed⟩

end Category

private theorem baseOf_eq_none {category : Category} (h : category ≠ .overrideable) :
    baseOf (m := Id) oracle visit.parent category member = none := by
  cases category with
  | overrideable => exact absurd rfl h
  | constructor | static | detached | unnamed | nonOverrideable => rfl

private theorem baseOf_eq_some_iff (h : Overrideable visit member info name) :
    baseOf (m := Id) oracle visit.parent .overrideable member = some type ↔
      FirstBase oracle info name.text type := by
  rw [← findBase_eq_some_iff]
  simp only [baseOf, Category.needsHeritage, h.named, class?_eq_some_iff.2 h.parent]

private theorem baseOf_eq_none_iff (h : Overrideable visit member info name) :
    baseOf (m := Id) oracle visit.parent .overrideable member = none ↔
      ¬ HasBase oracle info name.text := by
  rw [← exists_firstBase_iff, Option.eq_none_iff_forall_ne_some]
  simp only [ne_eq, baseOf_eq_some_iff h, not_exists]

def outcome? (oracle : Oracle) (ctx : RuleContext) (visit : Visit) (member : Member) :
    Option Diagnostic :=
  let category := Category.ofMember visit.parent visit.node.kind member
  let found := (TagScan.ofDocs ctx member.docs).found
  let base : Option ResolvedType := baseOf (m := Id) oracle visit.parent category member
  (Outcome.decide category found.isSome base.isSome).diagnostic? ctx visit.node.span member.name
    found (base.map (·.name))

theorem checkMember_eq (oracle : Oracle) (ctx : RuleContext) (visit : Visit) (member : Member) :
    checkMember (m := Id) oracle ctx visit member =
      (TagScan.ofDocs ctx member.docs).diagnostics ++ (outcome? oracle ctx visit member).toList :=
  rfl

private theorem checkMembers_eq_flatMap (oracle : Oracle) (ctx : RuleContext)
    (items : List (Visit × Member)) :
    checkMembers (m := Id) oracle ctx items =
      items.flatMap fun item => checkMember (m := Id) oracle ctx item.1 item.2 := by
  induction items with
  | nil => rfl
  | cons item rest ih =>
    rw [List.flatMap_cons, ← ih]
    rfl

private theorem outcome?_eq {category : Category} {found : Option DocTag}
    {base : Option ResolvedType}
    (hcategory : Category.ofMember visit.parent visit.node.kind member = category)
    (hfound : (TagScan.ofDocs ctx member.docs).found = found)
    (hbase : baseOf (m := Id) oracle visit.parent category member = base) :
    outcome? oracle ctx visit member =
      (Outcome.decide category found.isSome base.isSome).diagnostic? ctx visit.node.span member.name
        found (base.map (·.name)) := by
  subst hcategory hfound hbase
  rfl

private theorem outcome?_of_cannotOverride {message : String}
    (h : CannotOverride visit member message) :
    outcome? oracle ctx visit member =
      (TagScan.ofDocs ctx member.docs).found.map (extraneousDiagnostic ctx message) := by
  cases h with
  | ofStatic hkind hstatic =>
    rw [outcome?_eq (ofMember_eq_static_iff.2 ⟨hkind, hstatic⟩) rfl (baseOf_eq_none (by decide))]
    cases (TagScan.ofDocs ctx member.docs).found <;> rfl
  | ofConstructor hkind =>
    rw [outcome?_eq (ofMember_eq_constructor_iff.2 hkind) rfl (baseOf_eq_none (by decide))]
    cases (TagScan.ofDocs ctx member.docs).found <;> rfl
  | ofOther hkind hother =>
    rw [outcome?_eq (ofMember_eq_nonOverrideable_iff.2 ⟨hkind, hother⟩) rfl
      (baseOf_eq_none (by decide))]
    cases (TagScan.ofDocs ctx member.docs).found <;> rfl

private theorem outcome?_of_overrideable (h : Overrideable visit member info name) :
    outcome? oracle ctx visit member =
      match (TagScan.ofDocs ctx member.docs).found,
        (baseOf (m := Id) oracle visit.parent .overrideable member : Option ResolvedType) with
      | none, some type => some (missingDiagnostic ctx visit.node.span name type)
      | some tag, none => some (noBaseDiagnostic ctx name tag)
      | _, _ => none := by
  rw [outcome?_eq (ofMember_eq_overrideable_iff.2 ⟨info, name, h⟩) rfl rfl, h.named]
  cases (TagScan.ofDocs ctx member.docs).found with
  | none =>
    cases baseOf (m := Id) oracle visit.parent .overrideable member with
    | none => rfl
    | some type =>
      have hbase : (some type.name).filter (· != ↑"") =
          if type.name = "" then none else some type.name := by
        rw [Option.filter_some]
        by_cases hname : type.name = "" <;> simp [hname]
      dsimp only
      rw [missingDiagnostic, ← hbase]
      rfl
  | some tag =>
    cases baseOf (m := Id) oracle visit.parent .overrideable member with
    | none => rfl
    | some type => rfl

private theorem outcome?_of_other (hclass : ∀ info name, ¬ Overrideable visit member info name)
    (hcannot : ∀ message, ¬ CannotOverride visit member message) :
    outcome? oracle ctx visit member = none := by
  cases hcategory : Category.ofMember visit.parent visit.node.kind member with
  | constructor =>
    exact absurd (.ofConstructor (ofMember_eq_constructor_iff.1 hcategory)) (hcannot _)
  | overrideable =>
    obtain ⟨info, name, hplace⟩ := ofMember_eq_overrideable_iff.1 hcategory
    exact absurd hplace (hclass info name)
  | static =>
    obtain ⟨hkind, hstatic⟩ := ofMember_eq_static_iff.1 hcategory
    exact absurd (.ofStatic hkind hstatic) (hcannot _)
  | nonOverrideable =>
    obtain ⟨hkind, hother⟩ := ofMember_eq_nonOverrideable_iff.1 hcategory
    exact absurd (.ofOther hkind hother) (hcannot _)
  | detached | unnamed =>
    rw [outcome?_eq hcategory rfl (baseOf_eq_none (by decide))]
    cases (TagScan.ofDocs ctx member.docs).found <;> rfl

private theorem outcome?_eq_some_iff {d : Diagnostic} :
    outcome? oracle ctx visit member = some d ↔ Documented oracle ctx visit member d := by
  constructor
  · intro h
    by_cases hclass : ∃ info name, Overrideable visit member info name
    · obtain ⟨info, name, hplace⟩ := hclass
      rw [outcome?_of_overrideable hplace] at h
      split at h
      · rename_i type hfound hbase
        cases h
        exact .missing hplace (found_eq_none_iff.1 hfound) ((baseOf_eq_some_iff hplace).1 hbase)
      · rename_i tag hfound hbase
        cases h
        exact .noBase hplace (found_eq_some_iff.1 hfound) ((baseOf_eq_none_iff hplace).1 hbase)
      · cases h
    · by_cases hcannot : ∃ message, CannotOverride visit member message
      · obtain ⟨message, hcannot⟩ := hcannot
        rw [outcome?_of_cannotOverride hcannot] at h
        obtain ⟨tag, hfound, rfl⟩ := Option.map_eq_some_iff.1 h
        exact .extraneous hcannot (found_eq_some_iff.1 hfound)
      · rw [outcome?_of_other (fun info name hplace => hclass ⟨info, name, hplace⟩)
          (fun message hmessage => hcannot ⟨message, hmessage⟩)] at h
        cases h
  · intro h
    cases h with
    | missing hplace htagged hbase =>
      rw [outcome?_of_overrideable hplace, found_eq_none_iff.2 htagged,
        (baseOf_eq_some_iff hplace).2 hbase]
    | noBase hplace htag hbase =>
      rw [outcome?_of_overrideable hplace, found_eq_some_iff.2 htag,
        (baseOf_eq_none_iff hplace).2 hbase]
    | extraneous hcannot htag =>
      rw [outcome?_of_cannotOverride hcannot, found_eq_some_iff.2 htag]
      rfl

def Reports (outcome : Option Diagnostic) (finding : Finding) : Prop :=
  ∃ d, outcome = some d ∧ d.finding = finding

private theorem reports_missing_iff :
    Reports (outcome? oracle ctx visit member) .missing ↔
      ∃ info name, Overrideable visit member info name ∧ ¬ Tagged member ∧
        HasBase oracle info name.text := by
  simp only [Reports, outcome?_eq_some_iff, ← exists_firstBase_iff]
  constructor
  · rintro ⟨d, hd, hfinding⟩
    cases hd with
    | missing hplace htagged hbase => exact ⟨_, _, hplace, htagged, _, hbase⟩
    | noBase | extraneous => cases hfinding
  · rintro ⟨info, name, hplace, htagged, type, hbase⟩
    exact ⟨_, .missing hplace htagged hbase, rfl⟩

private theorem reports_noBase_iff :
    Reports (outcome? oracle ctx visit member) .noBase ↔
      ∃ info name, Overrideable visit member info name ∧ Tagged member ∧
        ¬ HasBase oracle info name.text := by
  simp only [Reports, outcome?_eq_some_iff, ← exists_firstTag_iff]
  constructor
  · rintro ⟨d, hd, hfinding⟩
    cases hd with
    | noBase hplace htag hbase => exact ⟨_, _, hplace, ⟨_, htag⟩, hbase⟩
    | missing | extraneous => cases hfinding
  · rintro ⟨info, name, hplace, ⟨tag, htag⟩, hbase⟩
    exact ⟨_, .noBase hplace htag hbase, rfl⟩

private theorem exists_cannotOverride_iff :
    (∃ message, CannotOverride visit member message) ↔
      visit.node.kind = .constructor ∨
        (visit.node.kind ∈ shadowingKinds ∧ .static ∈ member.modifiers) ∨
        (visit.node.kind ≠ .constructor ∧ visit.node.kind ∉ shadowingKinds) := by
  constructor
  · rintro ⟨message, hcannot⟩
    cases hcannot with
    | ofStatic hkind hstatic => exact .inr (.inl ⟨hkind, hstatic⟩)
    | ofConstructor hkind => exact .inl hkind
    | ofOther hkind hother => exact .inr (.inr ⟨hkind, hother⟩)
  · rintro (hkind | ⟨hkind, hstatic⟩ | ⟨hkind, hother⟩)
    · exact ⟨_, .ofConstructor hkind⟩
    · exact ⟨_, .ofStatic hkind hstatic⟩
    · exact ⟨_, .ofOther hkind hother⟩

private theorem reports_extraneous_iff :
    Reports (outcome? oracle ctx visit member) .extraneous ↔
      Tagged member ∧ ∃ message, CannotOverride visit member message := by
  simp only [Reports, outcome?_eq_some_iff, ← exists_firstTag_iff]
  constructor
  · rintro ⟨d, hd, hfinding⟩
    cases hd with
    | extraneous hcannot htag => exact ⟨⟨_, htag⟩, _, hcannot⟩
    | missing | noBase => cases hfinding
  · rintro ⟨⟨tag, htag⟩, message, hcannot⟩
    exact ⟨_, .extraneous hcannot htag, rfl⟩

structure Decides (oracle : Oracle) (ctx : RuleContext) (visit : Visit) (member : Member)
    (outcome : Option Diagnostic) : Prop where
  missing : Reports outcome .missing ↔
    ∃ info name, Overrideable visit member info name ∧ ¬ Tagged member ∧
      HasBase oracle info name.text
  noBase : Reports outcome .noBase ↔
    ∃ info name, Overrideable visit member info name ∧ Tagged member ∧
      ¬ HasBase oracle info name.text
  extraneous : Reports outcome .extraneous ↔ Tagged member ∧
    (visit.node.kind = .constructor ∨
      (visit.node.kind ∈ shadowingKinds ∧ .static ∈ member.modifiers) ∨
      (visit.node.kind ≠ .constructor ∧ visit.node.kind ∉ shadowingKinds))
  documented : ∀ d, outcome = some d ↔ Documented oracle ctx visit member d

/-- The rule reports, for every member in pre-order, the findings on its tags and then
the documented outcome or none. -/
theorem check_exact (oracle : Oracle) (severity : Severity) (source : SourceFile) :
    ∃ outcome : Visit → Member → Option Diagnostic,
      check (m := Id) oracle severity source =
        (source.root.preorder.filterMap fun visit => visit.node.member?.map (visit, ·)).flatMap
          (fun (visit, member) =>
            (TagScan.ofDocs ⟨source.file, source.text, severity⟩ member.docs).diagnostics ++
              (outcome visit member).toList) ∧
      ∀ visit member, Decides oracle ⟨source.file, source.text, severity⟩ visit member
        (outcome visit member) := by
  refine ⟨outcome? oracle ⟨source.file, source.text, severity⟩, ?_, ?_⟩
  · rw [check, checkMembers_eq_flatMap, Node.memberVisits, Node.descendants_eq]
    simp only [checkMember_eq]
  · intro visit member
    exact ⟨reports_missing_iff, reports_noBase_iff,
      reports_extraneous_iff.trans (and_congr_right fun _ => exists_cannotOverride_iff),
      fun _ => outcome?_eq_some_iff⟩

end Rule
end OverrideLint
