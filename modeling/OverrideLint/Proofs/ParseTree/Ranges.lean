import OverrideLint.Proofs.Edit.Splice
import OverrideLint.Proofs.ParseTree.Placement
import OverrideLint.Proofs.ParseTree.Success

/-! Trees whose ranges are nested and in order. Character offsets grow with byte offsets, so
the spans of such a tree are nested and in order as well, and all of them are defined. -/
namespace OverrideLint

namespace ByteRange

def Within (inner outer : ByteRange) : Prop :=
  outer.start ≤ inner.start ∧ inner.stop ≤ outer.stop

def Before (first second : ByteRange) : Prop := first.stop ≤ second.start

instance (inner outer : ByteRange) : Decidable (inner.Within outer) :=
  inferInstanceAs (Decidable (_ ∧ _))

instance (first second : ByteRange) : Decidable (first.Before second) :=
  inferInstanceAs (Decidable (_ ≤ _))

theorem Within.refl (range : ByteRange) : range.Within range := ⟨Int.le_refl _, Int.le_refl _⟩

theorem Within.trans {a b c : ByteRange} (hab : a.Within b) (hbc : b.Within c) : a.Within c :=
  ⟨Int.le_trans hbc.1 hab.1, Int.le_trans hab.2 hbc.2⟩

end ByteRange

namespace OffsetMap

private theorem start_le_of_mem_byteIndices {index found : Nat} {text : Text}
    (h : found ∈ byteIndices index text) : index ≤ found := by
  induction text generalizing index with
  | nil => exact Nat.le_of_eq (List.mem_singleton.1 h).symm
  | cons c rest ih =>
    rcases List.mem_append.1 h with h | h
    · exact Nat.le_of_eq (List.mem_replicate.1 h).2.symm
    · exact Nat.le_of_succ_le (ih h)

private theorem pairwise_byteIndices (index : Nat) (text : Text) :
    (byteIndices index text).Pairwise (· ≤ ·) := by
  induction text generalizing index with
  | nil => exact List.pairwise_singleton _ _
  | cons c rest ih =>
    apply List.pairwise_append.2
    refine ⟨List.pairwise_replicate.2 (.inr (Nat.le_refl _)), ih (index + 1), ?_⟩
    intro first hfirst later hlater
    have := start_le_of_mem_byteIndices hlater
    rw [(List.mem_replicate.1 hfirst).2]
    omega

private theorem length_byteIndices (index : Nat) (text : Text) :
    (byteIndices index text).length = (Utf8.encode text).length + 1 := by
  induction text generalizing index with
  | nil => rfl
  | cons c rest ih => simp [byteIndices, Utf8.encode, ih, Nat.add_assoc]

variable {text : Text}

theorem charOffset?_mono {first second found later : Nat} (hle : first ≤ second)
    (hfound : (ofText text).charOffset? first = some found)
    (hlater : (ofText text).charOffset? second = some later) : found ≤ later := by
  by_cases hlength : text.length = (Utf8.encode text).length
  · simp only [ofText, if_pos hlength, charOffset?, Option.some.injEq] at hfound hlater
    omega
  · simp only [ofText, if_neg hlength, charOffset?, List.getElem?_eq_some_iff] at hfound hlater
    obtain ⟨hfirst, rfl⟩ := hfound
    obtain ⟨hsecond, rfl⟩ := hlater
    rcases Nat.eq_or_lt_of_le hle with rfl | hlt
    · exact Nat.le_refl _
    · exact List.pairwise_iff_getElem.1 (pairwise_byteIndices 0 text) _ _ hfirst hsecond hlt

theorem exists_charOffset? {offset : Nat} (h : offset ≤ (Utf8.encode text).length) :
    ∃ found, (ofText text).charOffset? offset = some found := by
  by_cases hlength : text.length = (Utf8.encode text).length
  · exact ⟨offset, by simp [ofText, hlength, charOffset?]⟩
  · have hlt : offset < (byteIndices 0 text).length := by
      rw [length_byteIndices]
      omega
    simp only [ofText, if_neg hlength, charOffset?]
    exact ⟨_, List.getElem?_eq_getElem hlt⟩

private theorem resolve_natCast {map : OffsetMap} {offset : Nat} {found : Int}
    (h : map.resolve offset = .ok found) :
    ∃ index : Nat, map.charOffset? offset = some index ∧ found = index := by
  unfold resolve at h
  split at h
  · cases h
  · split at h
    · rename_i known hknown
      cases h
      obtain ⟨index, hindex, rfl⟩ := Option.map_eq_some_iff.1 hknown
      exact ⟨index, hindex, rfl⟩
    · cases h

theorem charOffset?_of_span {map : OffsetMap} {range : ByteRange} {span : Span}
    (hstart : 0 ≤ range.start) (hstop : range.start ≤ range.stop) (h : map.span range = .ok span) :
    map.charOffset? range.start.toNat = some span.start ∧
      map.charOffset? range.stop.toNat = some span.stop := by
  obtain ⟨start, hstart⟩ := Int.eq_ofNat_of_zero_le hstart
  obtain ⟨stop, hstop⟩ := Int.eq_ofNat_of_zero_le (a := range.stop) (by omega)
  unfold OffsetMap.span at h
  rw [hstart, hstop] at h ⊢
  cases hfrom : map.resolve start with
  | error error =>
    rw [hfrom] at h
    cases h
  | ok first =>
    cases hto : map.resolve stop with
    | error error =>
      rw [hfrom, hto] at h
      cases h
    | ok last =>
      obtain ⟨from', hfrom', rfl⟩ := resolve_natCast hfrom
      obtain ⟨to', hto', rfl⟩ := resolve_natCast hto
      rw [hfrom, hto] at h
      change (Span.ofBounds from' to').mapError RangeError.invalid = _ at h
      unfold Span.ofBounds at h
      split at h
      · cases h
        exact ⟨hfrom', hto'⟩
      · cases h

def Countable (text : Text) : Prop := (Utf8.encode text).length < 0x8000000000000000

instance (text : Text) : Decidable (Countable text) := inferInstanceAs (Decidable (_ < _))

private theorem isOversized_of_le (hsize : Countable text) {offset : Nat}
    (hle : offset ≤ (Utf8.encode text).length) : isOversized offset = false := by
  simp only [Countable] at hsize
  simp only [isOversized, Bool.or_eq_false_iff, decide_eq_false_iff_not]
  omega

theorem resolve_of_charOffset? {map : OffsetMap} {offset index : Nat}
    (hfits : isOversized offset = false) (h : map.charOffset? offset = some index) :
    map.resolve offset = .ok (index : Int) := by
  have hfound : map.signedOffset? offset = some (index : Int) :=
    Option.map_eq_some_iff.2 ⟨index, h, rfl⟩
  rw [resolve, if_neg (by simp [hfits]), hfound]

theorem span_of_charOffset? {map : OffsetMap} {start stop first last : Nat}
    (hstart : isOversized start = false) (hstop : isOversized stop = false)
    (hfirst : map.charOffset? start = some first) (hlast : map.charOffset? stop = some last)
    (hle : first ≤ last) : map.span ⟨start, stop⟩ = .ok ⟨first, last, hle⟩ := by
  unfold OffsetMap.span
  rw [resolve_of_charOffset? hstart hfirst, resolve_of_charOffset? hstop hlast]
  change (Span.ofBounds first last).mapError RangeError.invalid = _
  rw [Span.ofBounds_natCast hle]
  rfl

theorem defined_span (hsize : Countable text) {range : ByteRange} (hstart : 0 ≤ range.start)
    (hstop : range.start ≤ range.stop) (hends : range.stop ≤ (Utf8.encode text).length) :
    Defined ((ofText text).span range) := by
  obtain ⟨start, stop⟩ := range
  obtain ⟨start, rfl⟩ := Int.eq_ofNat_of_zero_le hstart
  obtain ⟨stop, rfl⟩ := Int.eq_ofNat_of_zero_le (Int.le_trans hstart hstop)
  have hle : start ≤ stop := Int.ofNat_le.1 hstop
  have hto : stop ≤ (Utf8.encode text).length := Int.ofNat_le.1 hends
  have hfrom : start ≤ (Utf8.encode text).length := Nat.le_trans hle hto
  obtain ⟨first, hfirst⟩ := exists_charOffset? hfrom
  obtain ⟨last, hlast⟩ := exists_charOffset? hto
  exact ⟨_, span_of_charOffset? (isOversized_of_le hsize hfrom) (isOversized_of_le hsize hto)
    hfirst hlast (charOffset?_mono hle hfirst hlast)⟩

end OffsetMap

namespace ParseTree

/-- The ranges of a tree over a text: within the text, each within that of its parent, and
one behind the other among siblings. -/
structure WellPlaced (text : Text) (root : ParseTree) : Prop where
  starts : 0 ≤ root.range.start
  ends : root.range.stop ≤ (Utf8.encode text).length
  proper : ∀ tree ∈ root.subtrees, tree.range.start ≤ tree.range.stop
  nested : ∀ tree ∈ root.subtrees, ∀ child ∈ tree.children, child.range.Within tree.range
  ordered : ∀ tree ∈ root.subtrees,
    tree.children.Pairwise fun first second => first.range.Before second.range

instance (text : Text) (root : ParseTree) : Decidable (WellPlaced text root) :=
  decidable_of_iff
    (0 ≤ root.range.start ∧ root.range.stop ≤ (Utf8.encode text).length ∧
      (∀ tree ∈ root.subtrees, tree.range.start ≤ tree.range.stop) ∧
      (∀ tree ∈ root.subtrees, ∀ child ∈ tree.children, child.range.Within tree.range) ∧
      ∀ tree ∈ root.subtrees,
        tree.children.Pairwise fun first second => first.range.Before second.range)
    ⟨fun h => ⟨h.1, h.2.1, h.2.2.1, h.2.2.2.1, h.2.2.2.2⟩,
      fun h => ⟨h.starts, h.ends, h.proper, h.nested, h.ordered⟩⟩

namespace WellPlaced

variable {text : Text} {root tree : ParseTree}

theorem child (h : WellPlaced text root) (hmem : tree ∈ root.children) : WellPlaced text tree where
  starts := Int.le_trans h.starts (h.nested root (self_mem_subtrees root) tree hmem).1
  ends := Int.le_trans (h.nested root (self_mem_subtrees root) tree hmem).2 h.ends
  proper below hbelow := h.proper below (mem_subtrees_of_mem_children hmem hbelow)
  nested below hbelow := h.nested below (mem_subtrees_of_mem_children hmem hbelow)
  ordered below hbelow := h.ordered below (mem_subtrees_of_mem_children hmem hbelow)

theorem within {root : ParseTree} (h : WellPlaced text root) (hmem : tree ∈ root.subtrees) :
    tree.range.Within root.range := by
  rcases mem_subtrees_iff.1 hmem with rfl | ⟨child, hchild, hbelow⟩
  · exact .refl _
  · have := sizeOf_lt_of_mem_children hchild
    have hwithin := (h.child hchild).within hbelow
    exact hwithin.trans (h.nested root (self_mem_subtrees root) child hchild)
termination_by sizeOf root

theorem of_mem (h : WellPlaced text root) (hmem : tree ∈ root.subtrees) : WellPlaced text tree where
  starts := Int.le_trans h.starts (h.within hmem).1
  ends := Int.le_trans (h.within hmem).2 h.ends
  proper below hbelow := h.proper below (mem_subtrees_trans hmem hbelow)
  nested below hbelow := h.nested below (mem_subtrees_trans hmem hbelow)
  ordered below hbelow := h.ordered below (mem_subtrees_trans hmem hbelow)

theorem start_le_stop (h : WellPlaced text root) : root.range.start ≤ root.range.stop :=
  h.proper root (self_mem_subtrees root)

theorem children_ordered (h : WellPlaced text root) :
    root.children.Pairwise fun first second => first.range.Before second.range :=
  h.ordered root (self_mem_subtrees root)

theorem fitsThroughout {source : SourceText} (h : WellPlaced source.text root)
    (hsize : OffsetMap.Countable source.text) : FitsThroughout source root := by
  intro tree hmem
  have htree := h.of_mem hmem
  rw [Fits, SourceText.span, source.offsets_eq]
  exact OffsetMap.defined_span hsize htree.starts htree.start_le_stop htree.ends

theorem endsWithin {source : SourceText} (h : WellPlaced source.text root) :
    EndsWithin source root := by
  intro span hspan
  rw [SourceText.span, source.offsets_eq] at hspan
  exact OffsetMap.span_within hspan h.ends

end WellPlaced

section Spans

variable {source : SourceText} {first second : ParseTree} {span later : Span}

theorem charOffset?_of_span (h : WellPlaced source.text first)
    (hspan : source.span first = .ok span) :
    (OffsetMap.ofText source.text).charOffset? first.range.start.toNat = some span.start ∧
      (OffsetMap.ofText source.text).charOffset? first.range.stop.toNat = some span.stop := by
  rw [SourceText.span, source.offsets_eq] at hspan
  exact OffsetMap.charOffset?_of_span h.starts h.start_le_stop hspan

theorem stop_le_start_of_before (hfirst : WellPlaced source.text first)
    (hsecond : WellPlaced source.text second) (h : first.range.Before second.range)
    (hspan : source.span first = .ok span) (hlater : source.span second = .ok later) :
    span.stop ≤ later.start :=
  OffsetMap.charOffset?_mono (Int.toNat_le_toNat h) (charOffset?_of_span hfirst hspan).2
    (charOffset?_of_span hsecond hlater).1

theorem contains_of_within (hfirst : WellPlaced source.text first)
    (hsecond : WellPlaced source.text second) (h : first.range.Within second.range)
    (hspan : source.span first = .ok span) (hlater : source.span second = .ok later) :
    later.start ≤ span.start ∧ span.stop ≤ later.stop :=
  ⟨OffsetMap.charOffset?_mono (Int.toNat_le_toNat h.1) (charOffset?_of_span hsecond hlater).1
      (charOffset?_of_span hfirst hspan).1,
    OffsetMap.charOffset?_mono (Int.toNat_le_toNat h.2) (charOffset?_of_span hfirst hspan).2
      (charOffset?_of_span hsecond hlater).2⟩

end Spans
end ParseTree
end OverrideLint
