import OverrideLint.Proofs.ParseTree.Ranges

/-! Byte offsets and character offsets agree. The character offset of each byte is the number
of characters before the one it belongs to, so that cutting the text at character offsets is
cutting its encoding at byte offsets. Where every character takes one byte the two are equal. -/
namespace OverrideLint

namespace Utf8

private theorem encode_append (first second : Text) :
    encode (first ++ second) = encode first ++ encode second :=
  List.flatMap_append

theorem length_encode_append (first second : Text) :
    (encode (first ++ second)).length = (encode first).length + (encode second).length := by
  rw [encode_append, List.length_append]

theorem length_encode_singleton (c : Char) : (encode [c]).length = c.utf8Size := by
  simp [encode]

private theorem length_le_length_encode (text : Text) : text.length ≤ (encode text).length := by
  induction text with
  | nil => exact Nat.le_refl _
  | cons c rest ih =>
    have hpos := c.utf8Size_pos
    rw [← List.singleton_append, length_encode_append, length_encode_singleton, List.length_append,
      List.length_singleton]
    omega

def IsBoundary (text : Text) (offset : Nat) : Prop :=
  ∃ before, before <+: text ∧ (encode before).length = offset

section Prefixes

variable {before text : Text}

theorem length_encode_of_prefix (hbefore : before <+: text)
    (h : text.length = (encode text).length) : (encode before).length = before.length := by
  obtain ⟨after, rfl⟩ := hbefore
  have hfirst := length_le_length_encode before
  have hsecond := length_le_length_encode after
  rw [length_encode_append, List.length_append] at h
  omega

theorem length_encode_le_of_prefix (hbefore : before <+: text) :
    (encode before).length ≤ (encode text).length := by
  obtain ⟨after, rfl⟩ := hbefore
  rw [length_encode_append]
  omega

theorem prefix_of_length_encode_le {longer : Text} (hbefore : before <+: text)
    (hlonger : longer <+: text) (h : (encode before).length ≤ (encode longer).length) :
    before <+: longer := by
  rcases List.prefix_or_prefix_of_prefix hbefore hlonger with hle | ⟨more, rfl⟩
  · exact hle
  · have hmore := length_le_length_encode more
    rw [length_encode_append] at h
    have hnone : more = [] := List.eq_nil_of_length_eq_zero (by omega)
    simp [hnone]

theorem encode_slice {longer : Text} (hbefore : before <+: longer) (hlonger : longer <+: text) :
    encode (Text.slice text before.length longer.length) =
      ((encode text).drop (encode before).length).take
        ((encode longer).length - (encode before).length) := by
  obtain ⟨inside, rfl⟩ := hbefore
  obtain ⟨after, rfl⟩ := hlonger
  rw [Text.slice, List.append_assoc, List.drop_left' rfl, List.length_append,
    Nat.add_sub_cancel_left, List.take_left' rfl, length_encode_append, Nat.add_sub_cancel_left,
    encode_append, encode_append, List.drop_left' rfl, List.take_left' rfl]

end Prefixes

end Utf8

namespace OffsetMap

private theorem getElem?_byteIndices_append (index inner : Nat) (before after : Text) :
    (byteIndices index (before ++ after))[(Utf8.encode before).length + inner]? =
      (byteIndices (index + before.length) after)[inner]? := by
  induction before generalizing index with
  | nil => simp [Utf8.encode]
  | cons c before ih =>
    have hlength : (Utf8.encode (c :: before)).length + inner =
        (Utf8.encode [c]).length + ((Utf8.encode before).length + inner) := by
      rw [← List.singleton_append, Utf8.length_encode_append, Nat.add_assoc]
    have hindex : index + (c :: before).length = index + 1 + before.length := by
      rw [List.length_cons]
      omega
    rw [List.cons_append, byteIndices, hlength, hindex, ← ih (index + 1),
      List.getElem?_append_right (by rw [List.length_replicate]; omega), List.length_replicate,
      Nat.add_sub_cancel_left]

private theorem getElem?_byteIndices_cons (index : Nat) (c : Char) (rest : Text) {inner : Nat}
    (h : inner < (Utf8.encode [c]).length) :
    (byteIndices index (c :: rest))[inner]? = some index := by
  rw [byteIndices, List.getElem?_append_left (by rwa [List.length_replicate]),
    List.getElem?_replicate, if_pos h]

private theorem getElem?_byteIndices_zero (index : Nat) (text : Text) :
    (byteIndices index text)[0]? = some index := by
  cases text with
  | nil => rfl
  | cons c rest =>
    apply getElem?_byteIndices_cons
    rw [Utf8.length_encode_singleton]
    exact c.utf8Size_pos

section Entries

variable {text before : Text}

private theorem getElem?_byteIndices_of_prefix (h : before <+: text) :
    (byteIndices 0 text)[(Utf8.encode before).length]? = some before.length := by
  obtain ⟨after, rfl⟩ := h
  have hentry := getElem?_byteIndices_append 0 0 before after
  rwa [Nat.add_zero, Nat.zero_add, getElem?_byteIndices_zero] at hentry

private theorem getElem?_byteIndices_of_identity (h : text.length = (Utf8.encode text).length)
    {offset : Nat} (hle : offset ≤ (Utf8.encode text).length) :
    (byteIndices 0 text)[offset]? = some offset := by
  have hbefore := List.take_prefix offset text
  have hlength : (text.take offset).length = offset := List.length_take_of_le (by omega)
  have hentry := getElem?_byteIndices_of_prefix hbefore
  rwa [Utf8.length_encode_of_prefix hbefore h, hlength] at hentry

/-- Both kinds of map answer what the table says. -/
theorem charOffset?_ofText {offset : Nat} (hle : offset ≤ (Utf8.encode text).length) :
    (ofText text).charOffset? offset = (byteIndices 0 text)[offset]? := by
  unfold ofText
  split
  · rename_i hlength
    exact (getElem?_byteIndices_of_identity hlength hle).symm
  · rfl

private theorem charOffset?_of_prefix (h : before <+: text) :
    (ofText text).charOffset? (Utf8.encode before).length = some before.length := by
  rw [charOffset?_ofText (Utf8.length_encode_le_of_prefix h), getElem?_byteIndices_of_prefix h]

private theorem charOffset?_inside {c : Char} {after : Text} {inner : Nat}
    (h : inner < (Utf8.encode [c]).length) :
    (ofText (before ++ c :: after)).charOffset? ((Utf8.encode before).length + inner) =
      some before.length := by
  have hle : (Utf8.encode before).length + inner ≤
      (Utf8.encode (before ++ c :: after)).length := by
    rw [← List.singleton_append, Utf8.length_encode_append, Utf8.length_encode_append]
    omega
  rw [charOffset?_ofText hle, getElem?_byteIndices_append, getElem?_byteIndices_cons _ _ _ h,
    Nat.zero_add]

end Entries

/-- A map of offsets that is right for a text. It takes the byte offsets of the text to
character offsets, in order; all bytes of a character to the number of characters before it,
and the end of the text to their number. Parts of the text and of its encoding correspond. -/
structure Faithful (map : OffsetMap) (text : Text) : Prop where
  within : ∀ offset : Nat, offset ≤ (Utf8.encode text).length →
    ∃ index : Nat, index ≤ text.length ∧ map.charOffset? offset = some index ∧
      (isOversized offset = false → map.resolve offset = .ok (index : Int))
  monotone : ∀ first second found later, first ≤ second →
    second ≤ (Utf8.encode text).length → map.charOffset? first = some found →
      map.charOffset? second = some later → found ≤ later
  boundary : ∀ before, before <+: text →
    map.charOffset? (Utf8.encode before).length = some before.length
  inside : ∀ before c after, text = before ++ c :: after → ∀ inner < (Utf8.encode [c]).length,
    map.charOffset? ((Utf8.encode before).length + inner) = some before.length
  slice : ∀ start stop, start ≤ stop → Utf8.IsBoundary text start → Utf8.IsBoundary text stop →
    ∃ first last, map.charOffset? start = some first ∧ map.charOffset? stop = some last ∧
      first ≤ last ∧ Utf8.encode (Text.slice text first last) =
        ((Utf8.encode text).drop start).take (stop - start)

private theorem faithful_ofText (text : Text) : (ofText text).Faithful text where
  within offset hle := by
    obtain ⟨index, hindex⟩ := exists_charOffset? hle
    have hend := charOffset?_of_prefix (List.prefix_refl text)
    exact ⟨index, charOffset?_mono hle hindex hend, hindex, fun hfits =>
      resolve_of_charOffset? hfits hindex⟩
  monotone _ _ _ _ hle _ := charOffset?_mono hle
  boundary _ := charOffset?_of_prefix
  inside before c after htext inner hinner := by
    subst htext
    exact charOffset?_inside hinner
  slice start stop hle hstart hstop := by
    obtain ⟨before, hbefore, rfl⟩ := hstart
    obtain ⟨longer, hlonger, rfl⟩ := hstop
    have hprefix := Utf8.prefix_of_length_encode_le hbefore hlonger hle
    exact ⟨_, _, charOffset?_of_prefix hbefore, charOffset?_of_prefix hlonger,
      hprefix.length_le, Utf8.encode_slice hprefix hlonger⟩

theorem Faithful.slice_tree {text : Text} (h : (ofText text).Faithful text) (file : String)
    {tree : ParseTree} {start stop : Nat} (hrange : tree.range = ⟨start, stop⟩)
    (hle : start ≤ stop) (hstart : Utf8.IsBoundary text start) (hstop : Utf8.IsBoundary text stop)
    (hfits : isOversized stop = false) :
    ∃ part, (SourceText.ofText file text).slice tree = .ok part ∧
      Utf8.encode part = ((Utf8.encode text).drop start).take (stop - start) := by
  obtain ⟨first, last, hfirst, hlast, horder, hbytes⟩ := h.slice start stop hle hstart hstop
  have hfits' : isOversized start = false := by
    simp only [isOversized, Bool.or_eq_false_iff, decide_eq_false_iff_not] at hfits ⊢
    omega
  have hspan : (SourceText.ofText file text).span tree = .ok ⟨first, last, horder⟩ := by
    rw [SourceText.span, hrange]
    exact span_of_charOffset? hfits' hfits hfirst hlast horder
  refine ⟨Text.slice text first last, ?_, hbytes⟩
  rw [SourceText.slice, hspan]
  rfl

/-- The map of a text is right for it, the short cut gives the answers of the table wherever it
is taken, and the text of a node is what its bytes encode. -/
theorem ofText_agrees (text : Text) :
    (ofText text).Faithful text ∧
      (ofText text = identity → ∀ offset ≤ (Utf8.encode text).length,
        identity.charOffset? offset = (table (byteIndices 0 text)).charOffset? offset) ∧
      ∀ (file : String) (tree : ParseTree) (start stop : Nat), tree.range = ⟨start, stop⟩ →
        start ≤ stop → Utf8.IsBoundary text start → Utf8.IsBoundary text stop →
        isOversized stop = false →
        ∃ part, (SourceText.ofText file text).slice tree = .ok part ∧
          Utf8.encode part = ((Utf8.encode text).drop start).take (stop - start) := by
  refine ⟨faithful_ofText text, ?_, ?_⟩
  · intro hidentity offset hle
    rw [← hidentity]
    exact charOffset?_ofText hle
  · intro file tree start stop hrange hle hstart hstop hfits
    exact (faithful_ofText text).slice_tree file hrange hle hstart hstop hfits

example : ofText "aé€b".toList = table [0, 1, 1, 2, 2, 2, 3, 4] := by decide

end OffsetMap
end OverrideLint
