import Mathlib.Data.List.TakeWhile
import OverrideLint.Proofs.Text.CodePoint
import OverrideLint.Text.Utf8

/-! Decoding undoes encoding, and accepts nothing but encoded texts. -/
namespace OverrideLint.Utf8

structure IsSequence (lead : UInt8) (tail : Bytes) : Prop where
  announced : announced lead.toNat = some (tail.length + 1)
  second : ∀ byte, tail.head? = some byte → isSecond lead.toNat byte.toNat = true
  later : ∀ byte ∈ tail.tail, isContinuation byte.toNat = true

private def charOf (lead : UInt8) (tail : Bytes) : Char :=
  Char.ofNat (codePoint lead.toNat (tail.length + 1) tail)

section Sequences

variable {lead : UInt8} {tail rest : Bytes}

theorem IsSequence.nil (h : Utf8.announced lead.toNat = some 1) : IsSequence lead [] where
  announced := h
  second := by simp
  later := by simp

theorem IsSequence.continued_eq (h : IsSequence lead tail) (rest : Bytes) :
    continued lead.toNat tail.length (tail ++ rest) = tail.length := by
  cases tail with
  | nil => cases rest <;> simp [continued]
  | cons second later =>
    have hsecond := h.second second rfl
    have hlater : later.takeWhile (fun byte => isContinuation byte.toNat) = later :=
      List.takeWhile_eq_self_iff.2 h.later
    simp [continued, hsecond, hlater, Nat.add_comm]

private theorem isSequence_take {length : Nat} (hlead : Utf8.announced lead.toNat = some length)
    (hcount : continued lead.toNat (length - 1) rest + 1 = length) :
    (rest.take (length - 1)).length + 1 = length ∧ IsSequence lead (rest.take (length - 1)) := by
  cases rest with
  | nil =>
    obtain rfl : length = 1 := by simpa [continued] using hcount.symm
    exact ⟨rfl, .nil hlead⟩
  | cons second later =>
    rw [continued] at hcount
    split at hcount
    · obtain rfl : length = 1 := hcount.symm
      exact ⟨rfl, .nil hlead⟩
    · split at hcount
      · rename_i hsecond
        obtain ⟨limit, rfl⟩ : ∃ limit, length = limit + 2 := ⟨length - 2, by omega⟩
        have hwhole : (later.take limit).takeWhile (fun byte => isContinuation byte.toNat) =
            later.take limit := by
          apply (List.takeWhile_prefix _).eq_of_length_le
          have := List.length_take_le limit later
          simp only [Nat.add_succ_sub_one, Nat.add_sub_cancel] at hcount
          omega
        simp only [Nat.add_succ_sub_one, Nat.add_sub_cancel, hwhole] at hcount
        have hlength : ((second :: later).take (limit + 2 - 1)).length + 1 = limit + 2 := by
          change ((second :: later).take (limit + 1)).length + 1 = limit + 2
          rw [List.take_succ_cons, List.length_cons]
          omega
        refine ⟨hlength, ?_, ?_, ?_⟩
        · rw [hlength]
          exact hlead
        · simpa using hsecond
        · exact List.takeWhile_eq_self_iff.1 hwhole
      · omega

private theorem decodeFrom_sequence (h : IsSequence lead tail) (position : Nat) (rest : Bytes) :
    decodeFrom position (lead :: (tail ++ rest)) =
      (decodeFrom (position + (tail.length + 1)) rest).map (charOf lead tail :: ·) := by
  rw [decodeFrom, h.announced]
  simp [h.continued_eq, charOf]

private theorem exists_sequence {position : Nat} {text : Text}
    (h : decodeFrom position (lead :: rest) = .ok text) :
    ∃ tail behind more, rest = tail ++ behind ∧ IsSequence lead tail ∧
      decodeFrom (position + (tail.length + 1)) behind = .ok more ∧
        text = charOf lead tail :: more := by
  rw [decodeFrom] at h
  split at h
  · cases h
  · rename_i length hlead
    dsimp only at h
    split at h
    · rename_i hcount
      obtain ⟨hlength, hsequence⟩ := isSequence_take hlead hcount
      have hstop : continued lead.toNat (length - 1) rest = length - 1 := by omega
      rw [hstop] at h
      cases hmore : decodeFrom (position + length) (rest.drop (length - 1)) with
      | error error =>
        rw [hmore] at h
        cases h
      | ok more =>
        rw [hmore] at h
        refine ⟨rest.take (length - 1), rest.drop (length - 1), more,
          (List.take_append_drop _ _).symm, hsequence, by rwa [hlength], ?_⟩
        rw [charOf, hlength]
        exact (Except.ok.inj h).symm
    · split at h
      · cases h
      · cases h

end Sequences

section Characters

private theorem announced_eq_some_iff {lead length : Nat} :
    announced lead = some length ↔ lead < 0x80 ∧ length = 1 ∨
      0xC2 ≤ lead ∧ lead < 0xE0 ∧ length = 2 ∨ 0xE0 ≤ lead ∧ lead < 0xF0 ∧ length = 3 ∨
        0xF0 ≤ lead ∧ lead < 0xF5 ∧ length = 4 := by
  unfold announced
  repeat' split
  all_goals
    simp only [Option.some.injEq, reduceCtorEq, false_iff]
    omega

private theorem isSecond_iff {lead byte : Nat} :
    isSecond lead byte = true ↔ 0x80 ≤ byte ∧ byte ≤ 0xBF ∧
      (lead = 0xE0 → 0xA0 ≤ byte) ∧ (lead = 0xF0 → 0x90 ≤ byte) ∧
        (lead = 0xED → byte ≤ 0x9F) ∧ (lead = 0xF4 → byte ≤ 0x8F) := by
  grind [isSecond]

private theorem isContinuation_iff {byte : Nat} :
    isContinuation byte = true ↔ 0x80 ≤ byte ∧ byte ≤ 0xBF := by
  simp [isContinuation]

private theorem toNat_six (n : Nat) : (UInt8.ofNat (n % 64 + 128)).toNat = n % 64 + 128 :=
  UInt8.toNat_ofNat_of_lt' (show _ < 256 by omega)

private theorem ofNat_eq {n : Nat} (byte : UInt8) (h : n = byte.toNat) : UInt8.ofNat n = byte := by
  rw [h]
  exact UInt8.ofNat_toNat

def encodePoint (n : Nat) : Bytes :=
  if n ≤ 0x7F then [UInt8.ofNat n]
  else if n ≤ 0x7FF then [UInt8.ofNat (n / 64 % 32 + 192), UInt8.ofNat (n % 64 + 128)]
  else if n ≤ 0xFFFF then
    [UInt8.ofNat (n / 4096 % 16 + 224), UInt8.ofNat (n / 64 % 64 + 128), UInt8.ofNat (n % 64 + 128)]
  else
    [UInt8.ofNat (n / 262144 % 8 + 240), UInt8.ofNat (n / 4096 % 64 + 128),
      UInt8.ofNat (n / 64 % 64 + 128), UInt8.ofNat (n % 64 + 128)]

private theorem utf8EncodeChar_eq (c : Char) : String.utf8EncodeChar c = encodePoint c.toNat := rfl

def IsScalar (n : Nat) : Prop := n < 0xD800 ∨ 0xDFFF < n ∧ n < 0x110000

private theorem isScalar_toNat (c : Char) : IsScalar c.toNat := c.valid

private theorem encodePoint_isSequence {n : Nat} (h : IsScalar n) :
    ∃ lead tail, encodePoint n = lead :: tail ∧ IsSequence lead tail ∧
      codePoint lead.toNat (tail.length + 1) tail = n := by
  unfold IsScalar at h
  rw [encodePoint]
  split
  · have hlead : (UInt8.ofNat n).toNat = n := UInt8.toNat_ofNat_of_lt' (show _ < 256 by omega)
    refine ⟨_, _, rfl, .nil ?_, ?_⟩
    · exact announced_eq_some_iff.2 (.inl ⟨by omega, rfl⟩)
    · simp only [codePoint, leadValues, hlead, List.length_nil, List.foldl_nil]
      omega
  · split
    · have hlead : (UInt8.ofNat (n / 64 % 32 + 192)).toNat = n / 64 % 32 + 192 :=
        UInt8.toNat_ofNat_of_lt' (show _ < 256 by omega)
      refine ⟨_, _, rfl, ⟨?_, ?_, nofun⟩, ?_⟩
      · exact announced_eq_some_iff.2 (.inr (.inl ⟨by omega, by omega, rfl⟩))
      · rintro _ ⟨⟩
        rw [isSecond_iff, hlead, toNat_six]
        omega
      · simp only [codePoint, leadValues, hlead, toNat_six, List.length_cons, List.length_nil,
          List.foldl_cons, List.foldl_nil]
        omega
    · split
      · have hlead : (UInt8.ofNat (n / 4096 % 16 + 224)).toNat = n / 4096 % 16 + 224 :=
          UInt8.toNat_ofNat_of_lt' (show _ < 256 by omega)
        refine ⟨_, _, rfl, ⟨?_, ?_, ?_⟩, ?_⟩
        · exact announced_eq_some_iff.2 (.inr (.inr (.inl ⟨by omega, by omega, rfl⟩)))
        · rintro _ ⟨⟩
          rw [isSecond_iff, hlead, toNat_six]
          omega
        · simp only [List.tail_cons, List.forall_mem_singleton, isContinuation_iff, toNat_six]
          omega
        · simp only [codePoint, leadValues, hlead, toNat_six, List.length_cons, List.length_nil,
            List.foldl_cons, List.foldl_nil]
          omega
      · have hlead : (UInt8.ofNat (n / 262144 % 8 + 240)).toNat = n / 262144 % 8 + 240 :=
          UInt8.toNat_ofNat_of_lt' (show _ < 256 by omega)
        refine ⟨_, _, rfl, ⟨?_, ?_, ?_⟩, ?_⟩
        · exact announced_eq_some_iff.2 (.inr (.inr (.inr ⟨by omega, by omega, rfl⟩)))
        · rintro _ ⟨⟩
          rw [isSecond_iff, hlead, toNat_six]
          omega
        · simp only [List.tail_cons, List.forall_mem_cons, isContinuation_iff, toNat_six]
          exact ⟨by omega, by omega, nofun⟩
        · simp only [codePoint, leadValues, hlead, toNat_six, List.length_cons, List.length_nil,
            List.foldl_cons, List.foldl_nil]
          omega

theorem IsSequence.encodePoint_eq {lead : UInt8} {tail : Bytes} (h : IsSequence lead tail) :
    IsScalar (codePoint lead.toNat (tail.length + 1) tail) ∧
      encodePoint (codePoint lead.toNat (tail.length + 1) tail) = lead :: tail := by
  have hlead := announced_eq_some_iff.1 h.announced
  unfold IsScalar
  match tail with
  | [] =>
    have hrange : lead.toNat < 0x80 := by simpa using hlead
    clear hlead
    simp only [codePoint, leadValues, List.length_nil, List.foldl_nil]
    rw [encodePoint, if_pos (by omega)]
    exact ⟨by omega, congrArg (· :: []) (ofNat_eq lead (by omega))⟩
  | [second] =>
    have hrange : 0xC2 ≤ lead.toNat ∧ lead.toNat < 0xE0 := by simpa using hlead
    clear hlead
    have hsecond := isSecond_iff.1 (h.second second rfl)
    simp only [codePoint, leadValues, List.length_cons, List.length_nil, List.foldl_cons,
      List.foldl_nil]
    rw [encodePoint, if_neg (by omega), if_pos (by omega), ofNat_eq lead (by omega),
      ofNat_eq second (by omega)]
    exact ⟨by omega, rfl⟩
  | [second, third] =>
    have hrange : 0xE0 ≤ lead.toNat ∧ lead.toNat < 0xF0 := by simpa using hlead
    clear hlead
    have hsecond := isSecond_iff.1 (h.second second rfl)
    have hthird := isContinuation_iff.1 (h.later third List.mem_cons_self)
    simp only [codePoint, leadValues, List.length_cons, List.length_nil, List.foldl_cons,
      List.foldl_nil]
    rw [encodePoint, if_neg (by omega), if_neg (by omega), if_pos (by omega),
      ofNat_eq lead (by omega), ofNat_eq second (by omega), ofNat_eq third (by omega)]
    exact ⟨by omega, rfl⟩
  | [second, third, fourth] =>
    have hrange : 0xF0 ≤ lead.toNat ∧ lead.toNat < 0xF5 := by simpa using hlead
    clear hlead
    have hsecond := isSecond_iff.1 (h.second second rfl)
    have hthird := isContinuation_iff.1 (h.later third List.mem_cons_self)
    have hfourth :=
      isContinuation_iff.1 (h.later fourth (List.mem_cons_of_mem _ List.mem_cons_self))
    simp only [codePoint, leadValues, List.length_cons, List.length_nil, List.foldl_cons,
      List.foldl_nil]
    rw [encodePoint, if_neg (by omega), if_neg (by omega), if_neg (by omega),
      ofNat_eq lead (by omega), ofNat_eq second (by omega), ofNat_eq third (by omega),
      ofNat_eq fourth (by omega)]
    exact ⟨by omega, rfl⟩
  | _ :: _ :: _ :: _ :: _ =>
    simp only [List.length_cons] at hlead
    omega

private theorem isSequence_encode (c : Char) :
    ∃ lead tail, String.utf8EncodeChar c = lead :: tail ∧ IsSequence lead tail ∧
      charOf lead tail = c := by
  obtain ⟨lead, tail, hbytes, hsequence, hpoint⟩ := encodePoint_isSequence (isScalar_toNat c)
  refine ⟨lead, tail, hbytes, hsequence, ?_⟩
  rw [charOf, hpoint]
  exact Char.ofNat_toNat c

private theorem encode_charOf {lead : UInt8} {tail : Bytes} (h : IsSequence lead tail) :
    String.utf8EncodeChar (charOf lead tail) = lead :: tail := by
  obtain ⟨hscalar, hbytes⟩ := h.encodePoint_eq
  rw [utf8EncodeChar_eq, charOf, CodePoint.toNat_charOfNat hscalar, hbytes]

end Characters

private theorem decodeFrom_encode (position : Nat) (text : Text) :
    decodeFrom position (encode text) = .ok text := by
  induction text generalizing position with
  | nil => simp [encode, decodeFrom]
  | cons c rest ih =>
    obtain ⟨lead, tail, hbytes, hsequence, hchar⟩ := isSequence_encode c
    rw [encode, List.flatMap_cons, hbytes, List.cons_append, ← encode,
      decodeFrom_sequence hsequence, ih, hchar]
    rfl

private theorem eq_encode_of_decodeFrom {position : Nat} {bytes : Bytes} {text : Text}
    (h : decodeFrom position bytes = .ok text) : bytes = encode text := by
  cases bytes with
  | nil =>
    rw [decodeFrom] at h
    cases h
    rfl
  | cons lead rest =>
    obtain ⟨tail, behind, more, rfl, hsequence, hmore, rfl⟩ := exists_sequence h
    have hbehind := eq_encode_of_decodeFrom hmore
    rw [encode, List.flatMap_cons, ← encode, ← hbehind, encode_charOf hsequence, List.cons_append]
termination_by bytes.length

/-- Bytes decode to a text exactly if they encode it. -/
theorem decode_eq_ok_iff {bytes : Bytes} {text : Text} :
    decode bytes = .ok text ↔ bytes = encode text :=
  ⟨eq_encode_of_decodeFrom, fun h => h ▸ decodeFrom_encode 0 text⟩

theorem encode_injective : Function.Injective encode := by
  intro first second h
  have hfirst : decode (encode first) = .ok first := decodeFrom_encode 0 first
  rw [h, decode_eq_ok_iff.2 rfl] at hfirst
  exact (Except.ok.inj hfirst).symm

end OverrideLint.Utf8
