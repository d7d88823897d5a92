import ConfigIndex.Proofs.Position
import ConfigIndex.Text.Utf8

/-!
Texts as bytes. What is read from bytes is the text that these bytes encode, and a text is read from
its bytes. Bytes that are those of no text are faulty where their longest run of whole characters
ends.
-/

namespace ConfigIndex.Utf8

def encode (text : List Char) : List UInt8 := text.flatMap String.utf8EncodeChar

theorem encode_append (left right : List Char) :
    encode (left ++ right) = encode left ++ encode right := List.flatMap_append

theorem length_encode (text : List Char) :
    (encode text).length = (String.ofList text).utf8ByteSize := by
  rw [← String.size_toByteArray, String.toByteArray_ofList, List.utf8Encode,
    List.size_toByteArray]
  rfl

theorem payload_eq (byte : UInt8) : payload byte = byte.toNat % 64 := by
  rw [payload, UInt8.toNat_and]
  exact Nat.and_two_pow_sub_one_eq_mod byte.toNat 6

theorem isContinuation_iff {byte : UInt8} :
    isContinuation byte = true ↔ 128 ≤ byte.toNat ∧ byte.toNat < 192 := by
  simp [isContinuation, UInt8.le_iff_toNat_le, UInt8.lt_iff_toNat_lt]

theorem isSecond_iff {lead byte : UInt8} : isSecond lead byte = true ↔
    (128 ≤ byte.toNat ∧ byte.toNat < 192) ∧ (lead.toNat = 0xe0 → 0xa0 ≤ byte.toNat) ∧
      (lead.toNat = 0xed → byte.toNat < 0xa0) ∧ (lead.toNat = 0xf0 → 0x90 ≤ byte.toNat) ∧
      (lead.toNat = 0xf4 → byte.toNat < 0x90) := by
  simp only [isSecond, Bool.and_eq_true, isContinuation_iff, ← UInt8.toNat_inj,
    UInt8.reduceToNat]
  apply and_congr_right
  intro range
  split
  · rename_i same
    simp [same, UInt8.le_iff_toNat_le]
  split
  · rename_i same
    simp [same, UInt8.lt_iff_toNat_lt]
  split
  · rename_i same
    simp [same, UInt8.le_iff_toNat_le]
  split
  · rename_i same
    simp [same, UInt8.lt_iff_toNat_lt]
  · rename_i first second third fourth
    simp [first, second, third, fourth]

theorem utf8EncodeChar_ofNat {code : Nat} (valid : code.isValidChar) :
    String.utf8EncodeChar (Char.ofNat code) =
      if code ≤ 0x7f then [UInt8.ofNat code]
      else if code ≤ 0x7ff then [UInt8.ofNat (code / 64 % 32 + 192), UInt8.ofNat (code % 64 + 128)]
      else if code ≤ 0xffff then
        [UInt8.ofNat (code / 4096 % 16 + 224), UInt8.ofNat (code / 64 % 64 + 128),
          UInt8.ofNat (code % 64 + 128)]
      else
        [UInt8.ofNat (code / 262144 % 8 + 240), UInt8.ofNat (code / 4096 % 64 + 128),
          UInt8.ofNat (code / 64 % 64 + 128), UInt8.ofNat (code % 64 + 128)] := by
  have same : (Char.ofNat code).val.toNat = code := by
    rw [Char.ofNat, dif_pos valid]
    rfl
  unfold String.utf8EncodeChar
  simp only [same]

/-! ### One character of each width -/

theorem ofNat_cons {value : Nat} {byte : UInt8} {bytes rest : List UInt8}
    (same : value = byte.toNat) (others : bytes = rest) :
    UInt8.ofNat value :: bytes = byte :: rest := by
  rw [same, UInt8.ofNat_toNat, others]

theorem encode_one {a : UInt8} (ascii : a < 0x80) :
    String.utf8EncodeChar (Char.ofNat a.toNat) = [a] := by
  have bound : a.toNat < 128 := UInt8.lt_iff_toNat_lt.mp ascii
  rw [utf8EncodeChar_ofNat (Or.inl (by omega)), if_pos (by omega), UInt8.ofNat_toNat]

section

variable {a b c d : UInt8}

theorem encode_two (low : ¬a < 0xc2) (high : a < 0xe0) (second : isSecond a b = true) :
    String.utf8EncodeChar (Char.ofNat ((a &&& 0x1f).toNat * 64 + payload b)) = [a, b] := by
  obtain ⟨range, -⟩ := isSecond_iff.mp second
  have lead : (a &&& 0x1f).toNat = a.toNat % 32 := by
    rw [UInt8.toNat_and]
    exact Nat.and_two_pow_sub_one_eq_mod a.toNat 5
  simp only [UInt8.lt_iff_toNat_lt, UInt8.reduceToNat] at low high
  rw [lead, payload_eq, utf8EncodeChar_ofNat (Or.inl (by omega)), if_neg (by omega),
    if_pos (by omega)]
  exact ofNat_cons (by omega) (ofNat_cons (by omega) rfl)

theorem encode_three (low : ¬a < 0xe0) (high : a < 0xf0) (second : isSecond a b = true)
    (third : isContinuation c = true) :
    String.utf8EncodeChar
      (Char.ofNat (((a &&& 0x0f).toNat * 64 + payload b) * 64 + payload c)) = [a, b, c] := by
  obtain ⟨range, short, surrogate, -⟩ := isSecond_iff.mp second
  have last := isContinuation_iff.mp third
  have lead : (a &&& 0x0f).toNat = a.toNat % 16 := by
    rw [UInt8.toNat_and]
    exact Nat.and_two_pow_sub_one_eq_mod a.toNat 4
  simp only [UInt8.lt_iff_toNat_lt, UInt8.reduceToNat] at low high
  -- A code point of three bytes is no surrogate, and it is one of at least twelve bits.
  have valid : ((a.toNat % 16 * 64 + b.toNat % 64) * 64 + c.toNat % 64).isValidChar := by
    unfold Nat.isValidChar
    omega
  rw [lead, payload_eq, payload_eq, utf8EncodeChar_ofNat valid, if_neg (by omega),
    if_neg (by omega), if_pos (by omega)]
  exact ofNat_cons (by omega) (ofNat_cons (by omega) (ofNat_cons (by omega) rfl))

theorem encode_four (low : ¬a < 0xf0) (high : a < 0xf5) (second : isSecond a b = true)
    (third : isContinuation c = true) (fourth : isContinuation d = true) :
    String.utf8EncodeChar (Char.ofNat
      ((((a &&& 0x07).toNat * 64 + payload b) * 64 + payload c) * 64 + payload d)) =
      [a, b, c, d] := by
  obtain ⟨range, -, -, short, long⟩ := isSecond_iff.mp second
  have middle := isContinuation_iff.mp third
  have last := isContinuation_iff.mp fourth
  have lead : (a &&& 0x07).toNat = a.toNat % 8 := by
    rw [UInt8.toNat_and]
    exact Nat.and_two_pow_sub_one_eq_mod a.toNat 3
  simp only [UInt8.lt_iff_toNat_lt, UInt8.reduceToNat] at low high
  have valid : (((a.toNat % 8 * 64 + b.toNat % 64) * 64 + c.toNat % 64) * 64 +
      d.toNat % 64).isValidChar := by
    unfold Nat.isValidChar
    omega
  rw [lead, payload_eq, payload_eq, payload_eq, utf8EncodeChar_ofNat valid, if_neg (by omega),
    if_neg (by omega), if_neg (by omega)]
  exact ofNat_cons (by omega)
    (ofNat_cons (by omega) (ofNat_cons (by omega) (ofNat_cons (by omega) rfl)))

end

/-! ### Reading whole texts -/

theorem encode_cons (c : Char) (text : List Char) :
    encode (c :: text) = String.utf8EncodeChar c ++ encode text := rfl

theorem encode_injective {left right : List Char} (same : encode left = encode right) :
    left = right := by
  have bytes : (String.ofList left).toByteArray = (String.ofList right).toByteArray := by
    rw [String.toByteArray_ofList, String.toByteArray_ofList, List.utf8Encode, List.utf8Encode]
    exact congrArg List.toByteArray same
  exact String.ofList_injective (String.toByteArray_inj.mp bytes)

/-- What reading bytes comes to: they are those of some characters, or those in front of the fault
are. -/
def Decoded (start : Nat) (seen : List Char) (bytes : List UInt8) :
    Except Fault (List Char) → Prop
  | .ok text => ∃ front, text = seen.reverse ++ front ∧ encode front = bytes
  | .error fault => ∃ front, encode front <+: bytes ∧ fault.start = start + (encode front).length

theorem Decoded.character {c : Char} {sequence rest : List UInt8} {start : Nat} {seen : List Char}
    {result : Except Fault (List Char)} (same : String.utf8EncodeChar c = sequence)
    (decoded : Decoded (start + sequence.length) (c :: seen) rest result) :
    Decoded start seen (sequence ++ rest) result := by
  cases result with
  | ok text =>
      obtain ⟨front, rfl, rfl⟩ := decoded
      exact ⟨c :: front, by simp, by rw [encode_cons, same]⟩
  | error fault =>
      obtain ⟨front, inside, place⟩ := decoded
      refine ⟨c :: front, ?_, ?_⟩
      · rw [encode_cons, same]
        exact (List.prefix_append_right_inj sequence).mpr inside
      · rw [place, encode_cons, same, List.length_append, Nat.add_assoc]

theorem decodeFrom_decoded (start : Nat) (seen : List Char) (bytes : List UInt8) :
    Decoded start seen bytes (decodeFrom start seen bytes) := by
  fun_induction decodeFrom start seen bytes with
  | case1 start seen => exact ⟨[], by simp, rfl⟩
  | case2 start seen a rest ascii ih => exact Decoded.character (encode_one ascii) ih
  | case5 start seen a _ low high b rest second ih =>
      exact Decoded.character (encode_two low high second) ih
  | case12 start seen a _ _ low high b c rest second third code ih =>
      exact Decoded.character
        (encode_three low high (by simpa using second) (by simpa using third)) ih
  | case22 start seen a _ _ _ low high b c d rest second third fourth code ih =>
      exact Decoded.character (encode_four low high (by simpa using second)
        (by simpa using third) (by simpa using fourth)) ih
  | _ => exact ⟨[], List.nil_prefix, rfl⟩

theorem encode_decode {bytes : List UInt8} {text : List Char} (decoded : decode bytes = .ok text) :
    encode text = bytes := by
  have read := decodeFrom_decoded 0 [] bytes
  rw [← decode, decoded] at read
  obtain ⟨front, rfl, same⟩ := read
  exact same

inductive Sequence : List UInt8 → Prop
  | one {a} : a < 0x80 → Sequence [a]
  | two {a b} : ¬a < 0xc2 → a < 0xe0 → isSecond a b = true → Sequence [a, b]
  | three {a b c} : ¬a < 0xe0 → a < 0xf0 → isSecond a b = true → isContinuation c = true →
      Sequence [a, b, c]
  | four {a b c d} : ¬a < 0xf0 → a < 0xf5 → isSecond a b = true → isContinuation c = true →
      isContinuation d = true → Sequence [a, b, c, d]

theorem sequence_utf8EncodeChar (c : Char) : Sequence (String.utf8EncodeChar c) := by
  have valid : c.toNat.isValidChar := c.valid
  rw [← Char.ofNat_toNat c, utf8EncodeChar_ofNat valid]
  generalize c.toNat = code at valid
  unfold Nat.isValidChar at valid
  split
  · apply Sequence.one
    simp only [UInt8.lt_iff_toNat_lt, UInt8.toNat_ofNat', UInt8.reduceToNat]
    omega
  split
  · apply Sequence.two
    all_goals
      simp only [isSecond_iff, UInt8.lt_iff_toNat_lt, UInt8.toNat_ofNat', UInt8.reduceToNat]
      omega
  split
  · apply Sequence.three
    all_goals
      simp only [isSecond_iff, isContinuation_iff, UInt8.lt_iff_toNat_lt, UInt8.toNat_ofNat',
        UInt8.reduceToNat]
      omega
  · apply Sequence.four
    all_goals
      simp only [isSecond_iff, isContinuation_iff, UInt8.lt_iff_toNat_lt, UInt8.toNat_ofNat',
        UInt8.reduceToNat]
      omega

theorem Sequence.decodes {bytes : List UInt8} (sequence : Sequence bytes) :
    ∃ c, String.utf8EncodeChar c = bytes ∧ ∀ start seen rest,
      decodeFrom start seen (bytes ++ rest) =
        decodeFrom (start + bytes.length) (c :: seen) rest := by
  cases sequence with
  | one ascii =>
      refine ⟨_, encode_one ascii, fun start seen rest => ?_⟩
      rw [List.singleton_append, decodeFrom.eq_def]
      exact if_pos ascii
  | @two a b low high second =>
      refine ⟨_, encode_two low high second, fun start seen rest => ?_⟩
      have ascii : ¬a < 0x80 := fun small => low (UInt8.lt_trans small (by decide))
      simp [decodeFrom, ascii, low, high, second]
  | @three a b c low high second third =>
      refine ⟨_, encode_three low high second third, fun start seen rest => ?_⟩
      have ascii : ¬a < 0x80 := fun small => low (UInt8.lt_trans small (by decide))
      have lead : ¬a < 0xc2 := fun small => low (UInt8.lt_trans small (by decide))
      simp [decodeFrom, ascii, lead, low, high, second, third]
  | @four a b c d low high second third fourth =>
      refine ⟨_, encode_four low high second third fourth, fun start seen rest => ?_⟩
      have ascii : ¬a < 0x80 := fun small => low (UInt8.lt_trans small (by decide))
      have lead : ¬a < 0xc2 := fun small => low (UInt8.lt_trans small (by decide))
      have wide : ¬a < 0xe0 := fun small => low (UInt8.lt_trans small (by decide))
      simp [decodeFrom, ascii, lead, wide, low, high, second, third, fourth]

theorem decodeFrom_character (c : Char) (start : Nat) (seen : List Char) (rest : List UInt8) :
    decodeFrom start seen (String.utf8EncodeChar c ++ rest) =
      decodeFrom (start + (String.utf8EncodeChar c).length) (c :: seen) rest := by
  obtain ⟨other, same, step⟩ := (sequence_utf8EncodeChar c).decodes
  have single : [other] = [c] := encode_injective (by simp [encode_cons, same])
  rw [step, List.singleton_inj.mp single]

theorem decodeFrom_encode (text : List Char) : ∀ (start : Nat) (seen : List Char)
    (rest : List UInt8), decodeFrom start seen (encode text ++ rest) =
      decodeFrom (start + (encode text).length) (text.reverse ++ seen) rest := by
  induction text with
  | nil => exact fun start seen rest => rfl
  | cons c text ih =>
      intro start seen rest
      rw [encode_cons, List.append_assoc, decodeFrom_character, ih]
      simp [Nat.add_assoc]

theorem decode_encode (text : List Char) : decode (encode text) = .ok text := by
  have run := decodeFrom_encode text 0 [] []
  simpa [decode, decodeFrom] using run

def WellFormed (bytes : List UInt8) : Prop := ∃ text, encode text = bytes

theorem wellFormed_iff {bytes : List UInt8} :
    WellFormed bytes ↔ ∃ text, decode bytes = .ok text := by
  constructor
  · rintro ⟨text, rfl⟩
    exact ⟨text, decode_encode text⟩
  · rintro ⟨text, decoded⟩
    exact ⟨text, encode_decode decoded⟩

theorem exists_fault {bytes : List UInt8} (broken : ¬WellFormed bytes) :
    ∃ fault, decode bytes = .error fault := by
  cases decoded : decode bytes with
  | ok text => exact absurd (wellFormed_iff.mpr ⟨text, decoded⟩) broken
  | error fault => exact ⟨fault, rfl⟩

/-- A fault starts where the longest run of whole characters ends. -/
theorem fault_start {bytes : List UInt8} {fault : Fault} (failed : decode bytes = .error fault) :
    ∃ front, front <+: bytes ∧ WellFormed front ∧ fault.start = front.length ∧
      ∀ other, other <+: bytes → WellFormed other → other.length ≤ front.length := by
  have read := decodeFrom_decoded 0 [] bytes
  rw [← decode, failed] at read
  obtain ⟨text, inside, place⟩ := read
  rw [Nat.zero_add] at place
  refine ⟨encode text, inside, ⟨text, rfl⟩, place, ?_⟩
  rintro other ⟨rest, rfl⟩ ⟨longer, rfl⟩
  -- Behind any run of characters the reader is at its end, so the fault is not in front of it.
  rw [decode, decodeFrom_encode] at failed
  have behind := decodeFrom_decoded (0 + (encode longer).length) (longer.reverse ++ []) rest
  rw [failed] at behind
  obtain ⟨more, _, further⟩ := behind
  omega

/-! ### The mark in front of a text -/

def mark : List UInt8 := [0xef, 0xbb, 0xbf]

theorem dropMark_mark (bytes : List UInt8) : dropMark (mark ++ bytes) = bytes := rfl

theorem dropMark_unmarked {bytes : List UInt8} (unmarked : ¬mark <+: bytes) :
    dropMark bytes = bytes := by
  unfold dropMark
  split
  · rename_i rest
    exact absurd (List.prefix_append mark rest) unmarked
  · rfl

/-- Only a text that starts with the character of the mark has it in front of its bytes. -/
theorem head_of_mark {text : List Char} (marked : mark <+: encode text) :
    text.head? = some '\ufeff' := by
  obtain ⟨rest, bytes⟩ := marked
  have character : mark = String.utf8EncodeChar '\ufeff' := by decide
  have read := decodeFrom_decoded (0 + 3) ['\ufeff'] rest
  have run := decodeFrom_character '\ufeff' 0 [] rest
  rw [← character, bytes, ← decode, decode_encode] at run
  have same : decodeFrom (0 + 3) ['\ufeff'] rest = .ok text := run.symm
  rw [same] at read
  obtain ⟨more, rfl, _⟩ := read
  rfl

def markSize : List UInt8 → Nat
  | 0xef :: 0xbb :: 0xbf :: _ => 3
  | _ => 0

theorem drop_markSize (bytes : List UInt8) : bytes.drop (markSize bytes) = dropMark bytes := by
  unfold markSize
  split
  · rfl
  · rename_i other
    rw [List.drop_zero, dropMark.eq_def]
    split
    · exact absurd rfl (other _)
    · rfl

end ConfigIndex.Utf8
