import ConfigIndex.Document.Read
import ConfigIndex.Proofs.Text.Utf8

/-!
Reading a document from bytes: it is the document of the text that the bytes encode, with a mark in
front of them or without.
-/

namespace ConfigIndex.Document

theorem parseBytes_encode (text : List Char) {bytes : List UInt8}
    (encoded : Utf8.dropMark bytes = Utf8.encode text) : parseBytes bytes = parseChars text := by
  rw [parseBytes, encoded, Utf8.decode_encode]

theorem parseBytes_fault {bytes : List UInt8} {fault : Utf8.Fault}
    (failed : Utf8.decode (Utf8.dropMark bytes) = .error fault) :
    parseBytes bytes = .error ⟨.encoding fault.reason.text, ⟨"", fault.start, 0, 0⟩⟩ := by
  rw [parseBytes, failed]
  rfl

theorem parseBytes_eq_ok {bytes : List UInt8} {file : File} (read : parseBytes bytes = .ok file) :
    ∃ text, Utf8.encode text = Utf8.dropMark bytes ∧ parseChars text = .ok file := by
  unfold parseBytes at read
  split at read
  · cases read
  · rename_i text decoded
    exact ⟨text, Utf8.encode_decode decoded, read⟩

theorem Content.parse_parseChars {content : Content} {file : File}
    (read : content.parse = .ok file) : ∃ text, parseChars text = .ok file := by
  cases content with
  | text source => exact ⟨source.toList, read⟩
  | bytes source =>
      obtain ⟨text, -, parsed⟩ := parseBytes_eq_ok read
      exact ⟨text, parsed⟩

inductive Unmarked : List UInt8 → List UInt8 → Prop
  | marked (body : List UInt8) : Unmarked (Utf8.mark ++ body) body
  | plain {body : List UInt8} : ¬Utf8.mark <+: body → Unmarked body body

theorem Unmarked.dropMark {bytes body : List UInt8} (unmarked : Unmarked bytes body) :
    Utf8.dropMark bytes = body := by
  cases unmarked with
  | marked body => exact Utf8.dropMark_mark body
  | plain free => exact Utf8.dropMark_unmarked free

/-- The bytes of a text are read as the text is, behind a mark or, where the text has none of its
own, without one. Bytes of no text are refused where their longest run of whole characters ends,
counted from behind the mark. -/
theorem parse_encoded :
    (∀ text : String,
      (Content.bytes (Utf8.mark ++ Utf8.encode text.toList)).parse = (Content.text text).parse ∧
        (text.toList.head? ≠ some '\ufeff' →
          (Content.bytes (Utf8.encode text.toList)).parse = (Content.text text).parse)) ∧
      ∀ bytes body : List UInt8, Unmarked bytes body → ¬Utf8.WellFormed body →
        ∃ (reason : Utf8.Reason) (front : List UInt8),
          (Content.bytes bytes).parse =
            .error ⟨.encoding reason.text, ⟨"", front.length, 0, 0⟩⟩ ∧
          front <+: body ∧ Utf8.WellFormed front ∧
          ∀ other, other <+: body → Utf8.WellFormed other → other.length ≤ front.length := by
  constructor
  · intro text
    constructor
    · exact parseBytes_encode text.toList (Utf8.dropMark_mark _)
    · intro unmarked
      have plain : ¬Utf8.mark <+: Utf8.encode text.toList := fun marked =>
        unmarked (Utf8.head_of_mark marked)
      exact parseBytes_encode text.toList (Utf8.dropMark_unmarked plain)
  · intro bytes body unmarked broken
    obtain ⟨fault, failed⟩ := Utf8.exists_fault broken
    obtain ⟨front, inside, whole, place, longest⟩ := Utf8.fault_start failed
    rw [← unmarked.dropMark] at failed
    refine ⟨fault.reason, front, ?_, inside, whole, longest⟩
    rw [← place]
    exact parseBytes_fault failed

/-- A letter of one byte and one of two are read, and then the bytes end inside a character. -/
theorem parse_encoded_truncated :
    let text := "n = \"é\""
    let body : List UInt8 := [0x61, 0xc3, 0xa9, 0xe2, 0x82]
    (text.toList.head? ≠ some '\ufeff' ∧
      (Content.bytes (Utf8.encode text.toList)).parse = (Content.text text).parse) ∧
      Unmarked (Utf8.mark ++ body) body ∧ ¬Utf8.WellFormed body ∧
      ∃ (reason : Utf8.Reason) (front : List UInt8),
        (Content.bytes (Utf8.mark ++ body)).parse =
          .error ⟨.encoding reason.text, ⟨"", front.length, 0, 0⟩⟩ ∧
        front <+: body ∧ Utf8.WellFormed front ∧
        (∀ other, other <+: body → Utf8.WellFormed other → other.length ≤ front.length) ∧
        front.length = 3 := by
  intro text body
  have plain : text.toList.head? ≠ some '\ufeff' := by decide
  have failed : Utf8.decode body = .error ⟨3, 5, 0xe2, .endOfData⟩ := by rfl
  have broken : ¬Utf8.WellFormed body := by
    intro whole
    obtain ⟨read, decoded⟩ := Utf8.wellFormed_iff.mp whole
    rw [decoded] at failed
    cases failed
  refine ⟨⟨plain, (parse_encoded.1 text).2 plain⟩, .marked body, broken, ?_⟩
  obtain ⟨reason, front, refused, inside, whole, longest⟩ :=
    parse_encoded.2 _ _ (.marked body) broken
  have again := @parseBytes_fault (Utf8.mark ++ body) _ failed
  have place := congrArg (fun error => error.position.offset)
    (Except.error.inj (refused.symm.trans again))
  exact ⟨reason, front, refused, inside, whole, longest, Int.ofNat.inj place⟩

end ConfigIndex.Document
