import ConfigIndex.Proofs.Document.Export
import ConfigIndex.Proofs.Index.Declared
import ConfigIndex.Proofs.Index.Outcome
import ConfigIndex.Proofs.Index.RoundTrip

/-!
Indexes that keep the tree of their document. Such an index is written and read back as long as
the value that is written for the tree does not nest too deep.
-/

namespace ConfigIndex

open Data
open Document (Token File Item Content Span)

/-! ### Numbers of places in a text -/

def Position.Within (bound : Nat) (position : Position) : Prop :=
  ∀ number ∈ position.integers, 0 ≤ number ∧ number ≤ bound

namespace Position

variable {position : Position} {text : List Char} {index : Nat}

theorem utf8ByteSize_le (text : List Char) :
    (String.ofList text).utf8ByteSize ≤ 4 * text.length := by
  induction text using List.reverseRecOn with
  | nil => simp
  | append_singleton front c ih =>
      have size := c.utf8Size_le_four
      rw [utf8ByteSize_snoc, List.length_append, List.length_singleton]
      omega

theorem Stands.within (stands : position.Stands text index)
    (offset : 0 ≤ position.offset ∧ position.offset ≤ 4 * text.length) :
    position.Within (4 * text.length + 1) := by
  obtain ⟨inside, line, column⟩ := stands
  have front : (text.take index).length ≤ text.length := List.length_take_le' index text
  have lines : (text.take index).count '\n' ≤ (text.take index).length := List.count_le_length
  have columns := (List.takeWhile_sublist (· ≠ '\n') (l := (text.take index).reverse)).length_le
  rw [List.length_reverse] at columns
  intro number member
  simp only [integers, List.mem_cons, List.not_mem_nil, or_false] at member
  rcases member with rfl | rfl | rfl <;> omega

theorem Denotes.within (denotes : position.Denotes text index) :
    position.Within (4 * text.length + 1) := by
  have size := utf8ByteSize_le (text.take index)
  have front : (text.take index).length ≤ text.length := List.length_take_le' index text
  exact denotes.1.within (by rw [denotes.2]; omega)

theorem Within.short {bound : Nat} (within : position.Within bound)
    (small : bound < 10 ^ maxJsonDigits) : position.Short := by
  intro number member
  obtain ⟨positive, upper⟩ := within number member
  have magnitude : number.natAbs ≤ bound := by
    clear small
    omega
  rw [← digitCount_signWidth, digitCount, if_neg (Int.not_lt.mpr positive), Nat.add_zero,
    Nat.length_toDigits_le_iff (by decide) (by decide)]
  exact Nat.lt_of_le_of_lt magnitude small

end Position

/-! ### Places of declarations -/

namespace Index

theorem sections_eq (index : Index) :
    index.sections = index.declarations.map Declaration.location := by
  simp only [sections, declarations, List.map_append, List.map_map]
  rfl

/-- A declaration stands where a word of the document stands. -/
theorem mem_sections_classify {path : String} {items : List Item} {position : Position}
    {index : Index} (member : position ∈ (index.classify path items).sections) :
    position ∈ index.sections ∨
      ∃ span ∈ Item.allSpans items, position = span.position.filed path := by
  rw [sections_eq] at member ⊢
  obtain ⟨declaration, listed, rfl⟩ := List.mem_map.mp member
  rcases mem_declarations_classify.mp listed with before | ⟨item, among, found⟩
  · exact Or.inl (List.mem_map_of_mem before)
  · obtain ⟨token, anchor, place⟩ := itemFinding_anchor found
    have key := Item.span_of_key (Declaration.anchor?_mem anchor)
    exact Or.inr ⟨token.span, Item.span_of_mem among key, place⟩

end Index

theorem collectFile_nodup (rules : Rules) (path : String) (file : File) :
    ((({} : Index).collectFile rules path file).index.references.map Prod.fst).Nodup := by
  rw [Index.collectFile_eq, Index.addMentions_eq]
  apply Index.nodup_keys_extendAll
  rw [(classify_records {} path file.items).1]
  exact List.nodup_nil

/-- All that is found in a document stands in its text. -/
theorem collectFile_within {source : List Char} {file : File}
    (read : Document.parseChars source = .ok file) (rules : Rules) (path : String) :
    ∀ position ∈ (({} : Index).collectFile rules path file).index.positions,
      position.Within (4 * source.length + 1) := by
  have stands := collectFile_stands rules path read
    (show ({} : Index).Stands source path file.root.literals from ⟨by simp, by simp⟩)
  intro position member
  simp only [Index.positions, List.mem_append] at member
  rcases member with (problem | declared) | reference
  · obtain ⟨found, listed, rfl⟩ := List.mem_map.mp problem
    obtain ⟨-, offset, token, -, first, last, -, -, -, -, place⟩ := stands.problems found listed
    exact place.within (by omega)
  · rw [Index.collectFile_eq, Index.addMentions_eq] at declared
    rcases Index.mem_sections_classify declared with before | ⟨span, listed, rfl⟩
    · cases before
    · obtain ⟨index, denotes, -⟩ :=
        ((Document.parseChars_tiled read).span_occurs span listed).denotes
      exact denotes.within
  · obtain ⟨entry, listed, here⟩ := List.mem_flatMap.mp reference
    obtain ⟨-, offset, index, word, place, -⟩ := stands.references entry listed position here
    exact place.within (by omega)

/-! ### Contents -/

theorem Utf8.decodeFrom_length {start : Nat} {seen : List Char} {bytes : List UInt8}
    {text : List Char} (decoded : decodeFrom start seen bytes = .ok text) :
    text.length ≤ seen.length + bytes.length := by
  fun_induction decodeFrom start seen bytes with
  | case1 start seen =>
      cases decoded
      simp
  | case2 | case5 | case12 | case22 =>
      rename_i ih
      have shorter := ih decoded
      simp only [List.length_cons] at shorter ⊢
      omega
  | _ => cases decoded

namespace Document.Content

def size : Content → Nat
  | .text source => source.toList.length
  | .bytes source => source.length

theorem parse_eq_ok {content : Content} {file : File} (read : content.parse = .ok file) :
    ∃ text, parseChars text = .ok file ∧ text.length ≤ content.size := by
  cases content with
  | text source => exact ⟨source.toList, read, Nat.le_refl _⟩
  | bytes source =>
      simp only [parse, parseBytes] at read
      split at read
      · cases read
      · rename_i text decoded
        have mark : (Utf8.dropMark source).length ≤ source.length := by
          unfold Utf8.dropMark
          split
          · simp only [List.length_cons]
            omega
          · exact Nat.le_refl _
        have shorter := Utf8.decodeFrom_length decoded
        exact ⟨text, read, by simp only [size, List.length_nil] at shorter ⊢; omega⟩

end Document.Content

/-! ### Writing and reading with a tree -/

theorem RawTree.toData_data (value : Data) : (RawTree.data value).toData = value := rfl

namespace Index

/-- An index is written and read back, and what was read is written as the same text. -/
def RoundTrips (index : Index) (indent : Option Nat) : Prop :=
  ∃ text again, index.toJson? indent = some text ∧ ofJson text = .ok again ∧
    again.toJson? indent = some text

theorem roundTrips_of_noTree {index : Index} (noTree : index.rawTree = none)
    (distinct : (index.references.map Prod.fst).Nodup)
    (short : ∀ position ∈ index.positions, position.Short) (indent : Option Nat) :
    index.RoundTrips indent := by
  have fits := (fits_iff_short noTree distinct).mpr short
  have read := ofJson_toJson (shaped_of_noTree noTree distinct).regular indent
  rw [if_pos fits] at read
  refine ⟨_, _, toJson?_of_noTree noTree indent, read, ?_⟩
  rw [toJson?_of_noTree (by rw [noTree, Option.bind_none])]
  simp only [toData, noTree, Option.bind_none]

section

variable {index : Index} {tree : RawTree} (kept : index.rawTree = some tree)

include kept

theorem treeFields_shaped (regular : tree.toData.Regular) {levels : Nat}
    (bound : tree.toData.depth ≤ levels) :
    ShapedFields levels tree.toData.integers index.treeFields := by
  rw [treeFields, kept]
  exact ⟨⟨regular, trivial⟩, Nat.max_le.mpr ⟨bound, Nat.zero_le levels⟩, List.append_nil _⟩

theorem depth_lt_of_kept : tree.toData.depth < index.toData.depth := by
  have last (fields : Fields) :
      tree.toData.depth ≤ depthOfFields (fields ++ [("rawAst", tree.toData)]) := by
    have member : ("rawAst", tree.toData) ∈ fields ++ [("rawAst", tree.toData)] := by simp
    exact depth_le_of_field member
  simp only [toData, kept, depth, Nat.lt_one_add_iff]
  exact last _

theorem isWritable_iff_of_kept : index.isWritable = true ↔ tree.toData.depth < depthLimit := by
  rw [isWritable, kept, decide_eq_true_eq]

theorem fits_iff_of_kept (distinct : (index.references.map Prod.fst).Nodup)
    (short : ∀ position ∈ index.positions, position.Short) (regular : tree.toData.Regular)
    (few : FewDigits Import.signWidth tree.toData.integers) :
    index.toData.Fits Import.signWidth Import.maxLevels ↔
      tree.toData.depth < Import.maxLevels := by
  constructor
  · intro fits
    exact Nat.lt_of_lt_of_le (depth_lt_of_kept kept) fits.1
  · intro shallow
    have tree : ShapedFields (195 + 4) tree.toData.integers index.treeFields :=
      treeFields_shaped kept regular (Nat.le_of_lt_succ shallow)
    have whole := shaped distinct tree
    refine ⟨whole.depth, ?_⟩
    rw [whole.integers, fewDigits_append]
    exact ⟨fewDigits_iff_short.mpr short, few⟩

/-- An index that keeps a tree makes the round if the tree nests no deeper than the reader goes
below the index itself. -/
theorem roundTrips_iff_of_kept {fields : Fields} (record : tree.toData = .record fields)
    (distinct : (index.references.map Prod.fst).Nodup)
    (short : ∀ position ∈ index.positions, position.Short) (regular : tree.toData.Regular)
    (few : FewDigits Import.signWidth tree.toData.integers) (indent : Option Nat) :
    index.RoundTrips indent ↔ tree.toData.depth < Import.maxLevels := by
  have whole := (shaped distinct
    (treeFields_shaped kept regular (Nat.le_add_right tree.toData.depth 4))).regular
  have fits := fits_iff_of_kept kept distinct short regular few
  have read := ofJson_toJson whole indent
  constructor
  · rintro ⟨text, again, written, found, -⟩
    by_contra deep
    rw [if_neg fun fit => deep (fits.mp fit)] at read
    rw [toJson?] at written
    split at written
    · rw [← Option.some.inj written, read] at found
      cases found
    · cases written
  · intro shallow
    have narrow : tree.toData.depth < depthLimit :=
      Nat.lt_trans shallow (by decide : Import.maxLevels < depthLimit)
    have keptAgain : index.rawTree.bind RawTree.reread = some (.data tree.toData) := by
      rw [kept, Option.bind_some, RawTree.reread, record]
    rw [if_pos (fits.mpr shallow), keptAgain] at read
    refine ⟨_, _, by rw [toJson?, if_pos ((isWritable_iff_of_kept kept).mpr narrow)], read, ?_⟩
    have same : ({ index with rawTree := some (.data tree.toData) } : Index).toData =
        index.toData := by
      simp only [toData, kept, RawTree.toData_data]
    have writable :
        ({ index with rawTree := some (.data tree.toData) } : Index).isWritable = true := by
      rw [isWritable_iff_of_kept rfl]
      exact narrow
    rw [toJson?, if_pos writable, same]

end

theorem collectFile_rawTree {rules : Rules} (keep : rules.keepTree = true) (path : String)
    (file : File) :
    (({} : Index).collectFile rules path file).index.rawTree =
      if (readLiterals path file.root.literals).2.isNone then some (.document file) else none := by
  rw [collectFile_eq, keep, Bool.true_and]

/-- Of a document that can be read, an index that keeps its tree makes the round just if the tree
is written with less lists and records inside one another than the reader takes, and it cannot even
be written if there are too many for the writer. A level of brackets takes up to four of them. If a
literal breaks the work off, there is no tree, and the index makes the round. The text is not so
long that the number of a place in it would be too long for the reader. -/
theorem collect_roundTrips (rules : Rules) (path : String) (content : Content) (file : File)
    (indent : Option Nat) (keep : rules.keepTree = true) (read : content.parse = .ok file)
    (small : 4 * content.size + 1 < 10 ^ maxJsonDigits) :
    let run := (({} : Index).collect rules path content).1
    (run.index.RoundTrips indent ↔
      run.oversized ≠ none ∨ file.toData.depth < Import.maxLevels) ∧
      (run.index.toJson? indent = none ↔
        run.oversized = none ∧ depthLimit ≤ file.toData.depth) ∧
      file.toData.depth ≤ 4 * Item.allDepth file.items + 8 := by
  obtain ⟨source, parsed, shorter⟩ := Content.parse_eq_ok read
  have size : 4 * source.length + 1 < 10 ^ maxJsonDigits :=
    Nat.lt_of_le_of_lt (Nat.add_le_add_right (Nat.mul_le_mul_left 4 shorter) 1) small
  have few (position : Position) (within : position.Within (4 * source.length + 1)) :
      position.Short := within.short size
  clear small size
  have short := fun position member =>
    few position (collectFile_within parsed rules path position member)
  have distinct := collectFile_nodup rules path file
  have shape := file.shaped
  have numbers : FewDigits Import.signWidth file.toData.integers := by
    rw [shape.integers, fewDigits_iff_short]
    intro position member
    obtain ⟨index, denotes⟩ := Document.parseChars_denotes parsed position member
    exact few position denotes.within
  have levels := Document.parseChars_levels parsed
  have bound := shape.depth
  have tree := collectFile_rawTree keep path file
  simp only [collect_eq_collectFile read, collectFile_oversized]
  cases broken : (readLiterals path file.root.literals).2 with
  | none =>
      rw [broken, Option.isNone_none, if_pos rfl] at tree
      refine ⟨?_, ?_, by omega⟩
      · rw [roundTrips_iff_of_kept tree rfl distinct short shape.regular numbers]
        simp [RawTree.toData]
      · rw [toJson?, ite_eq_right_iff]
        simp [isWritable_iff_of_kept tree, RawTree.toData]
  | some digits =>
      rw [broken, Option.isNone_some, if_neg (by simp)] at tree
      refine ⟨?_, ?_, by omega⟩
      · simp [roundTrips_of_noTree tree distinct short]
      · simp [toJson?_of_noTree tree]

theorem collect_roundTrips_block :
    ∃ file, (Content.text "a \x7b\n  b = [\"é\"] # c\n\x7d\n").parse = .ok file ∧
      4 * (Content.text "a \x7b\n  b = [\"é\"] # c\n\x7d\n").size + 1 < 10 ^ maxJsonDigits ∧
      (({} : Index).collect ⟨true, true⟩ "main.tf"
        (.text "a \x7b\n  b = [\"é\"] # c\n\x7d\n")).1.index.RoundTrips (some 2) := by
  have accepted : (Content.text "a \x7b\n  b = [\"é\"] # c\n\x7d\n").parse.toOption.any
      (fun file => file.toData.depth < Import.maxLevels) = true := by decide +kernel
  have small : 4 * (Content.text "a \x7b\n  b = [\"é\"] # c\n\x7d\n").size + 1 <
      10 ^ maxJsonDigits :=
    Nat.lt_of_lt_of_le (by decide +kernel : _ < 10 ^ 2)
      (Nat.pow_le_pow_right (by decide) (by decide))
  cases read : (Content.text "a \x7b\n  b = [\"é\"] # c\n\x7d\n").parse with
  | error error =>
      rw [read] at accepted
      cases accepted
  | ok file =>
      rw [read] at accepted
      have shallow : file.toData.depth < Import.maxLevels := by
        simpa [Except.toOption] using accepted
      have whole := collect_roundTrips ⟨true, true⟩ "main.tf" _ file (some 2) rfl read small
      exact ⟨file, rfl, small, whole.1.mpr (Or.inr shallow)⟩

/-- A document within the limits of the parser whose tree is too deep for the writer. -/
theorem collect_roundTrips_nested :
    let source := String.ofList
      ((List.replicate 64 ['a', '{']).flatten ++ List.replicate 64 '}')
    ∃ file, Document.parse source = .ok file ∧ Item.allDepth file.items ≤ Document.maxLevels ∧
      ¬(({} : Index).collect ⟨true, false⟩ "main.tf" (.text source)).1.index.RoundTrips none := by
  intro source
  have accepted : (Document.parse source).toOption.any (fun file =>
      Item.allDepth file.items ≤ Document.maxLevels && file.root.literals.isEmpty &&
        depthLimit ≤ file.toData.depth) = true := by decide +kernel
  cases read : (Content.text source).parse with
  | error error =>
      rw [show Document.parse source = _ from read] at accepted
      cases accepted
  | ok file =>
      rw [show Document.parse source = _ from read] at accepted
      simp only [Except.toOption, Option.any_some, Bool.and_eq_true, decide_eq_true_eq,
        List.isEmpty_iff] at accepted
      obtain ⟨⟨levels, noLiterals⟩, deep⟩ := accepted
      have keep : (⟨true, false⟩ : Rules).keepTree = true := rfl
      have tree := collectFile_rawTree keep "main.tf" file
      rw [noLiterals, readLiterals, Option.isNone_none, if_pos rfl] at tree
      refine ⟨file, read, levels, ?_⟩
      rintro ⟨text, again, written, -, -⟩
      rw [collect_eq_collectFile read, toJson?] at written
      split at written
      · rename_i writable
        exact Nat.not_lt.mpr deep ((isWritable_iff_of_kept tree).mp writable)
      · cases written

end Index

end ConfigIndex
