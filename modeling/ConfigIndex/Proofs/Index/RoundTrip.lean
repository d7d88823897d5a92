import ConfigIndex.Index.Export
import ConfigIndex.Index.Import
import ConfigIndex.Proofs.Data.Checked
import ConfigIndex.Proofs.Data.Shape

/-!
Indexes that are written as JSON and read back. What was written is read as the same index, with
its names in the same order, unless a number in it is too long for the reader or the tree that was
kept is too deep.
-/

namespace ConfigIndex

open Data

/-! ### Each part is read as it was written -/

def RawTree.reread (tree : RawTree) : Option RawTree :=
  match tree.toData with
  | .null => none
  | value => some (.data value)

namespace Import

open Checked

theorem array_map {α : Type} {check : Data → Checked α} (write : α → Data)
    (inverse : ∀ value, check (write value) = .ok value) (values : List α) :
    array check (.list (values.map write)) = .ok values :=
  each_map 0 fun value _ => inverse value

theorem dictionary_map {α : Type} {check : Data → Checked α} (write : α → Data)
    (inverse : ∀ value, check (write value) = .ok value) (named : List (String × α)) :
    dictionary check (.record (named.map fun (name, value) => (name, write value))) =
      .ok named := by
  unfold dictionary
  induction named with
  | nil => rfl
  | cons entry rest ih =>
      simp only at ih
      simp only [List.map_cons, entries, inverse, under, ih, both]

theorem position_toData (position : Position) : Import.position position.toData = .ok position :=
  rfl

theorem location_ok {fields : Fields} (position : Position)
    (found : fields.get? "location" = some position.toData) : location fields = .ok position :=
  optional_ok position found (position_toData position)

theorem documentation_ok {fields : Fields} (texts : List String)
    (found : fields.get? "documentation" = some (.list (texts.map .text))) :
    documentation fields = .ok texts :=
  optional_ok texts found (array_map .text (fun _ => rfl) texts)

theorem namedSection_toData (declared : NamedSection) :
    namedSection declared.toData = .ok declared := by
  simp only [namedSection, NamedSection.toData, object]
  rw [required_ok declared.name rfl rfl, location_ok declared.location rfl,
    documentation_ok declared.documentation rfl]
  rfl

theorem typedSection_toData (declared : TypedSection) :
    typedSection declared.toData = .ok declared := by
  simp only [typedSection, TypedSection.toData, object]
  rw [required_ok declared.type rfl rfl, required_ok declared.name rfl rfl,
    location_ok declared.location rfl, documentation_ok declared.documentation rfl]
  rfl

theorem problem_toData (found : Problem) : problem found.toData = .ok found := by
  simp only [problem, Problem.toData, object]
  rw [required_ok found.message rfl rfl, location_ok found.location rfl]
  rfl

theorem reference_toData (entry : Reference) : reference entry.toData = .ok entry := by
  have path : toTextOrNull ((entry.path.map text).getD .null) = .ok entry.path := by
    cases entry.path <;> rfl
  simp only [reference, Reference.toData, object]
  rw [required_ok entry.name rfl rfl, optional_ok entry.kind rfl rfl,
    optional_ok entry.path rfl path,
    optional_ok entry.locations rfl (array_map _ position_toData _)]
  rfl

theorem rawTree_toData (tree : RawTree) : rawTree tree.toData = .ok tree.reread := by
  unfold rawTree RawTree.reread
  cases tree.toData <;> rfl

theorem index_toData (index : Index) :
    Import.index index.toData =
      .ok { index with rawTree := index.rawTree.bind RawTree.reread } := by
  simp only [Import.index, Index.toData, object]
  rw [optional_ok index.version rfl rfl,
    optional_ok index.problems rfl (array_map _ problem_toData _),
    optional_ok index.inputVariables rfl (array_map _ namedSection_toData _),
    optional_ok index.defaultProviders rfl (array_map _ namedSection_toData _),
    optional_ok index.providers rfl (array_map _ typedSection_toData _),
    optional_ok index.resources rfl (array_map _ typedSection_toData _),
    optional_ok index.dataResources rfl (array_map _ typedSection_toData _),
    optional_ok index.modules rfl (array_map _ namedSection_toData _),
    optional_ok index.outputs rfl (array_map _ namedSection_toData _),
    optional_ok index.references rfl (dictionary_map _ reference_toData _)]
  cases kept : index.rawTree with
  | none =>
      rw [optional_absent rfl]
      rfl
  | some tree =>
      rw [optional_ok tree.reread rfl (rawTree_toData tree)]
      rfl

end Import

/-! ### What an index asks of its reader -/

section

variable {levels : Nat}

theorem NamedSection.shaped (declared : NamedSection) :
    declared.toData.Shaped (levels + 2) declared.location.integers :=
  (((shaped_text _).field (declared.location.shaped.field
    ((shaped_texts _).field shapedFields_nil))).record (by simp)).of_eq (by simp)

theorem TypedSection.shaped (declared : TypedSection) :
    declared.toData.Shaped (levels + 2) declared.location.integers :=
  (((shaped_text _).field ((shaped_text _).field (declared.location.shaped.field
    ((shaped_texts _).field shapedFields_nil)))).record (by simp)).of_eq (by simp)

theorem Problem.shaped (found : Problem) :
    found.toData.Shaped (levels + 2) found.location.integers :=
  (((shaped_text _).field (found.location.shaped.field shapedFields_nil)).record
    (by simp)).of_eq (by simp)

theorem Reference.shaped (entry : Reference) :
    entry.toData.Shaped (levels + 3) (entry.locations.flatMap Position.integers) := by
  have path : ((entry.path.map text).getD .null).Shaped (levels + 2) [] := by
    cases entry.path with
    | none => exact shaped_null
    | some path => exact shaped_text path
  exact (((shaped_text _).field ((shaped_text _).field (path.field
    ((shaped_list Position.shaped _).field shapedFields_nil)))).record (by simp)).of_eq (by simp)

theorem shaped_references (references : List (String × Reference))
    (distinct : (references.map Prod.fst).Nodup) :
    (record (references.map fun (name, entry) => (name, entry.toData))).Shaped (levels + 4)
      (references.flatMap fun entry => entry.2.locations.flatMap Position.integers) := by
  have fields : ShapedFields (levels + 3)
      (references.flatMap fun entry => entry.2.locations.flatMap Position.integers)
      (references.map fun (name, entry) => (name, entry.toData)) := by
    clear distinct
    induction references with
    | nil => exact shapedFields_nil
    | cons entry rest ih => exact entry.2.shaped.field ih
  exact fields.record (by simpa [Function.comp_def] using distinct)

end

namespace Index

def sections (index : Index) : List Position :=
  index.inputVariables.map (·.location) ++ index.defaultProviders.map (·.location) ++
    index.providers.map (·.location) ++ index.resources.map (·.location) ++
    index.dataResources.map (·.location) ++ index.modules.map (·.location) ++
    index.outputs.map (·.location)

def positions (index : Index) : List Position :=
  index.problems.map (·.location) ++ index.sections ++ index.references.flatMap (·.2.locations)

def treeFields (index : Index) : Fields :=
  match index.rawTree with
  | none => []
  | some tree => [("rawAst", tree.toData)]

theorem shaped {index : Index} (distinct : (index.references.map Prod.fst).Nodup) {levels : Nat}
    {numbers : List Int} (tree : ShapedFields (levels + 4) numbers index.treeFields) :
    index.toData.Shaped (levels + 5) (index.positions.flatMap Position.integers ++ numbers) := by
  refine (ShapedFields.record ((shaped_text index.version).field
    ((shaped_list Problem.shaped index.problems).field
    ((shaped_list NamedSection.shaped index.inputVariables).field
    ((shaped_list NamedSection.shaped index.defaultProviders).field
    ((shaped_list TypedSection.shaped index.providers).field
    ((shaped_list TypedSection.shaped index.resources).field
    ((shaped_list TypedSection.shaped index.dataResources).field
    ((shaped_list NamedSection.shaped index.modules).field
    ((shaped_list NamedSection.shaped index.outputs).field
    ((shaped_references index.references distinct).field tree)))))))))) ?keys).of_eq ?numbers
  case keys =>
    unfold treeFields
    cases index.rawTree <;> simp
  case numbers =>
    simp only [positions, sections, List.flatMap_append, List.flatMap_map, List.nil_append,
      List.append_assoc, List.flatMap_assoc]

/-! ### Writing and reading a whole index -/

theorem style_plain (indent : Option Nat) : (style indent).Plain := by
  cases indent with
  | none => exact ⟨rfl, by simp [style, JsonStyle.compact], by simp [style, JsonStyle.compact]⟩
  | some indent =>
      refine ⟨rfl, by simp [style, JsonStyle.pretty], ?_⟩
      simp [style, JsonStyle.pretty, isJsonBlank]

theorem ofJson_toJson {index : Index} (regular : index.toData.Regular) (indent : Option Nat) :
    ofJson (index.toData.toJson (style indent)) =
      if index.toData.Fits Import.signWidth Import.maxLevels then
        .ok { index with rawTree := index.rawTree.bind RawTree.reread }
      else Checked.fail .notJson .null := by
  have text : ofJsonBy? Import.rules Import.maxLevels
      (index.toData.toJson (style indent)).toList =
        if index.toData.Fits Import.signWidth Import.maxLevels then some index.toData
        else none := by
    rw [toJson, String.toList_ofList]
    exact ofJsonBy?_json (style_plain indent) index.toData regular
  rw [ofJson, text]
  by_cases fits : index.toData.Fits Import.signWidth Import.maxLevels
  · rw [if_pos fits, if_pos fits]
    exact Import.index_toData index
  · rw [if_neg fits, if_neg fits]

end Index

/-- No number of the position takes more characters than a reader takes for one, a minus sign
included. -/
def Position.Short (position : Position) : Prop :=
  ∀ number ∈ position.integers, (toString number).length ≤ maxJsonDigits

theorem digitCount_signWidth (value : Int) :
    digitCount Import.signWidth value = (toString value).length := by
  rw [digitCount, ← String.length_toList, toString_toList, List.length_append]
  by_cases negative : value < 0 <;> simp [negative, Import.signWidth, Nat.add_comm]

theorem fewDigits_iff_short {positions : List Position} :
    FewDigits Import.signWidth (positions.flatMap Position.integers) ↔
      ∀ position ∈ positions, position.Short := by
  simp only [FewDigits, List.mem_flatMap, digitCount_signWidth, Position.Short]
  exact ⟨fun all position member number inside => all number ⟨position, member, inside⟩,
    fun all number ⟨position, member, inside⟩ => all position member number inside⟩

namespace Index

theorem shaped_of_noTree {index : Index} (noTree : index.rawTree = none)
    (distinct : (index.references.map Prod.fst).Nodup) :
    index.toData.Shaped 5 (index.positions.flatMap Position.integers) := by
  have tree : ShapedFields 4 [] index.treeFields := by
    rw [treeFields, noTree]
    exact shapedFields_nil
  exact (shaped distinct tree).of_eq (List.append_nil _)

theorem fits_iff_short {index : Index} (noTree : index.rawTree = none)
    (distinct : (index.references.map Prod.fst).Nodup) :
    index.toData.Fits Import.signWidth Import.maxLevels ↔
      ∀ position ∈ index.positions, position.Short := by
  have whole := shaped_of_noTree noTree distinct
  rw [Fits, whole.integers, fewDigits_iff_short]
  exact and_iff_right (Nat.le_trans whole.depth (by decide))

theorem toJson?_of_noTree {index : Index} (noTree : index.rawTree = none) (indent : Option Nat) :
    index.toJson? indent = some (index.toData.toJson (style indent)) := by
  have writable : index.isWritable = true := by rw [isWritable, noTree]
  rw [toJson?, if_pos writable]

/-- An index without a tree is always written, and it is read back as it was, unless a number in
one of its positions takes too many characters. -/
theorem toJson?_ofJson (index : Index) (indent : Option Nat) (noTree : index.rawTree = none)
    (distinct : (index.references.map Prod.fst).Nodup) :
    ∃ text, index.toJson? indent = some text ∧
      (ofJson text = .ok index ↔ ∀ position ∈ index.positions, position.Short) := by
  have same : { index with rawTree := index.rawTree.bind RawTree.reread } = index := by
    rw [noTree, Option.bind_none, ← noTree]
  refine ⟨_, toJson?_of_noTree noTree indent, ?_⟩
  rw [ofJson_toJson (shaped_of_noTree noTree distinct).regular,
    ← fits_iff_short noTree distinct, same]
  by_cases short : index.toData.Fits Import.signWidth Import.maxLevels
  · rw [if_pos short]
    exact iff_of_true rfl short
  · rw [if_neg short]
    exact iff_of_false (fun equal => nomatch equal) short

theorem toJson?_ofJson_reference :
    let index := ({} : Index).addReference "ü\n" "variable" none ⟨"main.tf", -7, 3, 1⟩
    index.rawTree = none ∧ (index.references.map Prod.fst).Nodup ∧
      ∃ text, index.toJson? (some 2) = some text ∧
        (ofJson text = .ok index ↔ ∀ position ∈ index.positions, position.Short) ∧
        ofJson text = .ok index := by
  intro index
  have noTree : index.rawTree = none := rfl
  have distinct : (index.references.map Prod.fst).Nodup := by decide
  obtain ⟨text, written, read⟩ := toJson?_ofJson index (some 2) noTree distinct
  have short : ∀ position ∈ index.positions, position.Short := by
    unfold Position.Short
    decide
  exact ⟨noTree, distinct, text, written, read, read.mpr short⟩

/-- A negative number with as many digits as the reader allows is too long by its sign. -/
theorem not_ofJson_of_negative {magnitude : Nat} (indent : Option Nat)
    (long : (Nat.toDigits 10 magnitude).length = maxJsonDigits) :
    let index := ({} : Index).addReference "a" "variable" none ⟨"main.tf", -(magnitude : Int), 1, 1⟩
    index.rawTree = none ∧ (index.references.map Prod.fst).Nodup ∧
      (∀ position ∈ index.positions, ∀ number ∈ position.integers,
        (Nat.toDigits 10 number.natAbs).length ≤ maxJsonDigits) ∧
      ¬∃ text, index.toJson? indent = some text ∧ ofJson text = .ok index := by
  intro index
  have noTree : index.rawTree = none := rfl
  have distinct : (index.references.map Prod.fst).Nodup := by simp [index, addReference, extend]
  have only : index.positions = [⟨"main.tf", -(magnitude : Int), 1, 1⟩] := rfl
  have positive : 0 < magnitude := by
    rcases Nat.eq_zero_or_pos magnitude with rfl | positive
    · exact absurd long (by decide)
    · exact positive
  refine ⟨noTree, distinct, ?_, ?_⟩
  · intro position member number inside
    rw [only, List.mem_singleton] at member
    subst member
    simp only [Position.integers, List.mem_cons, List.not_mem_nil, or_false] at inside
    rcases inside with rfl | rfl | rfl
    · rw [Int.natAbs_neg, Int.natAbs_natCast]
      exact Nat.le_of_eq long
    · decide
    · decide
  · rintro ⟨text, written, read⟩
    rw [toJson?_of_noTree noTree, Option.some.injEq] at written
    subst written
    have tooLong : ¬∀ position ∈ index.positions, position.Short := by
      intro short
      have sign := short ⟨"main.tf", -(magnitude : Int), 1, 1⟩ (by simp [only]) (-(magnitude : Int))
        (by simp [Position.integers])
      rw [← digitCount_signWidth, digitCount, Int.natAbs_neg, Int.natAbs_natCast, long,
        if_pos (by omega)] at sign
      exact absurd sign (by decide)
    rw [ofJson_toJson (shaped_of_noTree noTree distinct).regular,
      if_neg fun fits => tooLong ((fits_iff_short noTree distinct).mp fits)] at read
    cases read

theorem toJson?_ofJson_nines :
    let index := ({} : Index).addReference "a" "variable" none
      ⟨"main.tf", -((10 ^ maxJsonDigits - 1 : Nat) : Int), 1, 1⟩
    index.rawTree = none ∧ (index.references.map Prod.fst).Nodup ∧
      (∀ position ∈ index.positions, ∀ number ∈ position.integers,
        (Nat.toDigits 10 number.natAbs).length ≤ maxJsonDigits) ∧
      ¬∃ text, index.toJson? none = some text ∧ ofJson text = .ok index :=
  not_ofJson_of_negative none (Text.length_digits_nines (by decide))

end Index

end ConfigIndex
