import ConfigIndex.Document.Export
import ConfigIndex.Proofs.Data.Written

/-!
What a value asks of its reader, put together from what its parts ask: that it can be read back at
all, how deep it nests, and which whole numbers it holds.
-/

namespace ConfigIndex.Data

/-- A value that nests no deeper than this and holds just these whole numbers, in their order. -/
structure Shaped (levels : Nat) (numbers : List Int) (value : Data) : Prop where
  regular : value.Regular
  depth : value.depth ≤ levels
  integers : value.integers = numbers

structure ShapedItems (levels : Nat) (numbers : List Int) (items : List Data) : Prop where
  regular : RegularItems items
  depth : depthOfItems items ≤ levels
  integers : integersOfItems items = numbers

structure ShapedFields (levels : Nat) (numbers : List Int) (fields : Fields) : Prop where
  regular : RegularFields fields
  depth : depthOfFields fields ≤ levels
  integers : integersOfFields fields = numbers

variable {levels : Nat} {numbers others : List Int}

theorem Shaped.of_eq {value : Data} (shaped : value.Shaped levels numbers)
    (same : numbers = others) : value.Shaped levels others :=
  same ▸ shaped

theorem Shaped.mono {value : Data} (shaped : value.Shaped levels numbers) {more : Nat}
    (bound : levels ≤ more) : value.Shaped more numbers :=
  ⟨shaped.regular, Nat.le_trans shaped.depth bound, shaped.integers⟩

theorem shaped_null : null.Shaped levels [] := ⟨trivial, Nat.zero_le levels, rfl⟩

theorem shaped_text (value : String) : (text value).Shaped levels [] :=
  ⟨trivial, Nat.zero_le levels, rfl⟩

theorem shaped_int (value : Int) : (int value).Shaped levels [value] :=
  ⟨trivial, Nat.zero_le levels, rfl⟩

theorem shapedItems_nil : ShapedItems levels [] [] := ⟨trivial, Nat.zero_le levels, rfl⟩

theorem Shaped.item {value : Data} (shaped : value.Shaped levels numbers) {rest : List Data}
    (more : ShapedItems levels others rest) :
    ShapedItems levels (numbers ++ others) (value :: rest) := by
  refine ⟨⟨shaped.regular, more.regular⟩, Nat.max_le.mpr ⟨shaped.depth, more.depth⟩, ?_⟩
  rw [integersOfItems, shaped.integers, more.integers]

theorem ShapedItems.mono {items : List Data} (shaped : ShapedItems levels numbers items)
    {more : Nat} (bound : levels ≤ more) : ShapedItems more numbers items :=
  ⟨shaped.regular, Nat.le_trans shaped.depth bound, shaped.integers⟩

theorem ShapedItems.list {items : List Data} (shaped : ShapedItems levels numbers items) :
    (list items).Shaped (levels + 1) numbers := by
  refine ⟨shaped.regular, ?_, shaped.integers⟩
  rw [Data.depth, Nat.add_comm, Nat.add_le_add_iff_right]
  exact shaped.depth

theorem shaped_list {α : Type} {write : α → Data} {numbers : α → List Int}
    (each : ∀ value, (write value).Shaped levels (numbers value)) (values : List α) :
    (list (values.map write)).Shaped (levels + 1) (values.flatMap numbers) := by
  have items : ShapedItems levels (values.flatMap numbers) (values.map write) := by
    induction values with
    | nil => exact shapedItems_nil
    | cons value rest ih => exact (each value).item ih
  exact items.list

theorem shaped_texts (texts : List String) : (list (texts.map text)).Shaped (levels + 1) [] :=
  (shaped_list shaped_text texts).of_eq (List.flatMap_eq_nil_iff.mpr fun _ _ => rfl)

theorem depth_le_of_field {field : String × Data} {fields : Fields} (member : field ∈ fields) :
    field.2.depth ≤ depthOfFields fields := by
  induction fields with
  | nil => cases member
  | cons first rest ih =>
      rw [depthOfFields]
      rcases List.mem_cons.mp member with rfl | later
      · exact Nat.le_max_left _ _
      · exact Nat.le_trans (ih later) (Nat.le_max_right _ _)

theorem shapedFields_nil : ShapedFields levels [] [] := ⟨trivial, Nat.zero_le levels, rfl⟩

theorem Shaped.field {value : Data} (shaped : value.Shaped levels numbers) {key : String}
    {rest : Fields} (more : ShapedFields levels others rest) :
    ShapedFields levels (numbers ++ others) ((key, value) :: rest) := by
  refine ⟨⟨shaped.regular, more.regular⟩, Nat.max_le.mpr ⟨shaped.depth, more.depth⟩, ?_⟩
  rw [integersOfFields, shaped.integers, more.integers]

theorem ShapedFields.record {fields : Fields} (shaped : ShapedFields levels numbers fields)
    (distinct : (fields.map Prod.fst).Nodup) : (record fields).Shaped (levels + 1) numbers := by
  refine ⟨⟨distinct, shaped.regular⟩, ?_, shaped.integers⟩
  rw [Data.depth, Nat.add_comm, Nat.add_le_add_iff_right]
  exact shaped.depth

end ConfigIndex.Data

namespace ConfigIndex

def Position.integers (position : Position) : List Int :=
  [position.offset, position.line, position.column]

open Data in
theorem Position.shaped {levels : Nat} (position : Position) :
    position.toData.Shaped (levels + 1) position.integers :=
  ((shaped_text _).field ((shaped_int _).field ((shaped_int _).field
    ((shaped_int _).field shapedFields_nil)))).record (by simp)

end ConfigIndex
