import ConfigIndex.Proofs.Data.Scalars

/-!
Values read back from the JSON that was written for them. A value is read if its lists and records
nest no deeper than the reader goes and its whole numbers are short enough, and refused otherwise.
-/

namespace ConfigIndex.Data

/-! ### Values without fractions and half pairs -/

mutual

def Regular : Data → Prop
  | .float _ | .unpaired _ => False
  | .list items => RegularItems items
  | .record fields => (fields.map Prod.fst).Nodup ∧ RegularFields fields
  | _ => True

def RegularItems : List Data → Prop
  | [] => True
  | item :: rest => item.Regular ∧ RegularItems rest

def RegularFields : List (String × Data) → Prop
  | [] => True
  | (_, value) :: rest => value.Regular ∧ RegularFields rest

end

mutual

def integers : Data → List Int
  | .int value => [value]
  | .list items => integersOfItems items
  | .record fields => integersOfFields fields
  | _ => []

def integersOfItems : List Data → List Int
  | [] => []
  | item :: rest => item.integers ++ integersOfItems rest

def integersOfFields : List (String × Data) → List Int
  | [] => []
  | (_, value) :: rest => value.integers ++ integersOfFields rest

end

def digitCount (signWidth : Nat) (value : Int) : Nat :=
  (Nat.toDigits 10 value.natAbs).length + (if value < 0 then signWidth else 0)

def FewDigits (signWidth : Nat) (values : List Int) : Prop :=
  ∀ value ∈ values, digitCount signWidth value ≤ maxJsonDigits

def Fits (signWidth levels : Nat) (value : Data) : Prop :=
  value.depth ≤ levels ∧ FewDigits signWidth value.integers

def FitItems (signWidth levels : Nat) (items : List Data) : Prop :=
  depthOfItems items ≤ levels ∧ FewDigits signWidth (integersOfItems items)

def FitFields (signWidth levels : Nat) (fields : List (String × Data)) : Prop :=
  depthOfFields fields ≤ levels ∧ FewDigits signWidth (integersOfFields fields)

section

variable {signWidth levels : Nat}

instance (values : List Int) : Decidable (FewDigits signWidth values) :=
  inferInstanceAs (Decidable (∀ value ∈ values, _))

instance (value : Data) : Decidable (Fits signWidth levels value) :=
  inferInstanceAs (Decidable (_ ∧ _))

instance (items : List Data) : Decidable (FitItems signWidth levels items) :=
  inferInstanceAs (Decidable (_ ∧ _))

instance (fields : List (String × Data)) : Decidable (FitFields signWidth levels fields) :=
  inferInstanceAs (Decidable (_ ∧ _))

theorem fewDigits_append {left right : List Int} :
    FewDigits signWidth (left ++ right) ↔ FewDigits signWidth left ∧ FewDigits signWidth right :=
  List.forall_mem_append

theorem fits_null : null.Fits signWidth levels :=
  ⟨Nat.zero_le levels, fun _ member => nomatch member⟩

theorem fits_bool (value : Bool) : (bool value).Fits signWidth levels :=
  ⟨Nat.zero_le levels, fun _ member => nomatch member⟩

theorem fits_text (value : String) : (text value).Fits signWidth levels :=
  ⟨Nat.zero_le levels, fun _ member => nomatch member⟩

theorem fits_int {value : Int} :
    (int value).Fits signWidth levels ↔ digitCount signWidth value ≤ maxJsonDigits :=
  (and_iff_right (Nat.zero_le levels)).trans List.forall_mem_singleton

theorem fitItems_nil : FitItems signWidth levels [] :=
  ⟨Nat.zero_le levels, fun _ member => nomatch member⟩

theorem fitItems_cons {item : Data} {rest : List Data} :
    FitItems signWidth levels (item :: rest) ↔
      item.Fits signWidth levels ∧ FitItems signWidth levels rest := by
  simp only [FitItems, Fits, depthOfItems, integersOfItems, fewDigits_append, Nat.max_le]
  tauto

theorem fitFields_nil : FitFields signWidth levels [] :=
  ⟨Nat.zero_le levels, fun _ member => nomatch member⟩

theorem fitFields_cons {key : String} {value : Data} {rest : List (String × Data)} :
    FitFields signWidth levels ((key, value) :: rest) ↔
      value.Fits signWidth levels ∧ FitFields signWidth levels rest := by
  simp only [FitFields, Fits, depthOfFields, integersOfFields, fewDigits_append, Nat.max_le]
  tauto

theorem depth_list_le {items : List Data} :
    (list items).depth ≤ levels ↔ 1 + depthOfItems items ≤ levels := Iff.rfl

theorem depth_record_le {fields : List (String × Data)} :
    (record fields).depth ≤ levels ↔ 1 + depthOfFields fields ≤ levels := Iff.rfl

theorem fits_list {items : List Data} :
    (list items).Fits signWidth (levels + 1) ↔ FitItems signWidth levels items := by
  have deep : (list items).depth ≤ levels + 1 ↔ depthOfItems items ≤ levels := by
    rw [depth_list_le, Nat.add_comm, Nat.add_le_add_iff_right]
  exact and_congr_left fun _ => deep

theorem fits_record {fields : List (String × Data)} :
    (record fields).Fits signWidth (levels + 1) ↔ FitFields signWidth levels fields := by
  have deep : (record fields).depth ≤ levels + 1 ↔ depthOfFields fields ≤ levels := by
    rw [depth_record_le, Nat.add_comm, Nat.add_le_add_iff_right]
  exact and_congr_left fun _ => deep

theorem not_fits_list (items : List Data) : ¬(list items).Fits signWidth 0 := fun fits => by
  have shallow := depth_list_le.mp fits.1
  omega

theorem not_fits_record (fields : List (String × Data)) : ¬(record fields).Fits signWidth 0 :=
  fun fits => by
  have shallow := depth_record_le.mp fits.1
  omega

end

/-! ### Fields of different names -/

theorem Fields.put_of_absent {fields : Fields} {key : String} {value : Data}
    (absent : key ∉ fields.map Prod.fst) :
    Fields.put fields key value = fields ++ [(key, value)] := by
  induction fields with
  | nil => rfl
  | cons field rest ih =>
      simp only [List.map_cons, List.mem_cons, not_or] at absent
      have other : (field.1 == key) = false := by simpa using Ne.symm absent.1
      simp [Fields.put, other, ih absent.2]

theorem Fields.ofList_of_nodup {fields : Fields} (distinct : (fields.map Prod.fst).Nodup) :
    Fields.ofList fields = fields := by
  suffices ∀ before : Fields, ((before ++ fields).map Prod.fst).Nodup →
      fields.foldl (fun all entry => Fields.put all entry.1 entry.2) before = before ++ fields from
    this [] distinct
  clear distinct
  induction fields with
  | nil => simp
  | cons field rest ih =>
      intro before distinct
      have absent : field.1 ∉ before.map (·.1) := by
        simp only [List.map_append, List.map_cons, List.nodup_append, List.mem_cons] at distinct
        exact fun member => distinct.2.2 _ member _ (Or.inl rfl) rfl
      rw [List.foldl_cons, Fields.put_of_absent absent, ih, List.append_assoc,
        List.singleton_append]
      rwa [List.append_assoc, List.singleton_append]

/-! ### Blanks -/

structure JsonStyle.Plain (style : JsonStyle) : Prop where
  unescaped : style.asciiOnly = false
  itemGap : ∀ c ∈ style.itemGap, isJsonBlank c = true
  keyGap : ∀ c ∈ style.keyGap, isJsonBlank c = true

theorem jsonBreak_blank (style : JsonStyle) (level : Nat) {flat : List Char}
    (blank : ∀ c ∈ flat, isJsonBlank c = true) :
    ∀ c ∈ jsonBreak style level flat, isJsonBlank c = true := by
  intro c member
  unfold jsonBreak at member
  cases broken : style.indent with
  | none => exact blank c (by simpa [broken] using member)
  | some indent =>
      rw [broken] at member
      rcases List.mem_cons.mp member with rfl | inside
      · decide
      · rw [List.eq_of_mem_replicate inside]
        decide

theorem jsonBreak_nil_blank (style : JsonStyle) (level : Nat) :
    ∀ c ∈ jsonBreak style level [], isJsonBlank c = true :=
  jsonBreak_blank style level (by simp)

theorem skipJsonBlanks_append {gap : List Char} (blank : ∀ c ∈ gap, isJsonBlank c = true)
    (rest : List Char) : skipJsonBlanks (gap ++ rest) = skipJsonBlanks rest :=
  List.dropWhile_append_of_pos blank

theorem skipJsonBlanks_cons {c : Char} (visible : isJsonBlank c = false) (rest : List Char) :
    skipJsonBlanks (c :: rest) = c :: rest := by
  simp [skipJsonBlanks, visible]

theorem isJsonBlank_of_isDigit {c : Char} (digit : c.isDigit = true) : isJsonBlank c = false := by
  have bounds := Char.isDigit_iff_toNat.mp digit
  simp only [isJsonBlank, Bool.or_eq_false_iff, decide_eq_false_iff_not]
  refine ⟨⟨⟨?_, ?_⟩, ?_⟩, ?_⟩ <;> rintro rfl <;> revert bounds <;> decide

section

variable {rest : List Char}

theorem endsNumber_blank {gap : List Char} (blank : ∀ c ∈ gap, isJsonBlank c = true)
    (ends : EndsNumber rest) : EndsNumber (gap ++ rest) := by
  cases gap with
  | nil => exact ends
  | cons first more =>
      have visible := blank first (by simp)
      simp only [isJsonBlank, Bool.or_eq_true, decide_eq_true_eq] at visible
      rcases visible with ((rfl | rfl) | rfl) | rfl <;> simp [EndsNumber]

theorem endsNumber_jsonItems (style : JsonStyle) (level : Nat) (items : List Data)
    (ends : EndsNumber rest) : EndsNumber (jsonItems style level items ++ rest) := by
  cases items with
  | nil => exact ends
  | cons item more => simp [jsonItems, EndsNumber]

theorem endsNumber_jsonFields (style : JsonStyle) (level : Nat) (fields : List (String × Data))
    (ends : EndsNumber rest) : EndsNumber (jsonFields style level fields ++ rest) := by
  cases fields with
  | nil => exact ends
  | cons field more => simp [jsonFields, EndsNumber]

end

/-! ### One step of a reader -/

section

variable {rules : JsonRules} {fuel levels : Nat} {style : JsonStyle}

theorem readJson_gap {gap : List Char} (blank : ∀ c ∈ gap, isJsonBlank c = true)
    (rest : List Char) :
    readJson rules fuel levels (gap ++ rest) = readJson rules fuel levels rest := by
  cases fuel with
  | zero => simp [readJson]
  | succ fuel => simp only [readJson, skipJsonBlanks_append blank]

theorem readJsonItems_gap {gap : List Char} (blank : ∀ c ∈ gap, isJsonBlank c = true)
    (seen : List Data) (rest : List Char) :
    readJsonItems rules fuel levels seen (gap ++ rest) =
      readJsonItems rules fuel levels seen rest := by
  cases fuel with
  | zero => simp [readJsonItems]
  | succ fuel => simp only [readJsonItems, readJson_gap blank]

theorem readJsonFields_gap {gap : List Char} (blank : ∀ c ∈ gap, isJsonBlank c = true)
    (seen : List (String × Data)) (rest : List Char) :
    readJsonFields rules fuel levels seen (gap ++ rest) =
      readJsonFields rules fuel levels seen rest := by
  cases fuel with
  | zero => simp [readJsonFields]
  | succ fuel => simp only [readJsonFields, skipJsonBlanks_append blank]

theorem readJson_null (rest : List Char) :
    readJson rules (fuel + 1) levels ('n' :: 'u' :: 'l' :: 'l' :: rest) =
      some (.null, rest) := rfl

theorem readJson_bool (value : Bool) (level : Nat) (rest : List Char) :
    readJson rules (fuel + 1) levels ((bool value).json style level ++ rest) =
      some (.bool value, rest) := by
  cases value with
  | false => rfl
  | true => rfl

theorem readJson_text (text rest : List Char) :
    readJson rules (fuel + 1) levels (jsonText false text ++ rest) =
      some (.text (String.ofList text), rest) := by
  have read (text : List Char) : readJson rules (fuel + 1) levels ('"' :: text) =
      readJsonValue rules.half? text := rfl
  rw [jsonText, List.append_assoc, List.cons_append, read, List.singleton_append, readJsonValue,
    readJsonText_flatMap]
  rfl

theorem readJson_digits {c : Char} (digit : c.isDigit = true) (rest : List Char)
    (negative : Prop) [Decidable negative] :
    readJson rules (fuel + 1) levels ((if negative then ['-'] else []) ++ c :: rest) =
      readJsonNumber rules.signWidth (decide negative) (c :: rest) := by
  by_cases sign : negative
  · rw [if_pos sign, decide_eq_true sign, List.singleton_append, readJson,
      skipJsonBlanks_cons (by decide)]
    split <;> simp_all
  · rw [if_neg sign, decide_eq_false sign, List.nil_append, readJson,
      skipJsonBlanks_cons (isJsonBlank_of_isDigit digit)]
    split <;> simp_all

theorem readJson_list_zero (rest : List Char) :
    readJson rules (fuel + 1) 0 ('[' :: rest) = none := rfl

theorem readJson_list_nil (rest : List Char) :
    readJson rules (fuel + 1) (levels + 1) ('[' :: ']' :: rest) = some (.list [], rest) := rfl

theorem readJson_list_cons {gap : List Char} (blank : ∀ c ∈ gap, isJsonBlank c = true) {c : Char}
    (visible : isJsonBlank c = false) (opens : c ≠ ']') (rest : List Char) :
    readJson rules (fuel + 1) (levels + 1) ('[' :: (gap ++ c :: rest)) =
      readJsonItems rules fuel levels [] (c :: rest) := by
  rw [readJson, skipJsonBlanks_cons (by decide)]
  simp [skipJsonBlanks_append blank, skipJsonBlanks_cons visible, opens]

theorem readJson_record_zero (rest : List Char) :
    readJson rules (fuel + 1) 0 ('{' :: rest) = none := rfl

theorem readJson_record_nil (rest : List Char) :
    readJson rules (fuel + 1) (levels + 1) ('{' :: '}' :: rest) = some (.record [], rest) :=
  rfl

theorem readJson_record_cons {gap : List Char} (blank : ∀ c ∈ gap, isJsonBlank c = true)
    (rest : List Char) :
    readJson rules (fuel + 1) (levels + 1) ('{' :: (gap ++ '"' :: rest)) =
      readJsonFields rules fuel levels [] ('"' :: rest) := by
  have quote : isJsonBlank '"' = false := by decide
  rw [readJson, skipJsonBlanks_cons (by decide)]
  simp [skipJsonBlanks_append blank, skipJsonBlanks_cons quote]

/-! ### Whole values -/

theorem toString_toList (value : Int) :
    (toString value).toList =
      (if value < 0 then ['-'] else []) ++ Nat.toDigits 10 value.natAbs := by
  rw [Int.toString_eq_repr, Int.repr_eq_if]
  by_cases negative : value < 0
  · have magnitude : (-value).toNat = value.natAbs := by omega
    rw [if_neg (by omega), if_pos negative, String.toList_append, Nat.toList_repr, magnitude]
    rfl
  · have magnitude : value.toNat = value.natAbs := by omega
    rw [if_pos (by omega), if_neg negative, Nat.toList_repr, magnitude, List.nil_append]

theorem digits_eq_cons (value : Nat) :
    ∃ first more, Nat.toDigits 10 value = first :: more ∧ first.isDigit = true := by
  obtain ⟨first, more, digits⟩ := List.exists_cons_of_ne_nil (Nat.toDigits_ne_nil (n := value))
  exact ⟨first, more, digits, Text.isDigit_of_mem_digits (digits ▸ List.mem_cons_self)⟩

theorem readJson_int (value : Int) {rest : List Char} (ends : EndsNumber rest) :
    readJson rules (fuel + 1) levels ((toString value).toList ++ rest) =
      if (int value).Fits rules.signWidth levels then some (.int value, rest) else none := by
  obtain ⟨first, more, digits, digit⟩ := digits_eq_cons value.natAbs
  have signed : (if value < 0 then -(value.natAbs : Int) else value.natAbs) = value := by
    split <;> omega
  rw [toString_toList, List.append_assoc, digits, List.cons_append, readJson_digits digit,
    ← List.cons_append, ← digits, readJsonNumber_digits _ _ _ ends]
  simp only [decide_eq_true_eq, signed, fits_int, digitCount]

/-- A value starts with neither a blank nor the end of a list. -/
theorem json_head (style : JsonStyle) (level : Nat) {value : Data} (regular : value.Regular) :
    ∃ c rest, value.json style level = c :: rest ∧ isJsonBlank c = false ∧ c ≠ ']' := by
  cases value with
  | null => exact ⟨'n', _, rfl, by decide, by decide⟩
  | bool value =>
      cases value with
      | false => exact ⟨'f', _, rfl, by decide, by decide⟩
      | true => exact ⟨'t', _, rfl, by decide, by decide⟩
  | int value =>
      obtain ⟨first, more, digits, digit⟩ := digits_eq_cons value.natAbs
      rw [json, toString_toList, digits]
      by_cases negative : value < 0
      · exact ⟨'-', first :: more, by simp [negative], by decide, by decide⟩
      · refine ⟨first, more, by simp [negative], isJsonBlank_of_isDigit digit, ?_⟩
        rintro rfl
        exact absurd digit (by decide)
  | float value | unpaired value => exact regular.elim
  | text value => exact ⟨'"', _, rfl, by decide, by decide⟩
  | list items =>
      cases items with
      | nil => exact ⟨'[', _, rfl, by decide, by decide⟩
      | cons item rest => exact ⟨'[', _, rfl, by decide, by decide⟩
  | record fields =>
      cases fields with
      | nil => exact ⟨'{', _, rfl, by decide, by decide⟩
      | cons field rest => exact ⟨'{', _, rfl, by decide, by decide⟩

/-- A list is read if its items are, where there is a level left for it. -/
theorem readJson_list {level : Nat} {item : Data} {items : List Data} (regular : item.Regular)
    {rest : List Char}
    (all : ∀ levels, readJsonItems rules fuel levels [] (item.json style (level + 1) ++
      (jsonItems style level items ++ (jsonBreak style (level - 1) [] ++ ']' :: rest))) =
      if FitItems rules.signWidth levels (item :: items) then some (.list (item :: items), rest)
      else none) :
    readJson rules (fuel + 1) levels ((list (item :: items)).json style level ++ rest) =
      if (list (item :: items)).Fits rules.signWidth levels then some (.list (item :: items), rest)
      else none := by
  cases levels with
  | zero =>
      rw [if_neg (not_fits_list _)]
      exact readJson_list_zero _
  | succ levels =>
      obtain ⟨c, tail, written, visible, opens⟩ := json_head style (level + 1) regular
      have items := all levels
      simp only [written, List.cons_append, ← fits_list] at items
      rw [← items, ← readJson_list_cons (jsonBreak_nil_blank style level) visible opens]
      simp only [json, written, List.cons_append, List.append_assoc, List.nil_append]

/-- A record is read if its fields are, where there is a level left for it. -/
theorem readJson_record (plain : style.Plain) {level : Nat} {key : String} {value : Data}
    {fields : List (String × Data)} (distinct : (((key, value) :: fields).map Prod.fst).Nodup)
    {rest : List Char}
    (all : ∀ levels, readJsonFields rules fuel levels []
      (jsonText style.asciiOnly key.toList ++
        (':' :: style.keyGap ++ (value.json style (level + 1) ++
          (jsonFields style level fields ++ (jsonBreak style (level - 1) [] ++ '}' :: rest))))) =
      if FitFields rules.signWidth levels ((key, value) :: fields) then
        some (.record (Fields.ofList ((key, value) :: fields)), rest)
      else none) :
    readJson rules (fuel + 1) levels
        ((record ((key, value) :: fields)).json style level ++ rest) =
      if (record ((key, value) :: fields)).Fits rules.signWidth levels then
        some (.record ((key, value) :: fields), rest)
      else none := by
  cases levels with
  | zero =>
      rw [if_neg (not_fits_record _)]
      exact readJson_record_zero _
  | succ levels =>
      have fields := all levels
      simp only [plain.unescaped, jsonText, List.cons_append, ← fits_record,
        Fields.ofList_of_nodup distinct] at fields
      rw [← fields, ← readJson_record_cons (jsonBreak_nil_blank style level)]
      simp only [json, jsonText, plain.unescaped, List.cons_append, List.append_assoc,
        List.nil_append]

-- By induction on the value. The items and the fields are read behind what was seen of their list
-- or record, with the bracket that closes it still to come. Two steps for each written character
-- are enough: each item and each field costs one step before its value is read.
mutual

/-- A written value is read back if it fits, and refused if it does not. -/
theorem readJson_json (plain : style.Plain) (level : Nat) (value : Data)
    (regular : value.Regular) {rest : List Char} (ends : EndsNumber rest) (fuel levels : Nat)
    (enough : 2 * (value.json style level).length ≤ fuel) :
    readJson rules fuel levels (value.json style level ++ rest) =
      if value.Fits rules.signWidth levels then some (value, rest) else none := by
  obtain ⟨fuel, rfl⟩ : ∃ less, fuel = less + 1 := by
    obtain ⟨c, more, written, -, -⟩ := json_head style level regular
    rw [written, List.length_cons] at enough
    exact ⟨fuel - 1, by omega⟩
  cases value with
  | null =>
      rw [json, if_pos fits_null]
      exact readJson_null rest
  | bool value => rw [readJson_bool, if_pos (fits_bool value)]
  | int value => exact readJson_int value ends
  | float value | unpaired value => exact regular.elim
  | text value =>
      rw [json, plain.unescaped, readJson_text, if_pos (fits_text value), String.ofList_toList]
  | list items =>
      cases items with
      | nil =>
          cases levels with
          | zero =>
              rw [if_neg (not_fits_list [])]
              exact readJson_list_zero _
          | succ levels =>
              rw [if_pos (fits_list.mpr fitItems_nil)]
              exact readJson_list_nil rest
      | cons item more =>
          rw [json] at enough
          simp only [List.length_append, List.length_cons, List.length_nil] at enough
          exact readJson_list regular.1 fun levels =>
            readJsonItems_json plain level item more regular rest fuel levels []
              (by rw [List.length_append]; omega)
  | record fields =>
      cases fields with
      | nil =>
          cases levels with
          | zero =>
              rw [if_neg (not_fits_record [])]
              exact readJson_record_zero _
          | succ levels =>
              rw [if_pos (fits_record.mpr fitFields_nil)]
              exact readJson_record_nil rest
      | cons field more =>
          cases field with
          | mk key value =>
              rw [json] at enough
              simp only [List.length_append, List.length_cons, List.length_nil] at enough
              exact readJson_record plain regular.1 fun levels =>
                readJsonFields_json plain level key value more regular.2 rest fuel levels []
                  (by simp only [List.length_append, List.length_cons]; omega)
termination_by sizeOf value
decreasing_by
  all_goals
    subst_vars
    simp +arith

theorem readJsonItems_json (plain : style.Plain) (level : Nat) (item : Data) (items : List Data)
    (regular : RegularItems (item :: items)) (rest : List Char) (fuel levels : Nat)
    (seen : List Data)
    (enough : 2 * (item.json style (level + 1) ++ jsonItems style level items).length < fuel) :
    readJsonItems rules fuel levels seen (item.json style (level + 1) ++
      (jsonItems style level items ++ (jsonBreak style (level - 1) [] ++ ']' :: rest))) =
      if FitItems rules.signWidth levels (item :: items) then
        some (.list (seen.reverse ++ item :: items), rest)
      else none := by
  obtain ⟨fuel, rfl⟩ : ∃ less, fuel = less + 1 := ⟨fuel - 1, by omega⟩
  have closing := jsonBreak_nil_blank style (level - 1)
  have close : EndsNumber (']' :: rest) := by simp [EndsNumber]
  rw [List.length_append] at enough
  have first := readJson_json plain (level + 1) item regular.1
    (endsNumber_jsonItems style level items (endsNumber_blank closing close)) fuel levels (by omega)
  rw [readJsonItems, first]
  by_cases fits : item.Fits rules.signWidth levels
  · rw [if_pos fits]
    cases items with
    | nil =>
        rw [if_pos (fitItems_cons.mpr ⟨fits, fitItems_nil⟩)]
        simp [jsonItems, skipJsonBlanks_append closing,
          skipJsonBlanks_cons (show isJsonBlank ']' = false by decide)]
    | cons next more =>
        have comma : isJsonBlank ',' = false := by decide
        have gap := jsonBreak_blank style level plain.itemGap
        have others := readJsonItems_json plain level next more regular.2 rest fuel levels
          (item :: seen) (by
            simp only [jsonItems, List.length_append, List.length_cons] at enough ⊢
            omega)
        simp only [jsonItems, List.cons_append, List.append_assoc, skipJsonBlanks_cons comma,
          readJsonItems_gap gap, others, fitItems_cons, fits, true_and, List.reverse_cons,
          List.nil_append]
  · have refused : ¬FitItems rules.signWidth levels (item :: items) := fun all =>
      fits (fitItems_cons.mp all).1
    rw [if_neg fits, if_neg refused]
termination_by sizeOf (item :: items)
decreasing_by
  all_goals
    subst_vars
    simp +arith

theorem readJsonFields_json (plain : style.Plain) (level : Nat) (key : String) (value : Data)
    (fields : List (String × Data)) (regular : RegularFields ((key, value) :: fields))
    (rest : List Char) (fuel levels : Nat) (seen : List (String × Data))
    (enough : 2 * (jsonText style.asciiOnly key.toList ++ ':' :: style.keyGap ++
      value.json style (level + 1) ++ jsonFields style level fields).length < fuel) :
    readJsonFields rules fuel levels seen (jsonText style.asciiOnly key.toList ++
      (':' :: style.keyGap ++ (value.json style (level + 1) ++
        (jsonFields style level fields ++ (jsonBreak style (level - 1) [] ++ '}' :: rest))))) =
      if FitFields rules.signWidth levels ((key, value) :: fields) then
        some (.record (Fields.ofList (seen.reverse ++ (key, value) :: fields)), rest)
      else none := by
  obtain ⟨fuel, rfl⟩ : ∃ less, fuel = less + 1 := ⟨fuel - 1, by omega⟩
  have closing := jsonBreak_nil_blank style (level - 1)
  have quote : isJsonBlank '"' = false := by decide
  have colon : isJsonBlank ':' = false := by decide
  have close : EndsNumber ('}' :: rest) := by simp [EndsNumber]
  simp only [List.length_append, List.length_cons] at enough
  have first := readJson_json plain (level + 1) value regular.1
    (endsNumber_jsonFields style level fields (endsNumber_blank closing close)) fuel levels
    (by omega)
  rw [plain.unescaped, jsonText, readJsonFields]
  simp only [List.cons_append, List.append_assoc, List.nil_append, skipJsonBlanks_cons quote,
    readJsonText_flatMap, skipJsonBlanks_cons colon, readJson_gap plain.keyGap, first,
    List.reverse_nil, String.ofList_toList]
  by_cases fits : value.Fits rules.signWidth levels
  · rw [if_pos fits]
    cases fields with
    | nil =>
        rw [if_pos (fitFields_cons.mpr ⟨fits, fitFields_nil⟩)]
        simp [jsonFields, skipJsonBlanks_append closing,
          skipJsonBlanks_cons (show isJsonBlank '}' = false by decide)]
    | cons next more =>
        cases next with
        | mk nextKey nextValue =>
            have comma : isJsonBlank ',' = false := by decide
            have gap := jsonBreak_blank style level plain.itemGap
            have others := readJsonFields_json plain level nextKey nextValue more regular.2 rest
              fuel levels ((key, value) :: seen) (by
                simp only [jsonFields, List.length_append, List.length_cons] at enough ⊢
                omega)
            simp only [jsonFields, List.cons_append, List.append_assoc, skipJsonBlanks_cons comma,
              readJsonFields_gap gap, fitFields_cons, fits, true_and, List.reverse_cons,
              List.nil_append] at others ⊢
            rw [others]
  · have refused : ¬FitFields rules.signWidth levels ((key, value) :: fields) := fun all =>
      fits (fitFields_cons.mp all).1
    rw [if_neg fits, if_neg refused]
termination_by sizeOf ((key, value) :: fields)
decreasing_by
  all_goals
    subst_vars
    simp +arith

end

/-- A whole text is read as the value that it was written for, if that value fits. -/
theorem ofJsonBy?_json (plain : style.Plain) (value : Data) (regular : value.Regular) :
    ofJsonBy? rules levels (value.json style 1) =
      if value.Fits rules.signWidth levels then some value else none := by
  have whole : readJson rules (2 * (value.json style 1).length + 2) levels
      (value.json style 1 ++ []) =
        if value.Fits rules.signWidth levels then some (value, []) else none :=
    readJson_json plain 1 value regular (by simp [EndsNumber]) _ levels (by omega)
  rw [List.append_nil] at whole
  rw [ofJsonBy?, whole]
  by_cases fits : value.Fits rules.signWidth levels
  · rw [if_pos fits, if_pos fits]
    rfl
  · rw [if_neg fits, if_neg fits]

end

end ConfigIndex.Data
