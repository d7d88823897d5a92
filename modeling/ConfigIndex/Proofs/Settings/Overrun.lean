import ConfigIndex.Data.Plain
import ConfigIndex.Proofs.Data.Merge
import ConfigIndex.Yaml.Read

/-!
Values that work breaks off at. Two documents whose mappings lead on together without end are not
laid over one another, and a value is not shown if something stands too deep in it or is a whole
number of too many digits.
-/

namespace ConfigIndex

/-! ### Mappings that lead on -/

namespace Yaml.Loops

def Leads (loops : Loops) : Nat → List String → Prop
  | _, [] => True
  | here, key :: rest => ∃ next, (key, next) ∈ loops.getD here [] ∧ loops.Leads next rest

/-- Some keys lead on from the top of both documents for so many steps. -/
def Share (left right : Loops) (steps : Nat) : Prop :=
  ∃ keys : List String, keys.length = steps ∧ left.Leads 0 keys ∧ right.Leads 0 keys

theorem meet_iff {left right : Loops} {steps here there : Nat} :
    left.meet right steps here there = true ↔
      ∃ keys : List String, keys.length = steps ∧ left.Leads here keys ∧
        right.Leads there keys := by
  induction steps generalizing here there with
  | zero =>
      refine iff_of_true rfl ⟨[], rfl, trivial, trivial⟩
  | succ steps ih =>
      simp only [meet, List.any_eq_true, Bool.and_eq_true, beq_iff_eq, ih]
      constructor
      · rintro ⟨⟨key, next⟩, found, ⟨_, beyond⟩, also, rfl, keys, count, leads, follows⟩
        exact ⟨key :: keys, by rw [List.length_cons, count], ⟨next, found, leads⟩,
          ⟨beyond, also, follows⟩⟩
      · rintro ⟨keys, count, leads, follows⟩
        cases keys with
        | nil => cases count
        | cons key keys =>
            obtain ⟨next, found, leads⟩ := leads
            obtain ⟨beyond, also, follows⟩ := follows
            exact ⟨(key, next), found, (key, beyond), also, rfl, keys, Nat.succ.inj count, leads,
              follows⟩

-- Two documents, each of which holds itself under the same key.
example : meet [[("index", 0)]] [[("logging", 1), ("index", 0)], []] 20 0 0 = true := by rfl

end Yaml.Loops

/-! ### Records that share levels -/

namespace Data

theorem at?_cons {fields : Fields} {name : String} {rest : List String} {found : Data} :
    (record fields).at? (name :: rest) = some found ↔
      ∃ inner, Fields.get? fields name = some inner ∧ inner.at? rest = some found := by
  rw [at?]
  exact Option.bind_eq_some_iff

theorem record_of_at? {value : Data} {keys : List String} {fields : Fields}
    (found : value.at? keys = some (.record fields)) : ∃ whole : Fields, value = .record whole := by
  cases value with
  | record whole => exact ⟨whole, rfl⟩
  | _ => cases keys <;> cases found

/-- Some keys lead to a record in both records, so many steps down. -/
def Fields.Share (base higher : Fields) (steps : Nat) : Prop :=
  ∃ (keys : List String) (lower upper : Fields), keys.length = steps ∧
    (record base).at? keys = some (.record lower) ∧ (record higher).at? keys = some (.record upper)

theorem Fields.share_succ {base higher : Fields} {steps : Nat} :
    Fields.Share base higher (steps + 1) ↔ ∃ (key : String) (lower upper : Fields),
      Fields.get? base key = some (.record lower) ∧ Fields.get? higher key = some (.record upper) ∧
        Fields.Share lower upper steps := by
  constructor
  · rintro ⟨keys, lower, upper, count, below, above⟩
    cases keys with
    | nil => cases count
    | cons key keys =>
        obtain ⟨inner, low, below⟩ := at?_cons.mp below
        obtain ⟨outer, high, above⟩ := at?_cons.mp above
        obtain ⟨under, rfl⟩ := record_of_at? below
        obtain ⟨top, rfl⟩ := record_of_at? above
        exact ⟨key, under, top, low, high, keys, lower, upper, Nat.succ.inj count, below, above⟩
  · rintro ⟨key, under, top, low, high, keys, lower, upper, count, below, above⟩
    exact ⟨key :: keys, lower, upper, by rw [List.length_cons, count],
      at?_cons.mpr ⟨_, low, below⟩, at?_cons.mpr ⟨_, high, above⟩⟩

theorem Fields.meet_iff {base higher : Fields} {steps : Nat} :
    Fields.meet steps base higher = true ↔ Fields.Share base higher steps := by
  induction steps generalizing base higher with
  | zero => exact iff_of_true rfl ⟨[], base, higher, rfl, rfl, rfl⟩
  | succ steps ih =>
      rw [Fields.share_succ, Fields.meet, List.any_eq_true]
      constructor
      · rintro ⟨⟨key, value⟩, -, shared⟩
        dsimp only at shared
        split at shared
        · rename_i lower upper low high
          exact ⟨key, lower, upper, low, high, ih.mp shared⟩
        · cases shared
      · rintro ⟨key, lower, upper, low, high, shared⟩
        refine ⟨(key, .record upper), Fields.mem_of_get? high, ?_⟩
        simp only [low, high, ih.mpr shared]

end Data

/-! ### Values that are not shown -/

namespace Data

inductive Part : Nat → Data → Data → Prop
  | whole (value : Data) : Part 0 value value
  | item {level : Nat} {part item : Data} {items : List Data} (member : item ∈ items)
      (inside : Part level part item) : Part (level + 1) part (.list items)
  | field {level : Nat} {part : Data} {field : String × Data} {fields : List (String × Data)}
      (member : field ∈ fields) (inside : Part level part field.2) :
      Part (level + 1) part (.record fields)

/-- Something stands too deep in a value, or is a whole number of too many digits. -/
def Unshowable (calls : Nat) (value : Data) : Prop :=
  ∃ level part, Part level part value ∧
    (calls ≤ level ∨ ∃ whole : Int, part = .int whole ∧ tenTo maxShownDigits ≤ whole.natAbs)

theorem unshowable_zero (value : Data) : value.Unshowable 0 :=
  ⟨0, value, .whole value, Or.inl (Nat.le_refl 0)⟩

theorem unshowable_int {calls : Nat} {value : Int} :
    (int value).Unshowable (calls + 1) ↔ tenTo maxShownDigits ≤ value.natAbs := by
  constructor
  · rintro ⟨level, part, inside, deep | ⟨whole, rfl, long⟩⟩
    · cases inside
      omega
    · cases inside
      exact long
  · exact fun long => ⟨0, .int value, .whole _, Or.inr ⟨value, rfl, long⟩⟩

theorem unshowable_list {calls : Nat} {items : List Data} :
    (list items).Unshowable (calls + 1) ↔ ∃ item ∈ items, item.Unshowable calls := by
  constructor
  · rintro ⟨level, part, inside, cause⟩
    cases inside with
    | whole =>
        rcases cause with deep | ⟨whole, same, -⟩
        · omega
        · cases same
    | item member inside =>
        exact ⟨_, member, _, part, inside, cause.imp_left Nat.le_of_succ_le_succ⟩
  · rintro ⟨item, member, level, part, inside, cause⟩
    exact ⟨level + 1, part, .item member inside, cause.imp_left Nat.succ_le_succ⟩

theorem unshowable_record {calls : Nat} {fields : List (String × Data)} :
    (record fields).Unshowable (calls + 1) ↔ ∃ field ∈ fields, field.2.Unshowable calls := by
  constructor
  · rintro ⟨level, part, inside, cause⟩
    cases inside with
    | whole =>
        rcases cause with deep | ⟨whole, same, -⟩
        · omega
        · cases same
    | field member inside =>
        exact ⟨_, member, _, part, inside, cause.imp_left Nat.le_of_succ_le_succ⟩
  · rintro ⟨field, member, level, part, inside, cause⟩
    exact ⟨level + 1, part, .field member inside, cause.imp_left Nat.succ_le_succ⟩

theorem unshownItem?_eq_none {calls : Nat} {items : List Data} :
    unshownItem? calls items = none ↔ ∀ item ∈ items, item.unshown? calls = none := by
  induction items with
  | nil => simp [unshownItem?]
  | cons item rest ih => simp [unshownItem?, ih]

theorem unshownField?_eq_none {calls : Nat} {fields : List (String × Data)} :
    unshownField? calls fields = none ↔ ∀ field ∈ fields, field.2.unshown? calls = none := by
  induction fields with
  | nil => simp [unshownField?]
  | cons field rest ih => simp [unshownField?, ih]

-- By induction on the calls that are left, since each level of the value takes one of them.
theorem unshown?_eq_none {calls : Nat} {value : Data} :
    value.unshown? calls = none ↔ ¬value.Unshowable calls := by
  induction calls generalizing value with
  | zero =>
      refine iff_of_false ?_ fun shown => shown (unshowable_zero value)
      simp [unshown?]
  | succ calls ih =>
      cases value with
      | int value =>
          rw [unshowable_int, unshown?]
          simp
      | list items =>
          rw [unshowable_list, unshown?, unshownItem?_eq_none]
          simp [ih]
      | record fields =>
          rw [unshowable_record, unshown?, unshownField?_eq_none]
          simp [ih]
      | null | bool value | float value | text value | unpaired value =>
          refine iff_of_true (by simp [unshown?]) ?_
          rintro ⟨level, part, inside, deep | ⟨whole, rfl, -⟩⟩
          · cases inside
            omega
          · cases inside

end Data

end ConfigIndex
