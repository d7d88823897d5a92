import ConfigIndex.Data.Issue

/-!
Whether two values are the same can be computed.
-/

namespace ConfigIndex.Data

mutual

def beq : Data → Data → Bool
  | .null, .null => true
  | .bool left, .bool right => left == right
  | .int left, .int right => left == right
  | .float left, .float right => left == right
  | .text left, .text right => left == right
  | .unpaired left, .unpaired right => left == right
  | .list left, .list right => beqItems left right
  | .record left, .record right => beqFields left right
  | _, _ => false

def beqItems : List Data → List Data → Bool
  | [], [] => true
  | left :: lefts, right :: rights => left.beq right && beqItems lefts rights
  | _, _ => false

def beqFields : List (String × Data) → List (String × Data) → Bool
  | [], [] => true
  | (name, left) :: lefts, (other, right) :: rights =>
    name == other && left.beq right && beqFields lefts rights
  | _, _ => false

end

mutual

theorem beq_iff (left right : Data) : left.beq right = true ↔ left = right := by
  cases left <;> cases right <;> simp [beq]
  case list.list items others => exact beqItems_iff items others
  case record.record fields others => exact beqFields_iff fields others

theorem beqItems_iff (lefts rights : List Data) :
    beqItems lefts rights = true ↔ lefts = rights := by
  cases lefts with
  | nil => cases rights <;> simp [beqItems]
  | cons left lefts =>
      cases rights with
      | nil => simp [beqItems]
      | cons right rights => simp [beqItems, beq_iff left right, beqItems_iff lefts rights]

theorem beqFields_iff (lefts rights : List (String × Data)) :
    beqFields lefts rights = true ↔ lefts = rights := by
  cases lefts with
  | nil => cases rights <;> simp [beqFields]
  | cons field lefts =>
      obtain ⟨name, left⟩ := field
      cases rights with
      | nil => simp [beqFields]
      | cons other rights =>
          obtain ⟨key, right⟩ := other
          simp [beqFields, beq_iff left right, beqFields_iff lefts rights, and_assoc]

end

instance : DecidableEq Data := fun left right => decidable_of_iff _ (beq_iff left right)

deriving instance DecidableEq for Issue

end ConfigIndex.Data
