import ConfigIndex.Position

/-!
Positions as counts over the text before them: bytes, lines, and the characters of the last line.
-/

namespace ConfigIndex

namespace Position

/-- Line and column of a position are those of the character at an index of a text. -/
def Stands (position : Position) (text : List Char) (index : Nat) : Prop :=
  index ≤ text.length ∧ position.line = (text.take index).count '\n' + 1 ∧
    position.column = ((text.take index).reverse.takeWhile (· ≠ '\n')).length + 1

/-- So is its offset, which counts bytes. -/
def Denotes (position : Position) (text : List Char) (index : Nat) : Prop :=
  position.Stands text index ∧
    position.offset = (String.ofList (text.take index)).utf8ByteSize

theorem utf8ByteSize_snoc (text : List Char) (c : Char) :
    (String.ofList (text ++ [c])).utf8ByteSize =
      (String.ofList text).utf8ByteSize + c.utf8Size := by
  rw [String.ofList_append, String.utf8ByteSize_append, ← String.singleton_eq_ofList,
    String.utf8ByteSize_singleton]

theorem start_advanceBy (seen : List Char) :
    (start.advanceBy seen.reverse).offset = (String.ofList seen.reverse).utf8ByteSize ∧
      (start.advanceBy seen.reverse).line = seen.count '\n' + 1 ∧
      (start.advanceBy seen.reverse).column = (seen.takeWhile (· ≠ '\n')).length + 1 := by
  induction seen with
  | nil => exact ⟨rfl, rfl, rfl⟩
  | cons c seen ih =>
      obtain ⟨offset, line, column⟩ := ih
      rw [List.reverse_cons, advanceBy_append, utf8ByteSize_snoc]
      by_cases newline : c = '\n'
      · simp [advance, newline, offset, line]
      · simp [advance, newline, offset, line, column]

/-- The place behind a text counts what stands in it. -/
theorem advanceBy_counts (front : List Char) :
    (start.advanceBy front).offset = (String.ofList front).utf8ByteSize ∧
      (start.advanceBy front).line = front.count '\n' + 1 ∧
      (start.advanceBy front).column = (front.reverse.takeWhile (· ≠ '\n')).length + 1 := by
  obtain ⟨offset, line, column⟩ := start_advanceBy front.reverse
  rw [List.reverse_reverse] at offset line column
  exact ⟨offset, by rw [line, List.count_reverse], column⟩

theorem denotes_advanceBy (front rest : List Char) :
    (start.advanceBy front).Denotes (front ++ rest) front.length := by
  obtain ⟨offset, line, column⟩ := advanceBy_counts front
  unfold Denotes Stands
  rw [List.take_left]
  exact ⟨⟨by simp, line, column⟩, offset⟩

theorem utf8ByteSize_ascii {text : List Char} (ascii : ∀ c ∈ text, c.toNat < 128) :
    (String.ofList text).utf8ByteSize = text.length := by
  induction text with
  | nil => rfl
  | cons c text ih =>
      have small : c.toNat < 128 := ascii c (by simp)
      have single : c.utf8Size = 1 :=
        Char.utf8Size_eq_one_iff.mpr (UInt32.le_iff_toNat_le.mpr (by
          have same : c.val.toNat = c.toNat := rfl
          simp only [same, UInt32.reduceToNat]
          omega))
      have rest := ih fun d member => ascii d (by simp [member])
      rw [show c :: text = [c] ++ text from rfl, String.ofList_append,
        String.utf8ByteSize_append, ← String.singleton_eq_ofList, String.utf8ByteSize_singleton,
        single, rest]
      simp [Nat.add_comm]

/-- In a text of single bytes an offset is an index. -/
theorem Denotes.ascii {position : Position} {text : List Char} {index : Nat}
    (denotes : position.Denotes text index) (ascii : ∀ c ∈ text, c.toNat < 128) :
    position.offset = index := by
  obtain ⟨⟨inside, _⟩, offset⟩ := denotes
  rw [offset, utf8ByteSize_ascii fun c member => ascii c (List.mem_of_mem_take member)]
  simp [inside]

def Occurs (base : Position) (text : List Char) (position : Position) (word : List Char) : Prop :=
  ∃ front rest, text = front ++ (word ++ rest) ∧ position = base.advanceBy front

theorem Occurs.here (base : Position) (word rest : List Char) :
    Occurs base (word ++ rest) base word := ⟨[], rest, rfl, rfl⟩

theorem Occurs.behind {base position : Position} {front rest word : List Char}
    (occurs : Occurs (base.advanceBy front) rest position word) :
    Occurs base (front ++ rest) position word := by
  obtain ⟨before, after, rfl, rfl⟩ := occurs
  refine ⟨front ++ before, after, ?_, ?_⟩
  · rw [List.append_assoc]
  · rw [advanceBy_append]

theorem Occurs.cons {base position : Position} {c : Char} {rest word : List Char}
    (occurs : Occurs (base.advance c) rest position word) :
    Occurs base (c :: rest) position word := by
  obtain ⟨before, after, rfl, rfl⟩ := occurs
  exact ⟨c :: before, after, rfl, rfl⟩

theorem Occurs.denotes {position : Position} {text word : List Char}
    (occurs : Occurs .start text position word) :
    ∃ index, position.Denotes text index ∧ word <+: text.drop index := by
  obtain ⟨front, rest, rfl, rfl⟩ := occurs
  refine ⟨front.length, denotes_advanceBy front (word ++ rest), ?_⟩
  rw [List.drop_left]
  exact List.prefix_append word rest

theorem offset_lt_advance (position : Position) (c : Char) :
    position.offset < (position.advance c).offset := by
  have positive : (0 : Int) < c.utf8Size := Int.ofNat_lt.mpr c.utf8Size_pos
  unfold advance
  split
  · exact Int.lt_add_of_pos_right _ positive
  · exact Int.lt_add_of_pos_right _ positive

theorem offset_le_advanceBy (position : Position) (text : List Char) :
    position.offset ≤ (position.advanceBy text).offset := by
  induction text generalizing position with
  | nil => exact Int.le_refl _
  | cons c rest ih => exact Int.le_trans (Int.le_of_lt (position.offset_lt_advance c)) (ih _)

theorem offset_lt_advanceBy (position : Position) {text : List Char} (filled : text ≠ []) :
    position.offset < (position.advanceBy text).offset := by
  obtain ⟨c, rest, rfl⟩ := List.exists_cons_of_ne_nil filled
  exact Int.lt_of_lt_of_le (position.offset_lt_advance c) (offset_le_advanceBy _ rest)

def Before (first second : Position) : Prop :=
  first.line < second.line ∨ first.line = second.line ∧ first.column < second.column

end Position

namespace Point

def Before (first second : Point) : Prop :=
  first.line < second.line ∨ first.line = second.line ∧ first.column < second.column

theorem Before.trans {first second third : Point} (before : first.Before second)
    (behind : second.Before third) : first.Before third := by
  unfold Before at before behind ⊢
  omega

theorem Before.irrefl {point : Point} : ¬point.Before point := by
  unfold Before
  omega

theorem before_advance (point : Point) (c : Char) : point.Before (point.advance c) := by
  unfold Before advance
  split
  · left
    exact Int.lt_succ point.line
  · right
    exact ⟨rfl, Int.lt_succ point.column⟩

theorem before_advanceBy {text : List Char} (filled : text ≠ []) :
    ∀ point : Point, point.Before (point.advanceBy text) := by
  induction text with
  | nil => exact absurd rfl filled
  | cons c rest ih =>
      intro point
      rw [advanceBy_cons]
      cases rest with
      | nil => exact point.before_advance c
      | cons next rest => exact (point.before_advance c).trans (ih (by simp) _)

/-- The places of a text tell its front ends apart. -/
theorem advanceBy_injective {front back other more : List Char} {point : Point}
    (same : front ++ back = other ++ more)
    (place : point.advanceBy front = point.advanceBy other) : front = other := by
  have longer : ∀ {left right : List Char}, left <+: right →
      point.advanceBy left = point.advanceBy right → left = right := by
    rintro left right ⟨between, rfl⟩ equal
    rw [advanceBy_append] at equal
    cases between with
    | nil => exact (List.append_nil left).symm
    | cons c between =>
        have before := before_advanceBy (List.cons_ne_nil c between) (point.advanceBy left)
        rw [← equal] at before
        exact absurd before Before.irrefl
  rcases List.prefix_or_prefix_of_prefix (List.prefix_append front back)
      (same ▸ List.prefix_append other more) with first | second
  · exact longer first place
  · exact (longer second place.symm).symm

end Point

namespace Position

theorem toPoint_advanceBy (text : List Char) : ∀ position : Position,
    (position.advanceBy text).toPoint = position.toPoint.advanceBy text := by
  induction text with
  | nil => exact fun position => rfl
  | cons c rest ih =>
      intro position
      have step : (position.advance c).toPoint = position.toPoint.advance c := by
        unfold advance Point.advance
        split
        · rfl
        · rfl
      rw [advanceBy_cons, Point.advanceBy_cons, ih, step]

theorem advanceBy_injective {front back other more : List Char} {position : Position}
    (same : front ++ back = other ++ more)
    (place : position.advanceBy front = position.advanceBy other) : front = other := by
  apply Point.advanceBy_injective same
  rw [← toPoint_advanceBy, ← toPoint_advanceBy, place]

/-- The characters of a text stand one behind the other. -/
theorem Stands.before {first second : Position} {text : List Char} {index later : Nat}
    (stands : first.Stands text index) (behind : second.Stands text later)
    (less : index < later) : first.Before second := by
  obtain ⟨-, line, column⟩ := stands
  obtain ⟨inside, nextLine, nextColumn⟩ := behind
  obtain ⟨-, firstLine, firstColumn⟩ := advanceBy_counts (text.take index)
  obtain ⟨-, secondLine, secondColumn⟩ := advanceBy_counts (text.take later)
  have cut : text.take later = text.take index ++ (text.take later).drop index := by
    have front : text.take index = (text.take later).take index := by
      rw [List.take_take, Nat.min_eq_left (Nat.le_of_lt less)]
    rw [front, List.take_append_drop]
  have filled : (text.take later).drop index ≠ [] := by
    apply List.ne_nil_of_length_pos
    rw [List.length_drop, List.length_take, Nat.min_eq_left inside]
    omega
  have moved := Point.before_advanceBy filled (start.advanceBy (text.take index)).toPoint
  rw [← toPoint_advanceBy, ← advanceBy_append, ← cut] at moved
  simp only [Point.Before, toPoint] at moved
  unfold Before
  omega

/-- A place denotes one index at most. -/
theorem Stands.unique {position : Position} {text : List Char} {index other : Nat}
    (stands : position.Stands text index) (again : position.Stands text other) :
    index = other := by
  have apart : ¬position.Before position := by
    unfold Before
    omega
  rcases Nat.lt_trichotomy index other with less | same | more
  · exact absurd (stands.before again less) apart
  · exact same
  · exact absurd (again.before stands more) apart

theorem Stands.front {position : Position} {front left : List Char} {index : Nat}
    (stands : position.Stands (front ++ left) index)
    (place : position.Stands (front ++ left) front.length) :
    (front ++ left).take index = front := by
  rw [stands.unique place, List.take_left]

theorem line_advanceBy (front : List Char) :
    (start.advanceBy front).line = front.count '\n' + 1 := (advanceBy_counts front).2.1

end Position

theorem filed_stands {source front : List Char} {position : Position} {index : Nat}
    (stands : (position.advanceBy front).Stands source index) (path : String) :
    ((position.toPoint.advanceBy front).filed path).Stands source index := by
  rw [← Position.toPoint_advanceBy]
  exact stands

end ConfigIndex
