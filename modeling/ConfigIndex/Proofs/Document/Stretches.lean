import ConfigIndex.Proofs.Document.Completeness
import ConfigIndex.Proofs.Document.Words

/-!
Taking a document apart is splitting it into stretches, as far as there are any.
-/

namespace ConfigIndex.Document

theorem pattern_consumes (kind : Piece) : kind.pattern.Consumes := by
  have one (accepts : Char → Bool) := Text.Pattern.consumes_one accepts
  cases kind with
  | gap => exact (one _).seq _
  | comment => exact (((one _).seq _).seq _).either ((((one _).seq _).seq _).either
      (((one _).seq _).seq _))
  | word terminal =>
      cases terminal with
      | ident | string => exact (one _).seq _
      | heredoc => exact ((one _).seq _).seq _
      | number => exact (((one _).seq _).either (((one _).seq _).seq _)).behind _
      | _ => exact (one _).seq _

theorem exists_splits (position : Position) (text : List Char) :
    ∃ stretches final left, Splits position text stretches final left ∧ piece? left = none := by
  generalize size : text.length = length
  induction length using Nat.strongRecOn generalizing position text with
  | ind length ih =>
      cases found : piece? text with
      | none => exact ⟨[], position, text, Splits.nil, found⟩
      | some pair =>
          obtain ⟨kind, word⟩ := pair
          have first := piece?_sound found
          obtain ⟨rest, rfl⟩ := Text.Pattern.first?_splits first
          have filled := List.length_pos_iff.mpr ((pattern_consumes kind).first?_ne_nil first)
          simp only [List.length_append] at size
          obtain ⟨stretches, final, left, splits, stuck⟩ :=
            ih rest.length (by omega) (position.advanceBy word) rest rfl
          exact ⟨_, final, left, Splits.more first splits, stuck⟩

theorem scanFrom_skip (fresh : Bool) (word : List Char) : ∀ (done : Scan) (rest : List Char),
    scanFrom word.length fresh done (word ++ rest) =
      scanFrom 0 fresh { done with final := done.final.advanceBy word } rest := by
  induction word with
  | nil => exact fun done rest => rfl
  | cons c word ih =>
      intro done rest
      rw [List.length_cons, List.cons_append, scanFrom, ih]
      rfl

/-- Whether only gaps stand behind a stretch on its last line, and so before what follows it;
`fresh` tells that only gaps stand before the stretch. -/
def Stretch.leaves (fresh : Bool) (stretch : Stretch) : Bool :=
  match stretch.kind with
  | .gap => fresh || stretch.text.contains '\n'
  | _ => false

def ownComments (fresh : Bool) : List Stretch → List Comment
  | [] => []
  | stretch :: rest =>
    (if fresh then stretch.comment?.toList else []) ++ ownComments (stretch.leaves fresh) rest

def Scan.behind (done : Scan) (fresh : Bool) (stretch : Stretch) : Scan where
  lexemes := stretch.lexeme?.toList ++ done.lexemes
  comments := stretch.comment?.toList ++ done.comments
  ownLine := (if fresh then stretch.comment?.toList else []) ++ done.ownLine
  stray := done.stray
  final := done.final.advanceBy stretch.text

theorem scanFrom_stretch {kind : Piece} {word rest : List Char}
    (first : kind.pattern.first? (word ++ rest) = some word) (fresh : Bool) (done : Scan) :
    scanFrom 0 fresh done (word ++ rest) =
      scanFrom 0 (Stretch.leaves fresh ⟨kind, word, done.final⟩)
        (done.behind fresh ⟨kind, word, done.final⟩) rest := by
  have found := piece?_complete first
  have filled := (pattern_consumes kind).first?_ne_nil first
  cases word with
  | nil => exact absurd rfl filled
  | cons c word =>
      rw [List.cons_append] at found ⊢
      rw [scanFrom, found]
      cases kind with
      | gap => cases fresh <;> exact scanFrom_skip _ word _ rest
      | comment => cases fresh <;> exact scanFrom_skip _ word _ rest
      | word terminal => cases fresh <;> exact scanFrom_skip _ word _ rest

theorem Splits.scanFrom {position final : Position} {text left : List Char}
    {stretches : List Stretch} (splits : Splits position text stretches final left)
    (stuck : piece? left = none) (fresh : Bool) (done : Scan) (same : done.final = position) :
    Document.scanFrom 0 fresh done text =
      ⟨done.lexemes.reverse ++ stretches.filterMap Stretch.lexeme?,
        done.comments.reverse ++ stretches.filterMap Stretch.comment?,
        done.ownLine.reverse ++ ownComments fresh stretches, left.head?, final⟩ := by
  induction splits generalizing fresh done with
  | @nil position text =>
      subst same
      cases text with
      | nil => simp [Document.scanFrom, ownComments]
      | cons c rest => simp [Document.scanFrom, ownComments, stuck]
  | @more position kind word rest stretches final left first _ ih =>
      subst same
      rw [scanFrom_stretch first fresh done, ih stuck _ _ rfl]
      cases kind with
      | gap => cases fresh <;>
          simp [Scan.behind, List.filterMap_cons, Stretch.lexeme?, Stretch.comment?, ownComments]
      | comment => cases fresh <;>
          simp [Scan.behind, List.filterMap_cons, Stretch.lexeme?, Stretch.comment?, ownComments]
      | word terminal => cases fresh <;>
          simp [Scan.behind, List.filterMap_cons, Stretch.lexeme?, Stretch.comment?, ownComments]

theorem Splits.scan {text left : List Char} {stretches : List Stretch} {final : Position}
    (splits : Splits .start text stretches final left) (stuck : piece? left = none) :
    Document.scan text = ⟨stretches.filterMap Stretch.lexeme?,
      stretches.filterMap Stretch.comment?, ownComments true stretches, left.head?, final⟩ :=
  splits.scanFrom stuck true ⟨[], [], [], none, .start⟩ rfl

theorem scan_items_eq_ok_iff {text : List Char} {items : List Item} :
    (scan text).items = .ok items ↔
      ∃ stretches final, Splits .start text stretches final [] ∧
        Derives (stretches.filterMap Stretch.lexeme?) (.items items) [] := by
  constructor
  · intro accepted
    obtain ⟨stretches, final, left, splits, stuck⟩ := exists_splits .start text
    have scanned := splits.scan stuck
    simp only [Scan.items, scanned] at accepted
    split at accepted
    · cases accepted
    · rename_i stage run
      split at accepted
      · cases accepted
      · rename_i whole
        have empty : left = [] := List.head?_eq_none_iff.mp whole
        subst empty
        split at accepted
        · rename_i finished
          cases accepted
          exact ⟨stretches, final, splits, run_eq_ok_iff.mp ⟨stage, run, finished⟩⟩
        · cases accepted
  · rintro ⟨stretches, final, splits, derives⟩
    have scanned := splits.scan rfl
    obtain ⟨stage, run, finished⟩ := run_eq_ok_iff.mpr derives
    simp [Scan.items, scanned, run, finished]

end ConfigIndex.Document
