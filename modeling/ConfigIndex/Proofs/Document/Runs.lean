import ConfigIndex.Proofs.Document.Lead
import ConfigIndex.Proofs.Document.Tokens
import ConfigIndex.Proofs.Document.Cut
import Mathlib.Data.List.Induction
import Mathlib.Data.List.Sort

/-!
Which comments are the lead of an item: the longest run of comments on lines of their own that ends
right above it. Such comments never share the line that they end on, so a line tells which one of
them ends there.
-/

namespace ConfigIndex.Document

open Text (Pattern)

def White (front : List Char) : Prop :=
  ∀ c ∈ front.reverse.takeWhile (· ≠ '\n'), Text.isBlank c = true

def Alone (text : List Char) (comment : Comment) : Prop :=
  ∃ front back, text = front ++ back ∧ comment.position = .advanceBy .start front ∧ White front

/-- Some of the comments of a text, in its order, each alone on its line so far, and right above
the next one, and the last one right above the line `bottom`. -/
structure Run (text : List Char) (comments : List Comment) (bottom : Int) (run : List Comment) :
    Prop where
  listed : run.Sublist comments
  alone : ∀ comment ∈ run, Alone text comment
  stacked : Stacked bottom run

/-! ### White space before a comment -/

def blanks : List Char :=
  (List.range' 9 5 ++ List.range' 28 5 ++ [0x85, 0xa0, 0x1680] ++ List.range' 0x2000 11 ++
    [0x2028, 0x2029, 0x202f, 0x205f, 0x3000]).map Char.ofNat

theorem mem_blanks {c : Char} (blank : Text.isBlank c = true) : c ∈ blanks := by
  refine List.mem_map.mpr ⟨c.toNat, ?_, Char.ofNat_toNat c⟩
  simp only [Text.isBlank, Bool.or_eq_true, Bool.and_eq_true, decide_eq_true_eq] at blank
  simp only [List.mem_append, List.mem_range'_1, List.mem_cons, List.not_mem_nil, or_false]
  omega

theorem not_isBlank {accepts : Char → Bool} (avoided : blanks.any accepts = false) {c : Char}
    (accepted : accepts c = true) : Text.isBlank c = false := by
  apply Bool.eq_false_iff.mpr
  intro blank
  have found : blanks.any accepts = true := List.any_eq_true.mpr ⟨c, mem_blanks blank, accepted⟩
  rw [found] at avoided
  cases avoided

theorem isBlank_of_isGap {c : Char} (gap : isGap c = true) : Text.isBlank c = true := by
  simp only [isGap, Bool.or_eq_true, decide_eq_true_eq] at gap
  rcases gap with (((rfl | rfl) | rfl) | rfl) | rfl <;> decide

theorem White.of_append {front word : List Char} (white : White (front ++ word))
    (inLine : '\n' ∉ word) : White front ∧ ∀ c ∈ word, Text.isBlank c = true := by
  have through : ∀ c ∈ word.reverse, decide (c ≠ '\n') = true := by
    intro c member
    simpa using fun same : c = '\n' => inLine (same ▸ List.mem_reverse.mp member)
  rw [White, List.reverse_append, List.takeWhile_append_of_pos through] at white
  constructor
  · exact fun c member => white c (List.mem_append_right _ member)
  · exact fun c member => white c (List.mem_append_left _ (List.mem_reverse.mpr member))

def Solid (word : List Char) : Prop :=
  ∃ front c back, word = front ++ c :: back ∧ Text.isBlank c = false ∧ '\n' ∉ back

theorem Solid.not_white {word : List Char} (solid : Solid word) (front : List Char) :
    ¬White (front ++ word) := by
  obtain ⟨before, c, back, rfl, apart, last⟩ := solid
  intro white
  have newline : '\n' ≠ c := by
    rintro rfl
    cases apart
  rw [← List.append_assoc] at white
  have blank := (white.of_append (by simp [newline, last])).2 c List.mem_cons_self
  rw [apart] at blank
  cases blank

theorem solid_of_avoids {pattern : Pattern} (avoided : pattern.avoids blanks = true)
    {text word : List Char} (filled : word ≠ []) (first : pattern.first? text = some word) :
    Solid word := by
  have apart := (Pattern.yields_of_avoids pattern avoided).first? first
  obtain ⟨c, rest, rfl⟩ := List.exists_cons_of_ne_nil filled
  refine ⟨[], c, rest, rfl, ?_, ?_⟩
  · apply Bool.eq_false_iff.mpr
    exact fun blank => apart c (mem_blanks blank) List.mem_cons_self
  · exact fun member => apart '\n' (by decide) (List.mem_cons_of_mem c member)

theorem closeHeredoc_ends {tag seen text word : List Char} {fresh : Bool}
    (closed : closeHeredoc tag fresh seen text = some word) : ∃ front, word = front ++ tag := by
  induction text generalizing fresh seen with
  | nil => cases closed
  | cons c rest ih =>
      rw [closeHeredoc] at closed
      split at closed
      · rename_i line found
        cases fresh with
        | false => cases found
        | true =>
            obtain ⟨-, -, -, indent, rfl, -⟩ := closingLine?_eq_some found
            cases closed
            exact ⟨seen.reverse ++ indent, by simp⟩
      · exact ih closed

theorem Piece.solid {kind : Piece} {text word : List Char} (other : kind ≠ .gap)
    (first : kind.pattern.first? text = some word) : Solid word := by
  have filled := (pattern_consumes kind).first?_ne_nil first
  cases kind with
  | gap => exact absurd rfl other
  | comment =>
      obtain ⟨shape, mark, listed, member⟩ := comment_shape first
      rcases shape with inLine | ⟨front, rfl⟩
      · obtain ⟨front, back, rfl⟩ := List.append_of_mem member
        refine ⟨front, mark, back, rfl, ?_, fun newline => inLine '\n' (by simp [newline]) rfl⟩
        simp only [List.mem_cons, List.not_mem_nil, or_false] at listed
        rcases listed with rfl | rfl <;> decide
      · exact ⟨front ++ ['*'], '/', [], by simp, by decide, List.not_mem_nil⟩
  | word terminal =>
      cases terminal with
      | string =>
          obtain ⟨body, rfl, -⟩ := stringPattern_yields.first? first
          exact ⟨'"' :: body, '"', [], rfl, by decide, List.not_mem_nil⟩
      | heredoc =>
          have found := (heredocPattern_first? text).symm.trans first
          rw [heredoc?] at found
          split at found
          · cases found
          · rename_i opening tag opened
            obtain ⟨-, -, -, -, t, more, rfl, start, inside⟩ := openingLine?_eq_some opened
            obtain ⟨front, rfl⟩ := closeHeredoc_ends found
            refine ⟨front, t, more, rfl, not_isBlank (by decide) start, ?_⟩
            exact fun newline => inside (List.mem_cons_of_mem t newline)
      | _ => exact solid_of_avoids (by decide) filled first

/-! ### The order of comments -/

theorem alone_iff {front back : List Char} {comment : Comment}
    (place : comment.position = .advanceBy .start front) :
    Alone (front ++ back) comment ↔ White front := by
  constructor
  · rintro ⟨other, more, same, again, white⟩
    rwa [Position.advanceBy_injective same (place.symm.trans again)]
  · exact fun white => ⟨front, back, rfl, place, white⟩

theorem White.leaves {front : List Char} {fresh : Bool} {stretch : Stretch} {rest : List Char}
    (before : White front → fresh = true)
    (first : stretch.kind.pattern.first? (stretch.text ++ rest) = some stretch.text)
    (white : White (front ++ stretch.text)) : stretch.leaves fresh = true := by
  unfold Stretch.leaves
  split
  · by_cases newline : '\n' ∈ stretch.text
    · simp [newline]
    · simp [before (white.of_append newline).1]
  · rename_i other
    exact absurd white ((Piece.solid other first).not_white front)

theorem comments_cons (position : Position) (word : List Char) (stretches : List Stretch) :
    ((⟨.comment, word, position⟩ : Stretch) :: stretches).filterMap Stretch.comment? =
      commentAt position word :: stretches.filterMap Stretch.comment? := rfl

/-- Comments that are alone are among those that the scan takes for alone, in their order. -/
theorem Splits.sublist_ownComments {position final : Position} {text left : List Char}
    {stretches : List Stretch} (splits : Splits position text stretches final left) :
    ∀ {front : List Char} {fresh : Bool} {run : List Comment},
      position = .advanceBy .start front → (White front → fresh = true) →
      run.Sublist (stretches.filterMap Stretch.comment?) →
      (∀ comment ∈ run, Alone (front ++ text) comment) →
        run.Sublist (ownComments fresh stretches) := by
  induction splits with
  | nil => exact fun _ _ listed _ => listed
  | @more position kind word rest stretches final left first _ ih =>
      intro front fresh run place before listed alone
      have next : position.advanceBy word = .advanceBy .start (front ++ word) := by
        rw [Position.advanceBy_append, place]
      have leaves : White (front ++ word) → Stretch.leaves fresh ⟨kind, word, position⟩ = true :=
        @White.leaves _ _ ⟨kind, word, position⟩ _ before first
      rw [← List.append_assoc] at alone
      cases kind with
      | comment =>
          rw [comments_cons] at listed
          cases listed with
          | cons _ listed => exact (ih next leaves listed alone).trans (by simp [ownComments])
          | cons_cons _ listed =>
              have here := alone _ List.mem_cons_self
              rw [List.append_assoc, alone_iff place] at here
              rw [ownComments, if_pos (before here)]
              exact (ih next leaves listed fun comment member =>
                alone comment (List.mem_cons_of_mem _ member)).cons_cons _
      | _ =>
          rw [List.filterMap_cons_none rfl] at listed
          exact (ih next leaves listed alone).trans (by simp [ownComments])

theorem line_le_advanceBy (text : List Char) : ∀ position : Position,
    position.line ≤ (position.advanceBy text).line := by
  induction text with
  | nil => exact fun position => Int.le_refl _
  | cons c rest ih =>
      intro position
      have step : position.line ≤ (position.advance c).line := by
        unfold Position.advance
        split
        · exact Int.le_of_lt (Int.lt_succ _)
        · exact Int.le_refl _
      exact step.trans (ih _)

theorem line_lt_advanceBy {text : List Char} (newline : '\n' ∈ text) (position : Position) :
    position.line < (position.advanceBy text).line := by
  obtain ⟨front, back, rfl⟩ := List.append_of_mem newline
  rw [Position.advanceBy_append, Position.advanceBy_cons]
  have before := line_le_advanceBy front position
  have behind := line_le_advanceBy back ((position.advanceBy front).advance '\n')
  have step : ((position.advanceBy front).advance '\n').line =
      (position.advanceBy front).line + 1 := by simp [Position.advance]
  omega

/-- Comments that are alone start on the line of a place behind which they stand, if only gaps stand
in front of it there, or further down. -/
theorem Splits.ownComments_below {position final : Position} {text left : List Char}
    {stretches : List Stretch} (splits : Splits position text stretches final left) :
    ∀ {fresh : Bool}, ∀ comment ∈ ownComments fresh stretches,
      position.line ≤ comment.position.line ∧
        (fresh = false → position.line < comment.position.line) := by
  induction splits with
  | nil => exact fun _ member => absurd member List.not_mem_nil
  | @more position kind word rest stretches final left first _ ih =>
      intro fresh comment member
      have forward := line_le_advanceBy word position
      rcases List.mem_append.mp member with here | later
      · cases fresh with
        | false => cases here
        | true =>
            cases kind with
            | comment =>
                cases List.mem_singleton.mp here
                exact ⟨Int.le_refl _, nofun⟩
            | _ => cases here
      · obtain ⟨least, strict⟩ := ih comment later
        refine ⟨forward.trans least, fun stale => ?_⟩
        cases leaves : Stretch.leaves fresh ⟨kind, word, position⟩ with
        | false => exact forward.trans_lt (strict leaves)
        | true =>
            have newline : '\n' ∈ word := by
              cases kind with
              | gap => simpa [Stretch.leaves, stale] using leaves
              | _ => cases leaves
            exact (line_lt_advanceBy newline position).trans_le least

theorem lines_of_comment? {stretch : Stretch} {comment : Comment}
    (read : stretch.comment? = some comment) : comment.position.line ≤ comment.endLine := by
  unfold Stretch.comment? at read
  split at read
  · rename_i text position
    cases read
    exact line_le_advanceBy text position
  · cases read

/-- A comment that is alone ends further down than any comment in front of it. -/
theorem Splits.comments_pairwise {position final : Position} {text left : List Char}
    {stretches : List Stretch} (splits : Splits position text stretches final left) :
    ∀ {front : List Char}, position = .advanceBy .start front →
      (stretches.filterMap Stretch.comment?).Pairwise fun first second =>
        Alone (front ++ text) second → first.endLine < second.endLine := by
  induction splits with
  | nil => exact fun _ => List.Pairwise.nil
  | @more position kind word rest stretches final left first behind ih =>
      intro front place
      have next : position.advanceBy word = .advanceBy .start (front ++ word) := by
        rw [Position.advanceBy_append, place]
      have later := ih next
      rw [List.append_assoc] at later
      cases kind with
      | comment =>
          rw [comments_cons]
          refine List.pairwise_cons.mpr ⟨fun comment member alone => ?_, later⟩
          -- Behind this comment its line is not white, so what is alone there is on a later line.
          have stale : White (front ++ word) → false = true := fun white =>
            absurd white ((Piece.solid (by decide) first).not_white front)
          rw [← List.append_assoc] at alone
          have own := behind.sublist_ownComments next stale (List.singleton_sublist.mpr member)
            (List.forall_mem_singleton.mpr alone)
          have below := (behind.ownComments_below comment (List.singleton_sublist.mp own)).2 rfl
          obtain ⟨stretch, -, read⟩ := List.mem_filterMap.mp member
          exact below.trans_le (lines_of_comment? read)
      | _ =>
          rw [List.filterMap_cons_none rfl]
          exact later

/-! ### Runs right above a line -/

section

variable {comments run : List Comment} {bottom : Int}

def Descends (comments : List Comment) : Prop :=
  comments.Pairwise fun first second => first.endLine < second.endLine

theorem Descends.unique (descends : Descends comments) {first second : Comment}
    (one : first ∈ comments) (other : second ∈ comments) (same : first.endLine = second.endLine) :
    first = second := by
  have apart : (comments.map Comment.endLine).Nodup :=
    List.pairwise_map.mpr (descends.imp Int.ne_of_lt)
  exact List.inj_on_of_nodup_map apart one other same

theorem endingAt?_reverse (descends : Descends comments) {comment : Comment}
    (member : comment ∈ comments) :
    endingAt? comments.reverse comment.endLine = some comment := by
  cases found : endingAt? comments.reverse comment.endLine with
  | none =>
      have missing := List.find?_eq_none.mp found comment (List.mem_reverse.mpr member)
      simp at missing
  | some other =>
      have listed := List.mem_reverse.mp (List.mem_of_find?_eq_some found)
      have same : other.endLine = comment.endLine := by simpa using List.find?_some found
      rw [descends.unique listed member same]

theorem stacked_concat {last : Comment} :
    Stacked bottom (run ++ [last]) ↔
      Stacked last.position.line run ∧ last.endLine + 1 = bottom := by
  induction run with
  | nil => simp [Stacked, topLine]
  | cons first rest ih =>
      have top : topLine bottom (rest ++ [last]) = topLine last.position.line rest := by
        cases rest with
        | nil => rfl
        | cons second rest => rfl
      rw [List.cons_append, Stacked, Stacked, ih, top, and_assoc]

theorem found_suffix (fuel : Nat) (line : Int) (found : List Comment) :
    found <:+ runAbove comments fuel line found := by
  fun_induction runAbove comments fuel line found with
  | case1 => exact List.suffix_refl _
  | case2 => exact List.suffix_refl _
  | case3 fuel line found comment _ ih => exact (List.suffix_cons comment found).trans ih

/-- A run of the comments is found as far as the comments are looked for. -/
theorem runAbove_suffix (descends : Descends comments) (listed : run ⊆ comments) :
    ∀ {bottom : Int} {fuel : Nat}, Stacked bottom run → run.length ≤ fuel →
      ∀ found, run ++ found <:+ runAbove comments.reverse fuel (bottom - 1) found := by
  -- From the last comment up, as the search goes: each one moves the bottom to its own first line.
  induction run using List.reverseRecOn with
  | nil => exact fun _ _ found => found_suffix _ _ found
  | append_singleton init last ih =>
      intro bottom fuel stacked enough found
      obtain ⟨above, ends⟩ := stacked_concat.mp stacked
      rw [List.length_append, List.length_singleton] at enough
      obtain ⟨fuel, rfl⟩ := Nat.exists_eq_add_one_of_ne_zero (by omega : fuel ≠ 0)
      have line : bottom - 1 = last.endLine := by omega
      have member : last ∈ comments := listed (by simp)
      rw [runAbove, line, endingAt?_reverse descends member]
      simpa using ih (fun comment inside => listed (by simp [inside])) above (by omega)
        (last :: found)

theorem Stacked.descends (stacked : Stacked bottom run)
    (lines : ∀ comment ∈ run, comment.position.line ≤ comment.endLine) :
    Descends run ∧ ∀ comment ∈ run, topLine bottom run ≤ comment.position.line := by
  induction run with
  | nil => exact ⟨List.Pairwise.nil, by simp⟩
  | cons first rest ih =>
      obtain ⟨above, below⟩ := stacked
      obtain ⟨here, later⟩ := List.forall_mem_cons.mp lines
      obtain ⟨descends, least⟩ := ih below later
      have further : ∀ comment ∈ rest, first.endLine < comment.position.line := by
        intro comment member
        have top := least comment member
        omega
      refine ⟨List.pairwise_cons.mpr ⟨?_, descends⟩, List.forall_mem_cons.mpr ⟨Int.le_refl _, ?_⟩⟩
      · exact fun comment member => (further comment member).trans_le (later comment member)
      · exact fun comment member => here.trans (Int.le_of_lt (further comment member))

/-- A run out of comments that end one below the other has them in their order. -/
theorem Stacked.sublist (stacked : Stacked bottom run) (listed : run ⊆ comments)
    (descends : Descends comments)
    (lines : ∀ comment ∈ comments, comment.position.line ≤ comment.endLine) :
    run.Sublist comments := by
  have ordered := (stacked.descends fun comment member => lines comment (listed member)).1
  have apart : run.Nodup := by
    refine ordered.imp ?_
    rintro first second less rfl
    exact Int.lt_irrefl _ less
  have : Std.Antisymm fun first second : Comment => first.endLine < second.endLine :=
    ⟨fun first second less more => absurd less (Int.lt_asymm more)⟩
  exact List.sublist_of_subperm_of_pairwise (List.subperm_of_subset apart listed) ordered descends

end

/-! ### The items of a document -/

theorem Item.keys_withLead (comments : List Comment) (item : Item) :
    (item.withLead comments).keys = item.keys := by
  obtain ⟨keys, value, assign, lead⟩ := item
  cases value with
  | some value => rfl
  | none => rfl

theorem Item.lead_withLead (comments : List Comment) (item : Item) :
    (item.withLead comments).lead = leadOf comments item := by
  obtain ⟨keys, value, assign, lead⟩ := item
  cases value with
  | some value => rfl
  | none => rfl

section

variable (comments : List Comment)

mutual

theorem Node.visited_withLead (node : Node) :
    (node.withLead comments).visited (fun _ => true) =
      (node.visited fun _ => true).map (Node.withLead comments) := by
  cases node with
  | literal token => rfl
  | key token => rfl
  | item item => exact Item.visited_withLead item
  | items items =>
      simp only [Node.visited, Node.withLead, if_true, List.map_cons,
        Item.visitedAll_withLead items]
  | object opening closing items =>
      simp only [Node.visited, Node.withLead, if_true, List.map_cons,
        Item.visitedAll_withLead items]
  | list opening closing elements =>
      simp only [Node.visited, Node.withLead, if_true, List.map_cons,
        Node.visitedAll_withLead elements]

theorem Item.visited_withLead (item : Item) :
    (item.withLead comments).visited (fun _ => true) =
      (item.visited fun _ => true).map (Node.withLead comments) := by
  match item with
  | ⟨keys, some value, assign, lead⟩ =>
      have same : keys.map (Node.withLead comments ∘ Node.key) = keys.map Node.key := rfl
      simp only [Item.visited, Item.withLead, Node.withLead, if_true, List.map_cons,
        List.map_append, List.map_map, same, Node.visited_withLead value]
  | ⟨keys, none, assign, lead⟩ =>
      have same : keys.map (Node.withLead comments ∘ Node.key) = keys.map Node.key := rfl
      simp only [Item.visited, Item.withLead, Node.withLead, if_true, List.map_cons,
        List.map_map, same]

theorem Node.visitedAll_withLead (nodes : List Node) :
    Node.visitedAll (fun _ => true) (Node.allWithLead comments nodes) =
      (Node.visitedAll (fun _ => true) nodes).map (Node.withLead comments) := by
  cases nodes with
  | nil => rfl
  | cons node rest =>
      simp only [Node.visitedAll, Node.allWithLead, List.map_append, Node.visited_withLead node,
        Node.visitedAll_withLead rest]

theorem Item.visitedAll_withLead (items : List Item) :
    Item.visitedAll (fun _ => true) (Item.allWithLead comments items) =
      (Item.visitedAll (fun _ => true) items).map (Node.withLead comments) := by
  cases items with
  | nil => rfl
  | cons item rest =>
      simp only [Item.visitedAll, Item.allWithLead, List.map_append, Item.visited_withLead item,
        Item.visitedAll_withLead rest]

end

end

def Phrase.nodes : Phrase → List Node
  | .items all => Item.visitedAll (fun _ => true) all
  | .item one => one.visited fun _ => true
  | .keys _ => []
  | .value node => node.visited fun _ => true
  | .object node => node.visited fun _ => true
  | .elements nodes => Node.visitedAll (fun _ => true) nodes

theorem item_mem_visited {item : Item} {keys : List Token} {value : Node} {assign : Option Position}
    {lead : List Comment}
    (inside : .item item ∈ Item.visited (fun _ => true) ⟨keys, some value, assign, lead⟩) :
    item = ⟨keys, some value, assign, lead⟩ ∨ .item item ∈ value.visited fun _ => true := by
  simpa [Item.visited] using inside

/-- Every item of a document has a key. -/
theorem Derives.keyed {start stop : List Lexeme} {phrase : Phrase}
    (derives : Derives start phrase stop) {item : Item} (inside : .item item ∈ phrase.nodes) :
    item.keys ≠ [] := by
  induction derives with
  | noItems | noElements | oneKey _ | moreKeys _ _ _ => cases inside
  | moreItems _ _ first others | separatedItems _ _ _ first others
  | moreElements _ _ _ first others =>
      rcases List.mem_append.mp inside with here | later
      · exact first here
      · exact others later
  | assignment _ _ _ value =>
      rcases item_mem_visited inside with rfl | within
      · simp
      · exact value within
  | block keys _ _ object =>
      rcases item_mem_visited inside with rfl | within
      · exact keys.keys_ne_nil
      · exact object within
  | literal _ => simp [Phrase.nodes, Node.visited] at inside
  | objectValue _ object => exact object inside
  | object _ _ _ items =>
      apply items
      simpa [Phrase.nodes, Node.visited] using inside
  | list _ _ _ elements =>
      apply elements
      simpa [Phrase.nodes, Node.visited] using inside
  | lastElement _ value =>
      apply value
      simpa [Phrase.nodes, Node.visitedAll] using inside

/-- An item of a document has a key, and its lead is looked for above the first one. -/
theorem parseChars_item {text : List Char} {file : File} (read : parseChars text = .ok file)
    {item : Item} (inside : .item item ∈ file.root.visited fun _ => true) :
    ∃ key rest, item.keys = key :: rest ∧
      item.lead = runAbove (scan text).ownLine.reverse (scan text).ownLine.length
        (key.position.line - 1) [] := by
  obtain ⟨items, accepted, -, rfl⟩ := parseChars_eq_ok read
  obtain ⟨stretches, final, splits, derives⟩ := scan_items_eq_ok_iff.mp accepted
  have visited := Item.visitedAll_withLead (scan text).ownLine.reverse items
  simp only [File.root, Node.visited, if_true, List.mem_cons, reduceCtorEq, false_or, visited]
    at inside
  obtain ⟨node, among, same⟩ := List.mem_map.mp inside
  cases node with
  | item other =>
      rw [Node.withLead, Node.item.injEq] at same
      subst same
      obtain ⟨keys, value, assign, lead⟩ := other
      obtain ⟨key, rest, rfl⟩ := List.exists_cons_of_ne_nil (derives.keyed among)
      refine ⟨key, rest, Item.keys_withLead _ _, ?_⟩
      rw [Item.lead_withLead, leadOf, if_neg (by simp), List.length_reverse]
      rfl
  | _ => cases same

theorem StartsLine.alone {text : List Char} {comment : Comment}
    (starts : StartsLine text comment.position) : Alone text comment := by
  obtain ⟨front, back, cut, place, blank⟩ := starts
  exact ⟨front, back, cut, place, fun c member => isBlank_of_isGap (blank c member)⟩

theorem scan_comments_pairwise (text : List Char) :
    (scan text).comments.Pairwise fun first second =>
      Alone text second → first.endLine < second.endLine := by
  obtain ⟨stretches, final, left, splits, stuck⟩ := exists_splits .start text
  rw [splits.scan stuck]
  exact @Splits.comments_pairwise _ _ _ _ _ splits [] rfl

theorem scan_ownLine_descends (text : List Char) : Descends (scan text).ownLine := by
  refine ((scan_comments_pairwise text).sublist (scan_ownLine text)).imp_of_mem ?_
  exact fun _ member below => below (scan_startLine _ member).alone

theorem scan_comments_lines (text : List Char) :
    ∀ comment ∈ (scan text).comments, comment.position.line ≤ comment.endLine := by
  obtain ⟨stretches, final, left, splits, stuck⟩ := exists_splits .start text
  rw [splits.scan stuck]
  intro comment member
  obtain ⟨stretch, -, read⟩ := List.mem_filterMap.mp member
  exact lines_of_comment? read

theorem Run.sublist_ownLine {text : List Char} {bottom : Int} {run : List Comment}
    (found : Run text (scan text).comments bottom run) : run.Sublist (scan text).ownLine := by
  obtain ⟨stretches, final, left, splits, stuck⟩ := exists_splits .start text
  obtain ⟨listed, alone, -⟩ := found
  rw [splits.scan stuck] at listed ⊢
  exact @Splits.sublist_ownComments _ _ _ _ _ splits [] true run rfl (fun _ => rfl) listed alone

theorem run_runAbove (text : List Char) (fuel : Nat) (bottom : Int) :
    Run text (scan text).comments bottom
      (runAbove (scan text).ownLine.reverse fuel (bottom - 1) []) := by
  have listed := scan_ownLine text
  have stacked : Stacked bottom (runAbove (scan text).ownLine.reverse fuel (bottom - 1) []) :=
    runAbove_stacked _ _ [] (by simp [topLine]) trivial
  have own : runAbove (scan text).ownLine.reverse fuel (bottom - 1) [] ⊆ (scan text).ownLine := by
    intro comment member
    simpa using runAbove_subset _ _ _ member
  refine ⟨?_, fun comment member => (scan_startLine comment (own member)).alone, stacked⟩
  have ordered := stacked.sublist own (scan_ownLine_descends text) fun comment member =>
    scan_comments_lines text comment (listed.subset member)
  exact ordered.trans listed

/-- The comments of an item are the longest run of comments right above it that are alone on their
lines so far; every such run is the end of theirs. No two comments that are alone end on the same
line. -/
theorem parse_lead_greatest (text : String) (file : File) (read : parse text = .ok file) :
    (∀ item, .item item ∈ file.root.visited (fun _ => true) →
      ∃ key rest, item.keys = key :: rest ∧
        Run text.toList file.comments key.position.line item.lead ∧
        ∀ run, Run text.toList file.comments key.position.line run → run <:+ item.lead) ∧
    file.comments.Pairwise fun first second =>
      Alone text.toList second → first.endLine < second.endLine := by
  have comments : file.comments = (scan text.toList).comments := by
    obtain ⟨items, -, -, rfl⟩ := parseChars_eq_ok read
    rfl
  rw [comments]
  refine ⟨fun item inside => ?_, scan_comments_pairwise text.toList⟩
  obtain ⟨key, rest, keys, lead⟩ := parseChars_item read inside
  refine ⟨key, rest, keys, lead ▸ run_runAbove text.toList _ _, fun run found => ?_⟩
  have own := found.sublist_ownLine
  have suffix := runAbove_suffix (scan_ownLine_descends text.toList) own.subset found.stacked
    own.length_le []
  rwa [List.append_nil, ← lead] at suffix

theorem parse_lead_greatest_mixed :
    let text := "# a\n/* b\n */ # c\n\t// d\nx \x7b y = 1 \x7d"
    ∃ file item, parse text = .ok file ∧ .item item ∈ file.root.visited (fun _ => true) ∧
      item.lead = [⟨"# a", .start, 1⟩, ⟨"/* b\n */", ⟨"", 4, 2, 1⟩, 3⟩,
        ⟨"// d", ⟨"", 18, 4, 2⟩, 4⟩] ∧
      (∃ key rest, item.keys = key :: rest ∧
        Run text.toList file.comments key.position.line item.lead ∧
        ∀ run, Run text.toList file.comments key.position.line run → run <:+ item.lead) ∧
      file.comments.Pairwise fun first second =>
        Alone text.toList second → first.endLine < second.endLine := by
  intro text
  obtain ⟨file, item, read, inside, -, lead⟩ : ∃ file item, parse text = .ok file ∧
      .item item ∈ file.root.visited (fun _ => true) ∧
      item.keys = [⟨.ident, "y", ⟨"", 27, 5, 5⟩⟩] ∧
      item.lead = [⟨"# a", .start, 1⟩, ⟨"/* b\n */", ⟨"", 4, 2, 1⟩, 3⟩,
        ⟨"// d", ⟨"", 18, 4, 2⟩, 4⟩] := item_of_any (by decide +kernel)
  obtain ⟨leads, apart⟩ := parse_lead_greatest text file read
  exact ⟨file, item, read, inside, lead, leads item inside, apart⟩

end ConfigIndex.Document
