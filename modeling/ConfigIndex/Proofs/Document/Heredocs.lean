import ConfigIndex.Proofs.Document.Interpolations
import ConfigIndex.Proofs.Document.Viable

/-!
Heredocs, line by line. A heredoc ends with the first line that is its tag, whatever else its lines
hold, and there is none where no line is.
-/

namespace ConfigIndex.Document

open Text (Pattern)

def IsTag (tag : List Char) : Prop := tagPattern.first? tag = some tag

instance (tag : List Char) : Decidable (IsTag tag) := inferInstanceAs (Decidable (_ = _))

structure Opening where
  dashed : Bool
  tag : List Char
  blanks : List Char
  lineEnd : List Char
  tagged : IsTag tag
  blank : ∀ c ∈ blanks, isIndent c = true
  ended : lineEnd ∈ [['\n'], ['\r', '\n']]

def Opening.arrows (opening : Opening) : List Char :=
  if opening.dashed then ['<', '<', '-'] else ['<', '<']

def Opening.line (opening : Opening) : List Char :=
  opening.arrows ++ (opening.tag ++ (opening.blanks ++ opening.lineEnd))

def stripped (line : List Char) : List Char :=
  let rest := line.dropWhile isIndent
  if rest.getLast? = some '\r' then rest.dropLast else rest

def Unclosed (tag : List Char) (lines : List (List Char)) : Prop :=
  ∀ line ∈ lines, '\n' ∉ line ∧ stripped line ≠ tag

instance (tag : List Char) (lines : List (List Char)) : Decidable (Unclosed tag lines) :=
  inferInstanceAs (Decidable (∀ _ ∈ _, _))

def linesText (lines : List (List Char)) : List Char := lines.flatMap (· ++ ['\n'])

/-! ### Tags and opening lines -/

theorem tagPattern_yields : tagPattern.Yields fun word =>
    ∃ t rest, word = t :: rest ∧ isWordStart t = true ∧ ∀ c ∈ rest, isTagChar c = true := by
  have first : (Pattern.one isWordStart).Yields fun word =>
      ∃ t, word = [t] ∧ isWordStart t = true :=
    Pattern.yields_one fun t start => ⟨t, rfl, start⟩
  have others : (Pattern.many (.one isTagChar)).Yields fun word =>
      ∀ c ∈ word, isTagChar c = true := by
    refine (Pattern.yields_one ?_).many (by simp) ?_
    · exact fun c inside => List.forall_mem_singleton.mpr inside
    · exact fun word more left right => List.forall_mem_append.mpr ⟨left, right⟩
  refine first.seq others ?_
  rintro _ rest ⟨t, rfl, start⟩ inside
  exact ⟨t, rest, rfl, start, inside⟩

theorem IsTag.shape {tag : List Char} (tagged : IsTag tag) :
    ∃ t rest, tag = t :: rest ∧ isWordStart t = true ∧ ∀ c ∈ tag, isTagChar c = true := by
  obtain ⟨t, rest, rfl, start, inside⟩ := tagPattern_yields.first? tagged
  have first : isTagChar t = true := by simp [isTagChar, start]
  exact ⟨t, rest, rfl, start, List.forall_mem_cons.mpr ⟨first, inside⟩⟩

theorem IsTag.not_mem {tag : List Char} (tagged : IsTag tag) : '\n' ∉ tag ∧ '\r' ∉ tag := by
  obtain ⟨t, rest, -, -, inside⟩ := tagged.shape
  constructor
  · exact fun member => (isTagChar_apart (inside _ member)).2.1 rfl
  · exact fun member => (isTagChar_apart (inside _ member)).2.2 rfl

theorem Opening.opened? (opening : Opening) (rest : List Char) :
    Document.opened? opening.arrows
        (opening.tag ++ (opening.blanks ++ (opening.lineEnd ++ rest))) =
      some (opening.line, opening.tag) := by
  obtain ⟨t, others, same, start, inside⟩ := opening.tagged.shape
  have broken : lineBreak? (opening.lineEnd ++ rest) = some opening.lineEnd ∧
      ∀ c ∈ (opening.lineEnd ++ rest).head?, isIndent c = false ∧ isTagChar c = false := by
    have listed := opening.ended
    simp only [List.mem_cons, List.not_mem_nil, or_false] at listed
    rcases listed with ending | ending
    · simp [ending, lineBreak?, isIndent]
      decide
    · simp [ending, lineBreak?, isIndent]
      decide
  have indent := takeWhile_class opening.blank fun c head => (broken.2 c head).1
  have stop : ∀ c ∈ (opening.blanks ++ (opening.lineEnd ++ rest)).head?, isTagChar c = false := by
    intro c head
    cases blanks : opening.blanks with
    | nil => exact (broken.2 c (by simpa [blanks] using head)).2
    | cons d more =>
        have blank := opening.blank d (by simp [blanks])
        have first : d = c := by simpa [blanks] using head
        cases tagged : isTagChar c with
        | false => rfl
        | true => simp [(isTagChar_apart tagged).1, first] at blank
  have tag := takeWhile_class inside stop
  rw [opened?_eq, tag.1, tag.2, indent.1, indent.2, broken.1, same]
  simp [start, Opening.line, same]

theorem Opening.openingLine? (opening : Opening) (rest : List Char) :
    Document.openingLine? (opening.line ++ rest) = some (opening.line, opening.tag) := by
  have opened := opening.opened? rest
  have cut : opening.line ++ rest = opening.arrows ++
      (opening.tag ++ (opening.blanks ++ (opening.lineEnd ++ rest))) := by
    simp [Opening.line]
  rw [cut]
  unfold Opening.arrows at opened ⊢
  cases dashed : opening.dashed with
  | true =>
      rw [dashed] at opened
      exact (openingLine?_eq _).trans opened
  | false =>
      rw [dashed] at opened
      refine (openingLine?_plain ?_).trans opened
      obtain ⟨t, others, same, start, -⟩ := opening.tagged.shape
      intro more dash
      have head : t = '-' := by simpa [same] using congrArg List.head? dash
      exact absurd start (by rw [head]; decide)

theorem Opening.heredoc? (opening : Opening) (rest : List Char) :
    Document.heredoc? (opening.line ++ rest) =
      closeHeredoc opening.tag true opening.line.reverse rest := by
  simp only [Document.heredoc?, opening.openingLine? rest, List.drop_left]

/-! ### Lines that do not close, and one that does -/

theorem endsLine_break {back : List Char} (plain : '\n' ∉ back) (more : List Char) :
    endsLine (back ++ '\n' :: more) = true ↔ back = [] ∨ back = ['\r'] := by
  cases back with
  | nil => simp [endsLine]
  | cons c back =>
      simp only [List.mem_cons, not_or] at plain
      rw [endsLine_eq, List.cons_append, lineBreak?_cons, if_neg (Ne.symm plain.1)]
      cases back with
      | nil => simp
      | cons d back =>
          have other : d ≠ '\n' := fun same => plain.2 (by simp [same])
          simp [other]

theorem closingLine?_inside {tag line : List Char} (tagged : IsTag tag) (plain : '\n' ∉ line)
    (other : stripped line ≠ tag) (more : List Char) :
    closingLine? tag (line ++ '\n' :: more) = none := by
  simp only [closingLine?, Pattern.drop_takeWhile_length]
  rw [@dropWhile_line isIndent rfl, isPrefixOf_line tagged.not_mem.1, if_neg]
  intro both
  obtain ⟨front, ends⟩ := Bool.and_eq_true_iff.mp both
  obtain ⟨back, cut⟩ := List.isPrefixOf_iff_prefix.mp front
  rw [← cut, List.append_assoc, List.drop_left] at ends
  have inside : '\n' ∉ back := by
    intro member
    have among : '\n' ∈ line.dropWhile isIndent := cut ▸ List.mem_append_right tag member
    exact plain ((List.dropWhile_sublist isIndent).subset among)
  apply other
  rcases (endsLine_break inside more).mp ends with rfl | rfl
  · rw [List.append_nil] at cut
    rw [stripped, ← cut, if_neg]
    exact fun last => tagged.not_mem.2 (List.mem_of_getLast? last)
  · simp [stripped, ← cut]

theorem closingLine?_last {tag last : List Char} (plain : '\n' ∉ last)
    (other : last.dropWhile isIndent ≠ tag) : closingLine? tag last = none := by
  simp only [closingLine?, Pattern.drop_takeWhile_length]
  rw [if_neg]
  intro both
  obtain ⟨front, ends⟩ := Bool.and_eq_true_iff.mp both
  obtain ⟨back, cut⟩ := List.isPrefixOf_iff_prefix.mp front
  rw [← cut, List.drop_left, endsLine_eq, Bool.or_eq_true] at ends
  rcases ends with empty | breaks
  · rw [List.isEmpty_iff.mp empty, List.append_nil] at cut
    exact other cut.symm
  · obtain ⟨ending, found⟩ := Option.isSome_iff_exists.mp breaks
    obtain ⟨line, rest, rfl, rfl⟩ := lineBreak?_eq_some found
    have among : '\n' ∈ last.dropWhile isIndent := by
      rw [← cut]
      simp
    exact plain ((List.dropWhile_sublist isIndent).subset among)

theorem closeHeredoc_within {tag line : List Char} (plain : '\n' ∉ line) (seen rest : List Char) :
    closeHeredoc tag false seen (line ++ rest) =
      closeHeredoc tag false (line.reverse ++ seen) rest := by
  induction line generalizing seen with
  | nil => rfl
  | cons c line ih =>
      simp only [List.mem_cons, not_or] at plain
      rw [List.cons_append, closeHeredoc]
      simp [Ne.symm plain.1, ih plain.2]

theorem closeHeredoc_line {tag line : List Char} (plain : '\n' ∉ line) {seen more : List Char}
    (unclosed : closingLine? tag (line ++ '\n' :: more) = none) :
    closeHeredoc tag true seen (line ++ '\n' :: more) =
      closeHeredoc tag true ((line ++ ['\n']).reverse ++ seen) more := by
  have newline (seen : List Char) : closeHeredoc tag false seen ('\n' :: more) =
      closeHeredoc tag true ('\n' :: seen) more := by
    simp [closeHeredoc]
  cases line with
  | nil =>
      rw [List.nil_append] at unclosed ⊢
      rw [closeHeredoc, if_pos rfl, unclosed]
      simp
  | cons c line =>
      rw [List.cons_append] at unclosed ⊢
      simp only [List.mem_cons, not_or] at plain
      rw [closeHeredoc, if_pos rfl, unclosed]
      simp only [Ne.symm plain.1, decide_false]
      rw [closeHeredoc_within plain.2, newline]
      simp

theorem closeHeredoc_linesText {tag : List Char} (tagged : IsTag tag) {lines : List (List Char)}
    (unclosed : Unclosed tag lines) (seen rest : List Char) :
    closeHeredoc tag true seen (linesText lines ++ rest) =
      closeHeredoc tag true ((linesText lines).reverse ++ seen) rest := by
  induction lines generalizing seen with
  | nil => rfl
  | cons line lines ih =>
      obtain ⟨⟨plain, other⟩, later⟩ := List.forall_mem_cons.mp unclosed
      have cut : linesText (line :: lines) ++ rest = line ++ '\n' :: (linesText lines ++ rest) := by
        simp [linesText]
      rw [cut, closeHeredoc_line plain (closingLine?_inside tagged plain other _), ih later]
      simp [linesText]

theorem closeHeredoc_last {tag last : List Char} (plain : '\n' ∉ last)
    (other : last.dropWhile isIndent ≠ tag) (seen : List Char) :
    closeHeredoc tag true seen last = none := by
  have unclosed := closingLine?_last plain other
  cases last with
  | nil => rfl
  | cons c line =>
      simp only [List.mem_cons, not_or] at plain
      rw [closeHeredoc, if_pos rfl, unclosed]
      simp only [Ne.symm plain.1, decide_false]
      have through := @closeHeredoc_within tag line plain.2 (c :: seen) []
      rw [List.append_nil] at through
      rw [through]
      rfl

/-- A heredoc goes up to the first line that is its tag, and to the tag in that line. -/
theorem Opening.heredoc?_closed (opening : Opening) {lines : List (List Char)}
    (unclosed : Unclosed opening.tag lines) {blanks behind : List Char}
    (blank : ∀ c ∈ blanks, isIndent c = true) (ends : endsLine behind = true) :
    Document.heredoc? (opening.line ++ (linesText lines ++ (blanks ++ opening.tag)) ++ behind) =
      some (opening.line ++ (linesText lines ++ (blanks ++ opening.tag))) := by
  obtain ⟨t, others, same, start, -⟩ := opening.tagged.shape
  have closes : closingLine? opening.tag (blanks ++ opening.tag ++ behind) =
      some (blanks ++ opening.tag) := by
    rw [same]
    exact closingLine?_of_indent start blank ends
  have filled : blanks ++ opening.tag ++ behind ≠ [] := by simp [same]
  have through := closeHeredoc_linesText opening.tagged unclosed opening.line.reverse
    (blanks ++ opening.tag ++ behind)
  rw [closeHeredoc_found filled closes, ← opening.heredoc?] at through
  rw [List.append_assoc, List.append_assoc (linesText lines), through]
  simp

theorem Opening.heredoc?_unclosed (opening : Opening) {lines : List (List Char)}
    (unclosed : Unclosed opening.tag lines) {last : List Char} (plain : '\n' ∉ last)
    (other : last.dropWhile isIndent ≠ opening.tag) :
    Document.heredoc? (opening.line ++ (linesText lines ++ last)) = none := by
  rw [opening.heredoc?, closeHeredoc_linesText opening.tagged unclosed]
  exact closeHeredoc_last plain other _

/-! ### Heredocs in documents -/

/-- The grammar goes on with a heredoc behind these words, and so with a value. -/
def ValueDue (front : List Lexeme) : Prop :=
  ∃ heredoc back items, heredoc.terminal = .heredoc ∧
    Derives (front ++ heredoc :: back) (.items items) []

/-- What starts no piece of the text where the words make sense up to there. -/
theorem parseChars_stray {text left : List Char} {stretches : List Stretch} {position : Position}
    {c : Char} (splits : Splits .start text stretches position (c :: left))
    (due : ValueDue (stretches.filterMap Stretch.lexeme?)) (stuck : piece? (c :: left) = none) :
    parseChars text = .error ⟨.stray c, position⟩ := by
  obtain ⟨heredoc, back, items, -, derives⟩ := due
  obtain ⟨last, whole, -⟩ := run_eq_ok_iff.mpr derives
  obtain ⟨stage, run⟩ := run_front whole
  have scanned := splits.scan stuck
  simp [parseChars, Scan.items, scanned, run]

theorem Opening.line_eq (opening : Opening) : ∃ rest, opening.line = '<' :: rest := by
  unfold Opening.line Opening.arrows
  split
  · exact ⟨_, rfl⟩
  · exact ⟨_, rfl⟩

/-- A heredoc is the value it is assigned as up to the first line that is its tag, whatever the
lines before that one hold. Where a value is due and no line is the tag, the heredoc is rejected at
its first character. -/
theorem parse_heredoc (opening : Opening) {lines : List (List Char)}
    (unclosed : Unclosed opening.tag lines) :
    (∀ blanks ending, (∀ c ∈ blanks, isIndent c = true) → endsLine ending = true →
      (∀ c ∈ ending, isGap c = true) →
        let heredoc :=
          String.ofList (opening.line ++ (linesText lines ++ (blanks ++ opening.tag)))
        parse ("x = " ++ heredoc ++ String.ofList ending) =
          .ok ⟨[⟨[⟨.ident, "x", .start⟩], some (.literal ⟨.heredoc, heredoc, ⟨"", 4, 1, 5⟩⟩),
            some ⟨"", 2, 1, 3⟩, []⟩], []⟩) ∧
    (∀ text stretches position last,
      Splits .start text.toList stretches position (opening.line ++ (linesText lines ++ last)) →
        ValueDue (stretches.filterMap Stretch.lexeme?) → '\n' ∉ last →
          last.dropWhile isIndent ≠ opening.tag →
            parse text = .error ⟨.stray '<', position⟩) := by
  constructor
  · intro blanks ending blank ends gap heredoc
    have first := opening.heredoc?_closed unclosed blank ends
    rw [← heredocPattern_first?] at first
    have assigned := @parseChars_assigned .heredoc _ _ _ first gap rfl (by simp)
    have shown : ("x = " ++ heredoc ++ String.ofList ending).toList = 'x' :: ' ' :: '=' :: ' ' ::
        (opening.line ++ (linesText lines ++ (blanks ++ opening.tag)) ++ ending) := by
      simp [heredoc]
    rw [parse, shown]
    exact assigned
  · intro text stretches position last splits due plain other
    have none := opening.heredoc?_unclosed unclosed plain other
    obtain ⟨rest, same⟩ := opening.line_eq
    rw [same, List.cons_append] at splits none
    apply parseChars_stray splits due
    simp [piece?, isGap, none]

theorem parse_heredoc_crlf :
    let opening : Opening := ⟨true, ['E', 'O', 'T'], [' '], ['\r', '\n'],
      by decide, List.all_eq_true.mp rfl, by decide⟩
    let lines := ["EOT2", " \"$\x7b # <<EOT", "EOT\r\r", "\tEOT "].map String.toList
    Unclosed opening.tag lines ∧
      parse "x = <<-EOT \r\nEOT2\n \"$\x7b # <<EOT\nEOT\r\r\n\tEOT \n\tEOT\r\n" =
        .ok ⟨[⟨[⟨.ident, "x", .start⟩], some (.literal ⟨.heredoc,
          "<<-EOT \r\nEOT2\n \"$\x7b # <<EOT\nEOT\r\r\n\tEOT \n\tEOT", ⟨"", 4, 1, 5⟩⟩),
          some ⟨"", 2, 1, 3⟩, []⟩], []⟩ ∧
      parse "a=[<<-EOT \r\nEOT2\n \"$\x7b # <<EOT\nEOT\r\r\n\tEOT \nEOT\r" =
        .error ⟨.stray '<', ⟨"", 3, 1, 4⟩⟩ := by
  intro opening lines
  have unclosed : Unclosed opening.tag lines := by decide
  obtain ⟨closed, stuck⟩ := parse_heredoc opening unclosed
  refine ⟨unclosed, ?_, ?_⟩
  · exact closed ['\t'] ['\r', '\n'] (List.all_eq_true.mp rfl) rfl (List.all_eq_true.mp rfl)
  · let bracket : List Lexeme :=
      [⟨.ident, "a", .start⟩, ⟨.equal, "=", ⟨"", 1, 1, 2⟩⟩, ⟨.openBracket, "[", ⟨"", 2, 1, 3⟩⟩]
    have due : ValueDue bracket :=
      ⟨⟨.heredoc, "", {}⟩, [⟨.closeBracket, "", {}⟩], _, rfl,
        .moreItems (.assignment rfl rfl (.list rfl (.lastElement (.literal rfl)) rfl)) .noItems⟩
    have key : (Piece.word .ident).pattern.first? (['a'] ++ (['='] ++ (['['] ++
        (opening.line ++ (linesText lines ++ "EOT\r".toList))))) = some ['a'] := piece?_sound rfl
    have equal : (Piece.word .equal).pattern.first? (['='] ++ (['['] ++
        (opening.line ++ (linesText lines ++ "EOT\r".toList)))) = some ['='] := piece?_sound rfl
    have opens : (Piece.word .openBracket).pattern.first? (['['] ++
        (opening.line ++ (linesText lines ++ "EOT\r".toList))) = some ['['] := piece?_sound rfl
    exact stuck _ _ _ _ (.more key (.more equal (.more opens .nil))) due (by decide) (by decide)

end ConfigIndex.Document
