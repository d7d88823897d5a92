import ConfigIndex.Proofs.Document.Tiling
import ConfigIndex.Proofs.Text.Cut

/-!
The words in front of a place in a document stay the same if the text behind that place becomes a
line break and signs.
-/

namespace ConfigIndex.Document

open Text (Pattern)

section

variable {accepts : Char → Bool} (stops : accepts '\n' = false) (line rest : List Char)
include stops

theorem takeWhile_line :
    (line ++ '\n' :: rest).takeWhile accepts = line.takeWhile accepts := by
  induction line with
  | nil => simp [stops]
  | cons c line ih => simp [List.takeWhile_cons, ih]

theorem dropWhile_line :
    (line ++ '\n' :: rest).dropWhile accepts = line.dropWhile accepts ++ '\n' :: rest := by
  induction line with
  | nil => simp [stops]
  | cons c line ih =>
      rw [List.cons_append, List.dropWhile_cons, List.dropWhile_cons, ih]
      split
      · rfl
      · rfl

end

theorem isPrefixOf_line {tag : List Char} (inside : '\n' ∉ tag) (line rest : List Char) :
    tag.isPrefixOf (line ++ '\n' :: rest) = tag.isPrefixOf line := by
  induction tag generalizing line with
  | nil => simp
  | cons t tag ih =>
      simp only [List.mem_cons, not_or] at inside
      cases line with
      | nil => simp [List.isPrefixOf, Ne.symm inside.1]
      | cons c line => simp [List.isPrefixOf, ih inside.2]

def lineBreak? (text : List Char) : Option (List Char) :=
  match text with
  | '\n' :: _ => some ['\n']
  | '\r' :: '\n' :: _ => some ['\r', '\n']
  | _ => none

theorem lineBreak?_cons (c : Char) (rest : List Char) :
    lineBreak? (c :: rest) =
      if c = '\n' then some ['\n']
      else if c = '\r' ∧ rest.head? = some '\n' then some ['\r', '\n'] else none := by
  by_cases newline : c = '\n'
  · simp [lineBreak?, newline]
  · by_cases carriage : c = '\r'
    · subst carriage
      cases rest with
      | nil => rfl
      | cons d rest =>
          by_cases same : d = '\n'
          · simp [lineBreak?, same]
          · simp [lineBreak?, same]
    · simp [lineBreak?, newline, carriage]

theorem lineBreak?_line (line rest other : List Char) :
    lineBreak? (line ++ '\n' :: rest) = lineBreak? (line ++ '\n' :: other) := by
  cases line with
  | nil => rfl
  | cons c line =>
      rw [List.cons_append, List.cons_append, lineBreak?_cons, lineBreak?_cons]
      cases line with
      | nil => rfl
      | cons d line => rfl

theorem lineBreak?_eq_some {text ending : List Char} (found : lineBreak? text = some ending) :
    ∃ line rest, ending = line ++ ['\n'] ∧ text = ending ++ rest := by
  unfold lineBreak? at found
  split at found
  · rename_i rest
    cases found
    exact ⟨[], rest, rfl, rfl⟩
  · rename_i rest
    cases found
    exact ⟨['\r'], rest, rfl, rfl⟩
  · cases found

theorem endsLine_eq (text : List Char) :
    endsLine text = (text.isEmpty || (lineBreak? text).isSome) := by
  cases text with
  | nil => rfl
  | cons c rest =>
      by_cases newline : c = '\n'
      · simp [endsLine, lineBreak?, newline]
      · by_cases carriage : c = '\r'
        · subst carriage
          cases rest with
          | nil => rfl
          | cons d rest =>
              by_cases same : d = '\n'
              · simp [endsLine, lineBreak?, same]
              · simp [endsLine, lineBreak?, same]
        · simp [endsLine, lineBreak?, newline, carriage]

theorem endsLine_line (line rest other : List Char) :
    endsLine (line ++ '\n' :: rest) = endsLine (line ++ '\n' :: other) := by
  have filled (behind : List Char) : (line ++ '\n' :: behind).isEmpty = false := by
    simp [List.isEmpty_eq_false_iff]
  rw [endsLine_eq, endsLine_eq, filled, filled, lineBreak?_line line rest other]

/-- Whether a line closes a heredoc is seen before its break. -/
theorem closingLine?_line {tag : List Char} (inside : '\n' ∉ tag) (line rest other : List Char) :
    closingLine? tag (line ++ '\n' :: rest) = closingLine? tag (line ++ '\n' :: other) := by
  simp only [closingLine?, Pattern.drop_takeWhile_length]
  simp only [@takeWhile_line isIndent rfl, @dropWhile_line isIndent rfl,
    isPrefixOf_line inside]
  by_cases front : tag.isPrefixOf (line.dropWhile isIndent) = true
  · obtain ⟨back, cut⟩ := List.isPrefixOf_iff_prefix.mp front
    rw [← cut]
    simp only [List.append_assoc, List.drop_left]
    rw [endsLine_line back rest other]
  · simp only [Bool.not_eq_true] at front
    simp only [front, Bool.false_and, Bool.false_eq_true, if_false]

theorem closingLine?_eq_some {tag text line : List Char}
    (found : closingLine? tag text = some line) :
    ∃ back, text = line ++ back ∧ endsLine back = true ∧
      ∃ indent, line = indent ++ tag ∧ ∀ c ∈ indent, isIndent c = true := by
  simp only [closingLine?, Pattern.drop_takeWhile_length] at found
  split at found
  · rename_i both
    simp only [Bool.and_eq_true] at both
    obtain ⟨back, cut⟩ := List.isPrefixOf_iff_prefix.mp both.1
    have ends := both.2
    rw [← cut, List.drop_left] at ends
    refine ⟨back, ?_, ends, _, (Option.some.inj found).symm, fun c => ?_⟩
    · rw [← Option.some.inj found, List.append_assoc, cut, List.takeWhile_append_dropWhile]
    · exact List.all_eq_true.mp List.all_takeWhile c
  · cases found

theorem closingLine?_of_indent {t : Char} {tag indent other : List Char}
    (start : isWordStart t = true) (blank : ∀ c ∈ indent, isIndent c = true)
    (ends : endsLine other = true) :
    closingLine? (t :: tag) (indent ++ t :: tag ++ other) = some (indent ++ t :: tag) := by
  have apart : ¬isIndent t = true := by simp [isIndent_of_isWordStart start]
  have front : (indent ++ (t :: tag ++ other)).takeWhile isIndent = indent := by
    rw [List.takeWhile_append_of_pos blank, List.cons_append, List.takeWhile_cons_of_neg apart,
      List.append_nil]
  simp only [closingLine?, List.append_assoc, front, List.drop_left]
  rw [List.isPrefixOf_iff_prefix.mpr (List.prefix_append _ other), ends]
  rfl

theorem closeHeredoc_found {tag seen text line : List Char} (filled : text ≠ [])
    (found : closingLine? tag text = some line) :
    closeHeredoc tag true seen text = some (seen.reverse ++ line) := by
  cases text with
  | nil => exact absurd rfl filled
  | cons c rest => simp [closeHeredoc, found]

/-- What closes a heredoc stays its end, as long as the line ends there. -/
theorem closeHeredoc_cut {t : Char} {tag : List Char} (start : isWordStart t = true)
    (inside : '\n' ∉ t :: tag) {text word : List Char} : ∀ {fresh : Bool} {seen : List Char},
      closeHeredoc (t :: tag) fresh seen text = some word →
      ∃ front back, text = front ++ back ∧ word = seen.reverse ++ front ∧ endsLine back = true ∧
        (fresh = false → '\n' ∈ front) ∧ ∀ other, endsLine other = true →
          closeHeredoc (t :: tag) fresh seen (front ++ other) = some word := by
  induction text with
  | nil =>
      intro fresh seen closed
      cases closed
  | cons c rest ih =>
      intro fresh seen closed
      rw [closeHeredoc] at closed
      split at closed
      · rename_i line found
        cases fresh with
        | false => cases found
        | true =>
            obtain ⟨back, cut, ends, indent, rfl, blank⟩ := closingLine?_eq_some found
            refine ⟨_, back, cut, (Option.some.inj closed).symm, ends, by simp, ?_⟩
            intro other ends
            have again : closingLine? (t :: tag) (indent ++ t :: tag ++ other) = _ :=
              closingLine?_of_indent start blank ends
            rw [closeHeredoc_found (by simp) again, Option.some.inj closed]
      · rename_i found
        obtain ⟨front, back, rfl, rfl, ends, broken, closes⟩ := ih closed
        have newline : '\n' ∈ c :: front := by
          by_cases same : c = '\n'
          · simp [same]
          · exact List.mem_cons_of_mem c (broken (by simp [same]))
        refine ⟨c :: front, back, rfl, by simp, ends, fun _ => newline, ?_⟩
        intro other ends
        have still : (if fresh = true then closingLine? (t :: tag) (c :: (front ++ other))
            else none) = none := by
          obtain ⟨line, more, cut⟩ := List.append_of_mem newline
          have same := closingLine?_line inside line (more ++ back) (more ++ other)
          rw [← List.cons_append, ← List.cons_append, ← List.append_assoc, ← List.append_assoc,
            ← cut] at same
          rw [← List.cons_append, ← same]
          exact found
        rw [List.cons_append, closeHeredoc, still]
        exact closes other ends

theorem opened?_eq (arrows rest : List Char) :
    opened? arrows rest =
      if !(rest.takeWhile isTagChar).head?.any isWordStart then none
      else (lineBreak? ((rest.dropWhile isTagChar).dropWhile isIndent)).map fun ending =>
        (arrows ++ rest.takeWhile isTagChar ++ (rest.dropWhile isTagChar).takeWhile isIndent ++
          ending, rest.takeWhile isTagChar) := by
  simp only [opened?]
  split
  · rfl
  · generalize (rest.dropWhile isTagChar).dropWhile isIndent = behind
    split
    · rfl
    · rfl
    · rename_i newline carriage
      simp [lineBreak?]

theorem opened?_line (arrows line rest other : List Char) :
    opened? arrows (line ++ '\n' :: rest) = opened? arrows (line ++ '\n' :: other) := by
  simp only [opened?_eq, @takeWhile_line isTagChar rfl,
    @dropWhile_line isTagChar rfl, @takeWhile_line isIndent rfl,
    @dropWhile_line isIndent rfl]
  rw [lineBreak?_line _ rest other]

theorem openingLine?_line (line rest other : List Char) :
    openingLine? (line ++ '\n' :: rest) = openingLine? (line ++ '\n' :: other) := by
  by_cases arrows : ∃ more, line = '<' :: '<' :: more
  · obtain ⟨more, rfl⟩ := arrows
    by_cases dash : ∃ back, more = '-' :: back
    · obtain ⟨back, rfl⟩ := dash
      simp only [List.cons_append, openingLine?_eq]
      exact opened?_line _ back rest other
    · have apart (behind : List Char) : ∀ back, more ++ '\n' :: behind ≠ '-' :: back := by
        intro back same
        cases more with
        | nil => simp at same
        | cons c more => exact dash ⟨more, by rw [(List.cons.inj same).1]⟩
      simp only [List.cons_append]
      rw [openingLine?_plain (apart rest), openingLine?_plain (apart other)]
      exact opened?_line _ more rest other
  · have apart (behind : List Char) : ∀ more, line ++ '\n' :: behind ≠ '<' :: '<' :: more := by
      intro more same
      match line with
      | [] => simp at same
      | [c] => simp at same
      | c :: d :: line =>
          simp only [List.cons_append, List.cons.injEq] at same
          exact arrows ⟨line, by rw [same.1, same.2.1]⟩
    rw [openingLine?_of_ne (apart rest), openingLine?_of_ne (apart other)]

theorem opened?_eq_some {arrows text opening tag : List Char}
    (found : opened? arrows text = some (opening, tag)) :
    ∃ line rest, opening = arrows ++ line ++ ['\n'] ∧ text = line ++ '\n' :: rest ∧
      ∃ t more, tag = t :: more ∧ isWordStart t = true ∧ '\n' ∉ tag := by
  rw [opened?_eq] at found
  split at found
  · cases found
  · rename_i start
    obtain ⟨ending, broken, same⟩ := Option.map_eq_some_iff.mp found
    obtain ⟨line, rest, rfl, cut⟩ := lineBreak?_eq_some broken
    obtain ⟨rfl, rfl⟩ := Prod.mk.inj same
    refine ⟨text.takeWhile isTagChar ++ (text.dropWhile isTagChar).takeWhile isIndent ++ line,
      rest, by simp, ?_, ?_⟩
    · have whole : text = text.takeWhile isTagChar ++
          ((text.dropWhile isTagChar).takeWhile isIndent ++ (line ++ ['\n'] ++ rest)) := by
        rw [← cut, List.takeWhile_append_dropWhile, List.takeWhile_append_dropWhile]
      simpa using whole
    · have inside : '\n' ∉ text.takeWhile isTagChar := by
        intro member
        exact absurd (List.all_eq_true.mp List.all_takeWhile _ member) (by decide)
      cases word : text.takeWhile isTagChar with
      | nil => simp [word] at start
      | cons t more => exact ⟨t, more, rfl, by simpa [word] using start, word ▸ inside⟩

theorem openingLine?_eq_some {text opening tag : List Char}
    (found : openingLine? text = some (opening, tag)) :
    ∃ line rest, opening = line ++ ['\n'] ∧ text = line ++ '\n' :: rest ∧
      ∃ t more, tag = t :: more ∧ isWordStart t = true ∧ '\n' ∉ tag := by
  rw [openingLine?_eq] at found
  split at found
  · obtain ⟨line, rest, rfl, rfl, tagged⟩ := opened?_eq_some found
    exact ⟨_, rest, rfl, rfl, tagged⟩
  · obtain ⟨line, rest, rfl, rfl, tagged⟩ := opened?_eq_some found
    exact ⟨_, rest, rfl, rfl, tagged⟩
  · cases found

theorem heredoc?_cut {text word : List Char} (found : heredoc? text = some word) :
    ∃ back, text = word ++ back ∧ endsLine back = true ∧
      ∀ other, endsLine other = true → heredoc? (word ++ other) = some word := by
  unfold heredoc? at found
  split at found
  · cases found
  · rename_i opening tag opened
    obtain ⟨line, rest, rfl, rfl, t, more, rfl, start, inside⟩ := openingLine?_eq_some opened
    rw [show line ++ '\n' :: rest = (line ++ ['\n']) ++ rest by simp, List.drop_left] at found
    obtain ⟨front, back, rfl, rfl, ends, -, closes⟩ := closeHeredoc_cut start inside found
    rw [List.reverse_reverse] at closes ⊢
    refine ⟨back, by simp, ends, fun other ends => ?_⟩
    have same := openingLine?_line line (front ++ back) (front ++ other)
    rw [opened] at same
    have shape : line ++ ['\n'] ++ front ++ other = line ++ '\n' :: (front ++ other) := by simp
    rw [heredoc?, shape, ← same]
    simp only
    rw [← shape, List.append_assoc (line ++ ['\n']), List.drop_left]
    exact closes other ends

theorem closeComment_cut {seen text word : List Char}
    (closed : closeComment seen text = some word) :
    ∃ front back, text = front ++ back ∧ word = seen.reverse ++ front ∧
      ∀ other, closeComment seen (front ++ other) = some word := by
  fun_induction closeComment seen text with
  | case1 seen => cases closed
  | case2 seen rest =>
      cases closed
      exact ⟨['*', '/'], rest, rfl, by simp, fun other => rfl⟩
  | case3 seen c rest apart ih =>
      obtain ⟨front, back, rfl, rfl, closes⟩ := ih closed
      refine ⟨c :: front, back, rfl, by simp, fun other => ?_⟩
      rw [List.cons_append, closeComment.eq_def]
      split
      · rename_i empty
        cases empty
      · -- The mark would reach into what follows, or have been there before.
        rename_i behind same
        obtain ⟨rfl, slash⟩ := List.cons.inj same
        cases front with
        | nil =>
            have stuck := closes []
            simp [closeComment] at stuck
        | cons d front =>
            obtain ⟨rfl, -⟩ := List.cons.inj slash
            exact (apart (front ++ back) rfl rfl).elim
      · rename_i same
        obtain ⟨rfl, rfl⟩ := List.cons.inj same
        exact closes other

theorem takeWhile_cut {accepts : Char → Bool} {stop : Char} (stops : accepts stop = false)
    {word back rest more : List Char} (whole : (word ++ (back ++ rest)).takeWhile accepts = word) :
    (word ++ (back ++ stop :: more)).takeWhile accepts = word := by
  have decides := (Pattern.many_one_decides accepts).first?
  have found : (Pattern.many (.one accepts)).first? (word ++ (back ++ rest)) = some word := by
    rw [decides, whole]
  have cut : (Pattern.many (.one accepts)).first? (word ++ (back ++ stop :: more)) = some word :=
    Pattern.first?_cut (by simp [Pattern.stopsAt, stops]) found
  rw [decides] at cut
  exact Option.some.inj cut

theorem comment_kept {word back rest more : List Char}
    (first : Piece.comment.pattern.first? (word ++ (back ++ rest)) = some word) :
    Piece.comment.pattern.first? (word ++ (back ++ '\n' :: more)) = some word := by
  have line (whole : (word ++ (back ++ rest)).takeWhile (· ≠ '\n') = word) :
      (word ++ (back ++ '\n' :: more)).takeWhile (· ≠ '\n') = word :=
    takeWhile_cut (by simp) whole
  rw [comment_first?] at first ⊢
  split at first
  · rename_i text behind same
    have again := line (Option.some.inj first)
    cases word with
    | nil => simp [same] at first
    | cons c word =>
        obtain ⟨rfl, -⟩ := List.cons.inj same
        exact congrArg some again
  · rename_i text behind same
    have again := line (Option.some.inj first)
    match word with
    | [] => simp [same] at first
    | [c] => simp [same] at first
    | c :: d :: word =>
        obtain ⟨rfl, behind⟩ := List.cons.inj same
        obtain ⟨rfl, -⟩ := List.cons.inj behind
        exact congrArg some again
  · rename_i text behind same
    obtain ⟨front, left, rfl, rfl, closes⟩ := closeComment_cut first
    exact closes _
  · cases first

/-- A string stays a string if no quote follows the line break: without one nothing that was left
open behind the string can be closed. -/
theorem string_kept {word back rest more : List Char} (quoteless : '"' ∉ more)
    (first : stringPattern.first? (word ++ (back ++ rest)) = some word) :
    stringPattern.first? (word ++ (back ++ '\n' :: more)) = some word := by
  rw [← List.append_assoc] at first ⊢
  have closes := (Pattern.keeps_after (.char '"')).alike
    (Pattern.alike_reverse (word ++ back).length rest ('\n' :: more)) (Or.inl rfl)
  have fails : Pattern.Fails ('\n' :: more) fun seen rest =>
      (Pattern.char '"').after seen rest fun seen _ => some seen.reverse := by
    rintro seen tail ⟨front, cut⟩
    cases tail with
    | nil => rfl
    | cons c tail =>
        have other : c ≠ '"' := by
          rintro rfl
          have member : '"' ∈ '\n' :: more := by simp [← cut]
          simp [quoteless] at member
        simp [Pattern.char, Pattern.one_after, other]
  have units := (Pattern.keeps_after (.many stringUnit)).alike closes (Or.inr ⟨rfl, fails⟩)
  have whole := Pattern.keeps_after (.char '"') _ _ units (Or.inl rfl) [] (word ++ back) (by simp)
  exact whole.some first (by simp)

theorem heredoc_kept {word back rest more : List Char}
    (first : heredocPattern.first? (word ++ (back ++ rest)) = some word) :
    heredocPattern.first? (word ++ (back ++ '\n' :: more)) = some word := by
  rw [heredocPattern_first?] at first ⊢
  obtain ⟨left, cut, ends, closes⟩ := heredoc?_cut first
  rw [← List.append_cancel_left cut] at ends
  apply closes
  rw [endsLine_eq] at ends ⊢
  cases back with
  | nil => rfl
  | cons c back =>
      simp only [List.cons_append, lineBreak?_cons, List.isEmpty_cons, Bool.false_or] at ends ⊢
      by_cases newline : c = '\n'
      · simp [newline]
      · by_cases carriage : c = '\r'
        · cases back with
          | nil => simp [carriage]
          | cons d back => simpa [newline, carriage] using ends
        · simp [newline, carriage] at ends

theorem gap_first?_iff {text word : List Char} :
    Piece.gap.pattern.first? text = some word ↔ text.takeWhile isGap = word ∧ word ≠ [] := by
  rw [Piece.pattern, (Pattern.several_one_decides isGap).first?]
  constructor
  · intro found
    split at found
    · cases found
    · rename_i filled
      cases found
      exact ⟨rfl, by simpa using filled⟩
  · rintro ⟨rfl, filled⟩
    simp [filled]

theorem gap_kept {word back rest more : List Char} (filled : back ≠ [])
    (first : Piece.gap.pattern.first? (word ++ (back ++ rest)) = some word) :
    Piece.gap.pattern.first? (word ++ (back ++ '\n' :: more)) = some word := by
  obtain ⟨c, back, rfl⟩ := List.exists_cons_of_ne_nil filled
  rw [gap_first?_iff] at first ⊢
  have blank : ∀ d ∈ word, isGap d = true := by
    rw [← first.1]
    exact fun d => List.all_eq_true.mp List.all_takeWhile d
  have apart : isGap c = false := by
    have whole := first.1
    rw [List.takeWhile_append_of_pos blank, List.cons_append, List.takeWhile_cons] at whole
    simpa using whole
  exact ⟨@takeWhile_cut _ _ apart _ [] _ _ first.1, first.2⟩

/-- A piece of a text stays a piece of it if the text is cut somewhere behind the piece. Only a gap
takes the line break along where the text is cut right behind it. -/
theorem Piece.kept {kind : Piece} {word back rest more : List Char} (quoteless : '"' ∉ more)
    (apart : kind = .gap → back ≠ [])
    (first : kind.pattern.first? (word ++ (back ++ rest)) = some word) :
    kind.pattern.first? (word ++ (back ++ '\n' :: more)) = some word := by
  cases kind with
  | gap => exact gap_kept (apart rfl) first
  | comment => exact comment_kept first
  | word terminal =>
      cases terminal with
      | string => exact string_kept quoteless first
      | heredoc => exact heredoc_kept first
      | _ => exact Pattern.first?_cut (by decide) first

theorem sign?_plain {terminal : Terminal} {sign : Char} (same : terminal.sign? = some sign) :
    sign ≠ '"' ∧ isGap sign = false := by
  cases terminal with
  | ident | string | heredoc | number => cases same
  | _ =>
      cases same
      decide

def Terminal.signs (terminals : List Terminal) : List Char := terminals.filterMap Terminal.sign?

theorem quote_notMem_signs (terminals : List Terminal) : '"' ∉ Terminal.signs terminals := by
  intro member
  obtain ⟨terminal, -, same⟩ := List.mem_filterMap.mp member
  exact (sign?_plain same).1 rfl

theorem lineBreak_gap {word : List Char} (blank : ∀ c ∈ word, isGap c = true)
    (terminals : List Terminal) :
    Piece.gap.pattern.first? (word ++ ['\n'] ++ Terminal.signs terminals) =
      some (word ++ ['\n']) := by
  have ends : (Terminal.signs terminals).takeWhile isGap = [] := by
    cases shape : Terminal.signs terminals with
    | nil => rfl
    | cons sign rest =>
        have member : sign ∈ Terminal.signs terminals := by simp [shape]
        obtain ⟨terminal, -, same⟩ := List.mem_filterMap.mp member
        simp [(sign?_plain same).2]
  rw [gap_first?_iff, List.takeWhile_append_of_pos, ends]
  · simp
  · intro c member
    rcases List.mem_append.mp member with inside | last
    · exact blank c inside
    · rw [List.mem_singleton.mp last]
      rfl

theorem Splits.signs {terminals : List Terminal}
    (all : ∀ terminal ∈ terminals, terminal.sign? ≠ none) : ∀ position : Position,
      ∃ stretches final, Splits position (Terminal.signs terminals) stretches final [] ∧
        (stretches.filterMap Stretch.lexeme?).map Lexeme.terminal = terminals := by
  induction terminals with
  | nil => exact fun position => ⟨[], position, Splits.nil, rfl⟩
  | cons terminal terminals ih =>
      intro position
      obtain ⟨sign, same⟩ := Option.ne_none_iff_exists'.mp (all terminal (by simp))
      obtain ⟨stretches, final, splits, shown⟩ :=
        ih (fun other member => all other (by simp [member])) (position.advanceBy [sign])
      have first : (Piece.word terminal).pattern.first? ([sign] ++ Terminal.signs terminals) =
          some [sign] := by
        rw [Piece.pattern, sign?_pattern same]
        exact Pattern.literally_first?_iff.mpr ⟨rfl, _, rfl⟩
      refine ⟨⟨.word terminal, [sign], position⟩ :: stretches, final, ?_, ?_⟩
      · rw [Terminal.signs, List.filterMap_cons_some same]
        exact Splits.more first splits
      · simp [Stretch.lexeme?, shown]

theorem Splits.length_le {position final : Position} {text left : List Char}
    {stretches : List Stretch} (splits : Splits position text stretches final left) :
    stretches.length + left.length ≤ text.length := by
  induction splits with
  | nil => simp
  | @more position kind word rest stretches final left first _ ih =>
      have filled := List.length_pos_iff.mpr ((pattern_consumes kind).first?_ne_nil first)
      simp only [List.length_cons, List.length_append]
      omega

/-- The words in front of a place stay what they are if a line break and signs follow there. -/
theorem Splits.kept {position final : Position} {text left : List Char} {stretches : List Stretch}
    (splits : Splits position text stretches final left) (terminals : List Terminal) :
    ∃ front, text = front ++ left ∧ final = position.advanceBy front ∧
      ∃ others last, Splits position (front ++ '\n' :: Terminal.signs terminals) others last
          (Terminal.signs terminals) ∧
        others.filterMap Stretch.lexeme? = stretches.filterMap Stretch.lexeme? := by
  induction splits with
  | @nil position text =>
      have gap := @lineBreak_gap [] (by simp) terminals
      exact ⟨[], rfl, rfl, [⟨.gap, ['\n'], position⟩], _, Splits.more gap Splits.nil, rfl⟩
  | @more position kind word rest stretches final left first behind ih =>
      obtain ⟨front, rfl, rfl, others, last, again, same⟩ := ih
      refine ⟨word ++ front, (List.append_assoc _ _ _).symm,
        (Position.advanceBy_append _ _ _).symm, ?_⟩
      by_cases merges : kind = .gap ∧ front = []
      · obtain ⟨rfl, rfl⟩ := merges
        have blank : ∀ c ∈ word, isGap c = true := by
          rw [← (gap_first?_iff.mp first).1]
          exact fun c => List.all_eq_true.mp List.all_takeWhile c
        have short := behind.length_le
        rw [List.nil_append] at short
        have empty : stretches = [] := List.length_eq_zero_iff.mp (by omega)
        refine ⟨[⟨.gap, word ++ ['\n'], position⟩], position.advanceBy (word ++ ['\n']), ?_, ?_⟩
        · rw [List.append_nil, List.append_cons]
          exact Splits.more (lineBreak_gap blank terminals) Splits.nil
        · rw [empty]
          rfl
      · have apart : kind = .gap → front ≠ [] := fun gap empty => merges ⟨gap, empty⟩
        have kept := Piece.kept (quote_notMem_signs terminals) apart first
        refine ⟨⟨kind, word, position⟩ :: others, last, ?_, ?_⟩
        · rw [List.append_assoc]
          exact Splits.more kept again
        · rw [List.filterMap_cons, List.filterMap_cons, same]

end ConfigIndex.Document
