import ConfigIndex.Proofs.Document.Strings

/-!
What a document is read as, piece by piece, is what the patterns match.
-/

namespace ConfigIndex.Document

open Text (Pattern)

theorem identPattern_first? (text : List Char) :
    identPattern.first? text = match text with
      | c :: _ => if isWordStart c then some (text.takeWhile isWordChar) else none
      | [] => none := by
  cases text with
  | nil => rfl
  | cons c rest =>
      by_cases start : isWordStart c = true
      · have tail := Pattern.many_one_decides isWordChar [c] rest (fun seen _ => some seen.reverse)
          (fun _ _ => rfl)
        simp only [Pattern.first?, identPattern, Pattern.after] at tail ⊢
        simp [tail, start, isWordChar]
      · simp [Pattern.first?, identPattern, Pattern.after, start]

def hexadecimalText (text : List Char) : List Char :=
  match text with
  | '0' :: x :: rest =>
    let digits := rest.takeWhile isHexDigit
    if (x = 'x' || x = 'X') && !digits.isEmpty then '0' :: x :: digits else []
  | _ => []

def minusOf (text : List Char) : List Char :=
  match text with
  | '-' :: _ => ['-']
  | _ => []

theorem hexadecimalText_of_ne {c : Char} {rest : List Char} (other : c ≠ '0') :
    hexadecimalText (c :: rest) = [] := by
  unfold hexadecimalText
  split
  · simp_all
  · rfl

theorem hexadecimal_decides : hexadecimal.Decides (Pattern.filled hexadecimalText) := by
  intro seen text next total
  match text with
  | [] => rfl
  | [c] =>
      have empty : hexadecimalText [c] = [] := by
        unfold hexadecimalText
        split <;> simp_all
      by_cases zero : c = '0'
      · simp [hexadecimal, Pattern.char, Pattern.after, Pattern.filled, empty]
      · simp [hexadecimal, Pattern.char, Pattern.after, Pattern.filled, empty, zero]
  | c :: x :: rest =>
      by_cases zero : c = '0'
      · subst zero
        by_cases mark : x = 'x' || x = 'X'
        · have digits := Pattern.several_one_decides isHexDigit (x :: '0' :: seen) rest next total
          simp only [hexadecimal, Pattern.char, Pattern.after, decide_true, if_true, mark]
          rw [digits]
          by_cases none : (rest.takeWhile isHexDigit).isEmpty
          · simp [Pattern.filled, hexadecimalText, none]
          · simp [Pattern.filled, hexadecimalText, none, mark]
        · simp [hexadecimal, Pattern.char, Pattern.after, Pattern.filled, mark, hexadecimalText]
      · simp [hexadecimal, Pattern.char, Pattern.after, Pattern.filled, zero,
          hexadecimalText_of_ne zero]

theorem number?_eq (text : List Char) :
    number? text =
      let rest := text.drop (minusOf text).length
      ((Pattern.filled hexadecimalText rest).or (Text.numeral? rest)).map (minusOf text ++ ·) := by
  change (let rest := text.drop (minusOf text).length
    if (hexadecimalText rest).isEmpty then (Text.numeral? rest).map (minusOf text ++ ·)
    else some (minusOf text ++ hexadecimalText rest)) = _
  simp only [Pattern.filled]
  split
  · rfl
  · rfl

theorem numberPattern_first? (text : List Char) : numberPattern.first? text = number? text := by
  have unsigned : ∀ seen rest,
      (Pattern.either hexadecimal .numeral).after seen rest (fun seen _ => some seen.reverse) =
        ((Pattern.filled hexadecimalText rest).or (Text.numeral? rest)).map
          (seen.reverse ++ ·) := by
    intro seen rest
    rw [(hexadecimal_decides.either Pattern.numeral_decides) seen rest _ (fun _ _ => rfl)]
    dsimp only
    generalize (Pattern.filled hexadecimalText rest).or (Text.numeral? rest) = word
    cases word <;> simp
  rw [number?_eq]
  simp only [Pattern.first?, numberPattern, Pattern.maybe, Pattern.seq_after, Pattern.either_after]
  cases text with
  | nil => rfl
  | cons c rest =>
      by_cases minus : c = '-'
      · subst minus
        have other : Text.numeral? ('-' :: rest) = none := by
          simp [Text.numeral?, show Text.isDecimal '-' = false by decide]
        have front := unsigned ['-'] rest
        have back := unsigned [] ('-' :: rest)
        simp only [Pattern.filled, hexadecimalText_of_ne (show '-' ≠ '0' by decide), other] at back
        simp only [Pattern.char, Pattern.after, decide_true, if_true, minusOf] at front back ⊢
        rw [front, back]
        simp
      · have plain : minusOf (c :: rest) = [] := by
          unfold minusOf
          split <;> simp_all
        have front := unsigned [] (c :: rest)
        simp only [Pattern.char, Pattern.after, minus, plain] at front ⊢
        simp [front]

theorem lineComment_first? (mark rest : List Char) (inside : ∀ c ∈ mark, c ≠ '\n') :
    (lineComment mark).first? (mark ++ rest) = some ((mark ++ rest).takeWhile (· ≠ '\n')) := by
  have tail := Pattern.many_one_decides (· ≠ '\n') (mark.reverse ++ []) rest
    (fun seen _ => some seen.reverse) (fun _ _ => rfl)
  simp only [Pattern.first?, lineComment, Pattern.seq_after, Pattern.literally_after, inLine]
  rw [if_pos (List.isPrefixOf_iff_prefix.mpr (List.prefix_append _ _)), List.drop_left, tail,
    List.takeWhile_append_of_pos (by simpa using inside)]
  simp

theorem few_eq_closeComment (seen text : List Char) :
    ((Pattern.few (.one fun _ => true)).after seen text fun seen rest =>
      (Pattern.literally ['*', '/']).after seen rest fun seen _ => some seen.reverse) =
      closeComment seen text := by
  fun_induction closeComment seen text with
  | case1 seen => rfl
  | case2 seen rest =>
      rw [(Pattern.consumes_one _).few_unroll]
      simp [Pattern.literally_after]
  | case3 seen c rest apart ih =>
      rw [(Pattern.consumes_one _).few_unroll, Pattern.one_after, if_pos rfl, ih,
        Pattern.literally_after, if_neg, Option.none_or]
      intro front
      obtain ⟨more, cut⟩ := List.isPrefixOf_iff_prefix.mp front
      simp only [List.cons_append, List.nil_append, List.cons.injEq] at cut
      exact apart more cut.1.symm cut.2.symm

theorem blockComment_first? (rest : List Char) :
    blockComment.first? ('/' :: '*' :: rest) = closeComment ['*', '/'] rest := by
  rw [← few_eq_closeComment]
  rfl

/-! Heredocs. -/

def tagLine (tag : List Char) : Pattern :=
  .seq indentPattern (.seq (.literally tag) (.ahead (.either lineBreak .finish)))

def tagNext (tag : List Char) : Pattern.Next := fun seen rest =>
  (tagLine tag).after seen rest fun seen _ => some seen.reverse

def lineNext (tag : List Char) : Pattern.Next := fun seen rest =>
  (Pattern.few (.seq (.many inLine) (.char '\n'))).after seen rest (tagNext tag)

def breakNext (tag : List Char) : Pattern.Next := fun seen rest =>
  (Pattern.many inLine).after seen rest fun seen rest =>
    (Pattern.char '\n').after seen rest (lineNext tag)

theorem lineNext_unroll (tag seen text : List Char) :
    lineNext tag seen text = (tagNext tag seen text).or (breakNext tag seen text) := by
  have consumes : Pattern.Consumes (.seq (.many inLine) (.char '\n')) :=
    (Pattern.consumes_one _).behind _
  rw [lineNext, consumes.few_unroll]
  rfl

theorem breakNext_cons (tag seen rest : List Char) (c : Char) :
    breakNext tag seen (c :: rest) =
      if c = '\n' then lineNext tag (c :: seen) rest else breakNext tag (c :: seen) rest := by
  rw [breakNext, inLine, Pattern.many_one_cons]
  by_cases newline : c = '\n'
  · simp [newline, Pattern.char, Pattern.after]
  · simp [newline, Pattern.char, Pattern.after, breakNext, inLine]

theorem ahead_endsLine (text : List Char) (seen : List Char) (next : Pattern.Next) :
    (Pattern.ahead (.either lineBreak .finish)).after seen text next =
      if endsLine text then next seen text else none := by
  have same : ((Pattern.either lineBreak .finish).after [] text fun _ _ => some []).isSome =
      endsLine text := by
    unfold endsLine
    split
    · rfl
    · rfl
    · rfl
    · rename_i filled newline carriage
      cases text with
      | nil => exact absurd rfl filled
      | cons c rest =>
          have other : c ≠ '\n' := fun same => newline rest (by rw [same])
          by_cases back : c = '\r'
          · subst back
            cases rest with
            | nil => simp [lineBreak, Pattern.maybe, Pattern.char, Pattern.after]
            | cons d more =>
                have apart : d ≠ '\n' := fun same => carriage more (by rw [same])
                simp [lineBreak, Pattern.maybe, Pattern.char, Pattern.after, apart]
          · simp [lineBreak, Pattern.maybe, Pattern.char, Pattern.after, other, back]
  rw [Pattern.after, same]

theorem isIndent_of_isWordStart {c : Char} (start : isWordStart c = true) :
    isIndent c = false := by
  apply Bool.eq_false_iff.mpr
  intro indent
  simp only [isIndent, Bool.or_eq_true, decide_eq_true_eq] at indent
  rcases indent with rfl | rfl
  all_goals exact absurd start (by decide)

/-- No indent can be mistaken for a tag, so all of it stands before the tag. -/
theorem tagNext_eq {t : Char} {tag : List Char} (start : isWordStart t = true)
    (seen text : List Char) :
    tagNext (t :: tag) seen text = (closingLine? (t :: tag) text).map (seen.reverse ++ ·) := by
  have apart : ∀ seen c rest, isIndent c = true →
      ((Pattern.literally (t :: tag)).after seen (c :: rest) fun seen rest =>
        (Pattern.ahead (.either lineBreak .finish)).after seen rest fun seen _ =>
          some seen.reverse) = none := by
    intro seen c rest indent
    rw [Pattern.literally_after, if_neg]
    intro front
    simp only [List.isPrefixOf, Bool.and_eq_true, beq_iff_eq] at front
    rw [← front.1, isIndent_of_isWordStart start] at indent
    cases indent
  simp only [tagNext, tagLine, indentPattern, Pattern.seq_after]
  rw [Pattern.many_one_apart apart, Pattern.literally_after, ahead_endsLine]
  simp only [closingLine?, Pattern.drop_takeWhile_length, Bool.and_eq_true]
  by_cases front : (t :: tag).isPrefixOf (text.dropWhile isIndent) = true
  · by_cases ends : endsLine ((text.dropWhile isIndent).drop (t :: tag).length) = true
    · simp only [front, ends, and_self, if_true, Option.map_some]
      simp
    · simp [front]
  · simp [front]

theorem closeHeredoc_next (t : Char) (tag : List Char) (start : isWordStart t = true)
    (fresh : Bool) (seen text : List Char) :
    (if fresh then lineNext (t :: tag) seen text else breakNext (t :: tag) seen text) =
      closeHeredoc (t :: tag) fresh seen text := by
  induction text generalizing fresh seen with
  | nil =>
      have nothing : closingLine? (t :: tag) [] = none := rfl
      have stuck : breakNext (t :: tag) seen [] = none := rfl
      rw [lineNext_unroll, tagNext_eq start, nothing, stuck]
      simp [closeHeredoc]
  | cons c rest ih =>
      have further : breakNext (t :: tag) seen (c :: rest) =
          closeHeredoc (t :: tag) (c = '\n') (c :: seen) rest := by
        rw [← ih, breakNext_cons]
        by_cases newline : c = '\n'
        · simp [newline]
        · simp [newline]
      cases fresh with
      | false => simp [closeHeredoc, further]
      | true =>
          rw [if_pos rfl, lineNext_unroll, tagNext_eq start, further]
          cases found : closingLine? (t :: tag) (c :: rest) with
          | none => simp [closeHeredoc, found]
          | some line => simp [closeHeredoc, found]

def opened? (arrows rest : List Char) : Option (List Char × List Char) :=
  let tag := rest.takeWhile isTagChar
  let blanks := (rest.dropWhile isTagChar).takeWhile isIndent
  if !tag.head?.any isWordStart then none
  else match (rest.dropWhile isTagChar).dropWhile isIndent with
    | '\n' :: _ => some (arrows ++ tag ++ blanks ++ ['\n'], tag)
    | '\r' :: '\n' :: _ => some (arrows ++ tag ++ blanks ++ ['\r', '\n'], tag)
    | _ => none

theorem lineBreak_after (seen text : List Char) (next : Pattern.Next) :
    lineBreak.after seen text next = match text with
      | '\n' :: rest => next ('\n' :: seen) rest
      | '\r' :: '\n' :: rest => next ('\n' :: '\r' :: seen) rest
      | _ => none := by
  split
  · simp [lineBreak, Pattern.maybe, Pattern.char, Pattern.after]
  · simp [lineBreak, Pattern.maybe, Pattern.char, Pattern.after]
  · rename_i newline carriage
    cases text with
    | nil => rfl
    | cons c rest =>
        have other : c ≠ '\n' := fun same => newline rest (by rw [same])
        cases rest with
        | nil => simp [lineBreak, Pattern.maybe, Pattern.char, Pattern.after, other]
        | cons d rest =>
            have apart : c = '\r' → d ≠ '\n' := fun same also => carriage rest (by rw [same, also])
            by_cases back : c = '\r'
            · simp [lineBreak, Pattern.maybe, Pattern.char, Pattern.after, back, apart back]
            · simp [lineBreak, Pattern.maybe, Pattern.char, Pattern.after, other, back]

theorem lineBreak_apart {seen rest : List Char} {c : Char} {next : Pattern.Next}
    (newline : c ≠ '\n') (carriage : c ≠ '\r') : lineBreak.after seen (c :: rest) next = none := by
  rw [lineBreak_after]
  split <;> simp_all

theorem isTagChar_apart {c : Char} (inside : isTagChar c = true) :
    isIndent c = false ∧ c ≠ '\n' ∧ c ≠ '\r' := by
  refine ⟨?_, ?_, ?_⟩
  · apply Bool.eq_false_iff.mpr
    intro indent
    simp only [isIndent, Bool.or_eq_true, decide_eq_true_eq] at indent
    rcases indent with rfl | rfl
    all_goals exact absurd inside (by decide)
  · rintro rfl
    exact absurd inside (by decide)
  · rintro rfl
    exact absurd inside (by decide)

def taggedNext : Pattern.Next := fun seen rest =>
  (Pattern.capture tagPattern fun tag =>
    .seq indentPattern (.seq lineBreak (heredocBody tag))).after seen rest fun seen _ =>
      some seen.reverse

theorem taggedNext_cons {c : Char} (seen rest : List Char) (start : isWordStart c = true) :
    taggedNext seen (c :: rest) =
      lineBreak.after
        (((rest.dropWhile isTagChar).takeWhile isIndent).reverse ++
          ((rest.takeWhile isTagChar).reverse ++ [c] ++ seen))
        ((rest.dropWhile isTagChar).dropWhile isIndent)
        (lineNext (c :: rest.takeWhile isTagChar)) := by
  have behind : ∀ tag seen left, (Pattern.seq indentPattern
      (.seq lineBreak (heredocBody tag))).after seen left (fun seen _ => some seen.reverse) =
        lineBreak.after ((left.takeWhile isIndent).reverse ++ seen) (left.dropWhile isIndent)
          (lineNext tag) := by
    intro tag seen left
    rw [Pattern.seq_after, indentPattern, Pattern.many_one_apart]
    · rfl
    · intro seen d more indent
      rw [Pattern.seq_after, lineBreak_apart]
      · rintro rfl
        exact absurd indent (by decide)
      · rintro rfl
        exact absurd indent (by decide)
  rw [taggedNext, Pattern.after, tagPattern, Pattern.seq_after, Pattern.one_after, if_pos start,
    Pattern.many_one_apart]
  · rw [behind]
    simp
  · intro word d more inside
    obtain ⟨indent, newline, carriage⟩ := isTagChar_apart inside
    rw [behind, List.takeWhile_cons_of_neg (by simp [indent]),
      List.dropWhile_cons_of_neg (by simp [indent]), lineBreak_apart newline carriage]

theorem taggedNext_eq (arrows rest : List Char) :
    taggedNext arrows.reverse rest =
      match opened? arrows rest with
      | none => none
      | some (opening, tag) =>
        closeHeredoc tag true opening.reverse ((arrows ++ rest).drop opening.length) := by
  cases rest with
  | nil => rfl
  | cons c rest =>
      by_cases start : isWordStart c = true
      · have tagged : isTagChar c = true := by simp [isTagChar, start]
        have cut : arrows ++ c :: rest =
            arrows ++ (c :: rest.takeWhile isTagChar) ++
              (rest.dropWhile isTagChar).takeWhile isIndent ++
              (rest.dropWhile isTagChar).dropWhile isIndent := by
          simp
        rw [taggedNext_cons _ _ start, lineBreak_after, cut]
        simp only [opened?, List.takeWhile_cons_of_pos tagged, List.dropWhile_cons_of_pos tagged,
          List.head?_cons, Option.any_some, start, Bool.not_true, Bool.false_eq_true, if_false]
        have drops : ∀ front back more : List Char,
            (front ++ (back ++ more)).drop (front ++ back).length = more := by
          intro front back more
          rw [← List.append_assoc, List.drop_left]
        have closes := closeHeredoc_next c (rest.takeWhile isTagChar) start true
        simp only [if_true] at closes
        split
        · rename_i more same
          dsimp only
          rw [closes, same, show '\n' :: more = ['\n'] ++ more from rfl, drops]
          simp
        · rename_i more same
          dsimp only
          rw [closes, same, show '\r' :: '\n' :: more = ['\r', '\n'] ++ more from rfl, drops]
          simp
        · rfl
      · have closed : taggedNext arrows.reverse (c :: rest) = none := by
          simp [taggedNext, tagPattern, Pattern.after, start]
        have missing : opened? arrows (c :: rest) = none := by
          by_cases tagged : isTagChar c = true
          · simp [opened?, tagged, start]
          · simp [opened?, tagged]
        rw [closed, missing]

theorem openingLine?_eq (text : List Char) :
    openingLine? text = match text with
      | '<' :: '<' :: '-' :: rest => opened? ['<', '<', '-'] rest
      | '<' :: '<' :: rest => opened? ['<', '<'] rest
      | _ => none := by
  unfold openingLine? opened?
  split
  · simp only [Pattern.drop_takeWhile_length]
    rfl
  · simp only [Pattern.drop_takeWhile_length]
    rfl
  · simp

theorem openingLine?_plain {rest : List Char} (apart : ∀ more, rest ≠ '-' :: more) :
    openingLine? ('<' :: '<' :: rest) = opened? ['<', '<'] rest := by
  rw [openingLine?_eq]
  split
  · rename_i same
    simp only [List.cons.injEq, true_and] at same
    exact absurd same (apart _)
  · rename_i same
    simp only [List.cons.injEq, true_and] at same
    rw [same]
  · rename_i other
    exact absurd rfl (other rest)

theorem openingLine?_of_ne {text : List Char} (apart : ∀ rest, text ≠ '<' :: '<' :: rest) :
    openingLine? text = none := by
  unfold openingLine?
  split
  · exact absurd rfl (apart _)
  · exact absurd rfl (apart _)
  · rfl

theorem heredoc?_of_ne {text : List Char} (apart : ∀ rest, text ≠ '<' :: '<' :: rest) :
    heredoc? text = none := by
  rw [heredoc?, openingLine?_of_ne apart]

theorem heredocPattern_first? (text : List Char) : heredocPattern.first? text = heredoc? text := by
  have opening : heredocPattern.first? text =
      (Pattern.literally ['<', '<']).after [] text fun seen rest =>
        ((Pattern.char '-').after seen rest taggedNext).or (taggedNext seen rest) := rfl
  rw [opening, Pattern.literally_after]
  split
  · rename_i front
    obtain ⟨rest, rfl⟩ := List.isPrefixOf_iff_prefix.mp front
    by_cases dash : ∃ more, rest = '-' :: more
    · obtain ⟨more, rfl⟩ := dash
      have undashed : taggedNext ['<', '<'] ('-' :: more) = none := rfl
      have dashed := taggedNext_eq ['<', '<', '-'] more
      have line : openingLine? ('<' :: '<' :: '-' :: more) = opened? ['<', '<', '-'] more :=
        openingLine?_eq _
      rw [← line] at dashed
      change (taggedNext ['-', '<', '<'] more).or (taggedNext ['<', '<'] ('-' :: more)) = _
      rw [undashed, Option.or_none]
      exact dashed
    · have apart : ∀ more, rest ≠ '-' :: more := fun more same => dash ⟨more, same⟩
      have other : (Pattern.char '-').after ['<', '<'] rest taggedNext = none := by
        cases rest with
        | nil => rfl
        | cons c more =>
            have apart : c ≠ '-' := fun same => apart more (by rw [same])
            simp [Pattern.char, Pattern.after, apart]
      have undashed := taggedNext_eq ['<', '<'] rest
      rw [← openingLine?_plain apart] at undashed
      change ((Pattern.char '-').after ['<', '<'] rest taggedNext).or
        (taggedNext ['<', '<'] rest) = _
      rw [other, Option.none_or]
      exact undashed
  · rename_i plain
    rw [heredoc?_of_ne]
    rintro rest rfl
    exact plain rfl

theorem gap_first? (text : List Char) :
    Piece.gap.pattern.first? text = match text with
      | c :: _ => if isGap c then some (text.takeWhile isGap) else none
      | [] => none := by
  rw [Piece.pattern, (Pattern.several_one_decides isGap).first?]
  cases text with
  | nil => rfl
  | cons c rest =>
      by_cases gap : isGap c = true
      · simp [gap]
      · simp [gap]

theorem comment_first? (text : List Char) :
    Piece.comment.pattern.first? text = match text with
      | '#' :: _ => some (text.takeWhile (· ≠ '\n'))
      | '/' :: '/' :: _ => some (text.takeWhile (· ≠ '\n'))
      | '/' :: '*' :: rest => closeComment ['*', '/'] rest
      | _ => none := by
  have apart : ∀ mark : List Char, (∀ rest, text ≠ mark ++ rest) →
      ∀ behind : Pattern, (Pattern.seq (.literally mark) behind).first? text = none := by
    intro mark other behind
    rw [Pattern.first?, Pattern.seq_after, Pattern.literally_after, if_neg]
    intro front
    obtain ⟨rest, cut⟩ := List.isPrefixOf_iff_prefix.mp front
    exact other rest cut.symm
  have parts : Piece.comment.pattern.first? text =
      ((lineComment ['#']).first? text).or
        (((lineComment ['/', '/']).first? text).or (blockComment.first? text)) := rfl
  rw [parts]
  split
  · rename_i rest
    have found := lineComment_first? ['#'] rest (by simp)
    rw [List.singleton_append] at found
    rw [found, Option.some_or]
  · rename_i rest
    have found := lineComment_first? ['/', '/'] rest (by simp)
    simp only [List.cons_append, List.nil_append] at found
    rw [lineComment, apart ['#'] (by simp), Option.none_or, found, Option.some_or]
  · rename_i rest
    rw [lineComment, apart ['#'] (by simp), lineComment, apart ['/', '/'] (by simp),
      blockComment_first?, Option.none_or, Option.none_or]
  · rename_i hash slashes block
    rw [lineComment, apart ['#'] hash, lineComment, apart ['/', '/'] slashes, blockComment,
      apart ['/', '*'] block, Option.none_or, Option.none_or]

theorem number?_head {c : Char} {rest word : List Char}
    (found : number? (c :: rest) = some word) : (c = '-' || Text.isDecimal c) = true := by
  by_cases minus : c = '-'
  · simp [minus]
  · cases decimal : Text.isDecimal c with
    | true => simp
    | false =>
        have plain : minusOf (c :: rest) = [] := by
          unfold minusOf
          split <;> simp_all
        have other : c ≠ '0' := by
          rintro rfl
          exact absurd decimal (by decide)
        rw [number?_eq, plain] at found
        simp [Pattern.filled, hexadecimalText_of_ne other, Text.numeral?, decimal] at found

theorem mark?_first? {c : Char} {terminal : Terminal} (found : mark? c = some terminal)
    (rest : List Char) : terminal.pattern.first? (c :: rest) = some [c] := by
  unfold mark? at found
  split at found
  case h_7 => cases found
  all_goals
    cases found
    exact Pattern.literally_first?_iff.mpr ⟨rfl, rest, rfl⟩

theorem piece?_sound {text word : List Char} {kind : Piece}
    (found : piece? text = some (kind, word)) : kind.pattern.first? text = some word := by
  unfold piece? at found
  split at found
  · cases found
  · rename_i c rest
    split at found
    · rename_i gap
      cases found
      rw [gap_first?]
      exact if_pos gap
    split at found
    · rename_i quote
      simp only [Option.map_eq_some_iff, Prod.mk.injEq] at found
      obtain ⟨string, closed, rfl, rfl⟩ := found
      rw [Piece.pattern, Terminal.pattern, stringPattern_first?, quote, ← closed, quote]
      rfl
    split at found
    · simp only [Option.map_eq_some_iff, Prod.mk.injEq] at found
      obtain ⟨heredoc, closed, rfl, rfl⟩ := found
      rw [Piece.pattern, Terminal.pattern, heredocPattern_first?, closed]
    split at found
    · rename_i hash
      cases found
      rw [comment_first?, hash]
      rfl
    split at found
    · rename_i slash
      split at found
      · cases found
        rw [comment_first?, slash]
        rfl
      · simp only [Option.map_eq_some_iff, Prod.mk.injEq] at found
        obtain ⟨comment, closed, rfl, rfl⟩ := found
        rw [comment_first?, slash, ← closed]
        rfl
      · cases found
    split at found
    · rename_i start
      cases found
      rw [Piece.pattern, Terminal.pattern, identPattern_first?]
      exact if_pos start
    split at found
    · simp only [Option.map_eq_some_iff, Prod.mk.injEq] at found
      obtain ⟨number, read, rfl, rfl⟩ := found
      rw [Piece.pattern, Terminal.pattern, numberPattern_first?, read]
    · simp only [Option.map_eq_some_iff, Prod.mk.injEq] at found
      obtain ⟨terminal, mark, rfl, rfl⟩ := found
      exact mark?_first? mark rest

theorem isWordStart_apart {c : Char} (start : isWordStart c = true) :
    isGap c = false ∧ ∀ mark ∈ ['"', '<', '#', '/'], c ≠ mark := by
  constructor
  · apply Bool.eq_false_iff.mpr
    intro gap
    simp only [isGap, Bool.or_eq_true, decide_eq_true_eq] at gap
    rcases gap with (((rfl | rfl) | rfl) | rfl) | rfl
    all_goals exact absurd start (by decide)
  · rintro mark member rfl
    simp only [List.mem_cons, List.not_mem_nil, or_false] at member
    rcases member with rfl | rfl | rfl | rfl
    all_goals exact absurd start (by decide)

theorem number_apart {c : Char} (head : (c = '-' || Text.isDecimal c) = true) :
    isGap c = false ∧ (∀ mark ∈ ['"', '<', '#', '/'], c ≠ mark) ∧ isWordStart c = false := by
  refine ⟨?_, ?_, ?_⟩
  · apply Bool.eq_false_iff.mpr
    intro gap
    simp only [isGap, Bool.or_eq_true, decide_eq_true_eq] at gap
    rcases gap with (((rfl | rfl) | rfl) | rfl) | rfl
    all_goals exact absurd head (by decide)
  · rintro mark member rfl
    simp only [List.mem_cons, List.not_mem_nil, or_false] at member
    rcases member with rfl | rfl | rfl | rfl
    all_goals exact absurd head (by decide)
  · apply Bool.eq_false_iff.mpr
    intro start
    have decimal := Text.isDecimal_of_letter start
    simp only [decimal, Bool.or_false, decide_eq_true_eq] at head
    subst head
    exact absurd start (by decide)

section

variable {text word : List Char}

theorem piece?_gap (found : Piece.gap.pattern.first? text = some word) :
    piece? text = some (.gap, word) := by
  rw [gap_first?] at found
  cases text with
  | nil => cases found
  | cons c rest =>
      by_cases gap : isGap c = true
      · simp only [gap, if_true, Option.some.injEq] at found
        simp [piece?, gap, ← found]
      · simp [gap] at found

theorem piece?_comment (found : Piece.comment.pattern.first? text = some word) :
    piece? text = some (.comment, word) := by
  rw [comment_first?] at found
  split at found
  · cases found
    rfl
  · cases found
    rfl
  · change (closeComment _ _).map _ = _
    rw [found]
    rfl
  · cases found

theorem piece?_ident (found : Terminal.ident.pattern.first? text = some word) :
    piece? text = some (.word .ident, word) := by
  rw [Terminal.pattern, identPattern_first?] at found
  cases text with
  | nil => cases found
  | cons c rest =>
      by_cases start : isWordStart c = true
      · obtain ⟨gap, marks⟩ := isWordStart_apart start
        simp only [start, if_true, Option.some.injEq] at found
        simp only [List.forall_mem_cons] at marks
        simp [piece?, gap, marks, start, ← found]
      · simp [start] at found

theorem piece?_string (found : Terminal.string.pattern.first? text = some word) :
    piece? text = some (.word .string, word) := by
  rw [Terminal.pattern, stringPattern_first?] at found
  split at found
  · change (closeString _ _ _).map _ = _
    rw [found]
    rfl
  · cases found

theorem piece?_heredoc (found : Terminal.heredoc.pattern.first? text = some word) :
    piece? text = some (.word .heredoc, word) := by
  rw [Terminal.pattern, heredocPattern_first?] at found
  by_cases arrows : ∃ rest, text = '<' :: '<' :: rest
  · obtain ⟨rest, rfl⟩ := arrows
    change (heredoc? _).map _ = _
    rw [found]
    rfl
  · rw [heredoc?_of_ne fun rest same => arrows ⟨rest, same⟩] at found
    cases found

theorem piece?_number (found : Terminal.number.pattern.first? text = some word) :
    piece? text = some (.word .number, word) := by
  rw [Terminal.pattern, numberPattern_first?] at found
  cases text with
  | nil => cases found
  | cons c rest =>
      have head := number?_head found
      obtain ⟨gap, marks, start⟩ := number_apart head
      simp only [List.forall_mem_cons] at marks
      simp only [Bool.or_eq_true, decide_eq_true_eq] at head
      simp [piece?, gap, marks, start, head, found]

/-- No two kinds of pieces start with the same character. -/
theorem piece?_complete {kind : Piece} (found : kind.pattern.first? text = some word) :
    piece? text = some (kind, word) := by
  cases kind with
  | gap => exact piece?_gap found
  | comment => exact piece?_comment found
  | word terminal =>
      cases terminal with
      | ident => exact piece?_ident found
      | string => exact piece?_string found
      | heredoc => exact piece?_heredoc found
      | number => exact piece?_number found
      | _ =>
          obtain ⟨rfl, rest, rfl⟩ := Pattern.literally_first?_iff.mp found
          rfl

end

end ConfigIndex.Document
