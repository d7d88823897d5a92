import ConfigIndex.Proofs.Template.Grammar

/-!
The words that the reader of a template finds are the first matches of their patterns.
-/

namespace ConfigIndex.Template

open Text (Pattern)
open Text.Pattern (literally_first?_iff)
open Text.Pattern (after Next Consumes consumes_one many_one_total many_total one_after
  seq_after)

theorem escape_after (seen : List Char) (c d : Char) (rest : List Char) (next : Next)
    (plain : ∀ more, c :: d :: rest ≠ '$' :: '$' :: '{' :: more) :
    (Pattern.literally ['$', '$', '{']).after seen (c :: d :: rest) next = none := by
  simp only [Pattern.literally, Pattern.char, after, decide_eq_true_eq]
  by_cases first : c = '$'
  · by_cases second : d = '$'
    · subst first second
      cases rest with
      | nil => simp [after]
      | cons e rest =>
          have third : e ≠ '{' := fun same => plain rest (by rw [same])
          simp [after, third]
    · simp [second]
  · simp [first]

theorem dollar_after (seen rest : List Char) (next : Next)
    (plain : ∀ more, rest ≠ '{' :: more) :
    dollar.after seen ('$' :: rest) next = next ('$' :: seen) rest := by
  cases rest with
  | nil => simp [dollar, after, Pattern.char]
  | cons c rest =>
      have different : c ≠ '{' := fun same => plain rest (by rw [same])
      simp [dollar, after, Pattern.char, different]

theorem textUnit_escape (seen rest : List Char) (next : Next) :
    textUnit.after seen ('$' :: '$' :: '{' :: rest) next =
      (next ('{' :: '$' :: '$' :: seen) rest).or (next ('$' :: seen) ('$' :: '{' :: rest)) := by
  simp [textUnit, dollar, after, Pattern.literally, Pattern.char]

theorem textUnit_opening (seen rest : List Char) (next : Next) :
    textUnit.after seen ('$' :: '{' :: rest) next = none := by
  simp [textUnit, dollar, after, Pattern.literally, Pattern.char]

theorem textUnit_plain (seen : List Char) (c : Char) (rest : List Char) (next : Next)
    (escape : ∀ more, c :: rest ≠ '$' :: '$' :: '{' :: more)
    (opening : ∀ more, c :: rest ≠ '$' :: '{' :: more) :
    textUnit.after seen (c :: rest) next = next (c :: seen) rest := by
  by_cases sign : c = '$'
  · subst sign
    have plain : ∀ more, rest ≠ '{' :: more := fun more same => opening more (by rw [same])
    have nothing : (Pattern.literally ['$', '$', '{']).after seen ('$' :: rest) next = none := by
      cases rest with
      | nil => simp [Pattern.literally, Pattern.char, after]
      | cons d rest => exact escape_after seen '$' d rest next escape
    simp [textUnit, after, nothing, dollar_after seen rest next plain]
  · simp [textUnit, dollar, after, Pattern.literally, Pattern.char, sign]

theorem textUnit_consumes : Consumes textUnit :=
  ((consumes_one _).seq _).either (((consumes_one _).seq _).either (consumes_one _))

theorem many_textUnit (seen text : List Char) :
    (Pattern.many textUnit).after seen text (fun seen _ => some seen.reverse) =
      some (readText seen text) := by
  fun_induction readText seen text with
  | case1 seen rest ih =>
      rw [textUnit_consumes.many_unroll, textUnit_escape]
      simp [ih]
  | case2 seen rest =>
      rw [textUnit_consumes.many_unroll, textUnit_opening]
      rfl
  | case3 seen c rest escape opening ih =>
      rw [textUnit_consumes.many_unroll,
        textUnit_plain seen c rest _ (by simpa using escape) (by simpa using opening)]
      simp [ih]
  | case4 seen => rfl

theorem readText_plain {c : Char} {seen rest : List Char}
    (plain : ∀ more, c = '$' → rest ≠ '{' :: more ∧ rest ≠ '$' :: '{' :: more) :
    readText seen (c :: rest) = readText (c :: seen) rest := by
  rw [readText]
  · exact fun more dollar opening => (plain more dollar).2 opening
  · exact fun more dollar brace => (plain more dollar).1 brace

theorem readText_grows (seen text : List Char) :
    ∃ word, readText seen text = seen.reverse ++ word := by
  fun_induction readText seen text with
  | case1 seen rest ih =>
      obtain ⟨word, same⟩ := ih
      exact ⟨'$' :: '$' :: '{' :: word, by simp [same]⟩
  | case2 seen rest => exact ⟨[], by simp⟩
  | case3 seen c rest escape opening ih =>
      obtain ⟨word, same⟩ := ih
      exact ⟨c :: word, by simp [same]⟩
  | case4 seen => exact ⟨[], by simp⟩

theorem quotedUnit_escape (seen rest : List Char) (next : Next) :
    quotedUnit.after seen ('$' :: '$' :: '{' :: rest) next =
      (next ('{' :: '$' :: '$' :: seen) rest).or (next ('$' :: seen) ('$' :: '{' :: rest)) := by
  simp [quotedUnit, dollar, after, Pattern.literally, Pattern.char]

theorem quotedUnit_opening (seen rest : List Char) (next : Next) :
    quotedUnit.after seen ('$' :: '{' :: rest) next = none := by
  simp [quotedUnit, dollar, after, Pattern.literally, Pattern.char]

theorem quotedUnit_backslash (seen : List Char) (c : Char) (rest : List Char) (next : Next) :
    quotedUnit.after seen ('\\' :: c :: rest) next =
      if c = '\n' then none else next (c :: '\\' :: seen) rest := by
  simp [quotedUnit, dollar, after, Pattern.literally, Pattern.char]

theorem quotedUnit_stop (seen : List Char) (c : Char) (rest : List Char) (next : Next)
    (backslash : ∀ d more, c :: rest ≠ '\\' :: d :: more) (stop : c = '"' ∨ c = '\\') :
    quotedUnit.after seen (c :: rest) next = none := by
  rcases stop with quote | slash
  · simp [quotedUnit, dollar, after, Pattern.literally, Pattern.char, quote]
  · subst slash
    cases rest with
    | nil => simp [quotedUnit, dollar, after, Pattern.literally, Pattern.char]
    | cons d more => exact absurd rfl (backslash d more)

theorem quotedUnit_plain (seen : List Char) (c : Char) (rest : List Char) (next : Next)
    (escape : ∀ more, c :: rest ≠ '$' :: '$' :: '{' :: more)
    (opening : ∀ more, c :: rest ≠ '$' :: '{' :: more)
    (quote : c ≠ '"') (slash : c ≠ '\\') :
    quotedUnit.after seen (c :: rest) next = next (c :: seen) rest := by
  by_cases sign : c = '$'
  · subst sign
    have plain : ∀ more, rest ≠ '{' :: more := fun more same => opening more (by rw [same])
    have nothing : (Pattern.literally ['$', '$', '{']).after seen ('$' :: rest) next = none := by
      cases rest with
      | nil => simp [Pattern.literally, Pattern.char, after]
      | cons d rest => exact escape_after seen '$' d rest next escape
    simp [quotedUnit, after, Pattern.char, nothing, dollar_after seen rest next plain]
  · simp [quotedUnit, dollar, after, Pattern.literally, Pattern.char, sign, quote, slash]

theorem quotedUnit_consumes : Consumes quotedUnit :=
  ((consumes_one _).seq _).either (((consumes_one _).seq _).either
    (((consumes_one _).seq _).either (consumes_one _)))

theorem many_quotedUnit (seen text : List Char) :
    (Pattern.many quotedUnit).after seen text (fun seen _ => some seen.reverse) =
      some (readQuoted seen text) := by
  fun_induction readQuoted seen text with
  | case1 seen rest ih =>
      rw [quotedUnit_consumes.many_unroll, quotedUnit_escape]
      simp [ih]
  | case2 seen rest =>
      rw [quotedUnit_consumes.many_unroll, quotedUnit_opening]
      rfl
  | case3 seen rest =>
      rw [quotedUnit_consumes.many_unroll, quotedUnit_backslash]
      simp
  | case4 seen c rest newline ih =>
      rw [quotedUnit_consumes.many_unroll, quotedUnit_backslash]
      simp [newline, ih]
  | case5 seen c rest escape opening backslash stop =>
      rw [quotedUnit_consumes.many_unroll,
        quotedUnit_stop seen c rest _ (by simpa using backslash) (by simpa using stop)]
      rfl
  | case6 seen c rest escape opening backslash stop ih =>
      rw [quotedUnit_consumes.many_unroll, quotedUnit_plain seen c rest _
        (by simpa using escape) (by simpa using opening) (by simp_all) (by simp_all)]
      simp [ih]
  | case7 seen => rfl

theorem nameTail_star (seen rest : List Char) (next : Next) :
    nameTail.after seen ('.' :: '*' :: rest) next = next ('*' :: '.' :: seen) rest := by
  have other : isNameChar '*' = false := by decide
  simp [nameTail, after, Pattern.char, Pattern.several, other]

theorem nameTail_word (seen : List Char) (c : Char) (rest : List Char) (next : Next)
    (named : isNameChar c = true) :
    nameTail.after seen ('.' :: c :: rest) next =
      (Pattern.many (.one isNameChar)).after (c :: '.' :: seen) rest next := by
  have star : c ≠ '*' := by
    rintro rfl
    exact absurd named (by decide)
  simp [nameTail, after, Pattern.char, Pattern.several, star, named]

theorem nameTail_none (seen : List Char) (c : Char) (rest : List Char) (next : Next)
    (stop : c = '.' → ∀ d more, rest = d :: more → d ≠ '*' ∧ isNameChar d = false) :
    nameTail.after seen (c :: rest) next = none := by
  by_cases point : c = '.'
  · cases rest with
    | nil => simp [nameTail, after, Pattern.char, Pattern.several]
    | cons d more =>
        have other := stop point d more rfl
        simp [nameTail, after, Pattern.char, Pattern.several, point, other]
  · simp [nameTail, after, Pattern.char, point]

theorem nameTail_consumes : Consumes nameTail := (consumes_one _).seq _

theorem readName_more (seen : List Char) (c : Char) (rest : List Char)
    (named : isNameChar c = true) :
    readName true seen (c :: rest) = readName true (c :: seen) rest := by
  conv => lhs; rw [readName.eq_def]
  simp [named]

theorem readName_star (seen rest : List Char) :
    readName false seen ('.' :: '*' :: rest) = readName false ('*' :: '.' :: seen) rest := by
  conv => lhs; rw [readName.eq_def]
  simp

theorem readName_point (seen : List Char) (c : Char) (rest : List Char)
    (named : isNameChar c = true) :
    readName false seen ('.' :: c :: rest) = readName true (c :: '.' :: seen) rest := by
  have star : c ≠ '*' := by
    rintro rfl
    exact absurd named (by decide)
  conv => lhs; rw [readName.eq_def]
  simp [named]

theorem readName_stop (seen : List Char) (c : Char) (rest : List Char)
    (stop : c = '.' → ∀ d more, rest = d :: more → d ≠ '*' ∧ isNameChar d = false) :
    readName false seen (c :: rest) = seen.reverse := by
  rw [readName.eq_def]
  by_cases point : c = '.'
  · cases rest with
    | nil => simp [point]
    | cons d more =>
        have other := stop point d more rfl
        simp [point, other]
  · simp [point]

theorem readName_true (seen text : List Char) :
    readName true seen text =
      readName false ((text.takeWhile isNameChar).reverse ++ seen) (text.dropWhile isNameChar) := by
  induction text generalizing seen with
  | nil => simp [readName]
  | cons c rest ih =>
      by_cases named : isNameChar c = true
      · rw [readName_more seen c rest named]
        simp [named, ih]
      · conv => lhs; rw [readName.eq_def]
        conv => rhs; rw [readName.eq_def]
        simp [named]

theorem many_nameTail (length : Nat) : ∀ seen text : List Char, text.length ≤ length →
    (Pattern.many nameTail).after seen text (fun seen _ => some seen.reverse) =
      some (readName false seen text) := by
  induction length with
  | zero =>
      intro seen text short
      have empty : text = [] := List.length_eq_zero_iff.mp (by omega)
      subst empty
      rfl
  | succ length ih =>
      intro seen text short
      rw [nameTail_consumes.many_unroll]
      cases text with
      | nil => rfl
      | cons c rest =>
          by_cases stop : c = '.' → ∀ d more, rest = d :: more → d ≠ '*' ∧ isNameChar d = false
          · rw [nameTail_none seen c rest _ stop, readName_stop seen c rest stop]
            rfl
          · simp only [Classical.not_imp, Classical.not_forall] at stop
            obtain ⟨rfl, d, more, rfl, going⟩ := stop
            simp only [List.length_cons] at short
            by_cases star : d = '*'
            · subst star
              rw [nameTail_star, readName_star, ih _ more (by omega)]
              rfl
            · have named : isNameChar d = true := by simpa [star] using going
              have left := (List.dropWhile_suffix isNameChar (l := more)).length_le
              rw [nameTail_word _ d more _ named, many_one_total, readName_point _ d more named,
                readName_true, ih _ _ (by omega)]
              · rfl
              · exact fun seen rest => many_total (fun _ _ => rfl) seen rest

theorem namePattern_first? (text : List Char) :
    namePattern.first? text = match text with
      | c :: rest => if isNameStart c then some (readName true [c] rest) else none
      | [] => none := by
  cases text with
  | nil => rfl
  | cons c rest =>
      by_cases start : isNameStart c = true
      · simp only [Pattern.first?, namePattern, seq_after, one_after, start, if_true]
        rw [many_one_total, many_nameTail _ _ _ (Nat.le_refl _), readName_true]
        exact fun seen rest => many_total (fun _ _ => rfl) seen rest
      · simp [Pattern.first?, namePattern, after, start]

theorem text_first? (text : List Char) :
    Terminal.text.pattern.first? text = (filled? .text (readText [] text)).map (·.2) := by
  rw [Terminal.pattern, textUnit_consumes.several_first? (many_textUnit [] text), filled?]
  by_cases empty : (readText [] text).isEmpty
  · simp [empty]
  · simp [empty]

theorem quotedText_first? (text : List Char) :
    Terminal.quotedText.pattern.first? text =
      (filled? .quotedText (readQuoted [] text)).map (·.2) := by
  rw [Terminal.pattern, quotedUnit_consumes.several_first? (many_quotedUnit [] text), filled?]
  by_cases empty : (readQuoted [] text).isEmpty
  · simp [empty]
  · simp [empty]

def Mode.terminals : Mode → List Terminal
  | text => [.opening, .text]
  | quoted => [.quote, .opening, .quotedText]
  | operand => [.quote, .bang, .minus, .openParen, .closeParen, .ident, .number]
  | operator =>
    [.and, .or, .equal, .notEqual, .lessOrEqual, .greaterOrEqual, .less, .greater, .plus, .minus,
      .star, .slash, .percent, .question, .colon, .comma, .openParen, .closeParen, .openBracket,
      .closeBracket, .closing]

/-- Around the expressions every character is read. -/
theorem word?_text (c : Char) (rest : List Char) : word? .text (c :: rest) ≠ none := by
  simp only [word?]
  split
  · simp
  · rename_i other
    have filled : readText [] (c :: rest) ≠ [] := by
      rw [readText.eq_def]
      split
      · rename_i more _
        obtain ⟨word, same⟩ := readText_grows ['{', '$', '$'] more
        simp [same]
      · rename_i same
        exact absurd same (other _)
      · rename_i d more _ _ _
        obtain ⟨word, same⟩ := readText_grows [d] more
        simp [same]
      · rename_i same
        cases same
    simp [filled?, filled]

theorem mark?_sound {text word : List Char} {terminal : Terminal}
    (found : mark? text = some (terminal, word)) :
    terminal ∈ Mode.operator.terminals ∧ terminal.pattern.first? text = some word := by
  unfold mark? at found
  split at found
  case h_22 => simp at found
  all_goals
    simp only [Option.some.injEq, Prod.mk.injEq] at found
    obtain ⟨rfl, rfl⟩ := found
    exact ⟨by simp [Mode.terminals], literally_first?_iff.mpr ⟨rfl, _, rfl⟩⟩

theorem operand?_sound {text word : List Char} {terminal : Terminal}
    (found : operand? text = some (terminal, word)) :
    terminal ∈ Mode.operand.terminals ∧ terminal.pattern.first? text = some word := by
  unfold operand? at found
  split at found
  case h_6 c rest _ _ _ _ _ =>
    split at found
    · rename_i start
      simp only [Option.some.injEq, Prod.mk.injEq] at found
      obtain ⟨rfl, rfl⟩ := found
      refine ⟨by simp [Mode.terminals], ?_⟩
      rw [Terminal.pattern, namePattern_first?]
      simp [start]
    · simp only [Option.map_eq_some_iff, Prod.mk.injEq] at found
      obtain ⟨numeral, found, rfl, rfl⟩ := found
      refine ⟨by simp [Mode.terminals], ?_⟩
      rw [Terminal.pattern, Text.Pattern.numeral_decides.first?, found]
  case h_7 => simp at found
  all_goals
    simp only [Option.some.injEq, Prod.mk.injEq] at found
    obtain ⟨rfl, rfl⟩ := found
    exact ⟨by simp [Mode.terminals], literally_first?_iff.mpr ⟨rfl, _, rfl⟩⟩

theorem filled?_sound {text word : List Char} {terminal other : Terminal}
    (found : filled? terminal text = some (other, word)) : other = terminal ∧ word = text := by
  simp only [filled?] at found
  split at found
  · simp at found
  · simpa [eq_comm] using found

theorem word?_sound {mode : Mode} {text word : List Char} {terminal : Terminal}
    (found : word? mode text = some (terminal, word)) :
    terminal ∈ mode.terminals ∧ terminal.pattern.first? text = some word := by
  cases mode with
  | text =>
      simp only [word?] at found
      split at found
      · simp only [Option.some.injEq, Prod.mk.injEq] at found
        obtain ⟨rfl, rfl⟩ := found
        exact ⟨by simp [Mode.terminals], literally_first?_iff.mpr ⟨rfl, _, rfl⟩⟩
      · obtain ⟨rfl, -⟩ := filled?_sound found
        exact ⟨by simp [Mode.terminals], by rw [text_first?, found]; rfl⟩
  | quoted =>
      simp only [word?] at found
      split at found
      · simp only [Option.some.injEq, Prod.mk.injEq] at found
        obtain ⟨rfl, rfl⟩ := found
        exact ⟨by simp [Mode.terminals], literally_first?_iff.mpr ⟨rfl, _, rfl⟩⟩
      · simp only [Option.some.injEq, Prod.mk.injEq] at found
        obtain ⟨rfl, rfl⟩ := found
        exact ⟨by simp [Mode.terminals], literally_first?_iff.mpr ⟨rfl, _, rfl⟩⟩
      · obtain ⟨rfl, -⟩ := filled?_sound found
        exact ⟨by simp [Mode.terminals], by rw [quotedText_first?, found]; rfl⟩
  | operand => exact operand?_sound found
  | operator => exact mark?_sound found

def Terminal.isCut (terminal : Terminal) (text : List Char) : Bool :=
  match terminal, text with
  | less, '<' :: '=' :: _ => true
  | greater, '>' :: '=' :: _ => true
  | _, _ => false

theorem mark?_complete {text word : List Char} {terminal : Terminal}
    (member : terminal ∈ Mode.operator.terminals)
    (found : terminal.pattern.first? text = some word) (whole : terminal.isCut text = false) :
    mark? text = some (terminal, word) := by
  simp only [Mode.terminals, List.mem_cons, List.not_mem_nil, or_false] at member
  rcases member with rfl | rfl | rfl | rfl | rfl | rfl | rfl | rfl | rfl | rfl | rfl | rfl | rfl |
    rfl | rfl | rfl | rfl | rfl | rfl | rfl | rfl
  case inr.inr.inr.inr.inr.inr.inl =>
    obtain ⟨rfl, rest, rfl⟩ := literally_first?_iff.mp found
    cases rest with
    | nil => rfl
    | cons c rest =>
        have other : c ≠ '=' := by
          rintro rfl
          simp [Terminal.isCut] at whole
        simp [mark?, other]
  case inr.inr.inr.inr.inr.inr.inr.inl =>
    obtain ⟨rfl, rest, rfl⟩ := literally_first?_iff.mp found
    cases rest with
    | nil => rfl
    | cons c rest =>
        have other : c ≠ '=' := by
          rintro rfl
          simp [Terminal.isCut] at whole
        simp [mark?, other]
  all_goals
    obtain ⟨rfl, rest, rfl⟩ := literally_first?_iff.mp found
    rfl

theorem numeral?_eq_none {c : Char} {rest : List Char} (other : Text.isDecimal c = false) :
    Text.numeral? (c :: rest) = none := by
  simp [Text.numeral?, other]

theorem operand?_cons {c : Char} (rest : List Char)
    (plain : ∀ mark ∈ ['"', '!', '-', '(', ')'], c ≠ mark) :
    operand? (c :: rest) =
      if isNameStart c then some (.ident, readName true [c] rest)
      else (Text.numeral? (c :: rest)).map (.number, ·) := by
  unfold operand?
  split
  case h_6 => simp_all
  case h_7 => simp_all
  all_goals simp_all

theorem operand?_of_isNameStart {c : Char} (rest : List Char) (start : isNameStart c = true) :
    operand? (c :: rest) = some (.ident, readName true [c] rest) := by
  rw [operand?_cons rest, if_pos start]
  intro mark member same
  subst same
  simp only [List.mem_cons, List.not_mem_nil, or_false] at member
  rcases member with rfl | rfl | rfl | rfl | rfl
  all_goals exact absurd start (by decide)

theorem operand?_of_numeral {c : Char} {rest word : List Char}
    (numeral : Text.numeral? (c :: rest) = some word) :
    operand? (c :: rest) = some (.number, word) := by
  have digit : Text.isDecimal c = true := by
    cases other : Text.isDecimal c with
    | true => rfl
    | false => simp [numeral?_eq_none other] at numeral
  have start : ¬isNameStart c = true := by
    intro named
    simp [Text.isDecimal_of_letter named] at digit
  rw [operand?_cons rest, if_neg start, numeral]
  · rfl
  intro mark member same
  subst same
  simp only [List.mem_cons, List.not_mem_nil, or_false] at member
  rcases member with rfl | rfl | rfl | rfl | rfl
  all_goals exact absurd digit (by decide)

theorem operand?_complete {text word : List Char} {terminal : Terminal}
    (member : terminal ∈ Mode.operand.terminals)
    (found : terminal.pattern.first? text = some word) :
    operand? text = some (terminal, word) := by
  simp only [Mode.terminals, List.mem_cons, List.not_mem_nil, or_false] at member
  rcases member with rfl | rfl | rfl | rfl | rfl | rfl | rfl
  case inr.inr.inr.inr.inr.inl =>
    rw [Terminal.pattern, namePattern_first?] at found
    cases text with
    | nil => simp at found
    | cons c rest =>
        by_cases start : isNameStart c = true
        · simp only [start, if_true, Option.some.injEq] at found
          rw [operand?_of_isNameStart rest start, found]
        · simp [start] at found
  case inr.inr.inr.inr.inr.inr =>
    rw [Terminal.pattern, Text.Pattern.numeral_decides.first?] at found
    cases text with
    | nil => simp [Text.numeral?] at found
    | cons c rest => exact operand?_of_numeral found
  all_goals
    obtain ⟨rfl, rest, rfl⟩ := literally_first?_iff.mp found
    rfl

theorem opening_apart {rest word : List Char} :
    Terminal.text.pattern.first? ('$' :: '{' :: rest) ≠ some word ∧
      Terminal.quotedText.pattern.first? ('$' :: '{' :: rest) ≠ some word := by
  rw [text_first?, quotedText_first?]
  simp [filled?, readText, readQuoted]

theorem quote_apart {rest word : List Char} :
    Terminal.quotedText.pattern.first? ('"' :: rest) ≠ some word := by
  rw [quotedText_first?]
  simp [filled?, readQuoted]

theorem filled?_of_map {text word : List Char} {terminal : Terminal}
    (found : (filled? terminal text).map (·.2) = some word) :
    filled? terminal text = some (terminal, word) := by
  simp only [filled?] at found ⊢
  split at found
  · simp at found
  · simp_all

theorem word?_complete {mode : Mode} {text word : List Char} {terminal : Terminal}
    (member : terminal ∈ mode.terminals)
    (found : terminal.pattern.first? text = some word) (whole : terminal.isCut text = false) :
    word? mode text = some (terminal, word) := by
  cases mode with
  | text =>
      simp only [Mode.terminals, List.mem_cons, List.not_mem_nil, or_false] at member
      rcases member with rfl | rfl
      · obtain ⟨rfl, rest, rfl⟩ := literally_first?_iff.mp found
        rfl
      · simp only [word?]
        split
        · exact absurd found opening_apart.1
        · exact filled?_of_map (by rwa [text_first?] at found)
  | quoted =>
      simp only [Mode.terminals, List.mem_cons, List.not_mem_nil, or_false] at member
      rcases member with rfl | rfl | rfl
      · obtain ⟨rfl, rest, rfl⟩ := literally_first?_iff.mp found
        rfl
      · obtain ⟨rfl, rest, rfl⟩ := literally_first?_iff.mp found
        rfl
      · simp only [word?]
        split
        · exact absurd found quote_apart
        · exact absurd found opening_apart.2
        · exact filled?_of_map (by rwa [quotedText_first?] at found)
  | operand => exact operand?_complete member found
  | operator => exact mark?_complete member found whole

theorem pattern_consumes (terminal : Terminal) : Consumes terminal.pattern := by
  cases terminal with
  | text => exact textUnit_consumes.seq _
  | quotedText => exact quotedUnit_consumes.seq _
  | number => exact ((consumes_one _).seq _).seq _
  | _ => exact (consumes_one _).seq _

theorem mark_word (terminal : Terminal) {mark : List Char}
    (written : terminal.pattern = .literally mark) (point : Point) (rest : List Char) :
    Word terminal ⟨point, mark ++ rest⟩ ⟨terminal, String.ofList mark, point⟩
      ⟨point.advanceBy mark, rest⟩ := by
  refine Word.mk ?_
  rw [written]
  exact literally_first?_iff.mpr ⟨rfl, rest, rfl⟩

/-- No word of an expression starts with a character of a gap. -/
theorem word?_gap {mode : Mode} {c : Char} {rest : List Char} (gap : isGap c = true)
    (expression : mode = .operand ∨ mode = .operator) : word? mode (c :: rest) = none := by
  simp only [isGap, Bool.or_eq_true, decide_eq_true_eq] at gap
  rcases expression with rfl | rfl
  · have other : isNameStart c = false ∧ Text.isDecimal c = false := by
      rcases gap with ((rfl | rfl) | rfl) | rfl <;> decide
    have plain : ∀ mark ∈ ['"', '!', '-', '(', ')'], c ≠ mark := by
      rcases gap with ((rfl | rfl) | rfl) | rfl <;> simp
    simp [word?, operand?_cons rest plain, other.1, numeral?_eq_none other.2]
  · rcases gap with ((rfl | rfl) | rfl) | rfl <;> rfl

end ConfigIndex.Template
