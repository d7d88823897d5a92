import ConfigIndex.Proofs.Document.Patterns

/-!
Reading a string is matching its pattern. What goes on behind a character depends on what it stands
in: the text of the string, an interpolation, or the quotes in one.
-/

namespace ConfigIndex.Document

open Text (Pattern)

theorem stringUnit_consumes : stringUnit.Consumes :=
  (Pattern.consumes_one _).either (((Pattern.consumes_one _).seq _).either
    (((Pattern.consumes_one _).seq _).either
      (((Pattern.consumes_one _).seq _).either (((Pattern.consumes_one _).seq _).seq _))))

theorem interpolationUnit_consumes : interpolationUnit.Consumes :=
  (Pattern.consumes_one _).either ((Pattern.consumes_one _).seq _)

theorem quotesUnit_consumes : quotesUnit.Consumes :=
  (Pattern.consumes_one _).either ((Pattern.consumes_one _).seq _)

def textNext : Pattern.Next := fun seen rest =>
  (Pattern.many stringUnit).after seen rest fun seen rest =>
    (Pattern.char '"').after seen rest fun seen _ => some seen.reverse

def interpolationNext : Pattern.Next := fun seen rest =>
  (Pattern.many interpolationUnit).after seen rest fun seen rest =>
    (Pattern.char '}').after seen rest textNext

def quotesNext : Pattern.Next := fun seen rest =>
  (Pattern.many quotesUnit).after seen rest fun seen rest =>
    (Pattern.char '"').after seen rest interpolationNext

def Inside.next : Inside → Pattern.Next
  | text => textNext
  | interpolation => interpolationNext
  | quotes => quotesNext

theorem textNext_unroll (seen text : List Char) :
    textNext seen text = (stringUnit.after seen text textNext).or
      ((Pattern.char '"').after seen text fun seen _ => some seen.reverse) := by
  rw [textNext, stringUnit_consumes.many_unroll]
  rfl

theorem interpolationNext_unroll (seen text : List Char) :
    interpolationNext seen text = (interpolationUnit.after seen text interpolationNext).or
      ((Pattern.char '}').after seen text textNext) := by
  rw [interpolationNext, interpolationUnit_consumes.many_unroll]
  rfl

theorem quotesNext_unroll (seen text : List Char) :
    quotesNext seen text = (quotesUnit.after seen text quotesNext).or
      ((Pattern.char '"').after seen text interpolationNext) := by
  rw [quotesNext, quotesUnit_consumes.many_unroll]
  rfl

theorem textNext_nil (seen : List Char) : textNext seen [] = none := by
  rw [textNext_unroll]
  simp [stringUnit, escape, interpolation, Pattern.literally, Pattern.char, Pattern.after]

theorem textNext_quote (seen rest : List Char) :
    textNext seen ('"' :: rest) = some ('"' :: seen).reverse := by
  rw [textNext_unroll]
  simp [stringUnit, escape, interpolation, Pattern.literally, Pattern.char, Pattern.after]

theorem textNext_break (seen rest : List Char) : textNext seen ('\n' :: rest) = none := by
  rw [textNext_unroll]
  simp [stringUnit, escape, interpolation, Pattern.literally, Pattern.char, Pattern.after]

theorem textNext_escape (seen rest : List Char) :
    textNext seen ('\\' :: rest) = inLine.after ('\\' :: seen) rest textNext := by
  rw [textNext_unroll]
  simp [stringUnit, escape, interpolation, Pattern.literally, Pattern.char, Pattern.after]

theorem textNext_dollar {seen rest : List Char} (plain : ∀ more, rest ≠ '$' :: '{' :: more)
    (apart : ∀ more, rest ≠ '{' :: more) :
    textNext seen ('$' :: rest) = textNext ('$' :: seen) rest := by
  rw [textNext_unroll]
  cases rest with
  | nil => simp [stringUnit, escape, interpolation, Pattern.literally, Pattern.char, Pattern.after]
  | cons c more =>
      have other : c ≠ '{' := fun same => apart more (by rw [same])
      cases more with
      | nil =>
          simp [stringUnit, escape, interpolation, Pattern.literally, Pattern.char, Pattern.after,
            other]
      | cons d more =>
          have neither : ¬(c = '$' ∧ d = '{') := fun same => plain more (by rw [same.1, same.2])
          by_cases dollar : c = '$'
          · have different : d ≠ '{' := fun same => neither ⟨dollar, same⟩
            simp [stringUnit, escape, interpolation, Pattern.literally, Pattern.char, Pattern.after,
              other, different]
          · simp [stringUnit, escape, interpolation, Pattern.literally, Pattern.char, Pattern.after,
              other, dollar]

theorem textNext_opening (seen rest : List Char) :
    textNext seen ('$' :: '{' :: rest) = interpolationNext ('{' :: '$' :: seen) rest := by
  rw [textNext_unroll]
  simp [stringUnit, escape, interpolation, Pattern.literally, Pattern.char, Pattern.after]
  rfl

/-- A `$$` before a brace may be an escape, or a dollar sign and an interpolation. -/
theorem textNext_dollars (seen rest : List Char) :
    textNext seen ('$' :: '$' :: '{' :: rest) =
      (textNext ('{' :: '$' :: '$' :: seen) rest).or
        (interpolationNext ('{' :: '$' :: '$' :: seen) rest) := by
  rw [textNext_unroll, ← textNext_opening]
  simp [stringUnit, escape, interpolation, Pattern.literally, Pattern.char, Pattern.after]

theorem textNext_plain {seen rest : List Char} {c : Char} (quote : c ≠ '"') (newline : c ≠ '\n')
    (backslash : c ≠ '\\') (dollar : c ≠ '$') :
    textNext seen (c :: rest) = textNext (c :: seen) rest := by
  rw [textNext_unroll]
  simp [stringUnit, escape, interpolation, Pattern.literally, Pattern.char, Pattern.after, quote,
    newline, backslash, dollar]

theorem interpolationNext_nil (seen : List Char) : interpolationNext seen [] = none := by
  rw [interpolationNext_unroll]
  simp [interpolationUnit, quotes, Pattern.char, Pattern.after]

theorem interpolationNext_closing (seen rest : List Char) :
    interpolationNext seen ('}' :: rest) = textNext ('}' :: seen) rest := by
  rw [interpolationNext_unroll]
  simp [interpolationUnit, quotes, Pattern.char, Pattern.after]

theorem interpolationNext_quote (seen rest : List Char) :
    interpolationNext seen ('"' :: rest) = quotesNext ('"' :: seen) rest := by
  rw [interpolationNext_unroll]
  simp [interpolationUnit, quotes, Pattern.char, Pattern.after]
  rfl

theorem interpolationNext_plain {seen rest : List Char} {c : Char} (closing : c ≠ '}')
    (quote : c ≠ '"') :
    interpolationNext seen (c :: rest) = interpolationNext (c :: seen) rest := by
  rw [interpolationNext_unroll]
  simp [interpolationUnit, quotes, Pattern.char, Pattern.after, closing, quote]

theorem quotesNext_nil (seen : List Char) : quotesNext seen [] = none := by
  rw [quotesNext_unroll]
  simp [quotesUnit, escape, Pattern.char, Pattern.after]

theorem quotesNext_quote (seen rest : List Char) :
    quotesNext seen ('"' :: rest) = interpolationNext ('"' :: seen) rest := by
  rw [quotesNext_unroll]
  simp [quotesUnit, escape, Pattern.char, Pattern.after]

theorem quotesNext_escape (seen rest : List Char) :
    quotesNext seen ('\\' :: rest) = inLine.after ('\\' :: seen) rest quotesNext := by
  rw [quotesNext_unroll]
  simp [quotesUnit, escape, Pattern.char, Pattern.after]

theorem quotesNext_plain {seen rest : List Char} {c : Char} (quote : c ≠ '"')
    (backslash : c ≠ '\\') : quotesNext seen (c :: rest) = quotesNext (c :: seen) rest := by
  rw [quotesNext_unroll]
  simp [quotesUnit, escape, Pattern.char, Pattern.after, quote, backslash]

theorem next_eq_closeString (inside : Inside) (seen text : List Char) :
    inside.next seen text = closeString inside seen text := by
  fun_induction closeString inside seen text with
  | case1 inside seen =>
      cases inside with
      | text => exact textNext_nil seen
      | interpolation => exact interpolationNext_nil seen
      | quotes => exact quotesNext_nil seen
  | case2 seen rest => exact textNext_quote seen rest
  | case3 seen rest => exact textNext_break seen rest
  | case4 seen => exact textNext_escape seen []
  | case5 seen rest => exact textNext_escape seen _
  | case6 seen next rest inside _ _ ih =>
      rw [Inside.next, textNext_escape, inLine, Pattern.one_after]
      simpa [inside, Inside.next] using ih
  | case7 seen rest _ _ _ ih other => rw [← ih, ← other]; exact textNext_dollars seen rest
  | case8 seen rest _ _ _ ih => rw [← ih]; exact textNext_opening seen rest
  | case9 seen rest plain apart _ _ _ ih => rw [← ih]; exact textNext_dollar plain apart
  | case10 seen c rest quote newline backslash dollar ih =>
      rw [← ih]; exact textNext_plain quote newline backslash dollar
  | case11 seen rest ih => rw [← ih]; exact interpolationNext_closing seen rest
  | case12 seen rest _ ih => rw [← ih]; exact interpolationNext_quote seen rest
  | case13 seen c rest closing quote ih => rw [← ih]; exact interpolationNext_plain closing quote
  | case14 seen rest ih => rw [← ih]; exact quotesNext_quote seen rest
  | case15 seen => exact quotesNext_escape seen []
  | case16 seen rest => exact quotesNext_escape seen _
  | case17 seen next rest inside _ ih =>
      rw [Inside.next, quotesNext_escape, inLine, Pattern.one_after]
      simpa [inside, Inside.next] using ih
  | case18 seen c rest quote backslash ih => rw [← ih]; exact quotesNext_plain quote backslash

theorem stringPattern_first? (text : List Char) :
    stringPattern.first? text = match text with
      | '"' :: rest => closeString .text ['"'] rest
      | _ => none := by
  split
  · exact next_eq_closeString .text ['"'] _
  · rename_i other
    cases text with
    | nil => rfl
    | cons c rest =>
        have apart : c ≠ '"' := fun same => other rest (by rw [same])
        simp [stringPattern, Pattern.first?, Pattern.char, Pattern.after, apart]

end ConfigIndex.Document
