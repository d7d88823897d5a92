import ConfigIndex.Proofs.Document.Positions
import ConfigIndex.Proofs.Template.Limits
import ConfigIndex.Proofs.Template.Places
import ConfigIndex.Proofs.Text.Yields

/-!
Expressions in the strings of a document. The reader of a string knows the quotes in an
interpolation, but not those in the interpolations between them: an expression can be written in a
string as far as the strings in it do not mislead that reader.
-/

namespace ConfigIndex

namespace Template

mutual

/-- Strings of an expression may hold expressions with strings of their own, if those hold nothing
but text without quotes and closing braces. `nested` tells that the expression is in a string. -/
def Expr.quotable (nested : Bool) : Expr → Bool
  | .number _ _ => true
  | .name _ _ => true
  | .call _ _ arguments => Expr.allQuotable nested arguments
  | .index _ _ key => key.quotable nested
  | .unary _ _ operand => operand.quotable nested
  | .binary _ _ left right => left.quotable nested && right.quotable nested
  | .conditional _ condition yes no =>
    condition.quotable nested && (yes.quotable nested && no.quotable nested)
  | .quoted _ parts => Part.allQuotable nested parts

def Expr.allQuotable (nested : Bool) : List Expr → Bool
  | [] => true
  | expr :: rest => expr.quotable nested && Expr.allQuotable nested rest

def Part.allQuotable (nested : Bool) : List Part → Bool
  | [] => true
  | .text text _ :: rest =>
    (!nested || text.toList.all fun c => c ≠ '"' && c ≠ '}') && Part.allQuotable nested rest
  | .expr expr :: rest => !nested && (expr.quotable true && Part.allQuotable nested rest)

end

end Template

namespace Document

open Text (Pattern)
open Template (Spot Expr Part Operand)

/-- Behind a word, the reader of a string goes on in another place. -/
def Moves (first second : Inside) (word : List Char) : Prop :=
  ∀ seen rest,
    closeString first seen (word ++ rest) = closeString second (word.reverse ++ seen) rest

theorem moves_of_next {first second : Inside} {word : List Char}
    (same : ∀ seen rest, first.next seen (word ++ rest) = second.next (word.reverse ++ seen) rest) :
    Moves first second word := by
  intro seen rest
  rw [← next_eq_closeString, ← next_eq_closeString]
  exact same seen rest

theorem moves_nil (inside : Inside) : Moves inside inside [] := fun _ _ => rfl

theorem Moves.append {first second third : Inside} {word more : List Char}
    (left : Moves first second word) (right : Moves second third more) :
    Moves first third (word ++ more) := by
  intro seen rest
  rw [List.append_assoc, left, right, List.reverse_append, List.append_assoc]

theorem Moves.all {inside : Inside} {word : List Char}
    (each : ∀ c ∈ word, Moves inside inside [c]) : Moves inside inside word := by
  induction word with
  | nil => exact moves_nil inside
  | cons c rest ih =>
      have others := ih fun d member => each d (List.mem_cons_of_mem c member)
      exact (each c List.mem_cons_self).append others

theorem moves_interpolation {word : List Char} (quote : '"' ∉ word) (closing : '}' ∉ word) :
    Moves .interpolation .interpolation word := by
  refine Moves.all fun c member => moves_of_next fun seen rest => ?_
  exact interpolationNext_plain (fun same => closing (same ▸ member))
    (fun same => quote (same ▸ member))

theorem moves_quotes {word : List Char} (quote : '"' ∉ word) (backslash : '\\' ∉ word) :
    Moves .quotes .quotes word := by
  refine Moves.all fun c member => moves_of_next fun seen rest => ?_
  exact quotesNext_plain (fun same => quote (same ▸ member))
    (fun same => backslash (same ▸ member))

theorem moves_escape {c : Char} (inLine : c ≠ '\n') : Moves .quotes .quotes ['\\', c] := by
  refine moves_of_next fun seen rest => (quotesNext_escape seen (c :: rest)).trans ?_
  simp [Document.inLine, Pattern.one_after, inLine, Inside.next]

def within (nested : Bool) : Inside := if nested then .quotes else .interpolation

theorem moves_quote (nested : Bool) : Moves (within nested) (within !nested) ['"'] := by
  cases nested with
  | true => exact moves_of_next quotesNext_quote
  | false => exact moves_of_next interpolationNext_quote

theorem moves_plain {word : List Char} (quote : '"' ∉ word) (backslash : '\\' ∉ word)
    (closing : '}' ∉ word) (nested : Bool) : Moves (within nested) (within nested) word := by
  cases nested with
  | true => exact moves_quotes quote backslash
  | false => exact moves_interpolation quote closing

def marks : List Char := ['"', '\\', '}']

theorem moves_of_avoids {word : List Char} (avoids : ∀ c ∈ marks, c ∉ word) (nested : Bool) :
    Moves (within nested) (within nested) word :=
  moves_plain (avoids _ (by decide)) (avoids _ (by decide)) (avoids _ (by decide)) nested

theorem yields_quotedText :
    Template.Terminal.quotedText.pattern.Yields (Moves .quotes .quotes) := by
  have escape : (Pattern.seq (.char '\\') (.one (· ≠ '\n'))).Yields (Moves .quotes .quotes) := by
    have backslash : (Pattern.char '\\').Yields (· = ['\\']) :=
      Pattern.yields_one fun c same => by rw [of_decide_eq_true same]
    have behind : (Pattern.one (· ≠ '\n')).Yields fun word => ∃ c, c ≠ '\n' ∧ word = [c] :=
      Pattern.yields_one fun c other => ⟨c, of_decide_eq_true other, rfl⟩
    refine backslash.seq behind ?_
    rintro _ _ rfl ⟨c, inLine, rfl⟩
    exact moves_escape inLine
  have others : (Pattern.either (.literally ['$', '$', '{']) (.either Template.dollar
      (.one fun c => c ≠ '"' && c ≠ '\\' && c ≠ '$'))).Yields (Moves .quotes .quotes) :=
    have avoided := @Pattern.yields_of_avoids ['"', '\\'] _ (by decide)
    avoided.imp fun word avoids => moves_quotes (avoids _ (by decide)) (avoids _ (by decide))
  exact (escape.either others).several (moves_nil _) fun _ _ left right => left.append right

/-- What is left at one spot of a template is left behind some words at another one, and those lead
the reader of a string from one place to another. -/
def Crosses (first second : Inside) (start stop : Spot) : Prop :=
  ∃ word, start.rest = word ++ stop.rest ∧ Moves first second word

section

variable {first second third : Inside} {start middle stop : Spot}
  {terminal : Template.Terminal} {lexeme : Template.Lexeme}

theorem Crosses.refl (inside : Inside) (spot : Spot) : Crosses inside inside spot spot :=
  ⟨[], rfl, moves_nil inside⟩

theorem Crosses.trans (left : Crosses first second start middle)
    (right : Crosses second third middle stop) : Crosses first third start stop := by
  obtain ⟨word, cut, moves⟩ := left
  obtain ⟨more, further, moves'⟩ := right
  exact ⟨word ++ more, by rw [cut, further, List.append_assoc], moves.append moves'⟩

def Carries (terminal : Template.Terminal) (first second : Inside) : Prop :=
  ∀ text word, terminal.pattern.first? text = some word → Moves first second word

theorem carries_plain (avoided : terminal.pattern.avoids marks = true) (nested : Bool) :
    Carries terminal (within nested) (within nested) := fun _ _ found =>
  moves_of_avoids ((Pattern.yields_of_avoids _ avoided).first? found) nested

theorem carries_closing : Carries .closing .quotes .quotes := by
  intro text word found
  rw [(Pattern.literally_first?_iff.mp found).1]
  exact moves_quotes (by decide) (by decide)

theorem carries_quote (nested : Bool) : Carries .quote (within nested) (within !nested) := by
  intro text word found
  rw [(Pattern.literally_first?_iff.mp found).1]
  exact moves_quote nested

theorem carries_quotedText : Carries .quotedText .quotes .quotes := fun _ _ found =>
  yields_quotedText.first? found

theorem crosses_word (word : Template.Word terminal start lexeme stop)
    (carries : Carries terminal first second) : Crosses first second start stop := by
  cases word with
  | @mk point word rest found => exact ⟨word, rfl, carries _ word found⟩

theorem crosses_text (word : Template.Word .quotedText start lexeme stop)
    (plain : (lexeme.text.toList.all fun c => c ≠ '"' && c ≠ '}') = true) :
    Crosses .interpolation .interpolation start stop := by
  cases word with
  | @mk point word rest _ =>
      rw [String.toList_ofList, List.all_eq_true] at plain
      refine ⟨word, rfl, moves_interpolation ?_ ?_⟩
      · exact fun member => absurd (plain '"' member) (by decide)
      · exact fun member => absurd (plain '}' member) (by decide)

theorem moves_gap {gap : List Char} (gaps : ∀ c ∈ gap, Template.isGap c = true) (nested : Bool) :
    Moves (within nested) (within nested) gap := by
  refine moves_of_avoids (fun c mark member => ?_) nested
  have blank := gaps c member
  simp only [marks, List.mem_cons, List.not_mem_nil, or_false] at mark
  rcases mark with rfl | rfl | rfl
  · exact absurd blank (by decide)
  · exact absurd blank (by decide)
  · exact absurd blank (by decide)

theorem crosses_token {nested : Bool} (token : Template.Token terminal start lexeme stop)
    (carries : Carries terminal (within nested) second) :
    Crosses (within nested) second start stop := by
  cases token with
  | @mk point gap rest _ _ gaps word =>
      exact Crosses.trans ⟨gap, rfl, moves_gap gaps nested⟩ (crosses_word word carries)

theorem avoids_unary {operator : Template.Operator} (sign : terminal.unary? = some operator) :
    terminal.pattern.avoids marks = true := by
  cases terminal with
  | bang | minus => decide
  | _ => cases sign

theorem avoids_binary {operator : Template.Operator} (mark : terminal.binary? = some operator) :
    terminal.pattern.avoids marks = true := by
  cases terminal with
  | plus | minus | star | slash | percent | equal | notEqual | less | lessOrEqual | greater
  | greaterOrEqual | and | or => decide
  | _ => cases mark

end

def ReadThrough (start stop : Spot) : Template.Phrase → Prop
  | .text _ => True
  | .quoted parts => ∀ nested, Part.allQuotable nested parts = true →
    Crosses (within !nested) (within !nested) start stop
  | .expression _ operand => ∀ nested, operand.expr.quotable nested = true →
    Crosses (within nested) (within nested) start stop
  | .arguments exprs => ∀ nested, Expr.allQuotable nested exprs = true →
    Crosses (within nested) (within nested) start stop

section

variable {start first second third fourth stop : Spot} {operand left right : Operand}
  {terminal opener closer : Template.Terminal} {lexeme opening closing : Template.Lexeme}

theorem crosses_plain (token : Template.Token terminal start lexeme stop)
    (avoided : terminal.pattern.avoids marks = true) (nested : Bool) :
    Crosses (within nested) (within nested) start stop :=
  crosses_token token (carries_plain avoided nested)

theorem crosses_enclosed (opened : Template.Token opener start opening first) {nested : Bool}
    (crosses : Crosses (within nested) (within nested) first second)
    (closed : Template.Token closer second closing stop)
    (avoided : opener.pattern.avoids marks = true ∧ closer.pattern.avoids marks = true) :
    Crosses (within nested) (within nested) start stop :=
  (crosses_plain opened avoided.1 nested).trans
    (crosses.trans (crosses_plain closed avoided.2 nested))

theorem ReadThrough.quotedText {parts : List Part}
    (word : Template.Word .quotedText start lexeme first)
    (behind : ReadThrough first stop (.quoted parts)) :
    ReadThrough start stop (.quoted (.text lexeme.text lexeme.point :: parts)) := by
  intro nested quotable
  obtain ⟨text, others⟩ := Bool.and_eq_true_iff.mp quotable
  cases nested with
  | false => exact (crosses_word word carries_quotedText).trans (behind false others)
  | true => exact (crosses_text word text).trans (behind true others)

theorem ReadThrough.interpolation {parts : List Part}
    (inside : ReadThrough first second (.expression 0 operand))
    (opened : Template.Word .opening start opening first)
    (closed : Template.Token .closing second closing third)
    (behind : ReadThrough third stop (.quoted parts)) :
    ReadThrough start stop (.quoted (.expr operand.expr :: parts)) := by
  intro nested quotable
  obtain ⟨outside, quotable⟩ := Bool.and_eq_true_iff.mp quotable
  obtain ⟨expr, others⟩ := Bool.and_eq_true_iff.mp quotable
  cases nested with
  | false =>
      have before : Crosses (within true) (within true) start first :=
        crosses_word opened (carries_plain (by decide) true)
      have after : Crosses (within true) .quotes second third :=
        crosses_token closed carries_closing
      exact before.trans ((inside true expr).trans (after.trans (behind false others)))
  | true => cases outside

/-- Each quote takes the reader from an expression into a string or back, so a string in a string
is read like an expression. -/
theorem ReadThrough.string {parts : List Part} (inside : ReadThrough first second (.quoted parts))
    (opened : Template.Token .quote start opening first)
    (closed : Template.Word .quote second closing stop) {rank : Nat} {point : Point} :
    ReadThrough start stop (.expression rank ⟨point, .quoted point parts⟩) := by
  intro nested quotable
  have before := crosses_token opened (carries_quote nested)
  have after := crosses_word closed (carries_quote (!nested))
  rw [Bool.not_not] at after
  exact before.trans ((inside nested quotable).trans after)

theorem ReadThrough.binary {operator : Template.Operator} {point : Point} {higher rank lower : Nat}
    (before : ReadThrough start first (.expression higher left))
    (token : Template.Token terminal first lexeme second)
    (mark : terminal.binary? = some operator)
    (behind : ReadThrough second stop (.expression lower right)) :
    ReadThrough start stop
      (.expression rank ⟨point, .binary operator point left.expr right.expr⟩) := by
  intro nested quotable
  obtain ⟨front, back⟩ := Bool.and_eq_true_iff.mp quotable
  have between := crosses_plain token (avoids_binary mark) nested
  exact (before nested front).trans (between.trans (behind nested back))

theorem ReadThrough.conditional {condition yes no : Operand} {question colon : Template.Lexeme}
    {point : Point} (before : ReadThrough start first (.expression 1 condition))
    (asked : Template.Token .question first question second)
    (between : ReadThrough second third (.expression 0 yes))
    (parted : Template.Token .colon third colon fourth)
    (behind : ReadThrough fourth stop (.expression 0 no)) :
    ReadThrough start stop
      (.expression 0 ⟨point, .conditional point condition.expr yes.expr no.expr⟩) := by
  intro nested quotable
  obtain ⟨front, quotable⟩ := Bool.and_eq_true_iff.mp quotable
  obtain ⟨middle, back⟩ := Bool.and_eq_true_iff.mp quotable
  have question := crosses_plain asked (by decide) nested
  have colon := crosses_plain parted (by decide) nested
  exact (before nested front).trans
    (question.trans ((between nested middle).trans (colon.trans (behind nested back))))

end

theorem readThrough_of_derives {start stop : Spot} {phrase : Template.Phrase}
    (derives : Template.Derives start phrase stop) : ReadThrough start stop phrase := by
  induction derives with
  | textEnd | textPart _ _ _ | interpolation _ _ _ _ _ _ => trivial
  | quotedEnd => exact fun nested _ => Crosses.refl _ _
  | quotedPart word _ behind => exact behind.quotedText word
  | quotedInterpolation opened _ closed _ inside behind =>
      exact inside.interpolation opened closed behind
  | number token | name token => exact fun nested _ => crosses_plain token (by decide) nested
  | emptyCall name opened closed =>
      intro nested _
      exact (crosses_plain name (by decide) nested).trans
        (crosses_enclosed opened (Crosses.refl _ _) closed (by decide))
  | call name opened _ closed inside | index name opened _ closed inside =>
      intro nested quotable
      exact (crosses_plain name (by decide) nested).trans
        (crosses_enclosed opened (inside nested quotable) closed (by decide))
  | group opened _ closed inside =>
      exact fun nested quotable =>
        crosses_enclosed opened (inside nested quotable) closed (by decide)
  | string opened _ closed inside => exact inside.string opened closed
  | unary sign token _ inside =>
      intro nested quotable
      exact (crosses_plain token (avoids_unary sign) nested).trans (inside nested quotable)
  | binary mark _ _ token _ before behind | comparison mark _ _ token _ before behind =>
      exact before.binary token mark behind
  | conditional _ asked _ parted _ before between behind =>
      exact before.conditional asked between parted behind
  | tighter _ _ ih => exact ih
  | lastArgument _ inside =>
      exact fun nested quotable => inside nested (Bool.and_eq_true_iff.mp quotable).1
  | moreArguments _ comma _ first behind =>
      intro nested quotable
      obtain ⟨expr, others⟩ := Bool.and_eq_true_iff.mp quotable
      exact (first nested expr).trans
        ((crosses_plain comma (by decide) nested).trans (behind nested others))

theorem token_closing {start stop : Spot} {lexeme : Template.Lexeme}
    (token : Template.Token .closing start lexeme stop) :
    ∃ gap, start.rest = gap ++ '}' :: stop.rest ∧ Moves .interpolation .interpolation gap := by
  cases token with
  | @mk point gap rest _ _ gaps word =>
      cases word with
      | @mk point word rest found =>
          rw [(Pattern.literally_first?_iff.mp found).1]
          exact ⟨gap, rfl, moves_gap gaps false⟩

theorem word_opening {start stop : Spot} {lexeme : Template.Lexeme}
    (word : Template.Word .opening start lexeme stop) : start.rest = '$' :: '{' :: stop.rest := by
  cases word with
  | @mk point word rest found =>
      rw [(Pattern.literally_first?_iff.mp found).1]
      rfl

/-- A template that is one interpolation and nothing else ends with the brace of that. -/
theorem written_interpolation {basis : Point} {text : List Char} {part : Part}
    (written : Template.Written basis ('$' :: '{' :: text) [part]) : ∃ expr, part = .expr expr ∧
      (expr.quotable false = true → ∃ word, text = word ++ ['}'] ∧
        Moves .interpolation .interpolation word) := by
  obtain ⟨stop, derives⟩ := written
  generalize spot : Spot.mk basis ('$' :: '{' :: text) = start at derives
  have rest : start.rest = '$' :: '{' :: text := by rw [← spot]
  cases derives with
  | textPart word _ =>
      have found := word.stands.2
      rw [rest] at found
      exact absurd found Template.opening_apart.1
  | @interpolation _ _ first operand last _ _ _ _ opening inner closing ends =>
      cases ends with
      | textEnd =>
          refine ⟨operand.expr, rfl, fun quotable => ?_⟩
          obtain ⟨word, cut, moves⟩ := readThrough_of_derives inner false quotable
          obtain ⟨gap, behind, blank⟩ := token_closing closing
          refine ⟨word ++ gap, ?_, moves.append blank⟩
          have same := (word_opening opening).symm.trans rest
          rw [cut, behind, List.cons.injEq, List.cons.injEq] at same
          rw [← same.2.2, List.append_assoc]

/-- What stands between the quotes of a string is read as one piece, if it is an interpolation that
does not mislead its reader. -/
theorem string_first? {word : List Char} (moves : Moves .interpolation .interpolation word)
    (rest : List Char) :
    stringPattern.first? ('"' :: '$' :: '{' :: (word ++ '}' :: '"' :: rest)) =
      some ('"' :: '$' :: '{' :: (word ++ ['}', '"'])) := by
  have opened := textNext_opening ['"'] (word ++ '}' :: '"' :: rest)
  have through := moves ['{', '$', '"'] ('}' :: '"' :: rest)
  have closed := interpolationNext_closing (word.reverse ++ ['{', '$', '"']) ('"' :: rest)
  have ended := textNext_quote ('}' :: (word.reverse ++ ['{', '$', '"'])) rest
  rw [← next_eq_closeString, ← next_eq_closeString] at through
  refine opened.trans (through.trans (closed.trans (ended.trans ?_)))
  simp

theorem parseChars_string {tail : List Char}
    (whole : stringPattern.first? ('"' :: tail) = some ('"' :: tail)) :
    parseChars ('x' :: ' ' :: '=' :: ' ' :: '"' :: tail) = .ok ⟨[⟨[⟨.ident, "x", .start⟩],
      some (.literal ⟨.string, String.ofList ('"' :: tail), ⟨"", 4, 1, 5⟩⟩),
      some ⟨"", 2, 1, 3⟩, []⟩], []⟩ := by
  have first : stringPattern.first? ('"' :: tail ++ []) = some ('"' :: tail) := by
    rwa [List.append_nil]
  have assigned := @parseChars_assigned .string _ [] _ first (by simp) rfl (by simp)
  rwa [List.append_nil] at assigned

theorem length_trees (free : List Char → List Char) (parts : List Part) :
    (Part.trees free parts).length = parts.length := by
  induction parts with
  | nil => rfl
  | cons part rest ih =>
      cases part with
      | text text point => rw [Part.trees, List.length_cons, List.length_cons, ih]
      | expr expr => rw [Part.trees, List.length_cons, List.length_cons, ih]

theorem parse_single {text : List Char} {node : Template.Node}
    (read : Template.parseChars .start ('$' :: '{' :: text) = .ok (.output [node] .start)) :
    ∃ expr, Template.Written .start ('$' :: '{' :: text) [.expr expr] ∧
      (expr.quotable false = true → ∃ word, text = word ++ ['}'] ∧
        Moves .interpolation .interpolation word) := by
  obtain ⟨parts, written, _, _, same⟩ := Template.parseChars_eq_ok_iff.mp read
  have single : parts.length = 1 := by
    rw [Template.Node.output.injEq] at same
    rw [← length_trees id parts, ← same.1]
    rfl
  obtain ⟨part, rfl⟩ := List.length_eq_one_iff.mp single
  obtain ⟨expr, rfl, moves⟩ := written_interpolation written
  exact ⟨expr, written, moves⟩

theorem single_of_match {result : Except Template.Failure Template.Node}
    (found : (match result with
      | .ok (.output [_] point) => decide (point = .start)
      | _ => false) = true) :
    ∃ node, result = .ok (.output [node] .start) := by
  split at found
  · rename_i node point
    exact ⟨node, by rw [of_decide_eq_true found]⟩
  · cases found

theorem quotable_of_match {chars : List Char}
    (found : (match (Template.scan .start chars).parts with
      | .ok [.expr expr] => expr.quotable false
      | _ => false) = true) :
    ∀ expr, Template.Written .start chars [.expr expr] → expr.quotable false = true := by
  intro expr written
  rwa [Template.scan_parts_eq_ok_iff.mpr written] at found

/-- An expression that is a template by itself can be written in a string of a document, as far as
the strings in it can. The document has that string as it stands. -/
theorem parse_interpolation (text : String) (node : Template.Node)
    (read : Template.parse ("$\x7b" ++ text ++ "\x7d") = .ok (.output [node] .start))
    (quotable : ∀ expr, Template.Written .start ("$\x7b" ++ text ++ "\x7d").toList [.expr expr] →
      expr.quotable false = true) :
    parse ("x = \"$\x7b" ++ text ++ "\x7d\"") = .ok ⟨[⟨[⟨.ident, "x", .start⟩],
      some (.literal ⟨.string, "\"$\x7b" ++ text ++ "\x7d\"", ⟨"", 4, 1, 5⟩⟩),
      some ⟨"", 2, 1, 3⟩, []⟩], []⟩ := by
  have template : ("$\x7b" ++ text ++ "\x7d").toList = '$' :: '{' :: (text.toList ++ ['}']) := by
    simp
  have source : ("x = \"$\x7b" ++ text ++ "\x7d\"").toList =
      'x' :: ' ' :: '=' :: ' ' :: '"' :: '$' :: '{' :: (text.toList ++ ['}', '"']) := by
    simp
  have string : "\"$\x7b" ++ text ++ "\x7d\"" =
      String.ofList ('"' :: '$' :: '{' :: (text.toList ++ ['}', '"'])) := by
    apply String.toList_injective
    simp
  rw [Template.parse, Template.parseAt, template] at read
  rw [template] at quotable
  obtain ⟨expr, written, moves⟩ := parse_single read
  obtain ⟨word, cut, through⟩ := moves (quotable expr written)
  have same : text.toList = word := List.append_cancel_right cut
  have whole := string_first? through []
  rw [← same] at whole
  rw [parse, source, string]
  exact parseChars_string whole

theorem parse_interpolation_nested :
    let text := "\"$\x7bf(\"a b\")\x7d\""
    (∃ node, Template.parse ("$\x7b" ++ text ++ "\x7d") = .ok (.output [node] .start)) ∧
      (∀ expr, Template.Written .start ("$\x7b" ++ text ++ "\x7d").toList [.expr expr] →
        expr.quotable false = true) ∧
      parse ("x = \"$\x7b" ++ text ++ "\x7d\"") = .ok ⟨[⟨[⟨.ident, "x", .start⟩],
        some (.literal ⟨.string, "\"$\x7b" ++ text ++ "\x7d\"", ⟨"", 4, 1, 5⟩⟩),
        some ⟨"", 2, 1, 3⟩, []⟩], []⟩ := by
  intro text
  obtain ⟨node, read⟩ : ∃ node, Template.parse ("$\x7b" ++ text ++ "\x7d") =
      .ok (.output [node] .start) := single_of_match (by decide +kernel)
  have quotable : ∀ expr, Template.Written .start ("$\x7b" ++ text ++ "\x7d").toList [.expr expr] →
      expr.quotable false = true := quotable_of_match (by decide +kernel)
  exact ⟨⟨node, read⟩, quotable, parse_interpolation text node read quotable⟩

/-- Not every expression can be written in a string: the brace in a string inside the string of an
expression ends the interpolation around them all. -/
theorem parse_interpolation_brace :
    let text := "\"$\x7b\"\x7d\"\x7d\""
    (∃ node, Template.parse ("$\x7b" ++ text ++ "\x7d") = .ok (.output [node] .start)) ∧
      ∀ file, parse ("x = \"$\x7b" ++ text ++ "\x7d\"") ≠ .ok file := by
  intro text
  constructor
  · exact single_of_match (by decide +kernel)
  · intro file read
    have rejected : (parse ("x = \"$\x7b" ++ text ++ "\x7d\"")).toOption.isSome = false := by
      decide +kernel
    rw [read] at rejected
    cases rejected

end Document

end ConfigIndex
