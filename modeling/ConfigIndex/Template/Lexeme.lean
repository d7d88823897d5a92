import ConfigIndex.Position
import ConfigIndex.Text.Numeral

/-!
The words of a template. What a character can start depends on where it stands: in the text around
the expressions, in a quoted string, or in an expression before or behind an operand.
-/

namespace ConfigIndex.Template

inductive Terminal
  | text
  | quotedText
  | opening
  | closing
  | quote
  | ident
  | number
  | bang
  | minus
  | plus
  | star
  | slash
  | percent
  | equal
  | notEqual
  | less
  | lessOrEqual
  | greater
  | greaterOrEqual
  | and
  | or
  | question
  | colon
  | comma
  | openParen
  | closeParen
  | openBracket
  | closeBracket
deriving DecidableEq, Repr

def Terminal.name : Terminal → String
  | text => "TEXT"
  | quotedText => "STR_TEXT"
  | opening => "INTERP_START"
  | closing => "INTERP_END"
  | quote => "QUOTE"
  | ident => "IDENT"
  | number => "NUMBER"
  | bang => "BANG"
  | minus => "MINUS"
  | plus => "PLUS"
  | star => "STAR"
  | slash => "SLASH"
  | percent => "PERCENT"
  | equal => "EQ"
  | notEqual => "NEQ"
  | less => "LT"
  | lessOrEqual => "LTE"
  | greater => "GT"
  | greaterOrEqual => "GTE"
  | and => "AND"
  | or => "OR"
  | question => "QMARK"
  | colon => "COLON"
  | comma => "COMMA"
  | openParen => "LPAR"
  | closeParen => "RPAR"
  | openBracket => "LSQB"
  | closeBracket => "RSQB"

inductive Mode
  | text
  | quoted
  | operand
  | operator
deriving DecidableEq, Repr

def isGap (c : Char) : Bool := c = ' ' || c = '\t' || c = '\r' || c = '\n'

def isNameStart (c : Char) : Bool := ('A' ≤ c && c ≤ 'Z') || ('a' ≤ c && c ≤ 'z') || c = '_'

def isNameChar (c : Char) : Bool := isNameStart c || ('0' ≤ c && c ≤ '9') || c = '-'

def readText (seen : List Char) : List Char → List Char
  | '$' :: '$' :: '{' :: rest => readText ('{' :: '$' :: '$' :: seen) rest
  | '$' :: '{' :: _ => seen.reverse
  | c :: rest => readText (c :: seen) rest
  | [] => seen.reverse

/-- Reads the text of a quoted string up to its end or an interpolation behind the characters
`seen`, last first. A backslash takes the next character of the line with it. -/
def readQuoted (seen : List Char) : List Char → List Char
  | '$' :: '$' :: '{' :: rest => readQuoted ('{' :: '$' :: '$' :: seen) rest
  | '$' :: '{' :: _ => seen.reverse
  | '\\' :: c :: rest =>
    if c = '\n' then seen.reverse else readQuoted (c :: '\\' :: seen) rest
  | c :: rest => if c = '"' || c = '\\' then seen.reverse else readQuoted (c :: seen) rest
  | [] => seen.reverse

/-- Reads a name behind the characters `seen`, last first: words joined by points, where a star
may stand for a word that is not the first. `inWord` tells that the last word may go on. -/
def readName (inWord : Bool) (seen : List Char) : List Char → List Char
  | [] => seen.reverse
  | c :: rest =>
    if inWord && isNameChar c then readName true (c :: seen) rest
    else if c = '.' then
      match rest with
      | '*' :: rest => readName false ('*' :: c :: seen) rest
      | next :: rest =>
        if isNameChar next then readName true (next :: c :: seen) rest else seen.reverse
      | [] => seen.reverse
    else seen.reverse

def mark? : List Char → Option (Terminal × List Char)
  | '&' :: '&' :: _ => some (.and, ['&', '&'])
  | '|' :: '|' :: _ => some (.or, ['|', '|'])
  | '=' :: '=' :: _ => some (.equal, ['=', '='])
  | '!' :: '=' :: _ => some (.notEqual, ['!', '='])
  | '<' :: '=' :: _ => some (.lessOrEqual, ['<', '='])
  | '>' :: '=' :: _ => some (.greaterOrEqual, ['>', '='])
  | '<' :: _ => some (.less, ['<'])
  | '>' :: _ => some (.greater, ['>'])
  | '+' :: _ => some (.plus, ['+'])
  | '-' :: _ => some (.minus, ['-'])
  | '*' :: _ => some (.star, ['*'])
  | '/' :: _ => some (.slash, ['/'])
  | '%' :: _ => some (.percent, ['%'])
  | '?' :: _ => some (.question, ['?'])
  | ':' :: _ => some (.colon, [':'])
  | ',' :: _ => some (.comma, [','])
  | '(' :: _ => some (.openParen, ['('])
  | ')' :: _ => some (.closeParen, [')'])
  | '[' :: _ => some (.openBracket, ['['])
  | ']' :: _ => some (.closeBracket, [']'])
  | '}' :: _ => some (.closing, ['}'])
  | _ => none

def operand? : List Char → Option (Terminal × List Char)
  | '"' :: _ => some (.quote, ['"'])
  | '!' :: _ => some (.bang, ['!'])
  | '-' :: _ => some (.minus, ['-'])
  | '(' :: _ => some (.openParen, ['('])
  | ')' :: _ => some (.closeParen, [')'])
  | c :: rest =>
    if isNameStart c then some (.ident, readName true [c] rest)
    else (Text.numeral? (c :: rest)).map (.number, ·)
  | [] => none

def filled? (terminal : Terminal) (text : List Char) : Option (Terminal × List Char) :=
  if text.isEmpty then none else some (terminal, text)

def word? (mode : Mode) (text : List Char) : Option (Terminal × List Char) :=
  match mode with
  | .text =>
    match text with
    | '$' :: '{' :: _ => some (.opening, ['$', '{'])
    | _ => filled? .text (readText [] text)
  | .quoted =>
    match text with
    | '"' :: _ => some (.quote, ['"'])
    | '$' :: '{' :: _ => some (.opening, ['$', '{'])
    | _ => filled? .quotedText (readQuoted [] text)
  | .operand => operand? text
  | .operator => mark? text

structure Place where
  mode : Mode
  strings : Nat
deriving DecidableEq, Repr

def Place.initial : Place := ⟨.text, 0⟩

def Place.after (place : Place) (terminal : Terminal) : Place :=
  match terminal with
  | .text | .quotedText => place
  | .opening => { place with mode := .operand }
  | .closing => { place with mode := if place.strings = 0 then .text else .quoted }
  | .quote =>
    match place.mode with
    | .quoted => ⟨.operator, place.strings - 1⟩
    | _ => ⟨.quoted, place.strings + 1⟩
  | .ident | .number | .closeParen | .closeBracket => { place with mode := .operator }
  | _ => { place with mode := .operand }

def Place.skips (place : Place) (c : Char) : Bool :=
  isGap c && (place.mode = .operand || place.mode = .operator)

structure Lexeme where
  terminal : Terminal
  text : String
  point : Point
deriving DecidableEq, Repr

structure Scan where
  lexemes : List Lexeme
  /-- What stands where no word fits. -/
  stray : Option String
  /-- The end of what was read. -/
  final : Point

def strayText (text : List Char) : String :=
  match text with
  | '$' :: '{' :: _ => String.ofList ['$', '{']
  | text => String.ofList (text.take 1)

/-- Takes a text apart that stands at `point`. The next `skip` characters belong to a word already
read, and `done` holds the words read so far, last first. -/
def scanFrom (skip : Nat) (place : Place) (point : Point) (done : List Lexeme)
    (text : List Char) : Scan :=
  match text with
  | [] => ⟨done.reverse, none, point⟩
  | c :: rest =>
    match skip with
    | skip + 1 => scanFrom skip place (point.advance c) done rest
    | 0 =>
      if place.skips c then scanFrom 0 place (point.advance c) done rest
      else match word? place.mode text with
        | none => ⟨done.reverse, some (strayText text), point⟩
        | some (terminal, word) =>
          let lexeme := ⟨terminal, String.ofList word, point⟩
          scanFrom (word.length - 1) (place.after terminal) (point.advance c) (lexeme :: done) rest

def scan (basis : Point) (text : List Char) : Scan := scanFrom 0 .initial basis [] text

end ConfigIndex.Template
