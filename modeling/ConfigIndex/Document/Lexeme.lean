import ConfigIndex.Document.Tree
import ConfigIndex.Text.Blank
import ConfigIndex.Text.Numeral

/-!
The words of a configuration document. Each kind of word starts with characters of its own, so the
first character decides what a word can be, wherever it stands.
-/

namespace ConfigIndex.Document

inductive Terminal
  | ident
  | string
  | heredoc
  | number
  | equal
  | openBrace
  | closeBrace
  | openBracket
  | closeBracket
  | comma
deriving DecidableEq, Repr

def Terminal.name : Terminal → String
  | ident => "IDENT"
  | string => "STRING"
  | heredoc => "HEREDOC"
  | number => "NUMBER"
  | equal => "EQUAL"
  | openBrace => "LBRACE"
  | closeBrace => "RBRACE"
  | openBracket => "LBRACKET"
  | closeBracket => "RBRACKET"
  | comma => "COMMA"

inductive Piece
  | gap
  | comment
  | word (terminal : Terminal)
deriving DecidableEq, Repr

def isGap (c : Char) : Bool := c = ' ' || c = '\t' || c = '\x0c' || c = '\r' || c = '\n'

def isWordStart (c : Char) : Bool := ('A' ≤ c && c ≤ 'Z') || ('a' ≤ c && c ≤ 'z') || c = '_'

def isWordChar (c : Char) : Bool := isWordStart c || ('0' ≤ c && c ≤ '9') || c = '-' || c = '.'

def isTagChar (c : Char) : Bool := isWordStart c || ('0' ≤ c && c ≤ '9') || c = '-'

def isHexDigit (c : Char) : Bool :=
  ('0' ≤ c && c ≤ '9') || ('a' ≤ c && c ≤ 'f') || ('A' ≤ c && c ≤ 'F')

/-- Where the reader of a quoted string is: in plain text, in an interpolation, or between the
quotes inside an interpolation. -/
inductive Inside
  | text
  | interpolation
  | quotes
deriving DecidableEq, Repr

/-- Reads a string up to its closing quote behind the characters `seen`, last first. A `$$` before
a brace is an escape, unless the string is only complete if the second `$` opens an
interpolation. -/
def closeString (inside : Inside) (seen : List Char) : List Char → Option (List Char)
  | [] => none
  | c :: rest =>
    match inside with
    | .text =>
      if c = '"' then some (c :: seen).reverse
      else if c = '\n' then none
      else if c = '\\' then
        match rest with
        | [] => none
        | next :: rest => if next = '\n' then none else closeString .text (next :: c :: seen) rest
      else if c = '$' then
        match rest with
        | '$' :: '{' :: rest =>
          (closeString .text ('{' :: '$' :: '$' :: seen) rest).or
            (closeString .interpolation ('{' :: '$' :: '$' :: seen) rest)
        | '{' :: rest => closeString .interpolation ('{' :: '$' :: seen) rest
        | rest => closeString .text ('$' :: seen) rest
      else closeString .text (c :: seen) rest
    | .interpolation =>
      if c = '}' then closeString .text (c :: seen) rest
      else if c = '"' then closeString .quotes (c :: seen) rest
      else closeString .interpolation (c :: seen) rest
    | .quotes =>
      if c = '"' then closeString .interpolation (c :: seen) rest
      else if c = '\\' then
        match rest with
        | [] => none
        | next :: rest => if next = '\n' then none else closeString .quotes (next :: c :: seen) rest
      else closeString .quotes (c :: seen) rest

def closeComment (seen : List Char) : List Char → Option (List Char)
  | [] => none
  | '*' :: '/' :: _ => some ('/' :: '*' :: seen).reverse
  | c :: rest => closeComment (c :: seen) rest

def endsLine (text : List Char) : Bool :=
  match text with
  | [] => true
  | '\n' :: _ => true
  | '\r' :: '\n' :: _ => true
  | _ => false

def isIndent (c : Char) : Bool := c = ' ' || c = '\t'

def closingLine? (tag line : List Char) : Option (List Char) :=
  let indent := line.takeWhile isIndent
  let rest := line.drop indent.length
  if tag.isPrefixOf rest && endsLine (rest.drop tag.length) then some (indent ++ tag) else none

/-- Reads a heredoc up to its closing tag behind the characters `seen`, last first; `fresh` at the
start of a line. -/
def closeHeredoc (tag : List Char) (fresh : Bool) (seen : List Char) :
    List Char → Option (List Char)
  | [] => none
  | c :: rest =>
    match if fresh then closingLine? tag (c :: rest) else none with
    | some line => some (seen.reverse ++ line)
    | none => closeHeredoc tag (c = '\n') (c :: seen) rest

def openingLine? (text : List Char) : Option (List Char × List Char) :=
  let arrows := match text with
    | '<' :: '<' :: '-' :: _ => ['<', '<', '-']
    | '<' :: '<' :: _ => ['<', '<']
    | _ => []
  let rest := text.drop arrows.length
  let tag := rest.takeWhile isTagChar
  let rest := rest.drop tag.length
  let blanks := rest.takeWhile isIndent
  let opening := arrows ++ tag ++ blanks
  if arrows.isEmpty || !tag.head?.any isWordStart then none
  else match rest.drop blanks.length with
    | '\n' :: _ => some (opening ++ ['\n'], tag)
    | '\r' :: '\n' :: _ => some (opening ++ ['\r', '\n'], tag)
    | _ => none

def heredoc? (text : List Char) : Option (List Char) :=
  match openingLine? text with
  | none => none
  | some (opening, tag) => closeHeredoc tag true opening.reverse (text.drop opening.length)

def number? (text : List Char) : Option (List Char) :=
  let sign := match text with
    | '-' :: _ => ['-']
    | _ => []
  let rest := text.drop sign.length
  let hexadecimal := match rest with
    | '0' :: x :: rest =>
      let digits := rest.takeWhile isHexDigit
      if (x = 'x' || x = 'X') && !digits.isEmpty then '0' :: x :: digits else []
    | _ => []
  if hexadecimal.isEmpty then (Text.numeral? rest).map (sign ++ ·)
  else some (sign ++ hexadecimal)

def mark? (c : Char) : Option Terminal :=
  match c with
  | '=' => some .equal
  | '{' => some .openBrace
  | '}' => some .closeBrace
  | '[' => some .openBracket
  | ']' => some .closeBracket
  | ',' => some .comma
  | _ => none

def piece? (text : List Char) : Option (Piece × List Char) :=
  match text with
  | [] => none
  | c :: rest =>
    if isGap c then some (.gap, text.takeWhile isGap)
    else if c = '"' then (closeString .text [c] rest).map (.word .string, ·)
    else if c = '<' then (heredoc? text).map (.word .heredoc, ·)
    else if c = '#' then some (.comment, text.takeWhile (· ≠ '\n'))
    else if c = '/' then
      match rest with
      | '/' :: _ => some (.comment, text.takeWhile (· ≠ '\n'))
      | '*' :: rest => (closeComment ['*', '/'] rest).map (.comment, ·)
      | _ => none
    else if isWordStart c then some (.word .ident, text.takeWhile isWordChar)
    else if c = '-' || Text.isDecimal c then (number? text).map (.word .number, ·)
    else (mark? c).map (.word ·, [c])

structure Lexeme where
  terminal : Terminal
  text : String
  position : Position
deriving DecidableEq, Repr

/-- A document taken apart. If some character starts no piece, the document is read up to there. -/
structure Scan where
  lexemes : List Lexeme
  comments : List Comment
  /-- The comments that have nothing but blanks before them on their line. -/
  ownLine : List Comment
  /-- The character that starts no piece. -/
  stray : Option Char
  /-- The end of what was read. -/
  final : Position

def commentAt (position : Position) (text : List Char) : Comment :=
  ⟨String.ofList (Text.trimEndBy (fun c => c = '\r' || c = '\n') text), position,
    (position.advanceBy text).line⟩

/-- Takes a text apart that stands at `position`. The next `skip` characters belong to a piece
already read, `fresh` tells that only blanks stand before the text on its line, and `done` holds
what was read so far, last first. -/
def scanFrom (skip : Nat) (fresh : Bool) (done : Scan) (text : List Char) : Scan :=
  match text with
  | [] =>
    ⟨done.lexemes.reverse, done.comments.reverse, done.ownLine.reverse, none, done.final⟩
  | c :: rest =>
    let done' := { done with final := done.final.advance c }
    match skip with
    | skip + 1 => scanFrom skip fresh done' rest
    | 0 =>
      match piece? text with
      | none =>
        ⟨done.lexemes.reverse, done.comments.reverse, done.ownLine.reverse, some c, done.final⟩
      | some (.gap, piece) =>
        scanFrom (piece.length - 1) (fresh || piece.contains '\n') done' rest
      | some (.comment, piece) =>
        let comment := commentAt done.final piece
        let ownLine := if fresh then comment :: done.ownLine else done.ownLine
        scanFrom (piece.length - 1) false
          { done' with comments := comment :: done.comments, ownLine := ownLine } rest
      | some (.word terminal, piece) =>
        let lexeme := ⟨terminal, String.ofList piece, done.final⟩
        scanFrom (piece.length - 1) false { done' with lexemes := lexeme :: done.lexemes } rest

def scan (text : List Char) : Scan := scanFrom 0 true ⟨[], [], [], none, .start⟩ text

end ConfigIndex.Document
