import ConfigIndex.Document.Lexeme
import ConfigIndex.Proofs.Text.Numeral

/-!
The patterns of what a document is made of: words, comments and the gaps between them.
-/

namespace ConfigIndex.Document

open Text (Pattern)

def inLine : Pattern := .one (· ≠ '\n')

def identPattern : Pattern := .seq (.one isWordStart) (.many (.one isWordChar))

def hexadecimal : Pattern :=
  .seq (.char '0') (.seq (.one fun c => c = 'x' || c = 'X') (.several (.one isHexDigit)))

def numberPattern : Pattern := .seq (.maybe (.char '-')) (.either hexadecimal .numeral)

def escape : Pattern := .seq (.char '\\') inLine

def quotesUnit : Pattern := .either (.one fun c => c ≠ '"' && c ≠ '\\') escape

def quotes : Pattern := .seq (.char '"') (.seq (.many quotesUnit) (.char '"'))

def interpolationUnit : Pattern := .either (.one fun c => c ≠ '"' && c ≠ '}') quotes

def interpolation : Pattern :=
  .seq (.literally ['$', '{']) (.seq (.many interpolationUnit) (.char '}'))

def stringUnit : Pattern :=
  .either (.one fun c => c ≠ '"' && c ≠ '\\' && c ≠ '$' && c ≠ '\n')
    (.either escape (.either (.literally ['$', '$', '{'])
      (.either (.seq (.char '$') (.without (.char '{'))) interpolation)))

def stringPattern : Pattern := .seq (.char '"') (.seq (.many stringUnit) (.char '"'))

def tagPattern : Pattern := .seq (.one isWordStart) (.many (.one isTagChar))

def indentPattern : Pattern := .many (.one isIndent)

def lineBreak : Pattern := .seq (.maybe (.char '\r')) (.char '\n')

def heredocBody (tag : List Char) : Pattern :=
  .seq (.few (.seq (.many inLine) (.char '\n')))
    (.seq indentPattern (.seq (.literally tag) (.ahead (.either lineBreak .finish))))

def heredocPattern : Pattern :=
  .seq (.literally ['<', '<']) (.seq (.maybe (.char '-'))
    (.capture tagPattern fun tag => .seq indentPattern (.seq lineBreak (heredocBody tag))))

def lineComment (mark : List Char) : Pattern := .seq (.literally mark) (.many inLine)

def blockComment : Pattern :=
  .seq (.literally ['/', '*']) (.seq (.few (.one fun _ => true)) (.literally ['*', '/']))

def Terminal.pattern : Terminal → Pattern
  | ident => identPattern
  | string => stringPattern
  | heredoc => heredocPattern
  | number => numberPattern
  | equal => .literally ['=']
  | openBrace => .literally ['{']
  | closeBrace => .literally ['}']
  | openBracket => .literally ['[']
  | closeBracket => .literally [']']
  | comma => .literally [',']

def Piece.pattern : Piece → Pattern
  | gap => .several (.one isGap)
  | comment => .either (lineComment ['#']) (.either (lineComment ['/', '/']) blockComment)
  | word terminal => terminal.pattern

end ConfigIndex.Document
