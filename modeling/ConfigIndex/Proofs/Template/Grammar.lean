import ConfigIndex.Proofs.Text.Numeral
import ConfigIndex.Template.Parser

/-!
The grammar of templates, on the text itself. Each word is the first match of its pattern where it
stands; which words may stand somewhere is the grammar's matter alone.
-/

namespace ConfigIndex.Template

open Text (Pattern)

def dollar : Pattern := .seq (.char '$') (.without (.char '{'))

def textUnit : Pattern :=
  .either (.literally ['$', '$', '{']) (.either dollar (.one (· ≠ '$')))

def quotedUnit : Pattern :=
  .either (.seq (.char '\\') (.one (· ≠ '\n')))
    (.either (.literally ['$', '$', '{'])
      (.either dollar (.one fun c => c ≠ '"' && c ≠ '\\' && c ≠ '$')))

def nameTail : Pattern :=
  .seq (.char '.') (.either (.char '*') (.several (.one isNameChar)))

def namePattern : Pattern :=
  .seq (.one isNameStart) (.seq (.many (.one isNameChar)) (.many nameTail))

def Terminal.pattern : Terminal → Pattern
  | text => .several textUnit
  | quotedText => .several quotedUnit
  | opening => .literally ['$', '{']
  | closing => .literally ['}']
  | quote => .literally ['"']
  | ident => namePattern
  | number => .numeral
  | bang => .literally ['!']
  | minus => .literally ['-']
  | plus => .literally ['+']
  | star => .literally ['*']
  | slash => .literally ['/']
  | percent => .literally ['%']
  | equal => .literally ['=', '=']
  | notEqual => .literally ['!', '=']
  | less => .literally ['<']
  | lessOrEqual => .literally ['<', '=']
  | greater => .literally ['>']
  | greaterOrEqual => .literally ['>', '=']
  | and => .literally ['&', '&']
  | or => .literally ['|', '|']
  | question => .literally ['?']
  | colon => .literally [':']
  | comma => .literally [',']
  | openParen => .literally ['(']
  | closeParen => .literally [')']
  | openBracket => .literally ['[']
  | closeBracket => .literally [']']

structure Spot where
  point : Point
  rest : List Char

inductive Word (terminal : Terminal) : Spot → Lexeme → Spot → Prop
  | mk {point word rest} : terminal.pattern.first? (word ++ rest) = some word →
      Word terminal ⟨point, word ++ rest⟩ ⟨terminal, String.ofList word, point⟩
        ⟨point.advanceBy word, rest⟩

inductive Token (terminal : Terminal) : Spot → Lexeme → Spot → Prop
  | mk {point gap rest lexeme behind} : (∀ c ∈ gap, isGap c = true) →
      Word terminal ⟨point.advanceBy gap, rest⟩ lexeme behind →
      Token terminal ⟨point, gap ++ rest⟩ lexeme behind

def Terminal.unary? : Terminal → Option Operator
  | bang => some .not
  | minus => some .subtract
  | _ => none

/-- A phrase of the grammar with what it is read as. Expressions are ranked by how tightly they
bind: a conditional has rank 0, the operators have their levels, a sign or a negation has rank 6
and an operand that stands by itself rank 7. -/
inductive Phrase
  | text (parts : List Part)
  | quoted (parts : List Part)
  | expression (rank : Nat) (operand : Operand)
  | arguments (arguments : List Expr)

inductive Derives : Spot → Phrase → Spot → Prop
  | textEnd {spot} : Derives spot (.text []) spot
  | textPart {start lexeme middle parts stop} : Word .text start lexeme middle →
      Derives middle (.text parts) stop →
      Derives start (.text (.text lexeme.text lexeme.point :: parts)) stop
  | interpolation {start opening first operand last closing middle parts stop} :
      Word .opening start opening first → Derives first (.expression 0 operand) last →
      Token .closing last closing middle → Derives middle (.text parts) stop →
      Derives start (.text (.expr operand.expr :: parts)) stop
  | quotedEnd {spot} : Derives spot (.quoted []) spot
  | quotedPart {start lexeme middle parts stop} : Word .quotedText start lexeme middle →
      Derives middle (.quoted parts) stop →
      Derives start (.quoted (.text lexeme.text lexeme.point :: parts)) stop
  | quotedInterpolation {start opening first operand last closing middle parts stop} :
      Word .opening start opening first → Derives first (.expression 0 operand) last →
      Token .closing last closing middle → Derives middle (.quoted parts) stop →
      Derives start (.quoted (.expr operand.expr :: parts)) stop
  | number {start lexeme stop} : Token .number start lexeme stop →
      Derives start (.expression 7 ⟨lexeme.point, .number lexeme.text lexeme.point⟩) stop
  | name {start lexeme stop} : Token .ident start lexeme stop →
      Derives start (.expression 7 ⟨lexeme.point, .name lexeme.text lexeme.point⟩) stop
  | emptyCall {start name first opening last closing stop} : Token .ident start name first →
      Token .openParen first opening last → Token .closeParen last closing stop →
      Derives start (.expression 7 ⟨name.point, .call name.text name.point []⟩) stop
  | call {start name first opening second arguments last closing stop} :
      Token .ident start name first → Token .openParen first opening second →
      Derives second (.arguments arguments) last → Token .closeParen last closing stop →
      Derives start (.expression 7 ⟨name.point, .call name.text name.point arguments⟩) stop
  | index {start name first opening second key last closing stop} :
      Token .ident start name first → Token .openBracket first opening second →
      Derives second (.expression 0 key) last → Token .closeBracket last closing stop →
      Derives start (.expression 7 ⟨name.point, .index name.text name.point key.expr⟩) stop
  | group {start opening first operand last closing stop} :
      Token .openParen start opening first → Derives first (.expression 0 operand) last →
      Token .closeParen last closing stop →
      Derives start (.expression 7 ⟨opening.point, operand.expr⟩) stop
  | string {start opening first parts last closing stop} :
      Token .quote start opening first → Derives first (.quoted parts) last →
      Word .quote last closing stop →
      Derives start (.expression 7 ⟨opening.point, .quoted opening.point parts⟩) stop
  | unary {terminal operator start sign first operand stop} :
      terminal.unary? = some operator → Token terminal start sign first →
      Derives first (.expression 6 operand) stop →
      Derives start (.expression 6 ⟨sign.point, .unary operator sign.point operand.expr⟩) stop
  | binary {terminal operator start left first mark second right stop} :
      terminal.binary? = some operator → operator.isComparison = false →
      Derives start (.expression operator.level left) first → Token terminal first mark second →
      Derives second (.expression (operator.level + 1) right) stop →
      Derives start (.expression operator.level
        ⟨left.start, .binary operator left.start left.expr right.expr⟩) stop
  | comparison {terminal operator start left first mark second right stop} :
      terminal.binary? = some operator → operator.isComparison = true →
      Derives start (.expression 4 left) first → Token terminal first mark second →
      Derives second (.expression 4 right) stop →
      Derives start (.expression 3
        ⟨left.start, .binary operator left.start left.expr right.expr⟩) stop
  | conditional {start condition first question second yes third colon fourth no stop} :
      Derives start (.expression 1 condition) first → Token .question first question second →
      Derives second (.expression 0 yes) third → Token .colon third colon fourth →
      Derives fourth (.expression 0 no) stop →
      Derives start (.expression 0
        ⟨condition.start, .conditional condition.start condition.expr yes.expr no.expr⟩) stop
  | tighter {start rank operand stop} : rank < 7 →
      Derives start (.expression (rank + 1) operand) stop →
      Derives start (.expression rank operand) stop
  | lastArgument {start operand stop} : Derives start (.expression 0 operand) stop →
      Derives start (.arguments [operand.expr]) stop
  | moreArguments {start operand first comma second arguments stop} :
      Derives start (.expression 0 operand) first → Token .comma first comma second →
      Derives second (.arguments arguments) stop →
      Derives start (.arguments (operand.expr :: arguments)) stop

/-- Whole texts of the grammar, with the parts that they are made of. -/
def Written (basis : Point) (text : List Char) (parts : List Part) : Prop :=
  ∃ stop, Derives ⟨basis, text⟩ (.text parts) ⟨stop, []⟩

end ConfigIndex.Template
