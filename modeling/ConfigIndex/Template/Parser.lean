import ConfigIndex.Template.Lexeme
import ConfigIndex.Template.Tree
import ConfigIndex.Text.Quoted

/-!
Building expressions from the words of a template, one word at a time. What is still open is kept
as a chain of sites from the inside out; an operator closes the sites that bind more tightly than
it does.
-/

namespace ConfigIndex.Template

mutual

/-- An expression as it is written. Parentheses leave no trace but in where an operation starts. -/
inductive Expr
  | number (text : String) (point : Point)
  | name (text : String) (point : Point)
  | call (name : String) (point : Point) (arguments : List Expr)
  | index (name : String) (point : Point) (key : Expr)
  | unary (operator : Operator) (point : Point) (operand : Expr)
  | binary (operator : Operator) (start : Point) (left right : Expr)
  | conditional (start : Point) (condition yes no : Expr)
  | quoted (point : Point) (parts : List Part)

inductive Part
  | text (text : String) (point : Point)
  | expr (expr : Expr)

end

deriving instance Repr, Inhabited for Expr, Part

structure Operand where
  start : Point
  expr : Expr

/-- A place for an expression. Parts and arguments before it are kept last first. -/
inductive Site
  | template (before : List Part)
  | quoted (outer : Site) (quote : Point) (before : List Part)
  | group (outer : Site) (opening : Point)
  | argument (outer : Site) (name : Lexeme) (before : List Expr)
  | key (outer : Site) (name : Lexeme)
  | unary (outer : Site) (operator : Operator) (point : Point)
  | right (outer : Site) (operator : Operator) (left : Operand)
  | consequence (outer : Site) (condition : Operand)
  | alternative (outer : Site) (condition : Operand) (yes : Expr)

inductive Stage
  | text (before : List Part)
  | quoted (outer : Site) (quote : Point) (before : List Part)
  /-- An operand must follow. -/
  | awaiting (site : Site)
  /-- After the parenthesis that opens the arguments of a call. -/
  | arguments (site : Site) (name : Lexeme)
  /-- After a name, which may turn out to be called or indexed. -/
  | named (site : Site) (name : Lexeme)
  /-- After an operand that is complete. -/
  | complete (site : Site) (operand : Operand)

abbrev Expected := List Terminal

namespace Expected

def text : Expected := [.opening, .text]

def quoted : Expected := [.opening, .quote, .quotedText]

def operand : Expected := [.bang, .ident, .openParen, .minus, .number, .quote]

def arguments : Expected := [.bang, .ident, .openParen, .minus, .number, .quote, .closeParen]

def operator : Expected :=
  [.and, .colon, .comma, .equal, .greater, .greaterOrEqual, .closing, .less, .lessOrEqual, .minus,
    .notEqual, .or, .percent, .plus, .question, .closeParen, .closeBracket, .slash, .star]

def name : Expected :=
  [.and, .colon, .comma, .equal, .greater, .greaterOrEqual, .closing, .openParen, .openBracket,
    .less, .lessOrEqual, .minus, .notEqual, .or, .percent, .plus, .question, .closeParen,
    .closeBracket, .slash, .star]

def compared : Expected :=
  [.and, .colon, .comma, .closing, .minus, .or, .plus, .question, .closeParen, .closeBracket]

end Expected

def Terminal.binary? : Terminal → Option Operator
  | .plus => some .add
  | .minus => some .subtract
  | .star => some .multiply
  | .slash => some .divide
  | .percent => some .remainder
  | .equal => some .equal
  | .notEqual => some .notEqual
  | .less => some .less
  | .lessOrEqual => some .lessOrEqual
  | .greater => some .greater
  | .greaterOrEqual => some .greaterOrEqual
  | .and => some .and
  | .or => some .or
  | _ => none

/-- Closes the operations around an operand that bind at least as tightly as `level`. -/
def Site.bind (level : Nat) : Site → Operand → Site × Operand
  | .unary outer operator point, operand =>
    outer.bind level ⟨point, .unary operator point operand.expr⟩
  | .right outer operator left, operand =>
    if level ≤ operator.level then
      outer.bind level ⟨left.start, .binary operator left.start left.expr operand.expr⟩
    else (.right outer operator left, operand)
  | site, operand => (site, operand)

def stepBinary (site : Site) (operand : Operand) (operator : Operator) : Except Expected Stage :=
  let (outer, left) := site.bind (if operator.isComparison then 4 else operator.level) operand
  match outer with
  | .right _ inner _ =>
    if operator.isComparison && inner.isComparison then .error .compared
    else .ok (.awaiting (.right outer operator left))
  | _ => .ok (.awaiting (.right outer operator left))

def Site.close (terminal : Terminal) : Site → Operand → Except Expected Stage
  | .template before, operand =>
    if terminal = .closing then .ok (.text (.expr operand.expr :: before)) else .error [.closing]
  | .quoted outer quote before, operand =>
    if terminal = .closing then .ok (.quoted outer quote (.expr operand.expr :: before))
    else .error [.closing]
  | .group outer opening, operand =>
    if terminal = .closeParen then .ok (.complete outer ⟨opening, operand.expr⟩)
    else .error [.closeParen]
  | .argument outer name before, operand =>
    if terminal = .closeParen then
      let arguments := (operand.expr :: before).reverse
      .ok (.complete outer ⟨name.point, .call name.text name.point arguments⟩)
    else if terminal = .comma then .ok (.awaiting (.argument outer name (operand.expr :: before)))
    else .error [.comma, .closeParen]
  | .key outer name, operand =>
    if terminal = .closeBracket then
      .ok (.complete outer ⟨name.point, .index name.text name.point operand.expr⟩)
    else .error [.closeBracket]
  | .unary outer operator point, operand =>
    outer.close terminal ⟨point, .unary operator point operand.expr⟩
  | .right outer operator left, operand =>
    outer.close terminal ⟨left.start, .binary operator left.start left.expr operand.expr⟩
  | .consequence outer condition, operand =>
    if terminal = .colon then .ok (.awaiting (.alternative outer condition operand.expr))
    else .error [.colon]
  | .alternative outer condition yes, operand =>
    outer.close terminal
      ⟨condition.start, .conditional condition.start condition.expr yes operand.expr⟩

def stepOperator (site : Site) (operand : Operand) (expected : Expected) (terminal : Terminal) :
    Except Expected Stage :=
  match terminal.binary? with
  | some operator => stepBinary site operand operator
  | none =>
    match terminal with
    | .question =>
      let (outer, condition) := site.bind Operator.or.level operand
      .ok (.awaiting (.consequence outer condition))
    | .closing | .closeParen | .closeBracket | .comma | .colon => site.close terminal operand
    | _ => .error expected

def stepOperand (site : Site) (expected : Expected) (lexeme : Lexeme) : Except Expected Stage :=
  match lexeme.terminal with
  | .ident => .ok (.named site lexeme)
  | .number => .ok (.complete site ⟨lexeme.point, .number lexeme.text lexeme.point⟩)
  | .bang => .ok (.awaiting (.unary site .not lexeme.point))
  | .minus => .ok (.awaiting (.unary site .subtract lexeme.point))
  | .openParen => .ok (.awaiting (.group site lexeme.point))
  | .quote => .ok (.quoted site lexeme.point [])
  | _ => .error expected

def Stage.step (lexeme : Lexeme) : Stage → Except Expected Stage
  | .text before =>
    match lexeme.terminal with
    | .text => .ok (.text (.text lexeme.text lexeme.point :: before))
    | .opening => .ok (.awaiting (.template before))
    | _ => .error .text
  | .quoted outer quote before =>
    match lexeme.terminal with
    | .quotedText => .ok (.quoted outer quote (.text lexeme.text lexeme.point :: before))
    | .opening => .ok (.awaiting (.quoted outer quote before))
    | .quote => .ok (.complete outer ⟨quote, .quoted quote before.reverse⟩)
    | _ => .error .quoted
  | .awaiting site => stepOperand site .operand lexeme
  | .arguments site name =>
    if lexeme.terminal = .closeParen then
      .ok (.complete site ⟨name.point, .call name.text name.point []⟩)
    else stepOperand (.argument site name []) .arguments lexeme
  | .named site name =>
    match lexeme.terminal with
    | .openParen => .ok (.arguments site name)
    | .openBracket => .ok (.awaiting (.key site name))
    | terminal => stepOperator site ⟨name.point, .name name.text name.point⟩ .name terminal
  | .complete site operand => stepOperator site operand .operator lexeme.terminal

def Stage.expected : Stage → Expected
  | .text _ => .text
  | .quoted _ _ _ => .quoted
  | .awaiting _ => .operand
  | .arguments _ _ => .arguments
  | .named _ _ => .name
  | .complete _ _ => .operator

inductive Fault
  | unexpected (word : String) (expected : Expected)
  | unfinished (expected : Expected)
  | tooDeep
deriving DecidableEq, Repr

def maxLevels : Nat := 100

def Expected.names (expected : Expected) : String := ", ".intercalate (expected.map Terminal.name)

def Fault.message : Fault → String
  | unexpected word expected =>
    "unexpected " ++ Text.quoted word ++ ", expected one of: " ++ expected.names
  | unfinished expected => "unexpected end of template, expected one of: " ++ expected.names
  | tooDeep => "expression nesting exceeds " ++ toString maxLevels ++ " levels"

structure Error where
  fault : Fault
  point : Point
deriving DecidableEq, Repr

def Error.message (error : Error) : String := error.fault.message

/-- Text is reported by its first character, as it may go on for long. -/
def Lexeme.shown (lexeme : Lexeme) : String :=
  match lexeme.terminal with
  | .text | .quotedText => String.ofList (lexeme.text.toList.take 1)
  | _ => lexeme.text

def Stage.run : Stage → List Lexeme → Except Error Stage
  | stage, [] => .ok stage
  | stage, lexeme :: rest =>
    match stage.step lexeme with
    | .ok next => next.run rest
    | .error expected => .error ⟨.unexpected lexeme.shown expected, lexeme.point⟩

def Scan.parts (scan : Scan) : Except Error (List Part) :=
  match (Stage.text []).run scan.lexemes with
  | .error error => .error error
  | .ok stage =>
    match scan.stray with
    | some word => .error ⟨.unexpected word stage.expected, scan.final⟩
    | none =>
      match stage with
      | .text before => .ok before.reverse
      | stage => .error ⟨.unfinished stage.expected, scan.final⟩

end ConfigIndex.Template
