import ConfigIndex.Document.Lexeme

/-!
Building the tree of a document from its words, one word at a time. What is still open is kept as
a chain of sites from the inside out, so each step looks at one place only and documents nest as
deeply as they like.
-/

namespace ConfigIndex.Document

mutual

/-- A place for a value: the right-hand side of an item, or the next element of a list. -/
inductive Site
  | value (body : Body) (keys : List Token) (assign : Option Position)
  | element (outer : Site) (opening : Position) (before : List Node)

/-- A run of items, last first: the document's own, or those of an object at some site. -/
inductive Body
  | document (before : List Item)
  | object (outer : Site) (opening : Position) (before : List Item)

end

def Body.before : Body → List Item
  | .document before => before
  | .object _ _ before => before

def Body.add (item : Item) : Body → Body
  | .document before => .document (item :: before)
  | .object outer opening before => .object outer opening (item :: before)

inductive Last
  | nothing
  | brace
  | comma
  | value
deriving DecidableEq, Repr

inductive Stage
  /-- An item may start here. -/
  | item (body : Body) (last : Last)
  /-- After the keys of an item, last first. -/
  | keys (body : Body) (key : Token) (before : List Token)
  /-- After an equals sign. -/
  | value (site : Site)
  /-- In a list, where an element may stand. -/
  | element (outer : Site) (opening : Position) (before : List Node)
  /-- In a list, after an element. -/
  | separator (outer : Site) (opening : Position) (before : List Node)

inductive Symbol
  | finish
  | terminal (terminal : Terminal)
deriving DecidableEq, Repr

def Symbol.name : Symbol → String
  | .finish => "$END"
  | .terminal word => word.name

abbrev Expected := List Symbol

namespace Expected

def firstItem : Expected := [.terminal .ident, .terminal .string]

def topItem : Expected := [.finish, .terminal .ident, .terminal .string]

def innerItem : Expected := [.terminal .ident, .terminal .closeBrace, .terminal .string]

def afterValue : Expected :=
  [.terminal .comma, .terminal .ident, .terminal .closeBrace, .terminal .closeBracket,
    .terminal .string]

def afterItem : Expected :=
  [.finish, .terminal .comma, .terminal .ident, .terminal .closeBrace, .terminal .string]

def afterKey : Expected :=
  [.terminal .equal, .terminal .ident, .terminal .openBrace, .terminal .string]

def afterKeys : Expected := [.terminal .ident, .terminal .openBrace, .terminal .string]

def value : Expected :=
  [.terminal .heredoc, .terminal .ident, .terminal .openBrace, .terminal .openBracket,
    .terminal .number, .terminal .string]

def element : Expected :=
  [.terminal .heredoc, .terminal .ident, .terminal .openBrace, .terminal .openBracket,
    .terminal .number, .terminal .closeBracket, .terminal .string]

def separator : Expected := [.terminal .comma, .terminal .closeBracket]

end Expected

def Last.expected : Last → Expected
  | nothing => .firstItem
  | brace => .innerItem
  | comma => .innerItem
  | value => .afterValue

def Body.expected : Body → Expected
  | .document _ => .topItem
  | .object _ _ _ => .innerItem

def Site.fill (node : Node) : Site → Stage
  | .value body keys assign => .item (body.add ⟨keys, some node, assign, []⟩) .value
  | .element outer opening before => .separator outer opening (node :: before)

/-- Numerals with a point or an exponent are not whole; hexadecimal ones are. -/
def numeralKind (text : List Char) : TokenKind :=
  let digits := text.dropWhile (· == '-')
  let hexadecimal := match digits with
    | '0' :: x :: _ => x = 'x' || x = 'X'
    | _ => false
  if !hexadecimal && text.any (fun c => c = '.' || c = 'e' || c = 'E') then .float else .number

/-- The literal that a word is, if it is one. A bare word other than `true` and `false` keeps its
kind and is found by the checks that follow. -/
def Lexeme.literal? (lexeme : Lexeme) : Option Token :=
  match lexeme.terminal with
  | .string => some ⟨.string, lexeme.text, lexeme.position⟩
  | .heredoc => some ⟨.heredoc, lexeme.text, lexeme.position⟩
  | .number => some ⟨numeralKind lexeme.text.toList, lexeme.text, lexeme.position⟩
  | .ident =>
    let kind := if lexeme.text == "true" || lexeme.text == "false" then .bool else .ident
    some ⟨kind, lexeme.text, lexeme.position⟩
  | _ => none

def Lexeme.key? (lexeme : Lexeme) : Option Token :=
  match lexeme.terminal with
  | .ident => some ⟨.ident, lexeme.text, lexeme.position⟩
  | .string => some ⟨.string, lexeme.text, lexeme.position⟩
  | _ => none

def stepItem (body : Body) (last : Last) (lexeme : Lexeme) : Except Expected Stage :=
  match lexeme.key? with
  | some key => .ok (.keys body key [])
  | none =>
    match lexeme.terminal, last with
    | .closeBrace, .nothing => .error last.expected
    | .closeBrace, _ =>
      match body with
      | .document _ => .error body.expected
      | .object outer opening before =>
        .ok (outer.fill (.object opening lexeme.position before.reverse))
    | .comma, .value => .ok (.item body .comma)
    | .closeBracket, .value => .error .afterItem
    | _, _ => .error last.expected

def stepKeys (body : Body) (key : Token) (before : List Token) (lexeme : Lexeme) :
    Except Expected Stage :=
  match lexeme.key? with
  | some next => .ok (.keys body next (key :: before))
  | none =>
    match lexeme.terminal with
    | .openBrace =>
      let site := .value body (key :: before).reverse none
      .ok (.item (.object site lexeme.position []) .brace)
    | .equal =>
      match before with
      | [] => .ok (.value (.value body [key] (some lexeme.position)))
      | _ :: _ => .error .afterKeys
    | _ => .error .afterKey

def stepValue (site : Site) (expected : Expected) (lexeme : Lexeme) : Except Expected Stage :=
  match lexeme.literal? with
  | some token => .ok (site.fill (.literal token))
  | none =>
    match lexeme.terminal with
    | .openBrace => .ok (.item (.object site lexeme.position []) .brace)
    | .openBracket => .ok (.element site lexeme.position [])
    | _ => .error expected

def closeList (outer : Site) (opening : Position) (before : List Node) (lexeme : Lexeme) : Stage :=
  outer.fill (.list opening lexeme.position before.reverse)

def stepSeparator (outer : Site) (opening : Position) (before : List Node) (lexeme : Lexeme) :
    Except Expected Stage :=
  match lexeme.terminal with
  | .comma => .ok (.element outer opening before)
  | .closeBracket => .ok (closeList outer opening before lexeme)
  | .ident | .string | .closeBrace => .error .separator
  | _ => .error .afterValue

def Stage.step (lexeme : Lexeme) : Stage → Except Expected Stage
  | .item body last => stepItem body last lexeme
  | .keys body key before => stepKeys body key before lexeme
  | .value site => stepValue site .value lexeme
  | .element outer opening before =>
    if lexeme.terminal = .closeBracket then .ok (closeList outer opening before lexeme)
    else stepValue (.element outer opening before) .element lexeme
  | .separator outer opening before => stepSeparator outer opening before lexeme

def Stage.finish : Stage → Except Expected (List Item)
  | .item (.document before) _ => .ok before.reverse
  | .item body _ => .error body.expected
  | .keys _ _ _ => .error .afterKey
  | .value _ => .error .value
  | .element _ _ _ => .error .element
  | .separator _ _ _ => .error .separator

inductive Fault
  | stray (character : Char)
  | unexpected (lexeme : Lexeme) (expected : Expected)
  | unfinished (expected : Expected)
  | unknownWord (word : String)
  | tooDeep
  | encoding (reason : String)
deriving DecidableEq, Repr

def maxLevels : Nat := 100

def Expected.text (expected : Expected) : String := " | ".intercalate (expected.map Symbol.name)

def Fault.message : Fault → String
  | stray character => "illegal character " ++ Text.quoted (String.singleton character)
  | unexpected lexeme expected =>
    "expected: " ++ expected.text ++ " got: " ++ lexeme.terminal.name ++ " " ++
      Text.quoted lexeme.text
  | unfinished expected => "unexpected end of input, expected: " ++ expected.text
  | unknownWord word => "Unknown token: IDENT " ++ word
  | tooDeep => "nesting exceeds " ++ toString maxLevels ++ " levels"
  | encoding reason => "invalid UTF-8 in source: " ++ reason

structure Error where
  fault : Fault
  position : Position
deriving DecidableEq, Repr

def Error.message (error : Error) : String := error.fault.message

def Stage.run : Stage → List Lexeme → Except Error Stage
  | stage, [] => .ok stage
  | stage, lexeme :: rest =>
    match stage.step lexeme with
    | .ok next => next.run rest
    | .error expected => .error ⟨.unexpected lexeme expected, lexeme.position⟩

def Stage.initial : Stage := .item (.document []) .nothing

def Scan.items (scan : Scan) : Except Error (List Item) :=
  match Stage.initial.run scan.lexemes with
  | .error error => .error error
  | .ok stage =>
    match scan.stray with
    | some character => .error ⟨.stray character, scan.final⟩
    | none =>
      match stage.finish with
      | .ok items => .ok items
      | .error expected => .error ⟨.unfinished expected, scan.final⟩

end ConfigIndex.Document
