import ConfigIndex.Report
import ConfigIndex.Template.Parser

/-!
Reading a template: expressions become trees of values, names and operations, and text is freed
from its escapes.
-/

namespace ConfigIndex.Template

/-- A `$$` before a brace stands for a dollar sign. Reads behind the characters `seen`, last
first. -/
def revealFrom (seen : List Char) : List Char → List Char
  | '$' :: '$' :: '{' :: rest => revealFrom ('{' :: '$' :: seen) rest
  | c :: rest => revealFrom (c :: seen) rest
  | [] => seen.reverse

def reveal (text : List Char) : List Char := revealFrom [] text

def escaped? (c : Char) : Option Char :=
  match c with
  | 'n' => some '\n'
  | 't' => some '\t'
  | 'r' => some '\r'
  | '"' => some '"'
  | '\\' => some '\\'
  | _ => none

def unescapeFrom (seen : List Char) : List Char → List Char
  | '\\' :: c :: rest =>
    match escaped? c with
    | some meant => unescapeFrom (meant :: seen) rest
    | none => unescapeFrom (c :: '\\' :: seen) rest
  | c :: rest => unescapeFrom (c :: seen) rest
  | [] => seen.reverse

def unescape (text : List Char) : List Char := unescapeFrom [] text

inductive Failure
  | faulty (error : Error)
  /-- A whole number with more digits than are read. -/
  | oversized (digits : Nat)
deriving DecidableEq, Repr

def maxDigits : Nat := 4300

def isFloatText (text : List Char) : Bool := text.any fun c => c = '.' || c = 'e' || c = 'E'

def floatValue (text : List Char) : Binary64 :=
  let whole := text.takeWhile Text.isDecimal
  let rest := text.drop whole.length
  let fraction := (Text.fraction rest).drop 1
  let power := (rest.dropWhile fun c => c ≠ 'e' && c ≠ 'E').drop 1
  let digits : Int := Text.decimalValue (power.filter Text.isDecimal)
  let exponent := if power.head? = some '-' then -digits else digits
  .ofDecimal false (Text.decimalValue (whole ++ fraction)) (exponent - fraction.length)

def numberNode (text : List Char) (point : Point) : Except Failure Node :=
  if isFloatText text then .ok (.literal (.float (floatValue text)) point)
  else if maxDigits < text.length then .error (.oversized text.length)
  else .ok (.literal (.int (Text.decimalValue text)) point)

def nameNode (name : String) (point : Point) : Node :=
  if name == "true" then .literal (.bool true) point
  else if name == "false" then .literal (.bool false) point
  else .access name point

/-- A string with a literal as its only part is that literal. -/
def quotedNode (parts : List Node) (point : Point) : Node :=
  match parts with
  | [part] => if part.isLiteral then part else .output parts point
  | _ => .output parts point

def Expr.point : Expr → Point
  | .number _ point => point
  | .name _ point => point
  | .call _ point _ => point
  | .index _ point _ => point
  | .unary _ point _ => point
  | .binary _ start _ _ => start
  | .conditional start _ _ _ => start
  | .quoted point _ => point

mutual

def Expr.node (level : Nat) (expr : Expr) : Except Failure Node :=
  if maxLevels < level then .error (.faulty ⟨.tooDeep, expr.point⟩)
  else match expr with
    | .number text point => numberNode text.toList point
    | .name text point => .ok (nameNode text point)
    | .call name point arguments =>
      match Expr.nodes (level + 1) arguments with
      | .error failure => .error failure
      | .ok arguments => .ok (.call name arguments point)
    | .index name point key =>
      match key.node (level + 1) with
      | .error failure => .error failure
      | .ok key => .ok (.index (.access name point) key point)
    | .unary operator point operand =>
      match operand.node (level + 1) with
      | .error failure => .error failure
      | .ok operand => .ok (.arithmetic operator [operand] point)
    | .binary operator start left right =>
      match left.node (level + 1) with
      | .error failure => .error failure
      | .ok left =>
        match right.node (level + 1) with
        | .error failure => .error failure
        | .ok right => .ok (.arithmetic operator [left, right] start)
    | .conditional start condition yes no =>
      match condition.node (level + 1) with
      | .error failure => .error failure
      | .ok condition =>
        match yes.node (level + 1) with
        | .error failure => .error failure
        | .ok yes =>
          match no.node (level + 1) with
          | .error failure => .error failure
          | .ok no => .ok (.conditional condition yes no start)
    | .quoted point parts =>
      match Part.nodes unescape (level + 1) parts with
      | .error failure => .error failure
      | .ok parts => .ok (quotedNode parts point)

def Expr.nodes (level : Nat) : List Expr → Except Failure (List Node)
  | [] => .ok []
  | expr :: rest =>
    match expr.node level with
    | .error failure => .error failure
    | .ok node =>
      match Expr.nodes level rest with
      | .error failure => .error failure
      | .ok nodes => .ok (node :: nodes)

def Part.nodes (free : List Char → List Char) (level : Nat) :
    List Part → Except Failure (List Node)
  | [] => .ok []
  | .text text point :: rest =>
    match Part.nodes free level rest with
    | .error failure => .error failure
    | .ok nodes =>
      .ok (.literal (.text (String.ofList (free (reveal text.toList)))) point :: nodes)
  | .expr expr :: rest =>
    match expr.node level with
    | .error failure => .error failure
    | .ok node =>
      match Part.nodes free level rest with
      | .error failure => .error failure
      | .ok nodes => .ok (node :: nodes)

end

def parseChars (basis : Point) (text : List Char) : Except Failure Node :=
  match (scan basis text).parts with
  | .error error => .error (.faulty error)
  | .ok parts =>
    match Part.nodes id 1 parts with
    | .error failure => .error failure
    | .ok nodes => .ok (.output nodes basis)

def parseAt (basis : Point) (text : String) : Except Failure Node := parseChars basis text.toList

def parse (text : String) : Except Failure Node := parseAt .start text

def Error.report (error : Error) : Report := .templateFaulty error.message error.point

def oversizedMessage (digits : Nat) : String :=
  "Exceeds the limit (" ++ toString maxDigits ++
    " digits) for integer string conversion: value has " ++
    toString digits ++ " digits; use sys.set_int_max_str_digits() to increase the limit"

end ConfigIndex.Template
