import ConfigIndex.Data.Coerce
import ConfigIndex.Data.Plain
import ConfigIndex.Template.Read
import ConfigIndex.Yaml.Node
import ConfigIndex.Yaml.Scalar
import ConfigIndex.Yaml.Timestamp

/-!
The value of a YAML text. Texts with anchors, tags or block scalars are refused, and days and times
stay text.
-/

namespace ConfigIndex.Yaml

namespace Node

def isCompound : Node → Bool
  | scalar _ _ _ => false
  | _ => true

def scalarValue (text : String) : Style → Data
  | .plain => plainValue text
  | .quoted => .text text
  | .unpaired => .unpaired text

/-- The name of a field. A key that is no text goes by the text that shows it. -/
def keyText : Node → String
  | scalar text style _ => (scalarValue text style).display
  | _ => ""

mutual

def toData : Node → Data
  | scalar text style _ => scalarValue text style
  | list items _ => .list (itemsToData items)
  | mapping entries _ => .record (Data.Fields.ofList (entriesToData entries))

def itemsToData : List Node → List Data
  | [] => []
  | item :: rest => item.toData :: itemsToData rest

def entriesToData : List (Node × Node) → List (String × Data)
  | [] => []
  | (key, item) :: rest => (key.keyText, item.toData) :: entriesToData rest

end

/-- A fraction with more groups of sixty behind its first one is beyond all fractions. -/
def maxGroups : Nat := 173

/-- What the building of a scalar breaks off with: a whole number has no digits but underscores, or
too many in base ten; a fraction has too many groups; there is no such day or time. -/
def unbuilt? (text : String) (style : Style) : Option String :=
  let noDigits (base : Nat) (digits : List Char) : Option String :=
    if digits.all (· = '_') then
      some ("invalid literal for int() with base " ++ toString base ++ ": ''")
    else none
  match scalarValue text style, (signed text.toList).2 with
  | .int _, '0' :: 'b' :: digits => noDigits 2 digits
  | .int _, '0' :: 'x' :: digits => noDigits 16 digits
  | .int _, '0' :: _ => none
  | .int _, whole =>
    let count := ((whole.takeWhile isDigitOrBar).filter (· ≠ '_')).length
    if Data.maxIntDigits < count then some (Template.oversizedMessage count) else none
  | .float _, fraction =>
    if maxGroups < fraction.count ':' then some "int too large to convert to float" else none
  | .text _, _ =>
    if style = .plain then (Timestamp.ofText? text.toList).bind Timestamp.fault? else none
  | _, _ => none

def scalarBreach? : Node → Option Breach
  | scalar text style _ => (unbuilt? text style).map .brokenOff
  | _ => none

def entryBreach? (mapping : Mark) (key item : Node) : Option Breach :=
  if key.isCompound then some (.fault ⟨.keyNotSimple mapping, key.mark⟩)
  else key.scalarBreach?.or item.scalarBreach?

/-- What the building of a node breaks off with, before that of the collections in it. -/
def ownBreach? : Node → Option Breach
  | scalar text style mark => (scalar text style mark).scalarBreach?
  | list items _ => items.findSome? scalarBreach?
  | mapping entries mark => entries.findSome? fun (key, item) => entryBreach? mark key item

def parts : Node → List Node
  | scalar _ _ _ => []
  | list items _ => items
  | mapping entries _ => entries.map (·.2)

/-- Collections are built level by level, which are `depth` at most. -/
def breach? : Nat → List Node → Option Breach
  | 0, _ => none
  | depth + 1, nodes => (nodes.findSome? ownBreach?).or (breach? depth (nodes.flatMap parts))

def hasForeignKey : Node → Bool
  | mapping entries _ =>
    entries.any fun (key, _) =>
      match key with
      | scalar text style _ =>
        match scalarValue text style with
        | .text _ | .unpaired _ => false
        | _ => true
      | _ => true
  | _ => false

end Node

/-- Mappings that lead to one another, by number. Each has the keys under which it has another one,
with the number of that one; the first is the document itself. -/
abbrev Loops := List (List (String × Nat))

namespace Loops

def meet (left right : Loops) : Nat → Nat → Nat → Bool
  | 0, _, _ => true
  | steps + 1, here, there =>
    (left.getD here []).any fun (key, next) =>
      (right.getD there []).any fun (other, beyond) =>
        key == other && meet left right steps next beyond

end Loops

/-- A document read: its value, and whether all the keys at its top are text. What a reader makes of
aliases is in `loops`: the mappings, as far as some lead to themselves or deeper than the text. Such
a value is given as deep as settings go. -/
structure Document where
  value : Data
  isNamed : Bool
  loops : Loops := []

def read (levels : Nat) (text : List Char) : Except Breach Document :=
  match Node.ofText levels text with
  | .error breach => .error breach
  | .ok none => .ok { value := .null, isNamed := true }
  | .ok (some node) =>
    match Node.breach? (levels + 1) [node] with
    | some breach => .error breach
    | none => .ok { value := node.toData, isNamed := !node.hasForeignKey }

end ConfigIndex.Yaml
