import ConfigIndex.Data.Value
import ConfigIndex.Number.Shortest
import ConfigIndex.Text.Quoted

/-!
Writing a value as JSON. A style fixes what is escaped, where blanks stand and whether the text is
broken into lines.
-/

namespace ConfigIndex.Data

structure JsonStyle where
  asciiOnly : Bool
  /-- What follows a comma when all stands on one line. -/
  itemGap : List Char
  keyGap : List Char
  /-- Blanks per level, or all on one line. -/
  indent : Option Nat
  floats : Binary64.Layout
  /-- Whether infinities and the not-a-number have names, or become `null`. -/
  namesAllFloats : Bool

def JsonStyle.compact : JsonStyle :=
  ⟨false, [], [], none, Binary64.indexLayout, false⟩

def JsonStyle.pretty (indent : Nat) : JsonStyle :=
  ⟨false, [], [' '], some indent, Binary64.indexLayout, false⟩

def JsonStyle.line : JsonStyle :=
  ⟨true, [' '], [' '], none, Binary64.messageLayout, true⟩

def JsonStyle.dump : JsonStyle :=
  ⟨true, [], [' '], some 2, Binary64.messageLayout, true⟩

def jsonNumberEscape (code : Nat) : List Char :=
  if code < 0x10000 then '\\' :: 'u' :: Text.hex 4 code
  else
    let rest := code - 0x10000
    '\\' :: 'u' :: Text.hex 4 (0xd800 + rest / 0x400) ++
      '\\' :: 'u' :: Text.hex 4 (0xdc00 + rest % 0x400)

def jsonChar (asciiOnly : Bool) (c : Char) : List Char :=
  if c = '"' || c = '\\' then ['\\', c]
  else if c = '\n' then ['\\', 'n']
  else if c = '\r' then ['\\', 'r']
  else if c = '\t' then ['\\', 't']
  else if c = '\x08' then ['\\', 'b']
  else if c = '\x0c' then ['\\', 'f']
  else if c.toNat < 0x20 || (asciiOnly && 0x7f ≤ c.toNat) then jsonNumberEscape c.toNat
  else [c]

def jsonText (asciiOnly : Bool) (text : List Char) : List Char :=
  '"' :: text.flatMap (jsonChar asciiOnly) ++ ['"']

def jsonFloat (style : JsonStyle) (x : Binary64) : List Char :=
  if x.isFinite then (x.render style.floats).toList
  else if !style.namesAllFloats then ['n', 'u', 'l', 'l']
  else if x.isNan then "NaN".toList
  else if x.isNegative then "-Infinity".toList
  else "Infinity".toList

def jsonBreak (style : JsonStyle) (level : Nat) (flat : List Char) : List Char :=
  match style.indent with
  | none => flat
  | some indent => '\n' :: List.replicate (indent * level) ' '

mutual

def json (style : JsonStyle) (level : Nat) : Data → List Char
  | .null => ['n', 'u', 'l', 'l']
  | .bool true => ['t', 'r', 'u', 'e']
  | .bool false => ['f', 'a', 'l', 's', 'e']
  | .int value => (toString value).toList
  | .float value => jsonFloat style value
  | .text value | .unpaired value => jsonText style.asciiOnly value.toList
  | .list [] => ['[', ']']
  | .list (item :: rest) =>
    '[' :: jsonBreak style level [] ++ item.json style (level + 1) ++
      jsonItems style level rest ++ jsonBreak style (level - 1) [] ++ [']']
  | .record [] => ['{', '}']
  | .record ((key, value) :: rest) =>
    '{' :: jsonBreak style level [] ++ jsonText style.asciiOnly key.toList ++
      ':' :: style.keyGap ++ value.json style (level + 1) ++
      jsonFields style level rest ++ jsonBreak style (level - 1) [] ++ ['}']

def jsonItems (style : JsonStyle) (level : Nat) : List Data → List Char
  | [] => []
  | item :: rest =>
    ',' :: jsonBreak style level style.itemGap ++ item.json style (level + 1) ++
      jsonItems style level rest

def jsonFields (style : JsonStyle) (level : Nat) : List (String × Data) → List Char
  | [] => []
  | (key, value) :: rest =>
    ',' :: jsonBreak style level style.itemGap ++ jsonText style.asciiOnly key.toList ++
      ':' :: style.keyGap ++ value.json style (level + 1) ++ jsonFields style level rest

end

def toJson (style : JsonStyle) (value : Data) : String := String.ofList (value.json style 1)

end ConfigIndex.Data
