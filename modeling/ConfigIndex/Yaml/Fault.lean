import ConfigIndex.Text.Quoted

/-!
What can be wrong with a settings file as YAML, where it is, and how that is reported: a sentence
on what was being read, a sentence on what is wrong, and the line with a pointer under the place.
-/

namespace ConfigIndex.Yaml

structure Mark where
  index : Nat := 0
  line : Nat := 0
  column : Nat := 0
deriving DecidableEq, Repr, Inhabited

def isBreak (c : Char) : Bool :=
  c = '\n' || c.toNat = 0x85 || c.toNat = 0x2028 || c.toNat = 0x2029

def Mark.advance (mark : Mark) (c : Char) : Mark :=
  if isBreak c then ⟨mark.index + 1, mark.line + 1, 0⟩
  else if c.toNat = 0xfeff then ⟨mark.index + 1, mark.line, mark.column⟩
  else ⟨mark.index + 1, mark.line, mark.column + 1⟩

inductive Problem
  | strangeCharacter (c : Char)
  | cannotStartToken (c : Char)
  | keyWithoutColon (key : Mark)
  | entryNotAllowed
  | keyNotAllowed
  | valueNotAllowed
  | quoteNotClosed (quote : Mark)
  | separatorInQuote (quote : Mark)
  | unknownEscape (quote : Mark) (c : Char)
  | shortEscape (quote : Mark) (digits : Nat) (c : Char)
  | noCharacter (code : Nat)
  | contentMissing (isBlock : Bool) (found : String)
  | blockListNotEnded (start : Mark) (found : String)
  | blockMappingNotEnded (start : Mark) (found : String)
  | flowListNotEnded (start : Mark) (found : String)
  | flowMappingNotEnded (start : Mark) (found : String)
  | documentNotStarted (found : String)
  | secondDocument (first : Mark)
  | keyNotSimple (mapping : Mark)
  | beyondSettings (c : Char)
deriving DecidableEq, Repr

namespace Problem

def context : Problem → Option (String × Option Mark)
  | cannotStartToken _ => some ("while scanning for the next token", none)
  | keyWithoutColon key => some ("while scanning a simple key", some key)
  | quoteNotClosed quote => some ("while scanning a quoted scalar", some quote)
  | separatorInQuote quote => some ("while scanning a quoted scalar", some quote)
  | unknownEscape quote _ => some ("while scanning a double-quoted scalar", some quote)
  | shortEscape quote _ _ => some ("while scanning a double-quoted scalar", some quote)
  | contentMissing true _ => some ("while parsing a block node", none)
  | contentMissing false _ => some ("while parsing a flow node", none)
  | blockListNotEnded start _ => some ("while parsing a block collection", some start)
  | blockMappingNotEnded start _ => some ("while parsing a block mapping", some start)
  | flowListNotEnded start _ => some ("while parsing a flow sequence", some start)
  | flowMappingNotEnded start _ => some ("while parsing a flow mapping", some start)
  | secondDocument first => some ("expected a single document in the stream", some first)
  | keyNotSimple mapping => some ("while constructing a mapping", some mapping)
  | _ => none

def text : Problem → String
  | strangeCharacter c =>
    "unacceptable character #x" ++
      String.ofList (Text.hex 4 c.toNat) ++
      ": special characters are not allowed"
  | cannotStartToken c =>
    "found character " ++ Text.quoted (String.singleton c) ++ " that cannot start any token"
  | keyWithoutColon _ => "could not find expected ':'"
  | entryNotAllowed => "sequence entries are not allowed here"
  | keyNotAllowed => "mapping keys are not allowed here"
  | valueNotAllowed => "mapping values are not allowed here"
  | quoteNotClosed _ => "found unexpected end of stream"
  | separatorInQuote _ => "found unexpected document separator"
  | unknownEscape _ c => "found unknown escape character " ++ Text.quoted (String.singleton c)
  | shortEscape _ digits c =>
    "expected escape sequence of " ++ toString digits ++ " hexadecimal numbers, but found " ++
      Text.quoted (String.singleton c)
  | noCharacter _ => "chr() arg not in range(0x110000)"
  | contentMissing _ found => "expected the node content, but found " ++ Text.quoted found
  | blockListNotEnded _ found => "expected <block end>, but found " ++ Text.quoted found
  | blockMappingNotEnded _ found => "expected <block end>, but found " ++ Text.quoted found
  | flowListNotEnded _ found => "expected ',' or ']', but got " ++ Text.quoted found
  | flowMappingNotEnded _ found => "expected ',' or '\x7d', but got " ++ Text.quoted found
  | documentNotStarted found => "expected '<document start>', but found " ++ Text.quoted found
  | secondDocument _ => "but found another document"
  | keyNotSimple _ => "found unhashable key"
  | beyondSettings c =>
    "found " ++ Text.quoted (String.singleton c) ++ ", which settings files do not use"

def crash? (problem : Problem) : Option String :=
  match problem with
  | noCharacter _ => some problem.text
  | _ => none

end Problem

structure Fault where
  problem : Problem
  mark : Mark
deriving DecidableEq, Repr

def reach : Nat := 37

def kept : Nat := 32

def snippet (text : List Char) (mark : Mark) : String :=
  let before := ((text.take mark.index).reverse.takeWhile fun c => !isBreak c).reverse
  let after := (text.drop mark.index).takeWhile fun c => !isBreak c
  let (head, before) :=
    if reach ≤ before.length then (" ... ", before.drop (before.length - kept)) else ("", before)
  let (tail, after) := if reach ≤ after.length then (" ... ", after.take kept) else ("", after)
  let margin := "    " ++ head
  margin ++ String.ofList (before ++ after) ++ tail ++ "\n" ++
    String.ofList (List.replicate (margin.length + before.length) ' ') ++ "^"

def Mark.describe (text : List Char) (mark : Mark) : String :=
  "  in \"<unicode string>\", line " ++ toString (mark.line + 1) ++ ", column " ++
    toString (mark.column + 1) ++ ":\n" ++ snippet text mark

/-- The report of a fault in a text. The place where reading began is left out if it is the place
of the fault. -/
def Fault.message (text : List Char) (fault : Fault) : String :=
  match fault.problem with
  | .strangeCharacter _ =>
    fault.problem.text ++ "\n  in \"<unicode string>\", position " ++ toString fault.mark.index
  | problem =>
    let context := match problem.context with
      | none => []
      | some (sentence, none) => [sentence]
      | some (sentence, some start) =>
        if start.line = fault.mark.line && start.column = fault.mark.column then [sentence]
        else [sentence, start.describe text]
    "\n".intercalate (context ++ [problem.text, fault.mark.describe text])

end ConfigIndex.Yaml
