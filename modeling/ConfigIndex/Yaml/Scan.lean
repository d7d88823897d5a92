import ConfigIndex.Data.Value
import ConfigIndex.Yaml.Fault

/-!
The tokens of a YAML text. Indentation opens and closes blocks, and a scalar or collection that a
colon turns out to follow on its line is marked as a key afterwards.
-/

namespace ConfigIndex.Yaml

/-- How a scalar is written: without quotes, in quotes, or in quotes with half of a pair of code
units alone somewhere. -/
inductive Style
  | plain
  | quoted
  | unpaired
deriving DecidableEq, Repr

inductive TokenKind
  | streamEnd
  | documentStart
  | documentEnd
  | listStart
  | mappingStart
  | blockEnd
  | openBracket
  | openBrace
  | closeBracket
  | closeBrace
  | key
  | value
  | entry
  | comma
  | scalar (text : String) (style : Style)
deriving DecidableEq, Repr

def TokenKind.name : TokenKind → String
  | streamEnd => "<stream end>"
  | documentStart => "<document start>"
  | documentEnd => "<document end>"
  | listStart => "<block sequence start>"
  | mappingStart => "<block mapping start>"
  | blockEnd => "<block end>"
  | openBracket => "["
  | openBrace => "\x7b"
  | closeBracket => "]"
  | closeBrace => "\x7d"
  | key => "?"
  | value => ":"
  | entry => "-"
  | comma => ","
  | scalar _ _ => "<scalar>"

structure Token where
  kind : TokenKind
  mark : Mark
deriving DecidableEq, Repr

structure Cursor where
  rest : List Char
  mark : Mark := {}

namespace Cursor

def peek (cursor : Cursor) (ahead : Nat) : Char := (cursor.rest.drop ahead).head?.getD '\x00'

def skip (cursor : Cursor) : Nat → Cursor
  | 0 => cursor
  | count + 1 =>
    match cursor.rest with
    | [] => cursor
    | c :: rest => skip ⟨rest, cursor.mark.advance c⟩ count

def skipWhile (cursor : Cursor) (drops : Char → Bool) : Cursor :=
  cursor.skip (cursor.rest.takeWhile drops).length

end Cursor

def isGap (c : Char) : Bool := c = ' ' || c = '\t' || c = '\x00' || isBreak c

def isFlowMark (c : Char) : Bool := c = ',' || c = '[' || c = ']' || c = '{' || c = '}'

def breakText (c : Char) : Char := if c = '\n' || c.toNat = 0x85 then '\n' else c

def isSeparator (mark : Char) (cursor : Cursor) : Bool :=
  cursor.peek 0 = mark && cursor.peek 1 = mark && cursor.peek 2 = mark && isGap (cursor.peek 3)

def isAnySeparator (cursor : Cursor) : Bool := isSeparator '-' cursor || isSeparator '.' cursor

/-! ## Scalars without quotes -/

/-- The word at the start of a text. A colon ends it only in front of a gap, and in a flow
collection also in front of its marks. -/
def plainWord (inFlow : Bool) : List Char → List Char
  | [] => []
  | c :: rest =>
    let next := rest.head?.getD '\x00'
    if isGap c || (c = ':' && (isGap next || (inFlow && isFlowMark next))) ||
        (inFlow && (isFlowMark c || c = '?')) then []
    else c :: plainWord inFlow rest

/-- Skips the ends of lines and the blanks before the next word. The ends of lines are given
back; nothing if a document separator follows one of them. -/
def lineGap (fuel : Nat) (breaks : List Char) (cursor : Cursor) : Option (List Char) × Cursor :=
  match fuel with
  | 0 => (some breaks, cursor)
  | fuel + 1 =>
    let c := cursor.peek 0
    if c = ' ' then lineGap fuel breaks (cursor.skip 1)
    else if isBreak c then
      let next := cursor.skip 1
      if isAnySeparator next then (none, next)
      else lineGap fuel (breaks ++ [breakText c]) next
    else (some breaks, cursor)

def folded (first : Char) (breaks : List Char) : List Char :=
  if first ≠ '\n' then first :: breaks else if breaks.isEmpty then [' '] else breaks

def plainGap (cursor : Cursor) : Option (List Char) × Bool × Cursor :=
  let next := cursor.skipWhile (· = ' ')
  let blanks := cursor.rest.takeWhile (· = ' ')
  let c := next.peek 0
  if isBreak c then
    let behind := next.skip 1
    if isAnySeparator behind then (none, true, behind)
    else match lineGap behind.rest.length [] behind with
      | (none, cursor) => (none, true, cursor)
      | (some breaks, cursor) => (some (folded (breakText c) breaks), true, cursor)
  else (if blanks.isEmpty then none else some blanks, false, next)

/-- Reads the words of a scalar behind `seen` and the gap `gap`. A line that is indented less than
`indent` does not belong to it, and neither does a comment. -/
def plainScalar (fuel : Nat) (inFlow : Bool) (indent : Int) (seen gap : List Char)
    (brokeLine : Bool) (cursor : Cursor) : List Char × Bool × Cursor :=
  match fuel with
  | 0 => (seen, brokeLine, cursor)
  | fuel + 1 =>
    let word := if cursor.peek 0 = '#' then [] else plainWord inFlow cursor.rest
    if word.isEmpty then (seen, brokeLine, cursor)
    else
      let seen := seen ++ gap ++ word
      match plainGap (cursor.skip word.length) with
      | (none, broke, next) => (seen, broke, next)
      | (some gap, broke, next) =>
        if next.peek 0 = '#' || (!inFlow && (next.mark.column : Int) < indent) then
          (seen, broke, next)
        else plainScalar fuel inFlow indent seen gap broke next

/-! ## Scalars in quotes -/

def escaped? (c : Char) : Option Char :=
  match c with
  | '0' => some '\x00'
  | 'a' => some '\x07'
  | 'b' => some '\x08'
  | 't' => some '\t'
  | '\t' => some '\t'
  | 'n' => some '\n'
  | 'v' => some '\x0b'
  | 'f' => some '\x0c'
  | 'r' => some '\r'
  | 'e' => some '\x1b'
  | ' ' => some ' '
  | '"' => some '"'
  | '\\' => some '\\'
  | '/' => some '/'
  | 'N' => some (Char.ofNat 0x85)
  | '_' => some (Char.ofNat 0xa0)
  | 'L' => some (Char.ofNat 0x2028)
  | 'P' => some (Char.ofNat 0x2029)
  | _ => none

def escapeDigits? (c : Char) : Option Nat :=
  match c with
  | 'x' => some 2
  | 'u' => some 4
  | 'U' => some 8
  | _ => none

def hexDigit? (c : Char) : Option Nat :=
  if c.isDigit then some (c.toNat - 48)
  else if 'a' ≤ c && c ≤ 'f' then some (c.toNat - 87)
  else if 'A' ≤ c && c ≤ 'F' then some (c.toNat - 55)
  else none

def hexValue (cursor : Cursor) (digits value : Nat) : Except Char Nat :=
  match digits with
  | 0 => .ok value
  | digits + 1 =>
    match hexDigit? (cursor.peek 0) with
    | none => .error (cursor.peek 0)
    | some digit => hexValue (cursor.skip 1) digits (value * 16 + digit)

def quotedBreaks (fuel : Nat) (quote : Mark) (breaks : List Char) (cursor : Cursor) :
    Except Fault (List Char × Cursor) :=
  match fuel with
  | 0 => .ok (breaks, cursor)
  | fuel + 1 =>
    if isAnySeparator cursor then .error ⟨.separatorInQuote quote, cursor.mark⟩
    else
      let next := cursor.skipWhile fun c => c = ' ' || c = '\t'
      if isBreak (next.peek 0) then
        quotedBreaks fuel quote (breaks ++ [breakText (next.peek 0)]) (next.skip 1)
      else .ok (breaks, next)

def quotedScalar (fuel : Nat) (mark : Char) (quote : Mark) (seen : List (Option Char))
    (cursor : Cursor) : Except Fault (List (Option Char) × Cursor) :=
  match fuel with
  | 0 => .error ⟨.quoteNotClosed quote, cursor.mark⟩
  | fuel + 1 =>
    let c := cursor.peek 0
    let next := cursor.skip 1
    if c = mark then
      if mark = '\'' && next.peek 0 = mark then
        quotedScalar fuel mark quote (some mark :: seen) (next.skip 1)
      else .ok (seen.reverse, next)
    else if isGap c then
      let blanks := cursor.rest.takeWhile fun c => c = ' ' || c = '\t'
      let behind := cursor.skip blanks.length
      let first := behind.peek 0
      if behind.rest.isEmpty then .error ⟨.quoteNotClosed quote, behind.mark⟩
      else if isBreak first then
        match quotedBreaks behind.rest.length quote [] (behind.skip 1) with
        | .error fault => .error fault
        | .ok (breaks, cursor) =>
          let meant := (folded (breakText first) breaks).reverse.map some
          quotedScalar fuel mark quote (meant ++ seen) cursor
      else quotedScalar fuel mark quote (blanks.reverse.map some ++ seen) behind
    else if mark = '"' && c = '\\' then
      let letter := next.peek 0
      let behind := next.skip 1
      match escaped? letter, escapeDigits? letter with
      | some meant, _ => quotedScalar fuel mark quote (some meant :: seen) behind
      | none, some digits =>
        match hexValue behind digits 0 with
        | .error other => .error ⟨.shortEscape quote digits other, behind.mark⟩
        | .ok value =>
          if 0x110000 ≤ value then .error ⟨.noCharacter value, behind.mark⟩
          else
            -- No character: half of a pair of code units.
            let meant := if value.isValidChar then some (Char.ofNat value) else none
            quotedScalar fuel mark quote (meant :: seen) (behind.skip digits)
      | none, none =>
        if isBreak letter then
          match quotedBreaks behind.rest.length quote [] behind with
          | .error fault => .error fault
          | .ok (breaks, cursor) =>
            quotedScalar fuel mark quote (breaks.reverse.map some ++ seen) cursor
        else .error ⟨.unknownEscape quote letter, next.mark⟩
    else quotedScalar fuel mark quote (some c :: seen) next

/-! ## Tokens -/

structure PossibleKey where
  /-- How many flow collections are open around it. -/
  flow : Nat
  /-- How many tokens stand before it. -/
  place : Nat
  /-- Whether nothing but a key may stand there. -/
  isRequired : Bool
  mark : Mark

structure State where
  cursor : Cursor
  /-- Last first. -/
  tokens : List Token := []
  flow : Nat := 0
  indent : Int := -1
  /-- The indents of the blocks around the present one, innermost first. -/
  outer : List Int := []
  keyAllowed : Bool := true
  keys : List PossibleKey := []

namespace State

def add (state : State) (kind : TokenKind) : State :=
  { state with tokens := ⟨kind, state.cursor.mark⟩ :: state.tokens }

def insert (state : State) (place : Nat) (token : Token) : State :=
  let behind := state.tokens.length - place
  { state with tokens := state.tokens.take behind ++ token :: state.tokens.drop behind }

def skip (state : State) (count : Nat) : State :=
  { state with cursor := state.cursor.skip count }

/-- Forgets tokens that are no keys after all, since their line has ended or they are too long. -/
def dropStale (state : State) : Except Fault State :=
  let isStale (key : PossibleKey) : Bool :=
    key.mark.line ≠ state.cursor.mark.line || key.mark.index + 1024 < state.cursor.mark.index
  match state.keys.find? fun key => isStale key && key.isRequired with
  | some key => .error ⟨.keyWithoutColon key.mark, state.cursor.mark⟩
  | none => .ok { state with keys := state.keys.filter fun key => !isStale key }

def possibleKey? (state : State) : Option PossibleKey :=
  state.keys.find? fun key => key.flow = state.flow

def dropKey (state : State) : Except Fault State :=
  match state.possibleKey? with
  | none => .ok state
  | some key =>
    if key.isRequired then .error ⟨.keyWithoutColon key.mark, state.cursor.mark⟩
    else .ok { state with keys := state.keys.filter fun key => key.flow ≠ state.flow }

def saveKey (state : State) : Except Fault State :=
  if !state.keyAllowed then .ok state
  else
    let isRequired := state.flow = 0 && state.indent = state.cursor.mark.column
    match state.dropKey with
    | .error fault => .error fault
    | .ok state =>
      .ok { state with
        keys := ⟨state.flow, state.tokens.length, isRequired, state.cursor.mark⟩ :: state.keys }

def closeBlocks (state : State) (column : Int) : State :=
  let closed := (state.indent :: state.outer).takeWhile fun indent => column < indent
  let left := (state.indent :: state.outer).drop closed.length
  let ends := closed.map fun _ => (⟨.blockEnd, state.cursor.mark⟩ : Token)
  { state with
    tokens := ends ++ state.tokens, indent := left.head?.getD (-1), outer := left.drop 1 }

def openBlock (state : State) (column : Nat) : State × Bool :=
  if state.indent < column then
    ({ state with indent := column, outer := state.indent :: state.outer }, true)
  else (state, false)

def skipBlanks (fuel : Nat) (state : State) : State :=
  match fuel with
  | 0 => state
  | fuel + 1 =>
    let cursor := state.cursor.skipWhile (· = ' ')
    let cursor := if cursor.peek 0 = '#' then cursor.skipWhile (!isBreak ·) else cursor
    if isBreak (cursor.peek 0) then
      skipBlanks fuel { state with
        cursor := cursor.skip 1, keyAllowed := state.keyAllowed || state.flow = 0 }
    else { state with cursor := cursor }

def addSeparator (state : State) (kind : TokenKind) : Except Fault State := do
  let state ← (state.closeBlocks (-1)).dropKey
  return { (state.add kind).skip 3 with keyAllowed := false }

def addOpening (state : State) (kind : TokenKind) : Except Fault State := do
  let state ← state.saveKey
  return { (state.add kind).skip 1 with flow := state.flow + 1, keyAllowed := true }

def addClosing (state : State) (kind : TokenKind) : Except Fault State := do
  let state ← state.dropKey
  return { (state.add kind).skip 1 with flow := state.flow - 1, keyAllowed := false }

def addComma (state : State) : Except Fault State := do
  let state ← ({ state with keyAllowed := true } : State).dropKey
  return (state.add .comma).skip 1

def addIndicator (state : State) (kind opening : TokenKind) (problem : Problem)
    (keyAllowed : Bool) : Except Fault State :=
  let column := state.cursor.mark.column
  if state.flow = 0 && !state.keyAllowed then .error ⟨problem, state.cursor.mark⟩
  else
    let (opened, isNew) := if state.flow = 0 then state.openBlock column else (state, false)
    let opened := if isNew then opened.add opening else opened
    do
      let state ← ({ opened with keyAllowed := keyAllowed } : State).dropKey
      return (state.add kind).skip 1

def addColon (state : State) : Except Fault State :=
  match state.possibleKey? with
  | some key =>
    let state := { state with keys := state.keys.filter fun key => key.flow ≠ state.flow }
    let state := state.insert key.place ⟨.key, key.mark⟩
    let (opened, isNew) :=
      if state.flow = 0 then state.openBlock key.mark.column else (state, false)
    let state := if isNew then opened.insert key.place ⟨.mappingStart, key.mark⟩ else opened
    .ok ({ state with keyAllowed := false }.add .value |>.skip 1)
  | none => state.addIndicator .value .mappingStart .valueNotAllowed (state.flow = 0)

def addQuoted (state : State) (mark : Char) : Except Fault State := do
  let state ← state.saveKey
  let start := state.cursor
  let (text, cursor) ← quotedScalar start.rest.length mark start.mark [] (start.skip 1)
  let style : Style := if text.contains none then .unpaired else .quoted
  return { state.add (.scalar (String.ofList (text.map (·.getD Data.standIn))) style) with
    cursor := cursor, keyAllowed := false }

def addPlain (state : State) : Except Fault State := do
  let state ← state.saveKey
  let start := state.cursor
  let (text, brokeLine, cursor) :=
    plainScalar start.rest.length (state.flow ≠ 0) (state.indent + 1) [] [] false start
  return { state.add (.scalar (String.ofList text) .plain) with
    cursor := cursor, keyAllowed := brokeLine }

def startsPlain (state : State) : Bool :=
  let c := state.cursor.peek 0
  let special := "-?:,[]\x7b\x7d#&*!|>'\"%@\x60".toList.contains c
  (!isGap c && !special) ||
    (!isGap (state.cursor.peek 1) && (c = '-' || (state.flow = 0 && (c = '?' || c = ':'))))

def addToken (state : State) : Except Fault State :=
  let cursor := state.cursor
  let c := cursor.peek 0
  let spaced := isGap (cursor.peek 1)
  if cursor.mark.column = 0 && isSeparator '-' cursor then state.addSeparator .documentStart
  else if cursor.mark.column = 0 && isSeparator '.' cursor then state.addSeparator .documentEnd
  else if c = '[' then state.addOpening .openBracket
  else if c = '{' then state.addOpening .openBrace
  else if c = ']' then state.addClosing .closeBracket
  else if c = '}' then state.addClosing .closeBrace
  else if c = ',' then state.addComma
  else if c = '-' && spaced then state.addIndicator .entry .listStart .entryNotAllowed true
  else if c = '?' && (state.flow ≠ 0 || spaced) then
    state.addIndicator .key .mappingStart .keyNotAllowed (state.flow = 0)
  else if c = ':' && (state.flow ≠ 0 || spaced) then state.addColon
  else if c = '\'' || c = '"' then state.addQuoted c
  else if state.startsPlain then state.addPlain
  else if "&*!".toList.contains c || ("|>".toList.contains c && state.flow = 0) ||
      (c = '%' && cursor.mark.column = 0) then .error ⟨.beyondSettings c, cursor.mark⟩
  else .error ⟨.cannotStartToken c, cursor.mark⟩

def finish (state : State) : Except Fault State := do
  let state ← (state.closeBlocks (-1)).dropKey
  return state.add .streamEnd

end State

structure Tokens where
  tokens : List Token
  fault : Option Fault

/-- The tokens that are certain when a fault is found: those before the first one that may still
become a key. -/
def State.certain (state : State) : List Token :=
  match (state.keys.map PossibleKey.place).min? with
  | none => state.tokens.reverse
  | some place => state.tokens.reverse.take place

/-- Reads tokens behind those of a state. Each round takes a character or is the last. -/
def scanFrom (fuel : Nat) (state : State) : Tokens :=
  match fuel with
  | 0 => ⟨state.tokens.reverse, none⟩
  | fuel + 1 =>
    match state.dropStale with
    | .error fault => ⟨state.certain, some fault⟩
    | .ok settled =>
      let ahead := settled.skipBlanks (settled.cursor.rest.length + 1)
      match ahead.dropStale with
      | .error fault => ⟨settled.certain, some fault⟩
      | .ok ready =>
        let ready :=
          if ready.flow = 0 then ready.closeBlocks ready.cursor.mark.column else ready
        if ready.cursor.rest.isEmpty then
          match ready.finish with
          | .error fault => ⟨settled.certain, some fault⟩
          | .ok state => ⟨state.tokens.reverse, none⟩
        else match ready.addToken with
          | .error fault => ⟨settled.certain, some fault⟩
          | .ok state => scanFrom fuel state

def isAllowed (c : Char) : Bool :=
  let code := c.toNat
  code = 9 || code = 10 || code = 13 || (0x20 ≤ code && code ≤ 0x7e) || code = 0x85 ||
    (0xa0 ≤ code && code ≤ 0xfffd) || 0x10000 ≤ code

def strangeCharacter? (index : Nat) : List Char → Option Fault
  | [] => none
  | c :: rest =>
    if isAllowed c then strangeCharacter? (index + 1) rest
    else some ⟨.strangeCharacter c, { index := index }⟩

def scan (text : List Char) : Tokens :=
  match strangeCharacter? 0 text with
  | some fault => ⟨[], some fault⟩
  | none =>
    let start : Cursor := { rest := text }
    let start := if (start.peek 0).toNat = 0xfeff then start.skip 1 else start
    scanFrom (text.length + 1) { cursor := start }

end ConfigIndex.Yaml
