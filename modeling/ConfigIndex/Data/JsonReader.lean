import ConfigIndex.Data.Value
import ConfigIndex.Text.Digit

/-!
Reading JSON. Every reader takes the characters ahead and gives what it read with the characters
left, or nothing if the text is not JSON. Lists and records nest to a given depth at most, and the
digits of a whole number are limited.
-/

namespace ConfigIndex.Data

/-- What readers of JSON do not agree on. -/
structure JsonRules where
  /-- How many of its digits the minus sign of a whole number takes up: one or none. -/
  signWidth : Nat := 0
  /-- What half of a pair of code units is read as without the other half, if it is not refused. -/
  half? : Option Char := none

def isJsonBlank (c : Char) : Bool := c = ' ' || c = '\t' || c = '\n' || c = '\r'

def skipJsonBlanks (text : List Char) : List Char := text.dropWhile isJsonBlank

def hexValue? (c : Char) : Option Nat :=
  if '0' ≤ c && c ≤ '9' then some (c.toNat - 48)
  else if 'a' ≤ c && c ≤ 'f' then some (c.toNat - 87)
  else if 'A' ≤ c && c ≤ 'F' then some (c.toNat - 55)
  else none

def fourHex? (a b c d : Char) : Option Nat := do
  return (((← hexValue? a) * 16 + (← hexValue? b)) * 16 + (← hexValue? c)) * 16 + (← hexValue? d)

def simpleEscape? (c : Char) : Option Char :=
  match c with
  | '"' => some '"'
  | '\\' => some '\\'
  | '/' => some '/'
  | 'b' => some '\x08'
  | 'f' => some '\x0c'
  | 'n' => some '\n'
  | 'r' => some '\r'
  | 't' => some '\t'
  | _ => none

/-- Reads the rest of a text behind the characters `seen`, last first. A code unit of a pair
counts together with its partner. -/
def readJsonText (half? : Option Char) (seen : List Char) :
    List Char → Option (String × List Char)
  | '"' :: rest => some (String.ofList seen.reverse, rest)
  | '\\' :: 'u' :: a :: b :: c :: d :: rest =>
    match fourHex? a b c d with
    | none => none
    | some unit =>
      if unit < 0xd800 || 0xe000 ≤ unit then readJsonText half? (Char.ofNat unit :: seen) rest
      else
        let alone := half?.bind fun half => readJsonText half? (half :: seen) rest
        if 0xdc00 ≤ unit then alone
        else match rest with
          | '\\' :: 'u' :: a :: b :: c :: d :: behind =>
            match fourHex? a b c d with
            | none => none
            | some low =>
              if 0xdc00 ≤ low && low < 0xe000 then
                let code := 0x10000 + (unit - 0xd800) * 0x400 + (low - 0xdc00)
                readJsonText half? (Char.ofNat code :: seen) behind
              else alone
          | _ => alone
  | '\\' :: c :: rest =>
    match simpleEscape? c with
    | none => none
    | some meant => readJsonText half? (meant :: seen) rest
  | c :: rest => if c.toNat < 0x20 || c = '\\' then none else readJsonText half? (c :: seen) rest
  | [] => none

def readJsonValue (half? : Option Char) (text : List Char) : Option (Data × List Char) :=
  match readJsonText none [] text with
  | some (value, rest) => some (.text value, rest)
  | none =>
    -- Nothing but a half alone can be amiss where a text is read with a stand-in for it.
    half?.bind fun half =>
      (readJsonText (some half) [] text).map fun (value, rest) => (.unpaired value, rest)

def maxJsonDigits : Nat := 4300

def readDigits (text : List Char) : List Char × List Char := text.span Char.isDigit

def readExponent? : List Char → Option (Int × List Char)
  | e :: rest =>
    if e = 'e' || e = 'E' then
      let (negative, rest) := match rest with
        | '-' :: rest => (true, rest)
        | '+' :: rest => (false, rest)
        | rest => (false, rest)
      let (digits, rest) := readDigits rest
      if digits.isEmpty then none
      else
        let value : Int := Text.decimalValue digits
        some (if negative then -value else value, rest)
    else none
  | [] => none

def readJsonNumber (signWidth : Nat) (negative : Bool) (text : List Char) :
    Option (Data × List Char) :=
  let (whole, rest) := readDigits text
  if whole.isEmpty || (whole.length ≠ 1 && whole.head? = some '0') then none
  else
    let fraction? : Option (List Char × List Char) := match rest with
      | '.' :: rest =>
        let (digits, rest) := readDigits rest
        if digits.isEmpty then none else some (digits, rest)
      | rest => some ([], rest)
    match fraction? with
    | none => none
    | some (fraction, rest) =>
      let scaled (exponent : Int) : Data :=
        .float (.ofDecimal negative (Text.decimalValue (whole ++ fraction))
          (exponent - fraction.length))
      match rest with
      | 'e' :: _ | 'E' :: _ =>
        (readExponent? rest).map fun (exponent, rest) => (scaled exponent, rest)
      | rest =>
        if !fraction.isEmpty then some (scaled 0, rest)
        else if maxJsonDigits < whole.length + (if negative then signWidth else 0) then none
        else
          let value : Int := Text.decimalValue whole
          some (.int (if negative then -value else value), rest)

def readWord? (word : List Char) (value : Data) (text : List Char) : Option (Data × List Char) :=
  if word.isPrefixOf text then some (value, text.drop word.length) else none

mutual

def readJson (rules : JsonRules) (fuel levels : Nat) (text : List Char) :
    Option (Data × List Char) :=
  match fuel with
  | 0 => none
  | fuel + 1 =>
    match skipJsonBlanks text with
    | '"' :: rest => readJsonValue rules.half? rest
    | '[' :: rest =>
      match levels with
      | 0 => none
      | levels + 1 =>
        match skipJsonBlanks rest with
        | ']' :: rest => some (.list [], rest)
        | rest => readJsonItems rules fuel levels [] rest
    | '{' :: rest =>
      match levels with
      | 0 => none
      | levels + 1 =>
        match skipJsonBlanks rest with
        | '}' :: rest => some (.record [], rest)
        | rest => readJsonFields rules fuel levels [] rest
    | '-' :: 'I' :: rest => readWord? "nfinity".toList (.float (.infinity true)) rest
    | '-' :: rest => readJsonNumber rules.signWidth true rest
    | 'I' :: rest => readWord? "nfinity".toList (.float (.infinity false)) rest
    | 'N' :: rest => readWord? "aN".toList (.float .nan) rest
    | 't' :: rest => readWord? "rue".toList (.bool true) rest
    | 'f' :: rest => readWord? "alse".toList (.bool false) rest
    | 'n' :: rest => readWord? "ull".toList .null rest
    | rest => readJsonNumber rules.signWidth false rest

def readJsonItems (rules : JsonRules) (fuel levels : Nat) (seen : List Data) (text : List Char) :
    Option (Data × List Char) :=
  match fuel with
  | 0 => none
  | fuel + 1 =>
    match readJson rules fuel levels text with
    | none => none
    | some (item, rest) =>
      match skipJsonBlanks rest with
      | ',' :: rest => readJsonItems rules fuel levels (item :: seen) rest
      | ']' :: rest => some (.list (item :: seen).reverse, rest)
      | _ => none

def readJsonFields (rules : JsonRules) (fuel levels : Nat) (seen : List (String × Data))
    (text : List Char) : Option (Data × List Char) :=
  match fuel with
  | 0 => none
  | fuel + 1 =>
    match skipJsonBlanks text with
    | '"' :: rest =>
      match readJsonText rules.half? [] rest with
      | none => none
      | some (key, rest) =>
        match skipJsonBlanks rest with
        | ':' :: rest =>
          match readJson rules fuel levels rest with
          | none => none
          | some (value, rest) =>
            match skipJsonBlanks rest with
            | ',' :: rest => readJsonFields rules fuel levels ((key, value) :: seen) rest
            | '}' :: rest => some (.record (Fields.ofList ((key, value) :: seen).reverse), rest)
            | _ => none
        | _ => none
    | _ => none

end

/-- Reads a whole text as one value. Each call of a reader takes at least one character or hands
over to one that does, so twice the length is fuel enough. -/
def ofJsonBy? (rules : JsonRules) (levels : Nat) (text : List Char) : Option Data :=
  match readJson rules (2 * text.length + 2) levels text with
  | some (value, rest) => if (skipJsonBlanks rest).isEmpty then some value else none
  | none => none

def ofJson? (levels : Nat) (text : List Char) : Option Data := ofJsonBy? {} levels text

inductive JsonFault
  | malformed
  /-- A list or a record stands inside more of them than a reader bears. -/
  | tooDeep (isList : Bool)
deriving DecidableEq, Repr

/-- The first list or record that stands inside so many others, if a text is JSON up to there. What
was read of the text is given last first, and `closers` is what would close what it leaves open. -/
def overrun? (rules : JsonRules) (seen closers : List Char) (inText : Bool) (levels : Nat) :
    List Char → Option JsonFault
  | [] => none
  | '\\' :: c :: rest => overrun? rules (c :: '\\' :: seen) closers inText levels rest
  | c :: rest =>
    if c = '"' then overrun? rules (c :: seen) closers (!inText) levels rest
    else if inText then overrun? rules (c :: seen) closers true levels rest
    else if c = '[' || c = '{' then
      match levels with
      | 0 =>
        -- Up to there the text is JSON if a text can stand in the place of what follows.
        let cut := seen.reverse ++ '"' :: '"' :: closers
        if (ofJsonBy? rules cut.length cut).isSome then some (.tooDeep (c = '[')) else none
      | levels + 1 =>
        overrun? rules (c :: seen) ((if c = '[' then ']' else '}') :: closers) false levels rest
    else if c = ']' || c = '}' then
      overrun? rules (c :: seen) (closers.drop 1) false (levels + 1) rest
    else overrun? rules (c :: seen) closers false levels rest

def ofJsonWithin (rules : JsonRules) (levels : Nat) (text : List Char) : Except JsonFault Data :=
  match overrun? rules [] [] false levels text, ofJsonBy? rules levels text with
  | some fault, _ => .error fault
  | none, none => .error .malformed
  | none, some value => .ok value

end ConfigIndex.Data
