import ConfigIndex.Yaml.Scan

/-!
The tree of a YAML text: one document with scalars, lists and mappings.
-/

namespace ConfigIndex.Yaml

inductive Node
  | scalar (text : String) (style : Style) (mark : Mark)
  | list (items : List Node) (mark : Mark)
  | mapping (entries : List (Node × Node)) (mark : Mark)
deriving Inhabited

namespace Node

def mark : Node → Mark
  | scalar _ _ mark => mark
  | list _ mark => mark
  | mapping _ mark => mark

def absent (mark : Mark) : Node := .scalar "" .plain mark

end Node

/-- Why no more is read. If the tokens ran out, the fault that ended them counts. -/
inductive Halt
  | ranOut
  | fault (fault : Fault)
  | tooDeep

abbrev Reading (α : Type) := Except Halt (α × List Token)

def refuse {α : Type} (problem : String → Problem) (token : Token) : Reading α :=
  .error (.fault ⟨problem token.kind.name, token.mark⟩)

def inside {α : Type} (levels : Nat) (read : Nat → Reading α) : Reading α :=
  match levels with
  | 0 => .error .tooDeep
  | levels + 1 => read levels

mutual

/-- Reads a node. Block collections start only in a block, and a list whose items are not indented
only as the value or key of a mapping. -/
def readNode (fuel levels : Nat) (inBlock flushList : Bool) (tokens : List Token) :
    Reading Node :=
  match fuel, tokens with
  | 0, _ | _, [] => .error .ranOut
  | fuel + 1, token :: rest =>
    let start := token.mark
    match token.kind with
    | .scalar text style => .ok (.scalar text style start, rest)
    | .openBracket => inside levels fun levels => readFlowList fuel levels start true [] rest
    | .openBrace => inside levels fun levels => readFlowMapping fuel levels start true [] rest
    | .entry =>
      if flushList then inside levels fun levels => readFlushList fuel levels start [] tokens
      else refuse (.contentMissing inBlock) token
    | .listStart =>
      if inBlock then inside levels fun levels => readBlockList fuel levels start [] rest
      else refuse (.contentMissing inBlock) token
    | .mappingStart =>
      if inBlock then inside levels fun levels => readBlockMapping fuel levels start [] rest
      else refuse (.contentMissing inBlock) token
    | _ => refuse (.contentMissing inBlock) token

def readOptional (fuel levels : Nat) (inBlock flushList : Bool) (enders : List TokenKind)
    (mark : Mark) (tokens : List Token) : Reading Node :=
  match fuel, tokens with
  | 0, _ | _, [] => .error .ranOut
  | fuel + 1, token :: _ =>
    if enders.contains token.kind then .ok (.absent mark, tokens)
    else readNode fuel levels inBlock flushList tokens

def readBlockList (fuel levels : Nat) (start : Mark) (seen : List Node) (tokens : List Token) :
    Reading Node :=
  match fuel, tokens with
  | 0, _ | _, [] => .error .ranOut
  | fuel + 1, token :: rest =>
    match token.kind with
    | .entry =>
      match readOptional fuel levels true false [.entry, .blockEnd] token.mark rest with
      | .error halt => .error halt
      | .ok (item, rest) => readBlockList fuel levels start (item :: seen) rest
    | .blockEnd => .ok (.list seen.reverse start, rest)
    | _ => refuse (.blockListNotEnded start) token

def readFlushList (fuel levels : Nat) (start : Mark) (seen : List Node) (tokens : List Token) :
    Reading Node :=
  match fuel, tokens with
  | 0, _ | _, [] => .error .ranOut
  | fuel + 1, token :: rest =>
    if token.kind = .entry then
      let enders := [TokenKind.entry, .key, .value, .blockEnd]
      match readOptional fuel levels true false enders token.mark rest with
      | .error halt => .error halt
      | .ok (item, rest) => readFlushList fuel levels start (item :: seen) rest
    else .ok (.list seen.reverse start, tokens)

def readBlockMapping (fuel levels : Nat) (start : Mark) (seen : List (Node × Node))
    (tokens : List Token) : Reading Node :=
  match fuel, tokens with
  | 0, _ | _, [] => .error .ranOut
  | fuel + 1, token :: rest =>
    let enders := [TokenKind.key, .value, .blockEnd]
    match token.kind with
    | .key =>
      match readOptional fuel levels true true enders token.mark rest with
      | .error halt => .error halt
      | .ok (key, rest) =>
        match readValue fuel levels true enders rest with
        | .error halt => .error halt
        | .ok (value, rest) => readBlockMapping fuel levels start ((key, value) :: seen) rest
    | .blockEnd => .ok (.mapping seen.reverse start, rest)
    | _ => refuse (.blockMappingNotEnded start) token

def readValue (fuel levels : Nat) (inBlock : Bool) (enders : List TokenKind)
    (tokens : List Token) : Reading Node :=
  match fuel, tokens with
  | 0, _ | _, [] => .error .ranOut
  | fuel + 1, token :: rest =>
    if token.kind = .value then readOptional fuel levels inBlock inBlock enders token.mark rest
    else .ok (.absent token.mark, tokens)

def readFlowList (fuel levels : Nat) (start : Mark) (isFirst : Bool) (seen : List Node)
    (tokens : List Token) : Reading Node :=
  match fuel, tokens with
  | 0, _ | _, [] => .error .ranOut
  | fuel + 1, token :: rest =>
    if token.kind = .closeBracket then .ok (.list seen.reverse start, rest)
    else if !isFirst && token.kind ≠ .comma then refuse (.flowListNotEnded start) token
    else
      match if isFirst then tokens else rest with
      | [] => .error .ranOut
      | token :: rest =>
        let enders := [TokenKind.comma, .closeBracket]
        if token.kind = .closeBracket then .ok (.list seen.reverse start, rest)
        else
          let item : Reading Node :=
            if token.kind = .key then
              inside levels fun levels =>
                match readOptional fuel levels false false (.value :: enders) token.mark rest with
                | .error halt => .error halt
                | .ok (key, rest) =>
                  match readValue fuel levels false enders rest with
                  | .error halt => .error halt
                  | .ok (value, rest) => .ok (.mapping [(key, value)] token.mark, rest)
            else readNode fuel levels false false (token :: rest)
          match item with
          | .error halt => .error halt
          | .ok (item, rest) => readFlowList fuel levels start false (item :: seen) rest

def readFlowMapping (fuel levels : Nat) (start : Mark) (isFirst : Bool)
    (seen : List (Node × Node)) (tokens : List Token) : Reading Node :=
  match fuel, tokens with
  | 0, _ | _, [] => .error .ranOut
  | fuel + 1, token :: rest =>
    if token.kind = .closeBrace then .ok (.mapping seen.reverse start, rest)
    else if !isFirst && token.kind ≠ .comma then refuse (.flowMappingNotEnded start) token
    else
      match if isFirst then tokens else rest with
      | [] => .error .ranOut
      | token :: rest =>
        let enders := [TokenKind.comma, .closeBrace]
        if token.kind = .closeBrace then .ok (.mapping seen.reverse start, rest)
        else if token.kind = .key then
          match readOptional fuel levels false false (.value :: enders) token.mark rest with
          | .error halt => .error halt
          | .ok (key, rest) =>
            match readValue fuel levels false enders rest with
            | .error halt => .error halt
            | .ok (value, rest) =>
              readFlowMapping fuel levels start false ((key, value) :: seen) rest
        else
          match readNode fuel levels false false (token :: rest) with
          | .error halt => .error halt
          | .ok (key, rest) =>
            let value := Node.absent ((rest.head?.map Token.mark).getD token.mark)
            readFlowMapping fuel levels start false ((key, value) :: seen) rest

end

/-- Reads the tokens of a text as at most one document. Each token is looked at by at most four
readers in a row, so that fuel suffices. -/
def readDocument (levels : Nat) (tokens : List Token) : Except Halt (Option Node) :=
  let fuel := 4 * tokens.length + 4
  let read (tokens : List Token) : Except Halt (Option Node) :=
    match readNode fuel levels true false tokens with
    | .error halt => .error halt
    | .ok (node, rest) =>
      match rest.dropWhile (·.kind = .documentEnd) with
      | [] => .error .ranOut
      | token :: _ =>
        if token.kind = .streamEnd then .ok (some node)
        else if token.kind = .documentStart then
          .error (.fault ⟨.secondDocument node.mark, token.mark⟩)
        else .error (.fault ⟨.documentNotStarted token.kind.name, token.mark⟩)
  match tokens with
  | [] => .error .ranOut
  | token :: rest =>
    match token.kind with
    | .streamEnd => .ok none
    | .documentStart =>
      match rest with
      | [] => .error .ranOut
      | next :: behind =>
        if [TokenKind.documentStart, .documentEnd, .streamEnd].contains next.kind then
          match (next :: behind).dropWhile (·.kind = .documentEnd) with
          | [] => .error .ranOut
          | last :: _ =>
            if last.kind = .streamEnd then .ok (some (.absent next.mark))
            else if last.kind = .documentStart then
              .error (.fault ⟨.secondDocument next.mark, last.mark⟩)
            else .error (.fault ⟨.documentNotStarted last.kind.name, last.mark⟩)
        else read rest
    | _ => read (token :: rest)

/-- Why a text is not read: it breaks the rules of the language, the building of a value that it
spells breaks off, or its collections stand too deep inside one another. -/
inductive Breach
  | fault (fault : Fault)
  | brokenOff (message : String)
  | tooDeep

def Node.ofText (levels : Nat) (text : List Char) : Except Breach (Option Node) :=
  let scanned := scan text
  match readDocument levels scanned.tokens with
  | .ok node => .ok node
  | .error (.fault fault) => .error (.fault fault)
  | .error .tooDeep => .error .tooDeep
  | .error .ranOut =>
    let fault := scanned.fault.getD ⟨.documentNotStarted "<stream end>", {}⟩
    match fault.problem.crash? with
    | some message => .error (.brokenOff message)
    | none => .error (.fault fault)

end ConfigIndex.Yaml
