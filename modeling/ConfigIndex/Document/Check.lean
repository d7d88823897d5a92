import ConfigIndex.Document.Parser

/-!
Two rules that the grammar does not state: bare words as values are `true` or `false`, and objects
and lists nest to a limit. The first place in the document that breaks a rule is the one reported.
-/

namespace ConfigIndex.Document

mutual

def Node.fault? (level : Nat) : Node → Option Error
  | .literal token =>
    if token.kind = .ident then some ⟨.unknownWord token.text, token.position⟩ else none
  | .key _ => none
  | .item item => item.fault? level
  | .items items => Item.firstFault? level items
  | .object opening _ items =>
    if maxLevels < level then some ⟨.tooDeep, opening⟩ else Item.firstFault? (level + 1) items
  | .list opening _ elements =>
    if maxLevels < level then some ⟨.tooDeep, opening⟩ else Node.firstFault? (level + 1) elements

def Item.fault? (level : Nat) : Item → Option Error
  | ⟨_, some value, _, _⟩ => value.fault? level
  | ⟨_, none, _, _⟩ => none

def Node.firstFault? (level : Nat) : List Node → Option Error
  | [] => none
  | node :: rest =>
    match node.fault? level with
    | some error => some error
    | none => Node.firstFault? level rest

def Item.firstFault? (level : Nat) : List Item → Option Error
  | [] => none
  | item :: rest =>
    match item.fault? level with
    | some error => some error
    | none => Item.firstFault? level rest

end

end ConfigIndex.Document
