import ConfigIndex.Document.Parser
import ConfigIndex.Proofs.Document.Patterns

/-!
The grammar of documents: how a text splits into pieces, and how the words among them make up items.
-/

namespace ConfigIndex.Document

/-- A stretch of text that is a word, a comment or a gap. -/
structure Stretch where
  kind : Piece
  text : List Char
  position : Position

def Stretch.lexeme? : Stretch → Option Lexeme
  | ⟨.word terminal, text, position⟩ => some ⟨terminal, String.ofList text, position⟩
  | _ => none

def Stretch.comment? : Stretch → Option Comment
  | ⟨.comment, text, position⟩ => some (commentAt position text)
  | _ => none

/-- A text starts with stretches, each the first match of its pattern; what they leave stands at
`final`. -/
inductive Splits : Position → List Char → List Stretch → Position → List Char → Prop
  | nil {position text} : Splits position text [] position text
  | more {position kind word rest stretches final left} :
      kind.pattern.first? (word ++ rest) = some word →
      Splits (position.advanceBy word) rest stretches final left →
      Splits position (word ++ rest) (⟨kind, word, position⟩ :: stretches) final left

/-- A phrase of the grammar with what it is read as. -/
inductive Phrase
  | items (items : List Item)
  | item (item : Item)
  | keys (keys : List Token)
  | value (node : Node)
  | object (node : Node)
  | elements (nodes : List Node)

inductive Derives : List Lexeme → Phrase → List Lexeme → Prop
  | noItems {rest} : Derives rest (.items []) rest
  | moreItems {start item middle items stop} : Derives start (.item item) middle →
      Derives middle (.items items) stop → Derives start (.items (item :: items)) stop
  | separatedItems {start item comma middle items stop} :
      Derives start (.item item) (comma :: middle) → comma.terminal = .comma →
      Derives middle (.items items) stop → Derives start (.items (item :: items)) stop
  | assignment {key token equal middle node stop} : key.key? = some token →
      equal.terminal = .equal → Derives middle (.value node) stop →
      Derives (key :: equal :: middle) (.item ⟨[token], some node, some equal.position, []⟩) stop
  | block {start keys middle node stop} : Derives start (.keys keys) middle →
      Derives middle (.object node) stop → Derives start (.item ⟨keys, some node, none, []⟩) stop
  | oneKey {key token rest} : key.key? = some token → Derives (key :: rest) (.keys [token]) rest
  | moreKeys {start keys key token rest} : Derives start (.keys keys) (key :: rest) →
      key.key? = some token → Derives start (.keys (keys ++ [token])) rest
  | literal {lexeme token rest} : lexeme.literal? = some token →
      Derives (lexeme :: rest) (.value (.literal token)) rest
  | objectValue {start node stop} : Derives start (.object node) stop →
      Derives start (.value node) stop
  | object {opening middle items closing stop} : opening.terminal = .openBrace →
      Derives middle (.items items) (closing :: stop) → closing.terminal = .closeBrace →
      Derives (opening :: middle) (.object (.object opening.position closing.position items)) stop
  | list {opening middle nodes closing stop} : opening.terminal = .openBracket →
      Derives middle (.elements nodes) (closing :: stop) → closing.terminal = .closeBracket →
      Derives (opening :: middle) (.value (.list opening.position closing.position nodes)) stop
  | noElements {rest} : Derives rest (.elements []) rest
  | lastElement {start node stop} : Derives start (.value node) stop →
      Derives start (.elements [node]) stop
  | moreElements {start node comma middle nodes stop} :
      Derives start (.value node) (comma :: middle) → comma.terminal = .comma →
      Derives middle (.elements nodes) stop → Derives start (.elements (node :: nodes)) stop

end ConfigIndex.Document
