import ConfigIndex.Proofs.Document.Reading
import ConfigIndex.Proofs.Position

/-!
The literals of a document come in the order of the text, and something stands between any two.
-/

namespace ConfigIndex.Document

/-- Literals among words, no two of them side by side. `ready` tells whether the first word may be
one. -/
inductive Apart : Bool → List Lexeme → List Token → Prop
  | done {ready lexemes} : Apart ready lexemes []
  | pass {ready lexeme lexemes tokens} : Apart true lexemes tokens →
      Apart ready (lexeme :: lexemes) tokens
  | literal {lexeme lexemes token tokens} : lexeme.literal? = some token →
      Apart false lexemes tokens → Apart true (lexeme :: lexemes) (token :: tokens)

namespace Apart

variable {ready : Bool} {front lexemes : List Lexeme} {tokens more : List Token}

theorem weaken (apart : Apart false lexemes tokens) (ready : Bool) :
    Apart ready lexemes tokens := by
  cases apart with
  | done => exact done
  | pass rest => exact pass rest

theorem behind (apart : Apart false lexemes tokens) (front : List Lexeme) :
    Apart ready (front ++ lexemes) tokens := by
  induction front generalizing ready with
  | nil => exact apart.weaken ready
  | cons lexeme front ih => exact pass ih

theorem append (apart : Apart ready front tokens) (further : Apart false lexemes more) :
    Apart ready (front ++ lexemes) (tokens ++ more) := by
  induction apart with
  | done => exact further.behind _
  | pass _ ih => exact pass ih
  | literal read _ ih => exact literal read ih

end Apart

def Phrase.literals : Phrase → List Token
  | .items all => Item.allLiterals all
  | .item one => one.literals
  | .keys _ => []
  | .value node => node.literals
  | .object node => node.literals
  | .elements nodes => Node.listLiterals nodes

def Phrase.ready : Phrase → Bool
  | .value _ => true
  | .elements _ => true
  | _ => false

theorem Derives.apart {start stop : List Lexeme} {phrase : Phrase}
    (derives : Derives start phrase stop) :
    ∃ front, start = front ++ stop ∧ Apart phrase.ready front phrase.literals := by
  induction derives with
  | noItems => exact ⟨[], rfl, Apart.done⟩
  | moreItems _ _ first ih =>
      obtain ⟨front, rfl, apart⟩ := first
      obtain ⟨back, rfl, others⟩ := ih
      refine ⟨front ++ back, by simp, ?_⟩
      simpa [Phrase.literals, Phrase.ready] using apart.append others
  | @separatedItems _ _ comma _ _ _ _ _ _ first ih =>
      obtain ⟨front, rfl, apart⟩ := first
      obtain ⟨back, rfl, others⟩ := ih
      refine ⟨front ++ comma :: back, by simp, ?_⟩
      simpa [Phrase.literals, Phrase.ready] using apart.append (others.behind [comma])
  | @assignment key token equal _ _ _ _ _ _ ih =>
      obtain ⟨back, rfl, apart⟩ := ih
      refine ⟨key :: equal :: back, rfl, ?_⟩
      simpa [Phrase.literals, Phrase.ready] using Apart.pass (Apart.pass apart)
  | block _ _ keys ih =>
      obtain ⟨front, rfl, _⟩ := keys
      obtain ⟨back, rfl, apart⟩ := ih
      refine ⟨front ++ back, by simp, ?_⟩
      simpa [Phrase.literals, Phrase.ready] using apart.behind front
  | @oneKey key _ _ _ => exact ⟨[key], rfl, Apart.done⟩
  | @moreKeys _ _ key _ _ _ _ ih =>
      obtain ⟨front, rfl, _⟩ := ih
      exact ⟨front ++ [key], by simp, Apart.done⟩
  | @literal lexeme _ _ read => exact ⟨[lexeme], rfl, Apart.literal read Apart.done⟩
  | objectValue _ ih =>
      obtain ⟨front, cut, apart⟩ := ih
      exact ⟨front, cut, apart.weaken true⟩
  | @object opening _ _ closing _ _ _ _ ih =>
      obtain ⟨front, rfl, apart⟩ := ih
      refine ⟨opening :: (front ++ [closing]), by simp, ?_⟩
      simpa [Phrase.literals, Phrase.ready] using
        Apart.pass ((apart.weaken true).append Apart.done)
  | @list opening _ _ closing _ _ _ _ ih =>
      obtain ⟨front, rfl, apart⟩ := ih
      refine ⟨opening :: (front ++ [closing]), by simp, ?_⟩
      simpa [Phrase.literals, Phrase.ready] using Apart.pass (apart.append Apart.done)
  | noElements => exact ⟨[], rfl, Apart.done⟩
  | lastElement _ ih =>
      obtain ⟨front, rfl, apart⟩ := ih
      exact ⟨front, rfl, by simpa [Phrase.literals, Phrase.ready] using apart⟩
  | @moreElements _ _ comma _ _ _ _ _ _ first ih =>
      obtain ⟨front, rfl, apart⟩ := first
      obtain ⟨back, rfl, others⟩ := ih
      refine ⟨front ++ comma :: back, by simp, ?_⟩
      simpa [Phrase.literals, Phrase.ready] using apart.append (Apart.pass others)

/-- Literals in a text that stands at a position, with something between any two of them. `ready`
tells whether the text may start with one. -/
inductive Spaced : Bool → Position → List Char → List Token → Prop
  | done {ready position text} : Spaced ready position text []
  | pass {ready position c text tokens} : Spaced true (position.advance c) text tokens →
      Spaced ready position (c :: text) tokens
  | literal {token text tokens} :
      Spaced false (token.position.advanceBy token.text.toList) text tokens →
      Spaced true token.position (token.text.toList ++ text) (token :: tokens)

namespace Spaced

variable {ready : Bool} {position : Position} {text : List Char} {tokens : List Token}

theorem weaken (spaced : Spaced ready position text tokens) : Spaced true position text tokens := by
  cases spaced with
  | done => exact done
  | pass rest => exact pass rest
  | literal rest => exact literal rest

theorem behind {word : List Char} (spaced : Spaced true (position.advanceBy word) text tokens)
    (filled : word ≠ []) : Spaced ready position (word ++ text) tokens := by
  induction word generalizing position ready with
  | nil => exact absurd rfl filled
  | cons c word ih =>
      cases word with
      | nil => exact pass spaced
      | cons next word => exact pass (ih spaced (by simp))

/-- Every literal is behind the start of the text, by something unless it may stand there. -/
theorem starts (spaced : Spaced ready position text tokens) : ∀ token ∈ tokens,
    ∃ gap, (ready = false → gap ≠ []) ∧ token.position = position.advanceBy gap := by
  induction spaced with
  | done => simp
  | @pass ready position c text tokens _ ih =>
      intro token member
      obtain ⟨gap, _, moved⟩ := ih token member
      exact ⟨c :: gap, by simp, moved⟩
  | @literal token text tokens _ ih =>
      intro other member
      rcases List.mem_cons.mp member with rfl | later
      · exact ⟨[], by simp, rfl⟩
      · obtain ⟨gap, _, moved⟩ := ih other later
        exact ⟨token.text.toList ++ gap, by simp, by rw [moved, Position.advanceBy_append]⟩

end Spaced

def Token.Precedes (first second : Token) : Prop :=
  ∃ gap, gap ≠ [] ∧ second.position = (first.position.advanceBy first.text.toList).advanceBy gap

theorem Spaced.pairwise {ready : Bool} {position : Position} {text : List Char}
    {tokens : List Token} (spaced : Spaced ready position text tokens) :
    tokens.Pairwise Token.Precedes := by
  induction spaced with
  | done => exact List.Pairwise.nil
  | pass _ ih => exact ih
  | literal rest ih =>
      refine List.pairwise_cons.mpr ⟨?_, ih⟩
      intro other member
      obtain ⟨gap, filled, moved⟩ := rest.starts other member
      exact ⟨gap, filled rfl, moved⟩

theorem Splits.spaced {position final : Position} {text left : List Char}
    {stretches : List Stretch} (splits : Splits position text stretches final left) :
    ∀ {ready : Bool} {tokens : List Token},
      Apart ready (stretches.filterMap Stretch.lexeme?) tokens →
      Spaced ready position text tokens := by
  induction splits with
  | nil =>
      intro ready tokens apart
      cases apart with
      | done => exact Spaced.done
  | @more position kind word rest stretches final left first _ ih =>
      have filled := (pattern_consumes kind).first?_ne_nil first
      intro ready tokens apart
      cases kind with
      | gap => exact (ih apart).weaken.behind filled
      | comment => exact (ih apart).weaken.behind filled
      | word terminal =>
          cases apart with
          | done => exact Spaced.done
          | pass others => exact (ih others).behind filled
          | @literal _ _ token _ read others =>
              obtain ⟨_, text, place⟩ := literal?_shows read
              have place : token.position = position := place
              have shown : token.text.toList = word := by
                rw [text]
                exact String.toList_ofList
              have further := ih others
              rw [← shown, ← place] at further ⊢
              exact Spaced.literal further

/-- The literals of a document come in the order of its text, and something stands between any two
of them. -/
theorem parseChars_apart {text : List Char} {file : File} (read : parseChars text = .ok file) :
    file.root.literals.Pairwise Token.Precedes := by
  obtain ⟨stretches, final, splits, derives, _⟩ := parseChars_splits read
  obtain ⟨front, cut, apart⟩ := derives.apart
  rw [List.append_nil] at cut
  have literals : Item.allLiterals (Item.allBare file.items) = file.root.literals :=
    Item.allLiterals_bare file.items
  rw [Phrase.literals, literals, ← cut] at apart
  exact (splits.spaced apart).pairwise

end ConfigIndex.Document
