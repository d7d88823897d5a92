import ConfigIndex.Proofs.Document.Limits
import ConfigIndex.Proofs.Document.Stretches

/-!
The words of a document and its comments lie side by side in the text, and nothing else does but
white space and commas.
-/

namespace ConfigIndex.Document

structure Span where
  position : Position
  text : List Char

def Token.span (token : Token) : Span := ⟨token.position, token.text.toList⟩

mutual

def Node.spans : Node → List Span
  | .literal token => [token.span]
  | .key token => [token.span]
  | .item item => item.spans
  | .items items => Item.allSpans items
  | .object opening closing items => ⟨opening, ['{']⟩ :: Item.allSpans items ++ [⟨closing, ['}']⟩]
  | .list opening closing elements =>
    ⟨opening, ['[']⟩ :: Node.allSpans elements ++ [⟨closing, [']']⟩]

def Item.spans : Item → List Span
  | ⟨keys, some value, assign, _⟩ =>
    keys.map Token.span ++ (assign.toList.map fun sign => ⟨sign, ['=']⟩) ++ value.spans
  | ⟨keys, none, assign, _⟩ =>
    keys.map Token.span ++ assign.toList.map fun sign => ⟨sign, ['=']⟩

def Node.allSpans : List Node → List Span
  | [] => []
  | node :: rest => node.spans ++ Node.allSpans rest

def Item.allSpans : List Item → List Span
  | [] => []
  | item :: rest => item.spans ++ Item.allSpans rest

end

mutual

theorem Node.spans_bare (node : Node) : node.bare.spans = node.spans := by
  cases node with
  | literal token => rfl
  | key token => rfl
  | item item => exact Item.spans_bare item
  | items items => exact Item.allSpans_bare items
  | object opening closing items => simp only [Node.bare, Node.spans, Item.allSpans_bare items]
  | list opening closing elements =>
      simp only [Node.bare, Node.spans, Node.allSpans_bare elements]

theorem Item.spans_bare (item : Item) : item.bare.spans = item.spans := by
  match item with
  | ⟨keys, some value, assign, lead⟩ => simp only [Item.bare, Item.spans, Node.spans_bare value]
  | ⟨keys, none, assign, lead⟩ => rfl

theorem Node.allSpans_bare (nodes : List Node) :
    Node.allSpans (Node.allBare nodes) = Node.allSpans nodes := by
  cases nodes with
  | nil => rfl
  | cons node rest =>
      simp only [Node.allBare, Node.allSpans, Node.spans_bare node, Node.allSpans_bare rest]

theorem Item.allSpans_bare (items : List Item) :
    Item.allSpans (Item.allBare items) = Item.allSpans items := by
  cases items with
  | nil => rfl
  | cons item rest =>
      simp only [Item.allBare, Item.allSpans, Item.spans_bare item, Item.allSpans_bare rest]

end

mutual

theorem Node.span_of_literal {token : Token} (node : Node) (member : token ∈ node.literals) :
    token.span ∈ node.spans := by
  cases node with
  | literal other =>
      rw [literals_literal, List.mem_singleton] at member
      rw [member]
      exact List.mem_singleton.mpr rfl
  | key other => cases member
  | item item => exact Item.span_of_literal item member
  | items items => exact Item.span_of_allLiterals items member
  | object opening closing items =>
      have inside := Item.span_of_allLiterals items member
      simp [Node.spans, inside]
  | list opening closing elements =>
      have inside := Node.span_of_listLiterals elements member
      simp [Node.spans, inside]

theorem Item.span_of_literal {token : Token} (item : Item) (member : token ∈ item.literals) :
    token.span ∈ item.spans := by
  match item with
  | ⟨keys, some value, assign, lead⟩ =>
      rw [literals_value] at member
      exact List.mem_append_right _ (Node.span_of_literal value member)
  | ⟨keys, none, assign, lead⟩ =>
      rw [literals_none] at member
      cases member

theorem Node.span_of_listLiterals {token : Token} (nodes : List Node)
    (member : token ∈ Node.listLiterals nodes) : token.span ∈ Node.allSpans nodes := by
  cases nodes with
  | nil => cases member
  | cons node rest =>
      rw [listLiterals_cons] at member
      rcases List.mem_append.mp member with first | later
      · exact List.mem_append_left _ (Node.span_of_literal node first)
      · exact List.mem_append_right _ (Node.span_of_listLiterals rest later)

theorem Item.span_of_allLiterals {token : Token} (items : List Item)
    (member : token ∈ Item.allLiterals items) : token.span ∈ Item.allSpans items := by
  cases items with
  | nil => cases member
  | cons item rest =>
      rw [allLiterals_cons] at member
      rcases List.mem_append.mp member with first | later
      · exact List.mem_append_left _ (Item.span_of_literal item first)
      · exact List.mem_append_right _ (Item.span_of_allLiterals rest later)

end

def isFiller (c : Char) : Bool := isGap c || c = ','

/-- A text that stands at a position is made of spans and comments, each in their order, with
nothing between them but white space and commas. -/
inductive Tiled : Position → List Char → List Span → List Comment → Prop
  | done {position} : Tiled position [] [] []
  | filler {position c rest spans comments} : isFiller c = true →
      Tiled (position.advance c) rest spans comments → Tiled position (c :: rest) spans comments
  | span {position word rest spans comments} : word ≠ [] →
      Tiled (position.advanceBy word) rest spans comments →
      Tiled position (word ++ rest) (⟨position, word⟩ :: spans) comments
  | comment {comment rest spans comments} : comment.text.toList ≠ [] →
      comment.endLine = (comment.position.advanceBy comment.text.toList).line →
      Tiled (comment.position.advanceBy comment.text.toList) rest spans comments →
      Tiled comment.position (comment.text.toList ++ rest) spans (comment :: comments)

theorem Tiled.fillers {rest : List Char} {spans : List Span} {comments : List Comment}
    {gap : List Char} (all : ∀ c ∈ gap, isFiller c = true) :
    ∀ {position : Position}, Tiled (position.advanceBy gap) rest spans comments →
      Tiled position (gap ++ rest) spans comments := by
  induction gap with
  | nil => exact fun tiled => tiled
  | cons c gap ih =>
      intro position tiled
      exact Tiled.filler (all c (by simp)) (ih (fun d member => all d (by simp [member])) tiled)

def Lexeme.span? (lexeme : Lexeme) : Option Span :=
  if lexeme.terminal = .comma then none else some ⟨lexeme.position, lexeme.text.toList⟩

def Terminal.sign? : Terminal → Option Char
  | .equal => some '='
  | .openBrace => some '{'
  | .closeBrace => some '}'
  | .openBracket => some '['
  | .closeBracket => some ']'
  | .comma => some ','
  | _ => none

def Lexeme.Fair (lexeme : Lexeme) : Prop :=
  ∀ sign, lexeme.terminal.sign? = some sign → lexeme.text.toList = [sign]

def Phrase.spans : Phrase → List Span
  | .items all => Item.allSpans all
  | .item one => one.spans
  | .keys tokens => tokens.map Token.span
  | .value node => node.spans
  | .object node => node.spans
  | .elements nodes => Node.allSpans nodes

theorem span?_of_shows {lexeme : Lexeme} {token : Token} (word : lexeme.terminal ≠ .comma)
    (shows : token.text = lexeme.text ∧ token.position = lexeme.position) :
    lexeme.span? = some token.span := by
  rw [Lexeme.span?, if_neg word, Token.span, shows.1, shows.2]

theorem key?_span {lexeme : Lexeme} {token : Token} (read : lexeme.key? = some token) :
    lexeme.span? = some token.span := by
  obtain ⟨listed, shows⟩ := key?_shows read
  apply span?_of_shows _ shows
  intro comma
  simp [comma] at listed

theorem literal?_span {lexeme : Lexeme} {token : Token} (read : lexeme.literal? = some token) :
    lexeme.span? = some token.span := by
  obtain ⟨listed, shows⟩ := literal?_shows read
  apply span?_of_shows _ shows
  intro comma
  simp [comma] at listed

theorem Lexeme.Fair.span {lexeme : Lexeme} (fair : lexeme.Fair) (sign : Char)
    (same : lexeme.terminal.sign? = some sign) (other : lexeme.terminal ≠ .comma) :
    lexeme.span? = some ⟨lexeme.position, [sign]⟩ := by
  rw [Lexeme.span?, if_neg other, fair sign same]

theorem Derives.spans {start stop : List Lexeme} {phrase : Phrase}
    (derives : Derives start phrase stop) (fair : ∀ lexeme ∈ start, lexeme.Fair) :
    ∃ front, start = front ++ stop ∧ front.filterMap Lexeme.span? = phrase.spans := by
  induction derives with
  | noItems => exact ⟨[], rfl, rfl⟩
  | moreItems _ _ first ih =>
      obtain ⟨front, rfl, spans⟩ := first fair
      obtain ⟨back, rfl, more⟩ := ih fun lexeme member => fair lexeme (by simp [member])
      exact ⟨front ++ back, by simp, by simp [spans, more, Phrase.spans, Item.allSpans]⟩
  | @separatedItems _ _ lexeme _ _ _ _ comma _ first ih =>
      obtain ⟨front, rfl, spans⟩ := first fair
      obtain ⟨back, rfl, more⟩ := ih fun lexeme member => fair lexeme (by simp [member])
      have empty : lexeme.span? = none := by simp [Lexeme.span?, comma]
      refine ⟨front ++ lexeme :: back, by simp, ?_⟩
      simp [spans, more, empty, Phrase.spans, Item.allSpans]
  | @assignment key token equal _ _ _ read sign _ ih =>
      obtain ⟨back, rfl, more⟩ := ih fun lexeme member => fair lexeme (by simp [member])
      have second := (fair equal (by simp)).span '=' (by rw [sign]; rfl) (by simp [sign])
      refine ⟨key :: equal :: back, by simp, ?_⟩
      simp [key?_span read, second, more, Phrase.spans, Item.spans]
  | block _ _ keys ih =>
      obtain ⟨front, rfl, spans⟩ := keys fair
      obtain ⟨back, rfl, more⟩ := ih fun lexeme member => fair lexeme (by simp [member])
      exact ⟨front ++ back, by simp, by simp [spans, more, Phrase.spans, Item.spans]⟩
  | @oneKey key _ _ read => exact ⟨[key], rfl, by simp [key?_span read, Phrase.spans]⟩
  | @moreKeys _ _ key _ _ _ read ih =>
      obtain ⟨front, rfl, spans⟩ := ih fair
      exact ⟨front ++ [key], by simp, by
        simp [List.filterMap_append, spans, key?_span read, Phrase.spans]⟩
  | @literal lexeme _ _ read =>
      exact ⟨[lexeme], rfl, by simp [literal?_span read, Phrase.spans, Node.spans]⟩
  | objectValue _ ih => exact ih fair
  | @object opening _ _ closing _ brace _ closes ih =>
      obtain ⟨front, rfl, spans⟩ := ih fun lexeme member => fair lexeme (by simp [member])
      have first := (fair opening (by simp)).span '{' (by rw [brace]; rfl) (by simp [brace])
      have last := (fair closing (by simp)).span '}' (by rw [closes]; rfl) (by simp [closes])
      refine ⟨opening :: (front ++ [closing]), by simp, ?_⟩
      simp [List.filterMap_append, spans, first, last, Phrase.spans, Node.spans]
  | @list opening _ _ closing _ bracket _ closes ih =>
      obtain ⟨front, rfl, spans⟩ := ih fun lexeme member => fair lexeme (by simp [member])
      have first := (fair opening (by simp)).span '[' (by rw [bracket]; rfl) (by simp [bracket])
      have last := (fair closing (by simp)).span ']' (by rw [closes]; rfl) (by simp [closes])
      refine ⟨opening :: (front ++ [closing]), by simp, ?_⟩
      simp [List.filterMap_append, spans, first, last, Phrase.spans, Node.spans]
  | noElements => exact ⟨[], rfl, rfl⟩
  | lastElement _ ih =>
      obtain ⟨front, rfl, spans⟩ := ih fair
      exact ⟨front, rfl, by simp [spans, Phrase.spans, Node.allSpans]⟩
  | @moreElements _ _ lexeme _ _ _ _ comma _ first ih =>
      obtain ⟨front, rfl, spans⟩ := first fair
      obtain ⟨back, rfl, more⟩ := ih fun lexeme member => fair lexeme (by simp [member])
      have empty : lexeme.span? = none := by simp [Lexeme.span?, comma]
      refine ⟨front ++ lexeme :: back, by simp, ?_⟩
      simp [spans, more, empty, Phrase.spans, Node.allSpans]

theorem sign?_pattern {terminal : Terminal} {sign : Char} (same : terminal.sign? = some sign) :
    terminal.pattern = .literally [sign] := by
  cases terminal with
  | ident | string | heredoc | number => cases same
  | _ =>
      cases same
      rfl

theorem Splits.fair {position final : Position} {text left : List Char} {stretches : List Stretch}
    (splits : Splits position text stretches final left) :
    ∀ lexeme ∈ stretches.filterMap Stretch.lexeme?, lexeme.Fair := by
  induction splits with
  | nil => simp
  | @more position kind word rest stretches final left first _ ih =>
      intro lexeme member
      rw [List.filterMap_cons] at member
      split at member
      · exact ih lexeme member
      · rename_i other read
        rcases List.mem_cons.mp member with rfl | member
        · cases kind with
          | gap => cases read
          | comment => cases read
          | word terminal =>
              cases read
              intro sign same
              have found := first
              rw [Piece.pattern, sign?_pattern same] at found
              simp [(Text.Pattern.literally_first?_iff.mp found).1]
        · exact ih lexeme member

theorem closeComment_ends {seen text word : List Char}
    (closed : closeComment seen text = some word) : ∃ front, word = front ++ ['*', '/'] := by
  fun_induction closeComment seen text with
  | case1 seen => cases closed
  | case2 seen rest =>
      cases closed
      exact ⟨seen.reverse, by simp⟩
  | case3 seen c rest _ ih => exact ih closed

theorem trimEndBy_splits (drops : Char → Bool) (text : List Char) :
    ∃ tail, text = Text.trimEndBy drops text ++ tail ∧ ∀ c ∈ tail, drops c = true := by
  refine ⟨(text.reverse.takeWhile drops).reverse, ?_, ?_⟩
  · rw [Text.trimEndBy, ← List.reverse_append, List.takeWhile_append_dropWhile,
      List.reverse_reverse]
  · intro c member
    exact List.all_eq_true.mp List.all_takeWhile c (List.mem_reverse.mp member)

/-- A comment has no end of a line in the end that is cut off, and something that is not. -/
theorem comment_shape {text word : List Char}
    (first : Piece.comment.pattern.first? text = some word) :
    ((∀ c ∈ word, c ≠ '\n') ∨ ∃ front, word = front ++ ['*', '/']) ∧
      ∃ mark ∈ ['#', '/'], mark ∈ word := by
  rw [comment_first?] at first
  split at first
  · cases first
    refine ⟨Or.inl fun c member => ?_, '#', by simp⟩
    simpa using List.all_eq_true.mp List.all_takeWhile c member
  · cases first
    refine ⟨Or.inl fun c member => ?_, '/', by simp⟩
    simpa using List.all_eq_true.mp List.all_takeWhile c member
  · obtain ⟨front, rfl⟩ := closeComment_ends first
    exact ⟨Or.inr ⟨front, rfl⟩, '/', by simp⟩
  · cases first

theorem comment_cut {text word : List Char}
    (first : Piece.comment.pattern.first? text = some word) :
    ∃ tail, word = Text.trimEndBy (fun c => c = '\r' || c = '\n') word ++ tail ∧
      (∀ c ∈ tail, c = '\r') ∧ Text.trimEndBy (fun c => c = '\r' || c = '\n') word ≠ [] := by
  obtain ⟨inside, mark, listed, member⟩ := comment_shape first
  obtain ⟨tail, cut, dropped⟩ := trimEndBy_splits (fun c => c = '\r' || c = '\n') word
  refine ⟨tail, cut, ?_, ?_⟩
  · intro c last
    have either : c = '\r' ∨ c = '\n' := by simpa using dropped c last
    rcases inside with line | ⟨front, block⟩
    · have other := line c (by rw [cut]; simp [last])
      exact either.resolve_right other
    · -- A block comment ends with its mark, so nothing of it is cut off.
      rcases List.eq_nil_or_concat tail with rfl | ⟨init, final, rfl⟩
      · cases last
      · have same := congrArg List.getLast? (block.symm.trans cut)
        have slash : '/' = final := by simpa using same
        have impossible := dropped final (by simp)
        rw [← slash] at impossible
        exact absurd impossible (by decide)
  · intro empty
    rw [empty, List.nil_append] at cut
    have impossible := dropped mark (cut ▸ member)
    simp only [List.mem_cons, List.not_mem_nil, or_false] at listed
    rcases listed with rfl | rfl
    all_goals exact absurd impossible (by decide)

theorem advanceBy_returns {tail : List Char} (returns : ∀ c ∈ tail, c = '\r') :
    ∀ position : Position, (position.advanceBy tail).line = position.line := by
  induction tail with
  | nil => exact fun position => rfl
  | cons c tail ih =>
      intro position
      have same : c = '\r' := returns c (by simp)
      rw [Position.advanceBy_cons, ih fun d member => returns d (by simp [member])]
      simp [Position.advance, same]

/-- Carriage returns that end a comment are no part of it and lie in the gap behind it. -/
theorem Tiled.commentWord {position : Position} {text word rest : List Char} {spans : List Span}
    {comments : List Comment} (tiled : Tiled (position.advanceBy word) rest spans comments)
    (first : Piece.comment.pattern.first? text = some word) :
    Tiled position (word ++ rest) spans (commentAt position word :: comments) := by
  obtain ⟨tail, cut, returns, kept⟩ := comment_cut first
  have shown : (commentAt position word).text.toList =
      Text.trimEndBy (fun c => c = '\r' || c = '\n') word := by
    simp [commentAt]
  rw [← shown] at cut kept
  have fillers : ∀ c ∈ tail, isFiller c = true := by
    intro c member
    rw [returns c member]
    rfl
  have ending : (commentAt position word).endLine =
      (position.advanceBy (commentAt position word).text.toList).line := by
    have whole : (commentAt position word).endLine = (position.advanceBy word).line := rfl
    rw [whole, cut, Position.advanceBy_append, advanceBy_returns returns, ← cut]
  have gap : Tiled (position.advanceBy (commentAt position word).text.toList) (tail ++ rest)
      spans comments := by
    apply Tiled.fillers fillers
    rwa [← Position.advanceBy_append, ← cut]
  have behind : Tiled position ((commentAt position word).text.toList ++ (tail ++ rest)) spans
      (commentAt position word :: comments) := Tiled.comment kept ending gap
  rwa [← List.append_assoc, ← cut] at behind

theorem Splits.tiled {position final : Position} {text left : List Char}
    {stretches : List Stretch} (splits : Splits position text stretches final left)
    (whole : left = []) :
    Tiled position text ((stretches.filterMap Stretch.lexeme?).filterMap Lexeme.span?)
      (stretches.filterMap Stretch.comment?) := by
  induction splits with
  | nil =>
      subst whole
      exact Tiled.done
  | @more position kind word rest stretches final left first _ ih =>
      have tiled := ih whole
      have filled := (pattern_consumes kind).first?_ne_nil first
      cases kind with
      | gap =>
          rw [gap_first?] at first
          apply Tiled.fillers _ tiled
          intro c member
          split at first
          · split at first
            · rw [← Option.some.inj first] at member
              have gap := List.all_eq_true.mp List.all_takeWhile c member
              simp [isFiller, gap]
            · cases first
          · cases first
      | comment =>
          simpa [List.filterMap_cons, Stretch.lexeme?, Stretch.comment?] using
            tiled.commentWord first
      | word terminal =>
          by_cases comma : terminal = .comma
          · subst comma
            rw [(Text.Pattern.literally_first?_iff.mp first).1] at tiled ⊢
            exact Tiled.filler rfl tiled
          · have span : Lexeme.span? ⟨terminal, String.ofList word, position⟩ =
                some ⟨position, word⟩ := by
              simp [Lexeme.span?, comma]
            simpa [List.filterMap_cons, Stretch.lexeme?, Stretch.comment?, span] using
              Tiled.span filled tiled

end ConfigIndex.Document
