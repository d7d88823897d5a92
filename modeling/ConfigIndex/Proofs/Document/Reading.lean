import ConfigIndex.Document.Read
import ConfigIndex.Proofs.Document.Tiling

/-!
Which texts are documents, and what the tree of a document holds of its text.
-/

namespace ConfigIndex.Document

def Phrase.Bare : Phrase → Prop
  | .items all => Item.allBare all = all
  | .item one => one.bare = one
  | .keys _ => True
  | .value node => node.bare = node
  | .object node => node.bare = node
  | .elements nodes => Node.allBare nodes = nodes

theorem Derives.bare {start stop : List Lexeme} {phrase : Phrase}
    (derives : Derives start phrase stop) : phrase.Bare := by
  induction derives with
  | noItems => rfl
  | moreItems _ _ item items =>
      simp only [Phrase.Bare, Item.allBare] at item items ⊢
      rw [item, items]
  | separatedItems _ _ _ item items =>
      simp only [Phrase.Bare, Item.allBare] at item items ⊢
      rw [item, items]
  | assignment _ _ _ value =>
      simp only [Phrase.Bare, Item.bare] at value ⊢
      rw [value]
  | block _ _ _ object =>
      simp only [Phrase.Bare, Item.bare] at object ⊢
      rw [object]
  | oneKey _ => trivial
  | moreKeys _ _ _ => trivial
  | literal _ => rfl
  | objectValue _ object => exact object
  | object _ _ _ items =>
      simp only [Phrase.Bare, Node.bare] at items ⊢
      rw [items]
  | list _ _ _ elements =>
      simp only [Phrase.Bare, Node.bare] at elements ⊢
      rw [elements]
  | noElements => rfl
  | lastElement _ value =>
      simp only [Phrase.Bare, Node.allBare] at value ⊢
      rw [value]
  | moreElements _ _ _ value elements =>
      simp only [Phrase.Bare, Node.allBare] at value elements ⊢
      rw [value, elements]

/-- A text splits into words that make up items, which keep to the limits. -/
def Grammatical (text : List Char) (items : List Item) : Prop :=
  ∃ stretches final, Splits .start text stretches final [] ∧
    Derives (stretches.filterMap Stretch.lexeme?) (.items items) [] ∧
    Item.allDepth items ≤ maxLevels ∧ ∀ token ∈ Item.allLiterals items, token.kind ≠ .ident

theorem parseChars_eq_ok {text : List Char} {file : File} (read : parseChars text = .ok file) :
    ∃ items, (scan text).items = .ok items ∧ Item.firstFault? 1 items = none ∧
      file = ⟨Item.allWithLead (scan text).ownLine.reverse items, (scan text).comments⟩ := by
  unfold parseChars at read
  simp only at read
  split at read
  · cases read
  · rename_i items accepted
    split at read
    · cases read
    · rename_i faultless
      cases read
      exact ⟨items, accepted, faultless, rfl⟩

theorem firstFault?_eq_none_iff {items : List Item} :
    Item.firstFault? 1 items = none ↔
      Item.allDepth items ≤ maxLevels ∧ ∀ token ∈ Item.allLiterals items, token.kind ≠ .ident := by
  rw [Item.firstFault?_eq_none_iff 1 (by decide), Fits, Nat.add_comm 1, Nat.add_le_add_iff_right]

theorem parseChars_splits {text : List Char} {file : File} (read : parseChars text = .ok file) :
    ∃ stretches final, Splits .start text stretches final [] ∧
      Derives (stretches.filterMap Stretch.lexeme?) (.items (Item.allBare file.items)) [] ∧
      Item.firstFault? 1 (Item.allBare file.items) = none := by
  obtain ⟨items, accepted, faultless, rfl⟩ := parseChars_eq_ok read
  obtain ⟨stretches, final, splits, derives⟩ := scan_items_eq_ok_iff.mp accepted
  have bare : Item.allBare items = items := derives.bare
  have same : Item.allBare (Item.allWithLead (scan text).ownLine.reverse items) = items := by
    rw [Item.allBare_withLead, bare]
  refine ⟨stretches, final, splits, ?_, ?_⟩
  · rwa [same]
  · rwa [same]

theorem scan_items_tiled {text : List Char} {items : List Item}
    (accepted : (scan text).items = .ok items) :
    Tiled .start text (Item.allSpans items) (scan text).comments := by
  obtain ⟨stretches, final, splits, derives⟩ := scan_items_eq_ok_iff.mp accepted
  have scanned := splits.scan rfl
  obtain ⟨front, cut, spans⟩ := derives.spans splits.fair
  rw [List.append_nil] at cut
  have tiled := splits.tiled rfl
  rw [cut, spans] at tiled
  rw [scanned]
  exact tiled

theorem parseChars_tiled {text : List Char} {file : File} (read : parseChars text = .ok file) :
    Tiled .start text (Item.allSpans file.items) file.comments := by
  obtain ⟨items, accepted, _, rfl⟩ := parseChars_eq_ok read
  rw [← Item.allSpans_bare, Item.allBare_withLead, Item.allSpans_bare]
  exact scan_items_tiled accepted

theorem parseChars_of_grammatical {text : List Char} {items : List Item}
    (grammatical : Grammatical text items) :
    ∃ file, parseChars text = .ok file ∧ Item.allBare file.items = items := by
  obtain ⟨stretches, final, splits, derives, limits⟩ := grammatical
  have accepted := scan_items_eq_ok_iff.mpr ⟨stretches, final, splits, derives⟩
  have faultless := firstFault?_eq_none_iff.mpr limits
  have bare : Item.allBare items = items := derives.bare
  unfold parseChars
  simp only [accepted, faultless]
  exact ⟨_, rfl, by rw [Item.allBare_withLead, bare]⟩

/-- The texts of documents are those of the grammar, and their items are those of the derivation.
Words and comments lie side by side in the text, in their order, with nothing but white space and
commas between them. -/
theorem parse_grammatical (text : String) :
    (∀ items, (∃ file, parse text = .ok file ∧ Item.allBare file.items = items) ↔
      Grammatical text.toList items) ∧
    ∀ file, parse text = .ok file →
      Tiled .start text.toList (Item.allSpans file.items) file.comments := by
  constructor
  · intro items
    constructor
    · rintro ⟨file, read, rfl⟩
      obtain ⟨stretches, final, splits, derives, faultless⟩ := parseChars_splits read
      exact ⟨stretches, final, splits, derives, firstFault?_eq_none_iff.mp faultless⟩
    · exact parseChars_of_grammatical
  · intro file read
    exact parseChars_tiled read

theorem parse_grammatical_block :
    ∃ file, parse "a b \x7b # c\r\n  d = [1, true,],\n\x7d" = .ok file ∧
      Tiled .start "a b \x7b # c\r\n  d = [1, true,],\n\x7d".toList (Item.allSpans file.items)
        file.comments := by
  have accepted : (parse "a b \x7b # c\r\n  d = [1, true,],\n\x7d").toOption.isSome = true := by
    decide +kernel
  cases read : parse "a b \x7b # c\r\n  d = [1, true,],\n\x7d" with
  | ok file => exact ⟨file, rfl, (parse_grammatical _).2 file read⟩
  | error error =>
      rw [read] at accepted
      cases accepted

/-! ### One assignment -/

/-- Characters of a class are all that it takes up to one that is not in it. -/
theorem takeWhile_class {accepts : Char → Bool} {word rest : List Char}
    (all : ∀ c ∈ word, accepts c = true) (stop : ∀ c ∈ rest.head?, accepts c = false) :
    (word ++ rest).takeWhile accepts = word ∧ (word ++ rest).dropWhile accepts = rest := by
  rw [List.takeWhile_append_of_pos all, List.dropWhile_append_of_pos all]
  cases rest with
  | nil => simp
  | cons c rest => simp [stop c rfl]

theorem gap_first {gap rest : List Char} (filled : gap ≠ []) (blank : ∀ c ∈ gap, isGap c = true)
    (stop : ∀ c ∈ rest.head?, isGap c = false) :
    Piece.gap.pattern.first? (gap ++ rest) = some gap := by
  obtain ⟨c, others, rfl⟩ := List.exists_cons_of_ne_nil filled
  rw [gap_first?, (takeWhile_class blank stop).1]
  exact if_pos (blank c (by simp))

theorem isGap_of_word {terminal : Terminal} {c : Char} {rest word : List Char}
    (first : terminal.pattern.first? (c :: rest) = some word) : isGap c = false := by
  have found := @piece?_complete _ _ (.word terminal) first
  cases gap : isGap c with
  | false => rfl
  | true => simp [piece?, gap] at found

/-- A gap at the end of a text leaves nothing. -/
theorem splits_gap {gap : List Char} (blank : ∀ c ∈ gap, isGap c = true) (position : Position) :
    ∃ stretches final, Splits position gap stretches final [] ∧
      stretches.filterMap Stretch.lexeme? = [] ∧ stretches.filterMap Stretch.comment? = [] ∧
      ownComments false stretches = [] := by
  by_cases filled : gap = []
  · rw [filled]
    exact ⟨[], position, Splits.nil, rfl, rfl, rfl⟩
  · have splits := Splits.more (@gap_first _ [] filled blank (by simp))
      (@Splits.nil (position.advanceBy gap) [])
    rw [List.append_nil] at splits
    exact ⟨_, _, splits, rfl, rfl, rfl⟩

theorem splits_assigned {terminal : Terminal} {word ending : List Char}
    (first : terminal.pattern.first? (word ++ ending) = some word)
    (blank : ∀ c ∈ ending, isGap c = true) :
    ∃ stretches final,
      Splits .start (['x'] ++ ([' '] ++ (['='] ++ ([' '] ++ (word ++ ending))))) stretches final [] ∧
      stretches.filterMap Stretch.lexeme? = [⟨.ident, "x", .start⟩, ⟨.equal, "=", ⟨"", 2, 1, 3⟩⟩,
        ⟨terminal, String.ofList word, ⟨"", 4, 1, 5⟩⟩] ∧
      stretches.filterMap Stretch.comment? = [] ∧ ownComments true stretches = [] := by
  have stop : ∀ c ∈ (word ++ ending).head?, isGap c = false := by
    obtain ⟨c, others, rfl⟩ := List.exists_cons_of_ne_nil
      ((pattern_consumes (.word terminal)).first?_ne_nil first)
    intro d head
    cases head
    exact isGap_of_word first
  have key : (Piece.word .ident).pattern.first?
      (['x'] ++ ([' '] ++ (['='] ++ ([' '] ++ (word ++ ending))))) = some ['x'] := piece?_sound rfl
  have gap : Piece.gap.pattern.first? ([' '] ++ (['='] ++ ([' '] ++ (word ++ ending)))) =
      some [' '] := gap_first (by simp) (List.all_eq_true.mp rfl) (by simp [isGap])
  have equal : (Piece.word .equal).pattern.first? (['='] ++ ([' '] ++ (word ++ ending))) =
      some ['='] := piece?_sound rfl
  have between : Piece.gap.pattern.first? ([' '] ++ (word ++ ending)) = some [' '] :=
    gap_first (by simp) (List.all_eq_true.mp rfl) stop
  obtain ⟨stretches, final, ends, wordless, uncommented, alone⟩ :=
    splits_gap blank (.advanceBy ⟨"", 4, 1, 5⟩ word)
  have splits := @Splits.more .start _ _ _ _ _ _ key
    (.more gap (.more equal (.more between (@Splits.more _ (.word terminal) _ _ _ _ _ first ends))))
  refine ⟨_, final, splits, ?_, ?_, ?_⟩
  · simp only [List.filterMap_cons, Stretch.lexeme?, wordless]
    rfl
  · simp only [List.filterMap_cons, Stretch.comment?, uncommented]
  · simp only [ownComments, Stretch.comment?, Stretch.leaves, alone]
    rfl

/-- A document that assigns a literal to a key, perhaps with a gap at its end. -/
theorem parseChars_assigned {terminal : Terminal} {word ending : List Char} {token : Token}
    (first : terminal.pattern.first? (word ++ ending) = some word)
    (blank : ∀ c ∈ ending, isGap c = true)
    (read : Lexeme.literal? ⟨terminal, String.ofList word, ⟨"", 4, 1, 5⟩⟩ = some token)
    (known : token.kind ≠ .ident) :
    parseChars ('x' :: ' ' :: '=' :: ' ' :: (word ++ ending)) =
      .ok ⟨[⟨[⟨.ident, "x", .start⟩], some (.literal token), some ⟨"", 2, 1, 3⟩, []⟩], []⟩ := by
  obtain ⟨stretches, final, splits, words, comments, alone⟩ := splits_assigned first blank
  have scanned := splits.scan rfl
  rw [comments, alone] at scanned
  let item : Item := ⟨[⟨.ident, "x", .start⟩], some (.literal token), some ⟨"", 2, 1, 3⟩, []⟩
  have derives : Derives (stretches.filterMap Stretch.lexeme?) (.items [item]) [] := by
    rw [words]
    exact Derives.moreItems (.assignment rfl rfl (.literal read)) .noItems
  have accepted := scan_items_eq_ok_iff.mpr ⟨stretches, final, splits, derives⟩
  have faultless : Item.firstFault? 1 [item] = none := by
    simp [item, Item.firstFault?, Item.fault?, Node.fault?, known]
  change parseChars (['x'] ++ ([' '] ++ (['='] ++ ([' '] ++ (word ++ ending))))) = _
  unfold parseChars
  simp only [accepted, faultless]
  rw [scanned]
  rfl
end ConfigIndex.Document
