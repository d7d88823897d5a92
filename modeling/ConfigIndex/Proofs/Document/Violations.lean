import ConfigIndex.Proofs.Document.Reading

/-!
The two rules behind the grammar, read off the words of a document. Where its words make up items
and yet a rule is broken, the word that breaks one first is the one reported.
-/

namespace ConfigIndex.Document

/-- What the words in front of a place tell of it: the braces and brackets that are open there, the
innermost first, and whether the last word was an equals sign. -/
structure Place where
  opened : List Terminal
  assigned : Bool

def Place.start : Place := ⟨[], false⟩

def Place.behind (place : Place) (lexeme : Lexeme) : Place where
  opened := match lexeme.terminal with
    | .openBrace => .openBrace :: place.opened
    | .openBracket => .openBracket :: place.opened
    | .closeBrace => place.opened.tail
    | .closeBracket => place.opened.tail
    | _ => place.opened
  assigned := lexeme.terminal = .equal

def placeBehind (front : List Lexeme) : Place := front.foldl Place.behind .start

def Place.IsValue (place : Place) : Prop :=
  place.assigned = true ∨ place.opened.head? = some .openBracket

instance (place : Place) : Decidable place.IsValue := inferInstanceAs (Decidable (_ ∨ _))

/-- A word breaks a rule at a place, with the message about it. -/
inductive Place.Forbids (place : Place) (lexeme : Lexeme) : String → Prop
  | unknown : lexeme.terminal = .ident → lexeme.text ∉ ["true", "false"] → place.IsValue →
      Place.Forbids place lexeme ("Unknown token: IDENT " ++ lexeme.text)
  | deep : lexeme.terminal ∈ [.openBrace, .openBracket] → place.opened.length + 1 = 101 →
      Place.Forbids place lexeme "nesting exceeds 100 levels"

def Place.fault? (place : Place) (lexeme : Lexeme) : Option Fault :=
  if lexeme.terminal = .ident then
    if place.IsValue ∧ lexeme.text ∉ ["true", "false"] then some (.unknownWord lexeme.text)
    else none
  else if lexeme.terminal ∈ [.openBrace, .openBracket] ∧ place.opened.length = maxLevels then
    some .tooDeep
  else none

theorem forbids_iff {place : Place} {lexeme : Lexeme} {message : String} :
    place.Forbids lexeme message ↔
      ∃ fault, place.fault? lexeme = some fault ∧ fault.message = message := by
  constructor
  · rintro (⟨word, unknown, value⟩ | ⟨opens, level⟩)
    · exact ⟨.unknownWord lexeme.text, by simp [Place.fault?, word, unknown, value], rfl⟩
    · refine ⟨.tooDeep, ?_, rfl⟩
      have other : lexeme.terminal ≠ .ident := by
        intro word
        simp [word] at opens
      have deep : place.opened.length = maxLevels := by
        rw [maxLevels]
        omega
      rw [Place.fault?, if_neg other, if_pos ⟨opens, deep⟩]
  · rintro ⟨fault, found, rfl⟩
    unfold Place.fault? at found
    split at found
    · rename_i word
      split at found
      · rename_i bars
        cases found
        exact .unknown word bars.2 bars.1
      · cases found
    · split at found
      · rename_i bars
        cases found
        exact .deep bars.1 (by rw [bars.2, maxLevels])
      · cases found

def firstViolation? (place : Place) : List Lexeme → Option Error
  | [] => none
  | lexeme :: rest =>
    match place.fault? lexeme with
    | some fault => some ⟨fault, lexeme.position⟩
    | none => firstViolation? (place.behind lexeme) rest

theorem firstViolation?_eq_some {lexemes : List Lexeme} {error : Error} : ∀ {place : Place},
    firstViolation? place lexemes = some error →
      ∃ front lexeme back, lexemes = front ++ lexeme :: back ∧
        (front.foldl Place.behind place).fault? lexeme = some error.fault ∧
        error.position = lexeme.position ∧
        ∀ before other behind, front = before ++ other :: behind →
          (before.foldl Place.behind place).fault? other = none := by
  induction lexemes with
  | nil => simp [firstViolation?]
  | cons lexeme rest ih =>
      intro place found
      rw [firstViolation?] at found
      split at found
      · rename_i fault broken
        cases found
        refine ⟨[], lexeme, rest, rfl, broken, rfl, ?_⟩
        intro before other behind cut
        simp at cut
      · rename_i fine
        obtain ⟨front, last, back, rfl, broken, same, earlier⟩ := ih found
        refine ⟨lexeme :: front, last, back, rfl, broken, same, ?_⟩
        intro before other behind cut
        cases before with
        | nil =>
            obtain ⟨rfl, -⟩ := List.cons.inj cut
            exact fine
        | cons first before =>
            obtain ⟨rfl, rest⟩ := List.cons.inj cut
            exact earlier before other behind rest

theorem firstViolation?_cons {place : Place} {lexeme : Lexeme} (rest : List Lexeme)
    (fine : place.fault? lexeme = none) :
    firstViolation? place (lexeme :: rest) = firstViolation? (place.behind lexeme) rest := by
  rw [firstViolation?, fine]

/-! ### The checks on the tree -/

theorem Item.firstFault?_cons (level : Nat) (item : Item) (rest : List Item) :
    Item.firstFault? level (item :: rest) =
      (item.fault? level).or (Item.firstFault? level rest) := by
  rw [Item.firstFault?]
  cases item.fault? level with
  | none => rfl
  | some error => rfl

theorem Node.firstFault?_cons (level : Nat) (node : Node) (rest : List Node) :
    Node.firstFault? level (node :: rest) =
      (node.fault? level).or (Node.firstFault? level rest) := by
  rw [Node.firstFault?]
  cases node.fault? level with
  | none => rfl
  | some error => rfl

def Phrase.fault? (level : Nat) : Phrase → Option Error
  | .items all => Item.firstFault? level all
  | .item one => one.fault? level
  | .keys _ => none
  | .value node => node.fault? level
  | .object node => node.fault? level
  | .elements nodes => Node.firstFault? level nodes

def Phrase.Suits (place : Place) : Phrase → Prop
  | .items _ => ¬place.IsValue
  | .item _ => ¬place.IsValue
  | .keys _ => ¬place.IsValue
  | .value _ => place.IsValue
  | .object _ => True
  | .elements _ => place.opened.head? = some .openBracket ∧ place.assigned = false

def Place.done (place : Place) : Place := ⟨place.opened, false⟩

theorem Place.done_eq {place : Place} (plain : place.assigned = false) : place.done = place := by
  rw [done, ← plain]

theorem Place.done_of_not_isValue {place : Place} (other : ¬place.IsValue) :
    place.done = place := by
  apply done_eq
  cases assigned : place.assigned with
  | false => rfl
  | true => exact absurd (Or.inl assigned) other

theorem Place.fault?_key {place : Place} {key : Lexeme} {token : Token} (other : ¬place.IsValue)
    (read : key.key? = some token) : place.fault? key = none ∧ place.behind key = place.done := by
  cases terminal : key.terminal with
  | ident => simp [Place.fault?, Place.behind, Place.done, terminal, other]
  | string => simp [Place.fault?, Place.behind, Place.done, terminal]
  | _ => simp [Lexeme.key?, terminal] at read

theorem Place.fault?_sign {place : Place} {lexeme : Lexeme}
    (sign : lexeme.terminal ∈ [.equal, .comma, .closeBrace, .closeBracket]) :
    place.fault? lexeme = none := by
  cases terminal : lexeme.terminal with
  | equal | comma | closeBrace | closeBracket => simp [fault?, terminal]
  | _ => simp [terminal] at sign

theorem literal?_kind {lexeme : Lexeme} {token : Token} (read : lexeme.literal? = some token) :
    token.kind = .ident ↔ lexeme.terminal = .ident ∧ lexeme.text ∉ ["true", "false"] := by
  unfold Lexeme.literal? at read
  split at read
  · rename_i same
    cases read
    simp [same]
  · rename_i same
    cases read
    simp [same]
  · rename_i same
    cases read
    simp [same, numeralKind_ne]
  · rename_i same
    cases read
    simp [same]
  · cases read

theorem firstViolation?_literal {place : Place} {lexeme : Lexeme} {token : Token}
    (value : place.IsValue) (read : lexeme.literal? = some token) (level : Nat)
    (rest : List Lexeme) :
    firstViolation? place (lexeme :: rest) =
      ((Node.literal token).fault? level).or (firstViolation? place.done rest) := by
  obtain ⟨listed, text, position⟩ := literal?_shows read
  simp only [List.mem_cons, List.not_mem_nil, or_false] at listed
  have plain : lexeme.terminal ∉ [.openBrace, .openBracket] := by
    rcases listed with same | same | same | same <;> simp [same]
  have behind : place.behind lexeme = place.done := by
    rcases listed with same | same | same | same <;> simp [Place.behind, Place.done, same]
  rw [Node.fault?, text, position]
  by_cases unknown : token.kind = .ident
  · obtain ⟨word, other⟩ := (literal?_kind read).mp unknown
    rw [if_pos unknown, firstViolation?, Place.fault?, if_pos word, if_pos ⟨value, other⟩]
    rfl
  · have fine : place.fault? lexeme = none := by
      rw [literal?_kind read, not_and] at unknown
      unfold Place.fault?
      split
      · rename_i word
        exact if_neg fun both => unknown word both.2
      · exact if_neg fun both => plain both.1
    rw [if_neg unknown, firstViolation?_cons _ fine, behind]
    rfl

/-- A sign that opens nothing breaks no rule. -/
theorem firstViolation?_sign {place : Place} {lexeme : Lexeme}
    (sign : lexeme.terminal ∈ [.equal, .comma, .closeBrace, .closeBracket])
    (rest : List Lexeme) :
    firstViolation? place (lexeme :: rest) = firstViolation? (place.behind lexeme) rest :=
  firstViolation?_cons rest (Place.fault?_sign sign)

theorem firstViolation?_opening {place : Place} {lexeme : Lexeme}
    (opens : lexeme.terminal ∈ [.openBrace, .openBracket])
    (bound : place.opened.length ≤ maxLevels) (rest : List Lexeme) :
    firstViolation? place (lexeme :: rest) =
      if maxLevels < place.opened.length + 1 then some ⟨.tooDeep, lexeme.position⟩
      else firstViolation? (place.behind lexeme) rest := by
  have other : lexeme.terminal ≠ .ident := by
    intro word
    simp [word] at opens
  rw [firstViolation?, Place.fault?, if_neg other]
  by_cases deep : place.opened.length = maxLevels
  · rw [if_pos ⟨opens, deep⟩, if_pos (by omega)]
  · rw [if_neg fun both => deep both.2, if_neg (by omega)]

theorem firstViolation?_closing {place : Place} {lexeme : Lexeme}
    (closes : lexeme.terminal ∈ [.closeBrace, .closeBracket]) (opening : Terminal)
    (rest : List Lexeme) :
    firstViolation? ⟨opening :: place.opened, false⟩ (lexeme :: rest) =
      firstViolation? place.done rest := by
  have sign : lexeme.terminal ∈ [.equal, .comma, .closeBrace, .closeBracket] := by
    simp only [List.mem_cons, List.not_mem_nil, or_false] at closes ⊢
    exact Or.inr (Or.inr closes)
  rw [firstViolation?_sign sign]
  simp only [List.mem_cons, List.not_mem_nil, or_false] at closes
  rcases closes with same | same <;> simp [Place.behind, Place.done, same]

theorem firstViolation?_comma {place : Place} {comma : Lexeme} (same : comma.terminal = .comma)
    (rest : List Lexeme) :
    firstViolation? place.done (comma :: rest) = firstViolation? place.done rest := by
  rw [firstViolation?_sign (by simp [same])]
  simp [Place.behind, Place.done, same]

/-- What stands between a brace or a bracket and the one that closes it is one level further in. -/
theorem firstViolation?_enclosed {place : Place} {opening closing : Lexeme}
    {middle stop : List Lexeme} {inner : Option Error}
    (opens : opening.terminal ∈ [.openBrace, .openBracket])
    (closes : closing.terminal ∈ [.closeBrace, .closeBracket])
    (bound : place.opened.length ≤ maxLevels)
    (inside : place.opened.length + 1 ≤ maxLevels →
      firstViolation? ⟨opening.terminal :: place.opened, false⟩ middle =
        inner.or (firstViolation? ⟨opening.terminal :: place.opened, false⟩ (closing :: stop))) :
    firstViolation? place (opening :: middle) =
      (if maxLevels < place.opened.length + 1 then some ⟨.tooDeep, opening.position⟩
        else inner).or (firstViolation? place.done stop) := by
  have behind : place.behind opening = ⟨opening.terminal :: place.opened, false⟩ := by
    simp only [List.mem_cons, List.not_mem_nil, or_false] at opens
    rcases opens with same | same <;> simp [Place.behind, same]
  rw [firstViolation?_opening opens bound, behind]
  split
  · rfl
  · rw [inside (by omega), firstViolation?_closing closes]

/-- Going over the words of a phrase, wherever it may stand, finds what the checks find in its
tree. -/
def Phrase.Checked (start stop : List Lexeme) (phrase : Phrase) : Prop :=
  ∀ place : Place, place.opened.length ≤ maxLevels → phrase.Suits place →
    firstViolation? place start =
      (phrase.fault? (place.opened.length + 1)).or (firstViolation? place.done stop)

section

variable {start middle stop : List Lexeme}

theorem Phrase.Checked.items {item : Item} {items : List Item}
    (first : (Phrase.item item).Checked start middle)
    (others : (Phrase.items items).Checked middle stop) :
    (Phrase.items (item :: items)).Checked start stop := by
  intro place bound suits
  have same := Place.done_of_not_isValue suits
  rw [first place bound suits, same, others place bound suits, same, Phrase.fault?,
    Phrase.fault?, Phrase.fault?, Item.firstFault?_cons, Option.or_assoc]

/-- A comma behind a phrase makes no difference to what is found. -/
theorem Phrase.Checked.comma {phrase : Phrase} {comma : Lexeme}
    (checked : phrase.Checked start (comma :: stop)) (same : comma.terminal = .comma) :
    phrase.Checked start stop := by
  intro place bound suits
  rw [checked place bound suits, firstViolation?_comma same]

theorem Phrase.Checked.assignment {key equal : Lexeme} {token : Token} {node : Node}
    (value : (Phrase.value node).Checked middle stop) (read : key.key? = some token)
    (sign : equal.terminal = .equal) :
    (Phrase.item ⟨[token], some node, some equal.position, []⟩).Checked
      (key :: equal :: middle) stop := by
  intro place bound suits
  obtain ⟨fine, behind⟩ := Place.fault?_key suits read
  have assigned : place.done.behind equal = ⟨place.opened, true⟩ := by
    simp [Place.behind, Place.done, sign]
  rw [firstViolation?_cons _ fine, behind, firstViolation?_sign (by simp [sign]), assigned]
  exact value ⟨place.opened, true⟩ bound (Or.inl rfl)

theorem Phrase.Checked.block {keys : List Token} {node : Node}
    (before : (Phrase.keys keys).Checked start middle)
    (object : (Phrase.object node).Checked middle stop) :
    (Phrase.item ⟨keys, some node, none, []⟩).Checked start stop := by
  intro place bound suits
  have same := Place.done_of_not_isValue suits
  rw [before place bound suits, same, object place bound trivial, same]
  rfl

theorem checked_key {key : Lexeme} {token : Token} (read : key.key? = some token) :
    (Phrase.keys [token]).Checked (key :: stop) stop := by
  intro place bound suits
  obtain ⟨fine, behind⟩ := Place.fault?_key suits read
  rw [firstViolation?_cons _ fine, behind]
  rfl

theorem Phrase.Checked.moreKeys {keys : List Token} {key : Lexeme} {token : Token}
    (before : (Phrase.keys keys).Checked start (key :: stop)) (read : key.key? = some token) :
    (Phrase.keys (keys ++ [token])).Checked start stop := by
  intro place bound suits
  have same := Place.done_of_not_isValue suits
  have last := @checked_key stop _ _ read place bound suits
  rw [before place bound suits, same, last, same]
  rfl

theorem Phrase.Checked.object {items : List Item} {opening closing : Lexeme}
    (inside : (Phrase.items items).Checked middle (closing :: stop))
    (opens : opening.terminal = .openBrace) (closes : closing.terminal = .closeBrace) :
    (Phrase.object (.object opening.position closing.position items)).Checked
      (opening :: middle) stop := by
  intro place bound suits
  have last : closing.terminal ∈ [.closeBrace, .closeBracket] := by simp [closes]
  refine firstViolation?_enclosed (by simp [opens]) last bound fun shallow => ?_
  rw [opens]
  exact inside ⟨.openBrace :: place.opened, false⟩ shallow (by simp [Phrase.Suits, Place.IsValue])

theorem Phrase.Checked.list {nodes : List Node} {opening closing : Lexeme}
    (inside : (Phrase.elements nodes).Checked middle (closing :: stop))
    (opens : opening.terminal = .openBracket) (closes : closing.terminal = .closeBracket) :
    (Phrase.value (.list opening.position closing.position nodes)).Checked
      (opening :: middle) stop := by
  intro place bound suits
  have last : closing.terminal ∈ [.closeBrace, .closeBracket] := by simp [closes]
  refine firstViolation?_enclosed (by simp [opens]) last bound fun shallow => ?_
  rw [opens]
  exact inside ⟨.openBracket :: place.opened, false⟩ shallow ⟨rfl, rfl⟩

theorem Phrase.Checked.lastElement {node : Node} (value : (Phrase.value node).Checked start stop) :
    (Phrase.elements [node]).Checked start stop := by
  intro place bound suits
  rw [value place bound (Or.inr suits.1), Phrase.fault?, Phrase.fault?, Node.firstFault?_cons,
    Node.firstFault?, Option.or_none]

theorem Phrase.Checked.elements {node : Node} {nodes : List Node}
    (value : (Phrase.value node).Checked start middle)
    (others : (Phrase.elements nodes).Checked middle stop) :
    (Phrase.elements (node :: nodes)).Checked start stop := by
  intro place bound suits
  have same := Place.done_eq suits.2
  rw [value place bound (Or.inr suits.1), same, others place bound suits, same, Phrase.fault?,
    Phrase.fault?, Phrase.fault?, Node.firstFault?_cons, Option.or_assoc]

end

theorem Derives.checked {start stop : List Lexeme} {phrase : Phrase}
    (derives : Derives start phrase stop) : phrase.Checked start stop := by
  -- Each phrase leaves open what was open before it, so the places of two neighbours are the same.
  induction derives with
  | noItems =>
      intro place bound suits
      rw [Place.done_of_not_isValue suits]
      rfl
  | moreItems _ _ item items => exact item.items items
  | separatedItems _ comma _ item items => exact (item.comma comma).items items
  | assignment read sign _ value => exact value.assignment read sign
  | block _ _ keys object => exact keys.block object
  | oneKey read => exact checked_key read
  | moreKeys _ read keys => exact keys.moreKeys read
  | literal read =>
      exact fun place bound suits => firstViolation?_literal suits read (place.opened.length + 1) _
  | objectValue _ object => exact fun place bound suits => object place bound trivial
  | object opens _ closes items => exact items.object opens closes
  | list opens _ closes elements => exact elements.list opens closes
  | noElements =>
      intro place bound suits
      rw [Place.done_eq suits.2]
      rfl
  | lastElement _ value => exact value.lastElement
  | moreElements _ comma _ value elements => exact (value.comma comma).elements elements

/-- A text whose words make up items is rejected for the first word that breaks a rule, and for
nothing else. -/
theorem parseChars_firstViolation {text : List Char} {stretches : List Stretch} {final : Position}
    {items : List Item} (splits : Splits .start text stretches final [])
    (derives : Derives (stretches.filterMap Stretch.lexeme?) (.items items) []) (error : Error) :
    parseChars text = .error error ↔
      firstViolation? .start (stretches.filterMap Stretch.lexeme?) = some error := by
  have accepted := scan_items_eq_ok_iff.mpr ⟨stretches, final, splits, derives⟩
  have found := derives.checked .start (by decide) (by
    simp [Phrase.Suits, Place.IsValue, Place.start])
  have same : firstViolation? .start (stretches.filterMap Stretch.lexeme?) =
      Item.firstFault? 1 items := by
    rw [found]
    exact Option.or_none
  rw [same]
  unfold parseChars
  simp only [accepted]
  cases Item.firstFault? 1 items with
  | none => simp
  | some other => simp

/-- Where the words of a text make up items and it is rejected, the error is about the first word
that breaks a rule: a bare word for a value that is not `true` or `false`, or a brace or a bracket
at the level behind the last. -/
theorem parse_violation {text : String} {stretches : List Stretch} {final : Position}
    {items : List Item} {error : Error} (splits : Splits .start text.toList stretches final [])
    (derives : Derives (stretches.filterMap Stretch.lexeme?) (.items items) [])
    (failed : parse text = .error error) :
    ∃ front lexeme back, stretches.filterMap Stretch.lexeme? = front ++ lexeme :: back ∧
      (placeBehind front).Forbids lexeme error.message ∧ error.position = lexeme.position ∧
      ∀ before other behind, front = before ++ other :: behind →
        ∀ message, ¬(placeBehind before).Forbids other message := by
  have found := (parseChars_firstViolation splits derives error).mp failed
  obtain ⟨front, lexeme, back, cut, broken, same, earlier⟩ := firstViolation?_eq_some found
  refine ⟨front, lexeme, back, cut, forbids_iff.mpr ⟨error.fault, broken, rfl⟩, same, ?_⟩
  intro before other behind shape message forbids
  obtain ⟨fault, another, -⟩ := forbids_iff.mp forbids
  have fine := earlier before other behind shape
  rw [placeBehind, fine] at another
  cases another

theorem parse_violation_list :
    let text := "a \x7b b = [true, c, [d]] \x7d"
    ∃ stretches final items error, Splits .start text.toList stretches final [] ∧
      Derives (stretches.filterMap Stretch.lexeme?) (.items items) [] ∧
      parse text = .error error ∧ error = ⟨.unknownWord "c", ⟨"", 15, 1, 16⟩⟩ ∧
      ∃ front lexeme back, stretches.filterMap Stretch.lexeme? = front ++ lexeme :: back ∧
        (placeBehind front).Forbids lexeme error.message ∧ error.position = lexeme.position ∧
        ∀ before other behind, front = before ++ other :: behind →
          ∀ message, ¬(placeBehind before).Forbids other message := by
  intro text
  have accepted : (scan text.toList).items.toOption.isSome = true := by decide +kernel
  obtain ⟨items, read⟩ : ∃ items, (scan text.toList).items = .ok items := by
    cases read : (scan text.toList).items with
    | ok items => exact ⟨items, rfl⟩
    | error error =>
        rw [read] at accepted
        cases accepted
  obtain ⟨stretches, final, splits, derives⟩ := scan_items_eq_ok_iff.mp read
  have words : (scan text.toList).lexemes = stretches.filterMap Stretch.lexeme? :=
    congrArg Scan.lexemes (splits.scan rfl)
  have found : firstViolation? .start (scan text.toList).lexemes =
      some ⟨.unknownWord "c", ⟨"", 15, 1, 16⟩⟩ := by decide +kernel
  have failed := (parseChars_firstViolation splits derives _).mpr (words ▸ found)
  exact ⟨stretches, final, items, _, splits, derives, failed, rfl,
    parse_violation splits derives failed⟩

end ConfigIndex.Document
