import ConfigIndex.Proofs.Document.Reading
import ConfigIndex.Proofs.Document.Strings
import ConfigIndex.Proofs.Text.Yields

/-!
The tokens of a document tree: each is a word of the text. One that is a string has a quote at
either end, and no other quote next to these but behind a backslash.
-/

namespace ConfigIndex.Document

open Text (Pattern)

mutual

def Node.tokens : Node → List Token
  | .literal token => [token]
  | .key token => [token]
  | .item item => item.tokens
  | .items items => Item.allTokens items
  | .object _ _ items => Item.allTokens items
  | .list _ _ elements => Node.allTokens elements

def Item.tokens : Item → List Token
  | ⟨keys, some value, _, _⟩ => keys ++ value.tokens
  | ⟨keys, none, _, _⟩ => keys

def Node.allTokens : List Node → List Token
  | [] => []
  | node :: rest => node.tokens ++ Node.allTokens rest

def Item.allTokens : List Item → List Token
  | [] => []
  | item :: rest => item.tokens ++ Item.allTokens rest

end

mutual

theorem Node.tokens_bare (node : Node) : node.bare.tokens = node.tokens := by
  cases node with
  | literal token => rfl
  | key token => rfl
  | item item => exact Item.tokens_bare item
  | items items => exact Item.allTokens_bare items
  | object opening closing items => exact Item.allTokens_bare items
  | list opening closing elements => exact Node.allTokens_bare elements

theorem Item.tokens_bare (item : Item) : item.bare.tokens = item.tokens := by
  match item with
  | ⟨keys, some value, assign, lead⟩ => simp only [Item.bare, Item.tokens, Node.tokens_bare value]
  | ⟨keys, none, assign, lead⟩ => rfl

theorem Node.allTokens_bare (nodes : List Node) :
    Node.allTokens (Node.allBare nodes) = Node.allTokens nodes := by
  cases nodes with
  | nil => rfl
  | cons node rest =>
      simp only [Node.allBare, Node.allTokens, Node.tokens_bare node, Node.allTokens_bare rest]

theorem Item.allTokens_bare (items : List Item) :
    Item.allTokens (Item.allBare items) = Item.allTokens items := by
  cases items with
  | nil => rfl
  | cons item rest =>
      simp only [Item.allBare, Item.allTokens, Item.tokens_bare item, Item.allTokens_bare rest]

end

theorem Item.token_of_mem {token : Token} {item : Item} {items : List Item} (member : item ∈ items)
    (inside : token ∈ item.tokens) : token ∈ Item.allTokens items := by
  induction items with
  | nil => cases member
  | cons first rest ih =>
      rcases List.mem_cons.mp member with rfl | later
      · exact List.mem_append_left _ inside
      · exact List.mem_append_right _ (ih later)

def Lexeme.Reads (lexeme : Lexeme) (token : Token) : Prop :=
  lexeme.key? = some token ∨ lexeme.literal? = some token

theorem Lexeme.Reads.string {lexeme : Lexeme} {token : Token} (reads : lexeme.Reads token)
    (kind : token.kind = .string) : lexeme.terminal = .string ∧ lexeme.text = token.text := by
  rcases reads with key | literal
  · unfold Lexeme.key? at key
    split at key
    · cases key
      cases kind
    · rename_i same
      cases key
      exact ⟨same, rfl⟩
    · cases key
  · unfold Lexeme.literal? at literal
    split at literal
    · rename_i same
      cases literal
      exact ⟨same, rfl⟩
    · cases literal
      cases kind
    · cases literal
      exact absurd kind (numeralKind_ne (by decide) _)
    · cases literal
      simp only at kind
      split at kind
      · cases kind
      · cases kind
    · cases literal

def Phrase.tokens : Phrase → List Token
  | .items all => Item.allTokens all
  | .item one => one.tokens
  | .keys tokens => tokens
  | .value node => node.tokens
  | .object node => node.tokens
  | .elements nodes => Node.allTokens nodes

def ReadFrom (start stop : List Lexeme) (tokens : List Token) : Prop :=
  ∃ front, start = front ++ stop ∧ ∀ token ∈ tokens, ∃ lexeme ∈ front, lexeme.Reads token

theorem readFrom_nothing (start : List Lexeme) : ReadFrom start start [] :=
  ⟨[], rfl, fun token member => by cases member⟩

theorem readFrom_one {lexeme : Lexeme} {token : Token} (reads : lexeme.Reads token)
    (rest : List Lexeme) : ReadFrom (lexeme :: rest) rest [token] := by
  refine ⟨[lexeme], rfl, fun other member => ?_⟩
  rw [List.mem_singleton.mp member]
  exact ⟨lexeme, List.mem_singleton.mpr rfl, reads⟩

theorem ReadFrom.behind {start stop : List Lexeme} {tokens : List Token}
    (read : ReadFrom start stop tokens) (lexeme : Lexeme) :
    ReadFrom (lexeme :: start) stop tokens := by
  obtain ⟨front, rfl, reads⟩ := read
  refine ⟨lexeme :: front, rfl, fun token member => ?_⟩
  obtain ⟨word, among, read⟩ := reads token member
  exact ⟨word, List.mem_cons_of_mem lexeme among, read⟩

theorem ReadFrom.before {start stop : List Lexeme} {tokens : List Token} {lexeme : Lexeme}
    (read : ReadFrom start (lexeme :: stop) tokens) : ReadFrom start stop tokens := by
  obtain ⟨front, rfl, reads⟩ := read
  refine ⟨front ++ [lexeme], by simp, fun token member => ?_⟩
  obtain ⟨word, among, read⟩ := reads token member
  exact ⟨word, List.mem_append_left _ among, read⟩

theorem ReadFrom.append {start middle stop : List Lexeme} {tokens more : List Token}
    (first : ReadFrom start middle tokens) (second : ReadFrom middle stop more) :
    ReadFrom start stop (tokens ++ more) := by
  obtain ⟨front, rfl, reads⟩ := first
  obtain ⟨back, rfl, further⟩ := second
  refine ⟨front ++ back, (List.append_assoc front back stop).symm, fun token member => ?_⟩
  rcases List.mem_append.mp member with member | member
  · obtain ⟨lexeme, among, read⟩ := reads token member
    exact ⟨lexeme, List.mem_append_left back among, read⟩
  · obtain ⟨lexeme, among, read⟩ := further token member
    exact ⟨lexeme, List.mem_append_right front among, read⟩

/-- The tokens of a phrase are among its words. -/
theorem Derives.readFrom {start stop : List Lexeme} {phrase : Phrase}
    (derives : Derives start phrase stop) : ReadFrom start stop phrase.tokens := by
  induction derives with
  | noItems | noElements => exact readFrom_nothing _
  | moreItems _ _ first ih => exact first.append ih
  | separatedItems _ _ _ first ih | moreElements _ _ _ first ih =>
      exact first.append (ih.behind _)
  | assignment key _ _ ih => exact (readFrom_one (Or.inl key) _).append (ih.behind _)
  | block _ _ keys ih => exact keys.append ih
  | oneKey key => exact readFrom_one (Or.inl key) _
  | moreKeys _ key ih => exact ih.append (readFrom_one (Or.inl key) _)
  | literal read => exact readFrom_one (Or.inr read) _
  | objectValue _ ih => exact ih
  | object _ _ _ ih | list _ _ _ ih => exact ih.before.behind _
  | lastElement _ ih => exact ih.append (readFrom_nothing _)

theorem Splits.first? {position final : Position} {text left : List Char}
    {stretches : List Stretch} (splits : Splits position text stretches final left)
    {lexeme : Lexeme} (member : lexeme ∈ stretches.filterMap Stretch.lexeme?) :
    ∃ rest, lexeme.terminal.pattern.first? (lexeme.text.toList ++ rest) =
      some lexeme.text.toList := by
  induction splits with
  | nil => cases member
  | @more position kind word rest stretches final left first _ ih =>
      rw [List.filterMap_cons] at member
      split at member
      · exact ih member
      · rename_i read
        rcases List.mem_cons.mp member with rfl | member
        · cases kind with
          | word terminal =>
              cases read
              rw [String.toList_ofList]
              exact ⟨rest, first⟩
          | _ => cases read
        · exact ih member

/-- What stands between the quotes of a string: no quote first, and a quote last only behind a
backslash. -/
def Enclosable (body : List Char) : Prop :=
  (∀ rest, body ≠ '"' :: rest) ∧
    ∀ front, body = front ++ ['"'] → ∃ before, front = before ++ ['\\']

theorem enclosable_of_not_mem {body : List Char} (plain : '"' ∉ body) : Enclosable body := by
  constructor
  · rintro rest rfl
    exact plain List.mem_cons_self
  · rintro front rfl
    exact absurd (by simp) plain

theorem Enclosable.append {body more : List Char} (first : Enclosable body)
    (second : Enclosable more) : Enclosable (body ++ more) := by
  constructor
  · intro rest same
    cases body with
    | nil => exact second.1 rest same
    | cons c body => exact first.1 body (by rw [(List.cons.inj same).1])
  · intro front same
    rcases List.eq_nil_or_concat more with rfl | ⟨behind, last, rfl⟩
    · exact first.2 front (by rwa [List.append_nil] at same)
    · rw [List.concat_eq_append] at second same
      rw [← List.append_assoc] at same
      obtain ⟨rfl, quote⟩ := List.append_inj' same rfl
      obtain ⟨before, rfl⟩ := second.2 behind (by rw [quote])
      exact ⟨body ++ before, (List.append_assoc _ _ _).symm⟩

theorem interpolation_yields : interpolation.Yields Enclosable := by
  have inside : (Pattern.seq (.many interpolationUnit) (.char '}')).Yields
      fun word => ∃ front, word = front ++ ['}'] :=
    (Pattern.yields_any _).seq (Pattern.yields_char '}') fun front _ _ same => ⟨front, by rw [same]⟩
  refine (Pattern.yields_literally ['$', '{']).seq inside ?_
  rintro _ _ rfl ⟨front, rfl⟩
  constructor
  · intro rest same
    exact absurd (List.cons.inj same).1 (by decide)
  · intro other same
    rw [← List.append_assoc] at same
    exact absurd (List.append_inj' same rfl).2 (by decide)

theorem escape_yields : escape.Yields Enclosable := by
  have behind : inLine.Yields fun word => ∃ c, word = [c] :=
    Pattern.yields_one fun c _ => ⟨c, rfl⟩
  refine (Pattern.yields_char '\\').seq behind ?_
  rintro _ _ rfl ⟨c, rfl⟩
  constructor
  · intro rest same
    exact absurd (List.cons.inj same).1 (by decide)
  · intro front same
    have first : ['\\'] = front := (List.append_inj' same rfl).1
    exact ⟨[], first.symm⟩

theorem stringUnit_yields : stringUnit.Yields Enclosable := by
  have plain : ∀ pattern : Pattern, pattern.avoids ['"'] = true → pattern.Yields Enclosable :=
    fun pattern avoided => (Pattern.yields_of_avoids pattern avoided).imp fun word avoids =>
      enclosable_of_not_mem (avoids '"' (by decide))
  exact (plain _ (by decide)).either (escape_yields.either ((plain _ (by decide)).either
    ((plain _ (by decide)).either interpolation_yields)))

theorem stringPattern_yields : stringPattern.Yields fun word =>
    ∃ body, word = '"' :: (body ++ ['"']) ∧ Enclosable body := by
  have body : (Pattern.many stringUnit).Yields Enclosable :=
    stringUnit_yields.many (enclosable_of_not_mem List.not_mem_nil) fun _ _ => Enclosable.append
  have closed : (Pattern.seq (.many stringUnit) (.char '"')).Yields
      fun word => ∃ body, word = body ++ ['"'] ∧ Enclosable body :=
    body.seq (Pattern.yields_char '"') fun body _ enclosable same =>
      ⟨body, by rw [same], enclosable⟩
  refine (Pattern.yields_char '"').seq closed ?_
  rintro _ _ rfl ⟨body, rfl, enclosable⟩
  exact ⟨body, rfl, enclosable⟩

/-- Every string of a document encloses something between its quotes. -/
theorem parseChars_string_encloses {text : List Char} {file : File}
    (read : parseChars text = .ok file) {token : Token} (member : token ∈ Item.allTokens file.items)
    (kind : token.kind = .string) :
    ∃ body, token.text.toList = '"' :: (body ++ ['"']) ∧ Enclosable body := by
  obtain ⟨stretches, final, splits, derives, -⟩ := parseChars_splits read
  obtain ⟨front, cut, reads⟩ := derives.readFrom
  rw [List.append_nil] at cut
  rw [← Item.allTokens_bare] at member
  obtain ⟨lexeme, among, read⟩ := reads token member
  obtain ⟨terminal, same⟩ := read.string kind
  obtain ⟨rest, first⟩ := splits.first? (cut ▸ among)
  rw [terminal, same] at first
  exact stringPattern_yields.first? first

theorem unquote_open {body : List Char} (opened : ∀ rest, body ≠ '"' :: rest) :
    unquote ('"' :: (body ++ ['"'])) = (body.reverse.dropWhile (· == '"')).reverse := by
  have shed : ('"' :: (body ++ ['"'])).dropWhile (· == '"') =
      (body ++ ['"']).dropWhile (· == '"') := rfl
  rw [unquote, shed]
  cases body with
  | nil => rfl
  | cons c rest =>
      have other : (c == '"') = false :=
        beq_eq_false_iff_ne.mpr fun same => opened rest (by rw [same])
      rw [List.cons_append, List.dropWhile_cons_of_neg (by simp [other]), ← List.cons_append,
        List.reverse_append]
      rfl

/-- What is left of a string without its quotes: all that it encloses, unless that ends in a quote,
which is left out then while the backslash before it stays. -/
theorem unquote_enclosed {body : List Char} (enclosable : Enclosable body) :
    (∀ front, body ≠ front ++ ['"']) ∧ unquote ('"' :: (body ++ ['"'])) = body ∨
      ∃ before, body = before ++ ['\\', '"'] ∧
        unquote ('"' :: (body ++ ['"'])) = before ++ ['\\'] := by
  obtain ⟨opened, closed⟩ := enclosable
  rw [unquote_open opened]
  rcases List.eq_nil_or_concat body with rfl | ⟨front, last, rfl⟩
  · exact Or.inl ⟨by simp, rfl⟩
  · rw [List.concat_eq_append, List.reverse_append]
    by_cases quote : last = '"'
    · subst quote
      obtain ⟨before, rfl⟩ := closed front List.concat_eq_append
      exact Or.inr ⟨before, by simp, by simp⟩
    · refine Or.inl ⟨fun other same => quote ?_, ?_⟩
      · exact List.singleton_inj.mp (List.append_inj' same rfl).2
      · simp [quote]

end ConfigIndex.Document
