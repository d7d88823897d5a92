import ConfigIndex.Proofs.Document.Limits
import ConfigIndex.Proofs.Index.Merge

/-!
A literal that is no template adds one problem to an index. Apart from that the index is the one of
the document with an empty string in its place, but for a provider that goes by the literal.
-/

namespace ConfigIndex

open Document (Token File Node Item)

namespace Document

/-- Two trees are the same but for one literal. -/
inductive Node.Differs (old new : Token) : Node → Node → Prop
  | literal : Node.Differs old new (.literal old) (.literal new)
  | item {keys value other assign lead} : Node.Differs old new value other →
      Node.Differs old new (.item ⟨keys, some value, assign, lead⟩)
        (.item ⟨keys, some other, assign, lead⟩)
  | items {front back item other} : Node.Differs old new (.item item) (.item other) →
      Node.Differs old new (.items (front ++ item :: back)) (.items (front ++ other :: back))
  | object {opening closing front back item other} :
      Node.Differs old new (.item item) (.item other) →
      Node.Differs old new (.object opening closing (front ++ item :: back))
        (.object opening closing (front ++ other :: back))
  | list {opening closing front back node other} : Node.Differs old new node other →
      Node.Differs old new (.list opening closing (front ++ node :: back))
        (.list opening closing (front ++ other :: back))

def Item.Differs (old new : Token) (item other : Item) : Prop :=
  Node.Differs old new (.item item) (.item other)

theorem Item.allLiterals_append (front back : List Item) :
    Item.allLiterals (front ++ back) = Item.allLiterals front ++ Item.allLiterals back := by
  induction front with
  | nil => rfl
  | cons item rest ih => simp [ih]

theorem Node.listLiterals_append (front back : List Node) :
    Node.listLiterals (front ++ back) = Node.listLiterals front ++ Node.listLiterals back := by
  induction front with
  | nil => rfl
  | cons node rest ih => simp [ih]

def Exchanged (old new : Token) (first second : List Token) : Prop :=
  ∃ front back, first = front ++ old :: back ∧ second = front ++ new :: back

theorem Exchanged.between {old new : Token} {first second : List Token}
    (exchanged : Exchanged old new first second) (before behind : List Token) :
    Exchanged old new (before ++ (first ++ behind)) (before ++ (second ++ behind)) := by
  obtain ⟨front, back, rfl, rfl⟩ := exchanged
  exact ⟨before ++ front, back ++ behind, by simp, by simp⟩

section

variable {old new : Token}

theorem Node.Differs.literals {first second : Node} (differs : first.Differs old new second) :
    Exchanged old new first.literals second.literals := by
  induction differs with
  | literal => exact ⟨[], [], rfl, rfl⟩
  | item _ ih =>
      simp only [literals_item, literals_value]
      exact ih
  | items _ ih | object _ ih =>
      simp only [literals_items, literals_object, Item.allLiterals_append, allLiterals_cons]
      exact ih.between _ _
  | list _ ih =>
      simp only [literals_list, Node.listLiterals_append, listLiterals_cons]
      exact ih.between _ _

def Item.bound? (name : String) (item : Item) : Option String :=
  match item.keys, item.value with
  | key :: _, some (.literal token) => if key.unquoted == name then some token.unquoted else none
  | _, _ => none

theorem Item.property?_object (name : String) (keys : List Token) (opening closing : Position)
    (members : List Item) (assign : Option Position) (lead : List Comment) :
    (Item.mk keys (some (.object opening closing members)) assign lead).property? name =
      members.findSome? (Item.bound? name) := rfl

theorem Item.Differs.bound? {item other : Item} (differs : item.Differs old new other)
    (name : String) : other.bound? name = item.bound? name ∨
      item.bound? name = some old.unquoted ∧ other.bound? name = some new.unquoted := by
  cases differs with
  | @item keys value other assign lead inner =>
      cases inner with
      | literal =>
          cases keys with
          | nil => exact Or.inl rfl
          | cons key rest =>
              simp only [Item.bound?]
              split
              · exact Or.inr ⟨rfl, rfl⟩
              · exact Or.inl rfl
      | _ =>
          cases keys with
          | nil => exact Or.inl rfl
          | cons key rest => exact Or.inl rfl

theorem Item.Differs.property? {item other : Item} (differs : item.Differs old new other)
    (name : String) : other.property? name = item.property? name ∨
      item.property? name = some old.unquoted ∧ other.property? name = some new.unquoted := by
  cases differs with
  | @item keys value other assign lead inner =>
      cases inner with
      | @object opening closing front back member other inner =>
          simp only [Item.property?_object, List.findSome?_append, List.findSome?_cons]
          cases front.findSome? (Item.bound? name) with
          | some found => exact Or.inl rfl
          | none =>
              rcases Item.Differs.bound? inner name with same | ⟨before, behind⟩
              · rw [same]
                exact Or.inl rfl
              · rw [before, behind]
                exact Or.inr ⟨rfl, rfl⟩
      | _ => exact Or.inl rfl

end

end Document

/-- A provider goes by a literal of the item that declares it. -/
def NamedBy (path : String) (item : Item) (token : Token) (declared : TypedSection) : Prop :=
  item.property? "alias" = some token.unquoted ∧ declared.name = token.unquoted ∧
    itemFinding path item = .declared (.provider declared)

theorem keywordFinding_congr {item other : Item} {keyword : Keyword} (lead : other.lead = item.lead)
    (same : keyword = .provider → other.property? "alias" = item.property? "alias")
    (path : String) (first : Token) (rest : List Token) :
    keywordFinding path other keyword first rest = keywordFinding path item keyword first rest := by
  have documented : other.documentation = item.documentation := by
    rw [Item.documentation, Item.documentation, lead]
  cases keyword with
  | provider =>
      simp only [keywordFinding, providerFinding, namedSection, same rfl, documented]
  | resource | data =>
      match rest with
      | [] => rfl
      | [type] => rfl
      | type :: name :: rest => simp only [keywordFinding, typedSection, documented]
  | _ =>
      cases rest with
      | nil => rfl
      | cons name rest => simp only [keywordFinding, namedSection, documented]

theorem itemFinding_keyword {item : Item} {first : Token} {rest : List Token} {keyword : Keyword}
    (keys : item.keys = first :: rest) (word : first.kind = .ident)
    (known : Keyword.ofName? first.text = some keyword) (path : String) :
    itemFinding path item = keywordFinding path item keyword first rest := by
  simp [itemFinding, keys, word, known]

section

variable {old new : Token} {item other : Item}

theorem providerFinding_differs (differs : item.Differs old new other)
    (before : item.property? "alias" = some old.unquoted)
    (behind : other.property? "alias" = some new.unquoted) (path : String) (first : Token)
    (rest : List Token) :
    providerFinding path other first rest = providerFinding path item first rest ∨
      ∃ declared : TypedSection, declared.name = old.unquoted ∧
        providerFinding path item first rest = .declared (.provider declared) ∧
        providerFinding path other first rest =
          .declared (.provider { declared with name := new.unquoted }) := by
  have documented : other.documentation = item.documentation := by
    cases differs with
    | item _ => rfl
  cases rest with
  | nil =>
      left
      simp only [providerFinding, before, behind]
  | cons type rest =>
      right
      refine ⟨⟨type.unquoted, old.unquoted, type.position.filed path, item.documentation⟩,
        rfl, ?_, ?_⟩
      · simp only [providerFinding, before]
      · simp only [providerFinding, behind, documented]

/-- Another literal leaves what an item declares, unless it is the alias of a provider. -/
theorem itemFinding_differs (differs : item.Differs old new other) (path : String) :
    (∀ index : Index, index.addFinding (itemFinding path other) =
      index.addFinding (itemFinding path item)) ∨
      ∃ declared, NamedBy path item old declared ∧ itemFinding path other =
        .declared (.provider { declared with name := new.unquoted }) := by
  obtain ⟨keys, lead⟩ : other.keys = item.keys ∧ other.lead = item.lead := by
    cases differs with
    | item _ => exact ⟨rfl, rfl⟩
  cases listed : item.keys with
  | nil =>
      left
      intro index
      simp only [itemFinding, keys, listed, Index.addFinding]
  | cons first rest =>
      rw [listed] at keys
      by_cases word : first.kind = .ident
      · cases known : Keyword.ofName? first.text with
        | none =>
            left
            intro index
            simp only [itemFinding, keys, listed, known]
        | some keyword =>
            unfold NamedBy
            rw [itemFinding_keyword listed word known, itemFinding_keyword keys word known]
            by_cases aliased : keyword = .provider →
                other.property? "alias" = item.property? "alias"
            · left
              intro index
              rw [keywordFinding_congr lead aliased]
            · obtain ⟨rfl, changed⟩ := Classical.not_imp.mp aliased
              obtain ⟨before, behind⟩ := (differs.property? "alias").resolve_left changed
              rcases providerFinding_differs differs before behind path first rest with
                same | ⟨declared, name, found, renamed⟩
              · left
                intro index
                rw [keywordFinding, keywordFinding, same]
              · exact Or.inr ⟨declared, ⟨before, name, found⟩, renamed⟩
      · left
        intro index
        simp only [itemFinding, keys, listed, if_pos word]

namespace Index

theorem classify_append (index : Index) (path : String) (left right : List Item) :
    index.classify path (left ++ right) = (index.classify path left).classify path right := by
  simp only [classify, List.map_append, List.foldl_append]

theorem classify_cons (index : Index) (path : String) (item : Item) (rest : List Item) :
    index.classify path (item :: rest) =
      (index.addFinding (itemFinding path item)).classify path rest := rfl

theorem declare_provider (index : Index) (declared : TypedSection) (path : String)
    (items : List Item) :
    (index.addFinding (.declared (.provider declared))).classify path items =
      (index.merge { providers := [declared] }).merge (({} : Index).classify path items) := by
  have added : index.addFinding (.declared (.provider declared)) =
      index.merge { providers := [declared] } := by
    simp [addFinding, declare, merge]
  rw [added, ← merge_classify, merge_empty]

/-- The sections that a document declares change with one of its literals only if a provider goes
by that one. -/
theorem classify_differs (differs : item.Differs old new other) (index : Index) (path : String)
    (left right : List Item) :
    index.classify path (left ++ other :: right) = index.classify path (left ++ item :: right) ∨
      ∃ declared sections rest, NamedBy path item old declared ∧
        (index.classify path (left ++ item :: right)).providers = sections ++ declared :: rest ∧
        index.classify path (left ++ other :: right) =
          { index.classify path (left ++ item :: right) with
            providers := sections ++ { declared with name := new.unquoted } :: rest } := by
  simp only [classify_append, classify_cons]
  rcases itemFinding_differs differs path with same | ⟨declared, named, renamed⟩
  · left
    rw [same]
  · right
    refine ⟨declared, (index.classify path left).providers,
      (({} : Index).classify path right).providers, named, ?_, ?_⟩
    · rw [named.2.2, declare_provider]
      simp [merge]
    · rw [named.2.2, renamed, declare_provider, declare_provider]
      simp [merge]

end Index

end

def Document.Token.emptied (token : Token) (kind : Document.TokenKind) : Token :=
  ⟨kind, "\"\"", token.position⟩

@[simp] theorem Document.Token.unquoted_emptied (token : Token) (kind : Document.TokenKind) :
    (token.emptied kind).unquoted = "" := by
  have quotes : Document.unquote "\"\"".toList = [] := by decide
  simp only [Token.unquoted, emptied, quotes, String.ofList_nil]

theorem literalMentions_emptied (path : String) (token : Token) (kind : Document.TokenKind) :
    literalMentions path (token.emptied kind) = .ok [] := by
  have quotes : "\"\"".toList = ['"', '"'] := by decide
  have parts : ∀ point, (Template.scan point ['"', '"']).parts = .ok [.text "\"\"" point] :=
    fun point => by rfl
  simp only [literalMentions, Document.Token.emptied, Template.parseAt, quotes,
    Template.parseChars, parts, Template.Part.nodes]
  simp

theorem literalMentions_malformed {path : String} {token : Token} {error : Template.Error}
    (rejected : Template.parseAt token.position.toPoint token.text = .error (.faulty error)) :
    literalMentions path token = .ok [.malformed error.message (error.point.filed path)] := by
  rw [literalMentions, rejected]

theorem readLiterals_append (path : String) (front back : List Token) :
    readLiterals path (front ++ back) = match (readLiterals path front).2 with
      | none =>
        ((readLiterals path front).1 ++ (readLiterals path back).1, (readLiterals path back).2)
      | some digits => ((readLiterals path front).1, some digits) := by
  induction front with
  | nil => rfl
  | cons token rest ih =>
      rw [List.cons_append, readLiterals, readLiterals]
      cases literalMentions path token with
      | error digits => rfl
      | ok mentions =>
          simp only [ih]
          cases (readLiterals path rest).2 with
          | none => simp only [List.append_assoc]
          | some digits => rfl

/-- What a document mentions if one of its literals mentions what is given. -/
theorem readLiterals_between {path : String} {front back : List Token} {token : Token}
    {mentions : List Mention} (read : literalMentions path token = .ok mentions)
    (ahead : (readLiterals path front).2 = none) :
    readLiterals path (front ++ token :: back) =
      ((readLiterals path front).1 ++ (mentions ++ (readLiterals path back).1),
        (readLiterals path back).2) := by
  simp only [readLiterals_append, ahead, readLiterals, read]

theorem readLiterals_ahead {path : String} {front back : List Token}
    (whole : (readLiterals path (front ++ back)).2 = none) :
    (readLiterals path front).2 = none := by
  rw [readLiterals_append] at whole
  cases ahead : (readLiterals path front).2 with
  | none => rfl
  | some digits =>
      rw [ahead] at whole
      cases whole

theorem Document.Node.Differs.of_items {old new : Token} {items others : List Item}
    (differs : Node.Differs old new (.items items) (.items others)) :
    ∃ left item other right, items = left ++ item :: right ∧ others = left ++ other :: right ∧
      item.Differs old new other := by
  cases differs with
  | items inner => exact ⟨_, _, _, _, rfl, rfl, inner⟩

theorem collectFile_mentions {path : String} {file : File} {mentions : List Mention}
    (read : readLiterals path file.root.literals = (mentions, none)) (index : Index)
    (strict : Bool) :
    (index.collectFile { strict := strict } path file).index =
      (index.classify path file.items).addMentions strict mentions := by
  have whole : (readLiterals path file.root.literals).2 = none := by rw [read]
  rw [collectFile_index whole, read]
  rfl

namespace Index

variable (index : Index) (strict : Bool) (front back : List Mention)

theorem problems_malformed (message : String) (location : Position) :
    (index.addMentions strict (front ++ ([.malformed message location] ++ back))).problems =
      (index.addMentions strict front).problems ++
        ⟨message, location⟩ :: back.filterMap (Mention.problem? strict) := by
  simp [addMentions_eq, Mention.problem?]

theorem addMentions_without (message : String) (location : Position) :
    index.addMentions strict (front ++ ([] ++ back)) =
      { index.addMentions strict (front ++ ([.malformed message location] ++ back)) with
        problems := (index.addMentions strict front).problems ++
          back.filterMap (Mention.problem? strict) } := by
  have entries :
      (front ++ ([Mention.malformed message location] ++ back)).filterMap Mention.entry? =
        (front ++ ([] ++ back)).filterMap Mention.entry? := by
    simp only [List.filterMap_append]
    rfl
  simp only [addMentions_eq, entries]
  simp

theorem addMentions_providers (providers : List TypedSection) (mentions : List Mention) :
    ({ index with providers := providers }).addMentions strict mentions =
      { index.addMentions strict mentions with providers := providers } ∧
      (index.addMentions strict mentions).providers = index.providers := by
  rw [addMentions_eq, addMentions_eq]
  exact ⟨rfl, rfl⟩

end Index

theorem Template.faulty_of_match {result : Except Template.Failure Template.Node}
    (failed : (match result with | .error (.faulty _) => true | _ => false) = true) :
    ∃ error, result = .error (.faulty error) := by
  split at failed
  · exact ⟨_, rfl⟩
  · cases failed

/-- Collecting a tree with a literal that is no template, and the same tree with an empty string in
its place: there is one problem more in the place of the literal, and nothing else is different but
the name of a provider that goes by the literal. -/
theorem collectFile_malformed (index : Index) (strict : Bool) (path : String) (first second : File)
    (old : Token) (kind : Document.TokenKind) (error : Template.Error)
    (differs : first.root.Differs old (old.emptied kind) second.root)
    (rejected : Template.parseAt old.position.toPoint old.text = .error (.faulty error))
    (whole : (index.collectFile { strict := strict } path first).oversized = none) :
    ∃ front back after, first.root.literals = front ++ old :: back ∧
      second.root.literals = front ++ old.emptied kind :: back ∧
      (index.collectFile { strict := strict } path first).index.problems =
        (resolveAll strict path index [] front).index.problems ++
          ⟨error.message, error.point.filed path⟩ :: after ∧
      (index.collectFile { strict := strict } path second).oversized = none ∧
      let expected := { (index.collectFile { strict := strict } path first).index with
        problems := (resolveAll strict path index [] front).index.problems ++ after }
      (index.collectFile { strict := strict } path second).index = expected ∨
        ∃ item ∈ first.items, ∃ other ∈ second.items, item.Differs old (old.emptied kind) other ∧
          ∃ declared sections rest, NamedBy path item old declared ∧
            expected.providers = sections ++ declared :: rest ∧
            (index.collectFile { strict := strict } path second).index = { expected with
              providers := sections ++ { declared with name := "" } :: rest } := by
  obtain ⟨front, back, literals, others⟩ := differs.literals
  rw [collectFile_oversized] at whole
  have ahead : (readLiterals path front).2 = none := readLiterals_ahead (literals ▸ whole)
  have read : readLiterals path (front ++ old :: back) = _ :=
    readLiterals_between (literalMentions_malformed rejected) ahead
  have reread : readLiterals path (front ++ old.emptied kind :: back) = _ :=
    readLiterals_between (literalMentions_emptied path old kind) ahead
  rw [← literals] at read
  rw [← others] at reread
  have behind : (readLiterals path back).2 = none := by
    rw [read] at whole
    exact whole
  rw [behind] at read reread
  have run := collectFile_mentions read index strict
  have rerun := collectFile_mentions reread index strict
  have before : (resolveAll strict path index [] front).index.problems =
      ((index.classify path first.items).addMentions strict
        (readLiterals path front).1).problems := by
    rw [resolveAll_eq, Index.addMentions_eq, Index.addMentions_eq,
      (classify_records index path first.items).2]
  refine ⟨front, back, (readLiterals path back).1.filterMap (Mention.problem? strict),
    literals, others, ?_, ?_, ?_⟩
  · rw [run, before]
    exact Index.problems_malformed _ strict _ _ error.message (error.point.filed path)
  · rw [collectFile_oversized, reread]
  · rw [run, rerun, before, ← Index.addMentions_without]
    intro expected
    obtain ⟨left, item, other, right, items, changed, inner⟩ := differs.of_items
    rcases Index.classify_differs inner index path left right with
      same | ⟨declared, sections, rest, named, providers, renamed⟩
    · left
      rw [changed, same, ← items]
    · obtain ⟨kept, remains⟩ := Index.addMentions_providers (index.classify path first.items) strict
        (sections ++ { declared with name := "" } :: rest)
        ((readLiterals path front).1 ++ ([] ++ (readLiterals path back).1))
      right
      refine ⟨item, by simp [items], other, by simp [changed], inner, declared, sections, rest,
        named, ?_, ?_⟩
      · rw [← providers, ← items]
        exact remains
      · rw [changed, renamed, Document.Token.unquoted_emptied, ← items]
        exact kept

theorem collectFile_malformed_list :
    let good : Token := ⟨.string, "\"$\x7bvar.a\x7d\"", ⟨"", 5, 1, 6⟩⟩
    let bad : Token := ⟨.string, "\"$\x7bvar.b\x7d $\x7b\x7d\"", ⟨"", 17, 1, 18⟩⟩
    let tree (last : Token) : File := ⟨[⟨[⟨.ident, "x", .start⟩],
      some (.list ⟨"", 4, 1, 5⟩ ⟨"", 31, 1, 32⟩ [.literal good, .literal last]),
      some ⟨"", 2, 1, 3⟩, []⟩], []⟩
    let first := ({} : Index).collectFile {} "main.tf" (tree bad)
    let second := ({} : Index).collectFile {} "main.tf" (tree (bad.emptied .string))
    ∃ error, Template.parseAt bad.position.toPoint bad.text = .error (.faulty error) ∧
      first.oversized = none ∧ second.oversized = none ∧
      first.index.problems = [⟨error.message, error.point.filed "main.tf"⟩] ∧
      second.index = { first.index with problems := [] } ∧
      first.index.references.map Prod.fst = ["a"] := by
  intro good bad tree first second
  have whole : first.oversized = none := by decide +kernel
  have names : first.index.references.map Prod.fst = ["a"] := by decide +kernel
  have single : first.index.problems.length = 1 := by decide +kernel
  have differs : (tree bad).root.Differs bad (bad.emptied .string)
      (tree (bad.emptied .string)).root :=
    @Node.Differs.items _ _ [] [] _ _
      (Node.Differs.item (@Node.Differs.list _ _ _ _ [.literal good] [] _ _ Node.Differs.literal))
  obtain ⟨error, rejected⟩ : ∃ error, Template.parseAt bad.position.toPoint bad.text =
      .error (.faulty error) := Template.faulty_of_match (by decide +kernel)
  obtain ⟨front, back, after, _, _, problems, rerun, outcome⟩ :=
    collectFile_malformed {} false "main.tf" (tree bad) (tree (bad.emptied .string)) bad .string
      error differs rejected whole
  have alone : (resolveAll false "main.tf" {} [] front).index.problems = [] ∧ after = [] := by
    have sizes := congrArg List.length problems
    rw [single, List.length_append, List.length_cons] at sizes
    exact ⟨List.length_eq_zero_iff.mp (by omega), List.length_eq_zero_iff.mp (by omega)⟩
  simp only [alone.1, alone.2, List.nil_append] at problems outcome
  refine ⟨error, rejected, whole, rerun, problems, ?_, names⟩
  rcases outcome with same | ⟨item, member, _, _, _, _, _, _, named, _⟩
  · exact same
  · rw [List.mem_singleton.mp member] at named
    cases named.1

theorem collectFile_malformed_alias :
    let old : Token := ⟨.string, "\"$\x7b\x7d\"", ⟨"", 25, 1, 26⟩⟩
    let tree (named : Token) : File := ⟨[⟨[⟨.ident, "provider", .start⟩,
        ⟨.string, "\"aws\"", ⟨"", 9, 1, 10⟩⟩],
      some (.object ⟨"", 15, 1, 16⟩ ⟨"", 31, 1, 32⟩
        [⟨[⟨.ident, "alias", ⟨"", 17, 1, 18⟩⟩], some (.literal named),
          some ⟨"", 23, 1, 24⟩, []⟩]), none, []⟩], []⟩
    let first := ({} : Index).collectFile {} "main.tf" (tree old)
    let second := ({} : Index).collectFile {} "main.tf" (tree (old.emptied .string))
    (tree old).root.Differs old (old.emptied .string) (tree (old.emptied .string)).root ∧
      (∃ error, Template.parseAt old.position.toPoint old.text = .error (.faulty error)) ∧
      first.oversized = none ∧ second.oversized = none ∧
      ∀ problems, second.index ≠ { first.index with problems := problems } := by
  intro old tree first second
  have whole : first.oversized = none ∧ second.oversized = none := by decide +kernel
  refine ⟨?_, Template.faulty_of_match (by decide +kernel), whole.1, whole.2, ?_⟩
  · exact @Node.Differs.items _ _ [] [] _ _ (Node.Differs.item
      (@Node.Differs.object _ _ _ _ [] [] _ _ (Node.Differs.item Node.Differs.literal)))
  · intro problems same
    have before : first.index.providers.map TypedSection.name = ["$\x7b\x7d"] := by decide +kernel
    have behind : second.index.providers.map TypedSection.name = [""] := by decide +kernel
    rw [same, before] at behind
    exact absurd behind (by decide)

end ConfigIndex
