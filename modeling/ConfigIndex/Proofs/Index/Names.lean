import ConfigIndex.Proofs.Document.Tokens
import ConfigIndex.Proofs.Index.Declared
import ConfigIndex.Proofs.Index.Sections

/-!
The names, types and aliases of an index as they stand in the documents. A string goes by what is
between its quotes, but for an escaped quote at the end, which is lost.
-/

namespace ConfigIndex

open Document (Token File Item Content)

/-- The texts that a declaration is known by, each with the token of its item that it comes from: a
key or, for the alias of a provider, a literal in the body. -/
def Declaration.sources (item : Item) : Declaration → List (String × (Token → Prop))
  | .variable declared | .module declared | .output declared =>
    [(declared.name, (item.keys[1]? = some ·))]
  | .defaultProvider declared => [(declared.name, (item.keys[0]? = some ·))]
  | .resource declared | .dataResource declared =>
    [(declared.type, (item.keys[1]? = some ·)), (declared.name, (item.keys[2]? = some ·))]
  | .provider declared =>
    [(declared.type, (item.keys[1]? = some ·)), (declared.name, item.Assigns "alias")]

namespace Document.Item

theorem mem_tokens_of_key {item : Item} {token : Token} (key : token ∈ item.keys) :
    token ∈ item.tokens := by
  match item with
  | ⟨keys, some value, assign, lead⟩ => exact List.mem_append_left _ key
  | ⟨keys, none, assign, lead⟩ => exact key

theorem mem_tokens_of_body {item member : Item} {token : Token} (inside : member ∈ item.body)
    (among : token ∈ member.tokens) : token ∈ item.tokens := by
  obtain ⟨keys, value, assign, lead⟩ := item
  cases value with
  | none => cases inside
  | some node =>
      cases node with
      | object opening closing members =>
          exact List.mem_append_right keys (Item.token_of_mem inside among)
      | _ => cases inside

theorem Binds.mem_tokens {member : Item} {name : String} {literal : Token}
    (binds : member.Binds name literal) : literal ∈ member.tokens := by
  obtain ⟨key, rest, -, -, value⟩ := binds
  match member with
  | ⟨keys, some node, assign, lead⟩ =>
      cases value
      exact List.mem_append_right keys (List.mem_singleton.mpr rfl)

theorem Assigns.mem_tokens {item : Item} {name : String} {literal : Token}
    (assigns : item.Assigns name literal) : literal ∈ item.tokens := by
  obtain ⟨front, member, back, cut, binds, -⟩ := assigns
  have inside : member ∈ item.body := by
    rw [cut]
    simp
  exact mem_tokens_of_body inside binds.mem_tokens

end Document.Item

/-- A text is what a token of an item reads without its quotes. There is such a token. -/
def Spelled (item : Item) (source : String × (Token → Prop)) : Prop :=
  (∃ token, source.2 token) ∧
    ∀ token, source.2 token → token ∈ item.tokens ∧ source.1 = token.unquoted

theorem spelled_key {item : Item} {index : Nat} {key : Token}
    (found : item.keys[index]? = some key) :
    Spelled item (key.unquoted, (item.keys[index]? = some ·)) := by
  refine ⟨⟨key, found⟩, fun token same => ⟨?_, ?_⟩⟩
  · exact Item.mem_tokens_of_key (List.mem_of_getElem? same)
  · rw [Option.some.inj (found.symm.trans same)]

theorem spelled_alias {item : Item} {name : String} {literal : Token}
    (assigns : item.Assigns name literal) :
    Spelled item (literal.unquoted, item.Assigns name) := by
  refine ⟨⟨literal, assigns⟩, fun token again => ⟨again.mem_tokens, ?_⟩⟩
  have first := Item.property?_eq_some.mpr ⟨literal, assigns, rfl⟩
  have second := Item.property?_eq_some.mpr ⟨token, again, rfl⟩
  exact Option.some.inj (first.symm.trans second)

theorem sources_spelled {path : String} {item : Item} {declaration : Declaration}
    (found : itemFinding path item = .declared declaration) :
    ∀ source ∈ declaration.sources item, Spelled item source := by
  cases Item.amounts_iff.mpr found with
  | named member opens second =>
      simp only [namedWords, List.mem_cons, Prod.mk.injEq, List.not_mem_nil, or_false] at member
      rcases member with ⟨rfl, rfl⟩ | ⟨rfl, rfl⟩ | ⟨rfl, rfl⟩ <;>
        exact List.forall_mem_singleton.mpr (spelled_key second)
  | typed member opens second third =>
      simp only [typedWords, List.mem_cons, Prod.mk.injEq, List.not_mem_nil, or_false] at member
      rcases member with ⟨rfl, rfl⟩ | ⟨rfl, rfl⟩ <;>
        exact List.forall_mem_cons.mpr ⟨spelled_key second,
          List.forall_mem_singleton.mpr (spelled_key third)⟩
  | @defaultProvider first opens free =>
      have plain : "provider" = first.unquoted := by
        rw [Token.unquoted, opens.2.2]
        decide
      refine List.forall_mem_singleton.mpr ?_
      rw [plain]
      exact spelled_key opens.1
  | provider opens assigns second =>
      exact List.forall_mem_cons.mpr ⟨spelled_key second,
        List.forall_mem_singleton.mpr (spelled_alias assigns)⟩

/-- What a document declares goes by texts of its items. A text that comes from a string is what
stands between the quotes of that, except that an escaped quote at its end is left out. -/
theorem collect_names (index : Index) (rules : Rules) (path : String) (content : Content)
    (file : File) (read : content.parse = .ok file) :
    (∀ listing, (index.collect rules path content).1.index.listed listing =
      index.listed listing ++ listing.of (file.items.map (itemFinding path))) ∧
    ∀ item ∈ file.items, ∀ declaration, itemFinding path item = .declared declaration →
      ∀ text source, (text, source) ∈ declaration.sources item →
        (∃ token, source token) ∧ ∀ token : Token, source token → token.kind = .string →
          ∃ body, token.text.toList = '"' :: (body ++ ['"']) ∧
            ((∀ front, body ≠ front ++ ['"']) ∧ text.toList = body ∨
              ∃ before, body = before ++ ['\\', '"'] ∧ text.toList = before ++ ['\\']) := by
  constructor
  · intro listing
    rw [Index.collect_eq_collectFile read, Index.listed_collectFile, Index.listed_classify]
  · intro item listed declaration found text source member
    obtain ⟨present, spelled⟩ := sources_spelled found _ member
    refine ⟨present, fun token taken kind => ?_⟩
    have same : text = token.unquoted := (spelled token taken).2
    have among := (spelled token taken).1
    obtain ⟨chars, parsed⟩ := content.parse_parseChars read
    obtain ⟨body, cut, enclosable⟩ :=
      Document.parseChars_string_encloses parsed (Item.token_of_mem listed among) kind
    refine ⟨body, cut, ?_⟩
    have plain : text.toList = Document.unquote ('"' :: (body ++ ['"'])) := by
      rw [same, Token.unquoted, String.toList_ofList, cut]
    rw [plain]
    exact Document.unquote_enclosed enclosable

theorem collect_names_alias :
    let content := Content.text "provider \"p\" \x7b alias = \"a\\\"b\" \x7d"
    ∃ file, content.parse = .ok file ∧
      (({} : Index).collect {} "main.tf" content).1.index.providers.map
        (fun declared => (declared.type, declared.name)) = [("p", "a\\\"b")] ∧
      (∀ listing, (({} : Index).collect {} "main.tf" content).1.index.listed listing =
        ({} : Index).listed listing ++
          listing.of (file.items.map (itemFinding "main.tf"))) ∧
      ∀ item ∈ file.items, ∀ declaration, itemFinding "main.tf" item = .declared declaration →
        ∀ text source, (text, source) ∈ declaration.sources item →
          (∃ token, source token) ∧ ∀ token : Token, source token → token.kind = .string →
            ∃ body, token.text.toList = '"' :: (body ++ ['"']) ∧
              ((∀ front, body ≠ front ++ ['"']) ∧ text.toList = body ∨
                ∃ before, body = before ++ ['\\', '"'] ∧ text.toList = before ++ ['\\']) := by
  intro content
  have recorded : (({} : Index).collect {} "main.tf" content).1.index.providers.map
      (fun declared => (declared.type, declared.name)) = [("p", "a\\\"b")] := by
    decide +kernel
  have accepted : content.parse.toOption.isSome = true := by decide +kernel
  cases read : content.parse with
  | error error =>
      rw [read] at accepted
      cases accepted
  | ok file => exact ⟨file, rfl, recorded, collect_names {} {} "main.tf" content file read⟩

/-- An escaped quote at the end of a name goes with the quotes around it. -/
theorem collect_names_escaped :
    let content := Content.text "variable \"a\\\"\" \x7b\x7d"
    (content.parse.toOption.map fun file => file.items.map Item.keys) =
        some [[⟨.ident, "variable", ⟨"", 0, 1, 1⟩⟩, ⟨.string, "\"a\\\"\"", ⟨"", 9, 1, 10⟩⟩]] ∧
      (({} : Index).collect {} "main.tf" content).1.index.inputVariables =
        [⟨"a\\", ⟨"main.tf", 9, 1, 10⟩, []⟩] ∧
      "\"a\\\"\"" ≠ "\"" ++ "a\\" ++ "\"" := by
  intro content
  exact ⟨by decide +kernel, by decide +kernel, by decide⟩

end ConfigIndex
