import ConfigIndex.Proofs.Document.Bytes
import ConfigIndex.Proofs.Document.Positions
import ConfigIndex.Proofs.Index.Mentions

/-!
Where the declarations of an index stand: each at one key of its item, and at the bytes of that key
in the file.
-/

namespace ConfigIndex

open Document (Token File Item)

namespace Declaration

def location : Declaration → Position
  | .variable declared | .defaultProvider declared | .module declared | .output declared =>
    declared.location
  | .provider declared | .resource declared | .dataResource declared => declared.location

/-- The key that a declaration is found at, out of those of its item: its name, the type of a
provider with an alias, or the keyword of a provider without one. -/
def anchor? (declaration : Declaration) (keys : List Token) : Option Token :=
  match declaration with
  | .defaultProvider _ => keys[0]?
  | .variable _ | .module _ | .output _ | .provider _ => keys[1]?
  | .resource _ | .dataResource _ => keys[2]?

theorem anchor?_mem {declaration : Declaration} {keys : List Token} {token : Token}
    (anchor : declaration.anchor? keys = some token) : token ∈ keys := by
  cases declaration with
  | _ => exact List.mem_of_getElem? anchor

end Declaration

theorem keywordFinding_anchor {path : String} {item : Item} {keyword : Keyword} {first : Token}
    {rest : List Token} {declaration : Declaration}
    (found : keywordFinding path item keyword first rest = .declared declaration) :
    ∃ token, declaration.anchor? (first :: rest) = some token ∧
      declaration.location = token.position.filed path := by
  unfold keywordFinding at found
  split at found
  case h_6 =>
    unfold providerFinding at found
    split at found
    · cases found
      exact ⟨first, rfl, rfl⟩
    · cases found
    · cases found
      exact ⟨_, rfl, rfl⟩
  case h_7 => cases found
  all_goals
    cases found
    exact ⟨_, rfl, rfl⟩

theorem itemFinding_anchor {path : String} {item : Item} {declaration : Declaration}
    (found : itemFinding path item = .declared declaration) :
    ∃ token, declaration.anchor? item.keys = some token ∧
      declaration.location = token.position.filed path := by
  unfold itemFinding at found
  split at found
  · cases found
  · rename_i first rest keys
    split at found
    · cases found
    · split at found
      · cases found
      · rw [keys]
        exact keywordFinding_anchor found

namespace Index

def declarations (index : Index) : List Declaration :=
  index.inputVariables.map .variable ++ index.defaultProviders.map .defaultProvider ++
    index.providers.map .provider ++ index.resources.map .resource ++
    index.dataResources.map .dataResource ++ index.modules.map .module ++
    index.outputs.map .output

theorem mem_declarations_declare {index : Index} {added declaration : Declaration} :
    declaration ∈ (index.declare added).declarations ↔
      declaration ∈ index.declarations ∨ declaration = added := by
  cases added with
  | _ =>
      simp only [declare, declarations, List.map_append, List.map_cons, List.map_nil,
        List.mem_append, List.mem_cons, List.not_mem_nil, or_false]
      grind

/-- The declarations of a document are those of its items. -/
theorem mem_declarations_classify {path : String} {items : List Item} {declaration : Declaration} :
    ∀ {index : Index}, declaration ∈ (index.classify path items).declarations ↔
      declaration ∈ index.declarations ∨
        ∃ item ∈ items, itemFinding path item = .declared declaration := by
  unfold classify
  induction items with
  | nil => simp
  | cons item rest ih =>
      intro index
      rw [List.map_cons, List.foldl_cons, ih]
      simp only [List.mem_cons, exists_eq_or_imp]
      rw [← or_assoc]
      apply or_congr_left
      cases found : itemFinding path item with
      | declared added =>
          rw [addFinding, mem_declarations_declare, Finding.declared.injEq]
          exact or_congr_right eq_comm
      | _ => simp [addFinding]

theorem collectFile_declarations (index : Index) (rules : Rules) (path : String) (file : File) :
    (index.collectFile rules path file).index.declarations =
      (index.classify path file.items).declarations := by
  simp only [collectFile, resolveAll_eq, addMentions_eq]
  split
  · rfl
  · rfl

end Index

namespace Document

theorem Item.span_of_key {token : Token} {item : Item} (key : token ∈ item.keys) :
    token.span ∈ item.spans := by
  match item with
  | ⟨keys, some value, assign, lead⟩ => simp [Item.spans, List.mem_map_of_mem key]
  | ⟨keys, none, assign, lead⟩ => simp [Item.spans, List.mem_map_of_mem key]

theorem Item.span_of_mem {span : Span} {item : Item} {items : List Item} (member : item ∈ items)
    (inside : span ∈ item.spans) : span ∈ Item.allSpans items := by
  induction items with
  | nil => cases member
  | cons first rest ih =>
      rcases List.mem_cons.mp member with rfl | later
      · exact List.mem_append_left _ inside
      · exact List.mem_append_right _ (ih later)

/-- Each key of an item at the top of a document stands in its text. -/
theorem key_occurs {text : List Char} {file : File} (read : parseChars text = .ok file)
    {item : Item} (member : item ∈ file.items) {token : Token} (key : token ∈ item.keys) :
    Position.Occurs .start text token.position token.text.toList :=
  (parseChars_tiled read).span_occurs token.span
    (Item.span_of_mem member (Item.span_of_key key))

end Document

/-- A word stands at the byte that its position counts to. -/
theorem Position.Occurs.encoded {text word : List Char} {position : Position}
    (occurs : Occurs .start text position word) :
    ∃ offset : Nat, position.offset = offset ∧
      Utf8.encode word <+: (Utf8.encode text).drop offset := by
  obtain ⟨front, rest, rfl, rfl⟩ := occurs
  have denotes := denotes_advanceBy front (word ++ rest)
  refine ⟨(Utf8.encode front).length, ?_, ?_⟩
  · rw [denotes.2, Utf8.length_encode, List.take_left]
  · rw [Utf8.encode_append, List.drop_left, Utf8.encode_append]
    exact List.prefix_append _ _

/-- Every declaration of a file stands at a key of one of its items, and its offset leads to that
key in the bytes of the file. Offsets count from behind the mark that the file may start with. -/
theorem collect_declared (bytes : List UInt8) (rules : Rules) (path : String)
    (accepted : (({} : Index).collect rules path (.bytes bytes)).2 = none) :
    ∃ file, Document.parseBytes bytes = .ok file ∧
      ∀ declaration ∈
          (({} : Index).collect rules path (.bytes bytes)).1.index.declarations,
        ∃ item ∈ file.items, itemFinding path item = .declared declaration ∧
          ∃ (token : Token) (offset : Nat), declaration.anchor? item.keys = some token ∧
            declaration.location = token.position.filed path ∧
            declaration.location.offset = offset ∧
            Utf8.encode token.text.toList <+: bytes.drop (Utf8.markSize bytes + offset) := by
  cases read : Document.parseBytes bytes with
  | error error => simp [Index.collect, Document.Content.parse, read] at accepted
  | ok file =>
      refine ⟨file, rfl, ?_⟩
      simp only [Index.collect, Document.Content.parse, read, Index.collectFile_declarations]
      intro declaration member
      rcases Index.mem_declarations_classify.mp member with before | ⟨item, listed, found⟩
      · cases before
      · obtain ⟨token, anchor, place⟩ := itemFinding_anchor found
        obtain ⟨text, same, parsed⟩ := Document.parseBytes_eq_ok read
        have key := Declaration.anchor?_mem anchor
        obtain ⟨offset, counted, starts⟩ := (Document.key_occurs parsed listed key).encoded
        refine ⟨item, listed, found, token, offset, anchor, place, ?_, ?_⟩
        · rw [place]
          exact counted
        · rw [← List.drop_drop, Utf8.drop_markSize, ← same]
          exact starts

theorem collect_declared_comment :
    let bytes := Utf8.encode "# R\u00e9gion\nvariable \"x\" \x7b\x7d\n".toList
    (({} : Index).collect {} "main.tf" (.bytes bytes)).2 = none ∧
      (({} : Index).collect {} "main.tf" (.bytes bytes)).1.index.declarations =
        [.variable ⟨"x", ⟨"main.tf", 19, 2, 10⟩, ["# R\u00e9gion"]⟩] ∧
      ∃ file, Document.parseBytes bytes = .ok file ∧
        ∀ declaration ∈
            (({} : Index).collect {} "main.tf" (.bytes bytes)).1.index.declarations,
          ∃ item ∈ file.items, itemFinding "main.tf" item = .declared declaration ∧
            ∃ (token : Token) (offset : Nat), declaration.anchor? item.keys = some token ∧
              declaration.location = token.position.filed "main.tf" ∧
              declaration.location.offset = offset ∧
              Utf8.encode token.text.toList <+: bytes.drop (Utf8.markSize bytes + offset) := by
  intro bytes
  have accepted : (({} : Index).collect {} "main.tf" (.bytes bytes)).2 = none := by
    decide +kernel
  exact ⟨accepted, by decide +kernel, collect_declared bytes {} "main.tf" accepted⟩

/-- With a mark in front, the offset of a declaration leads three bytes short of its key. -/
theorem collect_declared_marked :
    let bytes := [0xef, 0xbb, 0xbf] ++ Utf8.encode "variable \"a\" \x7b\x7d".toList
    let collected := ({} : Index).collect {} "main.tf" (.bytes bytes)
    collected.2 = none ∧
      collected.1.index.declarations = [.variable ⟨"a", ⟨"main.tf", 9, 1, 10⟩, []⟩] ∧
      ¬Utf8.encode "\"a\"".toList <+: bytes.drop 9 := by
  intro bytes collected
  exact ⟨by decide +kernel, by decide +kernel, by decide +kernel⟩

end ConfigIndex
