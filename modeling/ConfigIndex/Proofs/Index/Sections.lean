import ConfigIndex.Proofs.Index.History
import ConfigIndex.Proofs.Index.Malformed
import Mathlib.Data.List.Forall2

/-!
What the items at the top of a document add to an index: a record in one of its sections, a warning
or nothing, each item by itself and in their order, behind all that is there already.
-/

namespace ConfigIndex

open Document (Token File Node Item)

namespace Document.Item

def body (item : Item) : List Item :=
  match item.value with
  | some (.object _ _ members) => members
  | _ => []

/-- An item of a body that gives a literal to a name, which may be quoted. Keys behind the first one
do not count. -/
def Binds (member : Item) (name : String) (literal : Token) : Prop :=
  ∃ key rest, member.keys = key :: rest ∧ key.unquoted = name ∧
    member.value = some (.literal literal)

def Assigns (item : Item) (name : String) (literal : Token) : Prop :=
  ∃ front member back, item.body = front ++ member :: back ∧ member.Binds name literal ∧
    ∀ earlier ∈ front, ∀ other, ¬earlier.Binds name other

theorem bound?_eq_some {name value : String} {member : Item} :
    member.bound? name = some value ↔
      ∃ literal, member.Binds name literal ∧ literal.unquoted = value := by
  unfold bound? Binds
  split
  · rename_i key rest token keys assigned
    rw [keys, assigned]
    constructor
    · intro found
      split at found
      · rename_i same
        exact ⟨token, ⟨key, rest, rfl, by simpa using same, rfl⟩, Option.some.inj found⟩
      · cases found
    · rintro ⟨literal, ⟨other, others, same, named, value⟩, rfl⟩
      cases same
      cases value
      simp [named]
  · rename_i apart
    simp only [reduceCtorEq, false_iff]
    rintro ⟨literal, ⟨key, rest, keys, -, assigned⟩, -⟩
    exact apart key rest literal keys assigned

theorem bound?_eq_none {name : String} {member : Item} :
    member.bound? name = none ↔ ∀ literal, ¬member.Binds name literal := by
  cases found : member.bound? name with
  | none =>
      simp only [true_iff]
      intro literal binds
      rw [bound?_eq_some.mpr ⟨literal, binds, rfl⟩] at found
      cases found
  | some value =>
      obtain ⟨literal, binds, -⟩ := bound?_eq_some.mp found
      simp only [reduceCtorEq, false_iff]
      exact fun free => free literal binds

theorem property?_eq (item : Item) (name : String) :
    item.property? name = item.body.findSome? (bound? name) := by
  obtain ⟨keys, value, assign, lead⟩ := item
  cases value with
  | none => rfl
  | some node =>
      cases node with
      | _ => rfl

theorem property?_eq_none {item : Item} {name : String} :
    item.property? name = none ↔ ∀ member ∈ item.body, ∀ literal, ¬member.Binds name literal := by
  rw [property?_eq, List.findSome?_eq_none_iff]
  exact forall₂_congr fun member _ => bound?_eq_none

theorem property?_eq_some {item : Item} {name value : String} :
    item.property? name = some value ↔
      ∃ literal, item.Assigns name literal ∧ literal.unquoted = value := by
  rw [property?_eq, List.findSome?_eq_some_iff]
  constructor
  · rintro ⟨front, member, back, cut, found, free⟩
    obtain ⟨literal, binds, same⟩ := bound?_eq_some.mp found
    exact ⟨literal, ⟨front, member, back, cut, binds,
      fun earlier before => bound?_eq_none.mp (free earlier before)⟩, same⟩
  · rintro ⟨literal, ⟨front, member, back, cut, binds, free⟩, same⟩
    exact ⟨front, member, back, cut, bound?_eq_some.mpr ⟨literal, binds, same⟩,
      fun earlier before => bound?_eq_none.mpr (free earlier before)⟩

/-- The comments of an item in their order. Those without a text do not count. -/
def remarks (item : Item) : List String :=
  (item.lead.filter fun comment => comment.text ≠ "").map (·.text)

theorem documentation_eq (item : Item) : item.documentation = item.remarks := by
  rw [documentation, remarks, List.filter_map]
  congr 2
  funext comment
  rw [Bool.eq_iff_iff]
  simp

def Opens (item : Item) (word : String) (first : Token) : Prop :=
  item.keys[0]? = some first ∧ first.kind = .ident ∧ first.text = word

end Document.Item

def namedWords : List (String × (NamedSection → Declaration)) :=
  [("variable", .variable), ("module", .module), ("output", .output)]

def typedWords : List (String × (TypedSection → Declaration)) :=
  [("resource", .resource), ("data", .dataResource)]

/-- What an item at the top of the document at `path` amounts to. -/
inductive Document.Item.Amounts (path : String) (item : Item) : Finding → Prop
  | keyless : item.keys = [] → Amounts path item (.keyless item.position)
  | quoted {first} : item.keys[0]? = some first → first.kind ≠ .ident → Amounts path item .nothing
  | foreign {word first} : item.Opens word first →
      word ∉ "provider" :: namedWords.map Prod.fst ++ typedWords.map Prod.fst →
      Amounts path item .nothing
  | named {word declare first name} : (word, declare) ∈ namedWords → item.Opens word first →
      item.keys[1]? = some name →
      Amounts path item
        (.declared (declare ⟨name.unquoted, name.position.filed path, item.remarks⟩))
  | nameless {word declare first} : (word, declare) ∈ namedWords → item.Opens word first →
      item.keys.length < 2 → Amounts path item (.incomplete word first.position)
  | typed {word declare first type name} : (word, declare) ∈ typedWords → item.Opens word first →
      item.keys[1]? = some type → item.keys[2]? = some name →
      Amounts path item (.declared
        (declare ⟨type.unquoted, name.unquoted, name.position.filed path, item.remarks⟩))
  | typeless {word declare first} : (word, declare) ∈ typedWords → item.Opens word first →
      item.keys.length < 3 → Amounts path item (.incomplete word first.position)
  | defaultProvider {first} : item.Opens "provider" first →
      (∀ member ∈ item.body, ∀ literal, ¬member.Binds "alias" literal) →
      Amounts path item (.declared
        (.defaultProvider ⟨"provider", first.position.filed path, item.remarks⟩))
  | provider {first type literal} : item.Opens "provider" first → item.Assigns "alias" literal →
      item.keys[1]? = some type →
      Amounts path item (.declared (.provider
        ⟨type.unquoted, literal.unquoted, type.position.filed path, item.remarks⟩))
  | lonely {first literal} : item.Opens "provider" first → item.Assigns "alias" literal →
      item.keys.length < 2 → Amounts path item (.incomplete "provider" first.position)

theorem Keyword.ofName?_eq_some {word : String} {keyword : Keyword} :
    Keyword.ofName? word = some keyword ↔ word = keyword.name := by
  unfold Keyword.ofName?
  constructor
  · intro found
    have same := List.find?_some found
    exact (beq_iff_eq.mp same).symm
  · rintro rfl
    cases keyword with
    | _ => decide

theorem drop_of_getElem? {keys : List Token} {index : Nat} {key : Token}
    (found : keys[index]? = some key) : keys.drop index = key :: keys.drop (index + 1) := by
  obtain ⟨inside, rfl⟩ := List.getElem?_eq_some_iff.mp found
  exact List.drop_eq_getElem_cons inside

theorem Document.Item.Opens.finding {item : Item} {word : String} {first : Token}
    {keyword : Keyword} (opens : item.Opens word first) (known : word = keyword.name)
    (path : String) :
    itemFinding path item = keywordFinding path item keyword first (item.keys.drop 1) := by
  obtain ⟨start, kind, rfl⟩ := opens
  exact itemFinding_keyword (drop_of_getElem? start) kind (Keyword.ofName?_eq_some.mpr known) path

theorem keyword_of_namedWords {word : String} {declare : NamedSection → Declaration}
    (member : (word, declare) ∈ namedWords) :
    ∃ keyword : Keyword, word = keyword.name ∧ ∀ path item first,
      keywordFinding path item keyword first [] = .incomplete first.text first.position ∧
      ∀ name rest, keywordFinding path item keyword first (name :: rest) =
        .declared (declare (namedSection path item name)) := by
  simp only [namedWords, List.mem_cons, Prod.mk.injEq, List.not_mem_nil, or_false] at member
  rcases member with ⟨rfl, rfl⟩ | ⟨rfl, rfl⟩ | ⟨rfl, rfl⟩
  · exact ⟨.variable, rfl, fun path item first => ⟨rfl, fun name rest => rfl⟩⟩
  · exact ⟨.module, rfl, fun path item first => ⟨rfl, fun name rest => rfl⟩⟩
  · exact ⟨.output, rfl, fun path item first => ⟨rfl, fun name rest => rfl⟩⟩

theorem keyword_of_typedWords {word : String} {declare : TypedSection → Declaration}
    (member : (word, declare) ∈ typedWords) :
    ∃ keyword : Keyword, word = keyword.name ∧ ∀ path item first,
      (∀ rest : List Token, rest.length < 2 →
        keywordFinding path item keyword first rest = .incomplete first.text first.position) ∧
      ∀ type name rest, keywordFinding path item keyword first (type :: name :: rest) =
        .declared (declare (typedSection path item type name)) := by
  have short : ∀ rest : List Token, rest.length < 2 → rest = [] ∨ ∃ type, rest = [type] := by
    intro rest less
    match rest with
    | [] => exact Or.inl rfl
    | [type] => exact Or.inr ⟨type, rfl⟩
    | _ :: _ :: rest =>
        simp only [List.length_cons] at less
        omega
  simp only [typedWords, List.mem_cons, Prod.mk.injEq, List.not_mem_nil, or_false] at member
  rcases member with ⟨rfl, rfl⟩ | ⟨rfl, rfl⟩
  · refine ⟨.resource, rfl, fun path item first => ⟨fun rest less => ?_, fun _ _ _ => rfl⟩⟩
    rcases short rest less with rfl | ⟨type, rfl⟩ <;> rfl
  · refine ⟨.data, rfl, fun path item first => ⟨fun rest less => ?_, fun _ _ _ => rfl⟩⟩
    rcases short rest less with rfl | ⟨type, rfl⟩ <;> rfl

namespace Document.Item

/-- What an item amounts to is what is found of it. -/
theorem Amounts.finding {path : String} {item : Item} {finding : Finding}
    (amounts : item.Amounts path finding) : itemFinding path item = finding := by
  cases amounts with
  | keyless none => simp only [itemFinding, none]
  | @quoted first start other =>
      have keys : item.keys = first :: item.keys.drop 1 := drop_of_getElem? start
      rw [itemFinding, keys]
      exact if_pos other
  | @foreign word first opens other =>
      obtain ⟨start, kind, rfl⟩ := opens
      have keys : item.keys = first :: item.keys.drop 1 := drop_of_getElem? start
      have unknown : Keyword.ofName? first.text = none := by
        cases found : Keyword.ofName? first.text with
        | none => rfl
        | some keyword =>
            rw [Keyword.ofName?_eq_some.mp found] at other
            cases keyword with
            | _ => exact absurd other (by decide)
      rw [itemFinding, keys]
      simp only [kind, ne_eq, not_true_eq_false, if_false, unknown]
  | @named word declare first name member opens second =>
      obtain ⟨keyword, known, declares⟩ := keyword_of_namedWords member
      rw [opens.finding known, drop_of_getElem? second, (declares path item first).2,
        namedSection, documentation_eq]
  | @nameless word declare first member opens few =>
      obtain ⟨keyword, known, declares⟩ := keyword_of_namedWords member
      rw [opens.finding known, List.drop_eq_nil_of_le (by omega), (declares path item first).1,
        opens.2.2]
  | @typed word declare first type name member opens second third =>
      obtain ⟨keyword, known, declares⟩ := keyword_of_typedWords member
      rw [opens.finding known, drop_of_getElem? second, drop_of_getElem? third,
        (declares path item first).2, typedSection, documentation_eq]
  | @typeless word declare first member opens few =>
      obtain ⟨keyword, known, declares⟩ := keyword_of_typedWords member
      have short : (item.keys.drop 1).length < 2 := by
        rw [List.length_drop]
        omega
      rw [opens.finding known, (declares path item first).1 _ short, opens.2.2]
  | @defaultProvider first opens free =>
      have plain : first.unquoted = "provider" := by
        rw [Token.unquoted, opens.2.2]
        decide
      have known : "provider" = Keyword.provider.name := rfl
      rw [opens.finding known]
      simp only [keywordFinding, providerFinding, property?_eq_none.mpr free, namedSection, plain,
        documentation_eq]
  | @provider first type literal opens assigns second =>
      have known : "provider" = Keyword.provider.name := rfl
      have alias' := property?_eq_some.mpr ⟨literal, assigns, rfl⟩
      rw [opens.finding known, drop_of_getElem? second]
      simp only [keywordFinding, providerFinding, alias', documentation_eq]
  | @lonely first literal opens assigns few =>
      have known : "provider" = Keyword.provider.name := rfl
      have alias' := property?_eq_some.mpr ⟨literal, assigns, rfl⟩
      rw [opens.finding known, List.drop_eq_nil_of_le (by omega)]
      simp only [keywordFinding, providerFinding, alias', opens.2.2]

section

variable {item : Item} {word : String} {first : Token}

theorem Opens.named (opens : item.Opens word first) {declare : NamedSection → Declaration}
    (member : (word, declare) ∈ namedWords) (path : String) :
    ∃ finding, item.Amounts path finding := by
  cases second : item.keys[1]? with
  | none =>
      have few := List.getElem?_eq_none_iff.mp second
      exact ⟨_, .nameless member opens (by omega)⟩
  | some name => exact ⟨_, .named member opens second⟩

theorem Opens.typed (opens : item.Opens word first) {declare : TypedSection → Declaration}
    (member : (word, declare) ∈ typedWords) (path : String) :
    ∃ finding, item.Amounts path finding := by
  cases third : item.keys[2]? with
  | none =>
      have few := List.getElem?_eq_none_iff.mp third
      exact ⟨_, .typeless member opens (by omega)⟩
  | some name =>
      obtain ⟨inside, -⟩ := List.getElem?_eq_some_iff.mp third
      have second : item.keys[1]? = some item.keys[1] := List.getElem?_eq_getElem (by omega)
      exact ⟨_, .typed member opens second third⟩

theorem Opens.provider (opens : item.Opens "provider" first) (path : String) :
    ∃ finding, item.Amounts path finding := by
  cases bound : item.property? "alias" with
  | none => exact ⟨_, .defaultProvider opens (property?_eq_none.mp bound)⟩
  | some value =>
      obtain ⟨literal, assigns, -⟩ := property?_eq_some.mp bound
      cases second : item.keys[1]? with
      | none =>
          have few := List.getElem?_eq_none_iff.mp second
          exact ⟨_, .lonely opens assigns (by omega)⟩
      | some type => exact ⟨_, .provider opens assigns second⟩

end

theorem exists_amounts (path : String) (item : Item) : ∃ finding, item.Amounts path finding := by
  cases start : item.keys[0]? with
  | none =>
      have few := List.getElem?_eq_none_iff.mp start
      exact ⟨_, .keyless (List.eq_nil_of_length_eq_zero (by omega))⟩
  | some first =>
      by_cases kind : first.kind = .ident
      · have opens : item.Opens first.text first := ⟨start, kind, rfl⟩
        by_cases provides : first.text = "provider"
        · exact Opens.provider (provides ▸ opens) path
        · by_cases named : first.text ∈ namedWords.map Prod.fst
          · obtain ⟨⟨word, declare⟩, member, same⟩ := List.mem_map.mp named
            exact Opens.named (same ▸ opens) member path
          · by_cases typed : first.text ∈ typedWords.map Prod.fst
            · obtain ⟨⟨word, declare⟩, member, same⟩ := List.mem_map.mp typed
              exact Opens.typed (same ▸ opens) member path
            · refine ⟨_, .foreign opens ?_⟩
              simp only [List.cons_append, List.mem_cons, List.mem_append, not_or]
              exact ⟨provides, named, typed⟩
      · exact ⟨_, .quoted start kind⟩

theorem amounts_iff {path : String} {item : Item} {finding : Finding} :
    item.Amounts path finding ↔ itemFinding path item = finding := by
  constructor
  · exact Amounts.finding
  · rintro rfl
    obtain ⟨finding, amounts⟩ := exists_amounts path item
    rw [amounts.finding]
    exact amounts

end Document.Item

inductive Listing
  | inputVariables
  | defaultProviders
  | providers
  | resources
  | dataResources
  | modules
  | outputs
deriving DecidableEq, Repr

def Declaration.listing : Declaration → Listing
  | .variable _ => .inputVariables
  | .defaultProvider _ => .defaultProviders
  | .provider _ => .providers
  | .resource _ => .resources
  | .dataResource _ => .dataResources
  | .module _ => .modules
  | .output _ => .outputs

def Finding.declaration? : Finding → Option Declaration
  | .declared declaration => some declaration
  | _ => none

def Listing.of (listing : Listing) (findings : List Finding) : List Declaration :=
  (findings.filterMap Finding.declaration?).filter fun declaration =>
    declaration.listing = listing

def Event.isStructural (event : Event) : Bool :=
  event.name = "declaration.empty_keys" || event.name = "declaration.missing_keys"

theorem Mention.event?_isStructural {mention : Mention} {event : Event}
    (logged : mention.event? = some event) : event.isStructural = false := by
  cases mention with
  | resolved name kind path location => cases logged
  | _ =>
      cases logged
      rfl

/-- The entry of a name behind some occurrences. It is the old one, or it has the locations of all
that are of its name, with kind and path of the last of them. -/
def Occurrence.Joins (occurrences : List Occurrence) (old new : String × Reference) : Prop :=
  new = old ∨ ∃ front last,
    occurrences.filter (fun occurrence => occurrence.name = old.1) = front ++ [last] ∧
      new = (old.1, ⟨old.2.name, last.kind, last.path,
        old.2.locations ++ (front ++ [last]).map Occurrence.location⟩)

namespace Index

def listed (index : Index) : Listing → List Declaration
  | .inputVariables => index.inputVariables.map .variable
  | .defaultProviders => index.defaultProviders.map .defaultProvider
  | .providers => index.providers.map .provider
  | .resources => index.resources.map .resource
  | .dataResources => index.dataResources.map .dataResource
  | .modules => index.modules.map .module
  | .outputs => index.outputs.map .output

theorem listed_addFinding (index : Index) (finding : Finding) (listing : Listing) :
    (index.addFinding finding).listed listing =
      index.listed listing ++ listing.of [finding] := by
  cases finding with
  | declared declaration =>
      cases declaration with
      | _ =>
          cases listing with
          | _ => simp [addFinding, declare, listed, Listing.of, Finding.declaration?,
              Declaration.listing]
  | _ => simp [addFinding, Listing.of, Finding.declaration?]

theorem listed_classify (path : String) (items : List Item) (listing : Listing) :
    ∀ index : Index, (index.classify path items).listed listing =
      index.listed listing ++ listing.of (items.map (itemFinding path)) := by
  unfold classify
  induction items with
  | nil => exact fun index => (List.append_nil _).symm
  | cons item rest ih =>
      intro index
      rw [List.map_cons, List.foldl_cons, ih, listed_addFinding, List.append_assoc]
      have split : listing.of (itemFinding path item :: rest.map (itemFinding path)) =
          listing.of [itemFinding path item] ++ listing.of (rest.map (itemFinding path)) := by
        rw [Listing.of, Listing.of, Listing.of, ← List.filter_append, ← List.filterMap_append]
        rfl
      rw [split]

theorem listed_collectFile (index : Index) (rules : Rules) (path : String) (file : File)
    (listing : Listing) :
    (index.collectFile rules path file).index.listed listing =
      (index.classify path file.items).listed listing := by
  rw [collectFile_eq, addMentions_eq]
  cases listing with
  | _ => rfl

theorem classify_version (index : Index) (path : String) (items : List Item) :
    (index.classify path items).version = index.version :=
  classify_kept (fun _ declaration => by cases declaration <;> rfl) index path items

theorem collectFile_events (index : Index) (rules : Rules) (path : String) (file : File) :
    (index.collectFile rules path file).events = classifyEvents path file.items ++
      (readLiterals path file.root.literals).1.filterMap Mention.event? := by
  simp only [collectFile, resolveAll_eq]
  split
  · rfl
  · rfl

def joinAll (entry : Reference) (occurrences : List Occurrence) : Reference :=
  occurrences.foldl (fun entry occurrence => join entry occurrence.entry.2) entry

theorem joinAll_keeps (occurrences : List Occurrence) : ∀ entry : Reference,
    (joinAll entry occurrences).name = entry.name ∧
      (joinAll entry occurrences).locations =
        entry.locations ++ occurrences.map Occurrence.location := by
  induction occurrences with
  | nil => exact fun entry => ⟨rfl, (List.append_nil _).symm⟩
  | cons occurrence rest ih =>
      intro entry
      obtain ⟨name, locations⟩ := ih (join entry occurrence.entry.2)
      refine ⟨name, locations.trans ?_⟩
      simp [join, Occurrence.entry]

theorem joinAll_concat (entry : Reference) (front : List Occurrence) (last : Occurrence) :
    joinAll entry (front ++ [last]) = ⟨entry.name, last.kind, last.path,
      entry.locations ++ (front ++ [last]).map Occurrence.location⟩ := by
  obtain ⟨name, locations⟩ := joinAll_keeps front entry
  have step : joinAll entry (front ++ [last]) = join (joinAll entry front) last.entry.2 :=
    List.foldl_append
  rw [step, join, name, locations, List.append_assoc, List.map_append]
  rfl

/-- The first entry takes up all occurrences of its name, and leaves the others to the rest. -/
theorem extendAll_first (key : String) (occurrences : List Occurrence) :
    ∀ (entry : Reference) (rest : List (String × Reference)),
      extendAll ((key, entry) :: rest) (occurrences.map Occurrence.entry) =
        (key, joinAll entry (occurrences.filter fun occurrence => occurrence.name = key)) ::
          extendAll rest ((occurrences.filter fun occurrence => occurrence.name ≠ key).map
            Occurrence.entry) := by
  induction occurrences with
  | nil => exact fun entry rest => rfl
  | cons occurrence others ih =>
      intro entry rest
      have pair : occurrence.entry = (occurrence.name, occurrence.entry.2) := rfl
      rw [List.map_cons, pair, extendAll_cons]
      by_cases same : occurrence.name = key
      · rw [same, extend_cons_self, ih]
        simp [same, joinAll]
      · rw [extend_cons_ne (Ne.symm same), ih, List.filter_cons_of_neg (by simpa using same),
          List.filter_cons_of_pos (by simpa using same)]
        rfl

end Index

theorem Occurrence.Joins.widen {occurrences : List Occurrence} {key : String}
    {old new : String × Reference}
    (joins : Joins (occurrences.filter fun occurrence => occurrence.name ≠ key) old new) :
    Joins occurrences old new := by
  rcases joins with unchanged | ⟨front, last, own, joined⟩
  · exact Or.inl unchanged
  · refine Or.inr ⟨front, last, own ▸ ?_, joined⟩
    have chosen : last ∈ (occurrences.filter fun occurrence => occurrence.name ≠ key).filter
        fun occurrence => occurrence.name = old.1 := by
      rw [own]
      simp
    have other : old.1 ≠ key := by
      simp only [List.mem_filter, decide_eq_true_eq] at chosen
      exact chosen.2 ▸ chosen.1.2
    rw [List.filter_filter]
    refine List.filter_congr fun occurrence _ => ?_
    by_cases same : occurrence.name = old.1
    · simp [same, other]
    · simp [same]

namespace Index

/-- Old entries stay in their places, whatever is referred to. -/
theorem extendAll_joins (references : List (String × Reference)) :
    ∀ occurrences : List Occurrence, ∃ kept more,
      extendAll references (occurrences.map Occurrence.entry) = kept ++ more ∧
        List.Forall₂ (Occurrence.Joins occurrences) references kept := by
  -- On the old entries, not on the occurrences: the first entry takes all of its name, so that the
  -- other entries are left with fewer of them.
  induction references with
  | nil => exact fun occurrences => ⟨[], _, rfl, .nil⟩
  | cons first rest ih =>
      obtain ⟨key, entry⟩ := first
      intro occurrences
      obtain ⟨kept, more, same, joins⟩ :=
        ih (occurrences.filter fun occurrence => occurrence.name ≠ key)
      rw [extendAll_first, same]
      refine ⟨_ :: kept, more, rfl, .cons ?_ (joins.imp fun old new => Occurrence.Joins.widen)⟩
      rcases List.eq_nil_or_concat'
        (occurrences.filter fun occurrence => occurrence.name = key) with none | ⟨front, last, own⟩
      · rw [none]
        exact Or.inl rfl
      · rw [own, joinAll_concat]
        exact Or.inr ⟨front, last, own, rfl⟩

/-- Collecting a document looks at each item at its top by itself and puts what that amounts to
behind what is there: a record in one section, a warning, or nothing. All that was recorded stays,
but for the kind and the path of what is referred to again, and for the tree of another document. -/
theorem collectFile_sections (index : Index) (rules : Rules) (path : String) (file : File) :
    let run := index.collectFile rules path file
    (∃ findings : List Finding,
      List.Forall₂ (fun item finding => ∀ other, item.Amounts path other ↔ other = finding)
        file.items findings ∧
      (∀ listing, run.index.listed listing = index.listed listing ++ listing.of findings) ∧
      ∃ others, run.events = findings.filterMap (Finding.event? path) ++ others ∧
        ∀ event ∈ others, event.isStructural = false) ∧
    run.index.version = index.version ∧ index.problems <+: run.index.problems ∧
    (∃ kept more, run.index.references = kept ++ more ∧ List.Forall₂
      (Occurrence.Joins (occurrencesOf path file.root.literals)) index.references kept) ∧
    (run.index.rawTree = index.rawTree ∨
      rules.keepTree = true ∧ run.index.rawTree = some (.document file)) := by
  intro run
  refine ⟨⟨file.items.map (itemFinding path), ?_, ?_, ?_⟩, ?_, ?_, ?_, ?_⟩
  · rw [List.forall₂_map_right_iff]
    exact List.forall₂_same.mpr fun item _ other => Item.amounts_iff.trans eq_comm
  · intro listing
    rw [listed_collectFile, listed_classify]
  · refine ⟨_, collectFile_events index rules path file, ?_⟩
    intro event member
    obtain ⟨mention, -, logged⟩ := List.mem_filterMap.mp member
    exact Mention.event?_isStructural logged
  · simp only [run, collectFile_eq, addMentions_eq, classify_version]
  · simp only [run, collectFile_eq, addMentions_eq, (classify_records index path file.items).2]
    exact List.prefix_append index.problems _
  · simp only [run, collectFile_references]
    exact extendAll_joins index.references _
  · simp only [run, collectFile_eq]
    split
    · rename_i kept
      exact Or.inr ⟨(Bool.and_eq_true_iff.mp kept).1, rfl⟩
    · exact Or.inl rfl

/-- A record leaves out a comment without a text, and a name that is referred to once more takes
another kind and path. -/
theorem collectFile_sections_changed :
    let name : Token := ⟨.string, "\"x\"", ⟨"", 14, 2, 10⟩⟩
    let item : Item := {
      keys := [⟨.ident, "variable", ⟨"", 5, 2, 1⟩⟩, name]
      value := some (.object ⟨"", 18, 2, 14⟩ ⟨"", 19, 2, 15⟩ [])
      assign := none
      lead := [⟨"", ⟨"", 0, 1, 1⟩, 1⟩, ⟨"# b", ⟨"", 1, 1, 2⟩, 1⟩] }
    let used (text : String) : File := ⟨[{
      keys := [⟨.ident, "x", ⟨"", 0, 1, 1⟩⟩]
      value := some (.literal ⟨.string, text, ⟨"", 4, 1, 5⟩⟩)
      assign := some ⟨"", 2, 1, 3⟩
      lead := [] }], []⟩
    let before := (({} : Index).collectFile {} "main.tf" (used "\"$\x7bvar.a\x7d\"")).index
    let behind := (before.collectFile {} "main.tf" (used "\"$\x7bdata.a.b\x7d\"")).index
    (({} : Index).collectFile {} "main.tf" ⟨[item], []⟩).index.inputVariables =
        [⟨"x", name.position.filed "main.tf", ["# b"]⟩] ∧
      item.lead.map (·.text) = ["", "# b"] ∧
      (before.reference? "a").map (fun entry => (entry.kind, entry.path)) =
        some ("variable", none) ∧
      (behind.reference? "a").map (fun entry => (entry.kind, entry.path)) =
        some ("data", some "b") := by
  intro name item used before behind
  exact ⟨by decide +kernel, by decide +kernel, by decide +kernel, by decide +kernel⟩

end Index

end ConfigIndex
