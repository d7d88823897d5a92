import ConfigIndex.Index.Collect
import ConfigIndex.Proofs.Document.Positions
import ConfigIndex.Proofs.Template.Accesses

/-!
Where the references of an index stand in the document that they were found in, and where its
problems do.
-/

namespace ConfigIndex

open Document (Token File Node Item)
open Position (Occurs)

/-- A name behind the first point of a dotted word, up to the next point if there is one. -/
def Dotted (word name : List Char) : Prop :=
  ∃ kind tail, word = kind ++ '.' :: (name ++ tail) ∧ '.' ∉ kind ∧ '.' ∉ name ∧
    ∀ c ∈ tail.head?, c = '.'

def Refers (source : List Char) (path name : String) (location : Position) : Prop :=
  location.filename = path ∧ location.offset = 0 ∧
    ∃ index word, location.Stands source index ∧
      Template.namePattern.first? (source.drop index) = some word ∧ Dotted word name.toList

def Reports (source : List Char) (path : String) (literals : List Token) (location : Position) :
    Prop :=
  location.filename = path ∧ location.offset = 0 ∧
    ∃ token ∈ literals, ∃ first last, token.position.Denotes source first ∧
      token.text.toList <+: source.drop first ∧ first ≤ last ∧
      last ≤ first + token.text.toList.length ∧ location.Stands source last

/-- All that an index has recorded is from one document, and stands there. -/
structure Index.Stands (index : Index) (source : List Char) (path : String)
    (literals : List Token) : Prop where
  references : ∀ entry ∈ index.references, ∀ location ∈ entry.2.locations,
    Refers source path entry.1 location
  problems : ∀ problem ∈ index.problems, Reports source path literals problem.location

theorem takeWhile_point (text : List Char) : '.' ∉ text.takeWhile (· ≠ '.') := by
  intro member
  have other := List.all_eq_true.mp List.all_takeWhile '.' member
  simp at other

theorem cutAtPoint_none {text first : List Char} (cut : cutAtPoint text = (first, none)) :
    text = first ∧ '.' ∉ first := by
  simp only [cutAtPoint, Prod.mk.injEq] at cut
  obtain ⟨rfl, behind⟩ := cut
  refine ⟨?_, takeWhile_point text⟩
  split at behind
  · rename_i empty
    have whole := List.takeWhile_append_dropWhile (p := (· ≠ '.')) (l := text)
    rw [empty, List.append_nil] at whole
    exact whole.symm
  · cases behind

theorem cutAtPoint_some {text first rest : List Char}
    (cut : cutAtPoint text = (first, some rest)) :
    text = first ++ '.' :: rest ∧ '.' ∉ first := by
  simp only [cutAtPoint, Prod.mk.injEq] at cut
  obtain ⟨rfl, behind⟩ := cut
  refine ⟨?_, takeWhile_point text⟩
  split at behind
  · cases behind
  · rename_i c other found
    cases behind
    have whole := List.takeWhile_append_dropWhile (p := (· ≠ '.')) (l := text)
    have stops := List.head?_dropWhile_not (· ≠ '.') text
    rw [found] at whole stops
    have point : c = '.' := by simpa using stops
    rw [point] at whole
    exact whole.symm

/-- A reference names its second component, or nothing if it has one component only. -/
theorem mention_cases (reference : String) (location : Position) :
    mention reference location = .unresolved reference location ∨
      ∃ name kind path, mention reference location = .resolved name kind path location ∧
        Dotted reference.toList name.toList := by
  unfold mention
  split
  · exact Or.inl rfl
  · rename_i word rest cut
    obtain ⟨whole, plain⟩ := cutAtPoint_some cut
    cases further : cutAtPoint rest with
    | mk second tail =>
        refine Or.inr ⟨_, _, _, rfl, ?_⟩
        rw [String.toList_ofList]
        cases tail with
        | none =>
            obtain ⟨rfl, single⟩ := cutAtPoint_none further
            exact ⟨word, [], by simpa using whole, plain, single, by simp⟩
        | some behind =>
            obtain ⟨rfl, single⟩ := cutAtPoint_some further
            exact ⟨word, '.' :: behind, whole, plain, single, by simp⟩

/-- A place inside a word, counted from where the word stands, is a place of the whole text. -/
theorem occurs_inside {source word front rest : List Char} {position : Position}
    (occurs : Occurs .start source position word) (cut : word = front ++ rest) (path : String) :
    ∃ first behind, position.Denotes source first ∧ source.drop first = word ++ behind ∧
      ((position.toPoint.advanceBy front).filed path).Stands source (first + front.length) := by
  obtain ⟨before, behind, rfl, rfl⟩ := occurs
  refine ⟨before.length, behind, Position.denotes_advanceBy before (word ++ behind), ?_, ?_⟩
  · rw [List.drop_left]
  · have denotes := Position.denotes_advanceBy (before ++ front) (rest ++ behind)
    rw [Position.advanceBy_append, List.length_append] at denotes
    apply filed_stands
    simpa [cut] using denotes.1

section

variable {source : List Char} {path : String} {literals : List Token}

def Mention.Stands (source : List Char) (path : String) (literals : List Token) : Mention → Prop
  | .resolved name _ _ location => Refers source path name location
  | .unresolved _ location => Reports source path literals location
  | .malformed _ location => Reports source path literals location

theorem reports_inside {token : Token} {front rest : List Char} (member : token ∈ literals)
    (occurs : Occurs .start source token.position token.text.toList)
    (cut : token.text.toList = front ++ rest) :
    Reports source path literals ((token.position.toPoint.advanceBy front).filed path) := by
  obtain ⟨first, behind, denotes, starts, stands⟩ := occurs_inside occurs cut path
  refine ⟨rfl, rfl, token, member, first, first + front.length, denotes, ?_, ?_, ?_, stands⟩
  · rw [starts]
    exact List.prefix_append _ behind
  · omega
  · rw [cut, List.length_append]
    omega

theorem refers_inside {token : Token} {front rest : List Char} {reference name : String}
    (occurs : Occurs .start source token.position token.text.toList)
    (cut : token.text.toList = front ++ rest) (brace : '}' ∈ rest)
    (stands : Template.namePattern.first? rest = some reference.toList)
    (dotted : Dotted reference.toList name.toList) :
    Refers source path name ((token.position.toPoint.advanceBy front).filed path) := by
  obtain ⟨first, behind, _, starts, place⟩ := occurs_inside occurs cut path
  refine ⟨rfl, rfl, first + front.length, reference.toList, place, ?_, dotted⟩
  have inside : source.drop (first + front.length) = rest ++ behind := by
    rw [← List.drop_drop, starts, cut, List.append_assoc, List.drop_left]
  rw [inside]
  exact Template.namePattern_append behind brace stands

theorem literalMentions_stands {token : Token} {mentions : List Mention}
    (member : token ∈ literals) (occurs : Occurs .start source token.position token.text.toList)
    (read : literalMentions path token = .ok mentions) :
    ∀ mention ∈ mentions, mention.Stands source path literals := by
  unfold literalMentions Template.parseAt at read
  split at read
  · cases read
  · rename_i error failed
    cases read
    intro mention only
    rw [List.mem_singleton] at only
    subst only
    obtain ⟨front, rest, cut, place⟩ := Template.parseChars_faulty failed
    rw [place]
    exact reports_inside member occurs cut
  · rename_i root accepted
    cases read
    intro mention listed
    obtain ⟨⟨reference, point⟩, access, rfl⟩ := List.mem_map.mp listed
    obtain ⟨front, rest, cut, rfl, brace, first⟩ := Template.parseChars_accesses accepted access
    rcases mention_cases reference ((token.position.toPoint.advanceBy front).filed path) with
      same | ⟨name, kind, tail, same, dotted⟩
    · simp only [same]
      exact reports_inside member occurs cut
    · simp only [same]
      exact refers_inside occurs cut brace first dotted

theorem extend_locations {references : List (String × Reference)} {key : String}
    {added : Reference} {entry : String × Reference} {location : Position}
    (member : entry ∈ Index.extend references key added)
    (listed : location ∈ entry.2.locations) :
    (entry.1 = key ∧ location ∈ added.locations) ∨
      ∃ old ∈ references, old.1 = entry.1 ∧ location ∈ old.2.locations := by
  fun_induction Index.extend references key added with
  | case1 =>
      rw [List.mem_singleton] at member
      subst member
      exact Or.inl ⟨rfl, listed⟩
  | case2 name old rest same =>
      rcases List.mem_cons.mp member with rfl | later
      · rcases List.mem_append.mp listed with before | now
        · exact Or.inr ⟨(name, old), List.mem_cons_self, rfl, before⟩
        · exact Or.inl ⟨eq_of_beq same, now⟩
      · exact Or.inr ⟨entry, List.mem_cons_of_mem _ later, rfl, listed⟩
  | case3 name old rest other ih =>
      rcases List.mem_cons.mp member with rfl | later
      · exact Or.inr ⟨(name, old), List.mem_cons_self, rfl, listed⟩
      · rcases ih later with here | ⟨found, among, same, before⟩
        · exact Or.inl here
        · exact Or.inr ⟨found, List.mem_cons_of_mem _ among, same, before⟩

namespace Index

theorem Stands.addReference {index : Index} (stands : index.Stands source path literals)
    {name kind : String} {tail : Option String} {location : Position}
    (refers : Refers source path name location) :
    (index.addReference name kind tail location).Stands source path literals := by
  refine ⟨?_, stands.problems⟩
  intro entry member place listed
  rcases extend_locations member listed with ⟨same, now⟩ | ⟨old, among, same, before⟩
  · rw [List.mem_singleton.mp now, same]
    exact refers
  · rw [← same]
    exact stands.references old among place before

theorem Stands.addProblem {index : Index} (stands : index.Stands source path literals)
    {message : String} {location : Position} (reports : Reports source path literals location) :
    (index.addProblem message location).Stands source path literals := by
  refine ⟨stands.references, ?_⟩
  intro problem member
  rcases List.mem_append.mp member with before | now
  · exact stands.problems problem before
  · rw [List.mem_singleton.mp now]
    exact reports

theorem Stands.addMention {index : Index} {mention : Mention}
    (stands : index.Stands source path literals) (strict : Bool)
    (placed : mention.Stands source path literals) :
    (index.addMention strict mention).Stands source path literals := by
  cases mention with
  | resolved name kind tail location => exact stands.addReference placed
  | unresolved reference location =>
      simp only [Index.addMention]
      split
      · exact stands.addProblem placed
      · exact stands
  | malformed message location => exact stands.addProblem placed

theorem Stands.addMentions {mentions : List Mention} (strict : Bool) : ∀ {index : Index},
    index.Stands source path literals →
    (∀ mention ∈ mentions, mention.Stands source path literals) →
    (index.addMentions strict mentions).Stands source path literals := by
  induction mentions with
  | nil => exact fun stands _ => stands
  | cons mention rest ih =>
      intro index stands placed
      exact ih (stands.addMention strict (placed mention List.mem_cons_self))
        fun other member => placed other (List.mem_cons_of_mem _ member)

end Index

theorem resolveAll_stands (strict : Bool) : ∀ (tokens : List Token) (index : Index)
    (events : List Event), index.Stands source path literals → (∀ token ∈ tokens,
      token ∈ literals ∧ Occurs .start source token.position token.text.toList) →
    (resolveAll strict path index events tokens).index.Stands source path literals := by
  intro tokens
  induction tokens with
  | nil => exact fun _ _ stands _ => stands
  | cons token rest ih =>
      intro index events stands placed
      obtain ⟨member, occurs⟩ := placed token List.mem_cons_self
      rw [resolveAll]
      split
      · exact stands
      · rename_i mentions read
        have next := stands.addMentions strict (literalMentions_stands member occurs read)
        exact ih _ _ next fun other later => placed other (List.mem_cons_of_mem _ later)

end

/-- Whatever part of an index declarations leave as it is, a document's declarations do too. -/
theorem classify_kept {Part : Type} {part : Index → Part}
    (kept : ∀ (index : Index) (declaration : Declaration),
      part (index.declare declaration) = part index)
    (index : Index) (path : String) (items : List Item) :
    part (index.classify path items) = part index := by
  unfold Index.classify
  induction items generalizing index with
  | nil => rfl
  | cons item rest ih =>
      rw [List.map_cons, List.foldl_cons, ih]
      cases itemFinding path item with
      | declared declaration => exact kept index declaration
      | _ => rfl

theorem classify_records (index : Index) (path : String) (items : List Item) :
    (index.classify path items).references = index.references ∧
      (index.classify path items).problems = index.problems := by
  constructor
  · exact classify_kept (fun _ declaration => by cases declaration <;> rfl) index path items
  · exact classify_kept (fun _ declaration => by cases declaration <;> rfl) index path items

theorem Document.literal_occurs {text : List Char} {file : File}
    (read : parseChars text = .ok file) {token : Token} (member : token ∈ file.root.literals) :
    Occurs .start text token.position token.text.toList :=
  (parseChars_tiled read).span_occurs token.span (Item.span_of_allLiterals file.items member)

theorem collectFile_stands {source : List Char} {file : File} {index : Index} (rules : Rules)
    (path : String) (read : Document.parseChars source = .ok file)
    (stands : index.Stands source path file.root.literals) :
    (index.collectFile rules path file).index.Stands source path file.root.literals := by
  obtain ⟨references, problems⟩ := classify_records index path file.items
  have declared : (index.classify path file.items).Stands source path file.root.literals := by
    refine ⟨?_, ?_⟩
    · rw [references]
      exact stands.references
    · rw [problems]
      exact stands.problems
  have resolved := resolveAll_stands rules.strict file.root.literals _
    (classifyEvents path file.items) declared fun token member =>
      ⟨member, Document.literal_occurs read member⟩
  unfold Index.collectFile
  simp only
  split
  · exact ⟨resolved.references, resolved.problems⟩
  · exact resolved

/-- Wherever an index of one document says that a name is referred to, a dotted word stands there
with that name behind its first point. Problems lie inside literals. -/
theorem collect_stands (rules : Rules) (path source : String) (file : File)
    (read : Document.parse source = .ok file) :
    (({} : Index).collect rules path (.text source)).1.index.Stands source.toList path
      file.root.literals := by
  have empty : ({} : Index).Stands source.toList path file.root.literals := by
    refine ⟨?_, ?_⟩
    · intro entry member
      cases member
    · intro problem member
      cases member
  have content : (Document.Content.text source).parse = .ok file := read
  unfold Index.collect
  rw [content]
  exact collectFile_stands rules path read empty

theorem collect_stands_heredoc : ∃ source file, Document.parse source = .ok file ∧
    (({} : Index).collect {} "main.tf" (.text source)).1.index.Stands source.toList "main.tf"
      file.root.literals ∧
    (({} : Index).collect {} "main.tf" (.text source)).1.index.references.map
      (fun entry => (entry.1.toList, entry.2.locations)) = [(['x'], [⟨"main.tf", 0, 3, 3⟩])] ∧
    (({} : Index).collect {} "main.tf" (.text source)).1.index.problems.map Problem.location =
      [⟨"main.tf", 0, 5, 8⟩] := by
  refine ⟨"a = <<EOT\né $\x7bf(\n  var.x)\x7d\nEOT\nb = \"$\x7b\x7d\"\n", ?_⟩
  have accepted : (Document.parse
      "a = <<EOT\né $\x7bf(\n  var.x)\x7d\nEOT\nb = \"$\x7b\x7d\"\n").toOption.isSome = true := by
    decide +kernel
  cases read : Document.parse "a = <<EOT\né $\x7bf(\n  var.x)\x7d\nEOT\nb = \"$\x7b\x7d\"\n" with
  | ok file =>
      refine ⟨file, rfl, collect_stands {} _ _ file read, ?_, ?_⟩
      · decide +kernel
      · decide +kernel
  | error error =>
      rw [read] at accepted
      cases accepted

end ConfigIndex
