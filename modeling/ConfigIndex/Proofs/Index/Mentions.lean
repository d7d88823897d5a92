import ConfigIndex.Index.Collect
import ConfigIndex.Proofs.Index.Entries

/-!
Collecting a document apart from the index that it is collected into: what its literals mention is
the same for every index, and each mention adds an entry, a problem or nothing.
-/

namespace ConfigIndex

open Document (Token File Item)

namespace Mention

def location : Mention → Position
  | resolved _ _ _ location => location
  | unresolved _ location => location
  | malformed _ location => location

def entry? : Mention → Option (String × Reference)
  | resolved name kind path location => some (name, ⟨name, kind, path, [location]⟩)
  | _ => none

def problem? (strict : Bool) : Mention → Option Problem
  | resolved _ _ _ _ => none
  | unresolved reference location =>
    if strict then some ⟨"Cannot understand reference " ++ reference, location⟩ else none
  | malformed message location => some ⟨message, location⟩

theorem problem?_location {strict : Bool} {mention : Mention} {problem : Problem}
    (counts : mention.problem? strict = some problem) : problem.location = mention.location := by
  cases mention with
  | resolved name kind path location => cases counts
  | unresolved reference location =>
      cases strict with
      | true =>
          cases counts
          rfl
      | false => cases counts
  | malformed message location =>
      cases counts
      rfl

end Mention

namespace Index

theorem addMention_eq (strict : Bool) (index : Index) (mention : Mention) :
    index.addMention strict mention = { index with
      problems := index.problems ++ (mention.problem? strict).toList
      references := extendAll index.references mention.entry?.toList } := by
  cases mention with
  | resolved name kind path location => simp [addMention, addReference, Mention.problem?,
      Mention.entry?, extendAll]
  | unresolved reference location =>
      cases strict with
      | true => simp [addMention, addProblem, Mention.problem?, Mention.entry?, extendAll]
      | false => simp [addMention, Mention.problem?, Mention.entry?, extendAll]
  | malformed message location =>
      simp [addMention, addProblem, Mention.problem?, Mention.entry?, extendAll]

theorem addMentions_eq (strict : Bool) (mentions : List Mention) : ∀ index : Index,
    index.addMentions strict mentions = { index with
      problems := index.problems ++ mentions.filterMap (Mention.problem? strict)
      references := extendAll index.references (mentions.filterMap Mention.entry?) } := by
  induction mentions with
  | nil =>
      intro index
      simp [addMentions, extendAll]
  | cons mention rest ih =>
      intro index
      have step : index.addMentions strict (mention :: rest) =
          (index.addMention strict mention).addMentions strict rest := rfl
      rw [step, ih, addMention_eq]
      cases added : mention.entry? with
      | none => cases counted : mention.problem? strict <;> simp [added, counted, extendAll]
      | some entry => cases counted : mention.problem? strict <;> simp [added, counted, extendAll]

end Index

theorem literalMentions_cases {path : String} {token : Token} {mentions : List Mention}
    (read : literalMentions path token = .ok mentions) :
    (∃ root, Template.parseAt token.position.toPoint token.text = .ok root ∧
      mentions = root.accesses.map fun (word, point) => mention word (point.filed path)) ∨
    ∃ error, Template.parseAt token.position.toPoint token.text = .error (.faulty error) ∧
      mentions = [.malformed error.message (error.point.filed path)] := by
  unfold literalMentions at read
  split at read
  · cases read
  · rename_i error failed
    cases read
    exact Or.inr ⟨error, failed, rfl⟩
  · rename_i root accepted
    cases read
    exact Or.inl ⟨root, accepted, rfl⟩

theorem literalMentions_eq_error {path : String} {token : Token} {digits : Nat}
    (broken : literalMentions path token = .error digits) :
    Template.parseAt token.position.toPoint token.text = .error (.oversized digits) := by
  unfold literalMentions at broken
  split at broken
  · rename_i failed
    cases broken
    exact failed
  · cases broken
  · cases broken

def readLiterals (path : String) : List Token → List Mention × Option Nat
  | [] => ([], none)
  | token :: rest =>
    match literalMentions path token with
    | .error digits => ([], some digits)
    | .ok mentions => (mentions ++ (readLiterals path rest).1, (readLiterals path rest).2)

theorem addMentions_append (strict : Bool) (index : Index) (mentions more : List Mention) :
    index.addMentions strict (mentions ++ more) =
      (index.addMentions strict mentions).addMentions strict more :=
  List.foldl_append

theorem resolveAll_eq (strict : Bool) (path : String) (tokens : List Token) :
    ∀ (index : Index) (events : List Event), resolveAll strict path index events tokens =
      { index := index.addMentions strict (readLiterals path tokens).1
        events := events ++ (readLiterals path tokens).1.filterMap Mention.event?
        oversized := (readLiterals path tokens).2 } := by
  induction tokens with
  | nil =>
      intro index events
      simp [resolveAll, readLiterals, Index.addMentions]
  | cons token rest ih =>
      intro index events
      cases read : literalMentions path token with
      | error digits => simp [resolveAll, readLiterals, read, Index.addMentions]
      | ok mentions =>
          simp only [resolveAll, readLiterals, read]
          rw [ih, addMentions_append, List.filterMap_append, List.append_assoc]

theorem collectFile_oversized (index : Index) (rules : Rules) (path : String) (file : File) :
    (index.collectFile rules path file).oversized =
      (readLiterals path file.root.literals).2 := by
  simp only [Index.collectFile, resolveAll_eq]
  split <;> rfl

def Index.keeping (index : Index) (rules : Rules) (file : File) : Index :=
  if rules.keepTree then { index with rawTree := some (.document file) } else index

/-- A document that is collected to its end leaves its declarations, what its literals mention,
and its tree if that is kept. -/
theorem collectFile_index {rules : Rules} {path : String} {file : File}
    (whole : (readLiterals path file.root.literals).2 = none) (index : Index) :
    (index.collectFile rules path file).index =
      ((index.classify path file.items).addMentions rules.strict
        (readLiterals path file.root.literals).1).keeping rules file := by
  simp only [Index.collectFile, resolveAll_eq, whole, Option.isNone_none, Bool.and_true,
    Index.keeping]
  split <;> rfl

end ConfigIndex
