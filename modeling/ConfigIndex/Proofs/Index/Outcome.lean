import ConfigIndex.Proofs.Index.Merge
import ConfigIndex.Proofs.Index.Occurrences

/-!
All that can come of collecting a document. It is read to its end, or it leaves one problem, or a
literal with a whole number of too many digits breaks the work off, and then the index holds what
was found before that literal.
-/

namespace ConfigIndex

open Document (Token File Item Content)

def Document.Token.Holds (literal : Token) (numeral : List Char) : Prop :=
  ∃ parts, Template.Written literal.position.toPoint literal.text.toList parts ∧
    numeral ∈ Template.Part.integers parts

theorem literalMentions_breaks {path : String} {literal : Token} {digits : Nat}
    (broken : literalMentions path literal = .error digits) :
    ∃ numeral, literal.Holds numeral ∧ Template.maxDigits < numeral.length ∧
      numeral.length = digits := by
  obtain ⟨parts, written, numeral, member, length, long⟩ :=
    Template.parseChars_breaks (literalMentions_eq_error broken)
  exact ⟨numeral, ⟨parts, written, member⟩, length ▸ long, length⟩

namespace Index

def contribution (strict : Bool) (path : String) (literal : Token) : Index :=
  (({} : Index).resolve strict path literal).index

def plus (index : Index) (strict : Bool) (path : String) (items : List Item)
    (literals : List Token) : Index :=
  (literals.map (contribution strict path)).foldl merge
    (index.merge (({} : Index).classify path items))

theorem resolve_oversized (index : Index) (strict : Bool) (path : String) (literal : Token) :
    (index.resolve strict path literal).oversized =
      match literalMentions path literal with
      | .ok _ => none
      | .error digits => some digits := by
  simp only [resolve, resolveAll_eq, readLiterals]
  cases literalMentions path literal with
  | ok mentions => rfl
  | error digits => rfl

theorem contribution_eq {strict : Bool} {path : String} {literal : Token} {mentions : List Mention}
    (read : literalMentions path literal = .ok mentions) :
    contribution strict path literal = ({} : Index).addMentions strict mentions := by
  simp only [contribution, resolve, resolveAll_eq, readLiterals, read, List.append_nil]

theorem merge_contribution {strict : Bool} {path : String} {literal : Token}
    {mentions : List Mention} (read : literalMentions path literal = .ok mentions) (index : Index) :
    index.merge (contribution strict path literal) = index.addMentions strict mentions := by
  have distinct : (({} : Index).references.map Prod.fst).Nodup := List.nodup_nil
  rw [contribution_eq read, ← merge_addMentions distinct, merge_empty]

/-- Literals that are read one after another add their contributions one after another. -/
theorem addMentions_readLiterals {strict : Bool} {path : String} {literals : List Token}
    (whole : (readLiterals path literals).2 = none) : ∀ index : Index,
    index.addMentions strict (readLiterals path literals).1 =
      (literals.map (contribution strict path)).foldl merge index := by
  induction literals with
  | nil => exact fun index => rfl
  | cons literal rest ih =>
      intro index
      cases read : literalMentions path literal with
      | error digits =>
          rw [readLiterals, read] at whole
          cases whole
      | ok mentions =>
          simp only [readLiterals, read] at whole ⊢
          rw [addMentions_append, ih whole, List.map_cons, List.foldl_cons,
            merge_contribution read]

theorem classify_eq_merge (index : Index) (path : String) (items : List Item) :
    index.classify path items = index.merge (({} : Index).classify path items) := by
  rw [← merge_classify, merge_empty]

end Index

/-- The literal that breaks the work off, and those in front of it, which do not. -/
theorem readLiterals_breaks {path : String} {literals : List Token} {digits : Nat}
    (broken : (readLiterals path literals).2 = some digits) :
    ∃ front literal back, literals = front ++ literal :: back ∧
      literalMentions path literal = .error digits ∧ (readLiterals path front).2 = none ∧
      (readLiterals path literals).1 = (readLiterals path front).1 := by
  induction literals with
  | nil => cases broken
  | cons first rest ih =>
      cases read : literalMentions path first with
      | error count =>
          simp only [readLiterals, read, Option.some.injEq] at broken
          subst broken
          exact ⟨[], first, rest, rfl, read, rfl, by simp [readLiterals, read]⟩
      | ok mentions =>
          simp only [readLiterals, read] at broken
          obtain ⟨front, literal, back, rfl, failed, ahead, same⟩ := ih broken
          refine ⟨first :: front, literal, back, rfl, failed, ?_, ?_⟩
          · simp only [readLiterals, read, ahead]
          · simp only [readLiterals, read, same]

namespace Index

theorem addMentions_rawTree (index : Index) (strict : Bool) (mentions : List Mention) :
    (index.addMentions strict mentions).rawTree = index.rawTree := by
  rw [addMentions_eq]

theorem classify_rawTree (index : Index) (path : String) (items : List Item) :
    (index.classify path items).rawTree = index.rawTree :=
  classify_kept (fun _ declaration => by cases declaration <;> rfl) index path items

/-- Only the tree depends on whether the work is broken off. -/
theorem collectFile_eq (index : Index) (rules : Rules) (path : String) (file : File) :
    (index.collectFile rules path file).index =
      { (index.classify path file.items).addMentions rules.strict
          (readLiterals path file.root.literals).1 with
        rawTree :=
          if rules.keepTree && (readLiterals path file.root.literals).2.isNone then
            some (.document file)
          else index.rawTree } := by
  have kept := addMentions_rawTree (index.classify path file.items) rules.strict
    (readLiterals path file.root.literals).1
  rw [classify_rawTree] at kept
  simp only [collectFile, resolveAll_eq]
  split
  · rfl
  · rw [← kept]

theorem collect_eq_collectFile {content : Content} {file : File} (read : content.parse = .ok file)
    (index : Index) (rules : Rules) (path : String) :
    (index.collect rules path content).1 = index.collectFile rules path file := by
  rw [collect, read]

theorem plus_eq {strict : Bool} {path : String} {literals : List Token}
    (whole : (readLiterals path literals).2 = none) (index : Index) (items : List Item) :
    index.plus strict path items literals =
      (index.classify path items).addMentions strict (readLiterals path literals).1 := by
  rw [plus, ← classify_eq_merge, addMentions_readLiterals whole]

/-- A document that cannot be read adds one problem. Of one that can be read, all declarations and
the contributions of all literals are added, up to the first literal with a whole number that has
too many digits, which breaks the work off; the tree is kept only if none does. -/
theorem collect_outcome (index : Index) (rules : Rules) (path : String) (content : Content) :
    let run := (index.collect rules path content).1
    let fault := (index.collect rules path content).2
    (∃ error, content.parse = .error error ∧ fault = some error ∧ run.oversized = none ∧
      run.index = index.merge { problems := [⟨error.message, error.position.filed path⟩] }) ∨
    ∃ file, content.parse = .ok file ∧ fault = none ∧
      (run.oversized = none ∧ run.index =
          (index.plus rules.strict path file.items file.root.literals).keeping rules file ∨
        ∃ front literal back numeral, file.root.literals = front ++ literal :: back ∧
          literal.Holds numeral ∧ Template.maxDigits < numeral.length ∧
          run.oversized = some numeral.length ∧
          (∀ earlier ∈ front, (index.resolve rules.strict path earlier).oversized = none) ∧
          run.index = index.plus rules.strict path file.items front ∧
          run.index.rawTree = index.rawTree) := by
  intro run fault
  cases parsed : content.parse with
  | error error =>
      left
      refine ⟨error, rfl, ?_, ?_, ?_⟩
      · simp only [fault, collect, parsed]
      · simp only [run, collect, parsed]
      · simp [run, collect, parsed, merge, addProblem, errorLocation]
  | ok file =>
      right
      have collected : index.collect rules path content =
          (index.collectFile rules path file, none) := by
        rw [collect, parsed]
      simp only [run, fault, collected]
      refine ⟨file, rfl, trivial, ?_⟩
      cases broken : (readLiterals path file.root.literals).2 with
      | none =>
          left
          rw [collectFile_oversized, collectFile_index broken, plus_eq broken]
          exact ⟨broken, rfl⟩
      | some digits =>
          right
          obtain ⟨front, literal, back, cut, failed, ahead, same⟩ := readLiterals_breaks broken
          obtain ⟨numeral, holds, long, length⟩ := literalMentions_breaks failed
          have partly : (index.collectFile rules path file).index =
              (index.classify path file.items).addMentions rules.strict
                (readLiterals path front).1 := by
            simp only [collectFile, resolveAll_eq, broken, same, Option.isNone_some, Bool.and_false,
              Bool.false_eq_true, if_false]
          refine ⟨front, literal, back, numeral, cut, holds, long, ?_, ?_, ?_, ?_⟩
          · rw [collectFile_oversized, broken, length]
          · intro earlier member
            obtain ⟨mentions, read, _⟩ := mem_readLiterals_of_mem ahead member
            rw [resolve_oversized, read]
          · rw [partly, plus_eq ahead]
          · rw [partly, addMentions_rawTree, classify_rawTree]

end Index

end ConfigIndex
