import ConfigIndex.Proofs.Index.Mentions
import ConfigIndex.Proofs.Index.References

/-!
Merging indexes, and collecting documents into one index: one after another, these give what merging
the indexes of the single documents gives.
-/

namespace ConfigIndex

open Document (Token File Item)

namespace Index

theorem merge_empty (index : Index) : index.merge {} = index := by
  simp [merge]

theorem empty_merge {index : Index} (distinct : (index.references.map Prod.fst).Nodup)
    (version : String) :
    ({ version := version } : Index).merge index = { index with version := version } := by
  have entries := extendAll_of_fresh index.references [] distinct
  simp only [extendAll, List.nil_append] at entries
  simp [merge, entries]

theorem merge_assoc (index : Index) {first : Index}
    (distinct : (first.references.map Prod.fst).Nodup) (second : Index) :
    (index.merge first).merge second = index.merge (first.merge second) := by
  have entries := extendAll_extendAll second.references first.references index.references distinct
  simp only [extendAll] at entries
  simp only [merge, entries, List.append_assoc, Option.or_assoc]

theorem nodup_keys_merge {index : Index} (distinct : (index.references.map Prod.fst).Nodup)
    (other : Index) : ((index.merge other).references.map Prod.fst).Nodup :=
  nodup_keys_extendAll other.references index.references distinct

/-- Indexes are merged into another one by one or all at once, with the same outcome. An index
without contents adds nothing, and into one all is taken over but the version. A key that has one
entry in each index has one in what they are merged to. -/
theorem merge_action (first second third : Index)
    (distinct : (second.references.map Prod.fst).Nodup) :
    (first.merge second).merge third = first.merge (second.merge third) ∧
      (∀ version, first.merge { version := version } = first) ∧
      (∀ version, ({ version := version } : Index).merge second =
        { second with version := version }) ∧
      ((second.merge third).references.map Prod.fst).Nodup := by
  refine ⟨merge_assoc first distinct third, ?_, empty_merge distinct,
    nodup_keys_merge distinct third⟩
  intro version
  exact merge_empty first

theorem merge_action_shared :
    let first : Index := { references := [("a", ⟨"a", "variable", none, [⟨"a.tf", 0, 1, 1⟩]⟩)] }
    let second : Index := {
      version := "2.0.0"
      problems := [⟨"illegal character '@'", ⟨"b.tf", 0, 1, 1⟩⟩]
      references := [("b", ⟨"B", "data", some "id", [⟨"b.tf", 0, 2, 1⟩]⟩),
        ("a", ⟨"A", "aws", some "arn", [⟨"b.tf", 0, 3, 1⟩]⟩)]
      rawTree := some (.data (.text "kept")) }
    let third : Index := { references := [("c", ⟨"c", "local", none, []⟩),
      ("b", ⟨"b", "module", none, [⟨"c.tf", 0, 1, 1⟩]⟩)] }
    (second.references.map Prod.fst).Nodup ∧
      ((first.merge second).merge third = first.merge (second.merge third) ∧
        (∀ version, first.merge { version := version } = first) ∧
        (∀ version, ({ version := version } : Index).merge second =
          { second with version := version }) ∧
        ((second.merge third).references.map Prod.fst).Nodup) ∧
      (first.merge (second.merge third)).references = [
        ("a", ⟨"a", "aws", some "arn", [⟨"a.tf", 0, 1, 1⟩, ⟨"b.tf", 0, 3, 1⟩]⟩),
        ("b", ⟨"B", "module", none, [⟨"b.tf", 0, 2, 1⟩, ⟨"c.tf", 0, 1, 1⟩]⟩),
        ("c", ⟨"c", "local", none, []⟩)] := by
  intro first second third
  have distinct : (second.references.map Prod.fst).Nodup := by decide
  exact ⟨distinct, merge_action first second third distinct, by decide⟩

theorem merge_declare (index other : Index) (declaration : Declaration) :
    (index.merge other).declare declaration = index.merge (other.declare declaration) := by
  cases declaration with
  | _ => simp [declare, merge]

theorem merge_addFinding (index other : Index) (finding : Finding) :
    (index.merge other).addFinding finding = index.merge (other.addFinding finding) := by
  cases finding with
  | declared declaration => exact merge_declare index other declaration
  | _ => rfl

theorem merge_classify (path : String) (items : List Item) : ∀ index other : Index,
    (index.merge other).classify path items = index.merge (other.classify path items) := by
  unfold classify
  induction items with
  | nil => exact fun index other => rfl
  | cons item rest ih =>
      intro index other
      rw [List.map_cons, List.foldl_cons, List.foldl_cons, merge_addFinding]
      exact ih index _

theorem merge_addMentions {other : Index} (distinct : (other.references.map Prod.fst).Nodup)
    (index : Index) (strict : Bool) (mentions : List Mention) :
    (index.merge other).addMentions strict mentions =
      index.merge (other.addMentions strict mentions) := by
  have references := extendAll_extendAll (mentions.filterMap Mention.entry?) other.references
    index.references distinct
  simp only [addMentions_eq, merge, List.append_assoc]
  simp only [extendAll] at references ⊢
  rw [references]

theorem merge_keeping (index other : Index) (rules : Rules) (file : File) :
    (index.merge other).keeping rules file = index.merge (other.keeping rules file) := by
  unfold keeping
  split
  · simp [merge]
  · rfl

end Index

structure Request where
  rules : Rules
  path : String
  content : Document.Content

namespace Request

def into (request : Request) (index : Index) : Except Nat Index :=
  let progress := (index.collect request.rules request.path request.content).1
  match progress.oversized with
  | none => .ok progress.index
  | some digits => .error digits

theorem into_of_error {request : Request} {error : Document.Error}
    (failed : request.content.parse = .error error) (index : Index) :
    request.into index = .ok { index with
      problems := index.problems ++ [⟨error.message, error.position.filed request.path⟩] } := by
  simp [into, Index.collect, failed, Index.addProblem, Index.errorLocation]

theorem into_of_ok {request : Request} {file : File} (read : request.content.parse = .ok file)
    (index : Index) :
    request.into index = match (readLiterals request.path file.root.literals).2 with
      | none => .ok (((index.classify request.path file.items).addMentions request.rules.strict
          (readLiterals request.path file.root.literals).1).keeping request.rules file)
      | some digits => .error digits := by
  simp only [into, Index.collect, read, collectFile_oversized]
  cases broken : (readLiterals request.path file.root.literals).2 with
  | none => simp only [collectFile_index broken]
  | some digits => rfl

/-- Whatever an index holds, a document adds to it what it leaves in an empty one. -/
theorem into_eq_merge (request : Request) (index : Index) :
    request.into index = (request.into {}).map index.merge := by
  cases parsed : request.content.parse with
  | error error =>
      rw [into_of_error parsed, into_of_error parsed]
      simp [Except.map, Index.merge]
  | ok file =>
      have distinct : ((({} : Index).classify request.path file.items).references.map
          Prod.fst).Nodup := by
        rw [(classify_records {} request.path file.items).1]
        exact List.nodup_nil
      have declared : index.classify request.path file.items =
          index.merge (({} : Index).classify request.path file.items) := by
        rw [← Index.merge_classify, Index.merge_empty]
      rw [into_of_ok parsed, into_of_ok parsed, declared, Index.merge_addMentions distinct,
        Index.merge_keeping]
      cases (readLiterals request.path file.root.literals).2 with
      | none => rfl
      | some digits => rfl

end Request

namespace Index

def collectAll (index : Index) (requests : List Request) : Except Nat Index :=
  requests.foldlM (fun index request => request.into index) index

/-- Collects each document into an index of its own, and merges these one after another. -/
def mergeAll (index : Index) (requests : List Request) : Except Nat Index :=
  (requests.mapM (Request.into · {})).map fun parts => parts.foldl merge index

theorem collectAll_cons (index : Index) (request : Request) (rest : List Request) :
    index.collectAll (request :: rest) =
      (request.into index).bind fun next => next.collectAll rest := by
  rw [collectAll, List.foldlM_cons]
  rfl

theorem mergeAll_cons (index : Index) (request : Request) (rest : List Request) :
    index.mergeAll (request :: rest) =
      (request.into {}).bind fun part => (index.merge part).mergeAll rest := by
  simp only [mergeAll, List.mapM_cons]
  cases request.into {} with
  | error digits => rfl
  | ok part =>
      cases rest.mapM (Request.into · {}) with
      | error digits => rfl
      | ok parts => rfl

/-- Documents can be indexed each by itself and their indexes merged: the outcome is the same, and
so is the number of digits that the work breaks off with. A document that cannot be read adds one
problem and nothing else. -/
theorem collectAll_eq_mergeAll (index : Index) (requests : List Request) :
    index.collectAll requests = index.mergeAll requests ∧
      ∀ request ∈ requests, ∀ error, request.content.parse = .error error → ∀ before : Index,
        request.into before = .ok { before with
          problems := before.problems ++ [⟨error.message, error.position.filed request.path⟩] } := by
  constructor
  · induction requests generalizing index with
    | nil => simp [collectAll, mergeAll, pure, Except.pure, Except.map]
    | cons request rest ih =>
        rw [collectAll_cons, mergeAll_cons, request.into_eq_merge index]
        cases request.into {} with
        | error digits => rfl
        | ok part => exact ih (index.merge part)
  · intro request _ error failed before
    exact Request.into_of_error failed before

theorem collectAll_eq_mergeAll_shared :
    let requests : List Request := [
      ⟨{ keepTree := true }, "a.tf", .text "x = \"$\x7bvar.a\x7d\"\n"⟩,
      ⟨{}, "b.tf", .text "@"⟩,
      ⟨{ strict := true }, "c.tf", .text "y = \"$\x7baws.b.c + aws.a.id + d\x7d\"\n"⟩]
    (∃ index, ({} : Index).collectAll requests = .ok index ∧
      ({} : Index).mergeAll requests = .ok index ∧
      index.references = [
        ("a", ⟨"a", "aws", some "id", [⟨"a.tf", 0, 1, 8⟩, ⟨"c.tf", 0, 1, 18⟩]⟩),
        ("b", ⟨"b", "aws", some "c", [⟨"c.tf", 0, 1, 8⟩]⟩)] ∧
      index.problems.length = 2 ∧ index.rawTree.isSome = true) ∧
    ∃ error, (Document.Content.text "@").parse = .error error ∧ ∀ before : Index,
      Request.into ⟨{}, "b.tf", .text "@"⟩ before = .ok { before with
        problems := before.problems ++ [⟨error.message, error.position.filed "b.tf"⟩] } := by
  intro requests
  obtain ⟨same, failing⟩ := collectAll_eq_mergeAll {} requests
  constructor
  · have run : (({} : Index).collectAll requests).toOption.map (fun index =>
        (index.references, index.problems.length, index.rawTree.isSome)) = some
          ([("a", ⟨"a", "aws", some "id", [⟨"a.tf", 0, 1, 8⟩, ⟨"c.tf", 0, 1, 18⟩]⟩),
            ("b", ⟨"b", "aws", some "c", [⟨"c.tf", 0, 1, 8⟩]⟩)], 2, true) := by
      decide +kernel
    cases found : ({} : Index).collectAll requests with
    | error digits =>
        rw [found] at run
        cases run
    | ok index =>
        rw [found] at run same
        obtain ⟨references, problems, tree⟩ := by
          simpa only [Except.toOption, Option.map_some, Option.some.injEq, Prod.mk.injEq] using run
        exact ⟨index, rfl, same.symm, references, problems, tree⟩
  · cases parsed : (Document.Content.text "@").parse with
    | ok file =>
        have rejected : (Document.Content.text "@").parse.toOption.isSome = false := by
          decide +kernel
        rw [parsed] at rejected
        cases rejected
    | error error =>
        exact ⟨error, rfl, failing ⟨{}, "b.tf", .text "@"⟩ (by simp [requests]) error parsed⟩

end Index

end ConfigIndex
