import ConfigIndex.Proofs.Index.Outcome

/-!
What strict rules change. A document is collected as it is without them, but each variable that is
read by a word without a point is a problem as well.
-/

namespace ConfigIndex

open Document (Token File Content)

def Problem.isUnresolved (problem : Problem) : Bool :=
  "Cannot understand reference ".toList.isPrefixOf problem.message.toList

/-- The variables that a literal reads by words without a point; there are none if it is no
template. -/
def Document.Token.undotted (literal : Token) : List (String × Point) :=
  match Template.parseAt literal.position.toPoint literal.text with
  | .ok root => root.accesses.filter fun access => '.' ∉ access.1.toList
  | .error _ => []

def Document.Content.literals (content : Content) : List Token :=
  match content.parse with
  | .ok file => file.root.literals
  | .error _ => []

theorem Problem.isUnresolved_of_head {message : String}
    (apart : message.toList.head?.any (· ≠ 'C') = true) (location : Position) :
    Problem.isUnresolved ⟨message, location⟩ = false := by
  have word : "Cannot understand reference ".toList = 'C' :: "annot understand reference ".toList :=
    rfl
  cases chars : message.toList with
  | nil =>
      rw [chars] at apart
      cases apart
  | cons c rest =>
      have other : 'C' ≠ c := by
        rw [chars] at apart
        exact fun same => of_decide_eq_true apart same.symm
      rw [isUnresolved, chars, word, List.isPrefixOf, beq_false_of_ne other, Bool.false_and]

theorem Template.Error.not_isUnresolved (error : Template.Error) (location : Position) :
    Problem.isUnresolved ⟨error.message, location⟩ = false := by
  apply Problem.isUnresolved_of_head
  unfold message Fault.message
  split
  all_goals
    simp only [String.toList_append]
    rfl

theorem Document.Error.not_isUnresolved (error : Document.Error) (location : Position) :
    Problem.isUnresolved ⟨error.message, location⟩ = false := by
  apply Problem.isUnresolved_of_head
  unfold message Fault.message
  split
  all_goals
    simp only [String.toList_append]
    rfl

theorem Problem.isUnresolved_reference (reference : String) (location : Position) :
    Problem.isUnresolved ⟨"Cannot understand reference " ++ reference, location⟩ = true := by
  rw [isUnresolved, String.toList_append, List.isPrefixOf_iff_prefix]
  exact List.prefix_append _ _

/-! ### What the mentions of a literal amount to -/

theorem problem?_mention (strict : Bool) (word : String) (location : Position) :
    (mention word location).problem? strict =
      if '.' ∉ word.toList ∧ strict then
        some ⟨"Cannot understand reference " ++ word, location⟩
      else none := by
  by_cases dotted : '.' ∈ word.toList
  · rw [if_neg (fun single => single.1 dotted)]
    unfold mention
    split
    · rename_i first cut
      obtain ⟨whole, single⟩ := cutAtPoint_none cut
      exact absurd (whole ▸ dotted) single
    · rfl
  · have single : mention word location = .unresolved word location := by
      rw [mention, cutAtPoint_plain dotted]
    simp [single, dotted, Mention.problem?]

theorem problems_accesses (path : String) (accesses : List (String × Point)) :
    (accesses.map fun (word, point) => mention word (point.filed path)).filterMap
        (Mention.problem? true) =
      (accesses.filter fun access => '.' ∉ access.1.toList).map fun (word, point) =>
        ⟨"Cannot understand reference " ++ word, point.filed path⟩ := by
  induction accesses with
  | nil => rfl
  | cons access rest ih =>
      obtain ⟨word, point⟩ := access
      by_cases dotted : '.' ∈ word.toList
      · simp only [List.map_cons, List.filterMap_cons, problem?_mention, dotted, not_true,
          false_and, if_false, ih]
        rw [List.filter_cons_of_neg (by simpa using dotted)]
      · simp only [List.map_cons, List.filterMap_cons, problem?_mention, dotted, not_false_iff,
          and_self, if_true, ih]
        rw [List.filter_cons_of_pos (by simpa using dotted), List.map_cons]

theorem problems_accesses_lax (path : String) (accesses : List (String × Point)) :
    (accesses.map fun (word, point) => mention word (point.filed path)).filterMap
      (Mention.problem? false) = [] := by
  simp [problem?_mention]

section

variable {path : String} {literal : Token} {mentions : List Mention}

/-- Under strict rules, the problems of a literal are those that it has without them, and those of
the words without a point. -/
theorem literalMentions_problems (read : literalMentions path literal = .ok mentions) :
    (mentions.filterMap (Mention.problem? true)).filter Problem.isUnresolved =
        (literal.undotted.map fun (word, point) =>
          ⟨"Cannot understand reference " ++ word, point.filed path⟩) ∧
      mentions.filterMap (Mention.problem? false) =
        (mentions.filterMap (Mention.problem? true)).filter fun problem =>
          !problem.isUnresolved := by
  unfold Token.undotted
  obtain ⟨root, accepted, rfl⟩ | ⟨error, failed, rfl⟩ := literalMentions_cases read
  · rw [accepted, problems_accesses, problems_accesses_lax]
    constructor
    · rw [List.filter_eq_self]
      intro problem member
      obtain ⟨⟨word, point⟩, -, rfl⟩ := List.mem_map.mp member
      exact Problem.isUnresolved_reference word _
    · symm
      rw [List.filter_eq_nil_iff]
      intro problem member
      obtain ⟨⟨word, point⟩, -, rfl⟩ := List.mem_map.mp member
      rw [Problem.isUnresolved_reference]
      exact Bool.false_ne_true
  · have other := Template.Error.not_isUnresolved error (error.point.filed path)
    simp [failed, Mention.problem?, other]

theorem readLiterals_problems {literals : List Token}
    (whole : (readLiterals path literals).2 = none) :
    ((readLiterals path literals).1.filterMap (Mention.problem? true)).filter
        Problem.isUnresolved =
        ((literals.flatMap Token.undotted).map fun (word, point) =>
          ⟨"Cannot understand reference " ++ word, point.filed path⟩) ∧
      (readLiterals path literals).1.filterMap (Mention.problem? false) =
        ((readLiterals path literals).1.filterMap (Mention.problem? true)).filter fun problem =>
          !problem.isUnresolved := by
  induction literals with
  | nil => exact ⟨rfl, rfl⟩
  | cons literal rest ih =>
      cases read : literalMentions path literal with
      | error digits =>
          rw [readLiterals, read] at whole
          cases whole
      | ok mentions =>
          simp only [readLiterals, read] at whole ⊢
          obtain ⟨reports, others⟩ := literalMentions_problems read
          obtain ⟨laterReports, laterOthers⟩ := ih whole
          simp only [List.filterMap_append, List.filter_append, reports, others, laterReports,
            laterOthers, List.flatMap_cons, List.map_append, and_self]

end

theorem Document.Token.mem_undotted_iff {literal : Token} {word : String} {point : Point} :
    (word, point) ∈ literal.undotted ↔
      ∃ root, Template.parseAt literal.position.toPoint literal.text = .ok root ∧
        root.Reads word point ∧ '.' ∉ word.toList := by
  unfold Token.undotted
  cases Template.parseAt literal.position.toPoint literal.text with
  | error failure => simp
  | ok root => simp [List.mem_filter, Template.Node.mem_accesses_iff]

namespace Index

theorem collectFile_problems (index : Index) (rules : Rules) (path : String) (file : File) :
    (index.collectFile rules path file).index.problems = index.problems ++
      (readLiterals path file.root.literals).1.filterMap (Mention.problem? rules.strict) := by
  rw [collectFile_eq, addMentions_eq]
  simp only [(classify_records index path file.items).2]

/-- Strict rules change nothing but the problems. -/
theorem collectFile_strict (index : Index) (keepTree : Bool) (path : String) (file : File) :
    index.collectFile ⟨keepTree, true⟩ path file =
      let lax := index.collectFile ⟨keepTree, false⟩ path file
      { lax with index := { lax.index with
        problems := (index.collectFile ⟨keepTree, true⟩ path file).index.problems } } := by
  simp only [collectFile, resolveAll_eq, addMentions_eq]
  split
  · rfl
  · rfl

/-- With strict rules and without them, collecting a document comes to the same and leaves the same
index but for its problems. Without strict rules, those that tell of a reference which cannot be
understood are missing, of which there is one for each variable that is read by a word without a
point. The new problems are in the order of the text. -/
theorem collect_strict (index : Index) (keepTree : Bool) (path : String) (content : Content)
    (whole : (index.collect ⟨keepTree, false⟩ path content).1.oversized = none) :
    let lax := index.collect ⟨keepTree, false⟩ path content
    let strict := index.collect ⟨keepTree, true⟩ path content
    strict.2 = lax.2 ∧
      strict.1 = { lax.1 with
        index := { lax.1.index with problems := strict.1.index.problems } } ∧
      ∃ added : List Problem,
        strict.1.index.problems = index.problems ++ added ∧
        lax.1.index.problems =
          index.problems ++ (added.filter fun problem => !problem.isUnresolved) ∧
        added.filter Problem.isUnresolved =
          ((content.literals.flatMap Token.undotted).map fun (word, point) =>
            ⟨"Cannot understand reference " ++ word, point.filed path⟩) ∧
        (added.Pairwise fun first second => first.location.Before second.location) ∧
        ∀ literal ∈ content.literals, ∀ word point, (word, point) ∈ literal.undotted ↔
          ∃ root, Template.parseAt literal.position.toPoint literal.text = .ok root ∧
            root.Reads word point ∧ '.' ∉ word.toList := by
  intro lax strict
  cases parsed : content.parse with
  | error error =>
      have none : content.literals = [] := by rw [Content.literals, parsed]
      have other := error.not_isUnresolved (errorLocation path error)
      simp only [strict, lax, collect, parsed, none]
      refine ⟨trivial, trivial, [⟨error.message, errorLocation path error⟩], rfl, ?_, ?_, ?_, ?_⟩
      · simp [other, addProblem]
      · simp [other]
      · exact List.pairwise_singleton _ _
      · simp
  | ok file =>
      have all : content.literals = file.root.literals := by rw [Content.literals, parsed]
      rw [collect_eq_collectFile parsed, collectFile_oversized] at whole
      obtain ⟨reports, others⟩ := readLiterals_problems whole
      simp only [strict, lax, collect, parsed, all]
      refine ⟨trivial, collectFile_strict index keepTree path file, _,
        collectFile_problems index ⟨keepTree, true⟩ path file, ?_, reports, ?_, ?_⟩
      · rw [collectFile_problems, others]
      · have sorted : (readLiterals path file.root.literals).1.Pairwise
            fun first second => first.location.Before second.location :=
          readLiterals_sorted (Content.parse_apart parsed)
        refine sorted.filterMap _ ?_
        intro first second before problem counts other further
        rw [Mention.problem?_location counts, Mention.problem?_location further]
        exact before
      · intro literal _ word point
        exact Token.mem_undotted_iff

theorem collect_strict_nested :
    let source := "x = \"$\x7ba[b + var.c]\x7d\"\n" ++ "y = \"$\x7b\x7d $\x7bd\x7d\"\n" ++
      "z = [\"$\x7be\x7d\"]\n"
    let before := ({} : Index).addProblem "Cannot understand reference a" ⟨"old.tf", 0, 1, 1⟩
    let lax := before.collect ⟨true, false⟩ "main.tf" (.text source)
    let strict := before.collect ⟨true, true⟩ "main.tf" (.text source)
    lax.1.oversized = none ∧
      (strict.2 = lax.2 ∧
        strict.1 = { lax.1 with
          index := { lax.1.index with problems := strict.1.index.problems } } ∧
        ∃ added : List Problem,
          strict.1.index.problems = before.problems ++ added ∧
          lax.1.index.problems =
            before.problems ++ (added.filter fun problem => !problem.isUnresolved) ∧
          added.filter Problem.isUnresolved =
            (((Content.text source).literals.flatMap Token.undotted).map fun (word, point) =>
              ⟨"Cannot understand reference " ++ word, point.filed "main.tf"⟩) ∧
          (added.Pairwise fun first second => first.location.Before second.location) ∧
          ∀ literal ∈ (Content.text source).literals, ∀ word point,
            (word, point) ∈ literal.undotted ↔
              ∃ root, Template.parseAt literal.position.toPoint literal.text = .ok root ∧
                root.Reads word point ∧ '.' ∉ word.toList) ∧
      strict.1.index.problems.map Problem.location =
        [⟨"old.tf", 0, 1, 1⟩, ⟨"main.tf", 0, 1, 8⟩, ⟨"main.tf", 0, 1, 10⟩, ⟨"main.tf", 0, 2, 8⟩,
          ⟨"main.tf", 0, 3, 9⟩] ∧
      lax.1.index.problems.map Problem.location =
        [⟨"old.tf", 0, 1, 1⟩, ⟨"main.tf", 0, 2, 8⟩] := by
  intro source before lax strict
  have whole : lax.1.oversized = none := by decide +kernel
  exact ⟨whole, collect_strict before true "main.tf" (.text source) whole, by decide +kernel,
    by decide +kernel⟩

end Index

end ConfigIndex
