import ConfigIndex.Proofs.Index.Strict
import Mathlib.Logic.Function.Basic

/-!
Runs over several indexes: each is worked on by itself, and one is merged into another now and then.
At any point, what an index refers to is what was recorded into it or merged into it, by name.
-/

namespace ConfigIndex

open Document (Token File Item Content)

/-- What a dotted word refers to: its second component, of the kind that the first one tells. A word
without a point refers to nothing. -/
def Occurrence.ofWord? (word : String) (location : Position) : Option Occurrence :=
  match word.toList.splitOn '.' with
  | kind :: name :: rest => some {
      name := String.ofList name
      kind := if String.ofList kind = "var" then "variable" else String.ofList kind
      path := if rest.isEmpty then none else some (String.ofList (['.'].intercalate rest))
      location := location }
  | _ => none

def Document.Token.occurrences (path : String) (literal : Token) : List Occurrence :=
  match Template.parseAt literal.position.toPoint literal.text with
  | .ok root =>
    root.accesses.filterMap fun (word, point) => Occurrence.ofWord? word (point.filed path)
  | .error _ => []

def Document.Token.isOversized (literal : Token) : Bool :=
  match Template.parseAt literal.position.toPoint literal.text with
  | .error (.oversized _) => true
  | _ => false

def occurrencesOf (path : String) (literals : List Token) : List Occurrence :=
  (literals.takeWhile fun literal => !literal.isOversized).flatMap (Token.occurrences path)

theorem splitOn_of_cutAtPoint_none {text first : List Char}
    (cut : cutAtPoint text = (first, none)) : text.splitOn '.' = [first] := by
  obtain ⟨rfl, plain⟩ := cutAtPoint_none cut
  exact List.splitOn_eq_singleton plain

theorem splitOn_of_cutAtPoint_some {text first rest : List Char}
    (cut : cutAtPoint text = (first, some rest)) :
    text.splitOn '.' = first :: rest.splitOn '.' := by
  obtain ⟨rfl, plain⟩ := cutAtPoint_some cut
  exact List.splitOn_append_cons_self_of_not_mem plain rest

theorem occurrence?_mention (word : String) (location : Position) :
    (mention word location).occurrence? = Occurrence.ofWord? word location := by
  unfold mention Occurrence.ofWord?
  split
  · rename_i first cut
    rw [splitOn_of_cutAtPoint_none cut]
    rfl
  · rename_i first rest cut
    rw [splitOn_of_cutAtPoint_some cut]
    cases further : cutAtPoint rest with
    | mk second tail =>
        cases tail with
        | none =>
            rw [splitOn_of_cutAtPoint_none further]
            simp [Mention.occurrence?, kindOf_eq]
        | some behind =>
            have more : (behind.splitOn '.').isEmpty = false := by simp
            rw [splitOn_of_cutAtPoint_some further]
            simp [Mention.occurrence?, kindOf_eq, more, List.intercalate_splitOn]

theorem literalMentions_occurrences {path : String} {literal : Token} {mentions : List Mention}
    (read : literalMentions path literal = .ok mentions) :
    literal.isOversized = false ∧
      mentions.filterMap Mention.occurrence? = literal.occurrences path := by
  unfold Document.Token.isOversized Document.Token.occurrences
  obtain ⟨root, accepted, rfl⟩ | ⟨error, failed, rfl⟩ := literalMentions_cases read
  · rw [accepted, List.filterMap_map]
    refine ⟨rfl, ?_⟩
    congr 1
    funext access
    exact occurrence?_mention access.1 (access.2.filed path)
  · rw [failed]
    exact ⟨rfl, rfl⟩

theorem literalMentions_oversized {path : String} {literal : Token} {digits : Nat}
    (broken : literalMentions path literal = .error digits) : literal.isOversized = true := by
  rw [Document.Token.isOversized, literalMentions_eq_error broken]

theorem readLiterals_occurrences (path : String) (literals : List Token) :
    (readLiterals path literals).1.filterMap Mention.occurrence? = occurrencesOf path literals := by
  unfold occurrencesOf
  induction literals with
  | nil => rfl
  | cons literal rest ih =>
      cases read : literalMentions path literal with
      | error digits => simp [readLiterals, read, literalMentions_oversized read]
      | ok mentions =>
          obtain ⟨fine, own⟩ := literalMentions_occurrences read
          simp only [readLiterals, read, List.filterMap_append, own, ih]
          rw [List.takeWhile_cons_of_pos (by simp [fine]), List.flatMap_cons]

namespace Occurrence

structure Sound (occurrence : Occurrence) : Prop where
  undotted : '.' ∉ occurrence.name.toList
  kind : occurrence.kind ≠ "var"

theorem ofWord?_sound {word : String} {location : Position} {occurrence : Occurrence}
    (found : ofWord? word location = some occurrence) : occurrence.Sound := by
  rw [← occurrence?_mention, Mention.occurrence?_eq_some] at found
  obtain ⟨first, dissects, kind, -⟩ := dissects_of_mention found
  refine ⟨dissects.2.1, ?_⟩
  rw [kind, kindOf_eq]
  split
  · decide
  · assumption

theorem occurrences_sound {path : String} {literal : Token} {occurrence : Occurrence}
    (member : occurrence ∈ literal.occurrences path) : occurrence.Sound := by
  unfold Document.Token.occurrences at member
  split at member
  · obtain ⟨access, -, found⟩ := List.mem_filterMap.mp member
    exact ofWord?_sound found
  · cases member

theorem occurrencesOf_sound {path : String} {literals : List Token} {occurrence : Occurrence}
    (member : occurrence ∈ occurrencesOf path literals) : occurrence.Sound := by
  obtain ⟨literal, -, inside⟩ := List.mem_flatMap.mp member
  exact occurrences_sound inside

theorem keys_grouped (occurrences : List Occurrence) :
    (grouped occurrences).map Prod.fst = (occurrences.map Occurrence.name).eraseDups := by
  simp [grouped, Function.comp_def]

end Occurrence

namespace Index

inductive Action
  | collect (rules : Rules) (path : String) (content : Content)
  | collectFile (rules : Rules) (path : String) (file : File)
  | classify (path : String) (items : List Item)
  | resolve (strict : Bool) (path : String) (literal : Token)
  | refer (strict : Bool) (reference : String) (location : Position)

namespace Action

def apply (index : Index) : Action → Index
  | collect rules path content => (index.collect rules path content).1.index
  | collectFile rules path file => (index.collectFile rules path file).index
  | classify path items => index.classify path items
  | resolve strict path literal => (index.resolve strict path literal).index
  | refer strict reference location => (index.refer strict reference location).index

def occurrences : Action → List Occurrence
  | collect _ path content => occurrencesOf path content.literals
  | collectFile _ path file => occurrencesOf path file.root.literals
  | classify _ _ => []
  | resolve _ path literal => occurrencesOf path [literal]
  | refer _ reference location => (Occurrence.ofWord? reference location).toList

end Action

/-- A step of a run over numbered indexes. None is merged into itself. -/
inductive Step
  | act (target : Nat) (action : Action)
  | merge (target source : Nat) (apart : target ≠ source)

namespace Step

def apply (indexes : Nat → Index) : Step → Nat → Index
  | act target action =>
    Function.update indexes target (action.apply (indexes target))
  | merge target source _ =>
    Function.update indexes target ((indexes target).merge (indexes source))

/-- What a step adds to the history of an index: what it records there, or all that the history of
the other index has by then. -/
def record (histories : Nat → List Occurrence) : Step → Nat → List Occurrence
  | act target action =>
    Function.update histories target (histories target ++ action.occurrences)
  | merge target source _ =>
    Function.update histories target (histories target ++ histories source)

end Step

def run (steps : List Step) : Nat → Index :=
  steps.foldl Step.apply fun _ => {}

def history (steps : List Step) : Nat → List Occurrence :=
  steps.foldl Step.record fun _ => []

theorem collectFile_references (index : Index) (rules : Rules) (path : String) (file : File) :
    (index.collectFile rules path file).index.references = extendAll index.references
      ((occurrencesOf path file.root.literals).map Occurrence.entry) := by
  rw [collectFile_eq]
  simp only [addMentions_references, (classify_records index path file.items).1,
    readLiterals_occurrences]

theorem Action.apply_references (index : Index) (action : Action) :
    (action.apply index).references =
      extendAll index.references (action.occurrences.map Occurrence.entry) := by
  cases action with
  | collect rules path content =>
      cases parsed : content.parse with
      | error error =>
          simp [apply, Index.collect, occurrences, Content.literals, parsed, addProblem,
            occurrencesOf, extendAll]
      | ok file =>
          simp only [apply, occurrences, Content.literals, parsed, collect_eq_collectFile parsed,
            collectFile_references]
  | collectFile rules path file => exact collectFile_references index rules path file
  | classify path items => exact (classify_records index path items).1
  | resolve strict path literal =>
      simp only [apply, Index.resolve, resolveAll_eq, addMentions_references, occurrences,
        readLiterals_occurrences]
  | refer strict reference location =>
      simp only [apply, Index.refer, addMention_eq, Mention.entry?_eq, occurrence?_mention,
        occurrences, Option.toList_map]

theorem Action.sound_of_mem {action : Action} {occurrence : Occurrence}
    (member : occurrence ∈ action.occurrences) : occurrence.Sound := by
  cases action with
  | collect rules path content => exact Occurrence.occurrencesOf_sound member
  | collectFile rules path file => exact Occurrence.occurrencesOf_sound member
  | classify path items => cases member
  | resolve strict path literal => exact Occurrence.occurrencesOf_sound member
  | refer strict reference location => exact Occurrence.ofWord?_sound (Option.mem_toList.mp member)

theorem extendAll_grouped_grouped (first second : List Occurrence) :
    extendAll (Occurrence.grouped first) (Occurrence.grouped second) =
      Occurrence.grouped (first ++ second) := by
  have alone : Occurrence.grouped second = extendAll [] (second.map Occurrence.entry) :=
    (extendAll_grouped second []).symm
  rw [alone, extendAll_extendAll _ [] _ List.nodup_nil]
  exact extendAll_grouped second first

/-- An index refers to what is in its history, by name. -/
structure Kept (index : Index) (occurrences : List Occurrence) : Prop where
  references : index.references = Occurrence.grouped occurrences
  sound : ∀ occurrence ∈ occurrences, occurrence.Sound

namespace Kept

variable {index other : Index} {occurrences others : List Occurrence}

theorem empty : Kept {} [] :=
  ⟨rfl, fun _ member => nomatch member⟩

theorem act (kept : Kept index occurrences) (action : Action) :
    Kept (action.apply index) (occurrences ++ action.occurrences) := by
  constructor
  · rw [Action.apply_references, kept.references, extendAll_grouped]
  · intro occurrence member
    rcases List.mem_append.mp member with before | added
    · exact kept.sound occurrence before
    · exact Action.sound_of_mem added

theorem merge (kept : Kept index occurrences) (further : Kept other others) :
    Kept (index.merge other) (occurrences ++ others) := by
  constructor
  · have merged : (index.merge other).references = extendAll index.references other.references :=
      rfl
    rw [merged, kept.references, further.references, extendAll_grouped_grouped]
  · intro occurrence member
    rcases List.mem_append.mp member with before | added
    · exact kept.sound occurrence before
    · exact further.sound occurrence added

theorem nodup_keys (kept : Kept index occurrences) : (index.references.map Prod.fst).Nodup := by
  rw [kept.references, Occurrence.keys_grouped]
  exact nodup_eraseDups _

theorem mem_keys (kept : Kept index occurrences) {key : String} :
    key ∈ index.references.map Prod.fst ↔
      occurrences.filter (fun occurrence => occurrence.name = key) ≠ [] := by
  rw [kept.references, Occurrence.keys_grouped, List.mem_eraseDups]
  simp

theorem eq_of_mem (kept : Kept index occurrences) {key : String} {entry : Reference}
    (member : (key, entry) ∈ index.references) {last : Occurrence}
    (final : (occurrences.filter fun occurrence => occurrence.name = key).getLast? = some last) :
    entry = ⟨key, last.kind, last.path,
      (occurrences.filter fun occurrence => occurrence.name = key).map Occurrence.location⟩ := by
  rw [kept.references] at member
  obtain ⟨name, -, same⟩ := List.mem_map.mp member
  cases same
  simp [Occurrence.summary, final]

theorem update {indexes : Nat → Index} {histories : Nat → List Occurrence}
    (all : ∀ number, Kept (indexes number) (histories number)) (kept : Kept index occurrences)
    (target number : Nat) : Kept (Function.update indexes target index number)
      (Function.update histories target occurrences number) := by
  by_cases own : number = target
  · subst own
    rw [Function.update_self, Function.update_self]
    exact kept
  · rw [Function.update_of_ne own, Function.update_of_ne own]
    exact all number

theorem step {indexes : Nat → Index} {histories : Nat → List Occurrence}
    (all : ∀ number, Kept (indexes number) (histories number)) (step : Step) :
    ∀ number, Kept (step.apply indexes number) (step.record histories number) := by
  cases step with
  | act target action => exact update all ((all target).act action) target
  | merge target source _ => exact update all ((all target).merge (all source)) target

end Kept

theorem run_concat (steps : List Step) (step : Step) :
    run (steps ++ [step]) = step.apply (run steps) :=
  List.foldl_append

theorem history_concat (steps : List Step) (step : Step) :
    history (steps ++ [step]) = step.record (history steps) :=
  List.foldl_append

-- For all indexes at once: a merge needs the invariant of the index that it takes from, too.
theorem run_kept (steps : List Step) :
    ∀ number, Kept (run steps number) (history steps number) := by
  induction steps using List.reverseRecOn with
  | nil => exact fun number => Kept.empty
  | append_singleton steps step ih =>
      rw [run_concat, history_concat]
      exact Kept.step ih step

/-- Whatever run there was, each key of an index is the name of its entry and has no point in it.
The entry has all locations at which the name was recorded into the index or merged into it, in that
order, and there is one at least. Its kind, which is never the short word for a variable, and its
path are those of the last one. -/
theorem run_references (steps : List Step) (number : Nat) :
    let references := (run steps number).references
    let named key := (history steps number).filter fun occurrence => occurrence.name = key
    (references.map Prod.fst).Nodup ∧
      (∀ key, key ∈ references.map Prod.fst ↔ named key ≠ []) ∧
      ∀ key entry, (key, entry) ∈ references →
        key = entry.name ∧ '.' ∉ key.toList ∧ entry.locations ≠ [] ∧ entry.kind ≠ "var" ∧
          entry.locations = (named key).map Occurrence.location ∧
          ∃ last, (named key).getLast? = some last ∧ entry.kind = last.kind ∧
            entry.path = last.path := by
  intro references named
  have kept := run_kept steps number
  refine ⟨kept.nodup_keys, fun key => kept.mem_keys, ?_⟩
  intro key entry member
  have known := kept.mem_keys.mp (List.mem_map_of_mem member)
  obtain ⟨last, final⟩ := Option.ne_none_iff_exists'.mp (mt List.getLast?_eq_none_iff.mp known)
  obtain ⟨among, rfl⟩ : last ∈ history steps number ∧ last.name = key := by
    simpa using List.mem_of_getLast? final
  obtain ⟨undotted, kind⟩ := kept.sound last among
  rw [kept.eq_of_mem member final]
  exact ⟨rfl, undotted, mt List.map_eq_nil_iff.mp known, kind, rfl, last, final, rfl, rfl⟩

theorem run_references_merged :
    let steps : List Step := [
      .act 0 (.collect {} "a.tf" (.text "x = \"$\x7baws.a.id + var.b\x7d\"")),
      .act 1 (.refer true "module.a" ⟨"b.tf", 0, 1, 1⟩),
      .merge 0 1 (by decide),
      .act 0 (.refer false "var.a" ⟨"a.tf", 0, 2, 1⟩),
      .act 1 (.refer false "data.a.x.y" ⟨"b.tf", 0, 2, 1⟩),
      .merge 2 1 (by decide)]
    let entry : Reference := ⟨"a", "variable", none,
      [⟨"a.tf", 0, 1, 8⟩, ⟨"b.tf", 0, 1, 1⟩, ⟨"a.tf", 0, 2, 1⟩]⟩
    let named key := (history steps 0).filter fun occurrence => occurrence.name = key
    ("a", entry) ∈ (run steps 0).references ∧
      ("a" = entry.name ∧ '.' ∉ "a".toList ∧ entry.locations ≠ [] ∧ entry.kind ≠ "var" ∧
        entry.locations = (named "a").map Occurrence.location ∧
        ∃ last, (named "a").getLast? = some last ∧ entry.kind = last.kind ∧
          entry.path = last.path) ∧
      (run steps 0).references =
        [("a", entry), ("b", ⟨"b", "variable", none, [⟨"a.tf", 0, 1, 19⟩]⟩)] ∧
      (run steps 2).references = [("a", ⟨"a", "data", some "x.y",
        [⟨"b.tf", 0, 1, 1⟩, ⟨"b.tf", 0, 2, 1⟩]⟩)] := by
  intro steps entry named
  have member : ("a", entry) ∈ (run steps 0).references := by decide +kernel
  exact ⟨member, (run_references steps 0).2.2 "a" entry member, by decide +kernel,
    by decide +kernel⟩

end Index

end ConfigIndex
