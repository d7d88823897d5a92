import ConfigIndex.Proofs.Document.Apart
import ConfigIndex.Proofs.Index.Mentions
import ConfigIndex.Proofs.Index.References
import ConfigIndex.Proofs.Template.Order
import Mathlib.Data.List.Induction
import Mathlib.Data.List.TakeWhile

/-!
What an index holds of one document: its references are the variables of the document, grouped by
name and each group in the order of the text, and its problems are in that order too.
-/

namespace ConfigIndex

open Document (Token File Content)

theorem eraseDups_concat {names : List String} {name : String} :
    (names ++ [name]).eraseDups =
      if name ∈ names then names.eraseDups else names.eraseDups ++ [name] := by
  rw [List.eraseDups_append]
  by_cases known : name ∈ names
  · simp [List.removeAll, known]
  · simp [List.removeAll, known, List.eraseDups_cons]

theorem nodup_eraseDups (names : List String) : names.eraseDups.Nodup := by
  induction names using List.reverseRecOn with
  | nil => exact List.nodup_nil
  | append_singleton names name ih =>
      rw [eraseDups_concat]
      split
      · exact ih
      · rename_i fresh
        exact List.nodup_append.mpr ⟨ih, by simp, by
          intro other member single only same
          rw [List.mem_singleton.mp only] at same
          exact fresh (same ▸ List.mem_eraseDups.mp member)⟩

structure Occurrence where
  name : String
  kind : String
  path : Option String
  location : Position
deriving DecidableEq, Repr

namespace Occurrence

def entry (occurrence : Occurrence) : String × Reference :=
  (occurrence.name,
    ⟨occurrence.name, occurrence.kind, occurrence.path, [occurrence.location]⟩)

def summary (occurrences : List Occurrence) (name : String) : Reference :=
  let own := occurrences.filter fun occurrence => occurrence.name = name
  { name := name
    kind := (own.getLast?.map Occurrence.kind).getD ""
    path := own.getLast?.bind Occurrence.path
    locations := own.map Occurrence.location }

/-- The occurrences by name, in the order in which the names first occur. -/
def grouped (occurrences : List Occurrence) : List (String × Reference) :=
  (occurrences.map Occurrence.name).eraseDups.map fun name => (name, summary occurrences name)

theorem summary_concat_ne {occurrence : Occurrence} {name : String}
    (other : name ≠ occurrence.name) (occurrences : List Occurrence) :
    summary (occurrences ++ [occurrence]) name = summary occurrences name := by
  simp [summary, List.filter_append, Ne.symm other]

theorem summary_concat_self (occurrences : List Occurrence) (occurrence : Occurrence) :
    summary (occurrences ++ [occurrence]) occurrence.name =
      Index.join (summary occurrences occurrence.name) occurrence.entry.2 := by
  simp [summary, Index.join, entry, List.filter_append]

theorem summary_concat_fresh {occurrences : List Occurrence} {occurrence : Occurrence}
    (fresh : occurrence.name ∉ occurrences.map Occurrence.name) :
    summary (occurrences ++ [occurrence]) occurrence.name = occurrence.entry.2 := by
  have none : occurrences.filter (fun other => other.name = occurrence.name) = [] := by
    rw [List.filter_eq_nil_iff]
    intro other member
    rw [decide_eq_true_eq]
    exact fun same => fresh (List.mem_map.mpr ⟨other, member, same⟩)
  simp [summary, entry, List.filter_append, none]

end Occurrence

namespace Index

theorem extend_map (key : String) (added : Reference) (entry : String → Reference)
    {names : List String} (distinct : names.Nodup) :
    extend (names.map fun name => (name, entry name)) key added =
      if key ∈ names then
        names.map fun name => (name, if name = key then join (entry name) added else entry name)
      else names.map (fun name => (name, entry name)) ++ [(key, added)] := by
  induction names with
  | nil => rfl
  | cons name rest ih =>
      rw [List.nodup_cons] at distinct
      by_cases same : name = key
      · subst same
        have others : ∀ other ∈ rest, other ≠ name := fun other member same =>
          distinct.1 (same ▸ member)
        rw [List.map_cons, extend_cons_self]
        simp only [List.mem_cons, true_or, if_true, List.map_cons, List.cons.injEq, true_and]
        exact List.map_congr_left fun other member => by rw [if_neg (others other member)]
      · rw [List.map_cons, extend_cons_ne same, ih distinct.2]
        by_cases later : key ∈ rest
        · simp [later, same]
        · simp [later, Ne.symm same]

/-- One more occurrence is added to the group of its name. -/
theorem extend_grouped (occurrences : List Occurrence) (occurrence : Occurrence) :
    extend (Occurrence.grouped occurrences) occurrence.name occurrence.entry.2 =
      Occurrence.grouped (occurrences ++ [occurrence]) := by
  unfold Occurrence.grouped
  rw [extend_map _ _ _ (nodup_eraseDups _), List.map_append, List.map_cons, List.map_nil,
    eraseDups_concat]
  by_cases known : occurrence.name ∈ occurrences.map Occurrence.name
  · rw [if_pos (List.mem_eraseDups.mpr known), if_pos known]
    refine List.map_congr_left fun name _ => ?_
    by_cases same : name = occurrence.name
    · rw [if_pos same, same, Occurrence.summary_concat_self]
    · rw [if_neg same, Occurrence.summary_concat_ne same]
  · have fresh : occurrence.name ∉ (occurrences.map Occurrence.name).eraseDups := fun member =>
      known (List.mem_eraseDups.mp member)
    rw [if_neg fresh, if_neg known, List.map_append, List.map_cons, List.map_nil,
      Occurrence.summary_concat_fresh known]
    congr 1
    refine List.map_congr_left fun name member => ?_
    have other : name ≠ occurrence.name := fun same =>
      known (same ▸ List.mem_eraseDups.mp member)
    rw [Occurrence.summary_concat_ne other]

theorem extendAll_grouped (rest : List Occurrence) : ∀ occurrences : List Occurrence,
    extendAll (Occurrence.grouped occurrences) (rest.map Occurrence.entry) =
      Occurrence.grouped (occurrences ++ rest) := by
  induction rest with
  | nil =>
      intro occurrences
      rw [List.append_nil]
      rfl
  | cons occurrence rest ih =>
      intro occurrences
      have step : extendAll (Occurrence.grouped occurrences)
          ((occurrence :: rest).map Occurrence.entry) =
          extendAll (extend (Occurrence.grouped occurrences) occurrence.name occurrence.entry.2)
            (rest.map Occurrence.entry) := rfl
      rw [step, extend_grouped, ih, List.append_assoc, List.singleton_append]

end Index

/-- A dotted word: what stands before its first point, from there up to the next one, and behind
that one if there is one. -/
def Dissects (word kind name : String) (path : Option String) : Prop :=
  '.' ∉ kind.toList ∧ '.' ∉ name.toList ∧ word = kind ++ "." ++ name ++ match path with
    | none => ""
    | some behind => "." ++ behind

theorem cutAtPoint_plain {text : List Char} (plain : '.' ∉ text) :
    cutAtPoint text = (text, none) := by
  have all : ∀ c ∈ text, decide (c ≠ '.') = true := fun c member =>
    decide_eq_true fun same => plain (same ▸ member)
  simp only [cutAtPoint, List.takeWhile_eq_self_iff.mpr all, List.dropWhile_eq_nil_iff.mpr all]

theorem cutAtPoint_append {first : List Char} (plain : '.' ∉ first) (rest : List Char) :
    cutAtPoint (first ++ '.' :: rest) = (first, some rest) := by
  have all : ∀ c ∈ first, decide (c ≠ '.') = true := fun c member =>
    decide_eq_true fun same => plain (same ▸ member)
  simp only [cutAtPoint, List.takeWhile_append_of_pos all, List.dropWhile_append_of_pos all]
  simp

theorem mention_of_dissects {word kind name : String} {path : Option String}
    (dissects : Dissects word kind name path) (location : Position) :
    mention word location = .resolved name (kindOf kind) path location := by
  obtain ⟨plain, single, rfl⟩ := dissects
  cases path with
  | none => simp [mention, cutAtPoint_append plain, cutAtPoint_plain single]
  | some behind =>
      have further := cutAtPoint_append single behind.toList
      simp [mention, cutAtPoint_append plain, further]

theorem dissects_of_mention {word name kind : String} {path : Option String}
    {location place : Position} (read : mention word location = .resolved name kind path place) :
    ∃ first, Dissects word first name path ∧ kind = kindOf first ∧ place = location := by
  unfold mention at read
  split at read
  · cases read
  · rename_i first rest cut
    obtain ⟨whole, plain⟩ := cutAtPoint_some cut
    cases further : cutAtPoint rest with
    | mk second tail =>
        rw [further] at read
        cases read
        refine ⟨String.ofList first, ⟨by simpa using plain, ?_, ?_⟩, rfl, rfl⟩
        · cases tail with
          | none => simpa using (cutAtPoint_none further).2
          | some behind => simpa using (cutAtPoint_some further).2
        · apply String.toList_injective
          cases tail with
          | none => simp [whole, (cutAtPoint_none further).1]
          | some behind => simp [whole, (cutAtPoint_some further).1]

namespace Mention

def occurrence? : Mention → Option Occurrence
  | resolved name kind path location => some ⟨name, kind, path, location⟩
  | _ => none

theorem entry?_eq (mention : Mention) :
    mention.entry? = mention.occurrence?.map Occurrence.entry := by
  cases mention with
  | _ => rfl

theorem occurrence?_eq_some {mention : Mention} {occurrence : Occurrence} :
    mention.occurrence? = some occurrence ↔ mention =
      .resolved occurrence.name occurrence.kind occurrence.path occurrence.location := by
  cases mention with
  | resolved name kind path location =>
      constructor
      · intro named
        cases named
        rfl
      · intro same
        cases same
        rfl
  | unresolved reference location => simp [occurrence?]
  | malformed message location => simp [occurrence?]

theorem occurrence?_location {mention : Mention} {occurrence : Occurrence}
    (named : mention.occurrence? = some occurrence) : occurrence.location = mention.location := by
  rw [occurrence?_eq_some.mp named]
  rfl

end Mention

theorem Index.addMentions_references (index : Index) (strict : Bool) (mentions : List Mention) :
    (index.addMentions strict mentions).references = extendAll index.references
      ((mentions.filterMap Mention.occurrence?).map Occurrence.entry) := by
  rw [addMentions_eq, List.map_filterMap]
  simp only [funext Mention.entry?_eq]

theorem mention_location (word : String) (location : Position) :
    (mention word location).location = location := by
  rcases mention_cases word location with same | ⟨name, kind, path, same, _⟩
  · rw [same]
    rfl
  · rw [same]
    rfl

section

variable {path : String} {token : Token} {tokens : List Token} {mentions : List Mention}

theorem literalMentions_inside (read : literalMentions path token = .ok mentions) :
    ∀ mention ∈ mentions, ∃ point, mention.location = point.filed path ∧
      Template.Inside point token.position.toPoint token.text.toList := by
  obtain ⟨root, accepted, rfl⟩ | ⟨error, failed, rfl⟩ := literalMentions_cases read
  · intro other listed
    obtain ⟨⟨word, point⟩, access, rfl⟩ := List.mem_map.mp listed
    obtain ⟨front, rest, cut, moved, _⟩ := Template.parseChars_accesses accepted access
    exact ⟨point, mention_location word _, front, rest, cut, moved⟩
  · intro mention only
    rw [List.mem_singleton.mp only]
    exact ⟨error.point, rfl, Template.parseChars_faulty failed⟩

theorem literalMentions_sorted (read : literalMentions path token = .ok mentions) :
    mentions.Pairwise fun first second => first.location.Before second.location := by
  obtain ⟨root, accepted, rfl⟩ | ⟨error, -, rfl⟩ := literalMentions_cases read
  · refine List.pairwise_map.mpr ((Template.parseChars_sorted accepted).imp ?_)
    intro first second before
    rw [mention_location, mention_location]
    exact before
  · exact List.pairwise_singleton _ _

/-- What a literal mentions stands before all that one further down mentions. -/
theorem literalMentions_before {second : Token} {others : List Mention} {mention other : Mention}
    (apart : token.Precedes second) (read : literalMentions path token = .ok mentions)
    (further : literalMentions path second = .ok others) (member : mention ∈ mentions)
    (listed : other ∈ others) : mention.location.Before other.location := by
  obtain ⟨gap, filled, moved⟩ := apart
  obtain ⟨point, place, front, rest, cut, rfl⟩ := literalMentions_inside read mention member
  obtain ⟨target, location, start, left, _, rfl⟩ := literalMentions_inside further other listed
  have behind : second.position.toPoint.advanceBy start =
      (token.position.toPoint.advanceBy front).advanceBy (rest ++ gap ++ start) := by
    rw [moved, Position.toPoint_advanceBy, Position.toPoint_advanceBy, cut]
    simp only [Point.advanceBy_append]
  rw [place, location, behind]
  exact Point.before_advanceBy (by simp [filled]) (token.position.toPoint.advanceBy front)

theorem mem_readLiterals {mention : Mention} (member : mention ∈ (readLiterals path tokens).1) :
    ∃ token ∈ tokens, ∃ mentions, literalMentions path token = .ok mentions ∧
      mention ∈ mentions := by
  induction tokens with
  | nil => cases member
  | cons token rest ih =>
      cases read : literalMentions path token with
      | error digits =>
          rw [readLiterals, read] at member
          cases member
      | ok mentions =>
          rw [readLiterals, read] at member
          rcases List.mem_append.mp member with here | later
          · exact ⟨token, List.mem_cons_self, mentions, read, here⟩
          · obtain ⟨other, among, found⟩ := ih later
            exact ⟨other, List.mem_cons_of_mem token among, found⟩

theorem mem_readLiterals_of_mem (whole : (readLiterals path tokens).2 = none)
    (among : token ∈ tokens) :
    ∃ mentions, literalMentions path token = .ok mentions ∧
      ∀ mention ∈ mentions, mention ∈ (readLiterals path tokens).1 := by
  induction tokens with
  | nil => cases among
  | cons first rest ih =>
      cases read : literalMentions path first with
      | error digits =>
          rw [readLiterals, read] at whole
          cases whole
      | ok mentions =>
          simp only [readLiterals, read] at whole ⊢
          rcases List.mem_cons.mp among with rfl | later
          · exact ⟨mentions, read, fun mention member => List.mem_append_left _ member⟩
          · obtain ⟨others, found, all⟩ := ih whole later
            exact ⟨others, found, fun mention member =>
              List.mem_append_right _ (all mention member)⟩

theorem readLiterals_sorted (apart : tokens.Pairwise Token.Precedes) :
    (readLiterals path tokens).1.Pairwise
      fun first second => first.location.Before second.location := by
  induction tokens with
  | nil => exact List.Pairwise.nil
  | cons token rest ih =>
      obtain ⟨ahead, apart⟩ := List.pairwise_cons.mp apart
      cases read : literalMentions path token with
      | error digits =>
          rw [readLiterals, read]
          exact List.Pairwise.nil
      | ok mentions =>
          rw [readLiterals, read]
          refine List.pairwise_append.mpr ⟨literalMentions_sorted read, ih apart, ?_⟩
          intro mention member other listed
          obtain ⟨second, among, others, further, inside⟩ := mem_readLiterals listed
          exact literalMentions_before (ahead second among) read further member inside

end

/-- A literal that is a template reads a variable there, whose second component is the name. -/
def Occurrence.In (occurrence : Occurrence) (path : String) (literals : List Token) : Prop :=
  ∃ token ∈ literals, ∃ root, Template.parseAt token.position.toPoint token.text = .ok root ∧
    ∃ word point first, root.Reads word point ∧
      Dissects word first occurrence.name occurrence.path ∧
      occurrence.kind = (if first = "var" then "variable" else first) ∧
      occurrence.location = point.filed path

theorem kindOf_eq (word : String) :
    kindOf word = if word = "var" then "variable" else word := by
  simp [kindOf]

theorem literalMentions_reads {path : String} {token : Token} {mentions : List Mention}
    {occurrence : Occurrence} (read : literalMentions path token = .ok mentions)
    (member : .resolved occurrence.name occurrence.kind occurrence.path occurrence.location ∈
      mentions) : occurrence.In path [token] := by
  obtain ⟨root, accepted, rfl⟩ | ⟨error, -, rfl⟩ := literalMentions_cases read
  · obtain ⟨⟨word, point⟩, access, same⟩ := List.mem_map.mp member
    obtain ⟨first, dissects, kind, place⟩ := dissects_of_mention same
    exact ⟨token, List.mem_singleton_self token, root, accepted, word, point, first,
      Template.Node.mem_accesses_iff.mp access, dissects, kind.trans (kindOf_eq first), place⟩
  · cases List.mem_singleton.mp member

/-- The occurrences in a document are what its literals mention by name. -/
theorem mem_occurrences_iff {path : String} {tokens : List Token}
    (whole : (readLiterals path tokens).2 = none) (occurrence : Occurrence) :
    occurrence ∈ (readLiterals path tokens).1.filterMap Mention.occurrence? ↔
      occurrence.In path tokens := by
  constructor
  · intro member
    obtain ⟨mention, listed, named⟩ := List.mem_filterMap.mp member
    obtain ⟨token, among, mentions, read, inside⟩ := mem_readLiterals listed
    rw [Mention.occurrence?_eq_some] at named
    obtain ⟨other, single, reads⟩ := literalMentions_reads read (named ▸ inside)
    rw [List.mem_singleton.mp single] at reads
    exact ⟨token, among, reads⟩
  · rintro ⟨token, among, root, accepted, word, point, first, reads, dissects, kind, place⟩
    obtain ⟨mentions, read, all⟩ := mem_readLiterals_of_mem whole among
    have listed : mention word (point.filed path) ∈ mentions := by
      rw [literalMentions, accepted] at read
      cases read
      exact List.mem_map.mpr ⟨(word, point), Template.Node.mem_accesses_iff.mpr reads, rfl⟩
    refine List.mem_filterMap.mpr ⟨_, all _ listed, ?_⟩
    rw [Mention.occurrence?_eq_some, mention_of_dissects dissects, kindOf_eq, ← kind, ← place]

theorem Document.Content.parse_apart {content : Content} {file : File}
    (read : content.parse = .ok file) : file.root.literals.Pairwise Token.Precedes := by
  cases content with
  | text source => exact parseChars_apart read
  | bytes source =>
      unfold Content.parse parseBytes at read
      simp only at read
      split at read
      · cases read
      · exact parseChars_apart read

theorem collectFile_records {path : String} {file : File} (rules : Rules)
    (whole : (readLiterals path file.root.literals).2 = none) :
    (({} : Index).collectFile rules path file).index.references = Occurrence.grouped
        ((readLiterals path file.root.literals).1.filterMap Mention.occurrence?) ∧
      (({} : Index).collectFile rules path file).index.problems =
        (readLiterals path file.root.literals).1.filterMap (Mention.problem? rules.strict) := by
  obtain ⟨references, problems⟩ := classify_records {} path file.items
  have groups := Index.extendAll_grouped
    ((readLiterals path file.root.literals).1.filterMap Mention.occurrence?) []
  rw [collectFile_index whole]
  unfold Index.keeping
  constructor
  · split
    · simp only [Index.addMentions_references, references]
      exact groups
    · simp only [Index.addMentions_references, references]
      exact groups
  · split
    · simp only [Index.addMentions_eq, problems, List.nil_append]
    · simp only [Index.addMentions_eq, problems, List.nil_append]

/-- An index of one document refers to each name by all its occurrences, in the order of the text
and each of them once. Kind and path are those of the last one, and the names come in the order of
their first ones. The problems are in the order of the text as well. -/
theorem collect_occurrences (rules : Rules) (path : String) (content : Content) (file : File)
    (read : content.parse = .ok file)
    (whole : (({} : Index).collect rules path content).1.oversized = none) :
    ∃ occurrences : List Occurrence,
      (∀ occurrence, occurrence ∈ occurrences ↔ occurrence.In path file.root.literals) ∧
      (occurrences.Pairwise fun first second => first.location.Before second.location) ∧
      (({} : Index).collect rules path content).1.index.references =
        Occurrence.grouped occurrences ∧
      ((({} : Index).collect rules path content).1.index.problems.Pairwise
        fun first second => first.location.Before second.location) ∧
      ∀ token ∈ file.root.literals, ∀ root,
        Template.parseAt token.position.toPoint token.text = .ok root →
        (root.accesses.map Prod.snd).Nodup := by
  have run : ({} : Index).collect rules path content =
      (({} : Index).collectFile rules path file, none) := by
    rw [Index.collect, read]
  rw [run] at whole ⊢
  rw [collectFile_oversized] at whole
  obtain ⟨references, problems⟩ := collectFile_records rules whole
  have sorted : (readLiterals path file.root.literals).1.Pairwise
      fun first second => first.location.Before second.location :=
    readLiterals_sorted (Document.Content.parse_apart read)
  refine ⟨(readLiterals path file.root.literals).1.filterMap Mention.occurrence?,
    mem_occurrences_iff whole, ?_, references, ?_, ?_⟩
  · refine sorted.filterMap _ ?_
    intro first second before occurrence named other found
    rw [Mention.occurrence?_location named, Mention.occurrence?_location found]
    exact before
  · rw [problems]
    refine sorted.filterMap _ ?_
    intro first second before problem counts other further
    rw [Mention.problem?_location counts, Mention.problem?_location further]
    exact before
  · intro token _ root accepted
    refine List.pairwise_map.mpr ((Template.parseChars_sorted accepted).imp ?_)
    intro first second before same
    exact Point.Before.irrefl (same ▸ before)

theorem collect_occurrences_shared :
    let source := "x = \"$\x7baws.b.c + f(var.a)\x7d\"\n" ++ "y = \"$\x7bd + \x7d\"\n" ++
      "z = [\"$\x7be\x7d\", \"$\x7bvar.b\x7d\"]\n"
    let progress := (({} : Index).collect { strict := true } "main.tf" (.text source)).1
    ∃ file, (Content.text source).parse = .ok file ∧ progress.oversized = none ∧
      (∃ occurrences : List Occurrence,
        (∀ occurrence, occurrence ∈ occurrences ↔ occurrence.In "main.tf" file.root.literals) ∧
        (occurrences.Pairwise fun first second => first.location.Before second.location) ∧
        progress.index.references = Occurrence.grouped occurrences ∧
        (progress.index.problems.Pairwise
          fun first second => first.location.Before second.location) ∧
        ∀ token ∈ file.root.literals, ∀ root,
          Template.parseAt token.position.toPoint token.text = .ok root →
          (root.accesses.map Prod.snd).Nodup) ∧
      progress.index.references = [
        ("b", ⟨"b", "variable", none, [⟨"main.tf", 0, 1, 8⟩, ⟨"main.tf", 0, 3, 17⟩]⟩),
        ("a", ⟨"a", "variable", none, [⟨"main.tf", 0, 1, 20⟩]⟩)] ∧
      progress.index.problems.map Problem.location =
        [⟨"main.tf", 0, 2, 12⟩, ⟨"main.tf", 0, 3, 9⟩] := by
  intro source progress
  have whole : progress.oversized = none := by decide +kernel
  cases read : (Content.text source).parse with
  | error error =>
      have accepted : (Content.text source).parse.toOption.isSome = true := by decide +kernel
      rw [read] at accepted
      cases accepted
  | ok file =>
      refine ⟨file, rfl, whole, collect_occurrences _ _ _ file read whole, ?_, ?_⟩
      · decide +kernel
      · decide +kernel

end ConfigIndex
