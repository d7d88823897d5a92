import ConfigIndex.Files.Sources
import ConfigIndex.Proofs.Files.Path
import Mathlib.Data.List.Forall2
import Mathlib.Data.List.Lex
import Mathlib.Data.List.Nodup
import Mathlib.Data.List.Sort
import Mathlib.Data.String.Basic

/-!
The files that folders stand for. A folder stands for exactly the files below it that are looked
for, each of them once and in the order of their parts, unless a path is too long to be asked about.
-/

namespace ConfigIndex

/-! ### Trees -/

namespace Entry

inductive Leads : Entry → List String → Entry → Prop
  | here {entry : Entry} : Leads entry [] entry
  | into {entries : List (String × Entry)} {name : String} {entry target : Entry}
      {names : List String} (listed : (name, entry) ∈ entries) (rest : Leads entry names target) :
      Leads (.folder entries) (name :: names) target

/-- In every folder each name stands once, and every name can stand between slashes. -/
inductive WellNamed : Entry → Prop
  | leaf {entry : Entry} (noFolder : ∀ entries, entry ≠ .folder entries) : WellNamed entry
  | folder {entries : List (String × Entry)} (distinct : (entries.map Prod.fst).Nodup)
      (named : ∀ entry ∈ entries, Path.IsPart entry.1)
      (inner : ∀ entry ∈ entries, WellNamed entry.2) : WellNamed (.folder entries)

theorem leads_leaf {entry target : Entry} {names : List String}
    (noFolder : ∀ entries, entry ≠ .folder entries) :
    entry.Leads names target ↔ names = [] ∧ target = entry := by
  constructor
  · intro leads
    cases leads with
    | here => exact ⟨rfl, rfl⟩
    | into listed rest => exact absurd rfl (noFolder _)
  · rintro ⟨rfl, rfl⟩
    exact .here

theorem leads_folder {entries : List (String × Entry)} {names : List String} {target : Entry} :
    (Entry.folder entries).Leads names target ↔ names = [] ∧ target = .folder entries ∨
      ∃ name entry rest, names = name :: rest ∧ (name, entry) ∈ entries ∧
        entry.Leads rest target := by
  constructor
  · rintro (⟨⟩ | ⟨listed, rest⟩)
    · exact Or.inl ⟨rfl, rfl⟩
    · exact Or.inr ⟨_, _, _, rfl, listed, rest⟩
  · rintro (⟨rfl, rfl⟩ | ⟨name, entry, rest, rfl, listed, inner⟩)
    · exact .here
    · exact .into listed inner

mutual

theorem mem_beneath (entry : Entry) (names : List String) (target : Entry) :
    (names, target) ∈ entry.beneath ↔ entry.Leads names target := by
  cases entry with
  | folder entries => simp [beneath, leads_folder, mem_beneathIn entries names target]
  | _ => simp [beneath, leads_leaf]

theorem mem_beneathIn (entries : List (String × Entry)) (names : List String) (target : Entry) :
    (names, target) ∈ beneathIn entries ↔ ∃ name entry rest, names = name :: rest ∧
      (name, entry) ∈ entries ∧ entry.Leads rest target := by
  cases entries with
  | nil => simp [beneathIn]
  | cons first more =>
      obtain ⟨name, entry⟩ := first
      rw [beneathIn, List.mem_append, mem_beneathIn more]
      constructor
      · rintro (here | ⟨other, found, rest, rfl, listed, leads⟩)
        · obtain ⟨⟨rest, found⟩, member, same⟩ := List.mem_map.mp here
          cases same
          exact ⟨name, entry, rest, rfl, List.mem_cons_self, (mem_beneath entry rest _).mp member⟩
        · exact ⟨other, found, rest, rfl, List.mem_cons_of_mem _ listed, leads⟩
      · rintro ⟨other, found, rest, rfl, listed, leads⟩
        rcases List.mem_cons.mp listed with same | behind
        · cases same
          exact Or.inl (List.mem_map.mpr ⟨_, (mem_beneath entry rest target).mpr leads, rfl⟩)
        · exact Or.inr ⟨other, found, rest, rfl, behind, leads⟩

end

namespace WellNamed

theorem listed {entries : List (String × Entry)} (named : (Entry.folder entries).WellNamed) :
    ∀ entry ∈ entries, Path.IsPart entry.1 ∧ entry.2.WellNamed := by
  cases named with
  | leaf noFolder => exact absurd rfl (noFolder entries)
  | folder distinct named inner =>
      exact fun entry member => ⟨named entry member, inner entry member⟩

theorem leads {entry target : Entry} {names : List String} (named : entry.WellNamed)
    (leads : entry.Leads names target) :
    target.WellNamed ∧ ∀ name ∈ names, Path.IsPart name := by
  induction leads with
  | here => exact ⟨named, fun _ member => nomatch member⟩
  | into listed _ ih =>
      obtain ⟨part, inner⟩ := named.listed _ listed
      obtain ⟨last, rest⟩ := ih inner
      exact ⟨last, List.forall_mem_cons.mpr ⟨part, rest⟩⟩

end WellNamed

mutual

/-- No two entries are reached by the same names. -/
theorem nodup_beneath (entry : Entry) (named : entry.WellNamed) :
    (entry.beneath.map Prod.fst).Nodup := by
  cases named with
  | leaf noFolder =>
      cases entry with
      | folder entries => exact absurd rfl (noFolder entries)
      | _ => exact List.nodup_singleton _
  | @folder entries distinct named inner =>
      rw [beneath, List.map_cons, List.nodup_cons]
      refine ⟨fun member => ?_, nodup_beneathIn entries distinct inner⟩
      obtain ⟨⟨names, found⟩, member, empty⟩ := List.mem_map.mp member
      obtain ⟨_, _, _, rfl, -⟩ := (mem_beneathIn entries names found).mp member
      cases empty

theorem nodup_beneathIn (entries : List (String × Entry)) (distinct : (entries.map Prod.fst).Nodup)
    (inner : ∀ entry ∈ entries, entry.2.WellNamed) : ((beneathIn entries).map Prod.fst).Nodup := by
  cases entries with
  | nil => exact List.nodup_nil
  | cons first more =>
      obtain ⟨name, entry⟩ := first
      rw [List.map_cons, List.nodup_cons] at distinct
      rw [List.forall_mem_cons] at inner
      rw [beneathIn, List.map_append, List.map_map, List.nodup_append']
      -- What is below entries of different names is told apart by these names.
      refine ⟨?_, nodup_beneathIn more distinct.2 inner.2, fun names here there => ?_⟩
      · have each := (nodup_beneath entry inner.1).map (List.cons_injective (a := name))
        rwa [List.map_map] at each
      · obtain ⟨⟨rest, found⟩, -, rfl⟩ := List.mem_map.mp here
        obtain ⟨⟨names, other⟩, member, same⟩ := List.mem_map.mp there
        obtain ⟨second, entry, tail, rfl, listed, -⟩ := (mem_beneathIn more names other).mp member
        cases same
        exact distinct.1 (List.mem_map.mpr ⟨_, listed, rfl⟩)

end

end Entry

/-! ### The order of paths -/

theorem namesLe_iff {left right : List String} :
    namesLe left right = true ↔ left < right ∨ left = right := by
  induction left generalizing right with
  | nil => cases right <;> simp [namesLe]
  | cons first lefts ih =>
      cases right with
      | nil => simp [namesLe]
      | cons second rights =>
          rw [namesLe, List.cons_lt_cons_iff, List.cons.injEq]
          by_cases same : first = second
          · subst same
            simp [ih]
          · simp [same]

theorem namesLe_total (left right : List String) :
    (namesLe left right || namesLe right left) = true := by
  rw [Bool.or_eq_true, namesLe_iff, namesLe_iff]
  rcases lt_trichotomy left right with less | same | greater
  · exact Or.inl (Or.inl less)
  · exact Or.inl (Or.inr same)
  · exact Or.inr (Or.inl greater)

theorem namesLe_trans (first second third : List String) (left : namesLe first second = true)
    (right : namesLe second third = true) : namesLe first third = true := by
  rw [namesLe_iff] at left right ⊢
  rcases left with less | rfl
  · rcases right with further | rfl
    · exact Or.inl (lt_trans less further)
    · exact Or.inl less
  · exact right

theorem Entry.mem_candidates {entry target : Entry} {names : List String} :
    (names, target) ∈ entry.candidates ↔ entry.Leads names target := by
  rw [candidates, List.mem_mergeSort, mem_beneath]

/-- What is below a folder, in the order of the names that lead there. -/
theorem Entry.candidates_pairwise {entry : Entry} (named : entry.WellNamed) :
    (entry.candidates.map Prod.fst).Pairwise (· < ·) := by
  have sorted : entry.candidates.Pairwise fun left right => namesLe left.1 right.1 = true :=
    List.pairwise_mergeSort (fun first second third => namesLe_trans first.1 second.1 third.1)
      (fun left right => namesLe_total left.1 right.1) entry.beneath
  have apart : (entry.candidates.map Prod.fst).Nodup :=
    ((List.mergeSort_perm entry.beneath _).map Prod.fst).nodup_iff.mpr
      (nodup_beneath entry named)
  rw [List.Nodup, List.pairwise_map] at apart
  rw [List.pairwise_map]
  -- Sorting puts no entry behind itself, and no other one has its names.
  refine (sorted.and apart).imp fun {left right} both => ?_
  exact (namesLe_iff.mp both.1).resolve_right both.2

/-! ### Expansions in a row -/

namespace Expansion

theorem append_refusal {left right : Expansion} :
    (left.append right).refusal = none ↔ left.refusal = none ∧ right.refusal = none := by
  unfold append
  cases whole : left.refusal <;> simp [whole]

theorem append_paths {left right : Expansion} (whole : left.refusal = none) :
    (left.append right).paths = left.paths ++ right.paths := by
  simp [append, whole]

theorem foldl_refusal (start : Expansion) (expansions : List Expansion) :
    (expansions.foldl append start).refusal = none ↔
      start.refusal = none ∧ ∀ expansion ∈ expansions, expansion.refusal = none := by
  induction expansions generalizing start with
  | nil => simp
  | cons first rest ih =>
      rw [List.foldl_cons, ih, append_refusal, List.forall_mem_cons, and_assoc]

theorem foldl_paths {start : Expansion} {expansions : List Expansion}
    (whole : start.refusal = none) (each : ∀ expansion ∈ expansions, expansion.refusal = none) :
    (expansions.foldl append start).paths = start.paths ++ expansions.flatMap paths := by
  induction expansions generalizing start with
  | nil => simp
  | cons first rest ih =>
      rw [List.forall_mem_cons] at each
      rw [List.foldl_cons, ih (append_refusal.mpr ⟨whole, each.1⟩) each.2, append_paths whole,
        List.flatMap_cons, List.append_assoc]

theorem ofFile_refusal (settings : IndexSettings) (folder : Path) (names : List String)
    (size : Nat) : (ofFile settings folder names size).refusal = none := by
  unfold ofFile
  dsimp only
  split <;> rfl

theorem ofFile_paths (settings : IndexSettings) (folder : Path) (names : List String)
    (size : Nat) : (ofFile settings folder names size).paths =
      if size ≤ settings.maxBytes then [(folder.extend names).text] else [] := by
  unfold ofFile
  dsimp only
  by_cases large : settings.maxBytes < size
  · rw [if_pos large, if_neg (Nat.not_le.mpr large)]
  · rw [if_neg large, if_pos (Nat.not_lt.mp large)]

def lists (settings : IndexSettings) (candidate : List String × Entry) : Bool :=
  candidate.2.size?.any fun size => settings.wants candidate.1 && size ≤ settings.maxBytes

theorem ofCandidate_refusal {settings : IndexSettings} {folder : Path}
    {candidate : List String × Entry} : (ofCandidate settings folder candidate).refusal = none ↔
      (isSkipped candidate.1 = false → (folder.extend candidate.1).isTooLong = false) := by
  unfold ofCandidate
  dsimp only
  split
  · rename_i skipped
    simp [skipped]
  · rename_i asked
    split
    · rename_i long
      simp [asked, long]
    · rename_i short
      refine iff_of_true ?_ fun _ => by simpa using short
      split
      · rfl
      · split
        · exact ofFile_refusal settings folder candidate.1 _
        · rfl

theorem ofCandidate_paths {settings : IndexSettings} {folder : Path}
    {candidate : List String × Entry}
    (whole : (ofCandidate settings folder candidate).refusal = none) :
    (ofCandidate settings folder candidate).paths =
      if lists settings candidate then [(folder.extend candidate.1).text] else [] := by
  rw [ofCandidate_refusal] at whole
  unfold ofCandidate lists
  by_cases skipped : isSkipped candidate.1 = true
  · cases candidate.2.size? <;> simp [skipped, IndexSettings.wants]
  · simp only [Bool.not_eq_true] at skipped
    simp only [skipped, whole skipped, if_neg Bool.false_ne_true]
    cases candidate.2.size? with
    | none => rfl
    | some size => cases settings.wants candidate.1 <;> simp [ofFile_paths]

/-- The files of a folder that a path of the folder stands for, by their names. -/
def listed (settings : IndexSettings) (entry : Entry) : List (List String) :=
  (entry.candidates.filter (lists settings)).map Prod.fst

theorem ofFolder_refusal {settings : IndexSettings} {folder : Path} {entry : Entry} :
    (ofFolder settings folder entry).refusal = none ↔
      ∀ found ∈ entry.beneath, found.2.isFolder = true ∨ isSkipped found.1 = false →
        (folder.extend found.1).isTooLong = false := by
  have folders : entry.overlong? folder = none ↔ ∀ found ∈ entry.beneath,
      found.2.isFolder = true → (folder.extend found.1).isTooLong = false := by
    simp only [Entry.overlong?, List.find?_eq_none, List.forall_mem_map, List.mem_filter, and_imp,
      Bool.not_eq_true]
  have others : (∀ expansion ∈ entry.candidates.map (ofCandidate settings folder),
        expansion.refusal = none) ↔
      ∀ found ∈ entry.beneath, isSkipped found.1 = false →
        (folder.extend found.1).isTooLong = false := by
    simp only [List.forall_mem_map, Entry.candidates, List.mem_mergeSort, ofCandidate_refusal]
  simp only [or_imp, imp_and, forall_and]
  rw [← folders, ← others]
  unfold ofFolder
  cases entry.overlong? folder with
  | some path => simp
  | none => exact (foldl_refusal {} _).trans (by simp)

theorem ofFolder_paths {settings : IndexSettings} {folder : Path} {entry : Entry}
    (whole : (ofFolder settings folder entry).refusal = none) :
    (ofFolder settings folder entry).paths =
      (listed settings entry).map fun names => (folder.extend names).text := by
  unfold ofFolder at whole ⊢
  cases short : entry.overlong? folder with
  | some path =>
      rw [short] at whole
      cases whole
  | none =>
      rw [short] at whole
      have each := ((foldl_refusal {} _).mp whole).2
      dsimp only
      rw [foldl_paths rfl each, listed, List.nil_append, List.flatMap_map]
      rw [List.forall_mem_map] at each
      generalize entry.candidates = candidates at each
      induction candidates with
      | nil => rfl
      | cons candidate rest ih =>
          rw [List.forall_mem_cons] at each
          rw [List.flatMap_cons, ih each.2, ofCandidate_paths each.1, List.filter_cons]
          by_cases kept : lists settings candidate = true <;> simp [kept]

theorem mem_listed {settings : IndexSettings} {entry : Entry} {names : List String} :
    names ∈ listed settings entry ↔ ∃ file size, entry.Leads names file ∧
      file.size? = some size ∧ settings.wants names = true ∧ size ≤ settings.maxBytes := by
  simp only [listed, List.mem_map, List.mem_filter, Prod.exists, Entry.mem_candidates, lists,
    Option.any_eq_true, Bool.and_eq_true, decide_eq_true_eq]
  constructor
  · rintro ⟨_, file, ⟨leads, size, sized, wanted, small⟩, rfl⟩
    exact ⟨file, size, leads, sized, wanted, small⟩
  · rintro ⟨file, size, leads, sized, wanted, small⟩
    exact ⟨names, file, ⟨leads, size, sized, wanted, small⟩, rfl⟩

theorem listed_pairwise (settings : IndexSettings) {entry : Entry} (named : entry.WellNamed) :
    (listed settings entry).Pairwise (· < ·) :=
  (Entry.candidates_pairwise named).sublist (List.filter_sublist.map Prod.fst)

/-- Files are listed in the only order that they can be listed in. -/
theorem listed_eq {settings : IndexSettings} {entry : Entry} (named : entry.WellNamed)
    {names : List (List String)} (ordered : names.Pairwise (· < ·))
    (same : names.Perm ((entry.beneath.filter (lists settings)).map Prod.fst)) :
    listed settings entry = names :=
  (listed_pairwise settings named).eq_of_mem_iff ordered fun _ =>
    ((((List.mergeSort_perm _ _).filter _).map _).trans same.symm).mem_iff

end Expansion

/-! ### What paths stand for -/

def FileSystem.Opens (system : FileSystem) (given : String) (entry : Entry) : Prop :=
  given ≠ "-" ∧ '\x00' ∉ given.toList ∧ entry.isFolder = true ∧
    system.find (Path.ofText given) = .ok entry

/-- The system does not say what is at a path: at the given one, or at one of those below it. The
files in skipped folders are not asked about. -/
inductive FileSystem.Refuses (system : FileSystem) (given : String) : Prop
  | itself {obstacle : Obstacle} (named : given ≠ "-") (nameable : '\x00' ∉ given.toList)
      (found : system.find (Path.ofText given) = .error obstacle)
      (unsaid : obstacle ≠ .missing ∧ obstacle ≠ .notFolder)
  | beneath {entry target : Entry} {names : List String} (opens : system.Opens given entry)
      (leads : entry.Leads names target)
      (asked : target.isFolder = true ∨
        ∀ name ∈ names.dropLast, name ≠ ".terraform" ∧ name ≠ ".git")
      (long : maxPathBytes < ((Path.ofText given).extend names).text.utf8ByteSize)

/-- The paths that a given one stands for: itself, or if it is that of a folder, the files below it
outside of skipped folders that have an extension looked for and are not too large. -/
inductive Expansion.StandsFor (system : FileSystem) (settings : IndexSettings) (given : String) :
    List String → Prop
  | itself (other : ∀ entry, ¬system.Opens given entry) : StandsFor system settings given [given]
  | folder {entry : Entry} {paths : List String} (opens : system.Opens given entry)
      (exact : ∀ path, path ∈ paths ↔ ∃ names file size, entry.Leads names file ∧
        file.size? = some size ∧
        (∀ name ∈ names.dropLast, name ≠ ".terraform" ∧ name ≠ ".git") ∧
        Text.lower (Path.suffixOf (names.getLast?.getD "")) ∈ settings.extensions ∧
        size ≤ settings.maxMegabytes * 1024 * 1024 ∧
        path = ((Path.ofText given).extend names).text)
      (once : paths.Nodup)
      (ordered : paths.Pairwise fun left right =>
        (Path.ofText left).parts < (Path.ofText right).parts) :
      StandsFor system settings given paths

theorem isSkipped_eq_false {names : List String} :
    isSkipped names = false ↔ ∀ name ∈ names.dropLast, name ≠ ".terraform" ∧ name ≠ ".git" := by
  simp [isSkipped, skippedFolders]

theorem IndexSettings.wants_iff {settings : IndexSettings} {names : List String} :
    settings.wants names = true ↔
      (∀ name ∈ names.dropLast, name ≠ ".terraform" ∧ name ≠ ".git") ∧
        Text.lower (Path.suffixOf (names.getLast?.getD "")) ∈ settings.extensions := by
  rw [wants, Bool.and_eq_true, Bool.not_eq_true', isSkipped_eq_false, List.contains_iff_mem]

theorem Obstacle.isAbsence_eq_false {obstacle : Obstacle} :
    obstacle.isAbsence = false ↔ obstacle ≠ .missing ∧ obstacle ≠ .notFolder := by
  cases obstacle <;> decide

namespace FileSystem

theorem wellNamed_walk {above : List Entry} {here target : Entry} {names : List String}
    (aboveNamed : ∀ entry ∈ above, entry.WellNamed) (named : here.WellNamed)
    (found : Entry.walk above here names = .ok target) : target.WellNamed := by
  induction names generalizing above here with
  | nil =>
      rw [Entry.walk] at found
      cases found
      exact named
  | cons name rest ih =>
      cases here with
      | file content | sealed size | shut | special content => cases found
      | folder entries =>
          rw [Entry.walk.eq_def] at found
          dsimp only at found
          split at found
          · cases above with
            | nil => exact ih aboveNamed named found
            | cons up above =>
                rw [List.forall_mem_cons] at aboveNamed
                exact ih aboveNamed.2 aboveNamed.1 found
          · split at found
            · cases found
            · split at found
              · cases found
              · rename_i inner listed
                have member := List.mem_of_find?_eq_some listed
                exact ih (List.forall_mem_cons.mpr ⟨named, aboveNamed⟩) (named.listed _ member).2
                  found

theorem wellNamed_find {system : FileSystem} (named : (Entry.folder system.root).WellNamed)
    {path : Path} {entry : Entry} (found : system.find path = .ok entry) : entry.WellNamed := by
  unfold find at found
  split at found
  · cases found
  · exact wellNamed_walk (List.forall_mem_nil _) named found

theorem Opens.unique {system : FileSystem} {given : String} {entry other : Entry}
    (opens : system.Opens given entry) (also : system.Opens given other) : entry = other :=
  Except.ok.inj (opens.2.2.2.symm.trans also.2.2.2)

end FileSystem

namespace Expansion

variable {system : FileSystem} {settings : IndexSettings} {given : String}

/-- What a path is taken for: a folder, a path that nothing is said about, or anything else. -/
theorem ofPath_cases (system : FileSystem) (settings : IndexSettings) (given : String) :
    (∃ entry, system.Opens given entry ∧
      ofPath system settings given = ofFolder settings (Path.ofText given) entry) ∨
    (system.Refuses given ∧ (∀ entry, ¬system.Opens given entry) ∧
      (ofPath system settings given).refusal ≠ none) ∨
    (¬system.Refuses given ∧ (∀ entry, ¬system.Opens given entry) ∧
      ofPath system settings given = { paths := [given] }) := by
  unfold ofPath
  split
  · rename_i kept
    simp only [standardInput, Bool.or_eq_true, beq_iff_eq, List.contains_iff_mem] at kept
    have other (entry : Entry) : ¬system.Opens given entry := fun opens =>
      kept.elim opens.1 fun nul => opens.2.1 nul
    refine Or.inr (Or.inr ⟨fun refuses => ?_, other, rfl⟩)
    cases refuses with
    | itself named nameable _ _ => exact kept.elim named fun nul => nameable nul
    | beneath opens _ _ _ => exact other _ opens
  · rename_i asked
    simp only [standardInput, Bool.or_eq_true, beq_iff_eq, List.contains_iff_mem, not_or] at asked
    dsimp only
    cases found : system.find (Path.ofText given) with
    | error obstacle =>
        dsimp only
        have other (entry : Entry) : ¬system.Opens given entry := fun opens =>
          nomatch found.symm.trans opens.2.2.2
        cases absence : obstacle.isAbsence with
        | false =>
            refine Or.inr (Or.inl ⟨?_, other, Option.some_ne_none _⟩)
            exact .itself asked.1 asked.2 found (Obstacle.isAbsence_eq_false.mp absence)
        | true =>
            refine Or.inr (Or.inr ⟨fun refuses => ?_, other, rfl⟩)
            cases refuses with
            | itself _ _ also unsaid =>
                cases found.symm.trans also
                exact absurd absence (Bool.not_eq_true _ ▸ Obstacle.isAbsence_eq_false.mpr unsaid)
            | beneath opens _ _ _ => exact other _ opens
    | ok entry =>
        dsimp only
        cases folder : entry.isFolder with
        | true => exact Or.inl ⟨entry, ⟨asked.1, asked.2, folder, found⟩, rfl⟩
        | false =>
            have other (opened : Entry) : ¬system.Opens given opened := fun opens => by
              cases found.symm.trans opens.2.2.2
              cases folder.symm.trans opens.2.2.1
            refine Or.inr (Or.inr ⟨fun refuses => ?_, other, rfl⟩)
            cases refuses with
            | itself _ _ also _ => cases found.symm.trans also
            | beneath opens _ _ _ => exact other _ opens

theorem ofPath_of_opens {entry : Entry} (opens : system.Opens given entry) :
    ofPath system settings given = ofFolder settings (Path.ofText given) entry := by
  rcases ofPath_cases system settings given with
    ⟨other, also, same⟩ | ⟨-, other, -⟩ | ⟨-, other, -⟩
  · rw [same, opens.unique also]
  · exact absurd opens (other entry)
  · exact absurd opens (other entry)

theorem ofPath_refusal :
    (ofPath system settings given).refusal = none ↔ ¬system.Refuses given := by
  rcases ofPath_cases system settings given with
    ⟨entry, opens, same⟩ | ⟨refuses, -, some⟩ | ⟨answers, -, same⟩
  · rw [same, ofFolder_refusal]
    constructor
    · intro short refuses
      cases refuses with
      | itself _ _ found _ => cases opens.2.2.2.symm.trans found
      | beneath also leads asked long =>
          cases opens.unique also
          rw [← isSkipped_eq_false] at asked
          exact of_decide_eq_false (short _ ((Entry.mem_beneath _ _ _).mpr leads) asked) long
    · intro answers found member asked
      have leads := (Entry.mem_beneath _ _ _).mp member
      refine decide_eq_false fun long => answers (.beneath opens leads ?_ long)
      rwa [isSkipped_eq_false] at asked
  · exact iff_of_false some (not_not_intro refuses)
  · rw [same]
    exact iff_of_true rfl answers

/-- The text of a path below a folder is read as that path. -/
theorem ofText_below {entry target : Entry} {names : List String} (named : entry.WellNamed)
    (leads : entry.Leads names target) (given : String) :
    Path.ofText ((Path.ofText given).extend names).text = (Path.ofText given).extend names :=
  Path.ofText_text ((Path.proper_ofText given).append (named.leads leads).2)

theorem ordered_listed {entry : Entry} (named : entry.WellNamed) (settings : IndexSettings)
    (given : String) :
    ((listed settings entry).map fun names => ((Path.ofText given).extend names).text).Pairwise
      fun left right => (Path.ofText left).parts < (Path.ofText right).parts := by
  rw [List.pairwise_map]
  refine (listed_pairwise settings named).imp_of_mem fun {left right} here there less => ?_
  obtain ⟨_, _, leads, -⟩ := mem_listed.mp here
  obtain ⟨_, _, also, -⟩ := mem_listed.mp there
  rw [ofText_below named leads, ofText_below named also]
  -- Both start with the parts of the folder, which decide nothing.
  exact List.append_left_lt less

theorem ofPath_standsFor (named : (Entry.folder system.root).WellNamed)
    (answers : ¬system.Refuses given) :
    StandsFor system settings given (ofPath system settings given).paths := by
  rcases ofPath_cases system settings given with
    ⟨entry, opens, same⟩ | ⟨refuses, -, -⟩ | ⟨-, other, same⟩
  · have whole : (ofPath system settings given).refusal = none := ofPath_refusal.mpr answers
    rw [same] at whole
    have ordered := ordered_listed (FileSystem.wellNamed_find named opens.2.2.2) settings given
    rw [same, ofFolder_paths whole]
    refine .folder opens (fun path => ?exact) ?once ordered
    case exact =>
      rw [List.mem_map]
      constructor
      · rintro ⟨names, member, rfl⟩
        obtain ⟨file, size, leads, sized, wanted, small⟩ := mem_listed.mp member
        obtain ⟨kept, extension⟩ := IndexSettings.wants_iff.mp wanted
        exact ⟨names, file, size, leads, sized, kept, extension, small, rfl⟩
      · rintro ⟨names, file, size, leads, sized, kept, extension, small, rfl⟩
        exact ⟨names, mem_listed.mpr ⟨file, size, leads, sized,
          IndexSettings.wants_iff.mpr ⟨kept, extension⟩, small⟩, rfl⟩
    case once =>
      refine List.Pairwise.imp (S := (· ≠ ·)) (fun {left right} less same => ?_) ordered
      rw [same] at less
      exact lt_irrefl _ less
  · exact absurd refuses answers
  · rw [same]
    exact .itself other

theorem ofPaths_refusal {given : List String} :
    (ofPaths system settings given).refusal = none ↔ ∀ path ∈ given, ¬system.Refuses path := by
  rw [ofPaths, foldl_refusal, and_iff_right rfl, List.forall_mem_map]
  simp only [ofPath_refusal]

/-- Paths are expanded one by one and in their order, unless the system refuses to say what is at
one of them. -/
theorem ofPaths_standsFor {system : FileSystem} (settings : IndexSettings)
    (named : (Entry.folder system.root).WellNamed) (given : List String) :
    ((ofPaths system settings given).refusal = none ↔ ∀ path ∈ given, ¬system.Refuses path) ∧
      ((∀ path ∈ given, ¬system.Refuses path) →
        ∃ expanded, List.Forall₂ (StandsFor system settings) given expanded ∧
          (ofPaths system settings given).paths = expanded.flatten) := by
  refine ⟨ofPaths_refusal, fun answers => ?_⟩
  have each : ∀ expansion ∈ given.map (ofPath system settings), expansion.refusal = none := by
    simpa only [List.forall_mem_map, ofPath_refusal] using answers
  refine ⟨given.map fun path => (ofPath system settings path).paths, ?_, ?_⟩
  · rw [List.forall₂_map_right_iff, List.forall₂_same]
    exact fun path member => ofPath_standsFor named (answers path member)
  · rw [ofPaths, foldl_paths rfl each, List.nil_append, List.flatMap_map, List.flatMap_def]

def tree : Entry := .folder
  [("b.TF", .file ⟨#[1, 2]⟩), ("a.tf", .sealed 0), ("a", .folder [("z.tf", .file ⟨#[3]⟩)]),
    (".terraform", .folder [("m", .folder [("x.tf", .file ⟨#[]⟩)])]), ("d.tf", .shut),
    ("c.tf", .folder [(".git", .file ⟨#[]⟩), (".tf", .file ⟨#[]⟩), (".h.tf", .file ⟨#[]⟩)])]

theorem wellNamed_tree : tree.WellNamed := by
  refine .folder (by decide) (by decide) ?_
  simp only [List.forall_mem_cons]
  refine ⟨.leaf nofun, .leaf nofun, .folder (by decide) (by decide) ?_,
    .folder (by decide) (by decide) ?_, .leaf nofun, .folder (by decide) (by decide) ?_,
    List.forall_mem_nil _⟩
  · exact List.forall_mem_singleton.mpr (.leaf nofun)
  · refine List.forall_mem_singleton.mpr (.folder (by decide) (by decide) ?_)
    exact List.forall_mem_singleton.mpr (.leaf nofun)
  · simp only [List.forall_mem_cons]
    exact ⟨.leaf nofun, .leaf nofun, .leaf nofun, List.forall_mem_nil _⟩

def treeSystem : FileSystem where
  root := [("d", tree)]

theorem ofPaths_standsFor_tree :
    ∃ expanded, List.Forall₂ (StandsFor treeSystem {}) ["-", "d//", "e.tf"] expanded ∧
      expanded.flatten =
        ["-", "d/a/z.tf", "d/a.tf", "d/b.TF", "d/c.tf/.h.tf", "e.tf"] := by
  have named : (Entry.folder treeSystem.root).WellNamed :=
    .folder (by decide) (by decide) (List.forall_mem_singleton.mpr wellNamed_tree)
  have opens : treeSystem.Opens "d//" tree := ⟨by decide, by decide, rfl, rfl⟩
  have whole : (ofFolder {} (Path.ofText "d//") tree).refusal = none :=
    ofFolder_refusal.mpr (by decide +kernel)
  have files : listed {} tree = [["a", "z.tf"], ["a.tf"], ["b.TF"], ["c.tf", ".h.tf"]] :=
    listed_eq wellNamed_tree (by decide +kernel) (by decide +kernel)
  have folder : ofPath treeSystem {} "d//" = ofFolder {} (Path.ofText "d//") tree :=
    ofPath_of_opens opens
  have each : ∀ expansion ∈ ["-", "d//", "e.tf"].map (ofPath treeSystem {}),
      expansion.refusal = none := by
    simp only [List.map_cons, List.map_nil, List.forall_mem_cons, folder, whole]
    exact ⟨rfl, trivial, rfl, List.forall_mem_nil _⟩
  have answers := List.forall_mem_map.mp each
  obtain ⟨expanded, standFor, paths⟩ := (ofPaths_standsFor {} named ["-", "d//", "e.tf"]).2
    fun path member => ofPath_refusal.mp (answers path member)
  refine ⟨expanded, standFor, paths.symm.trans ?_⟩
  rw [ofPaths, foldl_paths rfl each]
  simp only [List.map_cons, List.map_nil, List.flatMap_cons, List.flatMap_nil, folder,
    ofFolder_paths whole, files]
  rfl

def longName : String := String.ofList (List.replicate 300 'a')

theorem refuses_longName : FileSystem.Refuses {} longName := by
  have letters : longName.toList = List.replicate 300 'a' := String.toList_ofList
  have parts : (Path.splitSlashes (List.replicate 300 'a')).filter Path.isNamed =
      [List.replicate 300 'a'] := by decide +kernel
  have path : Path.ofText longName = ⟨0, [longName]⟩ := by
    rw [Path.ofText, letters, parts]
    rfl
  have long : maxNameBytes < longName.utf8ByteSize := by decide +kernel
  have name : (longName == "..") = false := by decide +kernel
  have found : FileSystem.find {} (Path.ofText longName) = .error .nameTooLong := by
    rw [path, FileSystem.find]
    split
    · rfl
    · show Entry.walk [] (.folder []) [longName] = _
      rw [Entry.walk.eq_def]
      dsimp only
      rw [name, if_neg Bool.false_ne_true, if_pos long]
  exact .itself (by decide +kernel) (letters ▸ by decide) found (by decide)

theorem ofPaths_longName :
    ¬((ofPaths {} {} [longName]).refusal = none ∧
      (ofPaths {} {} [longName]).paths = [longName]) := by
  have refused : ¬(ofPath {} {} longName).refusal = none := fun answered =>
    ofPath_refusal.mp answered refuses_longName
  intro ⟨answered, _⟩
  exact refused (((foldl_refusal {} _).mp answered).2 _ List.mem_cons_self)

end Expansion

end ConfigIndex
