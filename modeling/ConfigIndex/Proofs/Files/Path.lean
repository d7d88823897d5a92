import ConfigIndex.Files.Path

/-!
Paths written out and read back. A path that was read from a text, and one that leads on from it by
names, is read back from its own text.
-/

namespace ConfigIndex.Path

def IsPart (part : String) : Prop := isNamed part.toList = true ∧ '/' ∉ part.toList

instance (part : String) : Decidable (IsPart part) := inferInstanceAs (Decidable (_ ∧ _))

structure Proper (path : Path) : Prop where
  slashes : path.slashes ≤ 2
  parts : ∀ part ∈ path.parts, IsPart part

/-! ### Cutting at slashes -/

theorem splitSlashes_eq (text : List Char) : splitSlashes text = text.splitOn '/' := by
  induction text with
  | nil => rfl
  | cons c rest ih =>
      obtain ⟨part, parts, same⟩ := List.exists_cons_of_ne_nil (List.splitOn_ne_nil '/' rest)
      rw [splitSlashes, ih, List.splitOn_cons_eq_if_modifyHead, same]
      simp only [beq_iff_eq, List.modifyHead_cons]

theorem slash_not_mem {text part : List Char} (member : part ∈ splitSlashes text) :
    '/' ∉ part := by
  induction text generalizing part with
  | nil =>
      rw [splitSlashes, List.mem_singleton] at member
      exact member ▸ List.not_mem_nil
  | cons c rest ih =>
      rw [splitSlashes] at member
      split at member
      · rename_i nothing
        rw [splitSlashes_eq] at nothing
        exact absurd nothing (List.splitOn_ne_nil '/' rest)
      · rename_i first parts same
        rw [same] at ih
        split at member
        · rcases List.mem_cons.mp member with rfl | behind
          · exact List.not_mem_nil
          · exact ih behind
        · rename_i other
          rcases List.mem_cons.mp member with rfl | behind
          · rw [List.mem_cons, not_or]
            exact ⟨Ne.symm other, ih List.mem_cons_self⟩
          · exact ih (List.mem_cons_of_mem first behind)

theorem splitSlashes_replicate (count : Nat) (text : List Char) :
    splitSlashes (List.replicate count '/' ++ text) =
      List.replicate count [] ++ splitSlashes text := by
  induction count with
  | zero => rfl
  | succ count ih =>
      rw [List.replicate_succ, List.cons_append, splitSlashes_eq,
        List.splitOn_cons_eq_if_modifyHead, ← splitSlashes_eq, ih]
      rfl

theorem filter_splitSlashes {parts : List String} (named : ∀ part ∈ parts, IsPart part) :
    ((splitSlashes (['/'].intercalate (parts.map String.toList))).filter isNamed).map
      String.ofList = parts := by
  cases parts with
  | nil => rfl
  | cons first rest =>
      rw [splitSlashes_eq, List.splitOn_intercalate '/' _ (by simp), List.filter_eq_self.mpr]
      · simp [Function.comp_def]
      · simpa using fun part member => (named part member).1
      · simpa using fun part member => (named part member).2

/-! ### Reading a path from its own text -/

theorem rootOf_le (text : List Char) : rootOf text ≤ 2 := by
  unfold rootOf
  split <;> omega

theorem proper_ofText (text : String) : (ofText text).Proper := by
  refine ⟨rootOf_le _, fun part member => ?_⟩
  obtain ⟨chars, listed, rfl⟩ := List.mem_map.mp member
  obtain ⟨cut, named⟩ := List.mem_filter.mp listed
  rw [IsPart, String.toList_ofList]
  exact ⟨named, slash_not_mem cut⟩

theorem Proper.append {path : Path} (proper : path.Proper) {names : List String}
    (named : ∀ name ∈ names, IsPart name) :
    ({ path with parts := path.parts ++ names } : Path).Proper :=
  ⟨proper.slashes, fun part member =>
    (List.mem_append.mp member).elim (proper.parts part) (named part)⟩

theorem IsPart.head {part : String} (named : IsPart part) :
    ∃ c rest, part.toList = c :: rest ∧ c ≠ '/' := by
  obtain ⟨kept, slash⟩ := named
  cases same : part.toList with
  | nil => simp [isNamed, same] at kept
  | cons c rest =>
      rw [same] at slash
      exact ⟨c, rest, rfl, fun first => slash (first ▸ List.mem_cons_self)⟩

theorem takeWhile_names {parts : List String} (named : ∀ part ∈ parts, IsPart part) :
    (['/'].intercalate (parts.map String.toList)).takeWhile (· = '/') = [] := by
  cases parts with
  | nil => rfl
  | cons first rest =>
      obtain ⟨c, more, same, other⟩ := (named first List.mem_cons_self).head
      cases rest <;> simp [same, other, List.intercalate]

theorem rootOf_slashes {count : Nat} (few : count ≤ 2) {parts : List String}
    (named : ∀ part ∈ parts, IsPart part) :
    rootOf (List.replicate count '/' ++ ['/'].intercalate (parts.map String.toList)) = count := by
  have length : ((List.replicate count '/' ++
      ['/'].intercalate (parts.map String.toList)).takeWhile (· = '/')).length = count := by
    rw [List.takeWhile_append_of_pos (by simp), takeWhile_names named, List.append_nil,
      List.length_replicate]
  rw [rootOf, length]
  obtain rfl | rfl | rfl : count = 0 ∨ count = 1 ∨ count = 2 := by omega
  all_goals rfl

theorem ofText_text {path : Path} (proper : path.Proper) : ofText path.text = path := by
  obtain ⟨slashes, parts⟩ := path
  unfold text
  split
  · rename_i nothing
    simp only [Bool.and_eq_true, decide_eq_true_eq, List.isEmpty_iff] at nothing
    obtain ⟨rfl, rfl⟩ := nothing
    rfl
  · rw [ofText, String.toList_append, String.toList_ofList, String.toList_intercalate]
    rw [show "/".toList = ['/'] from rfl, rootOf_slashes proper.slashes proper.parts,
      splitSlashes_replicate, List.filter_append, List.filter_replicate_of_neg (by decide),
      List.nil_append, filter_splitSlashes proper.parts]

end ConfigIndex.Path
