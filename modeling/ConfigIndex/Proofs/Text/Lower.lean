import ConfigIndex.Text.Blank
import ConfigIndex.Text.Lower

/-!
Small letters and blanks. The small letter of a character has no other small letter and is not
blank, so a text that was stripped and set in small letters stays as it is when both are done again.
-/

namespace ConfigIndex.Text

def IsSmall (c : Char) : Prop := ∀ before after, lowerChar before c after = [c]

/-! ### The table of small letters -/

abbrev CodeRun := Nat × Nat × Nat

def CodeRun.has (run : CodeRun) (code : Nat) : Prop :=
  run.1 ≤ code ∧ code ≤ run.2.1 ∧ (code - run.1) % run.2.2 = 0

def CodeRun.apart (run other : CodeRun) : Bool :=
  run.2.1 < other.1 || other.2.1 < run.1 ||
    (other.2.2 = 2 && (run.2.2 = 2 || run.1 = run.2.1) && (run.1 + other.1) % 2 = 1)

theorem CodeRun.apart_has {run other : CodeRun} (apart : run.apart other = true) {code : Nat}
    (has : run.has code) : ¬other.has code := by
  obtain ⟨low, high, step⟩ := has
  rintro ⟨otherLow, otherHigh, otherStep⟩
  simp only [CodeRun.apart, Bool.or_eq_true, Bool.and_eq_true, decide_eq_true_eq] at apart
  -- Between two runs in steps of two the parity of their first codes decides.
  rcases apart with (before | behind) | ⟨⟨stride, two | single⟩, odd⟩
  · omega
  · omega
  · rw [stride] at otherStep
    rw [two] at step
    omega
  · rw [stride] at otherStep
    omega

def blankRuns : List CodeRun :=
  [(9, 13, 1), (28, 32, 1), (0x85, 0x85, 1), (0xa0, 0xa0, 1), (0x1680, 0x1680, 1),
    (0x2000, 0x200a, 1), (0x2028, 0x2029, 1), (0x202f, 0x202f, 1), (0x205f, 0x205f, 1),
    (0x3000, 0x3000, 1)]

def largeRuns : List CodeRun :=
  [(0x41, 0x5a, 1), (0x130, 0x130, 1), (0x3a3, 0x3a3, 1)] ++
    capitalRuns.flatten.map fun (first, last, step, _) => (first, last, step)

def smallRun : Nat × Nat × Nat × Int → CodeRun
  | (first, last, step, distance) => ((first + distance).toNat, (last + distance).toNat, step)

theorem smallRun_apart :
    (capitalRuns.flatten.all fun run =>
      (blankRuns ++ largeRuns).all (smallRun run).apart) = true := by
  decide +kernel

theorem exists_blankRun {c : Char} (blank : isBlank c = true) :
    ∃ run ∈ blankRuns, run.has c.toNat := by
  simp only [isBlank, Bool.or_eq_true, Bool.and_eq_true, decide_eq_true_eq] at blank
  simp only [blankRuns, List.mem_cons, List.not_mem_nil, or_false, exists_eq_or_imp,
    exists_eq_left, CodeRun.has, Nat.mod_one, and_true]
  omega

theorem toLower_of_not_capital {c : Char} (other : ¬(0x41 ≤ c.toNat ∧ c.toNat ≤ 0x5a)) :
    c.toLower = c := by
  refine dif_neg ?_
  rintro ⟨low, high⟩
  exact other ⟨UInt32.le_iff_toNat_le.mp low, UInt32.le_iff_toNat_le.mp high⟩

theorem isSmall_of_plain {c : Char} (ascii : ¬(0x41 ≤ c.toNat ∧ c.toNat ≤ 0x5a))
    (dotted : c.toNat ≠ 0x130) (sigma : c.toNat ≠ 0x3a3) (noRun : capitalRun? c = none) :
    IsSmall c := by
  intro before after
  unfold lowerChar
  split
  · rw [toLower_of_not_capital ascii]
  · rw [noRun]

theorem isSmall_of_not_large {c : Char} (small : ∀ run ∈ largeRuns, ¬run.has c.toNat) :
    IsSmall c := by
  simp only [largeRuns, List.cons_append, List.nil_append, List.forall_mem_cons, CodeRun.has,
    Nat.mod_one, and_true] at small
  obtain ⟨ascii, dotted, sigma, table⟩ := small
  apply isSmall_of_plain ascii (by omega) (by omega)
  simp only [capitalRun?, List.findSome?_eq_none_iff, List.find?_eq_none, Bool.and_eq_true,
    decide_eq_true_eq]
  rintro block inTable ⟨first, last, step, distance⟩ inBlock ⟨⟨low, high⟩, stepped⟩
  exact table (first, last, step)
    (List.mem_map.mpr ⟨_, List.mem_flatten.mpr ⟨block, inTable, inBlock⟩, rfl⟩)
    ⟨low, high, stepped⟩

theorem run_of_capitalRun? {c : Char} {run : Nat × Nat × Nat × Int}
    (found : capitalRun? c = some run) :
    run ∈ capitalRuns.flatten ∧ CodeRun.has (run.1, run.2.1, run.2.2.1) c.toNat := by
  obtain ⟨block, inTable, inBlock⟩ := List.exists_of_findSome?_eq_some found
  have inRun := List.find?_some inBlock
  simp only [Bool.and_eq_true, decide_eq_true_eq] at inRun
  exact ⟨List.mem_flatten.mpr ⟨block, inTable, List.mem_of_find?_eq_some inBlock⟩,
    inRun.1.1, inRun.1.2, inRun.2⟩

/-! ### The small letters of one character -/

def SmallOf (c d : Char) : Prop := IsSmall d ∧ (isBlank d = true → isBlank c = true)

theorem isSmall_of_apart {c : Char} (run : CodeRun) (has : run.has c.toNat)
    (apart : largeRuns.all run.apart = true) : IsSmall c :=
  isSmall_of_not_large fun large member =>
    CodeRun.apart_has (List.all_eq_true.mp apart large member) has

theorem smallOf_of_apart {c d : Char} (run : CodeRun) (has : run.has d.toNat)
    (apart : (blankRuns ++ largeRuns).all run.apart = true) : SmallOf c d := by
  rw [List.all_append, Bool.and_eq_true] at apart
  refine ⟨isSmall_of_apart run has apart.2, fun blank => ?_⟩
  obtain ⟨other, member, inside⟩ := exists_blankRun blank
  exact absurd inside (CodeRun.apart_has (List.all_eq_true.mp apart.1 other member) has)

theorem toNat_toLower {c : Char} (low : 0x41 ≤ c.toNat) (high : c.toNat ≤ 0x5a) :
    c.toLower.toNat = c.toNat + 32 := by
  have capital : c.val ≥ 'A'.val ∧ c.val ≤ 'Z'.val :=
    ⟨UInt32.le_iff_toNat_le.mpr low, UInt32.le_iff_toNat_le.mpr high⟩
  have inside : c.toNat + 32 < 2 ^ 32 := by omega
  have small : c.toLower = _ := dif_pos capital
  rw [small]
  exact (UInt32.toNat_add c.val _).trans (Nat.mod_eq_of_lt inside)

theorem toLower_smallOf {c : Char} (ascii : c.toNat < 128) : SmallOf c c.toLower := by
  by_cases capital : 0x41 ≤ c.toNat ∧ c.toNat ≤ 0x5a
  · refine smallOf_of_apart (0x61, 0x7a, 1) ⟨?_, ?_, Nat.mod_one _⟩ (by decide +kernel)
    all_goals
      rw [toNat_toLower capital.1 capital.2]
    · exact Nat.add_le_add_right capital.1 32
    · exact Nat.add_le_add_right capital.2 32
  · rw [toLower_of_not_capital capital]
    refine ⟨?_, id⟩
    by_cases low : c.toNat < 0x41
    · exact isSmall_of_apart (0, 0x40, 1) ⟨Nat.zero_le _, Nat.le_of_lt_succ low, Nat.mod_one _⟩
        (by decide +kernel)
    · have high : ¬c.toNat ≤ 0x5a := fun high => capital ⟨Nat.le_of_not_lt low, high⟩
      exact isSmall_of_apart (0x5b, 0x7f, 1)
        ⟨Nat.lt_of_not_le high, Nat.le_of_lt_succ ascii, Nat.mod_one _⟩ (by decide +kernel)

theorem ofNat_cases (code : Nat) :
    (Char.ofNat code).toNat = code ∨ Char.ofNat code = '\x00' := by
  by_cases valid : code.isValidChar
  · have kept : Char.ofNat code = Char.ofNatAux code valid := dif_pos valid
    exact Or.inl (congrArg Char.toNat kept)
  · exact Or.inr (dif_neg valid)

theorem smallRun_nonneg :
    ∀ run ∈ capitalRuns.flatten, 0 ≤ (run.1 : Int) + run.2.2.2 := by
  decide +kernel

theorem smallRun_has {run : Nat × Nat × Nat × Int} {code : Nat}
    (listed : run ∈ capitalRuns.flatten) (has : CodeRun.has (run.1, run.2.1, run.2.2.1) code) :
    (smallRun run).has (code + run.2.2.2).toNat := by
  have nonneg := smallRun_nonneg run listed
  obtain ⟨first, last, step, distance⟩ := run
  obtain ⟨low, high, stepped⟩ := has
  simp only at nonneg low high stepped
  have moved : (code + distance).toNat - (first + distance).toNat = code - first := by omega
  refine ⟨?_, ?_, ?_⟩
  · show (first + distance).toNat ≤ (code + distance).toNat
    omega
  · show (code + distance).toNat ≤ (last + distance).toNat
    omega
  · show ((code + distance).toNat - (first + distance).toNat) % step = 0
    rw [moved, stepped]

theorem lowerChar_smallOf {before after : List Char} {c d : Char}
    (member : d ∈ lowerChar before c after) : SmallOf c d := by
  unfold lowerChar at member
  split at member
  · rename_i ascii
    rw [List.mem_singleton.mp member]
    exact toLower_smallOf ascii
  split at member
  · simp only [List.mem_cons, List.not_mem_nil, or_false] at member
    rcases member with rfl | rfl
    · exact smallOf_of_apart (0x69, 0x69, 1) ⟨by decide, by decide, rfl⟩ (by decide +kernel)
    · exact smallOf_of_apart (0x307, 0x307, 1) ⟨by decide, by decide, rfl⟩ (by decide +kernel)
  split at member
  · split at member <;> rw [List.mem_singleton.mp member]
    · exact smallOf_of_apart (0x3c2, 0x3c2, 1) ⟨by decide, by decide, rfl⟩ (by decide +kernel)
    · exact smallOf_of_apart (0x3c3, 0x3c3, 1) ⟨by decide, by decide, rfl⟩ (by decide +kernel)
  split at member
  · rename_i first last step distance found
    obtain ⟨listed, has⟩ := run_of_capitalRun? found
    rw [List.mem_singleton.mp member]
    rcases ofNat_cases (c.toNat + distance).toNat with same | nul
    · refine smallOf_of_apart (smallRun (first, last, step, distance)) ?_
        (List.all_eq_true.mp smallRun_apart _ listed)
      rw [same]
      exact smallRun_has listed has
    · rw [nul]
      exact smallOf_of_apart (0, 0, 1) ⟨by decide, by decide, rfl⟩ (by decide +kernel)
  · rename_i ascii dotted sigma _ noRun
    rw [List.mem_singleton.mp member]
    exact ⟨isSmall_of_plain (fun capital => ascii (by omega)) dotted sigma noRun, id⟩

theorem lowerChar_ne_nil (before : List Char) (c : Char) (after : List Char) :
    lowerChar before c after ≠ [] := by
  unfold lowerChar
  split
  · exact List.cons_ne_nil _ _
  split
  · exact List.cons_ne_nil _ _
  split
  · split <;> exact List.cons_ne_nil _ _
  split <;> exact List.cons_ne_nil _ _

/-! ### Texts -/

theorem lowerFrom_small (before : List Char) {text : List Char} (small : ∀ c ∈ text, IsSmall c) :
    lowerFrom before text = text := by
  induction text generalizing before with
  | nil => rfl
  | cons c rest ih =>
      rw [List.forall_mem_cons] at small
      rw [lowerFrom, small.1, ih _ small.2, List.singleton_append]

theorem small_lowerFrom (before text : List Char) : ∀ c ∈ lowerFrom before text, IsSmall c := by
  induction text generalizing before with
  | nil => exact fun _ member => nomatch member
  | cons c rest ih =>
      intro d member
      rcases List.mem_append.mp member with here | behind
      · exact (lowerChar_smallOf here).1
      · exact ih _ d behind

def Trimmed (text : List Char) : Prop :=
  (∀ c ∈ text.head?, isBlank c = false) ∧ ∀ c ∈ text.getLast?, isBlank c = false

theorem dropWhile_of_head {drops : Char → Bool} {text : List Char}
    (kept : ∀ c ∈ text.head?, drops c = false) : text.dropWhile drops = text := by
  cases text with
  | nil => rfl
  | cons c rest => exact List.dropWhile_cons_of_neg (by simp [kept c rfl])

theorem trimBy_of_trimmed {text : List Char} (trimmed : Trimmed text) :
    trimBy isBlank text = text := by
  rw [trimBy, dropWhile_of_head trimmed.1, dropWhile_of_head, List.reverse_reverse]
  rw [List.head?_reverse]
  exact trimmed.2

theorem head?_dropWhile {drops : Char → Bool} (text : List Char) :
    ∀ c ∈ (text.dropWhile drops).head?, drops c = false := by
  intro c first
  have kept := List.head?_dropWhile_not drops text
  rw [first] at kept
  exact kept

theorem trimmed_trimBy (text : List Char) : Trimmed (trimBy isBlank text) := by
  refine ⟨?front, ?back⟩
  case front =>
    intro c first
    rw [trimBy, List.head?_reverse] at first
    have last : (text.dropWhile isBlank).reverse.getLast? = some c := by
      rw [← List.takeWhile_append_dropWhile (p := isBlank)
        (l := (text.dropWhile isBlank).reverse), List.getLast?_append, first]
      rfl
    rw [List.getLast?_reverse] at last
    exact head?_dropWhile text c last
  case back =>
    rw [trimBy, List.getLast?_reverse]
    exact head?_dropWhile _

theorem exists_lowerFrom_concat (before front : List Char) (c : Char) :
    ∃ small further, lowerFrom before (front ++ [c]) = small ++ lowerChar further c [] := by
  induction front generalizing before with
  | nil => exact ⟨[], before, by simp [lowerFrom]⟩
  | cons first rest ih =>
      obtain ⟨small, further, same⟩ := ih (first :: before)
      exact ⟨lowerChar before first (rest ++ [c]) ++ small, further, by
        rw [List.cons_append, lowerFrom, same, List.append_assoc]⟩

/-- The ends of a text in small letters are small letters of its ends. -/
theorem trimmed_lowerFrom {text : List Char} (trimmed : Trimmed text) :
    Trimmed (lowerFrom [] text) := by
  have kept {c : Char} (visible : isBlank c = false) {before after : List Char} {d : Char}
      (member : d ∈ lowerChar before c after) : isBlank d = false := by
    apply Bool.eq_false_iff.mpr
    intro blank
    rw [(lowerChar_smallOf member).2 blank] at visible
    cases visible
  refine ⟨?front, ?back⟩
  case front =>
    cases text with
    | nil => exact fun _ first => nomatch first
    | cons c rest =>
        intro d first
        obtain ⟨small, more, same⟩ := List.exists_cons_of_ne_nil (lowerChar_ne_nil [] c rest)
        rw [lowerFrom, same] at first
        cases first
        exact kept (trimmed.1 c rfl) (same ▸ List.mem_cons_self)
  case back =>
    rcases List.eq_nil_or_concat text with rfl | ⟨front, c, whole⟩
    · exact fun _ last => nomatch last
    · rw [List.concat_eq_append] at whole
      subst whole
      intro d last
      obtain ⟨small, further, same⟩ := exists_lowerFrom_concat [] front c
      rw [same, List.getLast?_append,
        List.getLast?_eq_some_getLast (lowerChar_ne_nil further c [])] at last
      cases last
      exact kept (trimmed.2 c (by simp)) (List.getLast_mem _)

end ConfigIndex.Text
