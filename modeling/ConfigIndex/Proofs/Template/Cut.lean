import ConfigIndex.Proofs.Template.Completeness
import ConfigIndex.Proofs.Template.Places
import ConfigIndex.Proofs.Text.Cut

/-!
The words in front of a place in a template stay the same if the text behind that place becomes
another one that starts with a blank or a quote.
-/

namespace ConfigIndex.Template

open Text (Pattern)

/-- Two texts that look the same to a reader that looks two characters ahead. -/
def Resembles (text other : List Char) : Prop := text.take 2 = other.take 2

theorem Resembles.behind {text other : List Char} (resembles : Resembles text other) :
    ∀ word : List Char, Resembles (word ++ text) (word ++ other) := by
  intro word
  match word with
  | [] => exact resembles
  | [c] =>
      have first : text.take 1 = other.take 1 := by
        have same := congrArg (List.take 1) resembles
        simpa [List.take_take] using same
      simp [Resembles, first]
  | c :: d :: word => simp [Resembles]

theorem Resembles.symm {text other : List Char} (resembles : Resembles text other) :
    Resembles other text := Eq.symm resembles

theorem Resembles.head {text other more : List Char} {c : Char}
    (resembles : Resembles text other) (starts : text = c :: more) :
    ∃ rest, other = c :: rest := by
  have first := congrArg List.head? resembles
  cases other with
  | nil => simp [starts] at first
  | cons d other =>
      have same : c = d := by simpa [starts] using first
      exact ⟨other, by rw [same]⟩

theorem Resembles.pair {text other more : List Char} {c d : Char}
    (resembles : Resembles text other) (starts : text = c :: d :: more) :
    ∃ rest, other = c :: d :: rest := by
  obtain ⟨rest, rfl⟩ := resembles.head starts
  unfold Resembles at resembles
  cases rest with
  | nil => simp [starts] at resembles
  | cons e rest =>
      have same : d = e := by simpa [starts] using resembles
      exact ⟨rest, by rw [same]⟩

theorem Resembles.short {text other : List Char} (resembles : Resembles text other)
    (short : text.length < 2) : other = text := by
  unfold Resembles at resembles
  rw [List.take_of_length_le (by omega)] at resembles
  have size := congrArg List.length resembles
  rw [List.length_take] at size
  rw [resembles, List.take_of_length_le (by omega)]

/-- What is read as text ends where it may go on with an interpolation, and is the same wherever
that is so. -/
theorem readText_cut (seen text : List Char) :
    ∃ word rest, text = word ++ rest ∧ readText seen text = seen.reverse ++ word ∧
      (rest = [] ∨ ∃ more, rest = '$' :: '{' :: more) ∧
      ∀ other, Resembles rest other → readText seen (word ++ other) = seen.reverse ++ word := by
  fun_induction readText seen text with
  | case1 seen rest ih =>
      obtain ⟨word, left, rfl, read, ends, kept⟩ := ih
      refine ⟨'$' :: '$' :: '{' :: word, left, rfl, by simp [read], ends, fun other same => ?_⟩
      simp [readText, kept other same]
  | case2 seen rest =>
      refine ⟨[], '$' :: '{' :: rest, rfl, by simp, Or.inr ⟨rest, rfl⟩, fun other same => ?_⟩
      obtain ⟨more, rfl⟩ := same.pair rfl
      simp [readText]
  | case3 seen c rest escape opening ih =>
      obtain ⟨word, left, rfl, read, ends, kept⟩ := ih
      refine ⟨c :: word, left, rfl, by simp [read], ends, fun other same => ?_⟩
      have behind := (same.behind word).symm
      rw [List.cons_append, readText_plain, kept other same]
      · simp
      · rintro more rfl
        refine ⟨fun brace => ?_, fun pair => ?_⟩
        · obtain ⟨rest, again⟩ := behind.head brace
          exact opening rest rfl again
        · obtain ⟨rest, again⟩ := behind.pair pair
          exact escape rest rfl again
  | case4 seen =>
      refine ⟨[], [], rfl, by simp, Or.inl rfl, fun other same => ?_⟩
      simp [same.short (by simp), readText]

theorem readQuoted_plain {c : Char} {seen rest : List Char} (quote : c ≠ '"') (slash : c ≠ '\\')
    (plain : ∀ more, c = '$' → rest ≠ '{' :: more ∧ rest ≠ '$' :: '{' :: more) :
    readQuoted seen (c :: rest) = readQuoted (c :: seen) rest := by
  rw [readQuoted.eq_def]
  split
  · rename_i same
    obtain ⟨rfl, pair⟩ := List.cons.inj same
    exact absurd pair (plain _ rfl).2
  · rename_i same
    obtain ⟨rfl, brace⟩ := List.cons.inj same
    exact absurd brace (plain _ rfl).1
  · rename_i same
    exact absurd (List.cons.inj same).1 slash
  · rename_i same
    obtain ⟨rfl, rfl⟩ := List.cons.inj same
    simp [quote, slash]
  · rename_i same
    cases same

def Follows (rest other : List Char) : Prop := Resembles rest other ∨ ∃ more, other = '"' :: more

theorem Follows.head {rest other more word : List Char} {c : Char} (follows : Follows rest other)
    (apart : c ≠ '"') (starts : word ++ other = c :: more) : ∃ left, word ++ rest = c :: left := by
  rcases follows with same | ⟨behind, rfl⟩
  · exact (same.behind word).symm.head starts
  · cases word with
    | nil => exact absurd (List.cons.inj starts).1.symm apart
    | cons d word => exact ⟨word ++ rest, by rw [List.cons_append, (List.cons.inj starts).1]⟩

theorem Follows.pair {rest other more word : List Char} {c d : Char}
    (follows : Follows rest other) (apart : c ≠ '"' ∧ d ≠ '"')
    (starts : word ++ other = c :: d :: more) : ∃ left, word ++ rest = c :: d :: left := by
  cases word with
  | nil =>
      rcases follows with same | ⟨behind, rfl⟩
      · exact same.symm.pair starts
      · exact absurd (List.cons.inj starts).1.symm apart.1
  | cons e word =>
      obtain ⟨rfl, behind⟩ := List.cons.inj starts
      obtain ⟨left, same⟩ := follows.head apart.2 behind
      exact ⟨left, by rw [List.cons_append, same]⟩

/-- What is read as text of a string ends where no text goes on, and is the same wherever the
string ends or that place looks the same. -/
theorem readQuoted_cut (seen text : List Char) :
    ∃ word rest, text = word ++ rest ∧ readQuoted seen text = seen.reverse ++ word ∧
      readQuoted [] rest = [] ∧
      ∀ other, Follows rest other → readQuoted seen (word ++ other) = seen.reverse ++ word := by
  fun_induction readQuoted seen text with
  | case1 seen rest ih =>
      obtain ⟨word, left, rfl, read, ends, kept⟩ := ih
      refine ⟨'$' :: '$' :: '{' :: word, left, rfl, by simp [read], ends, fun other same => ?_⟩
      simp [readQuoted, kept other same]
  | case2 seen rest =>
      refine ⟨[], '$' :: '{' :: rest, rfl, by simp, by simp [readQuoted], fun other same => ?_⟩
      rcases same with same | ⟨more, rfl⟩
      · obtain ⟨more, rfl⟩ := same.pair rfl
        simp [readQuoted]
      · simp [readQuoted]
  | case3 seen rest =>
      refine ⟨[], '\\' :: '\n' :: rest, rfl, by simp, by simp [readQuoted], fun other same => ?_⟩
      rcases same with same | ⟨more, rfl⟩
      · obtain ⟨more, rfl⟩ := same.pair rfl
        simp [readQuoted]
      · simp [readQuoted]
  | case4 seen c rest newline ih =>
      obtain ⟨word, left, rfl, read, ends, kept⟩ := ih
      refine ⟨'\\' :: c :: word, left, rfl, by simp [read], ends, fun other same => ?_⟩
      simp [readQuoted, newline, kept other same]
  | case5 seen c rest escape opening backslash stop =>
      have ends : c = '"' ∨ c = '\\' ∧ rest = [] := by
        cases rest with
        | nil => simpa using stop
        | cons d rest =>
            have other : c ≠ '\\' := fun same => backslash d rest same rfl
            simpa [other] using stop
      have stops : ∀ seen, readQuoted seen (c :: rest) = seen.reverse := by
        intro seen
        rcases ends with rfl | ⟨rfl, rfl⟩
        · simp [readQuoted]
        · simp [readQuoted]
      refine ⟨[], c :: rest, rfl, by simp, stops [], fun other same => ?_⟩
      rcases same with same | ⟨more, rfl⟩
      · rcases ends with rfl | ⟨rfl, rfl⟩
        · obtain ⟨more, rfl⟩ := same.head rfl
          simp [readQuoted]
        · simp [same.short (by simp), readQuoted]
      · simp [readQuoted]
  | case6 seen c rest escape opening backslash stop ih =>
      obtain ⟨word, left, rfl, read, ends, kept⟩ := ih
      obtain ⟨quote, slash⟩ : c ≠ '"' ∧ c ≠ '\\' := by simpa using stop
      refine ⟨c :: word, left, rfl, by simp [read], ends, fun other same => ?_⟩
      rw [List.cons_append, readQuoted_plain quote slash, kept other same]
      · simp
      · rintro more rfl
        refine ⟨fun brace => ?_, fun pair => ?_⟩
        · obtain ⟨left, again⟩ := same.head (by decide) brace
          exact opening left rfl again
        · obtain ⟨left, again⟩ := same.pair (by decide) pair
          exact escape left rfl again
  | case7 seen =>
      refine ⟨[], [], rfl, by simp, by simp [readQuoted], fun other same => ?_⟩
      rcases same with same | ⟨more, rfl⟩
      · simp [same.short (by simp), readQuoted]
      · simp [readQuoted]

theorem filled?_eq_some_iff {terminal : Terminal} {text word : List Char} :
    (filled? terminal text).map (·.2) = some word ↔ text = word ∧ word ≠ [] := by
  unfold filled?
  split
  · rename_i empty
    have nothing : text = [] := by simpa using empty
    constructor
    · intro found
      cases found
    · rintro ⟨rfl, filled⟩
      exact absurd nothing filled
  · rename_i filled
    constructor
    · intro found
      cases found
      exact ⟨rfl, by simpa using filled⟩
    · rintro ⟨rfl, -⟩
      rfl

theorem text_first?_iff {text word : List Char} :
    Terminal.text.pattern.first? text = some word ↔ readText [] text = word ∧ word ≠ [] := by
  rw [text_first?, filled?_eq_some_iff]

theorem quotedText_first?_iff {text word : List Char} :
    Terminal.quotedText.pattern.first? text = some word ↔
      readQuoted [] text = word ∧ word ≠ [] := by
  rw [quotedText_first?, filled?_eq_some_iff]

/-- Text goes as far as it can. -/
theorem text_kept {word rest : List Char}
    (first : Terminal.text.pattern.first? (word ++ rest) = some word) :
    (rest = [] ∨ ∃ more, rest = '$' :: '{' :: more) ∧ ∀ other, Resembles rest other →
      Terminal.text.pattern.first? (word ++ other) = some word := by
  obtain ⟨read, filled⟩ := text_first?_iff.mp first
  obtain ⟨front, left, cut, again, ends, kept⟩ := readText_cut [] (word ++ rest)
  obtain rfl : front = word := by simpa using again.symm.trans read
  obtain rfl := List.append_cancel_left cut
  exact ⟨ends, fun other same => text_first?_iff.mpr ⟨by simpa using kept other same, filled⟩⟩

theorem quotedText_kept {word rest : List Char}
    (first : Terminal.quotedText.pattern.first? (word ++ rest) = some word) :
    readQuoted [] rest = [] ∧ ∀ other, Follows rest other →
      Terminal.quotedText.pattern.first? (word ++ other) = some word := by
  obtain ⟨read, filled⟩ := quotedText_first?_iff.mp first
  obtain ⟨front, left, cut, again, ends, kept⟩ := readQuoted_cut [] (word ++ rest)
  obtain rfl : front = word := by simpa using again.symm.trans read
  obtain rfl := List.append_cancel_left cut
  exact ⟨ends, fun other same => quotedText_first?_iff.mpr ⟨by simpa using kept other same, filled⟩⟩

theorem first?_kept {terminal : Terminal} (plain : terminal ≠ .text ∧ terminal ≠ .quotedText)
    {stop : Char} (ends : stop = ' ' ∨ stop = '"') {word back rest more : List Char}
    (first : terminal.pattern.first? (word ++ (back ++ rest)) = some word) :
    terminal.pattern.first? (word ++ (back ++ stop :: more)) = some word := by
  cases terminal with
  | text => exact absurd rfl plain.1
  | quotedText => exact absurd rfl plain.2
  | ident | number =>
      have stops : ∀ stop, stop = ' ' ∨ stop = '"' → namePattern.stopsAt stop = true ∧
          Pattern.numeral.stopsAt stop = true := by
        rintro stop (rfl | rfl)
        · decide
        · decide
      first
        | exact Pattern.first?_cut (stops stop ends).1 first
        | exact Pattern.first?_cut (stops stop ends).2 first
  | _ =>
      have same := (Pattern.literally_first?_iff.mp first).1
      exact Pattern.literally_first?_iff.mpr ⟨same, _, by rw [same]⟩

theorem isCut_iff {terminal : Terminal} {text : List Char} :
    terminal.isCut text = true ↔
      terminal = .less ∧ (∃ more, text = '<' :: '=' :: more) ∨
        terminal = .greater ∧ ∃ more, text = '>' :: '=' :: more := by
  unfold Terminal.isCut
  split
  · simp
  · simp
  · rename_i less greater
    simp only [Bool.false_eq_true, false_iff, not_or, not_and]
    exact ⟨fun same ⟨more, starts⟩ => less more same starts,
      fun same ⟨more, starts⟩ => greater more same starts⟩

theorem isCut_of_word? {mode : Mode} {terminal : Terminal} {text word : List Char}
    (found : word? mode text = some (terminal, word)) : terminal.isCut text = false := by
  apply Bool.eq_false_iff.mpr
  intro isCut
  obtain ⟨member, -⟩ := word?_sound found
  rcases isCut_iff.mp isCut with ⟨rfl, more, rfl⟩ | ⟨rfl, more, rfl⟩
  · cases mode with
    | operator => simp [word?, mark?] at found
    | _ => simp [Mode.terminals] at member
  · cases mode with
    | operator => simp [word?, mark?] at found
    | _ => simp [Mode.terminals] at member

theorem isCut_kept {terminal : Terminal} {stop : Char} (other : stop ≠ '=')
    {word back rest more : List Char}
    (first : terminal.pattern.first? (word ++ (back ++ rest)) = some word)
    (whole : terminal.isCut (word ++ (back ++ rest)) = false) :
    terminal.isCut (word ++ (back ++ stop :: more)) = false := by
  have behind {c : Char} {others : List Char}
      (cut : [c] ++ (back ++ stop :: more) = c :: '=' :: others) :
      ∃ others, [c] ++ (back ++ rest) = c :: '=' :: others := by
    cases back with
    | nil => simp [other] at cut
    | cons d back =>
        obtain rfl : d = '=' := by simpa using (List.cons.inj (List.cons.inj cut).2).1
        exact ⟨back ++ rest, rfl⟩
  apply Bool.eq_false_iff.mpr
  intro isCut
  apply Bool.eq_false_iff.mp whole
  rcases isCut_iff.mp isCut with ⟨rfl, others, cut⟩ | ⟨rfl, others, cut⟩
  · obtain rfl := (Pattern.literally_first?_iff.mp first).1
    exact isCut_iff.mpr (Or.inl ⟨rfl, behind cut⟩)
  · obtain rfl := (Pattern.literally_first?_iff.mp first).1
    exact isCut_iff.mpr (Or.inr ⟨rfl, behind cut⟩)

def Terminal.Keeps (terminal : Terminal) (rest other : List Char) : Prop :=
  match terminal with
  | .text => Resembles rest other
  | .quotedText => Follows rest other
  | _ => ∃ back left stop more, rest = back ++ left ∧ other = back ++ stop :: more ∧
      (stop = ' ' ∨ stop = '"')

theorem word?_kept {mode : Mode} {terminal : Terminal} {word rest other : List Char}
    (found : word? mode (word ++ rest) = some (terminal, word))
    (keeps : terminal.Keeps rest other) : word? mode (word ++ other) = some (terminal, word) := by
  obtain ⟨member, first⟩ := word?_sound found
  by_cases text : terminal = .text
  · subst text
    exact word?_complete member ((text_kept first).2 other keeps) rfl
  by_cases quoted : terminal = .quotedText
  · subst quoted
    exact word?_complete member ((quotedText_kept first).2 other keeps) rfl
  · obtain ⟨back, left, stop, more, rfl, rfl, ends⟩ :
        ∃ back left stop more, rest = back ++ left ∧ other = back ++ stop :: more ∧
          (stop = ' ' ∨ stop = '"') := by
      cases terminal with
      | text => exact absurd rfl text
      | quotedText => exact absurd rfl quoted
      | _ => exact keeps
    have apart : stop ≠ '=' := by rcases ends with rfl | rfl <;> decide
    exact word?_complete member (first?_kept ⟨text, quoted⟩ ends first)
      (isCut_kept apart first (isCut_of_word? found))

theorem Word.cut {terminal : Terminal} {spot behind : Spot} {lexeme : Lexeme}
    (word : Word terminal spot lexeme behind) :
    ∃ front, spot.rest = front ++ behind.rest ∧ terminal.pattern.first? spot.rest = some front := by
  cases word with
  | mk first => exact ⟨_, rfl, first⟩

/-- Behind text only an interpolation is read. -/
theorem Steps.opening {before : List Part} {last : Stage} {spot stop : Spot} {word : List Char}
    (steps : Steps (.text before) spot last stop) (outside : ∀ before, last ≠ .text before)
    (first : Terminal.text.pattern.first? (word ++ spot.rest) = some word) :
    ∃ front, spot.rest = '$' :: '{' :: front ++ stop.rest := by
  cases steps with
  | none => exact absurd rfl (outside before)
  | more read _ steps =>
      obtain ⟨back, further, -⟩ := steps.leads
      obtain ⟨member, read⟩ := read.word (Or.inl rfl)
      obtain ⟨front, cut, found⟩ := read.cut
      simp only [Stage.place, Mode.terminals, List.mem_cons, List.not_mem_nil, or_false] at member
      rcases member with opening | text
      · rw [opening] at found
        obtain ⟨rfl, -⟩ := Pattern.literally_first?_iff.mp found
        exact ⟨back, by rw [cut, further]; rfl⟩
      · rw [text] at found
        rcases (text_kept first).1 with empty | ⟨more, starts⟩
        · rw [empty] at found
          simp [text_first?_iff, readText] at found
        · rw [starts] at found
          exact absurd found opening_apart.1

/-- Behind text of a string, its end or an interpolation is read. -/
theorem Steps.follows {outer : Site} {quote : Point} {before : List Part} {last : Stage}
    {spot stop : Spot} {word : List Char}
    (steps : Steps (.quoted outer quote before) spot last stop)
    (first : Terminal.quotedText.pattern.first? (word ++ spot.rest) = some word) :
    (last = .quoted outer quote before ∧ stop = spot) ∨ ∃ front,
      spot.rest = '"' :: front ++ stop.rest ∨ spot.rest = '$' :: '{' :: front ++ stop.rest := by
  cases steps with
  | none => exact Or.inl ⟨rfl, rfl⟩
  | more read _ steps =>
      right
      obtain ⟨back, further, -⟩ := steps.leads
      obtain ⟨member, read⟩ := read.word (Or.inr rfl)
      obtain ⟨front, cut, found⟩ := read.cut
      simp only [Stage.place, Mode.terminals, List.mem_cons, List.not_mem_nil, or_false] at member
      rcases member with closing | opening | text
      · rw [closing] at found
        obtain ⟨rfl, -⟩ := Pattern.literally_first?_iff.mp found
        exact ⟨back, Or.inl (by rw [cut, further]; rfl)⟩
      · rw [opening] at found
        obtain ⟨rfl, -⟩ := Pattern.literally_first?_iff.mp found
        exact ⟨back, Or.inr (by rw [cut, further]; rfl)⟩
      · rw [text, quotedText_first?_iff, (quotedText_kept first).1] at found
        exact absurd found.1.symm found.2

theorem stage_of_text {stage : Stage} (mode : stage.place.mode = .text) :
    ∃ before, stage = .text before := by
  cases stage with
  | text before => exact ⟨before, rfl⟩
  | _ => cases mode

theorem stage_of_quoted {stage : Stage} (mode : stage.place.mode = .quoted) :
    ∃ outer quote before, stage = .quoted outer quote before := by
  cases stage with
  | quoted outer quote before => exact ⟨outer, quote, before, rfl⟩
  | _ => cases mode

theorem mode_of_text {mode : Mode} (member : .text ∈ mode.terminals) : mode = .text := by
  cases mode with
  | text => rfl
  | _ => simp [Mode.terminals] at member

theorem mode_of_quotedText {mode : Mode} (member : .quotedText ∈ mode.terminals) :
    mode = .quoted := by
  cases mode with
  | quoted => rfl
  | _ => simp [Mode.terminals] at member

section

variable {last : Stage} {stop : Spot} {back left more : List Char} {c : Char}

/-- What stands in front of a place keeps each word in front of it what it is: text goes up to the
word behind it. -/
theorem Steps.keeps {next : Stage} {spot : Spot} (steps : Steps next spot last stop)
    (cut : stop.rest = back ++ left) (ends : c = ' ' ∨ c = '"')
    (outside : ∀ before, last ≠ .text before)
    (quoted : ∀ outer quote before, last = .quoted outer quote before → back = [] ∧ c = '"')
    {between word : List Char} (further : spot.rest = between ++ stop.rest) {terminal : Terminal}
    (first : terminal.pattern.first? (word ++ spot.rest) = some word)
    (text : terminal = .text → next.place.mode = .text)
    (string : terminal = .quotedText → next.place.mode = .quoted) :
    terminal.Keeps spot.rest (between ++ (back ++ c :: more)) := by
  cases terminal with
  | text =>
      obtain ⟨before, rfl⟩ := stage_of_text (text rfl)
      obtain ⟨front, opens⟩ := steps.opening outside first
      obtain rfl := List.append_cancel_right (further.symm.trans opens)
      simp [Terminal.Keeps, Resembles, opens]
  | quotedText =>
      obtain ⟨outer, quote, before, rfl⟩ := stage_of_quoted (string rfl)
      rcases steps.follows first with ⟨same, rfl⟩ | ⟨front, closes | opens⟩
      · obtain ⟨rfl, rfl⟩ := quoted outer quote before same
        obtain rfl : between = [] := by simpa using further
        exact Or.inr ⟨more, rfl⟩
      · obtain rfl := List.append_cancel_right (further.symm.trans closes)
        exact Or.inr ⟨_, rfl⟩
      · obtain rfl := List.append_cancel_right (further.symm.trans opens)
        left
        simp [Resembles, opens]
  | _ =>
      exact ⟨between ++ back, left, c, more, by rw [further, cut, List.append_assoc],
        (List.append_assoc _ _ _).symm, ends⟩

/-- The words in front of a place stay what they are if a blank follows there, or a quote where a
string is open. -/
theorem Steps.kept {stage : Stage} {spot : Spot} (steps : Steps stage spot last stop)
    (cut : stop.rest = back ++ left) (ends : c = ' ' ∨ c = '"')
    (outside : ∀ before, last ≠ .text before)
    (quoted : ∀ outer quote before, last = .quoted outer quote before → back = [] ∧ c = '"') :
    ∀ front, spot.rest = front ++ stop.rest →
      Steps stage ⟨spot.point, front ++ (back ++ c :: more)⟩ last
        ⟨stop.point, back ++ c :: more⟩ := by
  induction steps with
  | @none stage spot =>
      intro front same
      have empty : front = [] := by simpa using same
      rw [empty]
      exact Steps.none
  | @more stage spot lexeme next behind last stop read stepped steps ih =>
      intro front same
      obtain ⟨between, further, -⟩ := steps.leads
      have again := ih cut outside quoted between further
      have place := step_place stepped
      cases read with
      | @mk point gap word rest terminal gaps kept nonempty found =>
          obtain ⟨member, first⟩ := word?_sound found
          have text (same : terminal = .text) : next.place.mode = .text := by
            subst same
            rw [place]
            exact mode_of_text member
          have string (same : terminal = .quotedText) : next.place.mode = .quoted := by
            subst same
            rw [place]
            exact mode_of_quotedText member
          have keeps : terminal.Keeps rest (between ++ (back ++ c :: more)) :=
            steps.keeps cut ends outside quoted further first text string
          have whole : front = gap ++ (word ++ between) := by
            have cut : front ++ stop.rest = gap ++ (word ++ between) ++ stop.rest := by
              rw [← same, List.append_assoc, List.append_assoc, ← further]
            exact List.append_cancel_right cut
          rw [whole, List.append_assoc, List.append_assoc]
          exact Steps.more (Next.mk gap gaps kept nonempty (word?_kept found keeps)) stepped again

end

end ConfigIndex.Template
