import ConfigIndex.Proofs.Document.Positions

/-!
Lead comments in the text. They are found by line numbers alone, so they stand right above their
item as far as nothing else stands on the lines that they end on or that the item starts on.
-/

namespace ConfigIndex.Document

open Position (Occurs)

def Blank (front : List Char) : Prop := ∀ c ∈ front.reverse.takeWhile (· ≠ '\n'), isGap c = true

/-- Nothing but gaps stands before a place on its line. -/
def StartsLine (text : List Char) (position : Position) : Prop :=
  ∃ front back, text = front ++ back ∧ position = .advanceBy .start front ∧ Blank front

def EndsLine (text : List Char) (comment : Comment) : Prop :=
  ∃ front back, text = front ++ (comment.text.toList ++ back) ∧
    comment.position = .advanceBy .start front ∧
    ∀ c ∈ back.takeWhile (· ≠ '\n'), isGap c = true

def Commented (position : Position) (block : List Char) : List Comment → Prop
  | [] => block = []
  | comment :: rest => comment.position = position ∧
    ∃ gap behind, block = comment.text.toList ++ (gap ++ behind) ∧ (∀ c ∈ gap, isGap c = true) ∧
      Commented (position.advanceBy (comment.text.toList ++ gap)) behind rest

/-! ### Comments on lines of their own -/

theorem Blank.append {front word : List Char} (blank : Blank front ∨ '\n' ∈ word)
    (gap : ∀ c ∈ word, isGap c = true) : Blank (front ++ word) := by
  intro c member
  rw [List.reverse_append, List.takeWhile_append] at member
  split at member
  · rename_i whole
    rcases List.mem_append.mp member with inside | before
    · exact gap c (List.mem_reverse.mp inside)
    · rcases blank with blank | newline
      · exact blank c before
      · have same := (List.takeWhile_sublist _).eq_of_length whole
        have other := List.all_eq_true.mp List.all_takeWhile '\n'
          (same ▸ List.mem_reverse.mpr newline)
        simp at other
  · have inside := List.mem_reverse.mp ((List.takeWhile_sublist _).subset member)
    exact gap c inside

theorem gap_chars {text word : List Char} (first : Piece.gap.pattern.first? text = some word) :
    ∀ c ∈ word, isGap c = true := by
  rw [gap_first?] at first
  split at first
  · split at first
    · cases first
      exact List.all_eq_true.mp List.all_takeWhile
    · cases first
  · cases first

theorem Splits.ownComments_startLine {position final : Position} {text left : List Char}
    {stretches : List Stretch} (splits : Splits position text stretches final left) :
    ∀ {front : List Char} {fresh : Bool}, position = .advanceBy .start front →
      (fresh = true → Blank front) →
      ∀ comment ∈ ownComments fresh stretches, StartsLine (front ++ text) comment.position := by
  induction splits with
  | nil => simp [ownComments]
  | @more position kind word rest stretches final left first _ ih =>
      intro front fresh place blank comment member
      have next : position.advanceBy word = .advanceBy .start (front ++ word) := by
        rw [Position.advanceBy_append, place]
      rw [← List.append_assoc]
      rcases List.mem_append.mp member with here | later
      · cases fresh with
        | false => cases here
        | true =>
            cases kind with
            | comment =>
                rw [if_pos rfl] at here
                cases List.mem_singleton.mp here
                exact ⟨front, word ++ rest, List.append_assoc _ _ _, place, blank rfl⟩
            | _ => cases here
      · refine ih next ?_ comment later
        intro leaves
        cases kind with
        | gap =>
            refine Blank.append ?_ (gap_chars first)
            simpa [Stretch.leaves] using (Bool.or_eq_true_iff.mp leaves).imp_left blank
        | _ => cases leaves

theorem scan_startLine {text : List Char} : ∀ comment ∈ (scan text).ownLine,
    StartsLine text comment.position := by
  obtain ⟨stretches, final, left, splits, stuck⟩ := exists_splits .start text
  have nothing : Blank [] := by simp [Blank]
  rw [splits.scan stuck]
  exact @Splits.ownComments_startLine _ _ _ _ _ splits [] true rfl fun _ => nothing

/-! ### Runs of comments -/

def topLine (bottom : Int) : List Comment → Int
  | [] => bottom
  | comment :: _ => comment.position.line

/-- Each comment ends right above the next one, and the last one right above `bottom`. -/
def Stacked (bottom : Int) : List Comment → Prop
  | [] => True
  | comment :: rest => comment.endLine + 1 = topLine bottom rest ∧ Stacked bottom rest

theorem runAbove_stacked {comments : List Comment} {bottom : Int} (fuel : Nat) (line : Int)
    (found : List Comment) (above : line + 1 = topLine bottom found)
    (stacked : Stacked bottom found) : Stacked bottom (runAbove comments fuel line found) := by
  fun_induction runAbove comments fuel line found with
  | case1 => exact stacked
  | case2 => exact stacked
  | case3 fuel line found comment ending ih =>
      have same : comment.endLine = line := by simpa using List.find?_some ending
      apply ih
      · rw [topLine]
        omega
      · exact ⟨by rw [same, above], stacked⟩

/-- The keys of an item are among some words, and its comments are the run right above its first
key, or among some others. -/
def Item.Led (comments : List Comment) (spans : List Span) (others : List Comment) (item : Item) :
    Prop :=
  (∀ token ∈ item.keys, token.span ∈ spans) ∧
    ((∃ key rest, item.keys = key :: rest ∧
      item.lead = runAbove comments comments.length (key.position.line - 1) []) ∨
    item.lead ⊆ others)

section

variable {comments others more : List Comment} {spans wider : List Span} {item : Item}

theorem Item.Led.mono (led : item.Led comments spans others) (words : spans ⊆ wider)
    (leads : others ⊆ more) : item.Led comments wider more :=
  ⟨fun token key => words (led.1 token key),
    led.2.imp_right fun inside => List.Subset.trans inside leads⟩

theorem Item.led_withLead (keys : List Token) (value : Option Node) (assign : Option Position)
    (lead : List Comment) (words : keys.map Token.span ⊆ spans) (leads : lead ⊆ others) :
    Item.Led comments spans others
      ⟨keys, value, assign, leadOf comments ⟨keys, value, assign, lead⟩⟩ := by
  refine ⟨fun token key => words (List.mem_map_of_mem key), ?_⟩
  cases keys with
  | nil => exact Or.inr leads
  | cons key rest =>
      refine Or.inl ⟨key, rest, rfl, ?_⟩
      rfl

mutual

theorem Node.led (node : Node)
    (inside : .item item ∈ (node.withLead comments).visited fun _ => true) :
    item.Led comments node.spans node.leads := by
  cases node with
  | literal token => simp [Node.withLead, Node.visited] at inside
  | key token => simp [Node.withLead, Node.visited] at inside
  | item other =>
      exact Item.led other inside
  | items items =>
      simp only [Node.withLead, Node.visited, if_true, List.mem_cons, reduceCtorEq, false_or]
        at inside
      exact Item.allLed items inside
  | object opening closing items =>
      simp only [Node.withLead, Node.visited, if_true, List.mem_cons, reduceCtorEq, false_or]
        at inside
      exact (Item.allLed items inside).mono (by simp [Node.spans]) (List.Subset.refl _)
  | list opening closing elements =>
      simp only [Node.withLead, Node.visited, if_true, List.mem_cons, reduceCtorEq, false_or]
        at inside
      exact (Node.allLed elements inside).mono (by simp [Node.spans]) (List.Subset.refl _)

theorem Item.led (whole : Item)
    (inside : .item item ∈ (whole.withLead comments).visited fun _ => true) :
    item.Led comments whole.spans whole.leads := by
  match whole with
  | ⟨keys, some value, assign, lead⟩ =>
      simp only [Item.withLead, Item.visited, if_true, List.mem_cons, Node.item.injEq,
        List.mem_append, List.mem_map, reduceCtorEq, and_false, exists_false, false_or] at inside
      rcases inside with rfl | inner
      · exact Item.led_withLead keys _ assign lead (by simp [Item.spans]) (by simp [Item.leads])
      · exact (Node.led value inner).mono (by simp [Item.spans]) (by simp [Item.leads])
  | ⟨keys, none, assign, lead⟩ =>
      simp only [Item.withLead, Item.visited, if_true, List.mem_cons, Node.item.injEq,
        List.mem_map, reduceCtorEq, and_false, exists_false, or_false] at inside
      subst inside
      exact Item.led_withLead keys _ assign lead (by simp [Item.spans]) (by simp [Item.leads])

theorem Node.allLed (nodes : List Node)
    (inside : .item item ∈ Node.visitedAll (fun _ => true) (Node.allWithLead comments nodes)) :
    item.Led comments (Node.allSpans nodes) (Node.allLeads nodes) := by
  cases nodes with
  | nil => cases inside
  | cons node rest =>
      rcases List.mem_append.mp inside with first | later
      · exact (Node.led node first).mono (by simp [Node.allSpans]) (by simp [Node.allLeads])
      · exact (Node.allLed rest later).mono (by simp [Node.allSpans]) (by simp [Node.allLeads])

theorem Item.allLed (items : List Item)
    (inside : .item item ∈ Item.visitedAll (fun _ => true) (Item.allWithLead comments items)) :
    item.Led comments (Item.allSpans items) (Item.allLeads items) := by
  cases items with
  | nil => cases inside
  | cons first rest =>
      rcases List.mem_append.mp inside with here | later
      · exact (Item.led first here).mono (by simp [Item.allSpans]) (by simp [Item.allLeads])
      · exact (Item.allLed rest later).mono (by simp [Item.allSpans]) (by simp [Item.allLeads])

end

end

/-! ### The text of a run -/

theorem startsLine_iff {front back : List Char} :
    StartsLine (front ++ back) (.advanceBy .start front) ↔ Blank front := by
  constructor
  · rintro ⟨other, more, same, place, blank⟩
    rwa [Position.advanceBy_injective same place]
  · exact fun blank => ⟨front, back, rfl, rfl, blank⟩

theorem endsLine_iff {front back : List Char} {comment : Comment}
    (place : comment.position = .advanceBy .start front) :
    EndsLine (front ++ (comment.text.toList ++ back)) comment ↔
      ∀ c ∈ back.takeWhile (· ≠ '\n'), isGap c = true := by
  constructor
  · rintro ⟨other, more, same, where_, blank⟩
    rw [place] at where_
    rw [← Position.advanceBy_injective same where_] at same
    rwa [List.append_cancel_left (List.append_cancel_left same)]
  · exact fun blank => ⟨front, back, rfl, place, blank⟩

/-- Between a comment and what starts on the line below the one that it ends on, there is nothing
but gaps if nothing else is on these two lines. -/
theorem gap_iff {front gap back : List Char} {comment : Comment}
    (place : comment.position = .advanceBy .start front) (single : gap.count '\n' = 1) :
    (∀ c ∈ gap, isGap c = true) ↔
      EndsLine (front ++ (comment.text.toList ++ (gap ++ back))) comment ∧
        StartsLine (front ++ (comment.text.toList ++ (gap ++ back)))
          (.advanceBy .start (front ++ (comment.text.toList ++ gap))) := by
  have newline : '\n' ∈ gap := List.count_pos_iff.mp (by omega)
  obtain ⟨above, below, rfl, first⟩ := List.eq_append_cons_of_mem newline
  have last : '\n' ∉ below := by
    rw [List.count_append, List.count_cons_self, List.count_eq_zero_of_not_mem first] at single
    exact List.count_eq_zero.mp (by omega)
  have ends : (above ++ '\n' :: below ++ back).takeWhile (· ≠ '\n') = above := by
    rw [List.append_assoc, List.takeWhile_append_of_pos]
    · simp
    · intro c member
      simpa using fun same : c = '\n' => first (same ▸ member)
  have starts : Blank (front ++ (comment.text.toList ++ (above ++ '\n' :: below))) ↔
      ∀ c ∈ below, isGap c = true := by
    have cut : (front ++ (comment.text.toList ++ (above ++ '\n' :: below))).reverse =
        below.reverse ++ '\n' :: (front ++ (comment.text.toList ++ above)).reverse := by
      simp
    rw [Blank, cut, List.takeWhile_append_of_pos]
    · simp
    · intro c member
      simpa using fun same : c = '\n' => last (same ▸ List.mem_reverse.mp member)
  rw [endsLine_iff place, ends]
  have whole : front ++ (comment.text.toList ++ (above ++ '\n' :: below ++ back)) =
      front ++ (comment.text.toList ++ (above ++ '\n' :: below)) ++ back := by simp
  rw [whole, startsLine_iff, starts]
  simp only [List.mem_append, List.mem_cons]
  constructor
  · intro all
    exact ⟨fun c member => all c (Or.inl member), fun c member => all c (Or.inr (Or.inr member))⟩
  · rintro ⟨left, right⟩ c (member | rfl | member)
    · exact left c member
    · decide
    · exact right c member

/-- What starts on the line below another place is behind it. -/
theorem exists_between {front back other more : List Char} (same : front ++ back = other ++ more)
    (below : other.count '\n' = front.count '\n' + 1) :
    ∃ gap, other = front ++ gap ∧ gap.count '\n' = 1 := by
  rcases List.prefix_or_prefix_of_prefix (List.prefix_append front back)
      (same ▸ List.prefix_append other more) with ⟨gap, rfl⟩ | ⟨gap, rfl⟩
  · rw [List.count_append] at below
    exact ⟨gap, rfl, by omega⟩
  · rw [List.count_append] at below
    omega

theorem commented_cons_iff {front gap block : List Char} {first second : Comment}
    {rest : List Comment} (place : first.position = .advanceBy .start front)
    (below : second.position = .advanceBy .start (front ++ (first.text.toList ++ gap))) :
    Commented first.position (first.text.toList ++ (gap ++ block)) (first :: second :: rest) ↔
      (∀ c ∈ gap, isGap c = true) ∧ Commented second.position block (second :: rest) := by
  have next (blank : List Char) : first.position.advanceBy (first.text.toList ++ blank) =
      .advanceBy .start (front ++ (first.text.toList ++ blank)) := by
    rw [place, ← Position.advanceBy_append]
  constructor
  · rintro ⟨-, blank, behind, same, gaps, more⟩
    have cut := List.append_cancel_left same
    have whole : front ++ (first.text.toList ++ gap) ++ block =
        front ++ (first.text.toList ++ blank) ++ behind := by
      simp [cut]
    have equal := Position.advanceBy_injective whole
      ((below.symm.trans more.1).trans (next blank))
    have gapped := List.append_cancel_left (List.append_cancel_left equal)
    subst gapped
    rw [← List.append_cancel_left cut, next gap, ← below] at more
    exact ⟨gaps, more⟩
  · rintro ⟨gaps, more⟩
    refine ⟨rfl, gap, block, rfl, gaps, ?_⟩
    rwa [next gap, ← below]

structure OwnLine (text : List Char) (comment : Comment) : Prop where
  occurs : Occurs .start text comment.position comment.text.toList
  ends : comment.endLine = (comment.position.advanceBy comment.text.toList).line
  starts : StartsLine text comment.position

theorem OwnLine.exists_gap {text front back : List Char} {comment : Comment}
    (own : OwnLine text comment) (cut : text = front ++ back)
    (above : comment.endLine + 1 = (Position.start.advanceBy front).line) :
    ∃ before gap, comment.position = .advanceBy .start before ∧
      front = before ++ (comment.text.toList ++ gap) ∧
      ((∀ c ∈ gap, isGap c = true) ↔
        EndsLine text comment ∧ StartsLine text (.advanceBy .start front)) := by
  obtain ⟨before, rest, whole, place⟩ := own.occurs
  have below : front.count '\n' = (before ++ comment.text.toList).count '\n' + 1 := by
    have line := own.ends
    rw [place, ← Position.advanceBy_append, Position.line_advanceBy] at line
    rw [line, Position.line_advanceBy] at above
    omega
  have same : before ++ comment.text.toList ++ rest = front ++ back := by
    rw [← cut, whole, List.append_assoc]
  obtain ⟨gap, rfl, single⟩ := exists_between same below
  have iff := @gap_iff before gap back comment place single
  rw [List.append_assoc] at cut ⊢
  refine ⟨before, gap, place, rfl, ?_⟩
  simpa [cut] using iff

theorem exists_block {text word : List Char} {bottom : Position}
    (occurs : Occurs .start text bottom word) (rest : List Comment) : ∀ first : Comment,
    (∀ comment ∈ first :: rest, OwnLine text comment) → Stacked bottom.line (first :: rest) →
    ∃ front block back, text = front ++ (block ++ back) ∧
      first.position = .advanceBy .start front ∧ bottom = .advanceBy .start (front ++ block) ∧
      (Commented first.position block (first :: rest) ↔
        (∀ comment ∈ first :: rest, EndsLine text comment) ∧ StartsLine text bottom) := by
  -- From the last comment up: each one adds itself and the gap below it.
  induction rest with
  | nil =>
      intro first own stacked
      obtain ⟨front, back, cut, rfl⟩ := occurs
      obtain ⟨before, gap, place, rfl, iff⟩ :=
        (own first List.mem_cons_self).exists_gap cut stacked.1
      refine ⟨before, first.text.toList ++ gap, word ++ back, ?_, place, rfl, ?_⟩
      · simpa using cut
      · rw [List.forall_mem_singleton, ← iff]
        constructor
        · rintro ⟨-, blank, behind, same, gaps, rfl⟩
          rw [List.append_nil] at same
          rwa [List.append_cancel_left same]
        · exact fun gaps => ⟨rfl, gap, [], by rw [List.append_nil], gaps, rfl⟩
  | cons second rest ih =>
      intro first own stacked
      obtain ⟨front, block, back, cut, below, last, inner⟩ :=
        ih second (fun comment member => own comment (List.mem_cons_of_mem _ member)) stacked.2
      have above := stacked.1
      rw [topLine, below] at above
      obtain ⟨before, gap, place, rfl, iff⟩ :=
        (own first List.mem_cons_self).exists_gap cut above
      refine ⟨before, first.text.toList ++ (gap ++ block), back, ?_, place, ?_, ?_⟩
      · simpa using cut
      · rw [last]
        simp
      · have starts := (own second (by simp)).starts
        rw [below] at starts
        rw [commented_cons_iff place below, inner, iff]
        simp only [List.forall_mem_cons, starts, and_true, and_assoc]

theorem Tiled.comment_ends {position : Position} {text : List Char} {spans : List Span}
    {comments : List Comment} (tiled : Tiled position text spans comments) :
    ∀ comment ∈ comments,
      comment.endLine = (comment.position.advanceBy comment.text.toList).line := by
  induction tiled with
  | done => simp
  | filler _ _ ih => exact ih
  | span _ _ ih => exact ih
  | comment _ ends _ ih => exact List.forall_mem_cons.mpr ⟨ends, ih⟩

theorem scan_ownLine_own {text : List Char} {items : List Item}
    (accepted : (scan text).items = .ok items) :
    ∀ comment ∈ (scan text).ownLine, OwnLine text comment := by
  have tiled := scan_items_tiled accepted
  intro comment member
  have listed := (scan_ownLine text).subset member
  exact ⟨tiled.comment_occurs comment listed, tiled.comment_ends comment listed,
    scan_startLine comment member⟩

theorem parseChars_led {text : List Char} {file : File} (read : parseChars text = .ok file)
    {item : Item} (inside : .item item ∈ file.root.visited fun _ => true)
    (documented : item.lead ≠ []) :
    ∃ key rest, item.keys = key :: rest ∧
      Occurs .start text key.position key.text.toList ∧
      Stacked key.position.line item.lead ∧ ∀ comment ∈ item.lead, OwnLine text comment := by
  obtain ⟨items, accepted, -, rfl⟩ := parseChars_eq_ok read
  obtain ⟨stretches, final, splits, derives⟩ := scan_items_eq_ok_iff.mp accepted
  have bare : Item.allBare items = items := derives.bare
  have nothing : Item.allLeads items = [] := by
    rw [← bare]
    exact Item.allLeads_bare items
  obtain ⟨words, leads⟩ := Node.led (.items items) inside
  rcases leads with ⟨key, rest, keys, lead⟩ | among
  · refine ⟨key, rest, keys, ?_, ?_, ?_⟩
    · exact (scan_items_tiled accepted).span_occurs key.span (words key (by simp [keys]))
    · rw [lead]
      exact runAbove_stacked _ _ [] (by simp [topLine]) trivial
    · intro comment member
      have listed := runAbove_subset _ _ _ (lead ▸ member)
      rw [List.append_nil, List.mem_reverse] at listed
      exact scan_ownLine_own accepted comment listed
  · rw [Node.leads, nothing] at among
    exact absurd (List.subset_nil.mp among) documented

/-- The comments of an item stand in the text above it. From the first of them to the item there is
nothing but these comments and gaps exactly if nothing stands behind them on the lines that they
end on, and nothing before the item on its line. -/
theorem parse_lead (text : String) (file : File) (read : parse text = .ok file) (item : Item)
    (inside : .item item ∈ file.root.visited fun _ => true) (documented : item.lead ≠ []) :
    ∃ first others key rest front block back,
      item.lead = first :: others ∧ item.keys = key :: rest ∧
      text.toList = front ++ (block ++ back) ∧ first.position = .advanceBy .start front ∧
      key.position = .advanceBy .start (front ++ block) ∧
      (Commented first.position block item.lead ↔
        (∀ comment ∈ item.lead, EndsLine text.toList comment) ∧
          StartsLine text.toList key.position) := by
  obtain ⟨key, rest, keys, occurs, stacked, own⟩ := parseChars_led read inside documented
  cases lead : item.lead with
  | nil => exact absurd lead documented
  | cons first others =>
      rw [lead] at stacked own
      obtain ⟨front, block, back, cut, place, below, iff⟩ :=
        exists_block occurs others first own stacked
      exact ⟨first, others, key, rest, front, block, back, rfl, keys, cut, place, below, iff⟩

theorem item_of_any {result : Except Error File} {keys : List Token} {lead : List Comment}
    (found : (match result with
      | .ok file => (file.root.visited fun _ => true).any fun node => match node with
        | .item item => decide (item.keys = keys ∧ item.lead = lead)
        | _ => false
      | .error _ => false) = true) :
    ∃ file item, result = .ok file ∧ .item item ∈ file.root.visited (fun _ => true) ∧
      item.keys = keys ∧ item.lead = lead := by
  split at found
  · rename_i file
    obtain ⟨node, member, same⟩ := List.any_eq_true.mp found
    split at same
    · rename_i item
      exact ⟨file, item, rfl, member, of_decide_eq_true same⟩
    · cases same
  · cases found

theorem parse_lead_nested :
    let text := "a \x7b\n  # b\r\n\t/* c\n */ \n  d = 1\n\x7d"
    ∃ file item, parse text = .ok file ∧ .item item ∈ file.root.visited (fun _ => true) ∧
      item.lead = [⟨"# b", ⟨"", 6, 2, 3⟩, 2⟩, ⟨"/* c\n */", ⟨"", 12, 3, 2⟩, 4⟩] ∧
      ∃ first others key rest front block back,
        item.lead = first :: others ∧ item.keys = key :: rest ∧
        text.toList = front ++ (block ++ back) ∧ first.position = .advanceBy .start front ∧
        key.position = .advanceBy .start (front ++ block) ∧
        (Commented first.position block item.lead ↔
          (∀ comment ∈ item.lead, EndsLine text.toList comment) ∧
            StartsLine text.toList key.position) := by
  intro text
  obtain ⟨file, item, read, inside, -, lead⟩ : ∃ file item, parse text = .ok file ∧
      .item item ∈ file.root.visited (fun _ => true) ∧
      item.keys = [⟨.ident, "d", ⟨"", 24, 5, 3⟩⟩] ∧
      item.lead = [⟨"# b", ⟨"", 6, 2, 3⟩, 2⟩, ⟨"/* c\n */", ⟨"", 12, 3, 2⟩, 4⟩] :=
    item_of_any (by decide +kernel)
  exact ⟨file, item, read, inside, lead, parse_lead text file read item inside (by simp [lead])⟩

/-- A comment in front of other code is taken for the item on the next line, though that code stands
between them. -/
theorem parse_lead_before :
    let block := "/* c */ a = 1\n".toList
    ∃ file item key, parse "/* c */ a = 1\nb = 2" = .ok file ∧
      .item item ∈ file.root.visited (fun _ => true) ∧ item.keys = [key] ∧
      item.lead = [⟨"/* c */", .start, 1⟩] ∧ key.position = .advanceBy .start block ∧
      ¬Commented .start block item.lead := by
  intro block
  obtain ⟨file, item, read, inside, keys, lead⟩ : ∃ file item,
      parse "/* c */ a = 1\nb = 2" = .ok file ∧
      .item item ∈ file.root.visited (fun _ => true) ∧
      item.keys = [⟨.ident, "b", ⟨"", 14, 2, 1⟩⟩] ∧ item.lead = [⟨"/* c */", .start, 1⟩] :=
    item_of_any (by decide +kernel)
  refine ⟨file, item, _, read, inside, keys, lead, by decide +kernel, ?_⟩
  rw [lead]
  rintro ⟨-, gap, behind, same, gaps, rfl⟩
  have code : " a = 1\n".toList = gap := by simpa [block] using same
  have letter := gaps 'a' (by rw [← code]; decide)
  exact absurd letter (by decide)

end ConfigIndex.Document
