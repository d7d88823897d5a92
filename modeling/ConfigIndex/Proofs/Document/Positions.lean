import ConfigIndex.Proofs.Document.Reading
import ConfigIndex.Proofs.Position

/-!
Every place that reading a document reports, in its tree or in an error, is a place in the text.
-/

namespace ConfigIndex.Document

open Position (Occurs)

theorem Tiled.span_occurs {position : Position} {text : List Char} {spans : List Span}
    {comments : List Comment} (tiled : Tiled position text spans comments) :
    ∀ span ∈ spans, Occurs position text span.position span.text := by
  induction tiled with
  | done => simp
  | filler _ _ ih =>
      intro span member
      exact Occurs.cons (ih span member)
  | @span position word rest _ _ _ _ ih =>
      intro span member
      rcases List.mem_cons.mp member with rfl | member
      · exact Occurs.here position word rest
      · exact (ih span member).behind
  | comment _ _ _ ih =>
      intro span member
      exact (ih span member).behind

theorem Tiled.comment_occurs {position : Position} {text : List Char} {spans : List Span}
    {comments : List Comment} (tiled : Tiled position text spans comments) :
    ∀ comment ∈ comments, Occurs position text comment.position comment.text.toList := by
  induction tiled with
  | done => simp
  | filler _ _ ih =>
      intro comment member
      exact Occurs.cons (ih comment member)
  | span _ _ ih =>
      intro comment member
      exact (ih comment member).behind
  | comment _ _ _ ih =>
      intro other member
      rcases List.mem_cons.mp member with rfl | member
      · exact Occurs.here _ _ _
      · exact (ih other member).behind

theorem Splits.final_occurs {position final : Position} {text left : List Char}
    {stretches : List Stretch} (splits : Splits position text stretches final left) :
    Occurs position text final left := by
  induction splits with
  | @nil position text => exact ⟨[], [], by simp, rfl⟩
  | more _ _ ih => exact ih.behind

def Fault.isSyntactic : Fault → Bool
  | .stray _ => true
  | .unexpected _ _ => true
  | .unfinished _ => true
  | .unknownWord _ => false
  | .tooDeep => false
  | .encoding _ => false

mutual

theorem Node.fault?_span {level : Nat} {error : Error} (node : Node)
    (fault : node.fault? level = some error) :
    ∃ span ∈ node.spans, error.position = span.position ∧
      error.fault.isSyntactic = false := by
  cases node with
  | literal token =>
      simp only [Node.fault?] at fault
      split at fault
      · cases fault
        exact ⟨token.span, by simp [Node.spans], rfl, rfl⟩
      · cases fault
  | key token => cases fault
  | item item => exact Item.fault?_span item fault
  | items items => exact Item.firstFault?_span items fault
  | object opening closing items =>
      simp only [Node.fault?] at fault
      split at fault
      · cases fault
        exact ⟨⟨opening, ['{']⟩, by simp [Node.spans], rfl, rfl⟩
      · obtain ⟨span, member, same⟩ := Item.firstFault?_span items fault
        exact ⟨span, by simp [Node.spans, member], same⟩
  | list opening closing elements =>
      simp only [Node.fault?] at fault
      split at fault
      · cases fault
        exact ⟨⟨opening, ['[']⟩, by simp [Node.spans], rfl, rfl⟩
      · obtain ⟨span, member, same⟩ := Node.firstFault?_span elements fault
        exact ⟨span, by simp [Node.spans, member], same⟩

theorem Item.fault?_span {level : Nat} {error : Error} (item : Item)
    (fault : item.fault? level = some error) :
    ∃ span ∈ item.spans, error.position = span.position ∧
      error.fault.isSyntactic = false := by
  match item with
  | ⟨keys, some value, assign, lead⟩ =>
      obtain ⟨span, member, same⟩ := Node.fault?_span value fault
      exact ⟨span, by simp [Item.spans, member], same⟩
  | ⟨keys, none, assign, lead⟩ => cases fault

theorem Node.firstFault?_span {level : Nat} {error : Error} (nodes : List Node)
    (fault : Node.firstFault? level nodes = some error) :
    ∃ span ∈ Node.allSpans nodes, error.position = span.position ∧
      error.fault.isSyntactic = false := by
  cases nodes with
  | nil => cases fault
  | cons node rest =>
      simp only [Node.firstFault?] at fault
      split at fault
      · rename_i first
        cases fault
        obtain ⟨span, member, same⟩ := Node.fault?_span node first
        exact ⟨span, by simp [Node.allSpans, member], same⟩
      · obtain ⟨span, member, same⟩ := Node.firstFault?_span rest fault
        exact ⟨span, by simp [Node.allSpans, member], same⟩

theorem Item.firstFault?_span {level : Nat} {error : Error} (items : List Item)
    (fault : Item.firstFault? level items = some error) :
    ∃ span ∈ Item.allSpans items, error.position = span.position ∧
      error.fault.isSyntactic = false := by
  cases items with
  | nil => cases fault
  | cons item rest =>
      simp only [Item.firstFault?] at fault
      split at fault
      · rename_i first
        cases fault
        obtain ⟨span, member, same⟩ := Item.fault?_span item first
        exact ⟨span, by simp [Item.allSpans, member], same⟩
      · obtain ⟨span, member, same⟩ := Item.firstFault?_span rest fault
        exact ⟨span, by simp [Item.allSpans, member], same⟩

end

theorem Stage.run_error {lexemes : List Lexeme} {error : Error} : ∀ {stage : Stage},
    stage.run lexemes = .error error →
      ∃ front lexeme back last, lexemes = front ++ lexeme :: back ∧ stage.run front = .ok last ∧
        error.position = lexeme.position := by
  induction lexemes with
  | nil =>
      intro stage failed
      cases failed
  | cons lexeme rest ih =>
      intro stage failed
      rw [Stage.run] at failed
      split at failed
      · rename_i next stepped
        obtain ⟨front, other, back, last, rfl, run, same⟩ := ih failed
        exact ⟨lexeme :: front, other, back, last, rfl, by rw [Stage.run, stepped]; exact run, same⟩
      · cases failed
        exact ⟨[], lexeme, rest, stage, rfl, rfl, rfl⟩

theorem Splits.until_lexeme {position final : Position} {text left : List Char}
    {stretches : List Stretch} (splits : Splits position text stretches final left)
    {front back : List Lexeme} {lexeme : Lexeme}
    (cut : stretches.filterMap Stretch.lexeme? = front ++ lexeme :: back) :
    ∃ before behind, Splits position text before lexeme.position behind ∧
      before.filterMap Stretch.lexeme? = front := by
  induction splits generalizing front with
  | nil => simp at cut
  | @more position kind word rest stretches final left first _ ih =>
      rw [List.filterMap_cons] at cut
      split at cut
      · rename_i silent
        obtain ⟨before, behind, splits, same⟩ := ih cut
        exact ⟨_, behind, Splits.more first splits, by rw [List.filterMap_cons_none silent, same]⟩
      · rename_i other read
        cases front with
        | nil =>
            obtain ⟨rfl, -⟩ := List.cons.inj cut
            cases kind with
            | gap => cases read
            | comment => cases read
            | word terminal =>
                cases read
                exact ⟨[], _, Splits.nil, rfl⟩
        | cons next front =>
            obtain ⟨rfl, later⟩ := List.cons.inj cut
            obtain ⟨before, behind, splits, same⟩ := ih later
            exact ⟨_, behind, Splits.more first splits, by rw [List.filterMap_cons_some read, same]⟩

/-- The words in front of a fault of the text are read without one. -/
theorem scan_items_error {text : List Char} {error : Error}
    (failed : (scan text).items = .error error) :
    ∃ stretches left stage, Splits .start text stretches error.position left ∧
      Stage.initial.run (stretches.filterMap Stretch.lexeme?) = .ok stage := by
  obtain ⟨stretches, final, left, splits, stuck⟩ := exists_splits .start text
  have scanned := splits.scan stuck
  simp only [Scan.items, scanned] at failed
  split at failed
  · rename_i run
    cases failed
    obtain ⟨front, lexeme, back, stage, cut, run, same⟩ := Stage.run_error run
    obtain ⟨before, behind, splits, rfl⟩ := splits.until_lexeme cut
    exact ⟨before, behind, stage, same ▸ splits, run⟩
  · rename_i stage run
    split at failed
    · cases failed
      exact ⟨stretches, left, stage, splits, run⟩
    · split at failed
      · cases failed
      · cases failed
        exact ⟨stretches, left, stage, splits, run⟩

theorem parseChars_error {text : List Char} {error : Error}
    (failed : parseChars text = .error error) :
    ∃ word, Occurs .start text error.position word := by
  unfold parseChars at failed
  simp only at failed
  split at failed
  · rename_i rejected
    cases failed
    obtain ⟨stretches, left, stage, splits, -⟩ := scan_items_error rejected
    exact ⟨left, splits.final_occurs⟩
  · rename_i items accepted
    split at failed
    · rename_i fault
      cases failed
      obtain ⟨span, member, same, -⟩ := Item.firstFault?_span items fault
      rw [same]
      exact ⟨_, (scan_items_tiled accepted).span_occurs span member⟩
    · cases failed

mutual

def Node.leads : Node → List Comment
  | .literal _ => []
  | .key _ => []
  | .item item => item.leads
  | .items items => Item.allLeads items
  | .object _ _ items => Item.allLeads items
  | .list _ _ elements => Node.allLeads elements

def Item.leads : Item → List Comment
  | ⟨_, some value, _, lead⟩ => lead ++ value.leads
  | ⟨_, none, _, lead⟩ => lead

def Node.allLeads : List Node → List Comment
  | [] => []
  | node :: rest => node.leads ++ Node.allLeads rest

def Item.allLeads : List Item → List Comment
  | [] => []
  | item :: rest => item.leads ++ Item.allLeads rest

end

theorem runAbove_subset {comments : List Comment} : ∀ (fuel : Nat) (line : Int)
    (found : List Comment), runAbove comments fuel line found ⊆ comments ++ found := by
  intro fuel line found
  fun_induction runAbove comments fuel line found with
  | case1 line found => exact List.subset_append_right comments found
  | case2 fuel line found missing => exact List.subset_append_right comments found
  | case3 fuel line found comment ending ih =>
      intro other member
      have chosen : comment ∈ comments := List.mem_of_find?_eq_some ending
      have among := ih member
      simp only [List.mem_append, List.mem_cons] at among ⊢
      rcases among with first | rfl | last
      · exact Or.inl first
      · exact Or.inl chosen
      · exact Or.inr last

theorem leadOf_subset (comments : List Comment) (item : Item) :
    leadOf comments item ⊆ comments ++ item.lead := by
  unfold leadOf
  split
  · exact List.subset_append_right comments item.lead
  · intro comment member
    have among := runAbove_subset _ _ _ member
    rw [List.append_nil] at among
    exact List.mem_append_left _ among

section

variable (comments : List Comment)

mutual

theorem Node.leads_withLead (node : Node) :
    (node.withLead comments).leads ⊆ comments ++ node.leads := by
  cases node with
  | literal token => exact List.nil_subset _
  | key token => exact List.nil_subset _
  | item item => exact Item.leads_withLead item
  | items items => exact Item.allLeads_withLead items
  | object opening closing items => exact Item.allLeads_withLead items
  | list opening closing elements => exact Node.allLeads_withLead elements

theorem Item.leads_withLead (item : Item) :
    (item.withLead comments).leads ⊆ comments ++ item.leads := by
  match item with
  | ⟨keys, some value, assign, lead⟩ =>
      have inner := Node.leads_withLead value
      have outer := leadOf_subset comments ⟨keys, some value, assign, lead⟩
      intro comment member
      simp only [Item.withLead, Item.leads, List.mem_append] at member ⊢
      rcases member with member | member
      · have among := List.mem_append.mp (outer member)
        exact among.imp_right Or.inl
      · have among := List.mem_append.mp (inner member)
        exact among.imp_right Or.inr
  | ⟨keys, none, assign, lead⟩ => exact leadOf_subset comments ⟨keys, none, assign, lead⟩

theorem Node.allLeads_withLead (nodes : List Node) :
    Node.allLeads (Node.allWithLead comments nodes) ⊆ comments ++ Node.allLeads nodes := by
  cases nodes with
  | nil => exact List.nil_subset _
  | cons node rest =>
      have first := Node.leads_withLead node
      have others := Node.allLeads_withLead rest
      intro comment member
      simp only [Node.allWithLead, Node.allLeads, List.mem_append] at member ⊢
      rcases member with member | member
      · exact (List.mem_append.mp (first member)).imp_right Or.inl
      · exact (List.mem_append.mp (others member)).imp_right Or.inr

theorem Item.allLeads_withLead (items : List Item) :
    Item.allLeads (Item.allWithLead comments items) ⊆ comments ++ Item.allLeads items := by
  cases items with
  | nil => exact List.nil_subset _
  | cons item rest =>
      have first := Item.leads_withLead item
      have others := Item.allLeads_withLead rest
      intro comment member
      simp only [Item.allWithLead, Item.allLeads, List.mem_append] at member ⊢
      rcases member with member | member
      · exact (List.mem_append.mp (first member)).imp_right Or.inl
      · exact (List.mem_append.mp (others member)).imp_right Or.inr

end

end

mutual

theorem Node.leads_bare (node : Node) : node.bare.leads = [] := by
  cases node with
  | literal token => rfl
  | key token => rfl
  | item item => exact Item.leads_bare item
  | items items => exact Item.allLeads_bare items
  | object opening closing items => exact Item.allLeads_bare items
  | list opening closing elements => exact Node.allLeads_bare elements

theorem Item.leads_bare (item : Item) : item.bare.leads = [] := by
  match item with
  | ⟨keys, some value, assign, lead⟩ => exact Node.leads_bare value
  | ⟨keys, none, assign, lead⟩ => rfl

theorem Node.allLeads_bare (nodes : List Node) : Node.allLeads (Node.allBare nodes) = [] := by
  cases nodes with
  | nil => rfl
  | cons node rest =>
      rw [Node.allBare, Node.allLeads, Node.leads_bare node, Node.allLeads_bare rest]
      rfl

theorem Item.allLeads_bare (items : List Item) : Item.allLeads (Item.allBare items) = [] := by
  cases items with
  | nil => rfl
  | cons item rest =>
      rw [Item.allBare, Item.allLeads, Item.leads_bare item, Item.allLeads_bare rest]
      rfl

end

theorem scanFrom_ownLine (skip : Nat) (fresh : Bool) (done : Scan) (text : List Char)
    (inside : done.ownLine.Sublist done.comments) :
    (scanFrom skip fresh done text).ownLine.Sublist (scanFrom skip fresh done text).comments := by
  fun_induction scanFrom skip fresh done text with
  | case1 skip fresh done => exact inside.reverse
  | case2 fresh done c rest behind skip ih => exact ih inside
  | case3 fresh done c rest behind stuck =>
      simp only [stuck]
      exact inside.reverse
  | case4 fresh done c rest behind piece found ih =>
      simp only [found]
      exact ih inside
  | case5 fresh done c rest behind piece comment own found ih =>
      simp only [found]
      apply ih
      cases fresh with
      | true => exact inside.cons_cons comment
      | false => exact inside.cons comment
  | case6 fresh done c rest behind terminal piece lexeme found ih =>
      simp only [found]
      exact ih inside

theorem scan_ownLine (text : List Char) : (scan text).ownLine.Sublist (scan text).comments :=
  scanFrom_ownLine 0 true _ text (List.Sublist.refl [])

theorem parseChars_leads {text : List Char} {file : File} (read : parseChars text = .ok file) :
    Item.allLeads file.items ⊆ file.comments := by
  obtain ⟨items, accepted, faultless, rfl⟩ := parseChars_eq_ok read
  obtain ⟨stretches, final, splits, derives⟩ := scan_items_eq_ok_iff.mp accepted
  have bare : Item.allBare items = items := derives.bare
  have none : Item.allLeads items = [] := by
    rw [← bare]
    exact Item.allLeads_bare items
  intro comment member
  have among := Item.allLeads_withLead _ items member
  rw [none, List.append_nil, List.mem_reverse] at among
  exact (scan_ownLine text).subset among

/-- Every place in what is read from a text denotes one index of it: a key, a literal, a sign or a
comment stands there. So does the place of an error. In a text of single bytes offsets are
indices. -/
theorem parse_positions (text : String) :
    (∀ file, parse text = .ok file →
      (∀ span ∈ Item.allSpans file.items, ∃ index,
        span.position.Denotes text.toList index ∧ span.text <+: text.toList.drop index) ∧
      ∀ comment ∈ file.comments ++ Item.allLeads file.items, ∃ index,
        comment.position.Denotes text.toList index ∧
          comment.text.toList <+: text.toList.drop index) ∧
    (∀ error, parse text = .error error →
      ∃ index, error.position.Denotes text.toList index) ∧
    ((∀ c ∈ text.toList, c.toNat < 128) → ∀ (position : Position) (index : Nat),
      position.Denotes text.toList index → position.offset = index) := by
  refine ⟨?_, ?_, ?_⟩
  · intro file read
    have tiled := parseChars_tiled read
    constructor
    · intro span member
      exact (tiled.span_occurs span member).denotes
    · intro comment member
      have among : comment ∈ file.comments := by
        rcases List.mem_append.mp member with own | lead
        · exact own
        · exact parseChars_leads read lead
      exact (tiled.comment_occurs comment among).denotes
  · intro error failed
    obtain ⟨word, occurs⟩ := parseChars_error failed
    obtain ⟨index, denotes, _⟩ := occurs.denotes
    exact ⟨index, denotes⟩
  · intro ascii position index denotes
    exact denotes.ascii ascii

theorem parse_positions_bytes :
    (∃ file, parse "# é\na = \"ü\"\n" = .ok file ∧
      ∀ span ∈ Item.allSpans file.items, ∃ index,
        span.position.Denotes "# é\na = \"ü\"\n".toList index ∧
          span.text <+: "# é\na = \"ü\"\n".toList.drop index) ∧
    (∃ error, parse "# é\n@\n" = .error error ∧
      ∃ index, error.position.Denotes "# é\n@\n".toList index) ∧
    ∀ (position : Position) (index : Nat),
      position.Denotes "a = 1\n".toList index → position.offset = index := by
  refine ⟨?_, ?_, ?_⟩
  · have accepted : (parse "# é\na = \"ü\"\n").toOption.isSome = true := by decide +kernel
    cases read : parse "# é\na = \"ü\"\n" with
    | ok file => exact ⟨file, rfl, ((parse_positions _).1 file read).1⟩
    | error error =>
        rw [read] at accepted
        cases accepted
  · have rejected : (parse "# é\n@\n").toOption.isSome = false := by decide +kernel
    cases read : parse "# é\n@\n" with
    | ok file =>
        rw [read] at rejected
        cases rejected
    | error error => exact ⟨error, rfl, (parse_positions _).2.1 error read⟩
  · exact (parse_positions "a = 1\n").2.2 (by simp)

end ConfigIndex.Document
