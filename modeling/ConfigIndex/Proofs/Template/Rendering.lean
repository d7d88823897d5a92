import ConfigIndex.Proofs.Template.Limits
import ConfigIndex.Proofs.Text.Digits

/-!
Writing expression trees, with parentheses only around operands that bind more loosely than their
place asks. Reading what is written gives the tree back, up to its points.
-/

namespace ConfigIndex.Template

/-- The blanks of a written expression: some around each operator between operands and each mark of
a conditional, and perhaps some behind signs and commas. -/
structure Spacing where
  around : List Char
  behind : List Char
  apart : around ≠ []
  blank : ∀ c ∈ around ++ behind, isGap c = true

def Spacing.single : Spacing :=
  ⟨[' '], [], by decide, List.forall_mem_singleton.mpr (by decide)⟩

namespace Node

def rank : Node → Nat
  | conditional _ _ _ _ => 0
  | arithmetic operator [_, _] _ => operator.level
  | arithmetic _ _ _ => 6
  | _ => 7

def enclosed (node : Node) (asked : Nat) (text : List Char) : List Char :=
  if node.rank < asked then '(' :: text ++ [')'] else text

mutual

/-- The text of an expression tree. Trees that no expression without strings and fractions has are
not written. -/
def rendered (spacing : Spacing) : Node → List Char
  | literal (.int value) _ => Nat.toDigits 10 value
  | literal (.bool value) _ => if value then "true".toList else "false".toList
  | literal _ _ => []
  | access name _ => name.toList
  | call function arguments _ =>
    function.toList ++ '(' :: renderedAll spacing arguments ++ [')']
  | index target key _ => target.rendered spacing ++ '[' :: key.rendered spacing ++ [']']
  | arithmetic operator [operand] _ =>
    operator.symbol.toList ++ spacing.behind ++ operand.enclosed 6 (operand.rendered spacing)
  | arithmetic operator [left, right] _ =>
    left.enclosed operator.reach (left.rendered spacing) ++ spacing.around ++
      operator.symbol.toList ++ spacing.around ++
      right.enclosed (operator.level + 1) (right.rendered spacing)
  | arithmetic _ _ _ => []
  | conditional condition yes no _ =>
    condition.enclosed 1 (condition.rendered spacing) ++ spacing.around ++ '?' :: spacing.around ++
      yes.rendered spacing ++ spacing.around ++ ':' :: spacing.around ++ no.rendered spacing
  | output _ _ => []

def renderedAll (spacing : Spacing) : List Node → List Char
  | [] => []
  | [node] => node.rendered spacing
  | node :: rest => node.rendered spacing ++ ',' :: spacing.behind ++ renderedAll spacing rest

end

mutual

def depth : Node → Nat
  | literal _ _ => 1
  | access _ _ => 1
  | call _ arguments _ => depthOfAll arguments + 1
  | index target key _ => max target.depth key.depth + 1
  | arithmetic _ operands _ => depthOfAll operands + 1
  | conditional condition yes no _ => max condition.depth (max yes.depth no.depth) + 1
  | output parts _ => depthOfAll parts + 1

def depthOfAll : List Node → Nat
  | [] => 0
  | node :: rest => max node.depth (depthOfAll rest)

end

mutual

def unplaced : Node → Node
  | literal value _ => literal value {}
  | access name _ => access name {}
  | call function arguments _ => call function (unplacedAll arguments) {}
  | index target key _ => index target.unplaced key.unplaced {}
  | arithmetic operator operands _ => arithmetic operator (unplacedAll operands) {}
  | conditional condition yes no _ => conditional condition.unplaced yes.unplaced no.unplaced {}
  | output parts _ => output (unplacedAll parts) {}

def unplacedAll : List Node → List Node
  | [] => []
  | node :: rest => node.unplaced :: unplacedAll rest

end

end Node

def IsName (name : String) : Prop := namePattern.first? name.toList = some name.toList

instance (name : String) : Decidable (IsName name) := inferInstanceAs (Decidable (_ = _))

def IsVariable (name : String) : Prop := IsName name ∧ name ≠ "true" ∧ name ≠ "false"

instance (name : String) : Decidable (IsVariable name) := inferInstanceAs (Decidable (_ ∧ _))

/-- The trees of expressions without strings and fractions. -/
inductive Node.Formula : Node → Prop
  | int {value point} : (Nat.toDigits 10 value).length ≤ maxDigits →
      Formula (.literal (.int value) point)
  | bool {value point} : Formula (.literal (.bool value) point)
  | access {name point} : IsVariable name → Formula (.access name point)
  | call {function arguments point} : IsName function →
      (∀ argument ∈ arguments, Formula argument) → Formula (.call function arguments point)
  | index {name key place point} : IsVariable name → Formula key →
      Formula (.index (.access name place) key point)
  | unary {operator operand point} : operator = .not ∨ operator = .subtract → Formula operand →
      Formula (.arithmetic operator [operand] point)
  | binary {operator left right point} : operator ≠ .not → Formula left → Formula right →
      Formula (.arithmetic operator [left, right] point)
  | conditional {condition yes no point} : Formula condition → Formula yes → Formula no →
      Formula (.conditional condition yes no point)

def Parted (rest : List Char) : Prop :=
  ∀ c more, rest = c :: more → isNameChar c = false ∧ c ≠ '.' ∧ Text.isDecimal c = false

theorem parted_gap {c : Char} (gap : isGap c = true) (more : List Char) : Parted (c :: more) := by
  rintro d others same
  cases same
  simp only [isGap, Bool.or_eq_true, decide_eq_true_eq] at gap
  rcases gap with ((rfl | rfl) | rfl) | rfl <;> decide

theorem parted_mark {c : Char} (mark : c ∈ [')', ']', ',', '}']) (more : List Char) :
    Parted (c :: more) := by
  rintro d others same
  cases same
  simp only [List.mem_cons, List.not_mem_nil, or_false] at mark
  rcases mark with rfl | rfl | rfl | rfl <;> decide

theorem Spacing.parted (spacing : Spacing) (rest : List Char) :
    Parted (spacing.around ++ rest) := by
  obtain ⟨c, more, written⟩ := List.exists_cons_of_ne_nil spacing.apart
  rw [written]
  exact parted_gap (spacing.blank c (by simp [written])) (more ++ rest)

/-- A name that is read to its end is read to its end wherever no name goes on. -/
theorem readName_parted {inWord : Bool} {seen text : List Char}
    (whole : readName inWord seen text = seen.reverse ++ text) {rest : List Char}
    (parted : Parted rest) : readName inWord seen (text ++ rest) = seen.reverse ++ text := by
  fun_induction readName inWord seen text with
  | case1 inWord seen =>
      cases rest with
      | nil => simp [readName]
      | cons c more =>
          obtain ⟨other, point, _⟩ := parted c more rfl
          rw [List.nil_append, readName.eq_def]
          simp [other, point]
  | case2 inWord seen c rest named ih =>
      rw [List.cons_append, readName.eq_def]
      simp only [named, if_true]
      simpa using ih (by simpa using whole)
  | case3 inWord seen rest apart ih =>
      rw [List.cons_append, List.cons_append, readName.eq_def]
      simp only [apart, if_true]
      simpa using ih (by simpa using whole)
  | case4 inWord seen c rest star named apart ih =>
      rw [List.cons_append, List.cons_append, readName.eq_def]
      simp only [apart, named, if_true]
      simpa using ih (by simpa using whole)
  | case5 | case6 | case7 => simp at whole

theorem IsName.first? {name : String} (named : IsName name) {rest : List Char}
    (parted : Parted rest) : namePattern.first? (name.toList ++ rest) = some name.toList := by
  unfold IsName at named
  rw [namePattern_first?] at named ⊢
  cases written : name.toList with
  | nil => simp [written] at named
  | cons c word =>
      rw [written] at named
      simp only [List.cons_append] at named ⊢
      split at named
      · rename_i start
        rw [if_pos start, readName_parted (by simpa using named) parted]
        rfl
      · cases named

theorem digits_first? (value : Nat) {rest : List Char} (parted : Parted rest) :
    Text.Pattern.numeral.first? (Nat.toDigits 10 value ++ rest) = some (Nat.toDigits 10 value) := by
  have letters : isNameChar 'e' = true ∧ isNameChar 'E' = true := by decide
  have digits : (Nat.toDigits 10 value ++ rest).takeWhile Text.isDecimal =
      Nat.toDigits 10 value := by
    rw [List.takeWhile_append_of_pos fun c member =>
      Text.isDecimal_of_isDigit (Text.isDigit_of_mem_digits member)]
    cases rest with
    | nil => simp
    | cons c more => simp [(parted c more rfl).2.2]
  have fraction : Text.fraction rest = [] := by
    cases rest with
    | nil => rfl
    | cons c more =>
        have point := (parted c more rfl).2.1
        unfold Text.fraction
        split
        · simp_all
        · rfl
  have exponent : Text.exponent rest = [] := by
    cases rest with
    | nil => rfl
    | cons c more =>
        have other := (parted c more rfl).1
        have mark : (c = 'e' || c = 'E') = false := by
          simp only [Bool.or_eq_false_iff, decide_eq_false_iff_not]
          constructor
          · rintro rfl
            simp [letters] at other
          · rintro rfl
            simp [letters] at other
        rw [Text.Pattern.exponent_cons, mark]
        rfl
  rw [Text.Pattern.numeral_decides.first?, Text.numeral?]
  simp [digits, fraction, exponent, Nat.toDigits_ne_nil]

section

variable (point : Point) (rest : List Char) {gap : List Char}

theorem mark_token (terminal : Terminal) {mark : List Char}
    (written : terminal.pattern = .literally mark) (blank : ∀ c ∈ gap, isGap c = true) :
    ∃ lexeme behind, Token terminal ⟨point, gap ++ (mark ++ rest)⟩ lexeme ⟨behind, rest⟩ := by
  exact ⟨_, _, Token.mk blank (mark_word terminal written _ rest)⟩

theorem close_token (terminal : Terminal) {mark : List Char}
    (written : terminal.pattern = .literally mark) :
    ∃ lexeme behind, Token terminal ⟨point, mark ++ rest⟩ lexeme ⟨behind, rest⟩ := by
  have nothing : ∀ c ∈ ([] : List Char), isGap c = true := by simp
  exact mark_token point rest terminal written nothing

theorem name_token {name : String} (named : IsName name) (parted : Parted rest)
    (blank : ∀ c ∈ gap, isGap c = true) :
    ∃ lexeme behind, Token .ident ⟨point, gap ++ (name.toList ++ rest)⟩ lexeme ⟨behind, rest⟩ ∧
      lexeme.text = name :=
  ⟨_, _, Token.mk blank (Word.mk (named.first? parted)), String.ofList_toList⟩

theorem digits_token (value : Nat) (parted : Parted rest) (blank : ∀ c ∈ gap, isGap c = true) :
    ∃ lexeme behind, Token .number ⟨point, gap ++ (Nat.toDigits 10 value ++ rest)⟩ lexeme
      ⟨behind, rest⟩ ∧ lexeme.text.toList = Nat.toDigits 10 value :=
  ⟨_, _, Token.mk blank (Word.mk (digits_first? value parted)), String.toList_ofList⟩

end

theorem binary_terminal {operator : Operator} (two : operator ≠ .not) :
    ∃ terminal : Terminal, terminal.binary? = some operator ∧
      terminal.pattern = .literally operator.symbol.toList := by
  cases operator with
  | add => exact ⟨.plus, rfl, rfl⟩
  | subtract => exact ⟨.minus, rfl, rfl⟩
  | multiply => exact ⟨.star, rfl, rfl⟩
  | divide => exact ⟨.slash, rfl, rfl⟩
  | remainder => exact ⟨.percent, rfl, rfl⟩
  | equal => exact ⟨.equal, rfl, rfl⟩
  | notEqual => exact ⟨.notEqual, rfl, rfl⟩
  | less => exact ⟨.less, rfl, rfl⟩
  | lessOrEqual => exact ⟨.lessOrEqual, rfl, rfl⟩
  | greater => exact ⟨.greater, rfl, rfl⟩
  | greaterOrEqual => exact ⟨.greaterOrEqual, rfl, rfl⟩
  | and => exact ⟨.and, rfl, rfl⟩
  | or => exact ⟨.or, rfl, rfl⟩
  | not => exact absurd rfl two

theorem unary_terminal {operator : Operator} (one : operator = .not ∨ operator = .subtract) :
    ∃ terminal : Terminal, terminal.unary? = some operator ∧
      terminal.pattern = .literally operator.symbol.toList := by
  rcases one with rfl | rfl
  · exact ⟨.bang, rfl, rfl⟩
  · exact ⟨.minus, rfl, rfl⟩

/-- An expression has the tree, up to its points, and keeps to the limits if the tree is not too
deep. -/
structure Expr.Shows (expr : Expr) (tree : Node) : Prop where
  same : expr.tree.unplaced = tree.unplaced
  low : expr.height ≤ tree.depth
  short : ∀ digits ∈ expr.integers, digits.length ≤ maxDigits

/-- Wherever a text stands, behind a gap or not, it is an expression of a rank that has the tree. -/
def Node.Renders (tree : Node) (rank : Nat) (text : List Char) : Prop :=
  ∀ gap, (∀ c ∈ gap, isGap c = true) → ∀ rest, Parted rest → ∀ point, ∃ operand behind,
    Derives ⟨point, gap ++ (text ++ rest)⟩ (.expression rank operand) ⟨behind, rest⟩ ∧
      operand.expr.Shows tree

theorem Node.rank_le (tree : Node) : tree.rank ≤ 7 := by
  have levels : ∀ operator : Operator, operator.level ≤ 7 := fun operator => by
    cases operator <;> decide
  unfold Node.rank
  split
  · decide
  · exact levels _
  · decide
  · decide

theorem Node.Renders.lower {tree : Node} {rank lower : Nat} {text : List Char}
    (renders : tree.Renders rank text) (below : lower ≤ rank) (bound : rank ≤ 7) :
    tree.Renders lower text := by
  intro gap blank rest parted point
  obtain ⟨operand, behind, derives, shows⟩ := renders gap blank rest parted point
  exact ⟨operand, behind, derives.lower below bound, shows⟩

theorem Node.Renders.enclosed {tree : Node} {text : List Char}
    (renders : tree.Renders tree.rank text) {asked : Nat} (bound : asked ≤ 7) :
    tree.Renders asked (tree.enclosed asked text) := by
  unfold Node.enclosed
  split
  · intro gap blank rest parted point
    obtain ⟨opening, inside, opened⟩ := mark_token point (text ++ ')' :: rest)
      .openParen rfl blank
    obtain ⟨operand, last, derives, shows⟩ := renders [] (by simp) (')' :: rest)
      (parted_mark (by simp) rest) inside
    obtain ⟨closing, behind, closed⟩ := close_token last rest .closeParen rfl
    refine ⟨⟨opening.point, operand.expr⟩, behind, ?_, shows⟩
    have inner := derives.lower (Nat.zero_le _) tree.rank_le
    have group := (Derives.group opened inner closed).lower bound (Nat.le_refl 7)
    simpa using group
  · rename_i tight
    exact renders.lower (Nat.le_of_not_lt tight) tree.rank_le

section

variable {spacing : Spacing}

theorem Node.renders_int {value : Nat} {point : Point}
    (short : (Nat.toDigits 10 value).length ≤ maxDigits) :
    (Node.literal (.int value) point).Renders 7 (Nat.toDigits 10 value) := by
  intro gap blank rest parted start
  obtain ⟨lexeme, behind, token, text⟩ := digits_token start rest value parted blank
  have plain : isFloatText (Nat.toDigits 10 value) = false := by
    apply List.any_eq_false.mpr
    intro c member
    have digit := Text.isDigit_of_mem_digits member
    have letters : Char.isDigit '.' = false ∧ Char.isDigit 'e' = false ∧
        Char.isDigit 'E' = false := by decide
    simp only [Bool.or_eq_true, decide_eq_true_eq]
    rintro ((rfl | rfl) | rfl) <;> simp [letters] at digit
  refine ⟨_, behind, Derives.number token, ?_, ?_, ?_⟩
  · simp [Expr.tree, numberTree, text, plain, Node.unplaced, Text.decimalValue_digits]
  · exact Nat.le_refl 1
  · intro digits member
    simp only [Expr.integers, text, plain, Bool.false_eq_true, if_false,
      List.mem_singleton] at member
    rw [member]
    exact short

/-- A name that stands by itself is read as its tree. -/
theorem Node.renders_name {name : String} {tree : Node} (named : IsName name)
    (same : ∀ point, (nameNode name point).unplaced = tree.unplaced) (deep : 1 ≤ tree.depth) :
    tree.Renders 7 name.toList := by
  intro gap blank rest parted start
  obtain ⟨lexeme, behind, token, text⟩ := name_token start rest named parted blank
  refine ⟨_, behind, Derives.name token, ?_, deep, ?_⟩
  · rw [Expr.tree, text, same]
  · intro digits member
    cases member

theorem nameNode_variable {name : String} (known : IsVariable name) (point : Point) :
    nameNode name point = .access name point := by
  simp [nameNode, known.2.1, known.2.2]

theorem Node.renders_index {name : String} {key : Node} {text : List Char} {place point : Point}
    (known : IsVariable name) (renders : key.Renders key.rank text) :
    (Node.index (.access name place) key point).Renders 7
      (name.toList ++ '[' :: text ++ [']']) := by
  intro gap blank rest parted start
  obtain ⟨lexeme, first, named, word⟩ := name_token start
    ('[' :: (text ++ ']' :: rest)) known.1 (by
      rintro c more same
      cases same
      decide) blank
  obtain ⟨opening, second, opened⟩ := close_token first (text ++ ']' :: rest)
    .openBracket rfl
  obtain ⟨operand, last, derives, shows⟩ := renders [] (by simp) (']' :: rest)
    (parted_mark (by simp) rest) second
  obtain ⟨closing, behind, closed⟩ := close_token last rest .closeBracket rfl
  have inner := derives.lower (Nat.zero_le _) key.rank_le
  refine ⟨⟨lexeme.point, .index lexeme.text lexeme.point operand.expr⟩, behind,
    by simpa using Derives.index named opened inner closed, ?_, ?_, shows.short⟩
  · simp [Expr.tree, Node.unplaced, word, shows.same]
  · have low := shows.low
    simp only [Expr.height, Node.depth]
    omega

theorem Node.renders_unary {operator : Operator} {operand : Node} {text : List Char} {point : Point}
    (one : operator = .not ∨ operator = .subtract) (renders : operand.Renders 6 text) :
    (Node.arithmetic operator [operand] point).Renders 6
      (operator.symbol.toList ++ spacing.behind ++ text) := by
  intro gap blank rest parted start
  obtain ⟨terminal, sign, pattern⟩ := unary_terminal one
  obtain ⟨mark, first, token⟩ := mark_token start (spacing.behind ++ (text ++ rest))
    terminal pattern blank
  obtain ⟨inner, behind, derives, shows⟩ := renders spacing.behind
    (fun c member => spacing.blank c (by simp [member])) rest parted first
  refine ⟨⟨mark.point, .unary operator mark.point inner.expr⟩, behind,
    by simpa using Derives.unary sign token derives, ?_, ?_, shows.short⟩
  · simp [Expr.tree, Node.unplaced, Node.unplacedAll, shows.same]
  · have low := shows.low
    simp only [Expr.height, Node.depth, Node.depthOfAll]
    omega

theorem Node.renders_binary {operator : Operator} {left right : Node} {first second : List Char}
    {point : Point} (two : operator ≠ .not) (before : left.Renders operator.reach first)
    (behind : right.Renders (operator.level + 1) second) :
    (Node.arithmetic operator [left, right] point).Renders operator.level
      (first ++ spacing.around ++ operator.symbol.toList ++ spacing.around ++ second) := by
  intro gap blank rest parted start
  have around : ∀ c ∈ spacing.around, isGap c = true :=
    fun c member => spacing.blank c (by simp [member])
  obtain ⟨terminal, binary, pattern⟩ := binary_terminal two
  obtain ⟨one, middle, derives, shows⟩ := before gap blank
    (spacing.around ++ (operator.symbol.toList ++ (spacing.around ++ (second ++ rest))))
    (spacing.parted _) start
  obtain ⟨mark, next, token⟩ := mark_token middle (spacing.around ++ (second ++ rest))
    terminal pattern around
  obtain ⟨other, stop, follows, reads⟩ := behind spacing.around around rest parted next
  refine ⟨_, stop, by simpa using Derives.operation binary derives token follows, ?_, ?_, ?_⟩
  · simp [Expr.tree, Node.unplaced, Node.unplacedAll, shows.same, reads.same]
  · have low := shows.low
    have high := reads.low
    simp only [Expr.height, Node.depth, Node.depthOfAll]
    omega
  · intro digits member
    rcases List.mem_append.mp member with inside | inside
    · exact shows.short digits inside
    · exact reads.short digits inside

theorem Node.renders_conditional {condition yes no : Node} {first second third : List Char}
    {point : Point} (before : condition.Renders 1 first) (between : yes.Renders yes.rank second)
    (behind : no.Renders no.rank third) :
    (Node.conditional condition yes no point).Renders 0
      (first ++ spacing.around ++ '?' :: spacing.around ++ second ++ spacing.around ++
        ':' :: spacing.around ++ third) := by
  intro gap blank rest parted start
  have around : ∀ c ∈ spacing.around, isGap c = true :=
    fun c member => spacing.blank c (by simp [member])
  obtain ⟨one, place, derives, shows⟩ := before gap blank
    (spacing.around ++ '?' :: (spacing.around ++ (second ++
      (spacing.around ++ ':' :: (spacing.around ++ (third ++ rest)))))) (spacing.parted _) start
  obtain ⟨question, asked, token⟩ := mark_token place (spacing.around ++ (second ++
      (spacing.around ++ ':' :: (spacing.around ++ (third ++ rest))))) .question rfl around
  obtain ⟨two, split, follows, reads⟩ := between spacing.around around
    (spacing.around ++ ':' :: (spacing.around ++ (third ++ rest))) (spacing.parted _) asked
  obtain ⟨colon, parts, mark⟩ := mark_token split (spacing.around ++ (third ++ rest))
    .colon rfl around
  obtain ⟨three, stop, ends, gives⟩ := behind spacing.around around rest parted parts
  have chosen := follows.lower (Nat.zero_le _) yes.rank_le
  have other := ends.lower (Nat.zero_le _) no.rank_le
  refine ⟨_, stop, by simpa using Derives.conditional derives token chosen mark other, ?_, ?_, ?_⟩
  · simp [Expr.tree, Node.unplaced, shows.same, reads.same, gives.same]
  · have low := shows.low
    have middle := reads.low
    have high := gives.low
    simp only [Expr.height, Node.depth]
    omega
  · intro digits member
    rcases List.mem_append.mp member with inside | inside
    · rcases List.mem_append.mp inside with inside | inside
      · exact shows.short digits inside
      · exact reads.short digits inside
    · exact gives.short digits inside

theorem Node.renders_arguments (first : Node) (others : List Node)
    (renders : ∀ node ∈ first :: others, node.Renders node.rank (node.rendered spacing))
    (rest : List Char) : ∀ gap, (∀ c ∈ gap, isGap c = true) → ∀ point, ∃ exprs behind,
      Derives ⟨point, gap ++ (renderedAll spacing (first :: others) ++ ')' :: rest)⟩
        (.arguments exprs) ⟨behind, ')' :: rest⟩ ∧
      Node.unplacedAll (Expr.trees exprs) = Node.unplacedAll (first :: others) ∧
      Expr.heights exprs ≤ Node.depthOfAll (first :: others) ∧
      ∀ digits ∈ Expr.allIntegers exprs, digits.length ≤ maxDigits := by
  induction others generalizing first with
  | nil =>
      intro gap blank point
      obtain ⟨operand, behind, derives, shows⟩ := renders first (by simp) gap blank (')' :: rest)
        (parted_mark (by simp) rest) point
      have inner := derives.lower (Nat.zero_le _) first.rank_le
      refine ⟨[operand.expr], behind, Derives.lastArgument inner, ?_, ?_, ?_⟩
      · simp [Expr.trees, unplacedAll, shows.same]
      · simpa [Expr.heights, depthOfAll] using shows.low
      · simpa [Expr.allIntegers] using shows.short
  | cons second others ih =>
      intro gap blank point
      have tail : renderedAll spacing (first :: second :: others) = first.rendered spacing ++
          ',' :: spacing.behind ++ renderedAll spacing (second :: others) := rfl
      obtain ⟨operand, place, derives, shows⟩ := renders first (by simp) gap blank
        (',' :: (spacing.behind ++ (renderedAll spacing (second :: others) ++ ')' :: rest)))
        (parted_mark (by simp) _) point
      obtain ⟨comma, next, token⟩ := close_token place
        (spacing.behind ++ (renderedAll spacing (second :: others) ++ ')' :: rest)) .comma rfl
      obtain ⟨exprs, behind, follows, same, low, short⟩ := ih second
        (fun node member => renders node (List.mem_cons_of_mem _ member)) spacing.behind
        (fun c member => spacing.blank c (by simp [member])) next
      have inner := derives.lower (Nat.zero_le _) first.rank_le
      refine ⟨operand.expr :: exprs, behind, ?_, ?_, ?_, ?_⟩
      · rw [tail]
        simpa using Derives.moreArguments inner token follows
      · simp only [Expr.trees, unplacedAll, shows.same]
        rw [same, unplacedAll]
      · have high := shows.low
        simp only [Expr.heights, depthOfAll] at low ⊢
        omega
      · intro digits member
        rcases List.mem_append.mp member with inside | inside
        · exact shows.short digits inside
        · exact short digits inside

theorem Node.renders_call {function : String} {arguments : List Node} {point : Point}
    (named : IsName function)
    (renders : ∀ node ∈ arguments, node.Renders node.rank (node.rendered spacing)) :
    (Node.call function arguments point).Renders 7
      (function.toList ++ '(' :: renderedAll spacing arguments ++ [')']) := by
  intro gap blank rest parted start
  obtain ⟨lexeme, first, token, word⟩ := name_token start
    ('(' :: (renderedAll spacing arguments ++ ')' :: rest)) named (by
      rintro c more same
      cases same
      decide) blank
  obtain ⟨opening, second, opened⟩ := close_token first
    (renderedAll spacing arguments ++ ')' :: rest) .openParen rfl
  cases arguments with
  | nil =>
      obtain ⟨closing, behind, closed⟩ := close_token second rest .closeParen rfl
      refine ⟨⟨lexeme.point, .call lexeme.text lexeme.point []⟩, behind,
        by simpa [renderedAll] using Derives.emptyCall token opened closed, ?_, ?_, ?_⟩
      · simp [Expr.tree, Expr.trees, Node.unplaced, word]
      · exact Nat.le_refl 1
      · intro digits member
        cases member
  | cons argument others =>
      obtain ⟨exprs, last, derives, same, low, short⟩ :=
        Node.renders_arguments argument others renders rest [] (by simp) second
      obtain ⟨closing, behind, closed⟩ := close_token last rest .closeParen rfl
      refine ⟨⟨lexeme.point, .call lexeme.text lexeme.point exprs⟩, behind,
        by simpa using Derives.call token opened derives closed, ?_, ?_, short⟩
      · simp only [Expr.tree, Node.unplaced, word, same]
      · exact Nat.succ_le_succ low

end

theorem Node.Formula.renders (spacing : Spacing) {tree : Node} (formula : tree.Formula) :
    tree.Renders tree.rank (tree.rendered spacing) := by
  induction formula with
  | int short => exact Node.renders_int short
  | @bool value point =>
      cases value with
      | true => exact Node.renders_name (by decide) (fun _ => rfl) (Nat.le_refl 1)
      | false => exact Node.renders_name (by decide) (fun _ => rfl) (Nat.le_refl 1)
  | access known =>
      exact Node.renders_name known.1 (fun point => by rw [nameNode_variable known]; rfl)
        (Nat.le_refl 1)
  | call named _ ih => exact Node.renders_call named ih
  | index known _ ih => exact Node.renders_index known ih
  | unary one _ ih => exact Node.renders_unary one (ih.enclosed (by decide))
  | @binary operator _ _ _ two _ _ before behind =>
      have levels : operator.reach ≤ 7 ∧ operator.level + 1 ≤ 7 := by
        cases operator <;> decide
      exact Node.renders_binary two (before.enclosed levels.1) (behind.enclosed levels.2)
  | conditional _ _ _ before between behind =>
      exact Node.renders_conditional (before.enclosed (by decide)) between behind

/-- An expression tree that is written between the braces of an interpolation is read as the same
tree, up to its points. -/
theorem parse_rendered (spacing : Spacing) (tree : Node) (formula : tree.Formula)
    (shallow : tree.depth ≤ maxLevels) :
    ∃ node, parse (String.ofList ('$' :: '{' :: tree.rendered spacing ++ ['}'])) =
      .ok (.output [node] .start) ∧ node.unplaced = tree.unplaced := by
  have opening : Word .opening ⟨.start, ['$', '{'] ++ (tree.rendered spacing ++ ['}'])⟩ _ _ :=
    Word.mk (Text.Pattern.literally_first?_iff.mpr ⟨rfl, _, rfl⟩)
  obtain ⟨operand, behind, derives, shows⟩ := formula.renders spacing [] (by simp)
    ['}'] (parted_mark (by simp) []) (Point.start.advanceBy ['$', '{'])
  obtain ⟨closing, stop, closed⟩ := close_token behind [] .closing rfl
  have inner := derives.lower (Nat.zero_le _) tree.rank_le
  have written : Written .start ('$' :: '{' :: tree.rendered spacing ++ ['}'])
      [.expr operand.expr] :=
    ⟨stop, Derives.interpolation opening inner closed Derives.textEnd⟩
  refine ⟨operand.expr.tree, ?_, shows.same⟩
  rw [parse, parseAt, String.toList_ofList, parseChars_eq_ok_iff]
  refine ⟨[.expr operand.expr], written, ?_, ?_, rfl⟩
  · have low := shows.low
    simp only [Part.heights]
    omega
  · simpa [Part.integers] using shows.short

theorem parse_rendered_parentheses :
    let access (name : String) : Node := .access name {}
    let number (value : Nat) : Node := .literal (.int value) {}
    let difference := Node.arithmetic .subtract
      [access "x-y", .arithmetic .subtract [number 3, number 1] {}] {}
    let called := Node.call "f"
      [.index (access "d") (number 0) {}, .arithmetic .subtract [number 1] {}] {}
    let compared := Node.arithmetic .equal [.arithmetic .less [access "a", access "b"] {},
      .arithmetic .not [.arithmetic .and [access "c", called] {}] {}] {}
    let tree := Node.conditional
      (.conditional (access "p") (.literal (.bool true) {}) (access "q.*.id") {})
      difference compared {}
    tree.Formula ∧ tree.depth ≤ maxLevels ∧ tree.rendered .single =
        "(p ? true : q.*.id) ? x-y - (3 - 1) : (a < b) == !(c && f(d[0],-1))".toList ∧
      ∃ node, parse (String.ofList ('$' :: '{' :: tree.rendered .single ++ ['}'])) =
        .ok (.output [node] .start) ∧ node.unplaced = tree.unplaced := by
  intro access number difference called compared tree
  have named : ∀ name, IsVariable name → (access name).Formula := fun _ known => .access known
  have digit : ∀ value, (Nat.toDigits 10 value).length ≤ maxDigits → (number value).Formula :=
    fun _ short => .int short
  have first : difference.Formula := .binary (by decide) (named "x-y" (by decide))
    (.binary (by decide) (digit 3 (by decide)) (digit 1 (by decide)))
  have second : called.Formula := by
    refine .call (by decide) ?_
    intro argument member
    rcases List.mem_cons.mp member with rfl | member
    · exact .index (by decide) (digit 0 (by decide))
    · rw [List.mem_singleton.mp member]
      exact .unary (by decide) (digit 1 (by decide))
  have third : compared.Formula := .binary (by decide)
    (.binary (by decide) (named "a" (by decide)) (named "b" (by decide)))
    (.unary (by decide) (.binary (by decide) (named "c" (by decide)) second))
  have formula : tree.Formula := .conditional
    (.conditional (named "p" (by decide)) .bool (named "q.*.id" (by decide))) first third
  have shallow : tree.depth ≤ maxLevels := by decide
  exact ⟨formula, shallow, by decide +kernel, parse_rendered .single tree formula shallow⟩

end ConfigIndex.Template
