import ConfigIndex.Proofs.Template.Completeness
import ConfigIndex.Template.Read

/-!
The trees of templates and the limits they are read in: how deep expressions nest, and how long
whole numbers are. A text breaks the reader off only if one of its whole numbers is too long.
-/

namespace ConfigIndex.Template

def numberTree (text : List Char) (point : Point) : Node :=
  if isFloatText text then .literal (.float (floatValue text)) point
  else .literal (.int (Text.decimalValue text)) point

mutual

def Expr.tree : Expr → Node
  | .number text point => numberTree text.toList point
  | .name text point => nameNode text point
  | .call name point arguments => .call name (Expr.trees arguments) point
  | .index name point key => .index (.access name point) key.tree point
  | .unary operator point operand => .arithmetic operator [operand.tree] point
  | .binary operator start left right => .arithmetic operator [left.tree, right.tree] start
  | .conditional start condition yes no => .conditional condition.tree yes.tree no.tree start
  | .quoted point parts => quotedNode (Part.trees unescape parts) point

def Expr.trees : List Expr → List Node
  | [] => []
  | expr :: rest => expr.tree :: Expr.trees rest

def Part.trees (free : List Char → List Char) : List Part → List Node
  | [] => []
  | .text text point :: rest =>
    .literal (.text (String.ofList (free (reveal text.toList)))) point :: Part.trees free rest
  | .expr expr :: rest => expr.tree :: Part.trees free rest

end

mutual

def Expr.height : Expr → Nat
  | .number _ _ => 1
  | .name _ _ => 1
  | .call _ _ arguments => Expr.heights arguments + 1
  | .index _ _ key => key.height + 1
  | .unary _ _ operand => operand.height + 1
  | .binary _ _ left right => max left.height right.height + 1
  | .conditional _ condition yes no => max condition.height (max yes.height no.height) + 1
  | .quoted _ parts => Part.heights parts + 1

def Expr.heights : List Expr → Nat
  | [] => 0
  | expr :: rest => max expr.height (Expr.heights rest)

def Part.heights : List Part → Nat
  | [] => 0
  | .text _ _ :: rest => Part.heights rest
  | .expr expr :: rest => max expr.height (Part.heights rest)

end

mutual

def Expr.integers : Expr → List (List Char)
  | .number text _ => if isFloatText text.toList then [] else [text.toList]
  | .name _ _ => []
  | .call _ _ arguments => Expr.allIntegers arguments
  | .index _ _ key => key.integers
  | .unary _ _ operand => operand.integers
  | .binary _ _ left right => left.integers ++ right.integers
  | .conditional _ condition yes no => condition.integers ++ yes.integers ++ no.integers
  | .quoted _ parts => Part.integers parts

def Expr.allIntegers : List Expr → List (List Char)
  | [] => []
  | expr :: rest => expr.integers ++ Expr.allIntegers rest

def Part.integers : List Part → List (List Char)
  | [] => []
  | .text _ _ :: rest => Part.integers rest
  | .expr expr :: rest => expr.integers ++ Part.integers rest

end

/-- What stands at a level of nesting keeps to the limits. -/
def Fits (level height : Nat) (integers : List (List Char)) : Prop :=
  level + height ≤ maxLevels + 1 ∧ ∀ digits ∈ integers, digits.length ≤ maxDigits

theorem Fits.left {level height other : Nat} {integers more : List (List Char)}
    (fits : Fits level (max height other) (integers ++ more)) : Fits level height integers :=
  ⟨by have high := fits.1; omega, fun digits member => fits.2 digits (by simp [member])⟩

theorem Fits.right {level height other : Nat} {integers more : List (List Char)}
    (fits : Fits level (max height other) (integers ++ more)) : Fits level other more :=
  ⟨by have high := fits.1; omega, fun digits member => fits.2 digits (by simp [member])⟩

theorem Fits.both {level height other : Nat} {integers more : List (List Char)}
    (left : Fits level height integers) (right : Fits level other more) :
    Fits level (max height other) (integers ++ more) := by
  refine ⟨by have high := left.1; have low := right.1; omega, ?_⟩
  intro digits member
  rcases List.mem_append.mp member with first | second
  · exact left.2 digits first
  · exact right.2 digits second

theorem fits_below {level height : Nat} {integers : List (List Char)} :
    Fits level (height + 1) integers ↔ Fits (level + 1) height integers := by
  simp [Fits, Nat.add_assoc, Nat.add_comm 1]

theorem Expr.height_pos (expr : Expr) : 1 ≤ expr.height := by
  cases expr with
  | number | name => exact Nat.le_refl 1
  | _ => exact Nat.le_add_left 1 _

theorem Fits.level_le {level : Nat} {expr : Expr}
    (fits : Fits level expr.height expr.integers) : ¬maxLevels < level := by
  have positive := expr.height_pos
  have shallow := fits.1
  omega

theorem numberNode_of_fits {level height : Nat} {text : List Char} {point : Point}
    (fits : Fits level height (if isFloatText text then [] else [text])) :
    numberNode text point = .ok (numberTree text point) := by
  unfold numberNode numberTree
  split
  · rfl
  · rename_i whole
    have short := fits.2 text (by simp [whole])
    rw [if_neg (by omega)]

theorem fits_of_numberNode {level : Nat} {text : List Char} {point : Point} {node : Node}
    (shallow : level ≤ maxLevels) (read : numberNode text point = .ok node) :
    Fits level 1 (if isFloatText text then [] else [text]) := by
  refine ⟨by omega, ?_⟩
  intro digits member
  unfold numberNode at read
  split at member
  · cases member
  · rename_i whole
    rw [if_neg whole] at read
    split at read
    · cases read
    · simp only [List.mem_singleton] at member
      subst member
      omega

mutual

theorem Expr.node_of_fits (level : Nat) (expr : Expr)
    (fits : Fits level expr.height expr.integers) : expr.node level = .ok expr.tree := by
  have shallow := fits.level_le
  cases expr with
  | number text point =>
      simp only [Expr.node, if_neg shallow, Expr.tree]
      exact numberNode_of_fits fits
  | name text point => simp only [Expr.node, if_neg shallow, Expr.tree]
  | call name point arguments =>
      have inner := Expr.nodes_of_fits (level + 1) arguments (fits_below.mp fits)
      simp only [Expr.node, if_neg shallow, Expr.tree, inner]
  | index name point key =>
      have inner := Expr.node_of_fits (level + 1) key (fits_below.mp fits)
      simp only [Expr.node, if_neg shallow, Expr.tree, inner]
  | unary operator point operand =>
      have inner := Expr.node_of_fits (level + 1) operand (fits_below.mp fits)
      simp only [Expr.node, if_neg shallow, Expr.tree, inner]
  | binary operator start left right =>
      have below := fits_below.mp fits
      have first := Expr.node_of_fits (level + 1) left below.left
      have second := Expr.node_of_fits (level + 1) right below.right
      simp only [Expr.node, if_neg shallow, Expr.tree, first, second]
  | conditional start condition yes no =>
      simp only [Expr.height, Expr.integers, List.append_assoc] at fits
      have below := fits_below.mp fits
      have first := Expr.node_of_fits (level + 1) condition below.left
      have second := Expr.node_of_fits (level + 1) yes below.right.left
      have third := Expr.node_of_fits (level + 1) no below.right.right
      simp only [Expr.node, if_neg shallow, Expr.tree, first, second, third]
  | quoted point parts =>
      have inner := Part.nodes_of_fits unescape (level + 1) parts (fits_below.mp fits)
      simp only [Expr.node, if_neg shallow, Expr.tree, inner]

theorem Expr.nodes_of_fits (level : Nat) (exprs : List Expr)
    (fits : Fits level (Expr.heights exprs) (Expr.allIntegers exprs)) :
    Expr.nodes level exprs = .ok (Expr.trees exprs) := by
  cases exprs with
  | nil => rfl
  | cons expr rest =>
      have first := Expr.node_of_fits level expr fits.left
      have others := Expr.nodes_of_fits level rest fits.right
      simp only [Expr.nodes, Expr.trees, first, others]

theorem Part.nodes_of_fits (free : List Char → List Char) (level : Nat) (parts : List Part)
    (fits : Fits level (Part.heights parts) (Part.integers parts)) :
    Part.nodes free level parts = .ok (Part.trees free parts) := by
  match parts with
  | [] => rfl
  | .text text point :: rest =>
      have others := Part.nodes_of_fits free level rest fits
      simp only [Part.nodes, Part.trees, others]
  | .expr expr :: rest =>
      have first := Expr.node_of_fits level expr fits.left
      have others := Part.nodes_of_fits free level rest fits.right
      simp only [Part.nodes, Part.trees, first, others]

end

mutual

theorem Expr.fits_of_node (level : Nat) (expr : Expr) (node : Node)
    (read : expr.node level = .ok node) : Fits level expr.height expr.integers := by
  unfold Expr.node at read
  split at read
  · cases read
  · rename_i shallow
    have bound : level ≤ maxLevels := Nat.le_of_not_lt shallow
    cases expr with
    | number text point => exact fits_of_numberNode bound read
    | name text point => exact ⟨Nat.succ_le_succ bound, fun digits member => by cases member⟩
    | call name point arguments =>
        simp only at read
        split at read
        · cases read
        · rename_i found
          exact fits_below.mpr (Expr.fits_of_nodes _ arguments _ (Nat.succ_le_succ bound) found)
    | index name point key =>
        simp only at read
        split at read
        · cases read
        · rename_i found
          exact fits_below.mpr (Expr.fits_of_node _ key _ found)
    | unary operator point operand =>
        simp only at read
        split at read
        · cases read
        · rename_i found
          exact fits_below.mpr (Expr.fits_of_node _ operand _ found)
    | binary operator start left right =>
        simp only at read
        split at read
        · cases read
        · rename_i first
          split at read
          · cases read
          · rename_i second
            exact fits_below.mpr
              ((Expr.fits_of_node _ left _ first).both (Expr.fits_of_node _ right _ second))
    | conditional start condition yes no =>
        simp only at read
        split at read
        · cases read
        · rename_i first
          split at read
          · cases read
          · rename_i second
            split at read
            · cases read
            · rename_i third
              simp only [Expr.height, Expr.integers, List.append_assoc]
              have chosen :=
                (Expr.fits_of_node _ yes _ second).both (Expr.fits_of_node _ no _ third)
              exact fits_below.mpr ((Expr.fits_of_node _ condition _ first).both chosen)
    | quoted point parts =>
        simp only at read
        split at read
        · cases read
        · rename_i found
          exact fits_below.mpr
            (Part.fits_of_nodes unescape _ parts _ (Nat.succ_le_succ bound) found)

theorem Expr.fits_of_nodes (level : Nat) (exprs : List Expr) (nodes : List Node)
    (bound : level ≤ maxLevels + 1) (read : Expr.nodes level exprs = .ok nodes) :
    Fits level (Expr.heights exprs) (Expr.allIntegers exprs) := by
  cases exprs with
  | nil => exact ⟨bound, fun digits member => by cases member⟩
  | cons expr rest =>
      simp only [Expr.nodes] at read
      split at read
      · cases read
      · rename_i first
        split at read
        · cases read
        · rename_i others
          exact (Expr.fits_of_node _ expr _ first).both
            (Expr.fits_of_nodes _ rest _ bound others)

theorem Part.fits_of_nodes (free : List Char → List Char) (level : Nat) (parts : List Part)
    (nodes : List Node) (bound : level ≤ maxLevels + 1)
    (read : Part.nodes free level parts = .ok nodes) :
    Fits level (Part.heights parts) (Part.integers parts) := by
  match parts with
  | [] => exact ⟨bound, fun digits member => by cases member⟩
  | .text text point :: rest =>
      simp only [Part.nodes] at read
      split at read
      · cases read
      · rename_i others
        exact Part.fits_of_nodes free level rest _ bound others
  | .expr expr :: rest =>
      simp only [Part.nodes] at read
      split at read
      · cases read
      · rename_i first
        split at read
        · cases read
        · rename_i others
          exact (Expr.fits_of_node _ expr _ first).both
            (Part.fits_of_nodes free level rest _ bound others)

end

theorem Part.nodes_eq_ok_iff {free : List Char → List Char} {level : Nat} {parts : List Part}
    {nodes : List Node} (bound : level ≤ maxLevels + 1) :
    Part.nodes free level parts = .ok nodes ↔
      Fits level (Part.heights parts) (Part.integers parts) ∧ nodes = Part.trees free parts := by
  constructor
  · intro read
    have fits := Part.fits_of_nodes free level parts nodes bound read
    rw [Part.nodes_of_fits free level parts fits] at read
    exact ⟨fits, (Except.ok.inj read).symm⟩
  · rintro ⟨fits, rfl⟩
    exact Part.nodes_of_fits free level parts fits

/-- A text has a tree if and only if it is made of parts that keep to the limits, and then the tree
is that of the parts. -/
theorem parseChars_eq_ok_iff {basis : Point} {text : List Char} {node : Node} :
    parseChars basis text = .ok node ↔
      ∃ parts, Written basis text parts ∧ Part.heights parts ≤ maxLevels ∧
        (∀ digits ∈ Part.integers parts, digits.length ≤ maxDigits) ∧
        node = .output (Part.trees id parts) basis := by
  have limits (parts : List Part) : Fits 1 (Part.heights parts) (Part.integers parts) ↔
      Part.heights parts ≤ maxLevels ∧
        ∀ digits ∈ Part.integers parts, digits.length ≤ maxDigits := by
    unfold Fits
    rw [Nat.add_comm 1, Nat.add_le_add_iff_right]
  unfold parseChars
  constructor
  · intro read
    split at read
    · cases read
    · rename_i parts accepted
      split at read
      · cases read
      · rename_i nodes found
        cases read
        obtain ⟨fits, rfl⟩ := (Part.nodes_eq_ok_iff (by decide)).mp found
        obtain ⟨high, short⟩ := (limits parts).mp fits
        exact ⟨parts, scan_parts_eq_ok_iff.mp accepted, high, short, rfl⟩
  · rintro ⟨parts, written, high, short, rfl⟩
    have fits := (limits parts).mpr ⟨high, short⟩
    simp only [scan_parts_eq_ok_iff.mpr written, Part.nodes_of_fits id 1 parts fits]

theorem parse_eq_ok_iff (text : String) (node : Node) :
    parse text = .ok node ↔
      ∃ parts, Written .start text.toList parts ∧ Part.heights parts ≤ maxLevels ∧
        (∀ digits ∈ Part.integers parts, digits.length ≤ maxDigits) ∧
        node = .output (Part.trees id parts) .start := by
  rw [parse, parseAt]
  exact parseChars_eq_ok_iff

def Part.exprs : List Part → List Expr
  | [] => []
  | .text _ _ :: rest => Part.exprs rest
  | .expr one :: rest => one :: Part.exprs rest

def Expr.inner : Expr → List Expr
  | .number _ _ => []
  | .name _ _ => []
  | .call _ _ arguments => arguments
  | .index _ _ key => [key]
  | .unary _ _ operand => [operand]
  | .binary _ _ left right => [left, right]
  | .conditional _ condition yes no => [condition, yes, no]
  | .quoted _ parts => Part.exprs parts

theorem Expr.nodes_error {level : Nat} {failure : Failure} {exprs : List Expr}
    (failed : Expr.nodes level exprs = .error failure) :
    ∃ expr ∈ exprs, expr.node level = .error failure := by
  induction exprs with
  | nil => cases failed
  | cons expr rest ih =>
      simp only [Expr.nodes] at failed
      split at failed
      · rename_i first
        cases failed
        exact ⟨expr, List.mem_cons_self, first⟩
      · split at failed
        · rename_i others
          cases failed
          obtain ⟨other, member, broken⟩ := ih others
          exact ⟨other, List.mem_cons_of_mem expr member, broken⟩
        · cases failed

theorem Part.nodes_error {free : List Char → List Char} {level : Nat} {failure : Failure}
    {parts : List Part} (failed : Part.nodes free level parts = .error failure) :
    ∃ expr ∈ Part.exprs parts, expr.node level = .error failure := by
  match parts with
  | [] => cases failed
  | .text _ _ :: rest =>
      simp only [Part.nodes] at failed
      split at failed
      · rename_i others
        cases failed
        exact @Part.nodes_error free _ _ rest others
      · cases failed
  | .expr one :: rest =>
      simp only [Part.nodes] at failed
      split at failed
      · rename_i first
        cases failed
        exact ⟨one, List.mem_cons_self, first⟩
      · split at failed
        · rename_i others
          cases failed
          obtain ⟨other, member, broken⟩ := Part.nodes_error others
          exact ⟨other, List.mem_cons_of_mem one member, broken⟩
        · cases failed

/-- An expression has no tree if it is too deep, if it is a number that has none, or if one of the
expressions right below it has none. -/
theorem Expr.node_error {level : Nat} {failure : Failure} {expr : Expr}
    (failed : expr.node level = .error failure) :
    failure = .faulty ⟨.tooDeep, expr.point⟩ ∨
      (∃ text point, expr = .number text point ∧ numberNode text.toList point = .error failure) ∨
      level ≤ maxLevels ∧ ∃ part ∈ expr.inner, part.node (level + 1) = .error failure := by
  unfold Expr.node at failed
  split at failed
  · exact Or.inl (Except.error.inj failed).symm
  · rename_i shallow
    refine Or.inr ?_
    cases expr with
    | number text point => exact Or.inl ⟨text, point, rfl, failed⟩
    | name text point => cases failed
    | call name point arguments =>
        refine Or.inr ⟨Nat.le_of_not_lt shallow, Expr.nodes_error ?_⟩
        cases found : Expr.nodes (level + 1) arguments <;> simp_all [Expr.inner]
    | quoted point parts =>
        refine Or.inr ⟨Nat.le_of_not_lt shallow, @Part.nodes_error unescape _ _ _ ?_⟩
        cases found : Part.nodes unescape (level + 1) parts <;> simp_all
    | index _ _ key => cases found : key.node (level + 1) <;> simp_all [Expr.inner]
    | unary _ _ operand => cases found : operand.node (level + 1) <;> simp_all [Expr.inner]
    | binary _ _ left right =>
        cases first : left.node (level + 1) <;> cases second : right.node (level + 1) <;>
          simp_all [Expr.inner]
    | conditional _ condition yes no =>
        cases first : condition.node (level + 1) <;> cases second : yes.node (level + 1) <;>
          cases third : no.node (level + 1) <;> simp_all [Expr.inner]

def Breaks (digits : Nat) (integers : List (List Char)) : Prop :=
  ∃ numeral ∈ integers, numeral.length = digits ∧ maxDigits < digits

theorem Breaks.of_subset {digits : Nat} {integers more : List (List Char)}
    (breaks : Breaks digits integers) (subset : integers ⊆ more) : Breaks digits more := by
  obtain ⟨numeral, member, long⟩ := breaks
  exact ⟨numeral, subset member, long⟩

theorem numberNode_breaks {text : List Char} {point : Point} {digits : Nat}
    (broken : numberNode text point = .error (.oversized digits)) :
    Breaks digits (if isFloatText text then [] else [text]) := by
  unfold numberNode at broken
  split at broken
  · cases broken
  · rename_i whole
    split at broken
    · rename_i long
      cases broken
      exact ⟨text, by simp [whole], rfl, long⟩
    · cases broken

theorem Expr.integers_subset {expr : Expr} {exprs : List Expr} (member : expr ∈ exprs) :
    expr.integers ⊆ Expr.allIntegers exprs := by
  induction member with
  | head => exact List.subset_append_left _ _
  | tail _ _ ih => exact List.subset_append_of_subset_right _ ih

theorem Part.integers_eq (parts : List Part) :
    Part.integers parts = Expr.allIntegers (Part.exprs parts) := by
  match parts with
  | [] => rfl
  | .text _ _ :: rest => exact Part.integers_eq rest
  | .expr one :: rest => exact congrArg (one.integers ++ ·) (Part.integers_eq rest)

theorem Expr.integers_inner {expr part : Expr} (member : part ∈ expr.inner) :
    part.integers ⊆ expr.integers := by
  have among := Expr.integers_subset member
  cases expr with
  | number | name => cases member
  | quoted point parts =>
      rw [Expr.integers, Part.integers_eq]
      exact among
  | _ => simpa [Expr.inner, Expr.integers, Expr.allIntegers] using among

theorem Expr.node_breaks (level : Nat) (expr : Expr) (digits : Nat)
    (broken : expr.node level = .error (.oversized digits)) : Breaks digits expr.integers := by
  rcases Expr.node_error broken with same | ⟨text, point, rfl, number⟩ |
    ⟨shallow, part, member, broken⟩
  · cases same
  · exact numberNode_breaks number
  · exact (Expr.node_breaks (level + 1) part digits broken).of_subset (Expr.integers_inner member)
termination_by maxLevels + 1 - level

theorem Part.nodes_breaks (free : List Char → List Char) (level : Nat) (parts : List Part)
    (digits : Nat) (broken : Part.nodes free level parts = .error (.oversized digits)) :
    Breaks digits (Part.integers parts) := by
  obtain ⟨expr, member, broken⟩ := Part.nodes_error broken
  rw [Part.integers_eq]
  exact (Expr.node_breaks level expr digits broken).of_subset (Expr.integers_subset member)

/-- A text that breaks the reader off is a text of the grammar, and one of its whole numbers has
too many digits. -/
theorem parseChars_breaks {basis : Point} {text : List Char} {digits : Nat}
    (broken : parseChars basis text = .error (.oversized digits)) :
    ∃ parts, Written basis text parts ∧ Breaks digits (Part.integers parts) := by
  unfold parseChars at broken
  split at broken
  · cases broken
  · rename_i parts accepted
    split at broken
    · rename_i failed
      cases broken
      exact ⟨parts, scan_parts_eq_ok_iff.mp accepted, Part.nodes_breaks id 1 parts _ failed⟩
    · cases broken

end ConfigIndex.Template
