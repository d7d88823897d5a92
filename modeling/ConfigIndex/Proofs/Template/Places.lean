import ConfigIndex.Proofs.Template.Steps

/-!
Where the names and the operations of a template stand in its text.
-/

namespace ConfigIndex.Template

def Spot.Leads (start stop : Spot) : Prop :=
  ∃ front, start.rest = front ++ stop.rest ∧ stop.point = start.point.advanceBy front

theorem Spot.Leads.refl (spot : Spot) : spot.Leads spot := ⟨[], rfl, rfl⟩

theorem Spot.Leads.trans {start middle stop : Spot} (first : start.Leads middle)
    (second : middle.Leads stop) : start.Leads stop := by
  obtain ⟨front, cut, moved⟩ := first
  obtain ⟨back, further, last⟩ := second
  refine ⟨front ++ back, ?_, ?_⟩
  · rw [cut, further, List.append_assoc]
  · rw [last, moved, Point.advanceBy_append]

theorem Spot.Leads.mem {start stop : Spot} {c : Char} (leads : start.Leads stop)
    (member : c ∈ stop.rest) : c ∈ start.rest := by
  obtain ⟨front, cut, _⟩ := leads
  rw [cut]
  exact List.mem_append_right front member

theorem Word.leads {terminal : Terminal} {start stop : Spot} {lexeme : Lexeme}
    (word : Word terminal start lexeme stop) : start.Leads stop := by
  cases word with
  | @mk point word rest first => exact ⟨word, rfl, rfl⟩

theorem Token.leads {terminal : Terminal} {start stop : Spot} {lexeme : Lexeme}
    (token : Token terminal start lexeme stop) : start.Leads stop := by
  cases token with
  | @mk point gap rest _ _ gaps word => exact Spot.Leads.trans ⟨gap, rfl, rfl⟩ word.leads

theorem Steps.leads {stage last : Stage} {spot stop : Spot}
    (steps : Steps stage spot last stop) : spot.Leads stop := by
  induction steps with
  | none => exact Spot.Leads.refl _
  | more read _ _ ih => exact read.token.2.leads.trans ih

theorem Derives.leads {start stop : Spot} {phrase : Phrase} (derives : Derives start phrase stop) :
    start.Leads stop := by
  induction derives with
  | textEnd | quotedEnd => exact Spot.Leads.refl _
  | textPart word _ ih => exact word.leads.trans ih
  | quotedPart word _ ih => exact word.leads.trans ih
  | interpolation opening _ closing _ inner ih =>
      exact opening.leads.trans (inner.trans (closing.leads.trans ih))
  | quotedInterpolation opening _ closing _ inner ih =>
      exact opening.leads.trans (inner.trans (closing.leads.trans ih))
  | number token | name token => exact token.leads
  | emptyCall name opening closing => exact name.leads.trans (opening.leads.trans closing.leads)
  | call name opening _ closing ih =>
      exact name.leads.trans (opening.leads.trans (ih.trans closing.leads))
  | index name opening _ closing ih =>
      exact name.leads.trans (opening.leads.trans (ih.trans closing.leads))
  | group opening _ closing ih => exact opening.leads.trans (ih.trans closing.leads)
  | string opening _ closing ih => exact opening.leads.trans (ih.trans closing.leads)
  | unary _ sign _ ih => exact sign.leads.trans ih
  | binary _ _ _ mark _ left right => exact left.trans (mark.leads.trans right)
  | comparison _ _ _ mark _ left right => exact left.trans (mark.leads.trans right)
  | conditional _ question _ colon _ condition yes no =>
      exact condition.trans (question.leads.trans (yes.trans (colon.leads.trans no)))
  | tighter _ _ ih | lastArgument _ ih => exact ih
  | moreArguments _ comma _ first ih => exact first.trans (comma.leads.trans ih)

/-- A place that an expression gives, with the name that stands there if one does. -/
structure Use where
  point : Point
  name : Option String := none

mutual

def Expr.uses : Expr → List Use
  | .number _ point => [⟨point, none⟩]
  | .name text point => [⟨point, some text⟩]
  | .call name point arguments => ⟨point, some name⟩ :: Expr.allUses arguments
  | .index name point key => ⟨point, some name⟩ :: key.uses
  | .unary _ point operand => ⟨point, none⟩ :: operand.uses
  | .binary _ start left right => ⟨start, none⟩ :: (left.uses ++ right.uses)
  | .conditional start condition yes no =>
    ⟨start, none⟩ :: (condition.uses ++ yes.uses ++ no.uses)
  | .quoted point parts => ⟨point, none⟩ :: Part.uses parts

def Expr.allUses : List Expr → List Use
  | [] => []
  | expr :: rest => expr.uses ++ Expr.allUses rest

def Part.uses : List Part → List Use
  | [] => []
  | .text _ point :: rest => ⟨point, none⟩ :: Part.uses rest
  | .expr expr :: rest => expr.uses ++ Part.uses rest

end

def Phrase.uses : Phrase → List Use
  | .text parts => Part.uses parts
  | .quoted parts => Part.uses parts
  | .expression _ operand => ⟨operand.start, none⟩ :: operand.expr.uses
  | .arguments exprs => Expr.allUses exprs

def Phrase.Encloses : Phrase → Prop
  | .text _ => True
  | .quoted _ => True
  | .expression _ _ => False
  | .arguments _ => False

/-- A use is somewhere between two spots. A name that is used there stands there, and if it is
enclosed there is a brace behind it. -/
def Use.Within (use : Use) (enclosed : Prop) (start stop : Spot) : Prop :=
  ∃ spot, start.Leads spot ∧ spot.Leads stop ∧ spot.point = use.point ∧
    ∀ name, use.name = some name →
      namePattern.first? spot.rest = some name.toList ∧ (enclosed → '}' ∈ spot.rest)

theorem Use.Within.widen {use : Use} {enclosed : Prop} {start first last stop : Spot}
    (within : use.Within enclosed first last) (before : start.Leads first)
    (behind : last.Leads stop) : use.Within enclosed start stop := by
  obtain ⟨spot, front, back, place, named⟩ := within
  exact ⟨spot, before.trans front, back.trans behind, place, named⟩

theorem Use.Within.weaken {use : Use} {enclosed : Prop} {start stop : Spot}
    (within : use.Within enclosed start stop) : use.Within False start stop := by
  obtain ⟨spot, front, back, place, named⟩ := within
  exact ⟨spot, front, back, place, fun name same => ⟨(named name same).1, False.elim⟩⟩

theorem Use.Within.enclose {use : Use} {enclosed : Prop} {start stop : Spot}
    (within : use.Within enclosed start stop) (brace : '}' ∈ stop.rest) (other : Prop) :
    use.Within other start stop := by
  obtain ⟨spot, front, back, place, named⟩ := within
  exact ⟨spot, front, back, place, fun name same => ⟨(named name same).1, fun _ => back.mem brace⟩⟩

theorem Word.stands {terminal : Terminal} {start stop : Spot} {lexeme : Lexeme}
    (word : Word terminal start lexeme stop) :
    start.point = lexeme.point ∧
      terminal.pattern.first? start.rest = some lexeme.text.toList := by
  cases word with
  | @mk point word rest first => exact ⟨rfl, by rw [String.toList_ofList]; exact first⟩

theorem Token.stands {terminal : Terminal} {start stop : Spot} {lexeme : Lexeme}
    (token : Token terminal start lexeme stop) :
    ∃ spot, start.Leads spot ∧ spot.Leads stop ∧ spot.point = lexeme.point ∧
      terminal.pattern.first? spot.rest = some lexeme.text.toList := by
  cases token with
  | @mk point gap rest _ _ gaps word =>
      exact ⟨_, ⟨gap, rfl, rfl⟩, word.leads, word.stands.1, word.stands.2⟩

theorem Token.place {terminal : Terminal} {start stop : Spot} {lexeme : Lexeme}
    (token : Token terminal start lexeme stop) (enclosed : Prop) :
    Use.Within ⟨lexeme.point, none⟩ enclosed start stop := by
  obtain ⟨spot, front, back, place, _⟩ := token.stands
  exact ⟨spot, front, back, place, fun name same => by cases same⟩

theorem Token.name {start stop : Spot} {lexeme : Lexeme} (token : Token .ident start lexeme stop) :
    Use.Within ⟨lexeme.point, some lexeme.text⟩ False start stop := by
  obtain ⟨spot, front, back, place, first⟩ := token.stands
  refine ⟨spot, front, back, place, ?_⟩
  intro name same
  cases same
  exact ⟨first, False.elim⟩

theorem Token.brace {start stop : Spot} {lexeme : Lexeme}
    (token : Token .closing start lexeme stop) : '}' ∈ start.rest := by
  obtain ⟨spot, front, _, _, first⟩ := token.stands
  obtain ⟨rest, cut⟩ := Text.Pattern.first?_splits first
  have brace := (Text.Pattern.literally_first?_iff.mp first).1
  apply front.mem
  rw [cut, brace]
  simp

theorem Word.place {terminal : Terminal} {start stop : Spot} {lexeme : Lexeme}
    (word : Word terminal start lexeme stop) (enclosed : Prop) :
    Use.Within ⟨lexeme.point, none⟩ enclosed start stop :=
  ⟨start, Spot.Leads.refl start, word.leads, word.stands.1, fun name same => by cases same⟩

/-! ### All places of a phrase -/

def AllWithin (uses : List Use) (enclosed : Prop) (start stop : Spot) : Prop :=
  ∀ use ∈ uses, use.Within enclosed start stop

namespace AllWithin

variable {use : Use} {uses others : List Use} {enclosed : Prop} {start first last stop : Spot}

theorem nil : AllWithin [] enclosed start stop := List.forall_mem_nil _

theorem cons (here : use.Within enclosed start stop) (rest : AllWithin uses enclosed start stop) :
    AllWithin (use :: uses) enclosed start stop :=
  List.forall_mem_cons.mpr ⟨here, rest⟩

theorem head (all : AllWithin (use :: uses) enclosed start stop) :
    use.Within enclosed start stop :=
  (List.forall_mem_cons.mp all).1

theorem tail (all : AllWithin (use :: uses) enclosed start stop) :
    AllWithin uses enclosed start stop :=
  (List.forall_mem_cons.mp all).2

theorem append (all : AllWithin uses enclosed start stop)
    (more : AllWithin others enclosed start stop) :
    AllWithin (uses ++ others) enclosed start stop :=
  List.forall_mem_append.mpr ⟨all, more⟩

theorem widen (all : AllWithin uses enclosed first last) (before : start.Leads first)
    (behind : last.Leads stop) : AllWithin uses enclosed start stop :=
  fun use member => (all use member).widen before behind

theorem behind (all : AllWithin uses enclosed first stop) (before : start.Leads first) :
    AllWithin uses enclosed start stop :=
  all.widen before (Spot.Leads.refl stop)

theorem before (all : AllWithin uses enclosed start last) (after : last.Leads stop) :
    AllWithin uses enclosed start stop :=
  all.widen (Spot.Leads.refl start) after

theorem weaken (all : AllWithin uses enclosed start stop) : AllWithin uses False start stop :=
  fun use member => (all use member).weaken

theorem enclose (all : AllWithin uses enclosed start stop) (brace : '}' ∈ stop.rest)
    (other : Prop) : AllWithin uses other start stop :=
  fun use member => (all use member).enclose brace other

end AllWithin

theorem Use.Within.before {use : Use} {enclosed : Prop} {start last stop : Spot}
    (within : use.Within enclosed start last) (after : last.Leads stop) :
    use.Within enclosed start stop :=
  within.widen (Spot.Leads.refl start) after

section

variable {start first second third fourth last stop : Spot}

/-- A name with something in brackets behind it. -/
theorem Token.applied {name : Lexeme} {uses : List Use} (token : Token .ident start name first)
    (inside : AllWithin uses False first stop) (leads : first.Leads stop) :
    AllWithin (⟨name.point, none⟩ :: ⟨name.point, some name.text⟩ :: uses) False start stop :=
  .cons ((token.place _).before leads)
    (.cons (token.name.before leads) (inside.behind token.leads))

/-- A word that starts an expression and gives it its place. -/
theorem Token.signed {terminal : Terminal} {sign : Lexeme} {uses : List Use}
    (token : Token terminal start sign first) (inside : AllWithin uses False first stop)
    (leads : first.Leads stop) :
    AllWithin (⟨sign.point, none⟩ :: ⟨sign.point, none⟩ :: uses) False start stop :=
  .cons ((token.place _).before leads)
    (.cons ((token.place _).before leads) (inside.behind token.leads))

/-- Two operands with a word between them. The first one gives the place of the whole. -/
theorem Derives.uses_binary {terminal : Terminal} {rank level : Nat} {left right : Operand}
    {mark : Lexeme} (former : Derives start (.expression rank left) first)
    (token : Token terminal first mark second)
    (latter : Derives second (.expression level right) stop)
    (lefts : AllWithin (Phrase.expression rank left).uses False start first)
    (rights : AllWithin (Phrase.expression level right).uses False second stop) :
    AllWithin (⟨left.start, none⟩ :: ⟨left.start, none⟩ :: (left.expr.uses ++ right.expr.uses))
      False start stop := by
  have after := token.leads.trans latter.leads
  have place := lefts.head.before after
  exact .cons place (.cons place
    ((lefts.tail.before after).append (rights.tail.behind (former.leads.trans token.leads))))

theorem Derives.uses_conditional {condition yes no : Operand} {question colon : Lexeme}
    (asked : Derives start (.expression 1 condition) first)
    (mark : Token .question first question second)
    (chosen : Derives second (.expression 0 yes) third) (divide : Token .colon third colon fourth)
    (other : Derives fourth (.expression 0 no) stop)
    (conditions : AllWithin (Phrase.expression 1 condition).uses False start first)
    (choices : AllWithin (Phrase.expression 0 yes).uses False second third)
    (others : AllWithin (Phrase.expression 0 no).uses False fourth stop) :
    AllWithin (⟨condition.start, none⟩ :: ⟨condition.start, none⟩ ::
      (condition.expr.uses ++ yes.expr.uses ++ no.expr.uses)) False start stop := by
  have behind := divide.leads.trans other.leads
  have after := mark.leads.trans (chosen.leads.trans behind)
  have place := conditions.head.before after
  have front := asked.leads.trans mark.leads
  exact .cons place (.cons place
    (((conditions.tail.before after).append (choices.tail.widen front behind)).append
      (others.tail.behind (front.trans (chosen.leads.trans divide.leads)))))

/-- An interpolation, whose names are enclosed, and the parts behind it. -/
theorem Derives.uses_interpolation {opening closing : Lexeme} {operand : Operand} {uses : List Use}
    (open' : Word .opening start opening first)
    (inner : Derives first (.expression 0 operand) last)
    (close : Token .closing last closing second) (leads : second.Leads stop)
    (inside : AllWithin (Phrase.expression 0 operand).uses False first last)
    (parts : AllWithin uses True second stop) :
    AllWithin (operand.expr.uses ++ uses) True start stop := by
  have enclosed := inside.tail.enclose close.brace True
  exact (enclosed.widen open'.leads (close.leads.trans leads)).append
    (parts.behind (open'.leads.trans (inner.leads.trans close.leads)))

end

theorem Derives.uses {start stop : Spot} {phrase : Phrase} (derives : Derives start phrase stop) :
    AllWithin phrase.uses phrase.Encloses start stop := by
  -- A use is found in one part of the phrase; the words around that part only widen the stretch.
  induction derives with
  | textEnd | quotedEnd => exact .nil
  | textPart word parts ih | quotedPart word parts ih =>
      exact .cons ((word.place _).before parts.leads) (ih.behind word.leads)
  | interpolation opening inner closing parts operand ih
  | quotedInterpolation opening inner closing parts operand ih =>
      exact uses_interpolation opening inner closing parts.leads operand ih
  | number token => exact .cons (token.place _) (.cons (token.place _) .nil)
  | name token => exact .cons (token.place _) (.cons token.name .nil)
  | emptyCall name opening closing =>
      exact name.applied .nil (opening.leads.trans closing.leads)
  | call name opening arguments closing ih =>
      exact name.applied (ih.widen opening.leads closing.leads)
        (opening.leads.trans (arguments.leads.trans closing.leads))
  | index name opening key closing ih =>
      exact name.applied (ih.tail.widen opening.leads closing.leads)
        (opening.leads.trans (key.leads.trans closing.leads))
  | group opening operand closing ih =>
      exact .cons ((opening.place _).before (operand.leads.trans closing.leads))
        (ih.tail.widen opening.leads closing.leads)
  | string opening parts closing ih =>
      exact opening.signed (ih.weaken.before closing.leads) (parts.leads.trans closing.leads)
  | unary _ sign operand ih => exact sign.signed ih.tail operand.leads
  | binary _ _ left mark right lefts rights | comparison _ _ left mark right lefts rights =>
      exact uses_binary left mark right lefts rights
  | conditional condition question yes colon no conditions choices others =>
      exact uses_conditional condition question yes colon no conditions choices others
  | tighter _ _ ih => exact ih
  | lastArgument _ ih => exact ih.tail.append .nil
  | moreArguments operand comma arguments operands ih =>
      exact (operands.tail.before (comma.leads.trans arguments.leads)).append
        (ih.behind (operand.leads.trans comma.leads))

theorem readName_append (inWord : Bool) (seen text more : List Char) (brace : '}' ∈ text) :
    readName inWord seen (text ++ more) = readName inWord seen text := by
  have other : '}' ≠ '.' ∧ '}' ≠ '*' ∧ isNameChar '}' = false := by decide
  fun_induction readName inWord seen text with
  | case1 => cases brace
  | case2 inWord seen c rest named ih =>
      rw [List.cons_append, readName.eq_def]
      simp only [named, if_true]
      apply ih
      rcases List.mem_cons.mp brace with rfl | inside
      · simp [other] at named
      · exact inside
  | case3 inWord seen rest apart ih =>
      rw [List.cons_append, List.cons_append, readName.eq_def]
      simp only [apart, if_true]
      exact ih (by simpa [other] using brace)
  | case4 inWord seen c rest star named apart ih =>
      rw [List.cons_append, List.cons_append, readName.eq_def]
      simp only [apart, named, if_true]
      apply ih
      rcases List.mem_cons.mp brace with same | inside
      · simp at same
      · rcases List.mem_cons.mp inside with rfl | inside
        · simp [other] at named
        · exact inside
  | case5 inWord seen c rest star plain apart =>
      rw [List.cons_append, List.cons_append, readName.eq_def]
      simp [apart, plain]
  | case6 inWord seen apart => simp at brace
  | case7 inWord seen c rest apart point =>
      rw [List.cons_append, readName.eq_def]
      simp [apart, point]

/-- No name reaches over a brace. -/
theorem namePattern_append {text word : List Char} (more : List Char) (brace : '}' ∈ text)
    (first : namePattern.first? text = some word) :
    namePattern.first? (text ++ more) = some word := by
  rw [namePattern_first?] at first ⊢
  cases text with
  | nil => cases brace
  | cons c rest =>
      simp only [List.cons_append] at first ⊢
      split at first
      · rename_i start
        have inside : '}' ∈ rest := by
          rcases List.mem_cons.mp brace with rfl | inside
          · cases start
          · exact inside
        rw [if_pos start, readName_append true [c] rest more inside]
        exact first
      · cases first

end ConfigIndex.Template
