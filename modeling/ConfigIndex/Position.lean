import ConfigIndex.Text.Quoted

/-!
Places in source text. A position counts bytes, lines and columns, a point lines and columns only.
-/

namespace ConfigIndex

/-- A place in a file: bytes before it, line and column. Lines and columns count from one, so
all zero means no known place. -/
structure Position where
  filename : String := ""
  offset : Int := 0
  line : Int := 0
  column : Int := 0
deriving DecidableEq, Repr, Inhabited

namespace Position

def start : Position := ⟨"", 0, 1, 1⟩

def isKnown (position : Position) : Bool := 0 < position.line

def filed (position : Position) (path : String) : Position := { position with filename := path }

def advance (position : Position) (c : Char) : Position :=
  if c = '\n' then
    { position with offset := position.offset + c.utf8Size, line := position.line + 1, column := 1 }
  else
    { position with offset := position.offset + c.utf8Size, column := position.column + 1 }

def advanceBy (position : Position) (text : List Char) : Position := text.foldl advance position

def describe (position : Position) : String :=
  "Pos(filename=" ++ Text.quoted position.filename ++ ", offset=" ++ toString position.offset ++
    ", line=" ++ toString position.line ++ ", column=" ++ toString position.column ++ ")"

@[simp] theorem advanceBy_nil (position : Position) : position.advanceBy [] = position := rfl

@[simp] theorem advanceBy_cons (position : Position) (c : Char) (rest : List Char) :
    position.advanceBy (c :: rest) = (position.advance c).advanceBy rest := rfl

theorem advanceBy_append (position : Position) (left right : List Char) :
    position.advanceBy (left ++ right) = (position.advanceBy left).advanceBy right :=
  List.foldl_append

end Position

/-- A place in a template, which does not count bytes. -/
structure Point where
  filename : String := ""
  line : Int := 0
  column : Int := 0
deriving DecidableEq, Repr, Inhabited

namespace Point

def start : Point := ⟨"", 1, 1⟩

def advance (point : Point) (c : Char) : Point :=
  if c = '\n' then { point with line := point.line + 1, column := 1 }
  else { point with column := point.column + 1 }

def advanceBy (point : Point) (text : List Char) : Point := text.foldl advance point

def describe (point : Point) : String :=
  "Pos(filename=" ++ Text.quoted point.filename ++ ", line=" ++ toString point.line ++
    ", column=" ++ toString point.column ++ ")"

@[simp] theorem advanceBy_nil (point : Point) : point.advanceBy [] = point := rfl

@[simp] theorem advanceBy_cons (point : Point) (c : Char) (rest : List Char) :
    point.advanceBy (c :: rest) = (point.advance c).advanceBy rest := rfl

theorem advanceBy_append (point : Point) (left right : List Char) :
    point.advanceBy (left ++ right) = (point.advanceBy left).advanceBy right :=
  List.foldl_append

end Point

namespace Position

def toPoint (position : Position) : Point := ⟨position.filename, position.line, position.column⟩

end Position

namespace Point

def filed (point : Point) (path : String) : Position := ⟨path, 0, point.line, point.column⟩

end Point

end ConfigIndex
