import ConfigIndex.Text.Blank

/-!
Breaking text into lines that fit a screen. Words move to the next line as a whole, unless they
are longer than a line themselves.
-/

namespace ConfigIndex.Command

def wideRuns : List (Nat × Nat) :=
  [(0x1100, 0x115f), (0x231a, 0x231b), (0x2329, 0x232a), (0x23e9, 0x23ec), (0x2e80, 0x303e),
    (0x3041, 0x33ff), (0x3400, 0x4dbf), (0x4e00, 0x9fff), (0xa000, 0xa4cf), (0xa960, 0xa97f),
    (0xac00, 0xd7a3), (0xf900, 0xfaff), (0xfe30, 0xfe6f), (0xff01, 0xff60), (0xffe0, 0xffe6),
    (0x1f300, 0x1f64f), (0x1f680, 0x1f6ff), (0x1f900, 0x1f9ff), (0x20000, 0x2fffd),
    (0x30000, 0x3fffd)]

/-- Runs of characters that take no column: marks on the character before them. -/
def flatRuns : List (Nat × Nat) :=
  [(0, 0x1f), (0x7f, 0x9f), (0x300, 0x36f), (0x483, 0x489), (0x591, 0x5bd), (0x610, 0x61a),
    (0x64b, 0x65f), (0x200b, 0x200f), (0x2028, 0x202e), (0x20d0, 0x20f0), (0xfe00, 0xfe0f),
    (0xfe20, 0xfe2f)]

def inRuns (runs : List (Nat × Nat)) (c : Char) : Bool :=
  runs.any fun (first, last) => first ≤ c.toNat && c.toNat ≤ last

def charColumns (c : Char) : Nat :=
  if inRuns wideRuns c then 2 else if inRuns flatRuns c then 0 else 1

def textColumns (text : List Char) : Nat :=
  text.foldl (fun columns c => columns + charColumns c) 0

/-- Cuts a text into words, each with the blanks behind it, and the first with those before it. -/
def words (fuel : Nat) (text : List Char) : List (List Char) :=
  match fuel with
  | 0 => []
  | fuel + 1 =>
    let before := text.takeWhile Text.isBlank
    let bare := (text.drop before.length).takeWhile (!Text.isBlank ·)
    if bare.isEmpty then []
    else
      let after := (text.drop (before.length + bare.length)).takeWhile Text.isBlank
      let word := before ++ bare ++ after
      word :: words fuel (text.drop word.length)

def pieces (width : Nat) (seen : List Char) : List Char → List (List Char)
  | [] => if seen.isEmpty then [] else [seen.reverse]
  | c :: rest =>
    if width < textColumns seen + charColumns c && !seen.isEmpty then
      seen.reverse :: pieces width [c] rest
    else pieces width (c :: seen) rest

def layWords (width : Nat) (present : List Char) : List (List Char) → List (List Char)
  | [] => [present]
  | word :: rest =>
    let bare := textColumns (Text.trimEndBy Text.isBlank word)
    if textColumns present + bare ≤ width then layWords width (present ++ word) rest
    else if bare ≤ width then
      if present.isEmpty then layWords width word rest else present :: layWords width word rest
    else
      let pieces := pieces width [] word
      (if present.isEmpty then [] else [present]) ++ pieces.dropLast ++
        layWords width (pieces.getLast?.getD []) rest

def trimLine (width : Nat) (line : List Char) : List Char :=
  let excess := line.length - width
  let blanks := (line.reverse.takeWhile Text.isBlank).length
  line.take (line.length - min excess blanks)

def expandTabs (column : Nat) : List Char → List Char
  | [] => []
  | '\t' :: rest =>
    let blanks := 8 - column % 8
    List.replicate blanks ' ' ++ expandTabs (column + blanks) rest
  | c :: rest => c :: expandTabs (column + charColumns c) rest

def wrapLine (width : Nat) (line : List Char) : List (List Char) :=
  let line := expandTabs 0 line
  match words (line.length + 1) line with
  | [] => [trimLine width line]
  | words => (layWords width [] words).map (trimLine width)

def isControl (c : Char) : Bool := [7, 8, 11, 12, 13].contains c.toNat

def textLines : List Char → List (List Char)
  | [] => [[]]
  | c :: rest =>
    if c = '\n' then [] :: textLines rest
    else match textLines rest with
      | [] => [[c]]
      | line :: lines => (c :: line) :: lines

def wrap (width : Nat) (text : List Char) : String :=
  let lines := (textLines (text.filter (!isControl ·))).flatMap (wrapLine width)
  String.ofList (lines.flatMap fun line => line ++ ['\n'])

end ConfigIndex.Command
