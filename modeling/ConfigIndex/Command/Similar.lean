/-!
Words that look like a mistyped one. Two words are alike if the pieces that they share, taken
longest first, make up most of both.
-/

namespace ConfigIndex.Command

def commonStart : List Char → List Char → Nat
  | a :: as, b :: bs => if a = b then commonStart as bs + 1 else 0
  | _, _ => 0

structure SharedPiece where
  left : Nat := 0
  right : Nat := 0
  length : Nat := 0

def longestPiece (left right : List Char) : SharedPiece :=
  let places := (List.range left.length).flatMap fun i =>
    (List.range right.length).map fun j => (i, j)
  places.foldl (fun best (i, j) =>
    let length := commonStart (left.drop i) (right.drop j)
    if best.length < length then ⟨i, j, length⟩ else best) {}

/-- How many characters the pieces that two texts share have in all: the longest piece, and then
those on either side of it. -/
def sharedLength (fuel : Nat) (left right : List Char) : Nat :=
  match fuel with
  | 0 => 0
  | fuel + 1 =>
    let piece := longestPiece left right
    if piece.length = 0 then 0
    else
      sharedLength fuel (left.take piece.left) (right.take piece.right) + piece.length +
        sharedLength fuel (left.drop (piece.left + piece.length))
          (right.drop (piece.right + piece.length))

def isSimilar (left right : String) : Bool :=
  let shared := sharedLength left.toList.length left.toList right.toList
  3 * (left.toList.length + right.toList.length) ≤ 10 * shared

def similar (word : String) (words : List String) : List String :=
  (words.filter fun other => isSimilar other word).mergeSort

end ConfigIndex.Command
