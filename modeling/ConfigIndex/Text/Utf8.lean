/-!
Reading bytes as UTF-8. A byte sequence that no character has is reported where it starts, with
what is wrong about it.
-/

namespace ConfigIndex.Utf8

inductive Reason
  | startByte
  | continuationByte
  | endOfData
deriving DecidableEq, Repr

def Reason.text : Reason → String
  | startByte => "invalid start byte"
  | continuationByte => "invalid continuation byte"
  | endOfData => "unexpected end of data"

structure Fault where
  start : Nat
  stop : Nat
  byte : UInt8
  reason : Reason
deriving DecidableEq, Repr

def isContinuation (byte : UInt8) : Bool := 0x80 ≤ byte && byte < 0xc0

/-- Whether a byte may come second after `lead`: no overlong form, no surrogate, nothing above
the last code point. -/
def isSecond (lead byte : UInt8) : Bool :=
  isContinuation byte &&
    (if lead = 0xe0 then 0xa0 ≤ byte
     else if lead = 0xed then byte < 0xa0
     else if lead = 0xf0 then 0x90 ≤ byte
     else if lead = 0xf4 then byte < 0x90
     else true)

def payload (byte : UInt8) : Nat := (byte &&& 0x3f).toNat

def decodeFrom (start : Nat) (seen : List Char) : List UInt8 → Except Fault (List Char)
  | [] => .ok seen.reverse
  | a :: rest =>
    let fail (length : Nat) (reason : Reason) := .error ⟨start, start + length, a, reason⟩
    if a < 0x80 then decodeFrom (start + 1) (Char.ofNat a.toNat :: seen) rest
    else if a < 0xc2 then fail 1 .startByte
    else if a < 0xe0 then
      match rest with
      | [] => fail 1 .endOfData
      | b :: rest =>
        if isSecond a b then
          decodeFrom (start + 2) (Char.ofNat ((a &&& 0x1f).toNat * 64 + payload b) :: seen) rest
        else fail 1 .continuationByte
    else if a < 0xf0 then
      match rest with
      | [] => fail 1 .endOfData
      | [b] => if isSecond a b then fail 2 .endOfData else fail 1 .continuationByte
      | b :: c :: rest =>
        if !isSecond a b then fail 1 .continuationByte
        else if !isContinuation c then fail 2 .continuationByte
        else
          let code := ((a &&& 0x0f).toNat * 64 + payload b) * 64 + payload c
          decodeFrom (start + 3) (Char.ofNat code :: seen) rest
    else if a < 0xf5 then
      match rest with
      | [] => fail 1 .endOfData
      | [b] => if isSecond a b then fail 2 .endOfData else fail 1 .continuationByte
      | [b, c] =>
        if !isSecond a b then fail 1 .continuationByte
        else if isContinuation c then fail 3 .endOfData else fail 2 .continuationByte
      | b :: c :: d :: rest =>
        if !isSecond a b then fail 1 .continuationByte
        else if !isContinuation c then fail 2 .continuationByte
        else if !isContinuation d then fail 3 .continuationByte
        else
          let code := (((a &&& 0x07).toNat * 64 + payload b) * 64 + payload c) * 64 + payload d
          decodeFrom (start + 4) (Char.ofNat code :: seen) rest
    else fail 1 .startByte

def decode (bytes : List UInt8) : Except Fault (List Char) := decodeFrom 0 [] bytes

def dropMark : List UInt8 → List UInt8
  | 0xef :: 0xbb :: 0xbf :: rest => rest
  | bytes => bytes

end ConfigIndex.Utf8
