import ConfigIndex.Text.Digit

/-!
The longest numeral at the start of a text: digits, a fraction, an exponent.
-/

namespace ConfigIndex.Text

def fraction (text : List Char) : List Char :=
  match text with
  | '.' :: rest =>
    let digits := rest.takeWhile isDecimal
    if digits.isEmpty then [] else '.' :: digits
  | _ => []

def exponent (text : List Char) : List Char :=
  match text with
  | e :: rest =>
    if e = 'e' || e = 'E' then
      let sign := match rest with
        | '+' :: _ => ['+']
        | '-' :: _ => ['-']
        | _ => []
      let digits := (rest.drop sign.length).takeWhile isDecimal
      if digits.isEmpty then [] else e :: sign ++ digits
    else []
  | [] => []

def numeral? (text : List Char) : Option (List Char) :=
  let whole := text.takeWhile isDecimal
  if whole.isEmpty then none
  else
    let rest := text.drop whole.length
    let fraction := fraction rest
    some (whole ++ fraction ++ exponent (rest.drop fraction.length))

end ConfigIndex.Text
