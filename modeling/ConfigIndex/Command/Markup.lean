import ConfigIndex.Text.Blank

/-!
Text with style tags in square brackets, as a screen without styles shows it: tags vanish, and a
backslash in front of a tag makes it plain text.
-/

namespace ConfigIndex.Command

structure MarkupFault where
  tag : String
  position : Nat
deriving DecidableEq, Repr

def MarkupFault.message (fault : MarkupFault) : String :=
  let rest :=
    if fault.tag == "[/]" then " has nothing to close" else " doesn't match any open tag"
  "closing tag '" ++ fault.tag ++ "' at position " ++ toString fault.position ++ rest

/-- The text between the brackets of a tag at the start of a text, and what follows the tag. A tag
starts with a small letter or one of three signs and has no bracket inside. -/
def tag? : List Char → Option (List Char × List Char)
  | '[' :: first :: rest =>
    if ('a' ≤ first && first ≤ 'z') || first = '#' || first = '/' || first = '@' then
      let inside := rest.takeWhile fun c => c ≠ '[' && c ≠ ']'
      match rest.drop inside.length with
      | ']' :: behind => some (first :: inside, behind)
      | _ => none
    else none
  | _ => none

def tagName (tag : List Char) : List Char :=
  (Text.trimBy Text.isBlank (tag.takeWhile (· ≠ '='))).map Char.toLower

def closeTag? (name : List Char) : List (List Char) → Option (List (List Char))
  | [] => none
  | tag :: rest =>
    if name.isEmpty || tag = name then some rest else (closeTag? name rest).map (tag :: ·)

def readMarkup (fuel position : Nat) (opened : List (List Char)) (text : List Char) :
    Except MarkupFault (List Char) :=
  match fuel with
  | 0 => .ok text
  | fuel + 1 =>
    match text with
    | [] => .ok []
    | c :: rest =>
      let slashes := (text.takeWhile (· = '\\')).length
      match tag? (text.drop slashes) with
      | none =>
        match text with
        | '\\' :: '[' :: rest => (readMarkup fuel (position + 2) opened rest).map ('[' :: ·)
        | _ => (readMarkup fuel (position + 1) opened rest).map (c :: ·)
      | some (tag, behind) =>
        let kept := List.replicate (slashes / 2) '\\'
        let next := position + (text.length - behind.length)
        if slashes % 2 = 1 then
          (readMarkup fuel next opened behind).map fun shown => kept ++ '[' :: tag ++ ']' :: shown
        else
          match tag with
          | '/' :: name =>
            match closeTag? (tagName name) opened with
            | none =>
              .error ⟨String.ofList ('[' :: tag ++ [']']), position + slashes⟩
            | some opened => (readMarkup fuel next opened behind).map (kept ++ ·)
          | _ => (readMarkup fuel next (tagName tag :: opened) behind).map (kept ++ ·)

def shownMarkup (text : List Char) : Except MarkupFault (List Char) :=
  readMarkup (text.length + 1) 0 [] text

end ConfigIndex.Command
