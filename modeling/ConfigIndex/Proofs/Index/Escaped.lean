import ConfigIndex.Index.Collect
import ConfigIndex.Proofs.Document.Interpolations
import ConfigIndex.Proofs.Template.Concealed

/-!
Any text can be written in a string of a document. With its escapes it neither ends the string nor
opens an interpolation, for the reader of the document and for the reader of the template alike.
-/

namespace ConfigIndex

open Document (Token File)
open Template (concealed)

namespace Document

open Text (Pattern)

def escapedChar (c : Char) : List Char :=
  if c = '\\' then ['\\', '\\']
  else if c = '"' then ['\\', '"']
  else if c = '\n' then ['\\', 'n']
  else [c]

def escaped (text : List Char) : List Char := concealed escapedChar text

theorem escapedChar_cases (c : Char) :
    (∃ d, d ≠ '\n' ∧ d ≠ '$' ∧ escapedChar c = ['\\', d]) ∨
      escapedChar c = [c] ∧ c ≠ '"' ∧ c ≠ '\n' ∧ c ≠ '\\' := by
  unfold escapedChar
  by_cases backslash : c = '\\'
  · exact Or.inl ⟨'\\', by decide, by decide, if_pos backslash⟩
  by_cases quote : c = '"'
  · exact Or.inl ⟨'"', by decide, by decide, by rw [if_neg backslash, if_pos quote]⟩
  by_cases newline : c = '\n'
  · refine Or.inl ⟨'n', by decide, by decide, ?_⟩
    rw [if_neg backslash, if_neg quote, if_pos newline]
  · exact Or.inr ⟨by rw [if_neg backslash, if_neg quote, if_neg newline], quote, newline, backslash⟩

theorem escapes_escapedChar : Template.Escapes escapedChar :=
  fun c => (escapedChar_cases c).imp_right And.left

/-- The reader of a string stops at the quote behind the text that is written in it. -/
theorem closeString_escaped (text seen tail : List Char) :
    closeString .text seen (escaped text ++ '"' :: tail) =
      some (seen.reverse ++ escaped text ++ ['"']) := by
  rw [← next_eq_closeString]
  change textNext _ _ = _
  unfold escaped
  fun_induction concealed escapedChar text generalizing seen with
  | case1 rest ih =>
      simp only [List.cons_append]
      rw [textNext_dollars, ih]
      simp
  | case2 c rest apart ih =>
      rw [List.append_assoc]
      rcases escapedChar_cases c with ⟨d, inside, _, pair⟩ | ⟨single, quote, newline, backslash⟩
      · simp only [pair, List.cons_append, List.nil_append]
        rw [textNext_escape, inLine, Pattern.one_after, if_pos (by simp [inside]), ih]
        simp
      · simp only [single, List.cons_append, List.nil_append]
        by_cases dollar : c = '$'
        · subst dollar
          rw [textNext_dollar, ih]
          · simp
          · exact fun more => escapes_escapedChar.opening (by simp) (by simp)
          · intro more brace
            obtain ⟨others, same⟩ := escapes_escapedChar.brace (by simp) brace
            exact apart others rfl same
        · rw [textNext_plain quote newline backslash dollar, ih]
          simp
  | case3 =>
      rw [List.nil_append, textNext_quote]
      simp

theorem string_escaped (text : List Char) :
    stringPattern.first? ('"' :: (escaped text ++ ['"'])) =
      some ('"' :: (escaped text ++ ['"'])) := by
  rw [stringPattern_first?]
  exact closeString_escaped text ['"'] []

end Document

theorem Template.readText_escaped (text : List Char) :
    readText [] ('"' :: (Document.escaped text ++ ['"'])) =
      '"' :: (Document.escaped text ++ ['"']) := by
  rw [readText_plain (by simp), Document.escaped,
    Document.escapes_escapedChar.readText (by simp) (by simp)]
  simp [readText]

theorem literalMentions_escaped (path : String) (kind : Document.TokenKind) (text : List Char)
    (position : Position) :
    literalMentions path
      ⟨kind, String.ofList ('"' :: (Document.escaped text ++ ['"'])), position⟩ = .ok [] := by
  have read := @Template.parseChars_text position.toPoint _ (List.cons_ne_nil _ _)
    (Template.readText_escaped text)
  simp only [literalMentions, Template.parseAt, String.toList_ofList, read]
  rfl

/-- Whatever text stands in a string with its escapes, the string is one literal of the document,
and nothing is found in it. -/
theorem collect_escaped (text : String) :
    let string := "\"" ++ String.ofList (Document.escaped text.toList) ++ "\""
    let file : File := ⟨[⟨[⟨.ident, "x", .start⟩],
      some (.literal ⟨.string, string, ⟨"", 4, 1, 5⟩⟩), some ⟨"", 2, 1, 3⟩, []⟩], []⟩
    Document.parse ("x = " ++ string) = .ok file ∧
      ∀ (index : Index) (rules : Rules) (path : String),
        index.collect rules path (.text ("x = " ++ string)) =
          ({ index := { index with
              rawTree := if rules.keepTree then some (.document file) else index.rawTree } },
            none) := by
  intro string file
  have chars : string = String.ofList ('"' :: (Document.escaped text.toList ++ ['"'])) := by
    apply String.toList_injective
    simp [string]
  have source : ("x = " ++ string).toList =
      'x' :: ' ' :: '=' :: ' ' :: '"' :: (Document.escaped text.toList ++ ['"']) := by
    simp [string]
  have read : Document.parse ("x = " ++ string) = .ok file := by
    rw [Document.parse, source]
    have parsed := Document.parseChars_string (Document.string_escaped text.toList)
    rw [← chars] at parsed
    exact parsed
  refine ⟨read, fun index rules path => ?_⟩
  have nothing := literalMentions_escaped path .string text.toList ⟨"", 4, 1, 5⟩
  rw [← chars] at nothing
  have literals : file.root.literals = [⟨.string, string, ⟨"", 4, 1, 5⟩⟩] := rfl
  have classified : index.classify path file.items = index := rfl
  have events : classifyEvents path file.items = [] := rfl
  simp only [Index.collect, Document.Content.parse, read, Index.collectFile, literals, classified,
    events, resolveAll, nothing, Index.addMentions, List.foldl_nil, List.filterMap_nil]
  cases rules.keepTree with
  | true => rfl
  | false => rfl

end ConfigIndex
