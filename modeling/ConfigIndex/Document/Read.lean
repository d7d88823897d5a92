import ConfigIndex.Document.Check
import ConfigIndex.Document.Lead
import ConfigIndex.Text.Utf8
import ConfigIndex.Report

/-!
Reading a configuration document from text or from bytes.
-/

namespace ConfigIndex.Document

def parseChars (text : List Char) : Except Error File :=
  let scan := scan text
  match scan.items with
  | .error error => .error error
  | .ok items =>
    match Item.firstFault? 1 items with
    | some error => .error error
    | none => .ok ⟨Item.allWithLead scan.ownLine.reverse items, scan.comments⟩

def parse (text : String) : Except Error File := parseChars text.toList

def encodingError (fault : Utf8.Fault) : Error :=
  ⟨.encoding fault.reason.text, { offset := fault.start }⟩

def parseBytes (bytes : List UInt8) : Except Error File :=
  match Utf8.decode (Utf8.dropMark bytes) with
  | .error fault => .error (encodingError fault)
  | .ok text => parseChars text

inductive Content
  | text (text : String)
  | bytes (bytes : List UInt8)

def Content.parse : Content → Except Error File
  | .text source => Document.parse source
  | .bytes source => parseBytes source

def Error.report (error : Error) : Report := .documentFaulty error.message error.position

end ConfigIndex.Document
