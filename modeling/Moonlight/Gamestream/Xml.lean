import Mathlib.Data.List.Basic

/-! `xml_search` of `libgamestream/xml.c`. The parser is expat, which reports a body as a sequence
of callbacks or as malformed; allocation succeeds. -/
namespace Moonlight

/-- One callback of the parser. Text is a list of bytes, one `Char` a byte. -/
inductive XmlEvent where
  | startElement (name : String)
  | endElement (name : String)
  | text (s : List Char)
  deriving DecidableEq

/-- What the parser makes of the body of a reply. -/
inductive Body where
  | malformed (error : String)
  | document (events : List XmlEvent)
  deriving DecidableEq

/-- The fields of `struct xml_query` that change. -/
structure XmlQuery where
  start : Int
  memory : List Char

/-- `_xml_start_element`, `_xml_end_element` and `_xml_write_data`. -/
def xmlEvent (node : String) (search : XmlQuery) : XmlEvent → XmlQuery
  | .startElement name => if name = node then { search with start := search.start + 1 } else search
  | .endElement name => if name = node then { search with start := search.start - 1 } else search
  | .text s => if search.start > 0 then { search with memory := search.memory ++ s } else search

/-- What `xml_search` collects from a well-formed body. -/
def xmlText (node : String) (events : List XmlEvent) : List Char :=
  (events.foldl (xmlEvent node) ⟨0, []⟩).memory

/-- A body of elements that hold nothing but text. -/
def flatDocument (fields : List (String × List Char)) : List XmlEvent :=
  .startElement "root" ::
    (fields.flatMap fun (name, s) => [.startElement name, .text s, .endElement name]) ++
    [.endElement "root"]

end Moonlight
