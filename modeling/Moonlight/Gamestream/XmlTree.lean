import Mathlib.Data.List.Count
import Moonlight.Lib.Memory
import Moonlight.Gamestream.Client

/-! `xml_search` on the tree of a document: what it returns is the text below the elements of one
name, however the parser cuts the text into callbacks. -/
namespace Moonlight

open Lib.Memory

/-- What an element holds: text and elements in document order. -/
inductive XmlContent where
  | empty
  | text (s : List Char) (next : XmlContent)
  | element (name : String) (content next : XmlContent)

/-- The callbacks the parser makes for a content, with each text cut anywhere. -/
inductive Reports : XmlContent → List XmlEvent → Prop where
  | empty : Reports .empty []
  | text {next : XmlContent} {events : List XmlEvent} (chunks : List (List Char))
      (hnext : Reports next events) :
      Reports (.text chunks.flatten next) (chunks.map .text ++ events)
  | element {content next : XmlContent} {inner events : List XmlEvent} (name : String)
      (hcontent : Reports content inner) (hnext : Reports next events) :
      Reports (.element name content next)
        (.startElement name :: (inner ++ .endElement name :: events))

/-- The text that has an element of one name among its ancestors. -/
def textBelow (node : String) (ancestors : List String) : XmlContent → List Char
  | .empty => []
  | .text s next => (if node ∈ ancestors then s else []) ++ textBelow node ancestors next
  | .element name content next =>
    textBelow node (name :: ancestors) content ++ textBelow node ancestors next

/-- The text of a content without elements. -/
def XmlContent.textOnly : XmlContent → Option (List Char)
  | .empty => some []
  | .text s next => next.textOnly.map (s ++ ·)
  | .element _ _ _ => none

/-- A document: its root element alone. -/
def xmlDocument (root : String) (content : XmlContent) : XmlContent := .element root content .empty

/-- `struct xml_query` without `data`, beside the blocks allocated so far. -/
structure XmlBuffer where
  heap : Heap
  memory : Nat
  size : Nat
  start : Int

/-- `_xml_write_data`. `realloc` gives a new block each time. -/
def xmlWriteData (search : XmlBuffer) (s : List Char) : XmlBuffer :=
  if search.start > 0 then
    { search with
      heap := alloc (free search.heap search.memory)
        ((blockBytes search.heap search.memory).take search.size ++ terminated s)
      memory := search.heap.length
      size := search.size + s.length }
  else search

/-- The callbacks of `xml_search` on the buffer. -/
def xmlSearchEvent (node : String) (search : XmlBuffer) : XmlEvent → XmlBuffer
  | .startElement name => if name = node then { search with start := search.start + 1 } else search
  | .endElement name => if name = node then { search with start := search.start - 1 } else search
  | .text s => xmlWriteData search s

/-- What `xml_search` starts with: one zeroed byte. -/
def xmlSearchBuffer : XmlBuffer := ⟨[some (terminated [])], 0, 0, 0⟩

variable {node : String} {ancestors : List String} {content : XmlContent} {events : List XmlEvent}
  {search : XmlBuffer} {query : XmlQuery} {s t : List Char}

/-- A content without elements is a row of texts. -/
theorem XmlContent.textOnly_induction {motive : XmlContent → List Char → Prop}
    (empty : motive .empty [])
    (text : ∀ t next s, motive next s → motive (.text t next) (t ++ s))
    (h : content.textOnly = some s) : motive content s := by
  induction content generalizing s with
  | empty =>
    obtain rfl : [] = s := Option.some.inj h
    exact empty
  | text t next ih =>
    obtain ⟨u, hu, rfl⟩ := Option.map_eq_some_iff.mp h
    exact text t next u (ih hu)
  | element name content next => cases h

/-- The buffer is a live block that holds this text and its NUL. -/
structure XmlBuffer.Holding (search : XmlBuffer) (s : List Char) : Prop where
  block : Holds search.heap search.memory (terminated s)
  size : search.size = s.length

theorem XmlBuffer.Holding.write (h : search.Holding s) (hstart : search.start > 0) :
    (xmlWriteData search t).Holding (s ++ t) := by
  obtain ⟨hblock, hsize⟩ := h
  rw [xmlWriteData, if_pos hstart, hblock.blockBytes, hsize, take_terminated]
  refine ⟨?_, by simp⟩
  have hnew : Holds (alloc (free search.heap search.memory) (terminated (s ++ t)))
    (free search.heap search.memory).length (terminated (s ++ t)) := holds_alloc_self
  rwa [length_free] at hnew

/-- The buffer holds what the query has collected. -/
def Buffers (search : XmlBuffer) (query : XmlQuery) : Prop :=
  search.start = query.start ∧ search.Holding query.memory

theorem buffers_step (h : Buffers search query) (e : XmlEvent) :
    Buffers (xmlSearchEvent node search e) (xmlEvent node query e) := by
  obtain ⟨hstart, hmem⟩ := h
  cases e with
  | startElement name =>
    by_cases hname : name = node
    · simp only [xmlSearchEvent, xmlEvent, if_pos hname]
      exact ⟨congrArg (· + 1) hstart, hmem.block, hmem.size⟩
    · simp only [xmlSearchEvent, xmlEvent, if_neg hname]
      exact ⟨hstart, hmem⟩
  | endElement name =>
    by_cases hname : name = node
    · simp only [xmlSearchEvent, xmlEvent, if_pos hname]
      exact ⟨congrArg (· - 1) hstart, hmem.block, hmem.size⟩
    · simp only [xmlSearchEvent, xmlEvent, if_neg hname]
      exact ⟨hstart, hmem⟩
  | text s =>
    by_cases hpos : query.start > 0
    · simp only [xmlSearchEvent, xmlEvent, if_pos hpos]
      refine ⟨?_, hmem.write (hstart ▸ hpos)⟩
      rw [xmlWriteData, if_pos (hstart ▸ hpos)]
      exact hstart
    · simp only [xmlSearchEvent, xmlEvent, if_neg hpos]
      rw [xmlWriteData, if_neg (hstart ▸ hpos)]
      exact ⟨hstart, hmem⟩

theorem buffers_run (h : Buffers search query) (events : List XmlEvent) :
    Buffers (events.foldl (xmlSearchEvent node) search) (events.foldl (xmlEvent node) query) := by
  induction events generalizing search query with
  | nil => exact h
  | cons e events ih => exact ih (buffers_step h e)

theorem buffers_start : Buffers xmlSearchBuffer ⟨0, []⟩ := ⟨rfl, rfl, rfl⟩

/-- Text in pieces is collected like text in one piece. -/
theorem xmlEvent_chunks (chunks : List (List Char)) (query : XmlQuery) :
    (chunks.map XmlEvent.text).foldl (xmlEvent node) query =
      xmlEvent node query (.text chunks.flatten) := by
  induction chunks generalizing query with
  | nil => simp [xmlEvent]
  | cons s chunks ih =>
    rw [List.map_cons, List.foldl_cons, ih, List.flatten_cons]
    by_cases hpos : query.start > 0
    · simp [xmlEvent, hpos]
    · simp [xmlEvent, hpos]

/-- Over a content the counter goes back to the number of open elements of the name, and the text
below them is appended. -/
theorem xmlEvent_reports (h : Reports content events) (ancestors : List String)
    (memory : List Char) :
    events.foldl (xmlEvent node) ⟨ancestors.count node, memory⟩ =
      ⟨ancestors.count node, memory ++ textBelow node ancestors content⟩ := by
  induction h generalizing ancestors memory with
  | empty => simp [textBelow]
  | text chunks _ ih =>
    rw [List.foldl_append, xmlEvent_chunks]
    by_cases hmem : node ∈ ancestors
    · have hpos : (0 : Int) < ancestors.count node := by
        exact_mod_cast List.count_pos_iff.mpr hmem
      simp only [xmlEvent, if_pos hpos, textBelow, if_pos hmem]
      rw [ih, List.append_assoc]
    · have hzero : ¬ (0 : Int) < ancestors.count node := by
        simp [List.count_eq_zero_of_not_mem hmem]
      simp only [xmlEvent, if_neg hzero, textBelow, if_neg hmem]
      rw [ih, List.nil_append]
  | element name _ _ ihc ihn =>
    have hin : xmlEvent node ⟨ancestors.count node, memory⟩ (.startElement name) =
        ⟨(name :: ancestors).count node, memory⟩ := by
      by_cases hname : name = node
      · simp [xmlEvent, hname]
      · simp [xmlEvent, hname]
    have hout (memory : List Char) :
        xmlEvent node ⟨(name :: ancestors).count node, memory⟩ (.endElement name) =
        ⟨ancestors.count node, memory⟩ := by
      by_cases hname : name = node
      · simp [xmlEvent, hname]
      · simp [xmlEvent, hname]
    rw [List.foldl_cons, hin, List.foldl_append, ihc, List.foldl_cons, hout, ihn, textBelow,
      List.append_assoc]

theorem xmlText_reports (h : Reports content events) :
    xmlText node events = textBelow node [] content := by
  have hfold : events.foldl (xmlEvent node) ⟨0, []⟩ = _ := xmlEvent_reports h [] []
  exact congrArg XmlQuery.memory hfold

/-- `xml_search` returns the text projection of the document, in a live block that ends it with
NUL, and its depth counter is back at 0. -/
theorem xml_search_projects {root : String} (h : Reports (xmlDocument root content) events)
    (node : String) (w : World) :
    xmlSearch (.document events) node w =
      (.next (textBelow node [] (xmlDocument root content)), w) ∧
    (events.foldl (xmlSearchEvent node) xmlSearchBuffer).Holding
      (textBelow node [] (xmlDocument root content)) ∧
    (events.foldl (xmlSearchEvent node) xmlSearchBuffer).start = 0 := by
  have hfold : events.foldl (xmlEvent node) ⟨0, []⟩ = _ := xmlEvent_reports h [] []
  have hrun : Buffers (events.foldl (xmlSearchEvent node) xmlSearchBuffer) _ :=
    buffers_run buffers_start events
  obtain ⟨hstart, hmem⟩ := hrun
  rw [hfold] at hstart hmem
  refine ⟨?_, hmem, hstart⟩
  rw [← xmlText_reports h]
  rfl

/-- An element within one of the same name, with the text in two pieces. -/
theorem xml_search_projects_nested :
    xmlSearch (.document [.startElement "a", .text ['1'], .startElement "a", .text ['2'],
      .text ['3'], .endElement "a", .endElement "a"]) "a" (.enter ⟨true, false, 0, 7⟩) =
      (.next ['1', '2', '3'], .enter ⟨true, false, 0, 7⟩) := by
  have hreports : Reports (xmlDocument "a" (.text ['1'] (.element "a" (.text ['2', '3'] .empty)
      .empty))) _ :=
    .element "a" (.text [['1']] (.element "a" (.text [['2'], ['3']] .empty) .empty)) .empty
  exact (xml_search_projects hreports "a" (.enter ⟨true, false, 0, 7⟩)).1

end Moonlight
