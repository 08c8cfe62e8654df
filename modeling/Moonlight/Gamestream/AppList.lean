import Mathlib.Data.List.Forall2
import Moonlight.Gamestream.XmlTree

/-! `xml_applist` of `libgamestream/xml.c`, on the blocks it allocates, and what its list says: for
each entry the id and the text that its name points to. -/
namespace Moonlight

open Lib.Memory

/-- One element of `APP_LIST`. A name is NULL or an address; an id is unknown when it was read from
a block that holds no string. -/
structure AppEntry where
  name : Option Nat
  id : Option Int
  deriving DecidableEq

/-- `struct xml_query` as `xml_applist` uses it: `data` is the head of the list. -/
structure AppQuery extends XmlBuffer where
  data : List AppEntry

/-- `_xml_start_applist_element`. -/
def xmlStartApplistElement (search : AppQuery) (name : String) : AppQuery :=
  if name = "App" then { search with data := ⟨none, some 0⟩ :: search.data }
  else if name = "ID" ∨ name = "AppTitle" then
    { search with
      heap := alloc search.heap [none]
      memory := search.heap.length
      size := 0
      start := 1 }
  else search

/-- `_xml_end_applist_element`. -/
def xmlEndApplistElement (search : AppQuery) (name : String) : AppQuery :=
  if search.start = 0 then search
  else
    match search.data with
    | [] => search
    | list :: rest =>
      if name = "ID" then
        { search with
          data :=
            { list with
              id := (readString (blockBytes search.heap search.memory)).map atoi } :: rest
          heap := free search.heap search.memory
          start := 0 }
      else if name = "AppTitle" then
        { search with
          data := { list with name := some search.memory } :: rest
          start := 0 }
      else { search with start := 0 }

def xmlApplistEvent (search : AppQuery) : XmlEvent → AppQuery
  | .startElement name => xmlStartApplistElement search name
  | .endElement name => xmlEndApplistElement search name
  | .text s => { search with toXmlBuffer := xmlWriteData search.toXmlBuffer s }

/-- What `xml_applist` starts with. -/
def appQuery : AppQuery := ⟨xmlSearchBuffer, []⟩

/-- `xml_applist`: the memory and the list it returns with `GS_OK`, or the text of `gs_error`. -/
def xmlApplist : Body → Except String (Heap × List AppEntry)
  | .malformed error => .error error
  | .document events =>
    let query := events.foldl xmlApplistEvent appQuery
    .ok (query.heap, query.data)

/-- What one entry says. The name is NULL, blank (nothing was written to its block) or a text. -/
structure AppFact where
  name : Option (Option (List Char))
  id : Option Int

/-- What the list says so far, and the text received for an open `ID` or `AppTitle`. -/
structure Listing where
  received : Option (Option (List Char))
  facts : List AppFact

def Listing.begin (l : Listing) (name : String) : Listing :=
  if name = "App" then { l with facts := ⟨none, some 0⟩ :: l.facts }
  else if name = "ID" ∨ name = "AppTitle" then { l with received := some none }
  else l

def Listing.finish (l : Listing) (name : String) : Listing :=
  match l.received, l.facts with
  | some r, fact :: rest =>
    if name = "ID" then ⟨none, { fact with id := r.map atoi } :: rest⟩
    else if name = "AppTitle" then ⟨none, { fact with name := some r } :: rest⟩
    else ⟨none, fact :: rest⟩
  | _, _ => l

/-- A text behind the one received so far. -/
def withText (r : Option (List Char)) (s : List Char) : Option (List Char) :=
  if s = [] then r else some (r.getD [] ++ s)

def Listing.event (l : Listing) : XmlEvent → Listing
  | .startElement name => l.begin name
  | .endElement name => l.finish name
  | .text s => { l with received := l.received.map (withText · s) }

variable {heap : Heap} {p : Nat} {b : Bytes} {blank : Bytes → Prop} {search : AppQuery}
  {l : Listing} {r : Option (List Char)} {e : AppEntry} {data : List AppEntry} {fact : AppFact}
  {facts : List AppFact} {events : List XmlEvent}

/-- The bytes of a block that received this text; `blank` says what it holds before. -/
def Contents (blank : Bytes → Prop) (b : Bytes) : Option (List Char) → Prop
  | none => blank b
  | some s => b = terminated s

/-- The entry in memory says this: its name has a live block with the right bytes. -/
structure Tells (blank : Bytes → Prop) (heap : Heap) (e : AppEntry) (fact : AppFact) : Prop where
  null : e.name = none ↔ fact.name = none
  name : ∀ p, e.name = some p → ∃ r b, fact.name = some r ∧ Holds heap p b ∧ Contents blank b r
  id : ∀ v, fact.id = some v → e.id = some v

/-- The open element has a block of its own, which no entry's name points to. -/
structure Receives (blank : Bytes → Prop) (search : AppQuery) (r : Option (List Char)) : Prop where
  start : search.start = 1
  block : ∃ b, Holds search.heap search.memory b ∧ Contents blank b r
  size : search.size = (r.getD []).length
  own : ∀ e ∈ search.data, e.name ≠ some search.memory

/-- The query in memory and what it says. -/
structure Pictures (blank : Bytes → Prop) (search : AppQuery) (l : Listing) : Prop where
  idle : l.received = none → search.start = 0
  receives : ∀ r, l.received = some r → Receives blank search r
  tells : List.Forall₂ (Tells blank search.heap) search.data l.facts

theorem Tells.lt (h : Tells blank heap e fact) (hname : e.name = some p) : p < heap.length := by
  obtain ⟨r, b, _, hholds, _⟩ := h.name p hname
  exact hholds.lt

theorem Tells.alloc (h : Tells blank heap e fact) : Tells blank (alloc heap b) e fact where
  null := h.null
  name p hp := by
    obtain ⟨r, b', hr, hholds, hb⟩ := h.name p hp
    exact ⟨r, b', hr, hholds.alloc, hb⟩
  id := h.id

theorem Tells.free (h : Tells blank heap e fact) (hne : e.name ≠ some p) :
    Tells blank (free heap p) e fact where
  null := h.null
  name q hq := by
    obtain ⟨r, b, hr, hholds, hb⟩ := h.name q hq
    refine ⟨r, b, hr, hholds.free ?_, hb⟩
    rintro rfl
    exact hne hq
  id := h.id

theorem tells_alloc (h : List.Forall₂ (Tells blank heap) data facts) :
    List.Forall₂ (Tells blank (alloc heap b)) data facts :=
  h.imp fun _ _ htells => htells.alloc

theorem tells_free (h : List.Forall₂ (Tells blank heap) data facts)
    (hne : ∀ e ∈ data, e.name ≠ some p) : List.Forall₂ (Tells blank (free heap p)) data facts := by
  induction h with
  | nil => exact .nil
  | cons hhead _ ih =>
    exact .cons (hhead.free (hne _ (by simp))) (ih fun e he => hne e (by simp [he]))

/-- No name points to a block that is yet to be allocated. -/
theorem tells_fresh (h : List.Forall₂ (Tells blank heap) data facts) :
    ∀ e ∈ data, e.name ≠ some heap.length := by
  induction h with
  | nil => simp
  | cons hhead _ ih =>
    intro e he hname
    rcases List.mem_cons.mp he with rfl | he
    · exact absurd (hhead.lt hname) (by simp)
    · exact ih e he hname

/-- A block that is extended holds the old text and the new one. -/
theorem contents_withText (hb : Contents blank b r) (s : List Char)
    (hblank : s = [] → blank (terminated [])) :
    Contents blank (b.take (r.getD []).length ++ terminated s) (withText r s) := by
  cases r with
  | none =>
    by_cases hs : s = []
    · simpa [withText, hs, Contents] using hblank hs
    · simp [withText, hs, Contents]
  | some t =>
    obtain rfl : b = terminated t := hb
    by_cases hs : s = []
    · have htake := take_terminated t []
      rw [List.append_nil] at htake
      simpa [withText, hs, Contents] using htake
    · simpa [withText, hs, Contents] using take_terminated t s

theorem length_withText (r : Option (List Char)) (s : List Char) :
    ((withText r s).getD []).length = (r.getD []).length + s.length := by
  by_cases hs : s = [] <;> simp [withText, hs]

theorem pictures_begin (h : Pictures blank search l) (hblank : blank [none]) (name : String) :
    Pictures blank (xmlStartApplistElement search name) (l.begin name) := by
  obtain ⟨hidle, hreceives, htells⟩ := h
  unfold xmlStartApplistElement Listing.begin
  split
  · refine ⟨hidle, fun r hr => ?_, .cons ⟨by simp, by simp, by simp⟩ htells⟩
    obtain ⟨hstart, hblock, hsize, hown⟩ := hreceives r hr
    refine ⟨hstart, hblock, hsize, fun e he => ?_⟩
    rcases List.mem_cons.mp he with rfl | he
    · simp
    · exact hown e he
  split
  · refine ⟨by simp, fun r hr => ?_, tells_alloc htells⟩
    obtain rfl : none = r := Option.some.inj hr
    exact ⟨rfl, ⟨[none], holds_alloc_self, hblank⟩, rfl, tells_fresh htells⟩
  · exact ⟨hidle, hreceives, htells⟩

theorem pictures_finish (h : Pictures blank search l) (name : String) :
    Pictures blank (xmlEndApplistElement search name) (l.finish name) := by
  obtain ⟨hidle, hreceives, htells⟩ := id h
  unfold xmlEndApplistElement Listing.finish
  cases hrec : l.received with
  | none =>
    rw [if_pos (hidle hrec)]
    exact h
  | some r =>
    obtain ⟨hstart, ⟨b, hblock, hb⟩, hsize, hown⟩ := hreceives r hrec
    rw [if_neg (by omega)]
    cases hdata : search.data with
    | nil =>
      rw [hdata] at htells
      cases hfacts : l.facts with
      | nil => exact h
      | cons fact rest =>
        rw [hfacts] at htells
        cases htells
    | cons e rest =>
      rw [hdata] at htells hown
      cases hfacts : l.facts with
      | nil =>
        rw [hfacts] at htells
        cases htells
      | cons fact rest' =>
        rw [hfacts] at htells
        obtain ⟨hhead, htail⟩ := List.forall₂_cons.mp htells
        dsimp only
        split
        · -- the id is read before its block is freed
          have hfree := tells_free htells hown
          obtain ⟨hhead', htail'⟩ := List.forall₂_cons.mp hfree
          refine ⟨fun _ => rfl, by simp, .cons ⟨hhead'.null, hhead'.name, fun v hv => ?_⟩ htail'⟩
          obtain ⟨s, rfl, rfl⟩ := Option.map_eq_some_iff.mp hv
          obtain rfl : b = terminated s := hb
          rw [hblock.blockBytes, readString_terminated]
          simp [atoi, Lib.Stdio.strtol_cstring]
        split
        · refine ⟨fun _ => rfl, by simp, .cons ⟨by simp, fun p hp => ?_, hhead.id⟩ htail⟩
          obtain rfl := Option.some.inj hp
          exact ⟨r, b, rfl, hblock, hb⟩
        · exact ⟨fun _ => rfl, by simp, htells⟩

theorem pictures_text (h : Pictures blank search l) (s : List Char)
    (hblank : s = [] → blank (terminated [])) :
    Pictures blank { search with toXmlBuffer := xmlWriteData search.toXmlBuffer s }
      { l with received := l.received.map (withText · s) } := by
  obtain ⟨hidle, hreceives, htells⟩ := h
  unfold xmlWriteData
  cases hrec : l.received with
  | none =>
    rw [if_neg (by have := hidle hrec; omega)]
    exact ⟨fun _ => hidle hrec, by simp, htells⟩
  | some r =>
    obtain ⟨hstart, ⟨b, hblock, hb⟩, hsize, hown⟩ := hreceives r hrec
    rw [if_pos (by omega), hblock.blockBytes, hsize]
    have hfree := tells_free htells hown
    refine ⟨by simp, fun r' hr => ?_, tells_alloc hfree⟩
    obtain rfl := Option.some.inj hr
    have hnew (b : Bytes) : Holds (alloc (free search.heap search.memory) b)
        search.heap.length b := by
      have hself : Holds (alloc (free search.heap search.memory) b)
        (free search.heap search.memory).length b := holds_alloc_self
      rwa [length_free] at hself
    have hfresh := tells_fresh hfree
    rw [length_free] at hfresh
    exact ⟨hstart, ⟨_, hnew _, contents_withText hb s hblank⟩, (length_withText r s).symm, hfresh⟩

theorem pictures_step (h : Pictures blank search l) (hblank : blank [none]) (event : XmlEvent)
    (htext : event = .text [] → blank (terminated [])) :
    Pictures blank (xmlApplistEvent search event) (l.event event) := by
  cases event with
  | startElement name => exact pictures_begin h hblank name
  | endElement name => exact pictures_finish h name
  | text s => exact pictures_text h s fun hs => htext (congrArg XmlEvent.text hs)

/-- The list in memory says what the events say. -/
theorem pictures_run (h : Pictures blank search l) (hblank : blank [none])
    (htext : .text [] ∈ events → blank (terminated [])) :
    Pictures blank (events.foldl xmlApplistEvent search) (events.foldl Listing.event l) := by
  induction events generalizing search l with
  | nil => exact h
  | cons event events ih =>
    refine ih (pictures_step h hblank event fun he => htext ?_) fun hmem => htext ?_
    · rw [he]
      exact List.mem_cons_self
    · exact List.mem_cons_of_mem _ hmem

theorem pictures_start : Pictures blank appQuery ⟨none, []⟩ := ⟨fun _ => rfl, by simp, .nil⟩

end Moonlight
