import Moonlight.Gamestream.AppList

/-! The list of `xml_applist` as a function of the document: each `App` adds an entry, and an `ID`
or `AppTitle` without child elements fills in the entry of the last `App` that was opened. -/
namespace Moonlight

open Lib.Memory

/-- What `xml_applist` takes notice of. -/
inductive Mark where
  | app
  | id (s : List Char)
  | title (s : List Char)
  deriving DecidableEq

/-- An `ID` or `AppTitle` counts where it has no child element. -/
def fieldMark (name : String) (content : XmlContent) : List Mark :=
  match content.textOnly with
  | none => []
  | some s => if name = "ID" then [.id s] else if name = "AppTitle" then [.title s] else []

/-- The start tags of `App` and the fields that count, in document order. -/
def marks : XmlContent → List Mark
  | .empty => []
  | .text _ next => marks next
  | .element name content next =>
    (if name = "App" then [.app] else []) ++
      (marks content ++ (fieldMark name content ++ marks next))

def AppFact.mark : List AppFact → Mark → List AppFact
  | facts, .app => ⟨none, some 0⟩ :: facts
  | [], _ => []
  | fact :: rest, .id s => { fact with id := (withText none s).map atoi } :: rest
  | fact :: rest, .title s => { fact with name := some (withText none s) } :: rest

variable {content next : XmlContent} {events : List XmlEvent} {l : Listing} {name : String}
  {s : List Char} {ms : List Mark} {fact : AppFact} {facts : List AppFact}

theorem withText_append (r : Option (List Char)) (s t : List Char) :
    withText (withText r s) t = withText r (s ++ t) := by
  by_cases hs : s = []
  · simp [withText, hs]
  · by_cases ht : t = []
    · simp [withText, hs, ht]
    · simp [withText, hs, ht]

/-- Text in pieces is received like text in one piece. -/
theorem listing_chunks (chunks : List (List Char)) (l : Listing) :
    (chunks.map XmlEvent.text).foldl Listing.event l = l.event (.text chunks.flatten) := by
  induction chunks generalizing l with
  | nil =>
    have hid : (fun r => withText r []) = (id : Option (List Char) → Option (List Char)) := by
      funext r
      simp [withText]
    simp [Listing.event, hid]
  | cons s chunks ih =>
    rw [List.map_cons, List.foldl_cons, ih, List.flatten_cons]
    simp [Listing.event, Function.comp_def, withText_append]

/-- Text alone leaves no marks. -/
theorem marks_textOnly (h : content.textOnly = some s) : marks content = [] := by
  refine XmlContent.textOnly_induction (motive := fun content _ => marks content = []) rfl ?_ h
  intro t next s ih
  exact ih

/-- Elements of other names make no mark at their end. -/
theorem fieldMark_other (hid : name ≠ "ID") (htitle : name ≠ "AppTitle") (content : XmlContent) :
    fieldMark name content = [] := by
  cases htext : content.textOnly <;> simp [fieldMark, htext, hid, htitle]

theorem Listing.finish_none (h : l.received = none) (name : String) : l.finish name = l := by
  unfold Listing.finish
  rw [h]

theorem Listing.finish_nil (h : l.facts = []) (name : String) : l.finish name = l := by
  unfold Listing.finish
  rw [h]
  split
  · next heq => cases heq
  · rfl

theorem Listing.finish_cons {r : Option (List Char)} (hrec : l.received = some r)
    (hfacts : l.facts = fact :: facts) (name : String) :
    l.finish name =
      if name = "ID" then ⟨none, { fact with id := r.map atoi } :: facts⟩
      else if name = "AppTitle" then ⟨none, { fact with name := some r } :: facts⟩
      else ⟨none, fact :: facts⟩ := by
  unfold Listing.finish
  rw [hrec, hfacts]

/-- After an end tag nothing is open, once there is an entry. -/
theorem Listing.finish_closed (l : Listing) (name : String) (h : (l.finish name).facts ≠ []) :
    (l.finish name).received = none := by
  cases hrec : l.received with
  | none => rw [l.finish_none hrec, hrec]
  | some r =>
    cases hfacts : l.facts with
    | nil =>
      rw [l.finish_nil hfacts] at h
      exact absurd hfacts h
    | cons fact rest =>
      rw [l.finish_cons hrec hfacts]
      split
      · rfl
      split <;> rfl

/-- The end tag of any other element leaves the list as it is. -/
theorem Listing.finish_other (l : Listing) (hid : name ≠ "ID") (htitle : name ≠ "AppTitle") :
    (l.finish name).facts = l.facts := by
  cases hrec : l.received with
  | none => rw [l.finish_none hrec]
  | some r =>
    cases hfacts : l.facts with
    | nil => rw [l.finish_nil hfacts, hfacts]
    | cons fact rest => rw [l.finish_cons hrec hfacts, if_neg hid, if_neg htitle]

/-- What the callbacks of a content do to the list, and when it leaves a field open. -/
structure Listed (content : XmlContent) (l l' : Listing) : Prop where
  facts : l'.facts = (marks content).foldl AppFact.mark l.facts
  textOnly : ∀ s, content.textOnly = some s → l'.received = l.received.map (withText · s)
  closed : content.textOnly = none → l'.facts ≠ [] → l'.received = none

/-- The end tag of an element makes the mark of its field. -/
theorem finish_field {l' : Listing} (h : Listed content (l.begin name) l') :
    (l'.finish name).facts = (fieldMark name content).foldl AppFact.mark l'.facts := by
  cases htext : content.textOnly with
  | none =>
    -- a child element has closed the field, or there is no entry yet
    have hmark : fieldMark name content = [] := by simp [fieldMark, htext]
    rw [hmark, List.foldl_nil]
    cases hfacts : l'.facts with
    | nil => rw [l'.finish_nil hfacts, hfacts]
    | cons fact rest =>
      rw [l'.finish_none (h.closed htext (by simp [hfacts])), hfacts]
  | some s =>
    have hrec := h.textOnly s htext
    by_cases hid : name = "ID"
    · subst hid
      have hmark : fieldMark "ID" content = [.id s] := by simp [fieldMark, htext]
      have hopen : l'.received = some (withText none s) := hrec
      rw [hmark, List.foldl_cons, List.foldl_nil]
      cases hfacts : l'.facts with
      | nil =>
        rw [l'.finish_nil hfacts, hfacts]
        rfl
      | cons fact rest => rw [l'.finish_cons hopen hfacts, if_pos rfl, AppFact.mark]
    by_cases htitle : name = "AppTitle"
    · subst htitle
      have hmark : fieldMark "AppTitle" content = [.title s] := by simp [fieldMark, htext]
      have hopen : l'.received = some (withText none s) := hrec
      rw [hmark, List.foldl_cons, List.foldl_nil]
      cases hfacts : l'.facts with
      | nil =>
        rw [l'.finish_nil hfacts, hfacts]
        rfl
      | cons fact rest =>
        rw [l'.finish_cons hopen hfacts, if_neg hid, if_pos rfl, AppFact.mark]
    rw [fieldMark_other hid htitle, List.foldl_nil, l'.finish_other hid htitle]

theorem begin_facts (l : Listing) (name : String) :
    (l.begin name).facts =
      (if name = "App" then [Mark.app] else []).foldl AppFact.mark l.facts := by
  unfold Listing.begin
  split
  · rfl
  split <;> rfl

/-- The list depends on the marks of a content alone, not on how its text is cut. -/
theorem listed_reports (h : Reports content events) (l : Listing) :
    Listed content l (events.foldl Listing.event l) := by
  induction h generalizing l with
  | empty =>
    refine ⟨rfl, fun s hs => ?_, fun hnone => by cases hnone⟩
    obtain rfl : [] = s := Option.some.inj hs
    cases hrec : l.received <;> simp [withText, hrec]
  | text chunks _ ih =>
    rw [List.foldl_append, listing_chunks]
    obtain ⟨hfacts, htext, hclosed⟩ := ih (l.event (.text chunks.flatten))
    refine ⟨hfacts, fun s hs => ?_, fun hnone => hclosed ?_⟩
    · obtain ⟨t, ht, rfl⟩ := Option.map_eq_some_iff.mp hs
      rw [htext t ht]
      simp [Listing.event, Function.comp_def, withText_append]
    · simpa [XmlContent.textOnly] using hnone
  | @element content next inner events name _ _ ihc ihn =>
    rw [List.foldl_cons, List.foldl_append, List.foldl_cons]
    have hin := ihc (l.begin name)
    have hfield := finish_field hin
    have hfin := (inner.foldl Listing.event (l.begin name)).finish_closed name
    have hout := ihn ((inner.foldl Listing.event (l.begin name)).finish name)
    refine ⟨?_, fun s hs => (by cases hs), fun _ hne => ?_⟩
    · rw [marks, List.foldl_append, List.foldl_append, List.foldl_append, ← begin_facts,
        ← hin.facts, ← hfield]
      exact hout.facts
    · cases htext : next.textOnly with
      | none => exact hout.closed htext hne
      | some s =>
        have hsame := hout.facts
        rw [marks_textOnly htext, List.foldl_nil] at hsame
        have hrec := hout.textOnly s htext
        rw [hfin (hsame ▸ hne)] at hrec
        exact hrec

end Moonlight
