import Moonlight.Gamestream.AppListTree

/-! Which documents `xml_applist` turns into the list of their applications, and which ones leave a
name behind that no caller can read. -/
namespace Moonlight

open Lib.Memory

/-- The id and the title in an `App` element. -/
structure App where
  id : List Char
  title : List Char

/-- No element of these three names, however deep. -/
def NoFields : XmlContent → Prop
  | .empty => True
  | .text _ next => NoFields next
  | .element name content next =>
    (name ≠ "App" ∧ name ≠ "ID" ∧ name ≠ "AppTitle") ∧ NoFields content ∧ NoFields next

/-- The texts of the child elements of one name. -/
def childTexts (node : String) : XmlContent → List (List Char)
  | .empty => []
  | .text _ next => childTexts node next
  | .element name content next =>
    (if name = node then content.textOnly.toList else []) ++ childTexts node next

/-- Every `ID` and `AppTitle` child holds text alone; the others are of other names throughout. -/
def FieldsAndOthers : XmlContent → Prop
  | .empty => True
  | .text _ next => FieldsAndOthers next
  | .element name content next =>
    ((name = "ID" ∨ name = "AppTitle") ∧ content.textOnly ≠ none ∨
      (name ≠ "App" ∧ name ≠ "ID" ∧ name ≠ "AppTitle") ∧ NoFields content) ∧ FieldsAndOthers next

/-- What an `App` element holds: one `ID` and one `AppTitle`, with text in them, in either order and
among other elements. -/
structure AppContent (content : XmlContent) (app : App) : Prop where
  children : FieldsAndOthers content
  id : childTexts "ID" content = [app.id]
  title : childTexts "AppTitle" content = [app.title]
  id_ne : app.id ≠ []
  title_ne : app.title ≠ []

/-- A content with these applications in document order, and no field outside them. -/
inductive HoldsApps : XmlContent → List App → Prop where
  | empty : HoldsApps .empty []
  | text {next : XmlContent} {apps : List App} (s : List Char) (hnext : HoldsApps next apps) :
      HoldsApps (.text s next) apps
  | app {content next : XmlContent} {app : App} {apps : List App}
      (hcontent : AppContent content app) (hnext : HoldsApps next apps) :
      HoldsApps (.element "App" content next) (app :: apps)
  | other {content next : XmlContent} {inner apps : List App} {name : String}
      (hname : name ≠ "App" ∧ name ≠ "ID" ∧ name ≠ "AppTitle") (hcontent : HoldsApps content inner)
      (hnext : HoldsApps next apps) : HoldsApps (.element name content next) (inner ++ apps)

def Mark.idText : Mark → Option (List Char)
  | .id s => some s
  | _ => none

def Mark.titleText : Mark → Option (List Char)
  | .title s => some s
  | _ => none

variable {content : XmlContent} {events : List XmlEvent} {ms : List Mark} {fact : AppFact}
  {facts : List AppFact} {heap : Heap} {e : AppEntry} {app : App} {apps : List App} {root : String}

/-- Between two `App` tags the last id and the last title of an entry count. -/
theorem foldl_mark (h : .app ∉ ms) (fact : AppFact) (facts : List AppFact) :
    ms.foldl AppFact.mark (fact :: facts) =
      { name := ((ms.filterMap Mark.titleText).getLast?.map fun s => some (withText none s)).getD
          fact.name
        id := ((ms.filterMap Mark.idText).getLast?.map fun s => (withText none s).map atoi).getD
          fact.id } :: facts := by
  induction ms generalizing fact with
  | nil => rfl
  | cons m ms ih =>
    have htail : .app ∉ ms := fun hmem => h (List.mem_cons_of_mem _ hmem)
    cases m with
    | app => exact absurd List.mem_cons_self h
    | id s =>
      rw [List.foldl_cons, AppFact.mark, ih htail]
      cases hlast : (ms.filterMap Mark.idText).getLast? <;>
        simp [Mark.idText, Mark.titleText, List.getLast?_cons, hlast]
    | title s =>
      rw [List.foldl_cons, AppFact.mark, ih htail]
      cases hlast : (ms.filterMap Mark.titleText).getLast? <;>
        simp [Mark.idText, Mark.titleText, List.getLast?_cons, hlast]

theorem marks_noFields (h : NoFields content) : marks content = [] := by
  induction content with
  | empty => rfl
  | text s next ih => exact ih h
  | element name content next ihc ihn =>
    obtain ⟨⟨happ, hid, htitle⟩, hcontent, hnext⟩ := h
    rw [marks, ihc hcontent, ihn hnext, fieldMark_other hid htitle, if_neg happ]
    rfl

/-- The marks of an `App` are those of its children. -/
theorem marks_fields (h : FieldsAndOthers content) :
    .app ∉ marks content ∧ (marks content).filterMap Mark.idText = childTexts "ID" content ∧
      (marks content).filterMap Mark.titleText = childTexts "AppTitle" content := by
  induction content with
  | empty => simp [marks, childTexts]
  | text s next ih => exact ih h
  | element name content next _ ihn =>
    obtain ⟨hchild, hnext⟩ := h
    obtain ⟨hno, hids, htitles⟩ := ihn hnext
    rcases hchild with ⟨hname, htext⟩ | ⟨⟨happ, hid, htitle⟩, hcontent⟩
    · obtain ⟨s, hs⟩ := Option.ne_none_iff_exists'.mp htext
      rcases hname with rfl | rfl
      · simp [marks, marks_textOnly hs, fieldMark, hs, childTexts, hno, hids, htitles,
          List.filterMap_cons, Mark.idText, Mark.titleText]
      · simp [marks, marks_textOnly hs, fieldMark, hs, childTexts, hno, hids, htitles,
          List.filterMap_cons, Mark.idText, Mark.titleText]
    · simp [marks, marks_noFields hcontent, fieldMark_other hid htitle, happ, childTexts, hid,
        htitle, hno, hids, htitles]

/-- What the entry of an application says. -/
def App.entry (app : App) : AppFact := ⟨some (some app.title), some (atoi app.id)⟩

theorem foldl_appContent (h : AppContent content app) (facts : List AppFact) :
    (marks content).foldl AppFact.mark (⟨none, some 0⟩ :: facts) = app.entry :: facts := by
  obtain ⟨hno, hids, htitles⟩ := marks_fields h.children
  rw [foldl_mark hno, hids, htitles, h.id, h.title]
  simp [App.entry, withText, h.id_ne, h.title_ne]

/-- One entry for each application, the last one in front. -/
theorem foldl_holdsApps (h : HoldsApps content apps) (facts : List AppFact) :
    (marks content).foldl AppFact.mark facts = (apps.map App.entry).reverse ++ facts := by
  induction h generalizing facts with
  | empty => rfl
  | text s _ ih => exact ih facts
  | @app content next app apps hcontent _ ih =>
    rw [marks, fieldMark_other (by decide) (by decide), List.foldl_append, List.foldl_append,
      List.nil_append]
    simp only [if_true, List.foldl_cons, List.foldl_nil, AppFact.mark]
    rw [foldl_appContent hcontent, ih]
    simp
  | @other content next inner apps name hname _ _ ihc ihn =>
    obtain ⟨happ, hid, htitle⟩ := hname
    rw [marks, fieldMark_other hid htitle, if_neg happ, List.nil_append, List.foldl_append,
      List.nil_append, ihc, ihn]
    simp

/-- What `xml_applist` makes of a document, in terms of its marks. -/
theorem xmlApplist_reports (blank : Bytes → Prop) (h : Reports content events)
    (hblank : blank [none]) (htext : .text [] ∈ events → blank (terminated [])) :
    ∃ heap list, xmlApplist (.document events) = .ok (heap, list) ∧
      List.Forall₂ (Tells blank heap) list ((marks content).foldl AppFact.mark []) := by
  have hrun : Pictures blank (events.foldl xmlApplistEvent appQuery)
      (events.foldl Listing.event ⟨none, []⟩) := pictures_run pictures_start hblank htext
  have hlisted := (listed_reports h ⟨none, []⟩).facts
  refine ⟨_, _, rfl, ?_⟩
  rw [← hlisted]
  exact hrun.tells

/-- The entry has this application's number and its whole title, in a live block. -/
def Lists (heap : Heap) (e : AppEntry) (app : App) : Prop :=
  e.id = some (atoi app.id) ∧ ∃ p, e.name = some p ∧ Holds heap p (terminated app.title)

/-- `xml_applist` returns the applications of a document, the last one first. -/
theorem xml_applist_lists (happs : HoldsApps (xmlDocument root content) apps)
    (h : Reports (xmlDocument root content) events) :
    ∃ heap list, xmlApplist (.document events) = .ok (heap, list) ∧
      List.Forall₂ (Lists heap) list apps.reverse := by
  obtain ⟨heap, list, hlist, htells⟩ :=
    xmlApplist_reports (fun _ => True) h trivial fun _ => trivial
  refine ⟨heap, list, hlist, ?_⟩
  rw [foldl_holdsApps happs, List.append_nil, ← List.map_reverse] at htells
  refine (List.forall₂_map_right_iff.mp htells).imp fun e app he => ⟨he.id _ rfl, ?_⟩
  cases hname : e.name with
  | none => exact absurd (he.null.mp hname) (by simp [App.entry])
  | some p =>
    obtain ⟨r, b, hr, hholds, hb⟩ := he.name p hname
    obtain rfl : some app.title = r := Option.some.inj hr
    obtain rfl : b = terminated app.title := hb
    exact ⟨p, rfl, hholds⟩

/-- Two applications, with the fields in either order and a title in two pieces. -/
theorem xml_applist_lists_two :
    ∃ heap list, xmlApplist (.document [.startElement "r", .startElement "App", .startElement "ID",
        .text ['1'], .endElement "ID", .startElement "AppTitle", .text ['a'], .text ['b'],
        .endElement "AppTitle", .endElement "App", .startElement "App", .startElement "AppTitle",
        .text ['c'], .endElement "AppTitle", .startElement "ID", .text ['2'], .endElement "ID",
        .endElement "App", .endElement "r"]) = .ok (heap, list) ∧
      List.Forall₂ (Lists heap) list [⟨['2'], ['c']⟩, ⟨['1'], ['a', 'b']⟩] := by
  have hfirst : AppContent (.element "ID" (.text ['1'] .empty)
      (.element "AppTitle" (.text ['a', 'b'] .empty) .empty)) ⟨['1'], ['a', 'b']⟩ := by
    constructor <;> simp [FieldsAndOthers, childTexts, XmlContent.textOnly]
  have hsecond : AppContent (.element "AppTitle" (.text ['c'] .empty)
      (.element "ID" (.text ['2'] .empty) .empty)) ⟨['2'], ['c']⟩ := by
    constructor <;> simp [FieldsAndOthers, childTexts, XmlContent.textOnly]
  have happs : HoldsApps (xmlDocument "r" _) [⟨['1'], ['a', 'b']⟩, ⟨['2'], ['c']⟩] :=
    .other (by decide) (.app hfirst (.app hsecond .empty)) .empty
  exact xml_applist_lists happs (.element "r" (.element "App" (.element "ID" (.text [['1']] .empty)
    (.element "AppTitle" (.text [['a'], ['b']] .empty) .empty)) (.element "App"
    (.element "AppTitle" (.text [['c']] .empty) (.element "ID" (.text [['2']] .empty) .empty))
    .empty)) .empty)

/-- An `App` of one `ID` and one `AppTitle` child, where a third child has an `ID` in it. -/
def metaContent : XmlContent :=
  .element "ID" (.text ['1'] .empty) (.element "AppTitle" (.text ['a'] .empty)
    (.element "Meta" (.element "ID" (.text ['2'] .empty) .empty) .empty))

/-- The `ID` in the third child replaces the one of the application. -/
theorem inner_id_replaces :
    childTexts "ID" metaContent = [['1']] ∧ childTexts "AppTitle" metaContent = [['a']] ∧
      ∃ events, Reports (xmlDocument "r" (.element "App" metaContent .empty)) events ∧
        ∃ heap list, xmlApplist (.document events) = .ok (heap, list) ∧
          ¬ List.Forall₂ (Lists heap) list [⟨['1'], ['a']⟩] := by
  refine ⟨by decide, by decide, _, .element "r" (.element "App" (.element "ID"
    (.text [['1']] .empty) (.element "AppTitle" (.text [['a']] .empty) (.element "Meta"
    (.element "ID" (.text [['2']] .empty) .empty) .empty))) .empty) .empty, _, _, rfl, ?_⟩
  intro hlists
  obtain ⟨hentry, _⟩ := List.forall₂_cons.mp hlists
  exact absurd hentry.1 (by decide +kernel)

/-- A name that can be printed and compared: it points to a string that was written to its end. -/
def Usable (heap : Heap) (e : AppEntry) : Prop :=
  ∃ p, e.name = some p ∧ ∃ s, readString (blockBytes heap p) = some s

/-- The titles that come before the next `App`. -/
def titlesBeforeNext (ms : List Mark) : List (List Char) :=
  (ms.takeWhile (· ≠ .app)).filterMap Mark.titleText

/-- There is such a title, and the last one has text in it. -/
def TitledBeforeNext (ms : List Mark) : Prop :=
  ∃ s, (titlesBeforeNext ms).getLast? = some s ∧ s ≠ []

/-- Every `App` start tag is followed, before the next one, by an `AppTitle` without child elements,
and the last of these is not empty. -/
def EveryAppTitled : List Mark → Prop
  | [] => True
  | .app :: ms => TitledBeforeNext ms ∧ EveryAppTitled ms
  | _ :: ms => EveryAppTitled ms

def AppFact.Named (fact : AppFact) : Prop := ∃ s, fact.name = some (some s)

/-- The entry that is filled in ends up named. -/
def NamedAtLast (fact : AppFact) (ms : List Mark) : Prop :=
  match (titlesBeforeNext ms).getLast? with
  | some s => s ≠ []
  | none => fact.Named

@[simp] theorem titlesBeforeNext_app : titlesBeforeNext (.app :: ms) = [] := rfl

@[simp] theorem titlesBeforeNext_id (s : List Char) :
    titlesBeforeNext (.id s :: ms) = titlesBeforeNext ms := rfl

@[simp] theorem titlesBeforeNext_title (s : List Char) :
    titlesBeforeNext (.title s :: ms) = s :: titlesBeforeNext ms := rfl

/-- Where an unwritten block is told apart from text, usable entries are the named ones. -/
theorem Tells.usable_iff (h : Tells (· = [none]) heap e fact) : Usable heap e ↔ fact.Named := by
  constructor
  · rintro ⟨p, hp, s, hs⟩
    obtain ⟨r, b, hr, hholds, hb⟩ := h.name p hp
    cases r with
    | none =>
      obtain rfl : b = [none] := hb
      rw [hholds.blockBytes] at hs
      cases hs
    | some t => exact ⟨t, hr⟩
  · rintro ⟨s, hs⟩
    cases hname : e.name with
    | none =>
      rw [h.null.mp hname] at hs
      cases hs
    | some p =>
      obtain ⟨r, b, hr, hholds, hb⟩ := h.name p hname
      rw [hs] at hr
      cases hr
      obtain rfl : b = terminated s := hb
      refine ⟨p, hname, Lib.Stdio.cstring s, ?_⟩
      rw [hholds.blockBytes]
      exact readString_terminated

theorem usable_iff_named {list : List AppEntry}
    (h : List.Forall₂ (Tells (· = [none]) heap) list facts) :
    (∀ e ∈ list, Usable heap e) ↔ ∀ fact ∈ facts, fact.Named := by
  induction h with
  | nil => simp
  | cons hhead _ ih => rw [List.forall_mem_cons, List.forall_mem_cons, hhead.usable_iff, ih]

theorem namedAtLast_untitled (ms : List Mark) :
    NamedAtLast ⟨none, some 0⟩ ms ↔ TitledBeforeNext ms := by
  unfold NamedAtLast TitledBeforeNext
  cases (titlesBeforeNext ms).getLast? <;> simp [AppFact.Named]

theorem namedAtLast_title (s : List Char) :
    NamedAtLast fact (.title s :: ms) ↔
      NamedAtLast { fact with name := some (withText none s) } ms := by
  unfold NamedAtLast
  rw [titlesBeforeNext_title, List.getLast?_cons]
  cases (titlesBeforeNext ms).getLast? with
  | none => by_cases hs : s = [] <;> simp [AppFact.Named, withText, hs]
  | some t => rfl

/-- With an entry in front, all end up named if and only if the front one does, the others are, and
every `App` from here on gets a title. -/
theorem named_foldl_cons (ms : List Mark) (fact : AppFact) (facts : List AppFact) :
    (∀ f ∈ ms.foldl AppFact.mark (fact :: facts), f.Named) ↔
      NamedAtLast fact ms ∧ (∀ f ∈ facts, f.Named) ∧ EveryAppTitled ms := by
  induction ms generalizing fact facts with
  | nil =>
    have hnil : NamedAtLast fact [] ↔ fact.Named := Iff.rfl
    simp [hnil, EveryAppTitled]
  | cons m ms ih =>
    cases m with
    | app =>
      rw [List.foldl_cons, AppFact.mark, ih, namedAtLast_untitled, List.forall_mem_cons]
      simp only [NamedAtLast, EveryAppTitled]
      simp
      tauto
    | id s =>
      rw [List.foldl_cons, AppFact.mark, ih]
      rfl
    | title s =>
      rw [List.foldl_cons, AppFact.mark, ih, namedAtLast_title]
      rfl

theorem named_foldl_nil (ms : List Mark) :
    (∀ f ∈ ms.foldl AppFact.mark [], f.Named) ↔ EveryAppTitled ms := by
  induction ms with
  | nil => simp [EveryAppTitled]
  | cons m ms ih =>
    cases m with
    | app =>
      rw [List.foldl_cons, AppFact.mark, named_foldl_cons, namedAtLast_untitled]
      simp [EveryAppTitled]
    | id s => exact ih
    | title s => exact ih

/-- Every name of the list can be used if and only if every `App` gets a title. -/
theorem names_usable_iff (h : Reports (xmlDocument root content) events)
    (hchunks : .text [] ∉ events) :
    ∃ heap list, xmlApplist (.document events) = .ok (heap, list) ∧
      ((∀ e ∈ list, Usable heap e) ↔ EveryAppTitled (marks (xmlDocument root content))) := by
  obtain ⟨heap, list, hlist, htells⟩ :=
    xmlApplist_reports (· = [none]) h rfl fun hmem => absurd hmem hchunks
  refine ⟨heap, list, hlist, ?_⟩
  rw [usable_iff_named htells, named_foldl_nil]

/-- An application whose title follows an element with text. -/
theorem names_usable_iff_titled :
    ∃ heap list, xmlApplist (.document [.startElement "App", .startElement "ID", .text ['1'],
        .endElement "ID", .startElement "AppTitle", .text ['a'], .endElement "AppTitle",
        .endElement "App"]) = .ok (heap, list) ∧ ∀ e ∈ list, Usable heap e := by
  have hreports : Reports (xmlDocument "App" (.element "ID" (.text ['1'] .empty)
      (.element "AppTitle" (.text ['a'] .empty) .empty))) _ :=
    .element "App" (.element "ID" (.text [['1']] .empty)
      (.element "AppTitle" (.text [['a']] .empty) .empty)) .empty
  obtain ⟨heap, list, hlist, hiff⟩ := names_usable_iff hreports (by decide)
  exact ⟨heap, list, hlist, hiff.mpr ⟨⟨['a'], rfl, by decide⟩, trivial⟩⟩

/-- An application without a title: `xml_applist` returns `GS_OK`, and the name is NULL. -/
theorem untitled_app_unusable :
    ∃ content events, Reports (xmlDocument "r" content) events ∧ .text [] ∉ events ∧
      ∃ heap list, xmlApplist (.document events) = .ok (heap, list) ∧
        ¬ ∀ e ∈ list, Usable heap e := by
  have hreports : Reports (xmlDocument "r" (.element "App" (.element "ID" (.text ['1'] .empty)
      .empty) .empty)) _ :=
    .element "r" (.element "App" (.element "ID" (.text [['1']] .empty) .empty) .empty) .empty
  refine ⟨_, _, hreports, by decide, _, _, rfl, fun hall => ?_⟩
  obtain ⟨p, hp, _⟩ := hall ⟨none, some 1⟩ (by decide)
  cases hp

end Moonlight
