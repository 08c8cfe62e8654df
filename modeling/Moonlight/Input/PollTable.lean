import Moonlight.Lib.Trace
import Moonlight.Input.EvdevLoop

/-! The poll table of `src/loop.c` as a registry of descriptors. The search of `loop_remove_fd`
assigns where it should compare and leaves its loop after the first entry. -/
namespace Moonlight

open Lib.Trace

/-- The arrays `fds` and `fdHandlers` as they are allocated, and how many of their entries are in
use. -/
structure PollTable where
  fds : List PollEntry
  numFds : Nat

namespace PollTable

def entries (t : PollTable) : List PollEntry := t.fds.take t.numFds

def empty : PollTable := ⟨[], 0⟩

/-- `realloc` keeps the entries in use. -/
def loopAddFd (t : PollTable) (fd : Int) (handler : FdHandler) (events : Int) : PollTable where
  fds := t.entries ++ [⟨fd, events, handler⟩]
  numFds := t.numFds + 1

/-- What the loop of `loop_remove_fd` makes of `fds`: its condition is the assignment
`fds[i].fd = fd`, and `break` is outside of the `if`. -/
def searched (fd : Int) (numFds : Nat) (fds : List PollEntry) : List PollEntry :=
  if 0 < numFds then fds.modify 0 fun e => { e with fd } else fds

/-- The two `memcpy` calls; `none` is a copy to a place outside of the arrays. -/
def moveLast (fdindex : Int) (numFds : Nat) (fds : List PollEntry) : Option (List PollEntry) :=
  if fdindex ≠ numFds ∧ 0 < numFds then
    if 0 ≤ fdindex ∧ fdindex < fds.length then
      (fds[numFds]?).map fun last => fds.set fdindex.toNat last
    else none
  else some fds

/-- `indeterminate` is what the variable `fdindex` holds before anything is stored in it. The
count of an empty table would become negative, which is `none` here. -/
def loopRemoveFd (t : PollTable) (fd indeterminate : Int) : Option PollTable :=
  match t.numFds with
  | 0 => none
  | numFds + 1 =>
    let fdindex := if 0 < numFds ∧ fd ≠ 0 then 0 else indeterminate
    (moveLast fdindex numFds (searched fd numFds t.fds)).map fun fds => { fds, numFds }

/-- The table holds exactly the registered entries, and no descriptor twice. -/
structure Holds (t : PollTable) (registry : List PollEntry) : Prop where
  allocated : t.numFds ≤ t.fds.length
  perm : t.entries.Perm registry
  nodup : (t.entries.map (·.fd)).Nodup

variable {t t' : PollTable} {fd fdindex indeterminate events : Int} {handler : FdHandler}
  {numFds : Nat} {e first last : PollEntry} {mid stale fds registry : List PollEntry}

@[simp] theorem searched_cons :
    searched fd (numFds + 1) (first :: mid) = { first with fd } :: mid := by
  simp [searched]

theorem moveLast_zero :
    moveLast 0 (mid.length + 1) (first :: (mid ++ last :: stale)) =
      some (last :: (mid ++ last :: stale)) := by
  have hne : (0 : Int) ≠ (mid.length + 1 : Nat) ∧ 0 < mid.length + 1 := by omega
  have hin : (0 : Int) ≤ 0 ∧ (0 : Int) < (first :: (mid ++ last :: stale)).length := by
    simp only [List.length_cons]
    omega
  rw [moveLast, if_pos hne, if_pos hin]
  simp

/-- A copy to another slot than the first leaves the first one alone. -/
theorem moveLast_ne_zero (hindex : fdindex ≠ 0)
    (h : moveLast fdindex numFds (first :: mid) = some fds) :
    ∃ rest, fds = first :: rest := by
  unfold moveLast at h
  split at h
  · split at h
    next hin =>
      obtain ⟨k, hk⟩ : ∃ k, fdindex.toNat = k + 1 := ⟨fdindex.toNat - 1, by omega⟩
      obtain ⟨entry, _, rfl⟩ := Option.map_eq_some_iff.mp h
      rw [hk]
      exact ⟨_, rfl⟩
    next => cases h
  · cases h
    exact ⟨mid, rfl⟩

theorem Holds.length (h : t.Holds registry) : t.entries.length = t.numFds := by
  simp [entries, h.allocated]

/-- In terms of the entries in use, `loop_add_fd` appends one. -/
theorem Holds.entries_loopAddFd (h : t.Holds registry) (fd : Int) (handler : FdHandler)
    (events : Int) :
    (t.loopAddFd fd handler events).entries = Moonlight.loopAddFd fd handler events t.entries := by
  apply List.take_of_length_le
  simp [loopAddFd, h.length]

theorem Holds.loopAddFd (h : t.Holds registry) (handler : FdHandler) (events : Int)
    (hnew : ∀ e ∈ registry, e.fd ≠ fd) :
    (t.loopAddFd fd handler events).Holds (Moonlight.loopAddFd fd handler events registry) := by
  have hentries := h.entries_loopAddFd fd handler events
  constructor
  · simp [PollTable.loopAddFd, h.length]
  · rw [hentries]
    exact h.perm.append_right _
  · rw [hentries]
    simp only [Moonlight.loopAddFd, List.map_append, List.map_cons, List.map_nil]
    refine List.nodup_append.mpr ⟨h.nodup, by simp, ?_⟩
    intro x hx y hy
    obtain ⟨e, he, rfl⟩ := List.mem_map.mp hx
    rw [List.mem_singleton.mp hy]
    exact hnew e (h.perm.mem_iff.mp he)

/-- The slots after the entries in use stay where they are. -/
theorem Holds.fds_eq (h : t.Holds registry) (hentries : t.entries = mid) :
    t = ⟨mid ++ t.fds.drop t.numFds, mid.length⟩ := by
  have hlen := h.length
  have happend : t.entries ++ t.fds.drop t.numFds = t.fds := List.take_append_drop _ _
  rw [hentries] at hlen happend
  rw [happend, hlen]

/-- The only entry is removed whatever the search leaves in `fdindex`. -/
theorem Holds.loopRemoveFd_only (h : t.Holds registry) (hentries : t.entries = [e])
    (fd indeterminate : Int) :
    ∃ t', t.loopRemoveFd fd indeterminate = some t' ∧ t'.numFds ≤ t'.fds.length ∧
      t'.entries = [] := by
  rw [h.fds_eq hentries]
  refine ⟨⟨e :: t.fds.drop t.numFds, 0⟩, ?_, ?_, ?_⟩ <;>
    simp [entries, loopRemoveFd, searched, moveLast]

/-- A table of two entries or more, with the slots after them. -/
theorem Holds.eq_of_two (h : t.Holds registry)
    (hentries : t.entries = first :: (mid ++ [last])) :
    ∃ stale, t = ⟨first :: (mid ++ last :: stale), mid.length + 1 + 1⟩ :=
  ⟨t.fds.drop t.numFds, by simpa using h.fds_eq hentries⟩

/-- Of two entries or more, the first one is overwritten by the last one. -/
theorem Holds.loopRemoveFd_zero (h : t.Holds registry)
    (hentries : t.entries = first :: (mid ++ [last])) (hindex : fd ≠ 0 ∨ indeterminate = 0) :
    ∃ t', t.loopRemoveFd fd indeterminate = some t' ∧ t'.entries = last :: mid ∧
      t'.numFds ≤ t'.fds.length := by
  have hzero : (if 0 < mid.length + 1 ∧ fd ≠ 0 then 0 else indeterminate) = 0 := by
    rcases hindex with hfd | hindex
    · simp [hfd]
    · simp [hindex]
  obtain ⟨stale, rfl⟩ := h.eq_of_two hentries
  refine ⟨⟨last :: (mid ++ last :: stale), mid.length + 1⟩, ?_, ?_, ?_⟩
  · simp only [loopRemoveFd, searched_cons, hzero, moveLast_zero, Option.map_some]
  · simp [entries]
  · simp

/-- If nothing was stored in `fdindex`, the first entry keeps the descriptor it was given. -/
theorem Holds.loopRemoveFd_indeterminate (h : t.Holds registry)
    (hentries : t.entries = first :: (mid ++ [last])) (hindex : indeterminate ≠ 0)
    (hremove : t.loopRemoveFd 0 indeterminate = some t') : ∃ e ∈ t'.entries, e.fd = 0 := by
  obtain ⟨stale, rfl⟩ := h.eq_of_two hentries
  obtain ⟨fds, hmove, rfl⟩ := Option.map_eq_some_iff.mp hremove
  simp only [searched_cons, ne_eq, not_true_eq_false, and_false, if_false] at hmove
  obtain ⟨rest, rfl⟩ := moveLast_ne_zero hindex hmove
  exact ⟨{ first with fd := 0 }, by simp [entries], rfl⟩

/-- What is left of the registry when the first entry of the table is removed. -/
theorem Holds.filter_first (h : t.Holds registry) (hentries : t.entries = first :: mid) :
    mid.Perm (registry.filter fun e => e.fd ≠ first.fd) ∧ (mid.map (·.fd)).Nodup := by
  have hperm := h.perm.filter fun e => e.fd ≠ first.fd
  have hnodup := h.nodup
  rw [hentries] at hperm hnodup
  obtain ⟨hne, hnodup⟩ := List.nodup_cons.mp hnodup
  refine ⟨?_, hnodup⟩
  have hfirst : (first :: mid).filter (fun e => e.fd ≠ first.fd) = mid := by
    rw [List.filter_cons_of_neg (by simp)]
    apply List.filter_eq_self.mpr
    intro e he
    simp only [ne_eq, decide_eq_true_eq]
    intro heq
    exact hne (List.mem_map.mpr ⟨e, he, heq⟩)
  rwa [hfirst] at hperm

/-- Removing the first entry leaves the others. -/
theorem Holds.loopRemoveFd_first (h : t.Holds registry) (hentries : t.entries = first :: mid)
    (hindex : mid = [] ∨ first.fd ≠ 0 ∨ indeterminate = 0) :
    ∃ t', t.loopRemoveFd first.fd indeterminate = some t' ∧
      t'.Holds (registry.filter fun e => e.fd ≠ first.fd) := by
  obtain ⟨hperm, hnodup⟩ := h.filter_first hentries
  rcases List.eq_nil_or_concat mid with rfl | ⟨mid, last, rfl⟩
  · obtain ⟨t', ht', halloc, hentries'⟩ := h.loopRemoveFd_only hentries first.fd indeterminate
    refine ⟨t', ht', halloc, ?_, ?_⟩ <;> rw [hentries']
    · exact hperm
    · exact List.nodup_nil
  · rw [List.concat_eq_append] at *
    have hindex : first.fd ≠ 0 ∨ indeterminate = 0 := by simpa using hindex
    obtain ⟨t', ht', hentries', halloc⟩ := h.loopRemoveFd_zero hentries hindex
    have hmove : (last :: mid).Perm (mid ++ [last]) := (List.perm_append_singleton _ _).symm
    refine ⟨t', ht', halloc, ?_, ?_⟩ <;> rw [hentries']
    · exact hmove.trans hperm
    · exact (hmove.map _).nodup_iff.mpr hnodup

/-- When a removal leaves the registered entries, it was one of the first entry. -/
theorem Holds.first_of_loopRemoveFd (h : t.Holds registry)
    (hold : ∃ e ∈ registry, e.fd = fd) (hremove : t.loopRemoveFd fd indeterminate = some t')
    (h' : t'.Holds (registry.filter fun e => e.fd ≠ fd)) :
    ∃ first mid, t.entries = first :: mid ∧ first.fd = fd ∧
      (mid = [] ∨ fd ≠ 0 ∨ indeterminate = 0) := by
  obtain ⟨e, he, hfd⟩ := hold
  have hmem := h.perm.mem_iff.mpr he
  obtain ⟨first, mid, hentries⟩ := List.exists_cons_of_ne_nil (List.ne_nil_of_mem hmem)
  refine ⟨first, mid, hentries, ?_⟩
  rcases List.eq_nil_or_concat mid with rfl | ⟨mid, last, rfl⟩
  · rw [hentries] at hmem
    rw [List.mem_singleton.mp hmem] at hfd
    exact ⟨hfd, Or.inl rfl⟩
  rw [List.concat_eq_append] at hentries ⊢
  by_cases hindex : fd ≠ 0 ∨ indeterminate = 0
  · refine ⟨?_, Or.inr hindex⟩
    -- The first entry is overwritten, so it is not to be found any more.
    obtain ⟨_, ht', hentries', _⟩ := h.loopRemoveFd_zero hentries hindex
    rw [hremove] at ht'
    cases ht'
    by_contra hne
    have hkept : first ∈ registry.filter fun e => e.fd ≠ fd := by
      rw [List.mem_filter, ← h.perm.mem_iff, hentries]
      exact ⟨List.mem_cons_self, by simpa using hne⟩
    have hlast := h'.perm.mem_iff.mpr hkept
    have hnodup := h.nodup
    rw [hentries] at hnodup
    rw [hentries'] at hlast
    apply (List.nodup_cons.mp hnodup).1
    refine List.mem_map_of_mem ?_
    rcases List.mem_cons.mp hlast with heq | hin
    · simp [heq]
    · simp [hin]
  · -- A descriptor 0 is left, whichever entry the copy overwrites.
    obtain ⟨rfl, hne⟩ : fd = 0 ∧ indeterminate ≠ 0 := by simpa using hindex
    obtain ⟨e, he, hzero⟩ := h.loopRemoveFd_indeterminate hentries hne hremove
    have hkept := h'.perm.mem_iff.mp he
    simp [hzero] at hkept

end PollTable

/-- The program's calls; a removal carries what `fdindex` holds before its search. -/
inductive PollCall where
  | add (fd : Int) (handler : FdHandler) (events : Int)
  | remove (fd indeterminate : Int)

/-- The table, unless a copy went wrong, beside the entries that were added and not removed. -/
structure Polling where
  table : Option PollTable
  registry : List PollEntry

def Polling.start : Polling := ⟨some .empty, []⟩

/-- A descriptor is added that is not registered, or one is removed that is. -/
inductive PollStep : Polling → PollCall → Polling → Prop where
  | add (s : Polling) (fd : Int) (handler : FdHandler) (events : Int)
      (hnew : ∀ e ∈ s.registry, e.fd ≠ fd) :
      PollStep s (.add fd handler events)
        ⟨s.table.map fun t => t.loopAddFd fd handler events, loopAddFd fd handler events s.registry⟩
  | remove (s : Polling) (fd indeterminate : Int) (hold : ∃ e ∈ s.registry, e.fd = fd) :
      PollStep s (.remove fd indeterminate)
        ⟨s.table.bind fun t => t.loopRemoveFd fd indeterminate,
          s.registry.filter fun e => e.fd ≠ fd⟩

/-- The table is the registry. -/
def Faithful (s : Polling) : Prop := ∃ t, s.table = some t ∧ t.Holds s.registry

def Polling.entries (s : Polling) : List PollEntry := (s.table.map (·.entries)).getD []

/-- A removal changes the entries of no other descriptor. -/
def KeepsOthers (s : Polling) (c : PollCall) (s' : Polling) : Prop :=
  ∀ fd indeterminate, c = .remove fd indeterminate → ∀ e : PollEntry, e.fd ≠ fd →
    (e ∈ s'.entries ↔ e ∈ s.entries)

/-- A removal is of the first entry, which is the only one or not the descriptor 0, unless
`fdindex` holds 0 already. -/
def RemovesFirst (s : Polling) (c : PollCall) (_ : Polling) : Prop :=
  ∀ fd indeterminate, c = .remove fd indeterminate →
    ∃ first rest, s.entries = first :: rest ∧ first.fd = fd ∧
      (rest = [] ∨ fd ≠ 0 ∨ indeterminate = 0)

section
variable {s s' : Polling} {c : PollCall} {t : PollTable}

theorem Faithful.entries_perm (h : Faithful s) : s.entries.Perm s.registry := by
  obtain ⟨t, ht, hholds⟩ := h
  rw [Polling.entries, ht]
  exact hholds.perm

/-- Both tables being faithful, a removal kept the other entries. -/
theorem keepsOthers_of_faithful (hstep : PollStep s c s') (h : Faithful s) (h' : Faithful s') :
    KeepsOthers s c s' := by
  rintro fd indeterminate rfl e hne
  rw [h.entries_perm.mem_iff, h'.entries_perm.mem_iff]
  cases hstep
  simp [hne]

/-- A call leaves the table faithful and keeps the other entries exactly when it is an addition
or removes the first entry. -/
theorem pollStep_iff (hstep : PollStep s c s') (h : Faithful s) :
    Faithful s' ∧ KeepsOthers s c s' ↔ RemovesFirst s c s' := by
  obtain ⟨t, ht, hholds⟩ := id h
  have hentries : s.entries = t.entries := by rw [Polling.entries, ht]; rfl
  constructor
  · rintro ⟨h', _⟩ fd indeterminate rfl
    cases hstep with
    | remove _ _ hold =>
      obtain ⟨t', ht', hholds'⟩ := h'
      rw [ht, Option.bind_some] at ht'
      rw [hentries]
      exact hholds.first_of_loopRemoveFd hold ht' hholds'
  · intro hfirst
    suffices h' : Faithful s' from ⟨h', keepsOthers_of_faithful hstep h h'⟩
    cases hstep with
    | add fd handler events hnew =>
      exact ⟨_, by rw [ht]; rfl, hholds.loopAddFd handler events hnew⟩
    | remove fd indeterminate hold =>
      obtain ⟨first, rest, hcons, rfl, hindex⟩ := hfirst fd indeterminate rfl
      rw [hentries] at hcons
      obtain ⟨t', ht', hholds'⟩ := hholds.loopRemoveFd_first hcons hindex
      exact ⟨t', by rw [ht]; exact ht', hholds'⟩

theorem faithful_start : Faithful .start :=
  ⟨.empty, rfl, le_rfl, List.Perm.refl _, List.nodup_nil⟩

end

/-- Over any calls the table is the registry, and removals change no other entry, exactly when
each removal is of the first entry. -/
theorem poll_table_faithful_iff {run : List (PollCall × Polling)}
    (hrun : Run PollStep .start run) :
    Always Faithful .start run ∧ EachStep KeepsOthers .start run ↔
      EachStep RemovesFirst .start run :=
  always_and_eachStep_iff (fun _ _ _ => pollStep_iff) hrun faithful_start

/-- Two descriptors are added and the first one is removed. -/
def removesFirstRun : List (PollCall × Polling) :=
  let first : PollEntry := ⟨3, pollIn, .udevHandle⟩
  let second : PollEntry := ⟨4, pollIn, .evdevHandle⟩
  [(.add 3 .udevHandle pollIn, ⟨some ⟨[first], 1⟩, [first]⟩),
    (.add 4 .evdevHandle pollIn, ⟨some ⟨[first, second], 2⟩, [first, second]⟩),
    (.remove 3 7, ⟨some ⟨[second, second], 1⟩, [second]⟩)]

theorem poll_table_faithful_iff_first :
    Always Faithful .start removesFirstRun ∧ EachStep KeepsOthers .start removesFirstRun := by
  have hrun : Run PollStep .start removesFirstRun :=
    ⟨.add _ _ _ _ (by simp [Polling.start]), .add _ _ _ _ (by simp),
      .remove _ 3 7 ⟨⟨3, pollIn, .udevHandle⟩, by simp, rfl⟩, trivial⟩
  refine (poll_table_faithful_iff hrun).mpr ⟨?_, ?_, ?_, trivial⟩
  · intro fd indeterminate hc
    cases hc
  · intro fd indeterminate hc
    cases hc
  · intro fd indeterminate hc
    cases hc
    exact ⟨_, _, rfl, rfl, Or.inr (Or.inl (by decide))⟩

/-- The later of two descriptors is removed, and stays in the table in place of the other. -/
theorem removes_wrong_entry :
    ¬ ∀ run, Run PollStep .start run →
      Always Faithful .start run ∧ EachStep KeepsOthers .start run := by
  intro h
  let first : PollEntry := ⟨3, pollIn, .udevHandle⟩
  let second : PollEntry := ⟨4, pollIn, .evdevHandle⟩
  have hrun : Run PollStep .start
      [(.add 3 .udevHandle pollIn, ⟨some ⟨[first], 1⟩, [first]⟩),
        (.add 4 .evdevHandle pollIn, ⟨some ⟨[first, second], 2⟩, [first, second]⟩),
        (.remove 4 7, ⟨some ⟨[second, second], 1⟩, [first]⟩)] :=
    ⟨.add _ _ _ _ (by simp [Polling.start]), .add _ _ _ _ (by simp [first]),
      .remove _ 4 7 ⟨second, by simp, rfl⟩, trivial⟩
  obtain ⟨t, ht, hholds⟩ := always_final (h _ hrun).1
  cases ht
  have hperm := hholds.perm.mem_iff.mp (List.mem_singleton.mpr rfl : second ∈ [second])
  exact absurd hperm (by decide)

end Moonlight
