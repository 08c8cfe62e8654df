import Mathlib.Data.List.Induction
import Moonlight.Lib.LastWriter

/-! Replaying a log of presses and releases into the keys that end up held. -/
namespace Lib.Replay

variable {κ : Type*} {k j : κ} {log : List (Bool × κ)}
  {e : Bool × κ}

/-- The log presses the key at some point and does not release it afterwards. -/
def Unreleased (k : κ) (log : List (Bool × κ)) : Prop :=
  ∃ pre post, log = pre ++ (true, k) :: post ∧ (false, k) ∉ post

theorem not_unreleased_nil : ¬ Unreleased k [] := by
  rintro ⟨pre, post, h, _⟩
  simp at h

/-- An element of a list with one more entry is the last one, or stands in the old list. -/
theorem concat_eq_split {α : Type*} {xs pre post : List α} {x y : α}
    (h : xs ++ [y] = pre ++ x :: post) :
    (pre = xs ∧ y = x ∧ post = []) ∨ ∃ mid, post = mid ++ [y] ∧ xs = pre ++ x :: mid := by
  rcases List.eq_nil_or_concat post with rfl | ⟨mid, z, rfl⟩
  · obtain ⟨rfl, rfl⟩ := List.append_singleton_inj.mp h
    exact Or.inl ⟨rfl, rfl, rfl⟩
  · have hz : xs ++ [y] = (pre ++ x :: mid) ++ [z] := by simpa using h
    obtain ⟨hxs, rfl⟩ := List.append_singleton_inj.mp hz
    exact Or.inr ⟨mid, by simp, hxs⟩

theorem unreleased_press : Unreleased k (log ++ [(true, j)]) ↔ j = k ∨ Unreleased k log := by
  constructor
  · rintro ⟨pre, post, h, hpost⟩
    rcases concat_eq_split h with ⟨_, hx, _⟩ | ⟨mid, rfl, hlog⟩
    · exact Or.inl (congrArg Prod.snd hx)
    · exact Or.inr ⟨pre, mid, hlog, by simp_all⟩
  · rintro (rfl | ⟨pre, post, rfl, hpost⟩)
    · exact ⟨log, [], rfl, by simp⟩
    · exact ⟨pre, post ++ [(true, j)], by simp, by simp [hpost]⟩

theorem unreleased_release :
    Unreleased k (log ++ [(false, j)]) ↔ k ≠ j ∧ Unreleased k log := by
  constructor
  · rintro ⟨pre, post, h, hpost⟩
    rcases concat_eq_split h with ⟨_, hx, _⟩ | ⟨mid, rfl, hlog⟩
    · simp at hx
    · have hj : (false, k) ∉ mid ∧ k ≠ j := by simpa using hpost
      exact ⟨hj.2, pre, mid, hlog, hj.1⟩
  · rintro ⟨hj, pre, post, rfl, hpost⟩
    exact ⟨pre, post ++ [(false, j)], by simp, by simp [hpost, hj]⟩

section Emitted
variable {α : Type*} {emit : List α → α → Option (Bool × κ)} {xs : List α} {x : α}

/-- Some input emits a press of the key, and no later input emits its release. -/
def Stuck (emit : List α → α → Option (Bool × κ)) (k : κ) (xs : List α) : Prop :=
  ∃ pre x post, xs = pre ++ x :: post ∧ emit pre x = some (true, k) ∧
    ∀ mid y rest, post = mid ++ y :: rest → emit (pre ++ x :: mid) y ≠ some (false, k)

theorem not_stuck_nil : ¬ Stuck emit k [] := by
  rintro ⟨pre, x, post, h, _⟩
  simp at h

/-- The last input emits the press, or an earlier press stays without a release. -/
theorem stuck_concat : Stuck emit k (xs ++ [x]) ↔
    emit xs x = some (true, k) ∨ (Stuck emit k xs ∧ emit xs x ≠ some (false, k)) := by
  constructor
  · rintro ⟨pre, y, post, h, hpress, hpost⟩
    rcases concat_eq_split h with ⟨rfl, rfl, _⟩ | ⟨mid, rfl, rfl⟩
    · exact Or.inl hpress
    · refine Or.inr ⟨⟨pre, y, mid, rfl, hpress, fun m z rest hm => ?_⟩, hpost mid x [] rfl⟩
      exact hpost m z (rest ++ [x]) (by simp [hm])
  · rintro (hpress | ⟨⟨pre, y, post, rfl, hpress, hpost⟩, hx⟩)
    · exact ⟨xs, x, [], rfl, hpress, fun m z rest hm => by simp at hm⟩
    · refine ⟨pre, y, post ++ [x], by simp, hpress, fun m z rest hm => ?_⟩
      rcases concat_eq_split hm with ⟨rfl, rfl, _⟩ | ⟨mid, rfl, rfl⟩
      · exact hx
      · exact hpost m z mid rfl

/-- In a log written input by input, the unreleased keys are the stuck ones. -/
theorem unreleased_iff_stuck (emit : List α → α → Option (Bool × κ))
    (log : List α → List (Bool × κ)) (hnil : log [] = [])
    (hconcat : ∀ xs x, log (xs ++ [x]) = log xs ++ (emit xs x).toList) (xs : List α) (k : κ) :
    Unreleased k (log xs) ↔ Stuck emit k xs := by
  induction xs using List.reverseRecOn with
  | nil => simp [hnil, not_unreleased_nil, not_stuck_nil]
  | append_singleton xs x ih =>
    rw [hconcat, stuck_concat, ← ih]
    cases he : emit xs x with
    | none => simp
    | some e =>
      obtain ⟨b, j⟩ := e
      cases b with
      | true => simp [unreleased_press]
      | false => simp [unreleased_release, and_comm, eq_comm]

end Emitted

section Held
variable [DecidableEq κ]

/-- A press adds the key, a release removes it. -/
def apply (held : List κ) : Bool × κ → List κ
  | (true, k) => k :: held
  | (false, k) => held.filter (· ≠ k)

def replay (log : List (Bool × κ)) : List κ := log.foldl apply []

/-- Starting from the keys in `held`, the log releases only keys it holds. -/
def DownBeforeUp : List κ → List (Bool × κ) → Prop
  | _, [] => True
  | held, e :: log => (e.1 = true ∨ e.2 ∈ held) ∧ DownBeforeUp (apply held e) log

instance decidableDownBeforeUp :
    (held : List κ) → (log : List (Bool × κ)) → Decidable (DownBeforeUp held log)
  | _, [] => inferInstanceAs (Decidable True)
  | held, e :: log =>
    have := decidableDownBeforeUp (apply held e) log
    inferInstanceAs (Decidable ((e.1 = true ∨ e.2 ∈ held) ∧ DownBeforeUp (apply held e) log))

theorem mem_apply {held : List κ} {b : Bool} :
    j ∈ apply held (b, k) ↔ if b then j = k ∨ j ∈ held else ¬ j = k ∧ j ∈ held := by
  cases b with
  | true => simp [apply]
  | false => simp [apply, and_comm]

theorem replay_concat : replay (log ++ [e]) = apply (replay log) e := by
  simp [replay]

/-- A key is held after the log exactly when its last press was never released. -/
theorem mem_replay : k ∈ replay log ↔ Unreleased k log := by
  induction log using List.reverseRecOn with
  | nil => simp [replay, not_unreleased_nil]
  | append_singleton log e ih =>
    obtain ⟨b, j⟩ := e
    rw [replay_concat]
    cases b with
    | true => simp [apply, unreleased_press, ih, eq_comm (a := k)]
    | false => simp [apply, unreleased_release, ih, and_comm]

theorem replay_eq_nil : replay log = [] ↔ ∀ k, ¬ Unreleased k log := by
  rw [List.eq_nil_iff_forall_not_mem]
  exact forall_congr' fun k => not_congr mem_replay

section Sources
open Lib.LastWriter
variable {α ι : Type*} [DecidableEq ι] {emit : α → Option (Bool × κ)} {source : α → Option ι}
  {Rest : α → Prop} {events : List α}

/-- The last event of a source is this one or a later one. -/
theorem lastOf_split {pre post : List α} {x last : α} {i : ι} (hx : source x = some i)
    (h : lastOf source i (pre ++ x :: post) = some last) : last = x ∨ last ∈ post := by
  unfold lastOf at h
  rw [List.filter_append, List.filter_cons_of_pos (by simpa using hx), List.getLast?_append_cons] at h
  rcases List.mem_cons.mp (List.mem_of_getLast? h) with heq | hmem
  · exact Or.inl heq
  · exact Or.inr (List.mem_filter.mp hmem).1

/-- When every key that is written belongs to a source, and every source that is at rest has
released its key, no key is held once all sources are at rest. -/
theorem replay_settled
    (hsource : ∀ x b k, emit x = some (b, k) → ∃ i, source x = some i ∧
      ∀ y, source y = some i → Rest y → emit y = some (false, k))
    (h : Settled source Rest events) : replay (events.filterMap emit) = [] := by
  rw [replay_eq_nil]
  intro k hheld
  obtain ⟨pre, x, post, rfl, hpress, hpost⟩ := (unreleased_iff_stuck (fun _ => emit)
    (fun xs => xs.filterMap emit) rfl (fun xs y => by cases hy : emit y <;> simp [hy]) events k).mp
      hheld
  obtain ⟨i, hi, hrest⟩ := hsource x true k hpress
  have hin : x ∈ pre ++ x :: post := List.mem_append_right _ List.mem_cons_self
  obtain ⟨last, hlast⟩ := exists_lastOf hin hi
  have hup := hrest last (lastOf_mem hlast).2 (h i last hlast)
  rcases lastOf_split hi hlast with rfl | hmem
  · cases hpress.symm.trans hup
  · obtain ⟨mid, rest, rfl⟩ := List.append_of_mem hmem
    exact hpost mid last rest rfl hup

/-- A key is held when the last event for it is a press. -/
theorem mem_replay_iff_last {target : α → Option κ} (htarget : ∀ x, target x = (emit x).map (·.2)) :
    k ∈ replay (events.filterMap emit) ↔
      ∃ e, lastOf target k events = some e ∧ emit e = some (true, k) := by
  induction events using List.reverseRecOn with
  | nil => simp [replay, lastOf]
  | append_singleton events x ih =>
    rw [List.filterMap_append]
    cases hx : emit x with
    | none =>
      have hother : target x ≠ some k := by simp [htarget, hx]
      rw [List.filterMap_cons_none hx, List.filterMap_nil, List.append_nil, ih,
        lastOf_concat_other hother]
    | some e =>
      obtain ⟨b, j⟩ := e
      rw [List.filterMap_cons_some hx, List.filterMap_nil, replay_concat, mem_apply, ih]
      by_cases hj : j = k
      · have hself : target x = some k := by simp [htarget, hx, hj]
        rw [lastOf_concat_self hself]
        cases b <;> simp [hx, hj]
      · have hother : target x ≠ some k := by simp [htarget, hx, hj]
        rw [lastOf_concat_other hother]
        cases b <;> simp [Ne.symm hj]

end Sources

end Held

end Lib.Replay
