import Moonlight.Lib.Cleanup

/-! Blocks whose state is a log: what a block returns, when all that it logs has a property, and
that it never runs into undefined behaviour. -/
namespace Lib.Log

open Lib.Cleanup

variable {ι ε ε' σ α β : Type} {P : ι → Prop} {Q : α → Prop} {R : β → Prop} {p q : Prop}
  {x : Block (List ι) ε α} {f : α → Block (List ι) ε β} {a : α} {log : List ι}

/-- Entries behind those that are there. -/
def emits (l : List ι) : Block (List ι) ε Unit := modify (· ++ l)

def emit (i : ι) : Block (List ι) ε Unit := emits [i]

/-- The same block with other codes at its label. -/
def mapCode (g : ε → ε') (x : Block σ ε α) : Block σ ε' α := fun s =>
  match x s with
  | (.next a, t) => (.next a, t)
  | (.cleanup ret, t) => (.cleanup (g ret), t)
  | (.undefined, t) => (.undefined, t)

/-- Goes on only if the condition holds. -/
def require (c : Prop) [Decidable c] (ret : ε) : Block σ ε Unit := if c then pure () else jump ret

/-- A computation that may fail, as a block: one of the errors is a program without meaning. -/
def fromExcept [DecidableEq ε] (undefined : ε) : Except ε α → Block σ ε α
  | .ok a => pure a
  | .error e => if e = undefined then defined none else jump e

/-- The block never runs into undefined behaviour. Where it goes on, `Q` holds of what it returns,
and all that it adds to its log has the property exactly if `p` holds; where it jumps, that is
enough. -/
structure Logs (P : ι → Prop) (x : Block (List ι) ε α) (p : Prop) (Q : α → Prop) : Prop where
  next : ∀ log a log', x log = (.next a, log') →
    Q a ∧ ((∀ i ∈ log', P i) ↔ (∀ i ∈ log, P i) ∧ p)
  cleanup : ∀ log ret log', x log = (.cleanup ret, log') → (∀ i ∈ log, P i) → p → ∀ i ∈ log', P i
  meaning : ∀ log, (x log).1 ≠ .undefined

/-- The whole log of a run from an empty one. -/
theorem Logs.run (h : Logs P x p Q) (hrun : x [] = (.next a, log)) : (∀ i ∈ log, P i) ↔ p := by
  obtain ⟨_, hlog⟩ := h.next [] a log hrun
  rw [hlog]
  exact and_iff_right fun i hi => absurd hi List.not_mem_nil

/-- A run from an empty log, however it ends. -/
theorem Logs.all (h : Logs P x p Q) (hp : p) : ∀ i ∈ (x []).2, P i := by
  cases hrun : x [] with
  | mk outcome log =>
    cases outcome with
    | next a => exact (h.run hrun).mpr hp
    | cleanup ret => exact h.cleanup [] ret log hrun (fun i hi => absurd hi List.not_mem_nil) hp
    | undefined => exact absurd (congrArg Prod.fst hrun) (h.meaning [])

theorem Logs.pure (h : Q a) : Logs P (pure a : Block (List ι) ε α) True Q where
  next log b log' hrun := by
    cases hrun
    exact ⟨h, (and_iff_left trivial).symm⟩
  cleanup log ret log' hrun := by cases hrun
  meaning log hundef := by cases hundef

theorem Logs.jump {ret : ε} : Logs P (jump ret : Block (List ι) ε α) p Q where
  next log b log' hrun := by cases hrun
  cleanup log e log' hrun hlog _ := by
    cases hrun
    exact hlog
  meaning log hundef := by cases hundef

theorem Logs.defined {o : Option α} (ho : o ≠ none) (h : ∀ a, o = some a → Q a) :
    Logs P (defined o : Block (List ι) ε α) True Q := by
  obtain ⟨a, rfl⟩ := Option.ne_none_iff_exists'.mp ho
  exact Logs.pure (h a rfl)

theorem Logs.require {c : Prop} [Decidable c] {ret : ε} :
    Logs P (require c ret : Block (List ι) ε Unit) True (fun _ => c) := by
  unfold Log.require
  split
  · next hc => exact Logs.pure hc
  · exact Logs.jump

theorem Logs.emits (l : List ι) :
    Logs P (emits l : Block (List ι) ε Unit) (∀ i ∈ l, P i) (fun _ => True) where
  next log b log' hrun := by
    cases hrun
    exact ⟨trivial, List.forall_mem_append⟩
  cleanup log ret log' hrun := by cases hrun
  meaning log hundef := by cases hundef

theorem Logs.congr (hx : Logs P x p Q) (hok : p ↔ q) : Logs P x q Q := by
  rw [← propext hok]
  exact hx

theorem Logs.emit (i : ι) : Logs P (emit i : Block (List ι) ε Unit) (P i) (fun _ => True) :=
  (Logs.emits [i]).congr List.forall_mem_singleton

theorem Logs.bind (hx : Logs P x p Q) (hf : ∀ a, Q a → Logs P (f a) q R) :
    Logs P (x >>= f) (p ∧ q) R where
  next log b log' hrun := by
    obtain ⟨a, mid, hfirst, hsecond⟩ := bind_eq_next.mp hrun
    obtain ⟨hq, hmid⟩ := hx.next log a mid hfirst
    obtain ⟨hr, hlog⟩ := (hf a hq).next mid b log' hsecond
    exact ⟨hr, by rw [hlog, hmid, and_assoc]⟩
  cleanup log ret log' hrun hlog hpq := by
    cases hfirst : x log with
    | mk outcome mid =>
      cases outcome with
      | next a =>
        rw [bind_next hfirst] at hrun
        obtain ⟨hq, hmid⟩ := hx.next log a mid hfirst
        exact (hf a hq).cleanup mid ret log' hrun (hmid.mpr ⟨hlog, hpq.1⟩) hpq.2
      | cleanup e =>
        rw [bind_cleanup hfirst] at hrun
        cases hrun
        exact hx.cleanup log ret _ hfirst hlog hpq.1
      | undefined => exact absurd (congrArg Prod.fst hfirst) (hx.meaning log)
  meaning log hundef := by
    cases hfirst : x log with
    | mk outcome mid =>
      cases outcome with
      | next a =>
        rw [bind_next hfirst] at hundef
        exact (hf a (hx.next log a mid hfirst).1).meaning mid hundef
      | cleanup e =>
        rw [bind_cleanup hfirst] at hundef
        cases hundef
      | undefined => exact hx.meaning log (congrArg Prod.fst hfirst)

/-- Two blocks in a row, the first of which only returns one value. -/
theorem Logs.bindEq (hx : Logs P x p (· = a)) (hf : Logs P (f a) q R) :
    Logs P (x >>= f) (p ∧ q) R := by
  refine Logs.bind hx ?_
  rintro _ rfl
  exact hf

theorem Logs.mapCode {g : ε → ε'} (hx : Logs P x p Q) : Logs P (mapCode g x) p Q where
  next log a log' hrun := by
    unfold Log.mapCode at hrun
    cases hfirst : x log with
    | mk outcome mid =>
      rw [hfirst] at hrun
      cases outcome with
      | next b =>
        cases hrun
        exact hx.next log a log' hfirst
      | cleanup ret => cases hrun
      | undefined => cases hrun
  cleanup log ret log' hrun := by
    unfold Log.mapCode at hrun
    cases hfirst : x log with
    | mk outcome mid =>
      rw [hfirst] at hrun
      cases outcome with
      | next b => cases hrun
      | cleanup e =>
        cases hrun
        exact hx.cleanup log e log' hfirst
      | undefined => cases hrun
  meaning log hundef := by
    unfold Log.mapCode at hundef
    cases hfirst : x log with
    | mk outcome mid =>
      rw [hfirst] at hundef
      cases outcome with
      | next b => cases hundef
      | cleanup e => cases hundef
      | undefined => exact hx.meaning log (congrArg Prod.fst hfirst)

end Lib.Log
