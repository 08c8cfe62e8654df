import Mathlib.Logic.Basic

/-! Functions that keep a state, may jump to a cleanup label with a return code, and may run into
undefined behaviour. -/
namespace Lib.Cleanup

/-- How a block of statements ends: the code after it goes on, the label is reached, or the
program has no meaning any more. -/
inductive Outcome (ε α : Type) where
  | next (a : α)
  | cleanup (ret : ε)
  | undefined
  deriving DecidableEq

def Block (σ ε α : Type) : Type := σ → Outcome ε α × σ

variable {σ ε α β : Type} {x : Block σ ε α} {f : α → Block σ ε β} {s t : σ} {a : α} {e : ε}
  {ok bad ok' bad' : Prop} {Q Q' : α → σ → Prop} {R : β → σ → Prop} {E E' : ε → σ → Prop}

instance : Monad (Block σ ε) where
  pure a := fun s => (.next a, s)
  bind x f := fun s =>
    match x s with
    | (.next a, t) => f a t
    | (.cleanup ret, t) => (.cleanup ret, t)
    | (.undefined, t) => (.undefined, t)

/-- `goto cleanup` with a return code. -/
def jump (ret : ε) : Block σ ε α := fun s => (.cleanup ret, s)

/-- A value that the program may have no meaning without. -/
def defined : Option α → Block σ ε α
  | some a => fun s => (.next a, s)
  | none => fun s => (.undefined, s)

def modify (f : σ → σ) : Block σ ε Unit := fun s => (.next (), f s)

theorem bind_next (h : x s = (.next a, t)) : (x >>= f) s = f a t := by
  change (match x s with | (.next a, t) => f a t | (.cleanup r, t) => _ | (.undefined, t) => _) = _
  rw [h]

theorem bind_cleanup (h : x s = (.cleanup e, t)) : (x >>= f) s = (.cleanup e, t) := by
  change (match x s with | (.next a, t) => f a t | (.cleanup r, t) => _ | (.undefined, t) => _) = _
  rw [h]

theorem bind_undefined (h : x s = (.undefined, t)) : (x >>= f) s = (.undefined, t) := by
  change (match x s with | (.next a, t) => f a t | (.cleanup r, t) => _ | (.undefined, t) => _) = _
  rw [h]

/-- Two blocks in a row go on where both do. -/
theorem bind_eq_next {b : β} :
    (x >>= f) s = (.next b, t) ↔ ∃ a u, x s = (.next a, u) ∧ f a u = (.next b, t) := by
  cases hx : x s with
  | mk outcome u =>
    cases outcome with
    | next a =>
      rw [bind_next hx]
      constructor
      · intro h
        exact ⟨a, u, rfl, h⟩
      · rintro ⟨a', u', heq, h⟩
        cases heq
        exact h
    | cleanup ret =>
      rw [bind_cleanup hx]
      constructor
      · intro h
        cases h
      · rintro ⟨a', u', heq, _⟩
        cases heq
    | undefined =>
      rw [bind_undefined hx]
      constructor
      · intro h
        cases h
      · rintro ⟨a', u', heq, _⟩
        cases heq

theorem modify_bind {g : σ → σ} {f : Unit → Block σ ε β} :
    (modify g >>= f) s = f () (g s) := rfl

/-- From `s` the block goes on to what `Q` describes if `ok` holds, has no meaning if `bad` holds,
and jumps as `E` describes in every other case. -/
structure Decides (x : Block σ ε α) (s : σ) (ok bad : Prop) (Q : α → σ → Prop)
    (E : ε → σ → Prop) : Prop where
  pass : ok → ∃ a t, x s = (.next a, t) ∧ Q a t
  crash : bad → ∃ t, x s = (.undefined, t)
  fail : ¬ ok → ¬ bad → ∃ e t, x s = (.cleanup e, t) ∧ E e t

theorem Decides.pure (h : Q a s) : Decides (pure a : Block σ ε α) s True False Q E :=
  ⟨fun _ => ⟨a, s, rfl, h⟩, False.elim, fun hn => absurd trivial hn⟩

theorem Decides.modify {g : σ → σ} {Q : Unit → σ → Prop} (h : Q () (g s)) :
    Decides (modify g : Block σ ε Unit) s True False Q E :=
  ⟨fun _ => ⟨(), g s, rfl, h⟩, False.elim, fun hn => absurd trivial hn⟩

/-- A value is used exactly when it exists, and its absence has no meaning. -/
theorem Decides.defined {o : Option α} (h : ∀ a, o = some a → Q a s) :
    Decides (defined o : Block σ ε α) s (∃ a, o = some a) (o = none) Q E where
  pass := by
    rintro ⟨a, rfl⟩
    exact ⟨a, s, rfl, h a rfl⟩
  crash := by
    rintro rfl
    exact ⟨s, rfl⟩
  fail hn hnone := absurd (Option.ne_none_iff_exists'.mp hnone) hn

theorem Decides.congr (hx : Decides x s ok bad Q E) (hok : ok ↔ ok') (hbad : bad ↔ bad') :
    Decides x s ok' bad' Q E where
  pass h := hx.pass (hok.mpr h)
  crash h := hx.crash (hbad.mpr h)
  fail h h' := hx.fail (fun hk => h (hok.mp hk)) (fun hk => h' (hbad.mp hk))

/-- A test that jumps before the rest. -/
theorem Decides.unless {c : Prop} [Decidable c] {y : Block σ ε α}
    (hy : c → ∃ e t, y s = (.cleanup e, t) ∧ E e t) (hx : ¬ c → Decides x s ok bad Q E) :
    Decides (if c then y else x) s (¬ c ∧ ok) (¬ c ∧ bad) Q E := by
  by_cases hc : c
  · rw [if_pos hc]
    exact ⟨fun h => absurd hc h.1, fun h => absurd hc h.1, fun _ _ => hy hc⟩
  · rw [if_neg hc]
    exact (hx hc).congr (by simp [hc]) (by simp [hc])

/-- Two blocks in a row. -/
theorem Decides.bind (hx : Decides x s ok bad Q E)
    (hf : ∀ a t, ok → Q a t → Decides (f a) t ok' bad' R E) :
    Decides (x >>= f) s (ok ∧ ok') (bad ∨ (ok ∧ bad')) R E where
  pass := by
    rintro ⟨hok, hok'⟩
    obtain ⟨a, t, hrun, hq⟩ := hx.pass hok
    rw [bind_next hrun]
    exact (hf a t hok hq).pass hok'
  crash := by
    rintro (hbad | ⟨hok, hbad'⟩)
    · obtain ⟨t, hrun⟩ := hx.crash hbad
      exact ⟨t, bind_undefined hrun⟩
    · obtain ⟨a, t, hrun, hq⟩ := hx.pass hok
      rw [bind_next hrun]
      exact (hf a t hok hq).crash hbad'
  fail := by
    intro hn hnbad
    by_cases hok : ok
    · obtain ⟨a, t, hrun, hq⟩ := hx.pass hok
      rw [bind_next hrun]
      exact (hf a t hok hq).fail (fun hok' => hn ⟨hok, hok'⟩) fun hbad' =>
        hnbad (Or.inr ⟨hok, hbad'⟩)
    · obtain ⟨e, t, hrun, he⟩ := hx.fail hok fun hbad => hnbad (Or.inl hbad)
      exact ⟨e, t, bind_cleanup hrun, he⟩

theorem Decides.mono (hx : Decides x s ok bad Q E) (hq : ∀ a t, ok → Q a t → Q' a t)
    (he : ∀ e t, ¬ ok → ¬ bad → E e t → E' e t) : Decides x s ok bad Q' E' where
  pass hok := by
    obtain ⟨a, t, hrun, h⟩ := hx.pass hok
    exact ⟨a, t, hrun, hq a t hok h⟩
  crash := hx.crash
  fail hn hnbad := by
    obtain ⟨e, t, hrun, h⟩ := hx.fail hn hnbad
    exact ⟨e, t, hrun, he e t hn hnbad h⟩

end Lib.Cleanup
