import Mathlib.Data.List.Induction

/-! Folds of steps that may fail: what every step keeps, writes, expands to or simulates, the whole
fold does. -/
namespace Lib.Fold

variable {ε σ α β γ : Type} {f : σ → α → Except ε σ} {g : σ → β → Except ε σ}
  {s s' t : σ} {l : List α} {a : α}

theorem bind_eq_ok {x : Except ε α} {k : α → Except ε β} {b : β} :
    x >>= k = .ok b ↔ ∃ a, x = .ok a ∧ k a = .ok b := by
  cases x with
  | error e =>
    constructor
    · intro h
      cases h
    · rintro ⟨a, ha, _⟩
      cases ha
  | ok a =>
    constructor
    · intro h
      exact ⟨a, rfl, h⟩
    · rintro ⟨a', ha, h⟩
      cases ha
      exact h

theorem map_eq_ok {x : Except ε α} {k : α → β} {b : β} :
    k <$> x = .ok b ↔ ∃ a, x = .ok a ∧ k a = b := by
  cases x with
  | error e =>
    constructor
    · intro h
      cases h
    · rintro ⟨a, ha, _⟩
      cases ha
  | ok a => simp [Functor.map, Except.map]

theorem bind_eq_error {x : Except ε α} {k : α → Except ε β} {e : ε} :
    x >>= k = .error e ↔ x = .error e ∨ ∃ a, x = .ok a ∧ k a = .error e := by
  cases x with
  | error e' =>
    constructor
    · intro h
      exact Or.inl (congrArg Except.error (Except.error.inj h))
    · rintro (h | ⟨a, ha, _⟩)
      · exact congrArg Except.error (Except.error.inj h)
      · cases ha
  | ok b =>
    constructor
    · intro h
      exact Or.inr ⟨b, rfl, h⟩
    · rintro (h | ⟨a, ha, h⟩)
      · cases h
      · obtain rfl := Except.ok.inj ha
        exact h

theorem foldlM_cons_eq_ok :
    (a :: l).foldlM f s = .ok t ↔ ∃ u, f s a = .ok u ∧ l.foldlM f u = .ok t := by
  rw [List.foldlM_cons, bind_eq_ok]

theorem foldlM_append_eq_ok {l' : List α} :
    (l ++ l').foldlM f s = .ok t ↔ ∃ u, l.foldlM f s = .ok u ∧ l'.foldlM f u = .ok t := by
  rw [List.foldlM_append, bind_eq_ok]

/-- What the steps keep of the items so far and the state holds of all items in the end. -/
theorem foldlM_history {P : List α → σ → Prop} (past : List α)
    (hstep : ∀ past s a t, f s a = .ok t → P past s → P (past ++ [a]) t)
    (h : l.foldlM f s = .ok t) (hs : P past s) : P (past ++ l) t := by
  induction l generalizing past s with
  | nil =>
    cases h
    simpa using hs
  | cons a l ih =>
    obtain ⟨u, hu, hrest⟩ := foldlM_cons_eq_ok.mp h
    simpa using ih (past ++ [a]) hrest (hstep past s a u hu hs)

theorem foldlM_invariant {P : σ → Prop} (hstep : ∀ s a t, f s a = .ok t → P s → P t)
    (h : l.foldlM f s = .ok t) (hs : P s) : P t :=
  foldlM_history (P := fun _ => P) [] (fun _ s a t => hstep s a t) h hs

/-- Steps that can be taken in smaller steps. -/
theorem foldlM_flatMap {expand : α → List β}
    (hstep : ∀ s a t, f s a = .ok t → (expand a).foldlM g s = .ok t)
    (h : l.foldlM f s = .ok t) : (l.flatMap expand).foldlM g s = .ok t := by
  induction l generalizing s with
  | nil => exact h
  | cons a l ih =>
    obtain ⟨u, hu, hrest⟩ := foldlM_cons_eq_ok.mp h
    rw [List.flatMap_cons, foldlM_append_eq_ok]
    exact ⟨u, hstep s a u hu, ih hrest⟩

/-- Steps that go on alike from related states. -/
theorem foldlM_simulation {R : σ → σ → Prop}
    (hstep : ∀ s s' a t, R s s' → f s a = .ok t → ∃ t', f s' a = .ok t' ∧ R t t')
    (hR : R s s') (h : l.foldlM f s = .ok t) : ∃ t', l.foldlM f s' = .ok t' ∧ R t t' := by
  induction l generalizing s s' with
  | nil =>
    cases h
    exact ⟨s', rfl, hR⟩
  | cons a l ih =>
    obtain ⟨u, hu, hrest⟩ := foldlM_cons_eq_ok.mp h
    obtain ⟨u', hu', hRu⟩ := hstep s s' a u hR hu
    obtain ⟨t', ht', hRt⟩ := ih hRu hrest
    exact ⟨t', foldlM_cons_eq_ok.mpr ⟨u', hu', ht'⟩, hRt⟩

/-- A computation that does not end with one error. -/
def Avoids (e : ε) (x : Except ε α) : Prop := x ≠ .error e

section
variable {e : ε} {x : Except ε α} {k : α → Except ε β}

theorem Avoids.ok : Avoids e (.ok a : Except ε α) := fun h => by cases h

theorem Avoids.error {e' : ε} (h : e' ≠ e) : Avoids e (.error e' : Except ε α) :=
  fun herror => h (Except.error.inj herror)

theorem Avoids.bind (hx : Avoids e x) (hk : ∀ a, x = .ok a → Avoids e (k a)) :
    Avoids e (x >>= k) := by
  intro h
  rcases bind_eq_error.mp h with herror | ⟨a, ha, hrest⟩
  · exact hx herror
  · exact hk a ha hrest

theorem Avoids.map {k : α → β} (hx : Avoids e x) : Avoids e (k <$> x) := by
  cases x with
  | error e' =>
    intro h
    cases h
    exact hx rfl
  | ok a => exact Avoids.ok

/-- A fold avoids what each of its steps avoids. -/
theorem Avoids.foldlM (h : ∀ a ∈ l, ∀ s, Avoids e (f s a)) : Avoids e (l.foldlM f s) := by
  induction l generalizing s with
  | nil => exact Avoids.ok
  | cons a l ih =>
    rw [List.foldlM_cons]
    exact (h a List.mem_cons_self s).bind fun t _ =>
      ih fun b hb => h b (List.mem_cons_of_mem a hb)

end

/-- What the last item that has a value gives, and `d` when none has. -/
def lastValue (value : α → Option β) (d : β) (l : List α) : β :=
  l.foldl (fun v a => (value a).getD v) d

variable {value : α → Option β} {d : β}

theorem lastValue_concat : lastValue value d (l ++ [a]) = (value a).getD (lastValue value d l) := by
  simp [lastValue]

/-- A register that every item with a value overwrites holds the last value. -/
theorem foldlM_lastValue {read : σ → β}
    (hstep : ∀ s a t, f s a = .ok t → read t = (value a).getD (read s))
    (h : l.foldlM f s = .ok t) : read t = lastValue value (read s) l := by
  refine foldlM_history (P := fun past u => read u = lastValue value (read s) past) [] ?_ h rfl
  intro past u a v huv hu
  rw [hstep u a v huv, hu, lastValue_concat]

theorem foldl_lastValue {step : σ → α → σ} (read : σ → β)
    (hstep : ∀ s a, read (step s a) = (value a).getD (read s)) (s : σ) :
    read (l.foldl step s) = lastValue value (read s) l := by
  induction l generalizing s with
  | nil => rfl
  | cons a l ih =>
    rw [List.foldl_cons, ih, hstep]
    rfl

theorem lastValue_invariant {P : β → Prop} (hd : P d)
    (h : ∀ a ∈ l, ∀ v, value a = some v → P v) : P (lastValue value d l) := by
  induction l using List.reverseRecOn with
  | nil => exact hd
  | append_singleton l a ih =>
    have hl := ih fun b hb => h b (by simp [hb])
    rw [lastValue_concat]
    cases ha : value a with
    | none => exact hl
    | some v => exact h a (by simp) v ha

theorem lastValue_append {l' : List α} :
    lastValue value d (l ++ l') = lastValue value (lastValue value d l) l' :=
  List.foldl_append

/-- Items that all have the same value write it once one of them is there. -/
theorem lastValue_const {w : β} (h : ∀ a ∈ l, ∀ v, value a = some v → v = w) :
    lastValue value d l = w ∧ (∃ a ∈ l, value a ≠ none) ∨
      lastValue value d l = d ∧ ∀ a ∈ l, value a = none := by
  induction l using List.reverseRecOn with
  | nil => exact Or.inr ⟨rfl, by simp⟩
  | append_singleton l a ih =>
    have hl := ih fun b hb => h b (by simp [hb])
    rw [lastValue_concat]
    cases ha : value a with
    | some v => exact Or.inl ⟨h a (by simp) v ha, a, by simp, by simp [ha]⟩
    | none =>
      rcases hl with ⟨hw, b, hb, hne⟩ | ⟨hd, hnone⟩
      · exact Or.inl ⟨hw, b, by simp [hb], hne⟩
      · refine Or.inr ⟨hd, fun b hb => ?_⟩
        rcases List.mem_append.mp hb with hb | hb
        · exact hnone b hb
        · exact List.mem_singleton.mp hb ▸ ha

/-- The last value among some items, one item at a time. -/
theorem getLast_filterMap_cons {γ : Type*} (g : β → γ) (x : γ) :
    (((a :: l).filterMap value).getLast?.map g).getD x =
      ((l.filterMap value).getLast?.map g).getD (((value a).map g).getD x) := by
  cases ha : value a with
  | none => rw [List.filterMap_cons_none ha]; rfl
  | some b =>
    rw [List.filterMap_cons_some ha, List.getLast?_cons]
    cases (l.filterMap value).getLast? <;> rfl

end Lib.Fold
