import Mathlib.Data.Nat.Notation

/-!
# Computations that can fail and change a state

Laws of `ExceptT ε (StateM σ)`, with a run written as one function from the state
to the result and the next state. The state survives a failure. A sequence succeeds if and only
if its parts do, one after the other; the rules for properties of the state follow the same
shape.
-/

namespace Kandelo.Lib

universe u

variable {ε σ α β : Type u} {P : α → List α → Prop}

/-- A computation with errors in `ε` and a state `σ`. -/
abbrev Effect (ε σ α : Type u) : Type u := ExceptT ε (StateM σ) α

namespace Effect

variable (x : Effect ε σ α)

/-- Run on a state. -/
def exec (s : σ) : Except ε α × σ := StateT.run (ExceptT.run x) s

/-- An effect from what it does to the state. -/
def query (f : σ → Except ε α × σ) : Effect ε σ α := ExceptT.mk fun s => f s

variable (r : Except ε α)

/-- An effect that leaves the state alone. -/
def ofExcept : Effect ε σ α := ExceptT.mk (pure r)

/-- A computation whose failure is a result like any other. -/
def attempt : Effect ε σ (Except ε α) :=
  query fun s => (.ok (exec x s).1, (exec x s).2)

variable {x : Effect ε σ α} {f : α → Effect ε σ β} {s s' : σ} {a : α} {b : β} {e : ε}

@[simp] lemma exec_pure (a : α) (s : σ) : exec (pure a : Effect ε σ α) s = (.ok a, s) := rfl

@[simp] lemma exec_query (f : σ → Except ε α × σ) (s : σ) : exec (query f) s = f s := rfl

@[simp] lemma exec_ofExcept (s : σ) : exec (ofExcept r : Effect ε σ α) s = (r, s) := rfl

@[simp] lemma exec_attempt (x : Effect ε σ α) (s : σ) :
    exec (attempt x) s = (.ok (exec x s).1, (exec x s).2) := rfl

lemma exec_bind (x : Effect ε σ α) (f : α → Effect ε σ β) (s : σ) :
    exec (x >>= f) s =
      match exec x s with
      | (.ok a, s') => exec (f a) s'
      | (.error e, s') => (.error e, s') := by
  change (ExceptT.bindCont f (exec x s).1 : StateM σ _) (exec x s).2 = _
  rcases exec x s with ⟨r, s'⟩
  cases r <;> rfl

lemma exec_bind_of_ok (h : exec x s = (.ok a, s')) : exec (x >>= f) s = exec (f a) s' := by
  rw [exec_bind, h]

lemma exec_bind_of_error (h : exec x s = (.error e, s')) : exec (x >>= f) s = (.error e, s') := by
  rw [exec_bind, h]

lemma exec_bind_eq_ok :
    exec (x >>= f) s = (.ok b, s') ↔
      ∃ a s1, exec x s = (.ok a, s1) ∧ exec (f a) s1 = (.ok b, s') := by
  rw [exec_bind]
  rcases hx : exec x s with ⟨r, s1⟩
  cases r with
  | ok a =>
    constructor
    · exact fun h => ⟨a, s1, rfl, h⟩
    rintro ⟨a', s2, heq, h⟩
    cases heq
    exact h
  | error =>
    constructor
    · exact fun h => nomatch h
    · rintro ⟨a', s2, heq, -⟩
      cases heq

lemma exec_bind_cases (x : Effect ε σ α) :
    (∃ e s1, exec x s = (.error e, s1) ∧ exec (x >>= f) s = (.error e, s1)) ∨
      ∃ a s1, exec x s = (.ok a, s1) ∧ exec (x >>= f) s = exec (f a) s1 := by
  rcases hx : exec x s with ⟨r, s1⟩
  cases r with
  | ok a => exact .inr ⟨a, s1, rfl, exec_bind_of_ok hx⟩
  | error e => exact .inl ⟨e, s1, rfl, exec_bind_of_error hx⟩

/-! ### Relations between the states before and after -/

variable (R : σ → σ → Prop)

/-- The state after the computation is related to that before it, also if it fails. -/
def Respects (x : Effect ε σ α) : Prop := ∀ s, R s (exec x s).2

section

variable {R : σ → σ → Prop}

lemma respects_pure (hrefl : ∀ s, R s s) (a : α) : Respects R (pure a : Effect ε σ α) := hrefl

lemma respects_throw (hrefl : ∀ s, R s s) (e : ε) : Respects R (throw e : Effect ε σ α) := hrefl

lemma respects_ofExcept (hrefl : ∀ s, R s s) (r : Except ε α) :
    Respects R (ofExcept r : Effect ε σ α) := hrefl

lemma respects_attempt (h : Respects R x) : Respects R (attempt x) := h

lemma respects_bind (htrans : ∀ s1 s2 s3, R s1 s2 → R s2 s3 → R s1 s3) (hx : Respects R x)
    (hf : ∀ a, Respects R (f a)) : Respects R (x >>= f) := by
  intro s
  have hs := hx s
  rcases exec_bind_cases x with ⟨e, s1, hx', hrun⟩ | ⟨a, s1, hx', hrun⟩
  · rw [hx'] at hs
    rw [hrun]
    exact hs
  · rw [hx'] at hs
    rw [hrun]
    exact htrans _ _ _ hs (hf a s1)

end

/-! ### Conditions before and after -/

/-- From a state with `P`, the states before and after are related by `R`, and the result of a
success satisfies `Q` with the state after. -/
def Ensures (P : σ → Prop) (x : Effect ε σ α) (R : σ → σ → Prop) (Q : α → σ → Prop) : Prop :=
  ∀ s, P s → R s (exec x s).2 ∧ ∀ a, (exec x s).1 = .ok a → Q a (exec x s).2

section

variable {P : σ → Prop} {R : σ → σ → Prop} {Q : α → σ → Prop} {T : β → σ → Prop}

lemma ensures_pure (hrefl : ∀ s, R s s) (h : ∀ s, P s → Q a s) :
    Ensures P (pure a : Effect ε σ α) R Q := by
  intro s hs
  refine ⟨hrefl s, ?_⟩
  rintro b ⟨⟩
  exact h s hs

lemma ensures_ofExcept (hrefl : ∀ s, R s s) (r : Except ε α) (h : ∀ s a, P s → Q a s) :
    Ensures P (ofExcept r : Effect ε σ α) R Q :=
  fun s hs => ⟨hrefl s, fun a _ => h s a hs⟩

lemma ensures_bind (htrans : ∀ s1 s2 s3, R s1 s2 → R s2 s3 → R s1 s3) (hx : Ensures P x R Q)
    (hf : ∀ a, Ensures (Q a) (f a) R T) : Ensures P (x >>= f) R T := by
  intro s hs
  obtain ⟨hR, hQ⟩ := hx s hs
  rcases exec_bind_cases x with ⟨e, s1, hx', hrun⟩ | ⟨a, s1, hx', hrun⟩
  · rw [hx'] at hR
    rw [hrun]
    exact ⟨hR, nofun⟩
  · rw [hx'] at hR hQ
    rw [hrun]
    obtain ⟨hR', hQ'⟩ := hf a s1 (hQ a rfl)
    exact ⟨htrans _ _ _ hR hR', hQ'⟩

lemma ensures_attempt (hx : Ensures P x R Q) :
    Ensures P (attempt x) R fun r s => ∀ a, r = .ok a → Q a s := by
  intro s hs
  obtain ⟨hR, hQ⟩ := hx s hs
  refine ⟨hR, ?_⟩
  rintro r ⟨⟩
  exact hQ

lemma Ensures.mono {P' : σ → Prop} {Q' : α → σ → Prop} (h : Ensures P x R Q)
    (hP : ∀ s, P' s → P s) (hQ : ∀ a s, Q a s → Q' a s) : Ensures P' x R Q' :=
  fun s hs => ⟨(h s (hP s hs)).1, fun a ha => hQ a _ ((h s (hP s hs)).2 a ha)⟩

end

/-! ### Results -/

/-- Every result of a success satisfies `Q`, from any state. -/
def Returns (Q : α → Prop) (x : Effect ε σ α) : Prop := ∀ s a, (exec x s).1 = .ok a → Q a

section

variable {Q : α → Prop} {Q' : β → Prop}

lemma returns_pure (h : Q a) : Returns Q (pure a : Effect ε σ α) := by
  rintro s b ⟨⟩
  exact h

lemma returns_throw (e : ε) : Returns Q (throw e : Effect ε σ α) := nofun

lemma returns_true : Returns (fun _ => True) x := fun _ _ _ => trivial

lemma returns_bind (hx : Returns Q x) (hf : ∀ a, Q a → Returns Q' (f a)) :
    Returns Q' (x >>= f) := by
  intro s b hb
  rcases exec_bind_cases x with ⟨e, s1, -, hrun⟩ | ⟨a, s1, hx', hrun⟩
  · rw [hrun] at hb
    cases hb
  · rw [hrun] at hb
    exact hf a (hx s a (by rw [hx'])) s1 b hb

end

/-! ### Successes that change nothing -/

/-- A run that does not fail leaves the state alone. -/
def Quiet (x : Effect ε σ α) : Prop := ∀ s a, (exec x s).1 = .ok a → (exec x s).2 = s

lemma quiet_pure : Quiet (pure a : Effect ε σ α) := fun _ _ _ => rfl

lemma quiet_throw (e : ε) : Quiet (throw e : Effect ε σ α) := fun _ _ _ => rfl

lemma quiet_bind (hx : Quiet x) (hf : ∀ a, Quiet (f a)) : Quiet (x >>= f) := by
  intro s b hb
  rcases exec_bind_cases x with ⟨e, s1, -, hrun⟩ | ⟨a, s1, hx', hrun⟩
  · rw [hrun] at hb
    cases hb
  rw [hrun] at hb ⊢
  have hs := hx s a (by rw [hx'])
  rw [hx'] at hs
  exact (hf a s1 b hb).trans hs

lemma Quiet.ensures {P : σ → Prop} {R : σ → σ → Prop} (hx : Quiet x) (hR : Respects R x) :
    Ensures P x R fun _ s => P s := by
  refine fun s hs => ⟨hR s, fun a ha => ?_⟩
  rw [hx s a ha]
  exact hs

/-! ### Failures -/

/-- Every failure leaves a state that satisfies `P` with the error. -/
def Fails (P : ε → σ → Prop) (x : Effect ε σ α) : Prop :=
  ∀ s e, (exec x s).1 = .error e → P e (exec x s).2

section

variable {P : ε → σ → Prop}

lemma fails_pure (a : α) : Fails P (pure a : Effect ε σ α) := nofun

lemma fails_bind (hx : Fails P x) (hf : ∀ a, Fails P (f a)) : Fails P (x >>= f) := by
  intro s e he
  rcases exec_bind_cases x with ⟨e', s1, hx', hrun⟩ | ⟨a, s1, -, hrun⟩
  · rw [hrun] at he ⊢
    have h := hx s e' (by rw [hx'])
    rw [hx'] at h
    exact Except.error.inj he ▸ h
  · rw [hrun] at he ⊢
    exact hf a s1 e he

end

/-! ### Failures that undo what was done -/

/-- If the computation fails from this state, then the state after it is related to this one. -/
def Undoes (x : Effect ε σ α) (s : σ) : Prop :=
  ∀ e s', exec x s = (.error e, s') → R s s'

section

variable {R : σ → σ → Prop}

lemma undoes_of_ok (h : exec x s = (.ok a, s')) : Undoes R x s := by
  intro e s1 he
  rw [h] at he
  cases he

lemma undoes_iff_of_error (h : exec x s = (.error e, s')) : Undoes R x s ↔ R s s' := by
  constructor
  · exact fun hx => hx e s' h
  intro hR e' s1 he
  rw [h] at he
  cases he
  exact hR

lemma undoes_of_same_error (hR : Equivalence R) (h : exec x s = (.error e, s)) : Undoes R x s :=
  (undoes_iff_of_error h).mpr (hR.refl s)

lemma undoes_bind_iff (hR : Equivalence R) (hx : Respects R x) :
    Undoes R (x >>= f) s ↔ ∀ a s1, exec x s = (.ok a, s1) → Undoes R (f a) s1 := by
  have hs := hx s
  constructor
  · intro h a s1 hok e s2 he
    rw [hok] at hs
    rw [← exec_bind_of_ok hok] at he
    exact hR.trans (hR.symm hs) (h e s2 he)
  intro h e s2 he
  rcases exec_bind_cases x with ⟨e1, s1, hx', hrun⟩ | ⟨a, s1, hx', hrun⟩
  · rw [hx'] at hs
    rw [hrun] at he
    cases he
    exact hs
  · rw [hx'] at hs
    rw [hrun] at he
    exact hR.trans hs (h a s1 hx' e s2 he)

lemma undoes_ofExcept_bind_iff (hR : Equivalence R) {r : Except ε α} :
    Undoes R (ofExcept r >>= f) s ↔ ∀ a, r = .ok a → Undoes R (f a) s := by
  rw [undoes_bind_iff hR (respects_ofExcept hR.refl r)]
  constructor
  · exact fun h a ha => h a s (by rw [exec_ofExcept, ha])
  · rintro h a s1 ⟨⟩
    exact h a rfl

lemma undoes_map_iff (g : α → β) : Undoes R (x >>= fun a => pure (g a)) s ↔ Undoes R x s := by
  rcases hx : exec x s with ⟨r, s1⟩
  cases r with
  | ok => exact iff_of_true (undoes_of_ok (exec_bind_of_ok hx)) (undoes_of_ok hx)
  | error => rw [undoes_iff_of_error (exec_bind_of_error hx), undoes_iff_of_error hx]

end

end Effect

/-! ### Logs -/

/-- A log, last entry first, has grown by entries that `P` allows on what was there before. -/
inductive Grows (P : α → List α → Prop) : List α → List α → Prop
  | refl (l : List α) : Grows P l l
  | push {l l' : List α} {a : α} : Grows P l l' → P a l' → Grows P l (a :: l')

lemma Grows.trans {l1 l2 l3 : List α} (h1 : Grows P l1 l2) (h2 : Grows P l2 l3) :
    Grows P l1 l3 := by
  induction h2 with
  | refl => exact h1
  | push _ ha ih => exact ih.push ha

lemma Grows.one {l : List α} {a : α} (h : P a l) : Grows P l (a :: l) := (Grows.refl l).push h

end Kandelo.Lib
