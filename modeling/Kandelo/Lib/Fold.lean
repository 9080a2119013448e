import Mathlib.Data.List.Basic

/-!
# Left folds that reach and keep a property

A scan that updates an accumulator record by record establishes facts of
two kinds: those every step keeps, and those one particular element establishes and every
later step keeps. Both are packaged here, with the counting fact by which a repeated
scan is shown to stop.
-/

namespace Kandelo.Lib.Fold

open List Option

universe u v

variable {α : Type u} {σ : Type v} {xs : List α} {I Q : σ → Prop} {x : α} {step : σ → α → Option σ}
  {s t : σ}

lemma foldl_keeps {step : σ → α → σ} (hstep : ∀ s x, x ∈ xs → I s → I (step s x)) (hs : I s) :
    I (xs.foldl step s) := by
  induction xs generalizing s with
  | nil => exact hs
  | cons y ys ih =>
    exact ih (fun s x hx => hstep s x (mem_cons_of_mem y hx)) (hstep s y mem_cons_self hs)

lemma foldl_reaches {step : σ → α → σ} (hI : ∀ s x, I s → I (step s x))
    (hQ : ∀ s x, Q s → Q (step s x)) (hx : x ∈ xs) (hit : ∀ s, I s → Q (step s x)) (hs : I s) :
    Q (xs.foldl step s) := by
  induction xs generalizing s with
  | nil => cases hx
  | cons y ys ih =>
    rcases mem_cons.mp hx with rfl | hx
    · rw [foldl_cons]
      exact foldl_keeps (fun s z _ => hQ s z) (hit s hs)
    · exact ih hx (hI s y hs)

lemma exists_last {p : α → Prop} (hx : x ∈ xs) (hp : p x) :
    ∃ xs1 y xs2, xs = xs1 ++ y :: xs2 ∧ p y ∧ ∀ z ∈ xs2, ¬p z := by
  induction xs generalizing x with
  | nil => cases hx
  | cons w xs ih =>
    by_cases hlater : ∃ z ∈ xs, p z
    · obtain ⟨z, hz, hpz⟩ := hlater
      obtain ⟨xs1, y, xs2, hxs, hy⟩ := ih hz hpz
      exact ⟨w :: xs1, y, xs2, congrArg (w :: ·) hxs, hy⟩
    · have hnone : ∀ z ∈ xs, ¬p z := fun z hz hpz => hlater ⟨z, hz, hpz⟩
      rcases mem_cons.mp hx with rfl | hx
      · exact ⟨[], x, xs, rfl, hp, hnone⟩
      · exact absurd hp (hnone x hx)

lemma countP_lt_countP {p q : α → Bool} (hqp : ∀ x, q x = true → p x = true) (hx : x ∈ xs)
    (hp : p x = true) (hq : q x = false) : xs.countP q < xs.countP p := by
  induction xs with
  | nil => cases hx
  | cons y ys ih =>
    have hle : ys.countP q ≤ ys.countP p := countP_mono_left fun z _ => hqp z
    rw [countP_cons, countP_cons]
    rcases mem_cons.mp hx with rfl | hx
    · simp only [hp, hq, Bool.false_eq_true, if_false, if_true]
      omega
    · split <;> split <;> (simp_all; try omega)

/-! ### Folds that may fail -/

lemma foldlM_keeps (hstep : ∀ s x s', x ∈ xs → step s x = some s' → I s → I s')
    (h : xs.foldlM step s = some t) (hs : I s) : I t := by
  induction xs generalizing s with
  | nil =>
    cases h
    exact hs
  | cons y ys ih =>
    rw [foldlM_cons, bind_eq_bind, bind_eq_some_iff] at h
    obtain ⟨s', hy, h⟩ := h
    exact ih (fun s x s' hx => hstep s x s' (mem_cons_of_mem y hx)) h
      (hstep s y s' mem_cons_self hy hs)

lemma foldlM_reaches (hQ : ∀ s x s', step s x = some s' → Q s → Q s') (hx : x ∈ xs)
    (hit : ∀ s s', step s x = some s' → Q s') (h : xs.foldlM step s = some t) : Q t := by
  induction xs generalizing s with
  | nil => cases hx
  | cons y ys ih =>
    rw [foldlM_cons, bind_eq_bind, bind_eq_some_iff] at h
    obtain ⟨s', hy, h⟩ := h
    rcases mem_cons.mp hx with rfl | hx
    · exact foldlM_keeps (fun s z s' _ => hQ s z s') h (hit s s' hy)
    · exact ih hx h

lemma getElem?_of_mapM {β : Type v} {f : α → Option β} {ys : List β} (h : xs.mapM f = some ys)
    {k : Nat} {y : β} (hk : ys[k]? = some y) :
    ∃ x, xs[k]? = some x ∧ f x = some y := by
  induction xs generalizing ys k with
  | nil =>
    cases h
    cases hk
  | cons x xs ih =>
    simp only [mapM_cons, bind_eq_bind, bind_eq_some_iff] at h
    obtain ⟨z, hz, zs, hzs, h⟩ := h
    cases h
    cases k with
    | zero => exact ⟨x, rfl, hz.trans hk⟩
    | succ => exact ih hzs hk

end Kandelo.Lib.Fold
