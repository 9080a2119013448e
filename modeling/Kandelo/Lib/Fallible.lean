import Mathlib.Data.List.Induction

/-!
# Computations that may fail

How a computation in `Except` that succeeded went: each of its steps succeeded; and
loops in it, over the elements or the positions of a list.
-/

namespace Kandelo.Lib.Fallible

open List

universe u v

variable {ε : Type u} {α β : Type v} {x : Except ε α} {f : α → Except ε β} {a : α} {b : β} {e : ε}
  {xs : List α}

lemma ok_bind : (Except.ok a >>= f) = f a := rfl

lemma bind_eq_ok : x >>= f = .ok b ↔ ∃ a, x = .ok a ∧ f a = .ok b := by
  cases x with
  | error => exact ⟨nofun, fun ⟨_, h, _⟩ => nomatch h⟩
  | ok a => exact ⟨fun h => ⟨a, rfl, h⟩, fun ⟨_, h, hf⟩ => by cases h; exact hf⟩

lemma bind_ne_error (hx : x ≠ .error e) (hf : ∀ a, x = .ok a → f a ≠ .error e) :
    x >>= f ≠ .error e := by
  cases x with
  | error => exact fun h => hx (congrArg _ (Except.error.inj h))
  | ok a => exact hf a rfl

/-! ### Loops -/

lemma mapM_ne_error (hf : ∀ a ∈ xs, f a ≠ .error e) : xs.mapM f ≠ .error e := by
  induction xs with
  | nil => exact nofun
  | cons a xs ih =>
    rw [mapM_cons]
    refine bind_ne_error (hf a mem_cons_self) fun b _ => bind_ne_error ?_ fun _ _ => nofun
    exact ih fun a ha => hf a (mem_cons_of_mem _ ha)

lemma exists_of_mem_mapM {ys : List β} (h : xs.mapM f = .ok ys) (hb : b ∈ ys) :
    ∃ a ∈ xs, f a = .ok b := by
  induction xs generalizing ys with
  | nil =>
    cases h
    cases hb
  | cons x xs ih =>
    rw [mapM_cons] at h
    obtain ⟨y, hy, h⟩ := bind_eq_ok.mp h
    obtain ⟨zs, hzs, h⟩ := bind_eq_ok.mp h
    cases h
    cases hb with
    | head => exact ⟨x, mem_cons_self, hy⟩
    | tail _ hb =>
      obtain ⟨a, ha, hfa⟩ := ih hzs hb
      exact ⟨a, mem_cons_of_mem _ ha, hfa⟩

lemma mapM_range {β : Type v} {g : Nat → Except ε β} {f : α → Except ε β}
    (h : ∀ i a, xs[i]? = some a → g i = f a) : (range xs.length).mapM g = xs.mapM f := by
  induction xs using reverseRecOn with
  | nil => rfl
  | append_singleton xs a ih =>
    have hinit : (range xs.length).mapM g = xs.mapM f := by
      apply ih
      intro i a hi
      apply h
      rw [List.getElem?_append_left (List.getElem?_eq_some_iff.mp hi).1]
      exact hi
    have hlast : g xs.length = f a := h _ _ (by simp)
    rw [length_append, length_singleton, range_succ, mapM_append,
      mapM_append, hinit, mapM_cons, hlast]
    rfl

end Kandelo.Lib.Fallible
