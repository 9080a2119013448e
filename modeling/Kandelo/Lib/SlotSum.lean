import Kandelo.Lib.Slots
import Mathlib.Algebra.BigOperators.Group.List.Basic
import Mathlib.Algebra.GroupWithZero.Nat

/-!
# Sums over slots

The sum of what each entry of a vector of slots contributes. An entry that comes, goes or
changes moves the sum by its own contribution.
-/

namespace Kandelo.Lib.Slots

open List

universe u

variable {α : Type u} {t : Slots α} {i : Nat} {a : α} {f : α → Nat}

/-- The sum over the entries. -/
def sum (t : Slots α) (f : α → Nat) : Nat := (t.map fun o => o.elim 0 f).sum

lemma sum_set {t : Slots α} {i : Nat} {x y : Option α} (h : t[i]? = some x) :
    sum (t.set i y) f + x.elim 0 f = t.sum f + y.elim 0 f := by
  induction t generalizing i with
  | nil => cases h
  | cons z t ih =>
    cases i with
    | zero =>
      cases h
      simp only [sum, set_cons_zero, map_cons, sum_cons]
      omega
    | succ =>
      have hrest := ih h
      simp only [sum, set_cons_succ, map_cons, sum_cons] at hrest ⊢
      omega

lemma sum_append (s t : Slots α) (f : α → Nat) : sum (s ++ t) f = s.sum f + t.sum f := by
  rw [sum, List.map_append, List.sum_append]
  rfl

lemma sum_insert (t : Slots α) (a : α) (f : α → Nat) : (t.insert a).sum f = t.sum f + f a := by
  unfold insert put
  split
  · next hlt =>
    have hnone : t[t.firstFree]? = some none := by
      have hfree := t.get_firstFree
      unfold get at hfree
      rw [getElem?_eq_getElem hlt] at hfree ⊢
      exact congrArg some hfree
    exact sum_set hnone
  · rw [sum_append]
    rfl

lemma sum_clear (h : t.get i = some a) (f : α → Nat) : (t.clear i).sum f + f a = t.sum f := by
  rw [get_eq_some_iff] at h
  exact sum_set h

lemma sum_update (h : t.get i = some a) (g : α → α) (f : α → Nat) :
    (t.update i g).sum f + f a = t.sum f + f (g a) := by
  rw [get_eq_some_iff] at h
  have hset : t.update i g = t.set i (some (g a)) := by
    apply ext_getElem?
    intro j
    rw [update, getElem?_modify, getElem?_set]
    have hlt : i < t.length := (List.getElem?_eq_some_iff.mp h).1
    by_cases hj : i = j
    · subst hj
      simp only [h, hlt]
      rfl
    · simp only [if_neg hj]
      cases t[j]? <;> rfl
  rw [hset]
  exact sum_set h

lemma le_sum (h : t.get i = some a) (f : α → Nat) : f a ≤ t.sum f := by
  rw [← sum_clear h f]
  exact Nat.le_add_left _ _

lemma count_flatMap_entries {β : Type*} [DecidableEq β] {g : α → List β} {b : β} :
    (t.entries.flatMap g).count b = t.sum fun a => (g a).count b := by
  induction t with
  | nil => rfl
  | cons o t ih =>
    cases o with
    | none => exact ih.trans (Nat.zero_add _).symm
    | some a =>
      have hcons : entries (some a :: t) = a :: entries t := rfl
      rw [hcons, flatMap_cons, count_append, ih]
      rfl

end Kandelo.Lib.Slots
