import Mathlib.Algebra.GroupWithZero.Nat
import Mathlib.Data.List.Infix

/-!
# Words and records in byte strings

Little-endian words of any width, the range access of a slice
that fails outside its bounds, and the access to one record of a table of records
of one size. A range inside one part of a concatenation, or inside one record of a table, is read
from that part or record alone.
-/

namespace Kandelo.Lib.Wire

open List

universe u

variable {lo hi m : Nat}

/-! ### Little-endian words -/

/-- The low `n` bytes of a number, the least significant first. -/
def le : Nat → Nat → List UInt8
  | 0, _ => []
  | n + 1, v => UInt8.ofNat v :: le n (v / 256)

/-- The number whose bytes are given, the least significant first. -/
def ofLe : List UInt8 → Nat
  | [] => 0
  | b :: bs => b.toNat + 256 * ofLe bs

@[simp] lemma length_le (n v : Nat) : (le n v).length = n := by
  induction n generalizing v with
  | zero => rfl
  | succ n ih => simp only [le, length_cons, ih]

lemma ofLe_le (n v : Nat) : ofLe (le n v) = v % 256 ^ n := by
  induction n generalizing v with
  | zero => simp only [le, ofLe, Nat.pow_zero, Nat.mod_one]
  | succ n ih =>
    simp only [le, ofLe, ih]
    rw [Nat.pow_succ', Nat.mod_mul, UInt8.toNat_ofNat']

lemma ofNat_ofLe_le {n w : Nat} (h : 256 ^ n = 2 ^ w) (v : BitVec w) :
    BitVec.ofNat w (ofLe (le n v.toNat)) = v := by
  rw [ofLe_le, h, Nat.mod_eq_of_lt v.isLt, BitVec.ofNat_toNat, BitVec.setWidth_eq]

/-! ### Ranges of a slice -/

variable {α β : Type u} {f : α → List β} (xs : List α)

/-- Borrow the elements from `lo` up to `hi`, as `slice::get` does for a range. -/
def range? (lo hi : Nat) : Option (List α) :=
  if lo ≤ hi ∧ hi ≤ xs.length then some ((xs.take hi).drop lo) else none

lemma range?_eq_some {xs ys : List α} (h : range? xs lo hi = some ys) :
    lo ≤ hi ∧ hi ≤ xs.length ∧ ys = (xs.take hi).drop lo := by
  unfold range? at h
  split at h
  · next hb => exact ⟨hb.1, hb.2, (Option.some.inj h).symm⟩
  · cases h

lemma length_of_range? {xs ys : List α} (h : range? xs lo hi = some ys) : ys.length = hi - lo := by
  obtain ⟨hlo, hhi, rfl⟩ := range?_eq_some h
  rw [length_drop, length_take, Nat.min_eq_left hhi]

lemma isInfix_of_range? {xs ys : List α} (h : range? xs lo hi = some ys) : ys <:+: xs := by
  obtain ⟨-, -, rfl⟩ := range?_eq_some h
  exact (drop_suffix _ _).isInfix.trans (List.take_prefix _ _).isInfix

lemma range?_self : range? xs 0 xs.length = some xs := by
  rw [range?, if_pos ⟨Nat.zero_le _, Nat.le_refl _⟩, take_length, drop_zero]

variable (ys : List α)

lemma range?_append_left (h : hi ≤ xs.length) : range? (xs ++ ys) lo hi = range? xs lo hi := by
  unfold range?
  rw [take_append_of_le_length h]
  have : hi ≤ xs.length + ys.length := by omega
  simp [h, this]

lemma range?_append_right (lo hi : Nat) :
    range? (xs ++ ys) (xs.length + lo) (xs.length + hi) = range? ys lo hi := by
  unfold range?
  rw [take_length_add_append]
  simp

lemma range?_middle {xs ys zs : List α} (hlo : lo = xs.length)
    (hhi : hi = xs.length + ys.length) : range? (xs ++ (ys ++ zs)) lo hi = some ys := by
  subst hlo hhi
  rw [← Nat.add_zero xs.length, Nat.add_assoc, Nat.zero_add, range?_append_right,
    range?_append_left _ _ (Nat.le_refl _), range?_self]

lemma range?_flatMap (hf : ∀ a, (f a).length = m) {xs : List α} {i : Nat} {a : α}
    (ha : xs[i]? = some a) (hhi : hi ≤ m) :
    range? (xs.flatMap f) (i * m + lo) (i * m + hi) = range? (f a) lo hi := by
  induction xs generalizing i with
  | nil => cases ha
  | cons x xs ih =>
    rw [flatMap_cons]
    cases i with
    | zero =>
      cases ha
      rw [Nat.zero_mul, Nat.zero_add, Nat.zero_add]
      exact range?_append_left _ _ ((hf a).symm ▸ hhi)
    | succ i =>
      have hsplit : ∀ k, (i + 1) * m + k = (f x).length + (i * m + k) := by
        intro k
        rw [hf x, Nat.succ_mul]
        omega
      rw [hsplit, hsplit, range?_append_right]
      exact ih ha

lemma length_flatMap (hf : ∀ a, (f a).length = m) {xs : List α} :
    (xs.flatMap f).length = xs.length * m := by
  simp [hf]

end Kandelo.Lib.Wire
