import Kandelo.Lib.Slots
import Mathlib.Algebra.BigOperators.Group.Finset.Piecewise

/-!
# Fleets

A number of parties that come and go, each with a state of its own, and sums over
those that are there. One party that moves, joins or leaves changes a sum by its own share.
-/

namespace Kandelo.Lib

open Function Finset

universe u v

/-- Parties with names in `ι`, each with a state in `σ`. -/
structure Fleet (ι : Type u) (σ : Type v) where
  live : Finset ι
  state : ι → σ

namespace Fleet

variable {ι : Type u} {σ : Type v} [DecidableEq ι] {f : Fleet ι σ} {i j : ι} {x : σ}

/-- Replace the state of a process. -/
def set (f : Fleet ι σ) (i : ι) (x : σ) : Fleet ι σ :=
  { f with state := Function.update f.state i x }

/-- A process appears. -/
def add (f : Fleet ι σ) (i : ι) (x : σ) : Fleet ι σ :=
  ⟨insert i f.live, Function.update f.state i x⟩

/-- A process is removed. -/
def remove (f : Fleet ι σ) (i : ι) : Fleet ι σ := { f with live := f.live.erase i }

/-- The sum over the live processes. -/
def total (f : Fleet ι σ) (n : σ → Nat) : Nat := ∑ i ∈ f.live, n (f.state i)

@[simp] lemma live_set (f : Fleet ι σ) (i : ι) (x : σ) : (f.set i x).live = f.live := rfl

@[simp] lemma mem_live_add : j ∈ (f.add i x).live ↔ j = i ∨ j ∈ f.live := mem_insert

@[simp] lemma mem_live_remove : j ∈ (f.remove i).live ↔ j ≠ i ∧ j ∈ f.live := mem_erase

@[simp] lemma state_set_self (f : Fleet ι σ) (i : ι) (x : σ) : (f.set i x).state i = x :=
  update_self ..

@[simp] lemma state_add_self (f : Fleet ι σ) (i : ι) (x : σ) : (f.add i x).state i = x :=
  update_self ..

@[simp] lemma state_set_of_ne (h : j ≠ i) : (f.set i x).state j = f.state j := update_of_ne h ..

@[simp] lemma state_add_of_ne (h : j ≠ i) : (f.add i x).state j = f.state j := update_of_ne h ..

@[simp] lemma state_remove (f : Fleet ι σ) (i : ι) : (f.remove i).state = f.state := rfl

lemma sum_others {s : Finset ι} (hs : i ∉ s) (n : σ → Nat) :
    ∑ j ∈ s, n (Function.update f.state i x j) = ∑ j ∈ s, n (f.state j) := by
  apply sum_congr rfl
  intro j hj
  rw [update_of_ne]
  rintro rfl
  exact hs hj

lemma total_add_party (h : i ∉ f.live) (n : σ → Nat) : (f.add i x).total n = f.total n + n x := by
  have hsplit : (f.add i x).total n = n x + ∑ j ∈ f.live, n ((f.add i x).state j) := by
    rw [total, add, sum_insert h, ← add, state_add_self]
  rw [hsplit, Nat.add_comm]
  exact congrArg (· + _) (sum_others h n)

lemma total_remove (h : i ∈ f.live) (n : σ → Nat) :
    (f.remove i).total n + n (f.state i) = f.total n := sum_erase_add f.live _ h

lemma le_total (h : i ∈ f.live) (n : σ → Nat) : n (f.state i) ≤ f.total n := by
  rw [← total_remove h]
  exact Nat.le_add_left ..

lemma total_set (h : i ∈ f.live) (n : σ → Nat) :
    (f.set i x).total n + n (f.state i) = f.total n + n x := by
  have hsplit : (f.set i x).total n = (f.remove i).total n + n x := by
    rw [total, live_set, ← sum_erase_add f.live _ h, state_set_self]
    exact congrArg (· + _) (sum_others (notMem_erase i f.live) n)
  rw [← total_remove h]
  omega

end Fleet

end Kandelo.Lib
