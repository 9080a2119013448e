import Mathlib.Algebra.Order.Group.Nat

/-!
# Pointer-sized arithmetic

The kernel is compiled for either Wasm pointer width, so `usize`
operations take the width as an argument. Checked, saturating and wrapping addition
agree with the sum whenever it is representable.
-/

namespace Kandelo.Kernel

/-- Pointer width of the kernel module. -/
inductive PointerWidth
  | wasm32
  | wasm64

namespace PointerWidth

/-- Largest `usize` value. -/
def usizeMax : PointerWidth → Nat
  | wasm32 => 2 ^ 32 - 1
  | wasm64 => 2 ^ 64 - 1

variable (w : PointerWidth)

lemma le_usizeMax : 2 ^ 32 - 1 ≤ w.usizeMax := by cases w <;> decide

/-- Add as `usize::checked_add` does. -/
def checkedAdd (a b : Nat) : Option Nat :=
  if a + b ≤ w.usizeMax then some (a + b) else none

/-- Add as `usize::saturating_add` does. -/
def saturatingAdd (a b : Nat) : Nat := min (a + b) w.usizeMax

/-- Add as release-mode `+` does. -/
def wrappingAdd (a b : Nat) : Nat := (a + b) % (w.usizeMax + 1)

variable {w : PointerWidth} {b a : Nat}

lemma checkedAdd_eq_some {c : Nat} (h : w.checkedAdd a b = some c) :
    c = a + b ∧ a + b ≤ w.usizeMax := by
  simp only [checkedAdd] at h
  split at h
  · next hle => exact ⟨(Option.some.inj h).symm, hle⟩
  · cases h

lemma saturatingAdd_eq (h : a + b ≤ w.usizeMax) : w.saturatingAdd a b = a + b := Nat.min_eq_left h

lemma wrappingAdd_eq (h : a + b ≤ w.usizeMax) :
    w.wrappingAdd a b = a + b := Nat.mod_eq_of_lt (Nat.lt_succ_of_le h)

end PointerWidth

end Kandelo.Kernel
