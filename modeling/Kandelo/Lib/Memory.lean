import Mathlib.Data.Nat.ModEq

/-!
# Byte-addressed memory

A memory of a given size whose bytes are addressed by naturals, with
bounds-checked little-endian loads and stores. A load sees the last store to its bytes, and a
store is invisible outside its bytes.
-/

namespace Kandelo.Lib

/-- Memory. Bytes past the size are never read or written. -/
structure Memory where
  size : Nat
  byte : Nat → BitVec 8

variable {lo hi a n v : Nat} {m m' : Memory}

namespace Memory

/-- The number in `n` bytes from `a` on, least significant first. -/
def peek (m : Memory) : Nat → Nat → Nat
  | _, 0 => 0
  | a, n + 1 => (m.byte a).toNat + 256 * m.peek (a + 1) n

/-- Write the `n` low bytes of a number from `a` on. -/
def poke (m : Memory) (a n v : Nat) : Memory :=
  { m with
    byte := fun b => if a ≤ b ∧ b < a + n then BitVec.ofNat 8 (v / 256 ^ (b - a)) else m.byte b }

/-- Load `n` bytes; none is a trap. -/
def load (m : Memory) (a n : Nat) : Option Nat :=
  if a + n ≤ m.size then some (m.peek a n) else none

/-- Store `n` bytes; none is a trap. -/
def store (m : Memory) (a n v : Nat) : Option Memory :=
  if a + n ≤ m.size then some (m.poke a n v) else none

/-- The memories have the same bytes from `lo` up to `hi`. -/
def Agree (lo hi : Nat) (m m' : Memory) : Prop := ∀ a, lo ≤ a → a < hi → m.byte a = m'.byte a

lemma Agree.refl (lo hi : Nat) (m : Memory) : Agree lo hi m m := fun _ _ _ => rfl

lemma Agree.trans {m'' : Memory} (h : Agree lo hi m m')
    (h' : Agree lo hi m' m'') : Agree lo hi m m'' :=
  fun a hlo hhi => (h a hlo hhi).trans (h' a hlo hhi)

lemma Agree.mono {lo' hi' : Nat} (h : Agree lo hi m m') (hlo : lo ≤ lo')
    (hhi : hi' ≤ hi) : Agree lo' hi' m m' :=
  fun a ha hb => h a (hlo.trans ha) (hb.trans_le hhi)

@[simp] lemma size_poke (m : Memory) (a n v : Nat) : (m.poke a n v).size = m.size := rfl

lemma peek_lt (m : Memory) (a n : Nat) : m.peek a n < 256 ^ n := by
  induction n generalizing a with
  | zero => simp [peek]
  | succ n ih =>
    have hrest := ih (a + 1)
    rw [peek]
    omega

lemma peek_congr (h : Agree a (a + n) m m') : m.peek a n = m'.peek a n := by
  induction n generalizing a with
  | zero => rfl
  | succ n ih =>
    have hrest : Agree (a + 1) (a + 1 + n) m m' := h.mono (by omega) (by omega)
    rw [peek, peek, h a (by omega) (by omega), ih hrest]

lemma agree_poke (h : hi ≤ a ∨ a + n ≤ lo) : Agree lo hi (m.poke a n v) m := by
  intro b hlo hhi
  unfold poke
  dsimp only
  rw [if_neg (by omega)]

lemma peek_of_digits (h : ∀ i < n, (m.byte (a + i)).toNat = v / 256 ^ i % 256) :
    m.peek a n = v % 256 ^ n := by
  induction n generalizing a v with
  | zero => rw [peek, pow_zero, Nat.mod_one]
  | succ n ih =>
    have hfirst : (m.byte a).toNat = v % 256 := by simpa using h 0 (by omega)
    have hrest : m.peek (a + 1) n = v / 256 % 256 ^ n := by
      apply ih
      intro i hi
      rw [show a + 1 + i = a + (i + 1) by omega, h (i + 1) (by omega), pow_succ',
        Nat.div_div_eq_div_mul]
    rw [peek, hfirst, hrest, pow_succ', Nat.mod_mul]

lemma peek_poke_same (m : Memory) (a n v : Nat) : (m.poke a n v).peek a n = v % 256 ^ n := by
  apply peek_of_digits
  intro i hi
  unfold poke
  dsimp only
  rw [if_pos (by omega), Nat.add_sub_cancel_left, BitVec.toNat_ofNat]

lemma peek_poke_of_disjoint {a' n' : Nat} (h : a' + n' ≤ a ∨ a + n ≤ a') :
    (m.poke a n v).peek a' n' = m.peek a' n' :=
  peek_congr (agree_poke h)

lemma load_eq_some (h : a + n ≤ m.size) : m.load a n = some (m.peek a n) := if_pos h

lemma store_eq_some (v : Nat) (h : a + n ≤ m.size) : m.store a n v = some (m.poke a n v) := if_pos h

end Memory

end Kandelo.Lib
