import Mathlib.Data.List.Basic

/-!
# Scanning until nothing changes

A loop that repeats a scan while the scan reports a change, given fuel. A
measure that every reported change decreases bounds the fuel it needs, and the state it stops
in is one that the scan reported unchanged.
-/

namespace Kandelo.Lib

universe u

variable {σ : Type u}

/-- Repeat `scan` while it reports a change. -/
def saturate (scan : σ → σ × Bool) : Nat → σ → Option σ
  | 0, _ => none
  | fuel + 1, s => if (scan s).2 then saturate scan fuel (scan s).1 else some (scan s).1

lemma saturate_eq_some {scan : σ → σ × Bool} {I : σ → Prop} {m : σ → Nat}
    (hI : ∀ s, I s → I (scan s).1) (hm : ∀ s, I s → (scan s).2 = true → m (scan s).1 < m s)
    {fuel : Nat} {s : σ} (hs : I s) (hfuel : m s < fuel) :
    ∃ t, I t ∧ (scan t).2 = false ∧ saturate scan fuel s = some (scan t).1 := by
  induction fuel generalizing s with
  | zero => omega
  | succ fuel ih =>
    simp only [saturate]
    split
    · next hchanged =>
      have hlt := hm s hs hchanged
      exact ih (hI s hs) (by omega)
    · next hsame => exact ⟨s, hs, by simpa using hsame, rfl⟩

end Kandelo.Lib
