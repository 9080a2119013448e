import Mathlib.Data.List.Infix

/-!
# Queues that drop their oldest entries

A full queue makes room for new entries by dropping from its front, some entries at a time.
-/

namespace Kandelo.Lib.Overrun

open List

variable {α : Type*} {cap size need : Nat} {q : List α}

/-- Drop `size` entries from the front until `need` more fit below `cap`, or none is left. -/
def makeRoom (cap size need : Nat) (q : List α) : List α :=
  if cap < q.length + need ∧ q ≠ [] ∧ size ≠ 0 then makeRoom cap size need (q.drop size) else q
termination_by q.length
decreasing_by
  have := length_pos_iff.mpr (And.left (And.right (by assumption)))
  rw [length_drop]
  omega

lemma makeRoom_suffix : makeRoom cap size need q <:+ q := by
  fun_induction makeRoom cap size need q with
  | case1 q _ ih => exact ih.trans (drop_suffix size q)
  | case2 => exact suffix_refl _

lemma makeRoom_of_le (h : q.length + need ≤ cap) : makeRoom cap size need q = q := by
  rw [makeRoom, if_neg fun hc => absurd hc.1 (Nat.not_lt.mpr h)]

/-- There is room and pieces were dropped whole, if and only if the new entries fit in beside an
incomplete piece. -/
theorem makeRoom_whole_iff (hsize : 0 < size) :
    (makeRoom cap size need q).length + need ≤ cap ∧
        size ∣ q.length - (makeRoom cap size need q).length ↔ need + q.length % size ≤ cap := by
  fun_induction makeRoom cap size need q with
  | case1 q hc ih =>
    have hle : (makeRoom cap size need (q.drop size)).length ≤ _ := makeRoom_suffix.length_le
    have hpos := length_pos_iff.mpr hc.2.1
    rw [length_drop] at ih hle
    by_cases hlen : size ≤ q.length
    · rw [← Nat.mod_eq_sub_mod hlen] at ih
      rw [← ih, ← Nat.dvd_add_self_right (n := q.length - size - _)]
      congr! 2
      omega
    · rw [Nat.mod_eq_of_lt (by omega)]
      refine iff_of_false (fun h => ?_) (by omega)
      have := Nat.le_of_dvd (by omega) h.2
      omega
  | case2 q hc =>
    have hmod := Nat.mod_le q.length size
    by_cases hnil : q = []
    · simp [hnil]
    · exact iff_of_true ⟨by_contra fun h => hc ⟨by omega, hnil, by omega⟩, by simp⟩
        (by_contra fun h => hc ⟨by omega, hnil, by omega⟩)

end Kandelo.Lib.Overrun
