import Mathlib.Data.List.Infix

/-!
# Histories

A history is a list with the latest entry first. A property of an entry and of what
was before it can hold at every moment of a history.
-/

namespace Kandelo.Lib

open List

variable {α : Type*} {P : α → List α → Prop} {a : α} {l : List α}

/-- Each entry has the property with the history before it. -/
def Always (P : α → List α → Prop) (l : List α) : Prop :=
  ∀ a earlier, a :: earlier <:+ l → P a earlier

namespace Always

@[simp] lemma nil : Always P [] := by
  intro a earlier hsuffix
  exact absurd (suffix_nil.mp hsuffix) (cons_ne_nil _ _)

@[simp] lemma cons_iff : Always P (a :: l) ↔ P a l ∧ Always P l := by
  constructor
  · intro h
    exact ⟨h a l (suffix_refl _), fun b earlier hsuffix =>
      h b earlier (hsuffix.trans (suffix_cons a l))⟩
  · rintro ⟨hnow, hbefore⟩ b earlier hsuffix
    rcases suffix_cons_iff.mp hsuffix with heq | hsuffix
    · cases heq
      exact hnow
    · exact hbefore b earlier hsuffix

end Always

end Kandelo.Lib
