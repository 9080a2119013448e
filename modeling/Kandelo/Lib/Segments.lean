import Mathlib.Data.List.Basic

/-!
# Rooted sequences of segments

A list over an alphabet with a separator, read as segments between separators.
`parts` drops the empty ones, `render` writes segments each behind a separator, and the two are
inverse on segments that are not empty and hold no separator.
-/

namespace Kandelo.Lib.Segments

open List

universe u

variable {α : Type u} {sep : α} {cs : List (List α)} {c xs : List α}

/-- Not empty, and without the separator. -/
def IsSegment (sep : α) (c : List α) : Prop := c ≠ [] ∧ sep ∉ c

instance [DecidableEq α] (sep : α) (c : List α) : Decidable (IsSegment sep c) :=
  inferInstanceAs (Decidable (_ ∧ _))

/-- The segments between separators. -/
def parts [DecidableEq α] (sep : α) (xs : List α) : List (List α) :=
  (xs.splitOn sep).filter (· ≠ [])

/-- The rooted list of the segments; the separator alone if there are none. -/
def render (sep : α) (cs : List (List α)) : List α :=
  if cs = [] then [sep] else cs.flatMap (sep :: ·)

lemma not_mem_of_mem_splitOn [DecidableEq α] :
    ∀ {xs : List α} {c : List α}, c ∈ xs.splitOn sep → sep ∉ c := by
  intro xs
  induction xs with
  | nil =>
    intro c hc
    rw [splitOn_nil, mem_singleton] at hc
    rw [hc]
    exact not_mem_nil
  | cons x xs ih =>
    intro c hc
    rw [splitOn, splitOnP_cons_eq_if_modifyHead] at hc
    split at hc
    · rcases mem_cons.mp hc with rfl | hc
      · exact not_mem_nil
      · exact ih hc
    next hx =>
    -- The character goes to the front of the first segment.
    cases hs : splitOnP (· == sep) xs with
    | nil => exact absurd hs (splitOnP_ne_nil _ _)
    | cons d ds =>
      rw [hs] at hc
      have hd : ∀ e ∈ d :: ds, sep ∉ e := fun e he => ih (show e ∈ splitOnP _ xs from hs ▸ he)
      rcases mem_cons.mp hc with rfl | hc
      · intro hmem
        rcases mem_cons.mp hmem with heq | hmem
        · exact hx (by simp [heq])
        · exact hd d mem_cons_self hmem
      · exact hd c (mem_cons_of_mem _ hc)

lemma isSegment_of_mem_parts [DecidableEq α] (h : c ∈ parts sep xs) : IsSegment sep c := by
  obtain ⟨hc, hne⟩ := mem_filter.mp h
  exact ⟨by simpa using hne, not_mem_of_mem_splitOn hc⟩

lemma length_parts_le [DecidableEq α] : (parts sep xs).length ≤ xs.length := by
  induction xs with
  | nil => simp [parts]
  | cons x xs ih =>
    unfold parts splitOn at ih ⊢
    rw [splitOnP_cons_eq_if_modifyHead]
    split
    · exact Nat.le_trans ih (Nat.le_succ _)
    cases hs : splitOnP (· == sep) xs with
    | nil => exact absurd hs (splitOnP_ne_nil _ _)
    | cons d ds =>
      rw [hs] at ih
      rw [modifyHead_cons, filter_cons_of_pos (by simp), length_cons, length_cons]
      have hle : (ds.filter (· ≠ [])).length ≤ ((d :: ds).filter (· ≠ [])).length := by
        rw [filter_cons]
        split
        · exact Nat.le_succ _
        · exact Nat.le_refl _
      omega

/-! ### Rendering -/

lemma render_nil : render sep [] = [sep] := rfl

lemma render_of_ne_nil (h : cs ≠ []) : render sep cs = cs.flatMap (sep :: ·) := if_neg h

variable (cs)

lemma render_append (c : List α) : render sep (cs ++ [c]) = cs.flatMap (sep :: ·) ++ sep :: c := by
  rw [render_of_ne_nil (by simp)]
  simp

lemma head_render : (render sep cs).head? = some sep := by cases cs <;> simp [render]

section

variable (hcs : ∀ c ∈ cs, IsSegment sep c)

include hcs

variable {cs}

lemma one_lt_length_render (hne : cs ≠ []) : 1 < (render sep cs).length := by
  obtain ⟨c, rest, rfl⟩ := exists_cons_of_ne_nil hne
  have hc := length_pos_iff_ne_nil.mpr (hcs c mem_cons_self).1
  rw [render_of_ne_nil hne, flatMap_cons, length_append, length_cons]
  omega

lemma splitOn_tail_render [DecidableEq α] (hne : cs ≠ []) :
    (render sep cs).tail.splitOn sep = cs := by
  rw [render_of_ne_nil hne]
  induction cs with
  | nil => exact absurd rfl hne
  | cons c rest ih =>
    have hc : ∀ x ∈ c, (x == sep) = false := by
      intro x hx
      refine beq_false_of_ne fun heq => (hcs c mem_cons_self).2 ?_
      rw [← heq]
      exact hx
    rw [flatMap_cons, cons_append, tail_cons, splitOn]
    by_cases hrest : rest = []
    · rw [hrest, flatMap_nil, append_nil]
      exact splitOnP_eq_singleton hc
    have htail := ih (fun d hd => hcs d (mem_cons_of_mem _ hd)) hrest
    obtain ⟨d, ds, rfl⟩ := exists_cons_of_ne_nil hrest
    rw [flatMap_cons, cons_append, splitOnP_append_cons_of_forall_mem hc sep (by simp)]
    rw [flatMap_cons, cons_append, tail_cons, splitOn] at htail
    rw [htail]

lemma render_injective [DecidableEq α] {ds : List (List α)} (hds : ∀ c ∈ ds, IsSegment sep c)
    (h : render sep cs = render sep ds) : cs = ds := by
  by_cases hc : cs = []
  · by_cases hd : ds = []
    · rw [hc, hd]
    have hlt := one_lt_length_render hds hd
    rw [← h, hc, render_nil] at hlt
    exact absurd hlt (by simp)
  · by_cases hd : ds = []
    · have hlt := one_lt_length_render hcs hc
      rw [h, hd, render_nil] at hlt
      exact absurd hlt (by simp)
    · rw [← splitOn_tail_render hcs hc, h, splitOn_tail_render hds hd]

end

end Kandelo.Lib.Segments
