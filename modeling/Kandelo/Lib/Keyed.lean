import Mathlib.Data.List.Nodup

/-!
# Lists with one entry for each key

In a list whose keys differ, an entry is found by its key, and to take the first entry
of a key away is to take all of them away.
-/

namespace Kandelo.Lib.Keyed

open List

variable {α κ : Type*} {f : α → κ} {l : List α} {a b : α} {k : κ}

section

variable (h : (l.map f).Nodup)

include h

lemma eq_of_key (ha : a ∈ l) (hb : b ∈ l) (hkey : f a = f b) : a = b :=
  inj_on_of_nodup_map h ha hb hkey

lemma find?_eq_some [DecidableEq κ] : l.find? (f · = k) = some a ↔ a ∈ l ∧ f a = k := by
  constructor
  · intro hfind
    exact ⟨mem_of_find?_eq_some hfind, by simpa using find?_some hfind⟩
  rintro ⟨ha, rfl⟩
  obtain ⟨b, hfind⟩ : ∃ b, l.find? (f · = f a) = some b :=
    Option.isSome_iff_exists.mp (find?_isSome.mpr ⟨a, ha, by simp⟩)
  have hkey : f b = f a := by simpa using find?_some hfind
  rw [hfind, eq_of_key h (mem_of_find?_eq_some hfind) ha hkey]

lemma eraseP_eq_filter [DecidableEq κ] : l.eraseP (f · = k) = l.filter (f · ≠ k) := by
  induction l with
  | nil => rfl
  | cons a l ih =>
    rw [map_cons, nodup_cons] at h
    by_cases hkey : f a = k
    · have hothers : ∀ b ∈ l, f b ≠ k := by
        intro b hb heq
        exact h.1 (mem_map.mpr ⟨b, hb, heq.trans hkey.symm⟩)
      rw [eraseP_cons_of_pos (by simpa using hkey), filter_cons_of_neg (by simpa using hkey),
        filter_eq_self.mpr (by simpa using hothers)]
    · rw [eraseP_cons_of_neg (by simpa using hkey), filter_cons_of_pos (by simpa using hkey),
        ih h.2]

lemma nodup_filter (p : α → Bool) : ((l.filter p).map f).Nodup := h.sublist (filter_sublist.map f)

lemma nodup_concat (hnew : ∀ b ∈ l, f b ≠ f a) : ((l ++ [a]).map f).Nodup := by
  rw [map_append]
  refine h.append (nodup_singleton _) ?_
  intro k hk hk'
  obtain ⟨b, hb, rfl⟩ := mem_map.mp hk
  exact hnew b hb (mem_singleton.mp hk')

end

end Kandelo.Lib.Keyed
