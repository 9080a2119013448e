import Mathlib.Data.List.AList

/-!
# The entries of a finite map

How many entries of an association list have a property, and what is found in it, when a key is
added, replaced or taken away.
-/

namespace Kandelo.Lib.Entries

open List Option

variable {α γ : Type*} {β : α → Type*} [DecidableEq α] {s : AList β} {a a' : α} {b b' : β a}
  {p : Sigma β → Bool}

lemma countP_erase (h : s.lookup a = some b) :
    s.entries.countP p = (s.erase a).entries.countP p + if p ⟨a, b⟩ then 1 else 0 := by
  have hmem : a ∈ s.entries.keys := by
    rw [← AList.keys, ← AList.mem_keys, ← AList.lookup_isSome, h, isSome_some]
  obtain ⟨b', l1, l2, -, hentries, herase⟩ := exists_of_kerase hmem
  have hb : b' = b := by
    have hin : ⟨a, b'⟩ ∈ s.entries := by
      rw [hentries]
      exact mem_append_right _ mem_cons_self
    have hlookup : s.lookup a = some b' := AList.mem_lookup_iff.mpr hin
    rw [h] at hlookup
    exact (some.inj hlookup).symm
  have herase' : (s.erase a).entries = l1 ++ l2 := herase
  rw [hentries, herase', countP_append, countP_append, countP_cons, hb]
  exact (Nat.add_assoc ..).symm

lemma countP_insert :
    (s.insert a b).entries.countP p = (s.erase a).entries.countP p + if p ⟨a, b⟩ then 1 else 0 := by
  rw [AList.entries_insert, countP_cons]
  rfl

lemma countP_insert_of_none (h : s.lookup a = none) :
    (s.insert a b).entries.countP p = s.entries.countP p + if p ⟨a, b⟩ then 1 else 0 := by
  rw [AList.entries_insert_of_notMem (AList.lookup_eq_none.mp h), countP_cons]

lemma countP_replace (h : s.lookup a = some b) (hp : p ⟨a, b'⟩ = p ⟨a, b⟩) :
    (s.insert a b').entries.countP p = s.entries.countP p := by
  rw [countP_insert, countP_erase h, hp]

lemma exists_lookup_of_pos (h : 0 < s.entries.countP p) :
    ∃ a b, s.lookup a = some b ∧ p ⟨a, b⟩ = true := by
  obtain ⟨⟨a, b⟩, hmem, hp⟩ := countP_pos_iff.mp h
  exact ⟨a, b, AList.mem_lookup_iff.mpr hmem, hp⟩

lemma pos_of_lookup (h : s.lookup a = some b) (hp : p ⟨a, b⟩ = true) : 0 < s.entries.countP p :=
  countP_pos_iff.mpr ⟨_, AList.mem_lookup_iff.mp h, hp⟩

lemma lookup_insert_eq {s : AList fun _ : α => γ} {c : γ} :
    (s.insert a c).lookup a' = if a' = a then some c else s.lookup a' := by
  split
  · next h => rw [h, AList.lookup_insert]
  · next h => exact AList.lookup_insert_ne h

lemma lookup_erase_eq {s : AList fun _ : α => γ} :
    (s.erase a).lookup a' = if a' = a then none else s.lookup a' := by
  split
  · next h => rw [h, AList.lookup_erase]
  · next h => exact AList.lookup_erase_ne h

end Kandelo.Lib.Entries
