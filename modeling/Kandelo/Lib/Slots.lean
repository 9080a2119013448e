import Mathlib.Data.List.Basic

/-!
# Tables of slots

A vector of optional entries, addressed by index: a new entry goes into the first
slot that is free or behind the last one, and an entry that is removed leaves a free slot. Two
tables that answer every lookup alike need not have the same length.
-/

namespace Kandelo.Lib

open List Option

universe u

/-- A table with free slots. -/
abbrev Slots (α : Type u) : Type u := List (Option α)

namespace Slots

variable {α : Type u} {t t' : Slots α} {q : α → Bool} {i : Nat} {a : α}

/-- The entry in a slot. -/
def get (t : Slots α) (i : Nat) : Option α := t[i]?.join

/-- The first free slot. -/
def firstFree (t : Slots α) : Nat := t.findIdx Option.isNone

/-- Put an entry into a slot, behind the last one if the slot is not there. -/
def put (t : Slots α) (i : Nat) (a : α) : Slots α :=
  if i < t.length then t.set i (some a) else t ++ [some a]

/-- Put an entry into the first free slot. -/
def insert (t : Slots α) (a : α) : Slots α := t.put t.firstFree a

/-- Free a slot. -/
def clear (t : Slots α) (i : Nat) : Slots α := t.set i none

/-- Change the entry at an index, if there is one. -/
def update (t : Slots α) (i : Nat) (f : α → α) : Slots α := t.modify i (Option.map f)

lemma get_eq_some_iff : t.get i = some a ↔ t[i]? = some (some a) := by rw [get, join_eq_some_iff]

lemma get_of_length_le (h : t.length ≤ i) : t.get i = none := by
  rw [get, getElem?_eq_none h, join_none]

lemma firstFree_le (t : Slots α) : t.firstFree ≤ t.length := findIdx_le_length

lemma get_firstFree (t : Slots α) : t.get t.firstFree = none := by
  by_cases h : t.firstFree < t.length
  · have hfree : (t[t.firstFree]).isNone = true := findIdx_getElem (w := h)
    rw [get, getElem?_eq_getElem h]
    exact isNone_iff_eq_none.mp hfree
  · exact get_of_length_le (Nat.le_of_not_lt h)

lemma get_put (h : i ≤ t.length) (a : α) (j : Nat) :
    (t.put i a).get j = if j = i then some a else t.get j := by
  unfold put get
  split
  · next hi =>
    by_cases hj : j = i
    · rw [if_pos hj, hj, getElem?_set_self hi, join_some]
    · rw [if_neg hj, getElem?_set_ne (Ne.symm hj)]
  next hi =>
  have hlen : i = t.length := Nat.le_antisymm h (Nat.le_of_not_lt hi)
  subst hlen
  by_cases hj : j = t.length
  · rw [if_pos hj, hj, getElem?_concat_length, join_some]
  rw [getElem?_append]
  split
  · rfl
  next hlt =>
  rw [getElem?_eq_none (l := t) (by omega), getElem?_eq_none (by rw [length_singleton]; omega)]

variable (t)

@[simp] lemma get_insert (a : α) (j : Nat) :
    (t.insert a).get j = if j = t.firstFree then some a else t.get j :=
  get_put t.firstFree_le a j

@[simp] lemma get_clear (i j : Nat) : (t.clear i).get j = if j = i then none else t.get j := by
  unfold clear get
  by_cases hj : j = i
  · rw [if_pos hj, hj, getElem?_set_self']
    cases t[i]? <;> rfl
  · rw [if_neg hj, getElem?_set_ne (Ne.symm hj)]

@[simp] lemma get_update (i : Nat) (f : α → α) (j : Nat) :
    (t.update i f).get j = if j = i then (t.get j).map f else t.get j := by
  unfold update get
  rw [getElem?_modify]
  by_cases hj : j = i
  · subst hj
    simp only
    rcases t[j]? with _ | _ | a <;> rfl
  · simp only [if_neg hj, if_neg (Ne.symm hj)]
    rcases t[j]? with _ | _ | a <;> rfl

lemma get_clear_insert (a : α) (j : Nat) : ((t.insert a).clear t.firstFree).get j = t.get j := by
  rw [get_clear, get_insert]
  by_cases hj : j = t.firstFree
  · rw [if_pos hj, hj, get_firstFree]
  · rw [if_neg hj, if_neg hj]

variable {t}

lemma eq_of_get_eq (hlen : t.length = t'.length) (h : ∀ i, t.get i = t'.get i) : t = t' := by
  apply ext_getElem hlen
  intro i hi hi'
  have hget := h i
  rwa [get, get, getElem?_eq_getElem hi, getElem?_eq_getElem hi'] at hget

lemma length_put_le (t : Slots α) (i : Nat) (a : α) : t.length ≤ (t.put i a).length := by
  unfold put
  split
  · exact Nat.le_of_eq (length_set ..).symm
  · rw [length_append]
    exact Nat.le_add_right ..

/-! ### Counting entries -/

/-- The entries in order. -/
def entries (t : Slots α) : List α := t.filterMap id

/-- How many entries have a property. -/
def count (t : Slots α) (q : α → Bool) : Nat := t.countP (·.any q)

lemma countP_entries (t : Slots α) (q : α → Bool) : t.entries.countP q = t.count q := by
  induction t with
  | nil => rfl
  | cons slot t ih =>
    cases slot with
    | none => simpa [entries, count] using ih
    | some => simpa [entries, count, countP_cons] using ih

lemma mem_entries : a ∈ t.entries ↔ ∃ i, t.get i = some a := by
  rw [entries, mem_filterMap]
  simp only [id_eq, exists_eq_right, get_eq_some_iff]
  exact mem_iff_getElem?

lemma count_eq_countP_range {n : Nat} (h : t.length ≤ n) :
    t.count q = (range n).countP fun i => (t.get i).any q := by
  induction t generalizing n with
  | nil => simp [count, get]
  | cons slot t ih =>
    obtain ⟨n, rfl⟩ : ∃ m, n = m + 1 := ⟨n - 1, by simp at h; omega⟩
    rw [range_succ_eq_map, countP_cons, countP_map, count, countP_cons]
    exact congrArg₂ (· + ·) (ih (Nat.le_of_succ_le_succ h)) rfl

lemma count_congr {q' : α → Bool} (h : ∀ i, (t.get i).any q = (t'.get i).any q') :
    t.count q = t'.count q' := by
  rw [count_eq_countP_range (Nat.le_max_left t.length t'.length),
    count_eq_countP_range (Nat.le_max_right t.length t'.length)]
  exact countP_congr fun i _ => by rw [h]

lemma count_clear (h : t.get i = some a) (q : α → Bool) :
    (t.clear i).count q + (if q a then 1 else 0) = t.count q := by
  obtain ⟨hi, hget⟩ := List.getElem?_eq_some_iff.mp (get_eq_some_iff.mp h)
  have hpos : (if (t[i]).any q = true then 1 else 0) ≤ t.countP (·.any q) := by
    split
    · next hq => exact countP_pos_iff.mpr ⟨_, getElem_mem hi, hq⟩
    · exact Nat.zero_le _
  rw [count, clear, countP_set hi, count]
  rw [hget] at hpos ⊢
  simp only [any_some, any_none] at hpos ⊢
  simp only [Bool.false_eq_true, if_false]
  omega

lemma count_insert (t : Slots α) (a : α) (q : α → Bool) :
    (t.insert a).count q = t.count q + if q a then 1 else 0 := by
  have hget : (t.insert a).get t.firstFree = some a := by rw [get_insert, if_pos rfl]
  rw [← count_clear hget]
  exact congrArg (· + _) (count_congr fun i => by rw [get_clear_insert])

lemma count_update {f : α → α} (h : ∀ a, q (f a) = q a) : (t.update i f).count q = t.count q := by
  apply count_congr
  intro j
  rw [get_update]
  split
  · cases t.get j with
    | none => rfl
    | some a => exact h a
  · rfl

lemma count_pos (h : t.get i = some a) (hq : q a = true) : 0 < t.count q :=
  countP_pos_iff.mpr ⟨some a, mem_of_getElem? (get_eq_some_iff.mp h), hq⟩

lemma exists_of_count_pos (h : 0 < t.count q) : ∃ i a, t.get i = some a ∧ q a = true := by
  rw [← countP_entries, countP_pos_iff] at h
  obtain ⟨a, ha, hq⟩ := h
  obtain ⟨i, hi⟩ := mem_entries.mp ha
  exact ⟨i, a, hi, hq⟩

lemma count_eq_zero (h : ∀ i a, t.get i = some a → q a = false) : t.count q = 0 := by
  rw [← countP_entries, countP_eq_zero]
  intro a ha
  obtain ⟨i, hi⟩ := mem_entries.mp ha
  rw [h i a hi]
  exact Bool.false_ne_true

lemma eq_of_count_le_one {j : Nat} {b : α} (h : t.count q ≤ 1) (ha : t.get i = some a)
    (hb : t.get j = some b) (hqa : q a = true) (hqb : q b = true) : i = j := by
  by_contra hne
  have hclear := count_clear ha q
  have hrest : (t.clear i).get j = some b := by rw [get_clear, if_neg (Ne.symm hne), hb]
  have hpos := count_pos hrest hqb
  rw [if_pos hqa] at hclear
  omega

lemma count_update_of_get (h : t.get i = some a) (f : α → α) (q : α → Bool) :
    (t.update i f).count q + (if q a then 1 else 0) = t.count q + if q (f a) then 1 else 0 := by
  have hget : (t.update i f).get i = some (f a) := by rw [get_update, if_pos rfl, h, map_some]
  have hsame : ((t.update i f).clear i).count q = (t.clear i).count q := by
    apply count_congr
    intro j
    rw [get_clear, get_clear, get_update]
    split
    · rfl
    · rfl
  have hbefore := count_clear h q
  have hafter := count_clear hget q
  omega

end Slots

end Kandelo.Lib
