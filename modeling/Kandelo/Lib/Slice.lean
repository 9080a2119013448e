import Mathlib.Data.List.Basic
import Mathlib.Order.Lattice

/-!
# Searching, inserting into and compacting slices

Executable models of the slice and vector primitives that sorted
tables are built from: the halving loop of `slice::binary_search_by`,
`slice::partition_point`, sorted insertion, and an in-place compaction that shifts
the kept elements of an index window to its front before draining the rest.
Each operation has one law, stated for the inputs its documentation asks for.
-/

namespace Kandelo.Lib.Slice

open List

universe u

variable {α : Type u} {xs ys : List α} {f : α → Ordering} {p : α → Bool} {i j k : Nat} {x y : α}

/-! ### Binary search -/

/-- The halving loop of `slice::binary_search_by`: the candidate position is moved to the
middle unless the element there compares greater. -/
def searchLoop (f : α → Ordering) (xs : List α) : Nat → Nat → Nat → Nat
  | 0, base, _ => base
  | fuel + 1, base, size =>
    if 1 < size then
      let half := size / 2
      let mid := base + half
      let next :=
        match xs[mid]? with
        | some x => if f x = .gt then base else mid
        | none => base
      searchLoop f xs fuel next (size - half)
    else base

variable (f)

/-- Search as `slice::binary_search_by` does: `ok` with a matching position, or `error` with the
position at which a matching element could be inserted. -/
def binarySearchBy (xs : List α) : Except Nat Nat :=
  let base := searchLoop f xs xs.length 0 xs.length
  match xs[base]? with
  | none => .error 0
  | some x =>
    match f x with
    | .eq => .ok base
    | .lt => .error (base + 1)
    | .gt => .error base

/-- The slice is ordered consistently with the comparator, as `binary_search_by` requires. -/
def Ordered (xs : List α) : Prop :=
  xs.Pairwise fun a b => (f a = .gt → f b = .gt) ∧ (f b = .lt → f a = .lt)

variable {f}

lemma ordered_get (h : Ordered f xs) (hij : i ≤ j) (hx : xs[i]? = some x)
    (hy : xs[j]? = some y) : (f x = .gt → f y = .gt) ∧ (f y = .lt → f x = .lt) := by
  obtain ⟨hi, rfl⟩ := List.getElem?_eq_some_iff.mp hx
  obtain ⟨hj, rfl⟩ := List.getElem?_eq_some_iff.mp hy
  rcases Nat.lt_or_eq_of_le hij with hlt | rfl
  · exact pairwise_iff_getElem.mp h i j hi hj hlt
  · exact ⟨id, id⟩

/-- What the halving loop maintains: a nonempty window inside the slice, nothing greater at
its base unless the base is still the start, and only greater elements behind it. -/
private structure Window (f : α → Ordering) (xs : List α) (base size : Nat) : Prop where
  pos : 0 < size
  bound : base + size ≤ xs.length
  base_le : base = 0 ∨ ∃ x, xs[base]? = some x ∧ f x ≠ .gt
  after : ∀ j x, base + size ≤ j → xs[j]? = some x → f x = .gt

lemma searchLoop_window (ho : Ordered f xs) (fuel base size : Nat) (hf : size ≤ fuel)
    (hw : Window f xs base size) : Window f xs (searchLoop f xs fuel base size) 1 := by
  induction fuel generalizing base size with
  | zero => exact absurd hw.pos (by omega)
  | succ fuel ih =>
    simp only [searchLoop]
    split
    · next hsize =>
      have hmid : base + size / 2 < xs.length := by have := hw.bound; omega
      rw [getElem?_eq_getElem hmid]
      dsimp only
      split
      · next hgt =>
        refine ih base (size - size / 2) (by omega)
          ⟨by omega, by have := hw.bound; omega, hw.base_le, ?_⟩
        intro j x hj hx
        by_cases hjm : base + size / 2 ≤ j
        · exact (ordered_get ho hjm (getElem?_eq_getElem hmid) hx).1 hgt
        · omega
      · next hgt =>
        refine ih (base + size / 2) (size - size / 2) (by omega) ⟨by omega,
          by have := hw.bound; omega, .inr ⟨_, getElem?_eq_getElem hmid, hgt⟩, ?_⟩
        intro j x hj hx
        exact hw.after j x (by omega) hx
    · next hsize =>
      have h1 : size = 1 := by have := hw.pos; omega
      rwa [h1] at hw

lemma searchLoop_spec (ho : Ordered f xs) (hne : 0 < xs.length) :
    Window f xs (searchLoop f xs xs.length 0 xs.length) 1 := by
  refine searchLoop_window ho _ 0 _ (Nat.le_refl _) ⟨hne, by omega, .inl rfl, ?_⟩
  intro j x hj hx
  obtain ⟨hlt, -⟩ := List.getElem?_eq_some_iff.mp hx
  omega

lemma binarySearchBy_ok (h : binarySearchBy f xs = .ok i) : ∃ x, xs[i]? = some x ∧ f x = .eq := by
  simp only [binarySearchBy] at h
  split at h
  · cases h
  next x hx =>
  split at h
  · next he =>
    cases h
    exact ⟨x, hx, he⟩
  · cases h
  · cases h

lemma binarySearchBy_error (ho : Ordered f xs) (h : binarySearchBy f xs = .error i) :
    i ≤ xs.length ∧ (∀ x ∈ xs.take i, f x = .lt) ∧ ∀ x ∈ xs.drop i, f x = .gt := by
  by_cases hne : 0 < xs.length
  · have hw := searchLoop_spec ho hne
    simp only [binarySearchBy] at h
    generalize searchLoop f xs xs.length 0 xs.length = base at h hw
    have hb : base < xs.length := by have := hw.bound; omega
    rw [getElem?_eq_getElem hb] at h
    dsimp only at h
    split at h
    · cases h
    · next hlt =>
      cases h
      refine ⟨hb, ?_, ?_⟩
      · intro x hx
        obtain ⟨j, hj, rfl⟩ := mem_take_iff_getElem.mp hx
        exact (ordered_get ho (by omega) (getElem?_eq_getElem (by omega))
          (getElem?_eq_getElem hb)).2 hlt
      · intro x hx
        obtain ⟨j, hj, rfl⟩ := mem_drop_iff_getElem.mp hx
        exact hw.after _ _ (by omega) (getElem?_eq_getElem _)
    · next hgt =>
      cases h
      refine ⟨by omega, ?_, ?_⟩
      · -- A greater base is only possible when the window never left the start.
        intro x hx
        rcases hw.base_le with h0 | ⟨y, hy, hng⟩
        · simp [h0] at hx
        rw [getElem?_eq_getElem hb] at hy
        cases hy
        exact absurd hgt hng
      · intro x hx
        obtain ⟨j, hj, rfl⟩ := mem_drop_iff_getElem.mp hx
        exact (ordered_get ho (Nat.le_add_right i j) (getElem?_eq_getElem hb)
          (getElem?_eq_getElem _)).1 hgt
  · have hnil : xs = [] := length_eq_zero_iff.mp (by omega)
    subst hnil
    cases h
    simp

/-! ### Partition points -/

/-- Search as `slice::partition_point` does: binary search with a comparator that is never equal. -/
def partitionPoint (p : α → Bool) (xs : List α) : Nat :=
  match binarySearchBy (fun x => if p x then .lt else .gt) xs with
  | .ok i => i
  | .error i => i

lemma partitionPoint_spec (h : xs.Pairwise fun a b => p b = true → p a = true) :
    partitionPoint p xs ≤ xs.length ∧ (∀ x ∈ xs.take (partitionPoint p xs), p x = true) ∧
      ∀ x ∈ xs.drop (partitionPoint p xs), p x = false := by
  have ho : Ordered (fun x => if p x then Ordering.lt else .gt) xs := by
    refine h.imp ?_
    intro a b hab
    cases ha : p a <;> cases hb : p b <;> simp_all
  unfold partitionPoint
  split
  · next i hi =>
    obtain ⟨x, -, hx⟩ := binarySearchBy_ok hi
    split at hx <;> cases hx
  next i hi =>
  obtain ⟨hl, ht, hd⟩ := binarySearchBy_error ho hi
  refine ⟨hl, fun x hx => ?_, fun x hx => ?_⟩
  · have := ht x hx
    split at this <;> simp_all
  · have := hd x hx
    split at this <;> simp_all

/-! ### Sorted insertion -/

variable (cmp : α → α → Ordering)

/-- Insert at the position `binary_search_by` reports, matching or not. -/
def insertSortedBy (xs : List α) (x : α) : List α :=
  let index :=
    match binarySearchBy (fun existing => cmp existing x) xs with
    | .ok i => i
    | .error i => i
  xs.take index ++ x :: xs.drop index

lemma insertSortedBy_perm (xs : List α) (x : α) : (insertSortedBy cmp xs x).Perm (x :: xs) := by
  refine perm_middle.trans (.cons x ?_)
  rw [take_append_drop]

lemma insertSortedBy_sorted [LinearOrder α] {cmp : α → α → Ordering}
    (hcmp : ∀ a b, cmp a b = compare a b) (hs : xs.Pairwise (· ≤ ·)) (x : α) :
    (insertSortedBy cmp xs x).Pairwise (· ≤ ·) := by
  have ho : Ordered (fun y => cmp y x) xs := by
    refine hs.imp ?_
    intro a b hab
    simp only [hcmp, compare_gt_iff_gt, compare_lt_iff_lt]
    exact ⟨fun h => lt_of_lt_of_le h hab, fun h => lt_of_le_of_lt hab h⟩
  -- Every element before the chosen index is at most `x`, every element from it on at least.
  have key : ∀ index, (∀ y ∈ xs.take index, y ≤ x) → (∀ y ∈ xs.drop index, x ≤ y) →
      (xs.take index ++ x :: xs.drop index).Pairwise (· ≤ ·) := by
    intro index hbefore hafter
    refine pairwise_append.mpr ⟨hs.sublist (take_sublist _ _),
      pairwise_cons.mpr ⟨hafter, hs.sublist (drop_sublist _ _)⟩, ?_⟩
    intro a ha b hb
    rcases mem_cons.mp hb with rfl | hb
    · exact hbefore a ha
    · exact le_trans (hbefore a ha) (hafter b hb)
  unfold insertSortedBy
  split
  · next i hi =>
    obtain ⟨y, hy, he⟩ := binarySearchBy_ok hi
    rw [hcmp, compare_eq_iff_eq] at he
    subst he
    obtain ⟨hlt, rfl⟩ := List.getElem?_eq_some_iff.mp hy
    refine key i (fun z hz => ?_) (fun z hz => ?_)
    · obtain ⟨j, hj, rfl⟩ := mem_take_iff_getElem.mp hz
      exact pairwise_iff_getElem.mp hs j i (by omega) hlt (by omega)
    obtain ⟨j, hj, rfl⟩ := mem_drop_iff_getElem.mp hz
    rcases Nat.eq_zero_or_pos j with rfl | hpos
    · exact le_refl _
    · exact pairwise_iff_getElem.mp hs i (i + j) hlt (by omega) (by omega)
  · next i hi =>
    obtain ⟨-, ht, hd⟩ := binarySearchBy_error ho hi
    refine key i (fun z hz => ?_) (fun z hz => ?_)
    · have := ht z hz
      rw [hcmp, compare_lt_iff_lt] at this
      exact le_of_lt this
    · have := hd z hz
      rw [hcmp, compare_gt_iff_gt] at this
      exact le_of_lt this

/-! ### In-place compaction -/

/-- One pass over `count` positions from `read`: kept elements are copied down to `write`,
which never passes `read`. Returns the vector and the final write position. -/
def compactLoop (remove : α → Bool) : Nat → Nat → Nat → List α → List α × Nat
  | 0, _, write, xs => (xs, write)
  | count + 1, read, write, xs =>
    match xs[read]? with
    | none => (xs, write)
    | some x =>
      if remove x then compactLoop remove count (read + 1) write xs
      else compactLoop remove count (read + 1) (write + 1)
        (if write ≠ read then xs.set write x else xs)

/-- Remove as `Vec::drain(start..stop)` does, with the drained elements dropped. -/
def drain (xs : List α) (start stop : Nat) : List α := xs.take start ++ xs.drop stop

variable (remove : α → Bool)

/-- Compact the window `start..stop` in place and drain what is left over at its end. -/
def compactRange (xs : List α) (start stop : Nat) : List α :=
  let (ys, write) := compactLoop remove (stop - start) start start xs
  if write ≠ stop then drain ys write stop else ys

lemma compactLoop_spec (count read write : Nat) (xs : List α) (hw : write ≤ read)
    (hr : read + count ≤ xs.length) :
    let out := compactLoop remove count read write xs
    out.1.length = xs.length ∧ out.2 ≤ read + count ∧
      out.1.take out.2 = xs.take write ++ ((xs.drop read).take count).filter (fun x => !remove x) ∧
      out.1.drop (read + count) = xs.drop (read + count) := by
  induction count generalizing read write xs with
  | zero => simp [compactLoop, hw]
  | succ count ih =>
    have hlt : read < xs.length := by omega
    have hdrop : (xs.drop read).take (count + 1) = xs[read] :: (xs.drop (read + 1)).take count := by
      rw [drop_eq_getElem_cons hlt, take_succ_cons]
    simp only [compactLoop, getElem?_eq_getElem hlt]
    have harith : read + (count + 1) = read + 1 + count := by omega
    rw [hdrop, harith]
    by_cases hx : remove xs[read] = true
    · simp only [hx]
      obtain ⟨h1, h2, h3, h4⟩ := ih (read + 1) write xs (by omega) (by omega)
      exact ⟨h1, h2, by simpa [hx] using h3, h4⟩
    simp only [hx, Bool.false_eq_true, if_false]
    -- The write position is strictly behind the next read, so the suffix is untouched.
    have hset : (if write ≠ read then xs.set write xs[read] else xs) = xs.set write xs[read] := by
      split
      · rfl
      next he =>
      have he : write = read := by omega
      subst he
      simp
    rw [hset]
    obtain ⟨h1, h2, h3, h4⟩ := ih (read + 1) (write + 1) (xs.set write xs[read])
      (by omega) (by simpa using (by omega))
    refine ⟨by simpa using h1, h2, ?_, ?_⟩
    · rw [h3, drop_set_of_lt (by omega), take_add_one, take_set_of_le (by omega)]
      simp [hx, show write < xs.length by omega]
    · rw [h4, drop_set_of_lt (by omega)]

lemma compactRange_eq (xs : List α) {start stop : Nat} (hs : start ≤ stop) (hl : stop ≤ xs.length) :
    compactRange remove xs start stop =
      xs.take start ++ ((xs.drop start).take (stop - start)).filter (fun x => !remove x) ++
        xs.drop stop := by
  obtain ⟨h1, h2, h3, h4⟩ :=
    compactLoop_spec remove (stop - start) start start xs (Nat.le_refl _) (by omega)
  rw [Nat.add_sub_cancel' hs] at h2 h4
  unfold compactRange
  dsimp only
  rw [← h3, ← h4]
  split
  · rfl
  next he =>
  rw [not_not] at he
  rw [he, take_append_drop]

/-! ### Updating the first match -/

/-- Update the first element satisfying `p`, as a loop over `iter_mut` that stops at its first
match does; `none` when there is none. -/
def modifyFirst (p : α → Bool) (f : α → α) : List α → Option (List α)
  | [] => none
  | x :: xs => if p x then some (f x :: xs) else (modifyFirst p f xs).map (x :: ·)

lemma modifyFirst_eq_some {f : α → α} (h : modifyFirst p f xs = some ys) :
    ∃ before x after, xs = before ++ x :: after ∧ p x = true ∧ ys = before ++ f x :: after := by
  induction xs generalizing ys with
  | nil => cases h
  | cons x xs ih =>
    simp only [modifyFirst] at h
    split at h
    · next hx =>
      cases h
      exact ⟨[], x, xs, rfl, hx, rfl⟩
    · obtain ⟨rest, hrest, rfl⟩ := Option.map_eq_some_iff.mp h
      obtain ⟨before, y, after, rfl, hy, rfl⟩ := ih hrest
      exact ⟨x :: before, y, after, rfl, hy, rfl⟩

lemma modifyFirst_eq_none {f : α → α} : modifyFirst p f xs = none ↔ ∀ x ∈ xs, p x = false := by
  induction xs with
  | nil => simp [modifyFirst]
  | cons x xs ih => cases hx : p x <;> simp [modifyFirst, hx, ih]

lemma find?_modifyFirst {f : α → α} (h : modifyFirst p f xs = some ys)
    (hf : ∀ x, p (f x) = p x) : ys.find? p = (xs.find? p).map f := by
  induction xs generalizing ys with
  | nil => cases h
  | cons x xs ih =>
    cases hx : p x with
    | true =>
      simp only [modifyFirst, hx, if_true] at h
      cases h
      rw [find?_cons_of_pos hx, find?_cons_of_pos ((hf x).trans hx)]
      rfl
    | false =>
      simp only [modifyFirst, hx] at h
      obtain ⟨rest, hrest, rfl⟩ := Option.map_eq_some_iff.mp h
      rw [find?_cons_of_neg (by simp [hx]), find?_cons_of_neg (by simp [hx]), ih hrest]

/-! ### Ranges -/

/-- The `n` elements from position `i` on, if they exist. -/
def readRange (xs : List α) (i n : Nat) : Option (List α) :=
  if i + n ≤ xs.length then some ((xs.drop i).take n) else none

/-- Overwrite the elements from position `i` on, if they exist. -/
def writeRange (xs : List α) (i : Nat) (ys : List α) : Option (List α) :=
  if i + ys.length ≤ xs.length then some (xs.take i ++ ys ++ xs.drop (i + ys.length)) else none

lemma mem_of_mem_readRange {n : Nat} (h : readRange xs i n = some ys) (hy : y ∈ ys) : y ∈ xs := by
  unfold readRange at h
  split at h
  · cases h
    exact mem_of_mem_drop (mem_of_mem_take hy)
  · cases h

lemma getElem?_of_writeRange {zs : List α} (h : writeRange xs i ys = some zs) {z : α}
    (hz : zs[j]? = some z) : xs[j]? = some z ∨ ∃ k, j = i + k ∧ ys[k]? = some z := by
  unfold writeRange at h
  split at h
  · next hle =>
    cases h
    rw [append_assoc] at hz
    by_cases hlo : j < i
    · left
      rwa [getElem?_append_left (by rw [length_take]; omega), getElem?_take_of_lt hlo] at hz
    rw [getElem?_append_right (by rw [length_take]; omega), length_take,
      Nat.min_eq_left (by omega)] at hz
    by_cases hhi : j - i < ys.length
    · right
      refine ⟨j - i, by omega, ?_⟩
      rwa [getElem?_append_left hhi] at hz
    · left
      rw [getElem?_append_right (by omega), getElem?_drop] at hz
      rwa [show i + ys.length + (j - i - ys.length) = j by omega] at hz
  · cases h

/-! ### Positions -/

/-- The elements with their positions, `iter().enumerate()`. -/
def enumerate (xs : List α) : List (Nat × α) := (List.range xs.length).zip xs

lemma getElem?_of_enumerate {x : Nat × α} (h : (enumerate xs)[k]? = some x) :
    x.1 = k ∧ xs[k]? = some x.2 := by
  unfold enumerate at h
  obtain ⟨-, rfl⟩ := List.getElem?_eq_some_iff.mp h
  simp

lemma mem_enumerate : (k, x) ∈ enumerate xs ↔ xs[k]? = some x := by
  constructor
  · intro h
    obtain ⟨j, hj⟩ := mem_iff_getElem?.mp h
    have hpos : k = j ∧ xs[j]? = some x := getElem?_of_enumerate hj
    rw [hpos.1]
    exact hpos.2
  · intro h
    obtain ⟨hk, hx⟩ := List.getElem?_eq_some_iff.mp h
    exact mem_iff_getElem.mpr ⟨k, by simpa [enumerate] using hk, by simp [enumerate, hx]⟩

end Kandelo.Lib.Slice
