import Mathlib.Data.List.Count

/-!
# Counts of what is shared

A count is kept only for a key that has been shared: a key without an entry has one holder. Sharing
adds a holder, dropping takes one away and says whether it was the last. `Settled` is the contract
between the entry of a key, the number of its holders and the number of times it was closed since it
was opened: it is closed exactly once, and only when nobody holds it. `Kept` is the contract for all
keys and a history of openings and closings.
-/

namespace Kandelo.Lib

open List Option Function

/-- The entries of the keys that have been shared. -/
abbrev ShareCount (ι : Type) := ι → Option Nat

namespace ShareCount

variable {ι : Type} [DecidableEq ι] {c : ShareCount ι} {k : ι} {n closes : Nat} {entry : Option Nat}

variable (c)

/-- One more owner. -/
def share (k : ι) : ShareCount ι := Function.update c k (some ((c k).getD 1 + 1))

/-- One holder less, and whether it was the last. -/
def drop (k : ι) : Bool × ShareCount ι :=
  match c k with
  | none => (true, c)
  | some n =>
    if n - 1 = 0 then (true, Function.update c k none)
    else (false, Function.update c k (some (n - 1)))

variable {c}

/-- Drop several owners, with the keys whose last owner is gone. -/
def dropAll : List ι → ShareCount ι → List ι × ShareCount ι
  | [], c => ([], c)
  | k :: ks, c =>
    let (last, c) := c.drop k
    let (closed, c) := dropAll ks c
    (if last then k :: closed else closed, c)

/-! ### The contract -/

/-- With `n` holders, the entry is right and the key was closed exactly if nobody holds it. -/
def Settled (n : Nat) (entry : Option Nat) (closes : Nat) : Prop :=
  if n = 0 then entry = none ∧ closes = 1 else entry.getD 1 = n ∧ closes = 0

/-- A count that is kept is positive and at most the number of owners. -/
def Bounded (n : Nat) (entry : Option Nat) : Prop := ∀ m, entry = some m → 0 < m ∧ m ≤ n

lemma Settled.closes_eq (h : Settled n entry closes) : closes = if n = 0 then 1 else 0 := by
  unfold Settled at h
  split at h
  · next hn => rw [if_pos hn, h.2]
  · next hn => rw [if_neg hn, h.2]

lemma Bounded.eq_none (h : Bounded 0 entry) : entry = none := by
  cases entry with
  | none => rfl
  | some m =>
    obtain ⟨hpos, hle⟩ := h m rfl
    omega

lemma settled_one : Settled 1 none 0 := ⟨rfl, rfl⟩

lemma settled_share (h : Settled n (c k) closes) (hn : 0 < n) :
    Settled (n + 1) (c.share k k) closes := by
  rw [Settled, if_neg (Nat.pos_iff_ne_zero.mp hn)] at h
  rw [share, update_self]
  exact ⟨congrArg (· + 1) h.1, h.2⟩

lemma settled_drop (h : Settled (n + 1) (c k) closes) :
    Settled n ((c.drop k).2 k) (closes + if (c.drop k).1 then 1 else 0) := by
  obtain ⟨hentry, rfl⟩ := h
  cases hc : c k with
  | none =>
    rw [hc] at hentry
    obtain rfl : n = 0 := Nat.succ.inj hentry.symm
    simp [drop, hc, Settled]
  | some m =>
    rw [hc] at hentry
    obtain rfl : m = n + 1 := hentry
    by_cases hn : n = 0
    · simp [drop, hc, Settled, hn]
    · simp [drop, hc, Settled, hn]

lemma bounded_share (h : Bounded n (c k)) (hn : 0 < n) : Bounded (n + 1) (c.share k k) := by
  intro m hm
  rw [share, update_self] at hm
  cases hc : c k with
  | none =>
    rw [hc] at hm
    cases hm
    simp only [getD_none]
    omega
  | some m' =>
    rw [hc] at hm
    cases hm
    have hle := (h m' hc).2
    simp only [getD_some]
    omega

lemma bounded_drop (h : Bounded (n + 1) (c k)) : Bounded n ((c.drop k).2 k) := by
  intro m hm
  cases hc : c k with
  | none =>
    rw [drop, hc] at hm
    dsimp only at hm
    rw [hc] at hm
    cases hm
  | some m' =>
    have hle := (h m' hc).2
    rw [drop, hc] at hm
    dsimp only at hm
    split at hm
    · simp at hm
    · simp only [update_self, some.injEq] at hm
      omega

/-! ### Other keys, and several drops -/

lemma share_of_ne {j : ι} (h : j ≠ k) : c.share k j = c j := update_of_ne h _ _

lemma drop_of_ne {j : ι} (h : j ≠ k) : (c.drop k).2 j = c j := by
  unfold drop
  split
  · rfl
  · split <;> exact update_of_ne h _ _

variable (ks : List ι)

lemma foldl_share {P : Nat → Option Nat → Prop}
    (hstep : ∀ c n, P n (c k) → 0 < n → P (n + 1) (share c k k)) (h : P n (c k))
    (hn : k ∈ ks → 0 < n) : P (n + ks.count k) (ks.foldl share c k) := by
  induction ks generalizing c n with
  | nil => exact h
  | cons j ks ih =>
    rw [count_cons]
    by_cases hj : j = k
    · subst hj
      have hnext := ih (hstep c n h (hn mem_cons_self)) fun _ => Nat.succ_pos n
      rw [beq_self_eq_true, ← Nat.add_assoc, Nat.add_right_comm]
      exact hnext
    · rw [beq_false_of_ne hj]
      apply ih
      · rw [share_of_ne (Ne.symm hj)]
        exact h
      · exact fun hmem => hn (mem_cons_of_mem j hmem)

lemma settled_dropAll (h : Settled (n + ks.count k) (c k) closes) :
    Settled n ((dropAll ks c).2 k) (closes + (dropAll ks c).1.count k) := by
  induction ks generalizing c closes with
  | nil => exact h
  | cons j ks ih =>
    rw [count_cons] at h
    unfold dropAll
    by_cases hj : j = k
    · subst hj
      rw [beq_self_eq_true] at h
      have hnext := ih (settled_drop h)
      dsimp only
      split
      · next hlast =>
        rw [hlast] at hnext
        rw [count_cons, beq_self_eq_true, if_pos rfl, Nat.add_comm _ 1, ← Nat.add_assoc]
        exact hnext
      · next hlast =>
        rw [if_neg hlast] at hnext
        exact hnext
    · rw [beq_false_of_ne hj] at h
      have hnext := ih (c := (c.drop j).2) (by rw [drop_of_ne (Ne.symm hj)]; exact h)
      dsimp only
      split
      · rw [count_cons, beq_false_of_ne hj]
        exact hnext
      · exact hnext

lemma bounded_dropAll (h : Bounded (n + ks.count k) (c k)) : Bounded n ((dropAll ks c).2 k) := by
  induction ks generalizing c with
  | nil => exact h
  | cons j ks ih =>
    rw [count_cons] at h
    unfold dropAll
    by_cases hj : j = k
    · subst hj
      rw [beq_self_eq_true] at h
      exact ih (bounded_drop h)
    · rw [beq_false_of_ne hj] at h
      exact ih (by rw [drop_of_ne (Ne.symm hj)]; exact h)

lemma mem_dropAll (h : k ∈ (dropAll ks c).1) : k ∈ ks := by
  induction ks generalizing c with
  | nil => exact h
  | cons j ks ih =>
    unfold dropAll at h
    dsimp only at h
    split at h
    · rcases mem_cons.mp h with rfl | h
      · exact mem_cons_self
      · exact mem_cons_of_mem _ (ih h)
    · exact mem_cons_of_mem _ (ih h)

/-! ### Histories -/

/-- A key is opened or closed. -/
inductive Event (ι : Type)
  | opened (k : ι)
  | closed (k : ι)
  deriving DecidableEq

/-- How often a key was closed since it was opened the last time, if it ever was; the last event
comes first. -/
def closesSince (k : ι) : List (Event ι) → Option Nat
  | [] => none
  | .opened j :: events => if j = k then some 0 else closesSince k events
  | .closed j :: events =>
    if j = k then (closesSince k events).map (· + 1) else closesSince k events

/-- With `n k` holders of each key, the entries are right and each key that was opened is settled.
-/
def Kept (n : ι → Nat) (c : ShareCount ι) (events : List (Event ι)) : Prop :=
  ∀ k, Bounded (n k) (c k) ∧ ∀ closes, closesSince k events = some closes →
    Settled (n k) (c k) closes

variable {m : ι → Nat} {events : List (Event ι)}

lemma closesSince_closed (k : ι) (ks : List ι) (events : List (Event ι)) :
    closesSince k ((ks.map Event.closed).reverse ++ events) =
      (closesSince k events).map (· + ks.count k) := by
  induction ks generalizing events with
  | nil => simp
  | cons j ks ih =>
    rw [map_cons, reverse_cons, append_assoc, singleton_append, ih, closesSince, count_cons]
    by_cases hj : j = k
    · rw [if_pos hj, Option.map_map, beq_iff_eq.mpr hj]
      congr 1
      funext x
      change x + 1 + ks.count k = x + (ks.count k + 1)
      omega
    · rw [if_neg hj, beq_false_of_ne hj, if_neg Bool.false_ne_true, Nat.add_zero]

namespace Kept

lemma shareAll (h : Kept m c events) (ks : List ι) (hheld : ∀ k ∈ ks, 0 < m k) :
    Kept (fun k => m k + ks.count k) (ks.foldl share c) events := fun k =>
  ⟨foldl_share ks (fun _ _ => bounded_share) (h k).1 (hheld k), fun closes hcloses =>
    foldl_share (P := (Settled · · closes)) ks (fun _ _ => settled_share) ((h k).2 closes hcloses)
      (hheld k)⟩

lemma dropAll (ks : List ι) (h : Kept (fun k => m k + ks.count k) c events) :
    Kept m (ShareCount.dropAll ks c).2
      (((ShareCount.dropAll ks c).1.map Event.closed).reverse ++ events) := by
  intro k
  refine ⟨bounded_dropAll ks (h k).1, fun closes hcloses => ?_⟩
  rw [closesSince_closed, map_eq_some_iff] at hcloses
  obtain ⟨before, hbefore, rfl⟩ := hcloses
  exact settled_dropAll ks ((h k).2 before hbefore)

lemma opened (h : Kept m c events) (hnone : m k = 0) :
    Kept (fun j => m j + if j = k then 1 else 0) c (.opened k :: events) := by
  intro j
  have hj := h j
  dsimp only
  by_cases hjk : j = k
  · subst hjk
    rw [hnone] at hj ⊢
    rw [hj.1.eq_none]
    refine ⟨nofun, fun closes hcloses => ?_⟩
    rw [closesSince, if_pos rfl, some.injEq] at hcloses
    rw [← hcloses, if_pos rfl]
    exact settled_one
  · rw [if_neg hjk, closesSince, if_neg (Ne.symm hjk)]
    exact hj

lemma opened_closed (h : Kept m c events) (hnone : m k = 0) :
    Kept m c (.closed k :: .opened k :: events) := by
  intro j
  have hj := h j
  refine ⟨hj.1, fun closes hcloses => ?_⟩
  by_cases hjk : j = k
  · subst hjk
    rw [closesSince, if_pos rfl, closesSince, if_pos rfl, map_some, some.injEq] at hcloses
    rw [hnone] at hj ⊢
    rw [hj.1.eq_none, ← hcloses]
    exact ⟨rfl, rfl⟩
  · rw [closesSince, if_neg (Ne.symm hjk), closesSince, if_neg (Ne.symm hjk)] at hcloses
    exact hj.2 closes hcloses

end Kept

end ShareCount

end Kandelo.Lib
