import Mathlib.Algebra.Order.Ring.Nat
import Mathlib.Data.List.Basic

/-!
# Dispatch to the call sites of a function

A rewound function jumps to one of its call sites through a tree of branch
tables with few entries each: `build_dispatch_tree` and what is emitted for its nodes,
`crates/fork-instrument/src/instrument.rs`. `dispatch_selects` says what the tree is and where the
emitted arithmetic leads.
-/

namespace Kandelo.ForkInstrument

open List

/-- `DispatchTree`; `instrument.rs:1984-1993`. -/
inductive DispatchTree
  | leaf (start stop : Nat)
  | internal (children : List DispatchTree) (spanPerChild : Nat)

variable {m n span lo hi d : Nat}

/-- The span of the children of a node: a power of the bucket size. A product that overflows is more
than any number of calls; `instrument.rs:2102-2109`. -/
def childSpan (m n span : Nat) (hm : 2 ≤ m) (hs : 0 < span) : Nat :=
  if h : span * m < n then childSpan m n (span * m) hm (Nat.mul_pos hs (by omega)) else span
termination_by n - span
decreasing_by
  have : span * 2 ≤ span * m := Nat.mul_le_mul_left span hm
  omega

/-- The ranges that the children cover; `instrument.rs:2111-2117`. -/
def cuts (span cursor stop : Nat) : List (Nat × Nat) :=
  if _h : cursor < stop ∧ 0 < span then
    (cursor, min (cursor + span) stop) :: cuts span (min (cursor + span) stop) stop
  else []
termination_by stop - cursor

lemma childSpan_spec (hm : 2 ≤ m) (hs : 0 < span) (hn : span < n) :
    childSpan m n span hm hs < n ∧ n ≤ childSpan m n span hm hs * m ∧
      ∃ j, childSpan m n span hm hs = span * m ^ j := by
  induction span, hs using childSpan.induct m n hm with
  | case1 span hs h ih =>
    obtain ⟨hlt, hle, j, hj⟩ := ih h
    rw [childSpan, dif_pos h]
    refine ⟨hlt, hle, j + 1, ?_⟩
    rw [hj, pow_succ', Nat.mul_assoc]
  | case2 span hs h =>
    rw [childSpan, dif_neg h]
    exact ⟨hn, Nat.le_of_not_lt h, 0, (mul_one span).symm⟩

lemma mem_cuts {c : Nat × Nat} (h : c ∈ cuts span lo hi) :
    lo ≤ c.1 ∧ c.1 < c.2 ∧ c.2 ≤ hi ∧ c.2 ≤ c.1 + span := by
  induction lo using cuts.induct span hi with
  | case1 lo hc ih =>
    rw [cuts, dif_pos hc] at h
    rcases mem_cons.mp h with rfl | h
    · omega
    · have := ih h
      omega
  | case2 lo hc =>
    rw [cuts, dif_neg hc] at h
    cases h

lemma length_cuts (hs : 0 < span) (lo hi : Nat) :
    hi - lo ≤ (cuts span lo hi).length * span ∧
      (cuts span lo hi).length * span < hi - lo + span := by
  induction lo using cuts.induct span hi with
  | case1 lo hc =>
    rw [cuts, dif_pos hc, length_cons, Nat.add_mul]
    by_cases hlast : hi ≤ lo + span
    · rw [cuts, dif_neg (by omega), length_nil]
      omega
    · omega
  | case2 lo hc =>
    rw [cuts, dif_neg hc, length_nil]
    omega

/-- `build_dispatch_tree_range`, for a bucket size that passes the assertion;
`instrument.rs:2092-2123`. -/
def buildDispatchTreeRange (m : Nat) (hm : 2 ≤ m) (start stop : Nat) : DispatchTree :=
  if h : stop - start ≤ m then .leaf start stop
  else
    let span := childSpan m (stop - start) m hm (by omega)
    .internal ((cuts span start stop).attach.map fun c =>
      buildDispatchTreeRange m hm c.1.1 c.1.2) span
termination_by stop - start
decreasing_by
  have hc := mem_cuts c.2
  have hspan := (childSpan_spec hm (by omega) (Nat.lt_of_not_le h)).1
  omega

/-- `build_dispatch_tree`; `instrument.rs:2076-2086`. -/
def buildDispatchTree (n m : Nat) (hm : 2 ≤ m) : DispatchTree :=
  if n ≤ m then .leaf 0 n else buildDispatchTreeRange m hm 0 n

namespace DispatchTree

mutual
/-- `DispatchTree::max_depth`; `instrument.rs:2026-2040`. -/
def maxDepth : DispatchTree → Nat
  | leaf start stop => stop - start + 3
  | internal children _ => max (deepestChild children) (children.length + 3)

/-- The deepest path through the last children of a node. -/
def deepestChild : List DispatchTree → Nat
  | [] => 0
  | c :: cs => max (cs.length + 1 + c.maxDepth) (deepestChild cs)
end

mutual
/-- The ranges of the leaves, from left to right. -/
def leaves : DispatchTree → List (Nat × Nat)
  | leaf start stop => [(start, stop)]
  | internal children _ => leavesOf children

/-- The ranges of the leaves of several trees. -/
def leavesOf : List DispatchTree → List (Nat × Nat)
  | [] => []
  | c :: cs => c.leaves ++ leavesOf cs
end

/-- `DispatchTree::start`; `instrument.rs:2043-2050`. -/
def start : DispatchTree → Nat
  | leaf start _ => start
  | internal (c :: _) _ => c.start
  | internal [] _ => 0

mutual
/-- Every internal node has from two to `m` children. -/
def Branches (m : Nat) : DispatchTree → Prop
  | leaf .. => True
  | internal children _ => 2 ≤ children.length ∧ children.length ≤ m ∧ AllBranch m children

/-- `Branches` for several trees. -/
def AllBranch (m : Nat) : List DispatchTree → Prop
  | [] => True
  | c :: cs => c.Branches m ∧ AllBranch m cs
end

mutual
/-- The call site that the emitted branch tables select, or `none` where one takes its default
target or the division traps; `instrument.rs:2128-2289`. -/
def select (k : BitVec 32) : DispatchTree → Option Nat
  | leaf start stop =>
    let i := (k - BitVec.ofNat 32 start).toNat
    if i < stop - start then some (start + i) else none
  | t@(internal children span) =>
    if BitVec.ofNat 32 span = 0 then none
    else selectChild k children ((k - BitVec.ofNat 32 t.start) / BitVec.ofNat 32 span).toNat

/-- Go on in the child with this number. -/
def selectChild (k : BitVec 32) : List DispatchTree → Nat → Option Nat
  | [], _ => none
  | c :: _, 0 => c.select k
  | _ :: cs, i + 1 => selectChild k cs i
end

end DispatchTree

variable {hm : 2 ≤ m} {k : BitVec 32}

/-- What holds of leaves, and of a node if it holds of its children, holds of what is built. -/
lemma buildDispatchTreeRange_rec {P : Nat → Nat → DispatchTree → Prop}
    (hleaf : ∀ lo hi, lo < hi → hi - lo ≤ m → P lo hi (.leaf lo hi))
    (hnode : ∀ lo hi j, m ^ (j + 1) < hi - lo → hi - lo ≤ m ^ (j + 1) * m →
      (∀ c ∈ cuts (m ^ (j + 1)) lo hi, P c.1 c.2 (buildDispatchTreeRange m hm c.1 c.2)) →
      P lo hi (.internal ((cuts (m ^ (j + 1)) lo hi).map fun c =>
        buildDispatchTreeRange m hm c.1 c.2) (m ^ (j + 1))))
    (h : lo < hi) : P lo hi (buildDispatchTreeRange m hm lo hi) := by
  induction hn : hi - lo using Nat.strong_induction_on generalizing lo hi with
  | _ n ih =>
    rw [buildDispatchTreeRange]
    split
    · next hsmall => exact hleaf lo hi h hsmall
    next hlarge =>
    obtain ⟨hlt, hle, j, hj⟩ := childSpan_spec hm (by omega) (Nat.lt_of_not_le hlarge)
    rw [← pow_succ'] at hj
    simp only [map_attach_eq_pmap, pmap_eq_map, hj]
    rw [hj] at hlt hle
    refine hnode lo hi j hlt hle fun c hc => ?_
    have hc := mem_cuts hc
    exact ih _ (by omega) hc.2.1 rfl

namespace DispatchTree

/-- Ranges of one to `m` sites, one after the other. -/
def Tiles (m : Nat) : Nat → Nat → List (Nat × Nat) → Prop
  | lo, hi, [] => lo = hi
  | lo, hi, r :: rs => r.1 = lo ∧ r.1 < r.2 ∧ r.2 ≤ r.1 + m ∧ Tiles m r.2 hi rs

lemma Tiles.append {mid : Nat} {xs ys : List (Nat × Nat)} (hxs : Tiles m lo mid xs)
    (hys : Tiles m mid hi ys) : Tiles m lo hi (xs ++ ys) := by
  induction xs generalizing lo with
  | nil => exact (show lo = mid from hxs) ▸ hys
  | cons r rs ih => exact ⟨hxs.1, hxs.2.1, hxs.2.2.1, ih hxs.2.2.2⟩

section

variable {f : Nat × Nat → DispatchTree} {cs : List DispatchTree}

lemma tiles_leavesOf (hs : 0 < span) (hle : lo ≤ hi)
    (h : ∀ c ∈ cuts span lo hi, Tiles m c.1 c.2 (f c).leaves) :
    Tiles m lo hi (leavesOf ((cuts span lo hi).map f)) := by
  induction lo using cuts.induct span hi with
  | case1 lo hc ih =>
    rw [cuts, dif_pos hc] at h ⊢
    exact (h _ mem_cons_self).append
      (ih (Nat.min_le_right ..) fun c hc => h c (mem_cons_of_mem _ hc))
  | case2 lo hc =>
    rw [cuts, dif_neg hc]
    exact show lo = hi by omega

lemma selectChild_cuts (hs : 0 < span) (hlo : lo ≤ k.toNat) (hhi : k.toNat < hi)
    (h : ∀ c ∈ cuts span lo hi, c.1 ≤ k.toNat → k.toNat < c.2 → (f c).select k = some k.toNat) :
    selectChild k ((cuts span lo hi).map f) ((k.toNat - lo) / span) = some k.toNat := by
  induction lo using cuts.induct span hi with
  | case1 lo hc ih =>
    rw [cuts, dif_pos hc] at h ⊢
    rw [map_cons]
    by_cases hfirst : k.toNat < lo + span
    · rw [Nat.div_eq_of_lt (by omega)]
      exact h _ mem_cons_self hlo (by simp only; omega)
    have hmin : min (lo + span) hi = lo + span := by omega
    rw [Nat.div_eq_sub_div hs (by omega), Nat.sub_sub]
    rw [hmin] at h ih ⊢
    exact ih (by omega) fun c hc => h c (mem_cons_of_mem _ hc)
  | case2 => omega

lemma allBranch (h : ∀ c ∈ cs, c.Branches m) : AllBranch m cs := by
  induction cs with
  | nil => trivial
  | cons c cs ih => exact ⟨h c mem_cons_self, ih fun c hc => h c (mem_cons_of_mem _ hc)⟩

lemma deepestChild_le (h : ∀ c ∈ cs, c.maxDepth ≤ d) : deepestChild cs ≤ cs.length + d := by
  induction cs with
  | nil => exact Nat.zero_le _
  | cons c cs ih =>
    have hc := h c mem_cons_self
    have hcs := ih fun c hc => h c (mem_cons_of_mem _ hc)
    rw [deepestChild, length_cons]
    omega

end

lemma tiles_leaves (h : lo < hi) : Tiles m lo hi (buildDispatchTreeRange m hm lo hi).leaves := by
  refine buildDispatchTreeRange_rec (P := fun lo hi t => Tiles m lo hi t.leaves) ?_ ?_ h
  · intro lo hi h hsmall
    exact ⟨rfl, h, by simp only; omega, rfl⟩
  · intro lo hi j hlt hle ih
    exact tiles_leavesOf (Nat.pow_pos (by omega)) (by omega) ih

lemma length_children {j : Nat} (hm : 2 ≤ m) (hlt : m ^ (j + 1) < hi - lo)
    (hle : hi - lo ≤ m ^ (j + 1) * m) :
    2 ≤ (cuts (m ^ (j + 1)) lo hi).length ∧ (cuts (m ^ (j + 1)) lo hi).length ≤ m := by
  have hpos : 0 < m ^ (j + 1) := Nat.pow_pos (by omega)
  obtain ⟨hmany, hfew⟩ := length_cuts hpos lo hi
  constructor
  · by_contra hone
    have := Nat.mul_le_mul_right (m ^ (j + 1)) (Nat.le_of_lt_succ (Nat.lt_of_not_le hone))
    omega
  · refine Nat.le_of_lt_succ (Nat.lt_of_mul_lt_mul_right (a := m ^ (j + 1)) ?_)
    rw [Nat.succ_mul, Nat.mul_comm m]
    omega

lemma branches_build (h : lo < hi) : (buildDispatchTreeRange m hm lo hi).Branches m := by
  refine buildDispatchTreeRange_rec (P := fun _ _ t => t.Branches m) ?_ ?_ h
  · exact fun _ _ _ _ => trivial
  intro lo hi j hlt hle ih
  rw [Branches, length_map]
  obtain ⟨htwo, hfew⟩ := length_children hm hlt hle
  refine ⟨htwo, hfew, allBranch fun t ht => ?_⟩
  obtain ⟨c, hc, rfl⟩ := mem_map.mp ht
  exact ih c hc

lemma start_build (h : lo < hi) : (buildDispatchTreeRange m hm lo hi).start = lo := by
  refine buildDispatchTreeRange_rec (P := fun lo _ t => t.start = lo) ?_ ?_ h
  · exact fun _ _ _ _ => rfl
  intro lo hi j hlt hle ih
  have hpos : 0 < m ^ (j + 1) := Nat.pow_pos (by omega)
  rw [cuts, dif_pos ⟨by omega, hpos⟩] at ih ⊢
  exact ih _ mem_cons_self

lemma select_build (hfits : hi ≤ 2 ^ 32) (hlo : lo ≤ k.toNat) (hhi : k.toNat < hi) :
    (buildDispatchTreeRange m hm lo hi).select k = some k.toNat := by
  refine buildDispatchTreeRange_rec (P := fun lo hi t => t.start = lo → hi ≤ 2 ^ 32 →
    lo ≤ k.toNat → k.toNat < hi → t.select k = some k.toNat) ?_ ?_ (by omega)
    (start_build (by omega)) hfits hlo hhi
  · intro lo hi h hsmall _ hfits hlo hhi
    have hsub : (k - BitVec.ofNat 32 lo).toNat = k.toNat - lo := by bv_omega
    rw [select, hsub, if_pos (by omega), Nat.add_sub_cancel' hlo]
  intro lo hi j hlt hle ih hstart hfits hlo hhi
  have hpos : 0 < m ^ (j + 1) := Nat.pow_pos (by omega)
  generalize m ^ (j + 1) = span at *
  have hsub : (k - BitVec.ofNat 32 lo).toNat = k.toNat - lo := by bv_omega
  have hspan : (BitVec.ofNat 32 span).toNat = span := Nat.mod_eq_of_lt (by omega)
  rw [select, if_neg (by bv_omega), hstart, BitVec.toNat_udiv, hsub, hspan]
  refine selectChild_cuts hpos hlo hhi fun c hc h1 h2 => ?_
  have hc' := mem_cuts hc
  exact ih c hc (start_build hc'.2.1) (by omega) h1 h2

lemma maxDepth_build (h : lo < hi) (hd : 1 ≤ d) (hn : hi - lo ≤ m ^ d) :
    (buildDispatchTreeRange m hm lo hi).maxDepth ≤ d * m + 3 := by
  refine buildDispatchTreeRange_rec (P := fun lo hi t => ∀ d, 1 ≤ d → hi - lo ≤ m ^ d →
    t.maxDepth ≤ d * m + 3) ?_ ?_ h d hd hn
  · intro lo hi h hsmall d hd _
    have := Nat.mul_le_mul_right m hd
    rw [maxDepth]
    omega
  intro lo hi j hlt hle ih d hd hn
  have hj : j + 1 < d := (Nat.pow_lt_pow_iff_right hm).mp (hlt.trans_le hn)
  obtain ⟨d, rfl⟩ : ∃ e, d = e + 1 := ⟨d - 1, by omega⟩
  have hdeep : ∀ t ∈ (cuts (m ^ (j + 1)) lo hi).map fun c => buildDispatchTreeRange m hm c.1 c.2,
      t.maxDepth ≤ d * m + 3 := by
    intro t ht
    obtain ⟨c, hc, rfl⟩ := mem_map.mp ht
    have hpow : m ^ (j + 1) ≤ m ^ d := Nat.pow_le_pow_right (by omega) (by omega)
    have hc' := mem_cuts hc
    exact ih c hc d (by omega) (by omega)
  obtain ⟨-, hfew⟩ := length_children hm hlt hle
  have hdeepest := deepestChild_le hdeep
  rw [length_map] at hdeepest
  rw [maxDepth, length_map, Nat.add_mul]
  omega

end DispatchTree

open DispatchTree

/-- The leaves cut the sites into ranges of one to `m`, in order, a node has two to `m` children,
the emitted arithmetic selects the site with the saved index, and the depth is bounded. -/
theorem dispatch_selects (hn : 1 ≤ n) (hm : 2 ≤ m) :
    Tiles m 0 n (buildDispatchTree n m hm).leaves ∧ (buildDispatchTree n m hm).Branches m ∧
      (n ≤ 2 ^ 32 → ∀ k : BitVec 32, k.toNat < n →
        (buildDispatchTree n m hm).select k = some k.toNat) ∧
      ∀ d, 1 ≤ d → n ≤ m ^ d → (buildDispatchTree n m hm).maxDepth ≤ d * m + 3 := by
  have hbuild : buildDispatchTree n m hm = buildDispatchTreeRange m hm 0 n := by
    rw [buildDispatchTree]
    split
    · next hsmall => rw [buildDispatchTreeRange, dif_pos (show n - 0 ≤ m from hsmall)]
    · rfl
  rw [hbuild]
  exact ⟨tiles_leaves hn, branches_build hn,
    fun hfits k hk => select_build hfits (Nat.zero_le _) hk,
    fun d hd hle => maxDepth_build hn hd hle⟩

/-- Three sites with branch tables of two entries. -/
theorem dispatch_selects_three : (buildDispatchTree 3 2 (Nat.le_refl 2)).select 2 = some 2 :=
  (dispatch_selects (by decide) (Nat.le_refl 2)).2.2.1 (by decide) 2 (by decide)

/-- One call in a bucket already needs four levels. -/
theorem one_call_depth :
    1 ≤ 2 ^ 0 ∧ ¬(buildDispatchTree 1 2 (Nat.le_refl 2)).maxDepth ≤ 0 * 2 + 3 := by
  decide

end Kandelo.ForkInstrument
