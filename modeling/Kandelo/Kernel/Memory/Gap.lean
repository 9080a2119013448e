import Kandelo.Kernel.Memory.Manager

/-!
# First-fit placement

`find_gap` merges mappings and host ranges as two sorted streams. Its
reference in the source's tests sorts the materialised list and scans it. Both are one first
fit over the spans in address order as long as the ceiling is below the largest address.
-/

namespace Kandelo.Kernel.Memory

open Lib List PointerWidth Span

variable {w : PointerWidth} {maxAddr needed : Nat}

/-- The order by address. -/
def addrLe (s t : Span) : Bool := s.addr ≤ t.addr

lemma addrLe_trans (a b c : Span) (h : addrLe a b) (h' : addrLe b c) : addrLe a c :=
  decide_eq_true (Nat.le_trans (of_decide_eq_true h) (of_decide_eq_true h'))

lemma addrLe_total (a b : Span) : addrLe a b || addrLe b a := by
  simpa [addrLe] using Nat.le_total a.addr b.addr

namespace MemoryManager

/-- All occupied spans: mappings, then host ranges. -/
def spans (m : MemoryManager) : List Span :=
  m.mappings.map MappedRegion.span ++ m.reservedRegions.map ReservedRegion.span

/-- Loop of the reference search; `memory.rs:613-624`. -/
def scanGap (w : PointerWidth) (maxAddr needed : Nat) : Nat → List Span → Option Nat
  | cursor, [] => if w.saturatingAdd cursor needed ≤ maxAddr then some cursor else none
  | cursor, s :: ss =>
    let next := max cursor (w.saturatingAdd s.addr s.len)
    if s.addr < cursor then scanGap w maxAddr needed next ss
    else if s.addr - cursor ≥ needed then some cursor
    else scanGap w maxAddr needed next ss

/-- First fit over the sorted concatenation of both tables; `memory.rs:602-625`. -/
def referenceFindGap (w : PointerWidth) (m : MemoryManager) (needed : Nat) : Option Nat :=
  scanGap w m.maxAddr needed (max m.mmapBase m.programBreak) (m.spans.mergeSort addrLe)

/-- `a` is a place for `needed` bytes from the automatic base on. -/
def Fits (m : MemoryManager) (needed a : Nat) : Prop :=
  Span.Fits m.maxAddr needed (max m.mmapBase m.programBreak) m.spans a

variable {m : MemoryManager}

lemma mem_spans {s : Span} : s ∈ m.spans ↔
    (∃ r ∈ m.mappings, r.span = s) ∨ ∃ r ∈ m.reservedRegions, r.span = s := by
  simp [spans]

/-- One step of the stream merge takes the head of the merged list. -/
lemma merge_eq_nextRegion (ms rs : List Span) :
    (nextRegion ms rs).elim (ms.merge rs addrLe = []) fun (s, ms', rs') =>
      ms.merge rs addrLe = s :: ms'.merge rs' addrLe ∧
        ms'.length + rs'.length + 1 = ms.length + rs.length := by
  unfold nextRegion
  split
  · next s ms r rs =>
    rw [cons_merge_cons, addrLe]
    split
    · next hle => simp; omega
    · next hlt => simp; omega
  · simp
  · simp
  · simp

section

variable (hmax : maxAddr < w.usizeMax) (hn : 0 < needed) {cursor cursor' : Nat}

include hmax

/-- A saturated cursor and the exact one are the same below the largest address, and from there on
neither leaves room behind it. -/
lemma room_eq_firstFit (hc : min cursor w.usizeMax = min cursor' w.usizeMax) :
    (if w.saturatingAdd cursor needed ≤ maxAddr then some cursor else none) =
      firstFit maxAddr needed cursor' [] := by
  have hsat : w.saturatingAdd cursor needed ≤ maxAddr ↔ cursor' + needed ≤ maxAddr := by
    simp only [saturatingAdd]
    omega
  simp only [firstFit, hsat]
  split
  · congr 1
    omega
  · rfl

include hn

lemma scanGap_eq_firstFit {ss : List Span} (hss : ∀ s ∈ ss, s.addr ≤ w.usizeMax)
    (hc : min cursor w.usizeMax = min cursor' w.usizeMax) :
    scanGap w maxAddr needed cursor ss = firstFit maxAddr needed cursor' ss := by
  induction ss generalizing cursor cursor' with
  | nil => exact room_eq_firstFit hmax hc
  | cons s ss ih =>
    obtain ⟨hs, hss⟩ := forall_mem_cons.mp hss
    have hstop : min (max cursor (w.saturatingAdd s.addr s.len)) w.usizeMax =
        min (max cursor' s.stop) w.usizeMax := by
      simp only [saturatingAdd, stop]
      omega
    simp only [scanGap, firstFit, ih hss hstop]
    by_cases hgap : cursor' + needed ≤ s.addr
    · obtain rfl : cursor = cursor' := by omega
      rw [if_neg (by omega), if_pos (by omega), if_pos hgap]
    · rw [if_neg hgap]
      split
      · rfl
      · rw [if_neg (by omega)]

lemma findGapLoop_eq_firstFit {fuel : Nat} {ms rs : List Span}
    (hfuel : ms.length + rs.length ≤ fuel) (hss : ∀ s ∈ ms.merge rs addrLe, s.addr ≤ w.usizeMax)
    (hc : min cursor w.usizeMax = min cursor' w.usizeMax) :
    findGapLoop w maxAddr needed fuel cursor ms rs =
      firstFit maxAddr needed cursor' (ms.merge rs addrLe) := by
  have hmerge := merge_eq_nextRegion ms rs
  induction fuel generalizing cursor cursor' ms rs with
  | zero =>
    obtain ⟨rfl, rfl⟩ : ms = [] ∧ rs = [] := by
      constructor <;> apply eq_nil_of_length_eq_zero <;> omega
    rw [nil_merge, ← room_eq_firstFit hmax hc]
    rfl
  | succ fuel ih =>
    unfold findGapLoop
    cases hnext : nextRegion ms rs with
    | none =>
      rw [hnext] at hmerge
      rw [show ms.merge rs addrLe = [] from hmerge]
      exact room_eq_firstFit hmax hc
    | some next =>
      obtain ⟨s, ms', rs'⟩ := next
      rw [hnext] at hmerge
      obtain ⟨heq, hlen⟩ := hmerge
      rw [heq] at hss ⊢
      obtain ⟨hs, hss⟩ := forall_mem_cons.mp hss
      have hadv : min (advance w cursor s.addr s.len) w.usizeMax =
          min (max cursor' s.stop) w.usizeMax := by
        unfold advance
        split <;> simp only [saturatingAdd, stop] at * <;> omega
      have hrest := ih (by omega) hss hadv (merge_eq_nextRegion ms' rs')
      simp only [firstFit, hrest]
      by_cases hgap : cursor' + needed ≤ s.addr
      · obtain rfl : cursor = cursor' := by omega
        rw [if_pos (by simp; omega), if_pos hgap]
      · rw [if_neg (by simp; omega), if_neg hgap]

end

section

variable (hmax : m.maxAddr < w.usizeMax) (hrep : ∀ s ∈ m.spans, s.addr ≤ w.usizeMax)
  (hm : m.mappings.Pairwise fun a b => a.addr ≤ b.addr)
  (hr : m.reservedRegions.Pairwise fun a b => a.addr ≤ b.addr) (hn : 0 < needed)

include hmax hrep hm hr hn

/-- An automatic placement is the least place, and fails only if there is none. -/
lemma findGap_spec :
    (∀ a, m.findGap w needed = some a ↔ IsLeast {a | m.Fits needed a} a) ∧
      (m.findGap w needed = none ↔ ∀ a, ¬ m.Fits needed a) := by
  have hmem : ∀ s, s ∈ (m.mappings.map MappedRegion.span).merge
      (m.reservedRegions.map ReservedRegion.span) addrLe ↔ s ∈ m.spans := by
    simp [spans, mem_merge]
  rw [findGap, findGapLoop_eq_firstFit hmax hn (by simp) (fun s hs => hrep s ((hmem s).mp hs)) rfl]
  refine firstFit_eq_iff hn (List.Pairwise.imp of_decide_eq_true ?_) hmem
  exact pairwise_merge addrLe_trans addrLe_total _ _
    (pairwise_map.mpr (hm.imp decide_eq_true)) (pairwise_map.mpr (hr.imp decide_eq_true))

/-- First fit is exact under a ceiling below the largest address, also where the end of a range
saturates, and the search over the sorted concatenation agrees with it. -/
theorem findGap_isLeast :
    (∀ a, m.findGap w needed = some a ↔ IsLeast {a | m.Fits needed a} a) ∧
      (m.findGap w needed = none ↔ ∀ a, ¬ m.Fits needed a) ∧
      m.findGap w needed = m.referenceFindGap w needed := by
  obtain ⟨hsome, hnone⟩ := findGap_spec hmax hrep hm hr hn
  refine ⟨hsome, hnone, ?_⟩
  rw [referenceFindGap,
    scanGap_eq_firstFit hmax hn (fun s hs => hrep s (mem_mergeSort.mp hs)) rfl]
  have hsort := pairwise_mergeSort addrLe_trans addrLe_total m.spans
  apply Option.ext
  intro a
  refine (hsome a).trans (Iff.symm ?_)
  exact (firstFit_eq_iff hn (hsort.imp of_decide_eq_true) fun _ => mem_mergeSort).1 a

end

/-- A gap between two mappings is too small, the next one is taken. -/
theorem findGap_isLeast_small :
    let m : MemoryManager := { new with
      mappings := [⟨0x4000000, 0x10000, 3, 0x22⟩, ⟨0x4030000, 0x10000, 3, 0x22⟩]
      reservedRegions := [⟨0x4010000, 0x10000⟩] }
    m.findGap .wasm32 0x20000 = some 0x4040000 ∧ IsLeast {a | m.Fits 0x20000 a} 0x4040000 :=
  have hgap : findGap .wasm32 _ 0x20000 = some 0x4040000 := by decide
  ⟨hgap, ((findGap_isLeast (w := .wasm32) (by decide) (by decide) (by decide) (by decide)
    (by decide)).1 0x4040000).mp hgap⟩

/-- With the ceiling at the largest address the last test saturates: a range that leaves the
address space is given out. -/
theorem findGap_past_ceiling :
    let m : MemoryManager := { new with
      mmapBase := 0xFFFF0000, maxAddr := wasm32.usizeMax }
    m.spans.Pairwise Span.Apart ∧ m.findGap .wasm32 0x20000 = some 0xFFFF0000 ∧
      ¬ m.Fits 0x20000 0xFFFF0000 := by
  refine ⟨.nil, by decide, fun h => ?_⟩
  have := h.upper (by simp [spans, new])
  revert this
  decide

end MemoryManager

end Kandelo.Kernel.Memory
