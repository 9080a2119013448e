import Kandelo.Kernel.Memory.Layout

/-!
# Runs of the memory manager from a compact layout

The host configures a process before its first mapping: heap start,
automatic base, and ceilings it may lower at any point of the configuration
(`host/src/kernel-worker.ts:1560-1600`). From there the guest and the host issue mapping,
break and reservation calls in any order. A protected prefix is what makes a layout
compact: with a heap start of zero `reserved_until` stays zero, and the manager treats the
process as one of the legacy layout.
-/

namespace Kandelo.Kernel.Memory

open Lib List

/-- A ceiling lowered during configuration. -/
inductive Limit
  | maxAddr (addr : Nat)
  | brkLimit (addr : Nat)

namespace MemoryManager

variable (m : MemoryManager)

/-- A limit is set. -/
def applyLimit : Limit → MemoryManager
  | .maxAddr addr => m.setMaxAddr addr
  | .brkLimit addr => m.setBrkLimit addr

variable (limits : List Limit)

/-- Several limits are set. -/
def applyLimits : MemoryManager :=
  limits.foldl applyLimit m

variable (w : PointerWidth) (before : List Limit) (brkBase : Nat) (between : List Limit)
  (mmapBase : Nat) (after : List Limit)

/-- Configuration of a compact process: the heap start, then the automatic base, with
ceilings lowered before, between and after. -/
def compactLayout : MemoryManager :=
  let m := (new.applyLimits before).setBrkBase w brkBase
  let m := (m.applyLimits between).setMmapBase w mmapBase
  m.applyLimits after

/-- What lowering ceilings leaves in place. -/
structure Lowered (m m' : MemoryManager) : Prop where
  mappings : m'.mappings = m.mappings
  reserved : m'.reservedRegions = m.reservedRegions
  initialBrk : m'.initialBrk = m.initialBrk
  programBreak : m'.programBreak = m.programBreak
  mmapBase : m'.mmapBase = m.mmapBase
  reservedUntil : m'.reservedUntil = m.reservedUntil
  maxAddr : m'.maxAddr ≤ m.maxAddr

lemma lowered_applyLimit (limit : Limit) : Lowered m (m.applyLimit limit) := by
  cases limit with
  | maxAddr =>
    simp only [applyLimit, setMaxAddr]
    split
    · next hlt => exact ⟨rfl, rfl, rfl, rfl, rfl, rfl, Nat.le_of_lt hlt⟩
    · exact ⟨rfl, rfl, rfl, rfl, rfl, rfl, Nat.le_refl _⟩
  | brkLimit =>
    simp only [applyLimit, setBrkLimit]
    split <;> exact ⟨rfl, rfl, rfl, rfl, rfl, rfl, Nat.le_refl _⟩

lemma lowered_applyLimits : Lowered m (m.applyLimits limits) := by
  induction limits generalizing m with
  | nil => exact ⟨rfl, rfl, rfl, rfl, rfl, rfl, Nat.le_refl _⟩
  | cons limit limits ih =>
    have h1 := lowered_applyLimit m limit
    have h2 := ih (m.applyLimit limit)
    exact ⟨h2.mappings.trans h1.mappings, h2.reserved.trans h1.reserved,
      h2.initialBrk.trans h1.initialBrk, h2.programBreak.trans h1.programBreak,
      h2.mmapBase.trans h1.mmapBase, h2.reservedUntil.trans h1.reservedUntil,
      Nat.le_trans h2.maxAddr h1.maxAddr⟩

lemma compactLayout_fields :
    let m := compactLayout w before brkBase between mmapBase after
    m.mappings = [] ∧ m.reservedRegions = [] ∧ m.initialBrk = brkBase ∧ m.programBreak = brkBase ∧
      m.mmapBase = max (alignPageUp w mmapBase) brkBase ∧ m.reservedUntil = brkBase ∧
      m.maxAddr ≤ 0x40000000 := by
  have h1 := lowered_applyLimits new before
  have h2 := lowered_applyLimits ((new.applyLimits before).setBrkBase w brkBase) between
  have h3 := lowered_applyLimits ((((new.applyLimits before).setBrkBase w brkBase).applyLimits
    between).setMmapBase w mmapBase) after
  refine ⟨?_, ?_, ?_, ?_, ?_, ?_, ?_⟩
  · exact h3.mappings.trans (h2.mappings.trans h1.mappings)
  · exact h3.reserved.trans (h2.reserved.trans h1.reserved)
  · exact h3.initialBrk.trans h2.initialBrk
  · exact h3.programBreak.trans h2.programBreak
  · refine h3.mmapBase.trans ?_
    simp only [setMmapBase]
    rw [h2.initialBrk]
    rfl
  · refine h3.reservedUntil.trans ?_
    simp only [setMmapBase]
    rw [h2.reservedUntil, h2.initialBrk]
    simp only [setBrkBase]
    rw [h1.reservedUntil]
    exact Nat.zero_max _
  · exact Nat.le_trans h3.maxAddr (Nat.le_trans h2.maxAddr h1.maxAddr)

lemma tidy_compactLayout {brkBase : Nat} (hb : brkBase ≠ 0) (between : List Limit)
    (mmapBase : Nat) (after : List Limit) :
    (compactLayout w before brkBase between mmapBase after).Tidy := by
  obtain ⟨hmaps, hres, hinit, hbrk, hbase, huntil, hmax⟩ :=
    compactLayout_fields w before brkBase between mmapBase after
  refine ⟨⟨by omega, by omega, by omega, by omega, hmax⟩, ?_, ?_, ?_, ?_⟩
  · rw [hmaps]
    exact .nil
  · rw [hres]
    exact .nil
  · simp [hmaps]
  · simp [spans, hmaps, hres]

/-- Managers reached from a configured one by mapping, break and reservation calls; a call
that fails leaves the manager as it is. In-place growth is guarded as in `sys_mremap`. -/
inductive Reachable (w : PointerWidth) (m0 : MemoryManager) : MemoryManager → Prop
  | start : Reachable w m0 m0
  | mmapAnonymous {m : MemoryManager} (h : Reachable w m0 m) (hint len prot flags : Nat) :
      Reachable w m0 (m.mmapAnonymous w hint len prot flags).2
  | munmap {m : MemoryManager} (h : Reachable w m0 m) (addr len : Nat) :
      Reachable w m0 (m.munmap w addr len).2
  | setBrk {m : MemoryManager} (h : Reachable w m0 m) (newBrk : Nat) :
      Reachable w m0 (m.setBrk w newBrk).2
  | reserveHostRegion {m : MemoryManager} (h : Reachable w m0 m) (len : Nat) :
      Reachable w m0 (m.reserveHostRegion w len).2
  | reserveHostRegionAt {m : MemoryManager} (h : Reachable w m0 m) (addr len : Nat) :
      Reachable w m0 (m.reserveHostRegionAt w addr len).2
  | growInPlace {m m' : MemoryManager} (h : Reachable w m0 m) {addr oldLen newLen : Nat}
      (hlt : oldLen < newLen) {found : Bool}
      (hg : m.growInPlace w addr oldLen newLen = some (found, m')) : Reachable w m0 m'
  | sysMremap {m : MemoryManager} (h : Reachable w m0 m) (oldAddr oldLen newLen flags : Nat) :
      Reachable w m0 (m.sysMremap w oldAddr oldLen newLen flags).2

lemma Reachable.tidy {w : PointerWidth} {m0 m : MemoryManager} (h0 : m0.Tidy)
    (h : Reachable w m0 m) : m.Tidy := by
  induction h with
  | start => exact h0
  | mmapAnonymous _ hint len prot flags ih => exact ih.mmapAnonymous hint len prot flags
  | munmap _ addr len ih => exact ih.munmap addr len
  | setBrk _ newBrk ih => exact ih.setBrk newBrk
  | reserveHostRegion _ len ih => exact ih.reserveHostRegion len
  | reserveHostRegionAt _ addr len ih => exact ih.reserveHostRegionAt addr len
  | growInPlace _ hlt hg ih => exact ih.growInPlace hlt hg
  | sysMremap _ oldAddr oldLen newLen flags ih => exact ih.sysMremap oldAddr oldLen newLen flags

/-- No address of the span lies in the heap `[initial_brk, program_break)`. -/
def OffHeap (s : Span) : Prop :=
  ∀ b, s.addr ≤ b → b < s.stop → ¬ (m.initialBrk ≤ b ∧ b < m.programBreak)

/-- In every run from a compact layout with a nonzero heap start, mappings and host ranges
are sorted, nonempty, pairwise disjoint, inside `[reserved_until, max_addr]` and off the
heap. -/
theorem regions_disjoint_of_reachable (w : PointerWidth) (before : List Limit) {brkBase : Nat}
    (hb : brkBase ≠ 0) (between : List Limit) (mmapBase : Nat) (after : List Limit)
    {m : MemoryManager}
    (h : Reachable w (compactLayout w before brkBase between mmapBase after) m) :
    m.mappings.Pairwise (fun a b => a.addr < b.addr) ∧
      m.reservedRegions.Pairwise (fun a b => a.addr < b.addr) ∧
      (∀ s ∈ m.spans, 0 < s.len) ∧ m.spans.Pairwise Span.Apart ∧
      (∀ s ∈ m.spans, m.reservedUntil ≤ s.addr ∧ s.stop ≤ m.maxAddr) ∧
      ∀ s ∈ m.spans, m.OffHeap s := by
  have ht := h.tidy (tidy_compactLayout w before hb between mmapBase after)
  refine ⟨?_, ?_, ?_, ?_, ?_, ?_⟩
  · exact ht.mappings_packed.addr_lt fun r hr => (ht.mapping hr).pos
  · exact ht.reserved_packed.addr_lt fun r hr => (ht.reserved hr).pos
  · exact fun s hs => (ht.placed s hs).pos
  · apply pairwise_append.mpr
    refine ⟨pairwise_map.mpr ht.mappings_packed.apart,
      pairwise_map.mpr ht.reserved_packed.apart, ?_⟩
    intro s hs t ht'
    obtain ⟨a, ha, rfl⟩ := mem_map.mp hs
    obtain ⟨r, hr, rfl⟩ := mem_map.mp ht'
    exact ht.apart a ha r hr
  · intro s hs
    have hp := ht.placed s hs
    have h1 := ht.guarded
    have h2 := ht.heap
    exact ⟨by have := hp.lower; omega, hp.upper⟩
  · intro s hs b hlow _ hheap
    have := (ht.placed s hs).lower
    omega

/-- A run with a grown heap, a fixed mapping, a host range and a first-fit mapping. -/
theorem regions_disjoint_small :
    ∃ m, Reachable .wasm32 (compactLayout .wasm32 [] 0x20000 [] 0x20000 [.maxAddr 0x200000]) m ∧
      m.mappings.length = 2 ∧ m.reservedRegions.length = 1 ∧ m.programBreak = 0x28000 ∧
      m.spans.Pairwise Span.Apart := by
  have h : Reachable .wasm32 (compactLayout .wasm32 [] 0x20000 [] 0x20000 [.maxAddr 0x200000]) _ :=
    (((Reachable.start.setBrk 0x28000).mmapAnonymous 0x50000 0x10000 3 0x32).reserveHostRegion
      1).mmapAnonymous 0 5 3 0x22
  exact ⟨_, h, by decide, by decide, by decide,
    (regions_disjoint_of_reachable .wasm32 [] (by decide) [] _ _ h).2.2.2.1⟩

/-- With a heap start of zero no prefix is protected and the heap test is skipped: a fixed
mapping replaces heap addresses. -/
theorem fixed_mapping_enters_heap_at_zero_base :
    ∃ m, Reachable .wasm32 (compactLayout .wasm32 [] 0 [] 0x100000 []) m ∧
      ∃ s ∈ m.spans, ¬ m.OffHeap s := by
  have h : Reachable .wasm32 (compactLayout .wasm32 [] 0 [] 0x100000 []) _ :=
    (Reachable.start.setBrk 0x20000).mmapAnonymous 0x10000 0x1000 3 0x32
  refine ⟨_, h, ⟨0x10000, 0x10000⟩, by decide, ?_⟩
  intro hoff
  exact hoff 0x10000 (by decide) (by decide) (by decide)

end MemoryManager

end Kandelo.Kernel.Memory
