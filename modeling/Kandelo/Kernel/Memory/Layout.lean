import Kandelo.Kernel.Memory.Gap

/-!
# Disjointness of the process address space

In a compact layout (`memory.rs:536-544`) the mappings
and host ranges form two packed tables, apart from each other, inside the guest-managed
part of the address space and above the program break. Every operation is reduced to one
question: the range it adds is free.
-/

namespace Kandelo.Kernel.Memory

open Lib List MappedRegion PointerWidth Span

variable {s : Span} {m' : MemoryManager} {r : MappedRegion} {len hint addr newLen : Nat}

@[simp]
lemma MappedRegion.span_addr (r : MappedRegion) : r.span.addr = r.addr := rfl

@[simp]
lemma MappedRegion.span_len (r : MappedRegion) : r.span.len = r.len := rfl

namespace MemoryManager

variable {w : PointerWidth} {m : MemoryManager} {needed addr : Nat}

/-- The span lies in guest-managed memory above the break. -/
structure Placed (m : MemoryManager) (s : Span) : Prop where
  pos : 0 < s.len
  lower : m.programBreak ≤ s.addr
  upper : s.stop ≤ m.maxAddr

lemma Placed.transfer (h : m.Placed s)
    (hb : m'.programBreak = m.programBreak) (hc : m'.maxAddr = m.maxAddr) : m'.Placed s :=
  ⟨h.pos, hb ▸ h.lower, hc ▸ h.upper⟩

/-- The span is placed and apart from everything occupied. -/
structure Free (m : MemoryManager) (s : Span) : Prop extends Placed m s where
  apart : ∀ t ∈ m.spans, s.Apart t

/-- A compact layout: a nonempty protected prefix that ends at the heap start, automatic
mappings above it, and a ceiling far below the largest address. -/
structure Compact (m : MemoryManager) : Prop where
  guarded : m.reservedUntil = m.initialBrk
  pos : 0 < m.initialBrk
  base : m.initialBrk ≤ m.mmapBase
  heap : m.initialBrk ≤ m.programBreak
  ceiling : m.maxAddr ≤ 0x40000000

/-- A compact layout whose regions are packed, placed and apart from each other. -/
structure Tidy (m : MemoryManager) : Prop extends Compact m where
  mappings_packed : Span.Packed MappedRegion.span m.mappings
  reserved_packed : Span.Packed ReservedRegion.span m.reservedRegions
  apart : ∀ a ∈ m.mappings, ∀ r ∈ m.reservedRegions, a.span.Apart r.span
  placed : ∀ s ∈ m.spans, m.Placed s

lemma Tidy.mapping (h : m.Tidy) (hr : r ∈ m.mappings) : m.Placed r.span :=
  h.placed _ (mem_spans.mpr (.inl ⟨r, hr, rfl⟩))

lemma Tidy.reserved (h : m.Tidy) {r : ReservedRegion} (hr : r ∈ m.reservedRegions) :
    m.Placed r.span :=
  h.placed _ (mem_spans.mpr (.inr ⟨r, hr, rfl⟩))

lemma Compact.saturatingAdd_eq (h : m.Compact) (hs : s.stop ≤ m.maxAddr) :
    w.saturatingAdd s.addr s.len = s.stop := by
  apply PointerWidth.saturatingAdd_eq
  have := h.ceiling
  have := w.le_usizeMax
  simp only [stop] at hs
  omega

/-! ### Insertion -/

lemma mem_inserted {α : Type} {l : List α} {a x : α} {k : Nat} :
    a ∈ l.take k ++ x :: l.drop k ↔ a = x ∨ a ∈ l := by
  rw [mem_append, mem_cons, or_left_comm, ← mem_append, take_append_drop]

lemma Tidy.insertMapping (h : m.Tidy) (hf : m.Free r.span) : (m.insertMapping r).Tidy := by
  refine ⟨⟨h.guarded, h.pos, h.base, h.heap, h.ceiling⟩, ?_, h.reserved_packed, ?_, ?_⟩
  · apply h.mappings_packed.insert (fun x hx => (h.mapping hx).pos) hf.pos _ rfl
    intro y hy
    exact hf.apart _ (mem_spans.mpr (.inl ⟨y, hy, rfl⟩))
  · intro a ha q hq
    rcases mem_inserted.mp ha with rfl | ha
    · exact hf.apart _ (mem_spans.mpr (.inr ⟨q, hq, rfl⟩))
    · exact h.apart a ha q hq
  · intro s hs
    rcases mem_spans.mp hs with ⟨q, hq, rfl⟩ | hq
    · rcases mem_inserted.mp hq with rfl | hq
      · exact hf.toPlaced.transfer rfl rfl
      · exact (h.mapping hq).transfer rfl rfl
    · exact (h.placed s (mem_spans.mpr (.inr hq))).transfer rfl rfl

lemma Tidy.insertReserved (h : m.Tidy) {r : ReservedRegion} (hf : m.Free r.span) :
    (m.insertReserved r).Tidy := by
  refine ⟨⟨h.guarded, h.pos, h.base, h.heap, h.ceiling⟩, h.mappings_packed, ?_, ?_, ?_⟩
  · apply h.reserved_packed.insert (fun x hx => (h.reserved hx).pos) hf.pos _ rfl
    intro y hy
    exact hf.apart _ (mem_spans.mpr (.inr ⟨y, hy, rfl⟩))
  · intro a ha q hq
    rcases mem_inserted.mp hq with rfl | hq
    · exact (hf.apart _ (mem_spans.mpr (.inl ⟨a, ha, rfl⟩))).symm
    · exact h.apart a ha q hq
  · intro s hs
    rcases mem_spans.mp hs with hq | ⟨q, hq, rfl⟩
    · exact (h.placed s (mem_spans.mpr (.inl hq))).transfer rfl rfl
    rcases mem_inserted.mp hq with rfl | hq
    · exact hf.toPlaced.transfer rfl rfl
    · exact (h.reserved hq).transfer rfl rfl

lemma Tidy.ofMappings (h : m.Tidy) {rs : List MappedRegion}
    (hp : Span.Packed span rs)
    (hsub : ∀ r ∈ rs, 0 < r.len ∧ ∃ q ∈ m.mappings, q.addr ≤ r.addr ∧ r.span.stop ≤ q.span.stop) :
    Tidy { m with mappings := rs } := by
  refine ⟨⟨h.guarded, h.pos, h.base, h.heap, h.ceiling⟩, hp, h.reserved_packed, ?_, ?_⟩
  · intro a ha r hr
    obtain ⟨-, q, hq, h1, h2⟩ := hsub a ha
    have := h.apart q hq r hr
    simp only [Span.Apart, span_addr] at *
    omega
  · intro s hs
    rcases mem_spans.mp hs with ⟨r, hr, rfl⟩ | hs
    · obtain ⟨hpos, q, hq, h1, h2⟩ := hsub r hr
      have hl := (h.mapping hq).lower
      have hu := (h.mapping hq).upper
      exact ⟨hpos, Nat.le_trans hl h1, Nat.le_trans h2 hu⟩
    · exact (h.placed s (mem_spans.mpr (.inr hs))).transfer rfl rfl

/-! ### Free ranges -/

lemma overlapTest_eq_false {len : Nat} {test : Nat → Bool}
    (h : overlapTest w addr len test = false) :
    addr + len ≤ w.usizeMax ∧ test (addr + len) = false := by
  unfold overlapTest at h
  split at h
  · next stop hstop =>
    obtain ⟨rfl, hle⟩ := checkedAdd_eq_some hstop
    exact ⟨hle, h⟩
  · cases h

lemma Compact.apart_of_not_meet (h : m.Compact) {t : Span} (hstop : t.stop ≤ m.maxAddr)
    (hmeet : ¬ spansMeet s.addr s.stop t.addr (w.saturatingAdd t.addr t.len) = true) :
    s.Apart t := by
  rw [Bool.not_eq_true, h.saturatingAdd_eq hstop] at hmeet
  simp only [spansMeet, Bool.and_eq_false_iff, decide_eq_false_iff_not] at hmeet
  simp only [Span.Apart] at *
  omega

lemma Tidy.apart_mappings (h : m.Tidy) (ht : (m.mappings.any fun r =>
      spansMeet s.addr s.stop r.addr (w.saturatingAdd r.addr r.len)) = false) :
    ∀ r ∈ m.mappings, s.Apart r.span :=
  fun r hr => h.apart_of_not_meet (h.mapping hr).upper (any_eq_false.mp ht r hr)

lemma Tidy.apart_reserved (h : m.Tidy) (ht : m.overlapsReservedRegions w s.addr s.len = false) :
    ∀ r ∈ m.reservedRegions, s.Apart r.span :=
  fun r hr => h.apart_of_not_meet (h.reserved hr).upper
    (any_eq_false.mp (overlapTest_eq_false ht).2 r hr)

lemma Compact.above_break (h : m.Compact) (hs : 0 < s.len)
    (hp : m.overlapsReservedPrefix w s.addr s.len = false)
    (hb : (decide (m.reservedUntil ≠ 0) && m.overlapsBrkHeap w s.addr s.len) = false) :
    m.programBreak ≤ s.addr := by
  have hguard := h.guarded
  have hpos := h.pos
  have hne : m.reservedUntil ≠ 0 := by omega
  rw [overlapsReservedPrefix, if_neg hne] at hp
  simp only [hne, ne_eq] at hb
  have hprefix := (overlapTest_eq_false hp).2
  simp only [Bool.and_eq_false_iff, decide_eq_false_iff_not] at hprefix
  unfold overlapsBrkHeap at hb
  split at hb
  · omega
  have hheap := (overlapTest_eq_false hb).2
  simp only [spansMeet, Bool.and_eq_false_iff, decide_eq_false_iff_not] at hheap
  omega

lemma Tidy.free_of_canGrowAt (h : m.Tidy) (hs : 0 < s.len)
    (hc : m.canGrowAt w s.addr s.len = true) : m.Free s := by
  unfold canGrowAt at hc
  split at hc
  · cases hc
  next stop hstop =>
  obtain ⟨rfl, -⟩ := checkedAdd_eq_some hstop
  simp only [Bool.and_eq_true, Bool.not_eq_true', decide_eq_false_iff_not] at hc
  obtain ⟨⟨⟨⟨⟨hmax, -⟩, hprefix⟩, hres⟩, hheap⟩, hmap⟩ := hc
  refine ⟨⟨hs, h.above_break hs hprefix hheap, Nat.le_of_not_lt hmax⟩, ?_⟩
  intro t ht
  rcases mem_spans.mp ht with ⟨r, hr, rfl⟩ | ⟨r, hr, rfl⟩
  · exact h.apart_mappings hmap r hr
  · exact h.apart_reserved hres r hr

lemma Tidy.fits_of_findGap (h : m.Tidy) {c : Nat} (hpos : 0 < needed)
    (hg : m.findGap w needed = some c) : m.Fits needed c := by
  have hmax : m.maxAddr < w.usizeMax := by
    have := h.ceiling
    have := w.le_usizeMax
    omega
  have hm := h.mappings_packed.addr_lt fun r hr => (h.mapping hr).pos
  have hr := h.reserved_packed.addr_lt fun r hr => (h.reserved hr).pos
  have hrep : ∀ s ∈ m.spans, s.addr ≤ w.usizeMax := fun s hs =>
    Nat.le_trans (Nat.le_of_add_right_le (h.placed s hs).upper) (Nat.le_of_lt hmax)
  exact (((findGap_spec hmax hrep (hm.imp Nat.le_of_lt) (hr.imp Nat.le_of_lt) hpos).1 c).mp hg).1

lemma Tidy.free_of_findGap (h : m.Tidy) {c : Nat} (hpos : 0 < needed)
    (hg : m.findGap w needed = some c) : m.Free ⟨c, needed⟩ := by
  obtain ⟨hlow, -, hap, hup⟩ := h.fits_of_findGap hpos hg
  refine ⟨⟨hpos, by dsimp only; omega, ?_⟩, hap⟩
  -- Below the last range the next one is placed; behind it the search tests the ceiling.
  by_cases hlast : ∀ s ∈ m.spans, s.stop ≤ c
  · exact hup hlast
  simp only [not_forall] at hlast
  obtain ⟨s, hs, hlt⟩ := hlast
  have h1 := hap s hs
  have h2 := (h.placed s hs).upper
  simp only [Span.Apart, stop] at *
  omega

/-! ### Operations -/

lemma alignLen_pos {alignedLen : Nat} (hpos : len ≠ 0)
    (h : alignLen w len = some alignedLen) : 0 < alignedLen := by
  obtain ⟨v, hv, rfl⟩ := Option.map_eq_some_iff.mp h
  obtain ⟨rfl, -⟩ := checkedAdd_eq_some hv
  simp only [pageFloor, pageSize]
  omega

lemma Tidy.filterMappings (h : m.Tidy) (keep : MappedRegion → Bool) :
    Tidy { m with mappings := m.mappings.filter keep } := by
  apply h.ofMappings (h.mappings_packed.sublist filter_sublist)
  intro r hr
  have hr := (mem_filter.mp hr).1
  exact ⟨(h.mapping hr).pos, r, hr, Nat.le_refl _, Nat.le_refl _⟩

lemma Tidy.placeFixed (h : m.Tidy) (hlen : 0 < len)
    (hp : m.placeFixed w hint len = some (addr, m')) : m'.Tidy ∧ m'.Free ⟨addr, len⟩ := by
  simp only [MemoryManager.placeFixed] at hp
  split at hp
  · cases hp
  next hc =>
  cases hp
  simp only [Bool.or_eq_true, not_or, Bool.not_eq_true, decide_eq_false_iff_not] at hc
  obtain ⟨⟨⟨⟨hmax, hprefix⟩, hres⟩, -⟩, hheap⟩ := hc
  have hsat : w.saturatingAdd hint len = hint + len := by
    apply saturatingAdd_eq
    have := h.ceiling
    have := w.le_usizeMax
    simp only [saturatingAdd] at hmax
    omega
  rw [hsat] at hmax ⊢
  refine ⟨h.filterMappings _, ⟨hlen, ?_, Nat.le_of_not_lt hmax⟩, ?_⟩
  · exact h.above_break (s := ⟨hint, len⟩) hlen hprefix hheap
  intro t ht
  rcases mem_spans.mp ht with ⟨r, hr, rfl⟩ | ⟨r, hr, rfl⟩
  · obtain ⟨hr, hkeep⟩ := mem_filter.mp hr
    have hrs := h.saturatingAdd_eq (w := w) (h.mapping hr).upper
    simp only [span_addr, span_len] at hrs
    rw [hrs] at hkeep
    simp only [Bool.or_eq_true, decide_eq_true_eq] at hkeep
    exact hkeep.symm
  · exact h.apart_reserved hres r hr

lemma Tidy.placeAnywhere (h : m.Tidy)
    (hlen : 0 < len) (hp : m.placeAnywhere w hint len = some (addr, m')) :
    m' = m ∧ m.Free ⟨addr, len⟩ := by
  simp only [MemoryManager.placeAnywhere] at hp
  split at hp
  · next hc =>
    cases hp
    simp only [Bool.and_eq_true] at hc
    exact ⟨rfl, h.free_of_canGrowAt (s := ⟨pageFloor hint, len⟩) hlen hc.2⟩
  · obtain ⟨c, hc, he⟩ := Option.map_eq_some_iff.mp hp
    cases he
    exact ⟨rfl, h.free_of_findGap hlen hc⟩

lemma Tidy.mmapAnonymous (h : m.Tidy) (hint len prot flags : Nat) :
    (m.mmapAnonymous w hint len prot flags).2.Tidy := by
  simp only [MemoryManager.mmapAnonymous]
  split
  · exact h
  next hlen =>
  split
  · exact h
  next alignedLen halign =>
  have hpos := alignLen_pos hlen halign
  split
  · exact h
  next addr m' hplaced =>
  have hp : m'.Tidy ∧ m'.Free ⟨addr, alignedLen⟩ := by
    split at hplaced
    · exact h.placeFixed hpos hplaced
    · obtain ⟨rfl, hfree⟩ := h.placeAnywhere hpos hplaced
      exact ⟨h, hfree⟩
  exact hp.1.insertMapping hp.2

/-- What is left of a mapping starts where it started or behind the range, and ends where it
ended or before the range. -/
@[mk_iff]
structure Remnant (w : PointerWidth) (addr unmapEnd : Nat) (r q : MappedRegion) : Prop where
  pos : 0 < q.len
  within : r.addr ≤ q.addr ∧ q.span.stop ≤ r.span.stop
  starts : q.addr = r.addr ∨ q.addr = unmapEnd ∧ unmapEnd < w.usizeMax
  stops : q.span.stop = r.span.stop ∨ q.span.stop = addr

lemma remnants_spec {unmapEnd : Nat} {r : MappedRegion}
    (hv : 0 < r.len ∧ r.span.stop ≤ w.usizeMax) (hle : r.span.stop ≤ addr ∨ addr ≤ unmapEnd) :
    Span.Packed span (remnants w addr unmapEnd r) ∧
      ∀ q ∈ remnants w addr unmapEnd r, Remnant w addr unmapEnd r q := by
  obtain ⟨hpos, hstop⟩ := hv
  have hsat := saturatingAdd_eq hstop
  simp only [MappedRegion.span, Span.stop] at hsat hle hstop
  simp only [remnants, Span.Packed, remnant_iff]
  split
  · simp [hpos]
  next hc =>
  simp only [Bool.or_eq_true, decide_eq_true_eq] at hc
  split <;> split <;> simp [Span.stop] <;> omega

/-- What `munmap` leaves is packed and inside what was there. -/
lemma munmap_spec (hp : Span.Packed span m.mappings)
    (hv : ∀ r ∈ m.mappings, 0 < r.len ∧ r.span.stop ≤ w.usizeMax) (addr len : Nat) :
    (m.munmap w addr len).2 = m ∨ ∃ n rs, alignLen w len = some n ∧
      (m.munmap w addr len).2 = { m with mappings := rs } ∧ Span.Packed span rs ∧
        ∀ q ∈ rs, ∃ r ∈ m.mappings, Remnant w addr (w.saturatingAdd addr n) r q := by
  unfold munmap
  split
  · exact .inl rfl
  split
  · exact .inl rfl
  next n halign =>
  have hle : ∀ r ∈ m.mappings, r.span.stop ≤ addr ∨ addr ≤ w.saturatingAdd addr n := by
    intro r hr
    have := (hv r hr).2
    simp only [saturatingAdd]
    omega
  have hspec := fun r (hr : r ∈ m.mappings) => remnants_spec (hv r hr) (hle r hr)
  refine .inr ⟨n, _, halign, rfl, hp.flatMap (fun r hr => (hspec r hr).1)
    fun r hr q hq => ((hspec r hr).2 q hq).within, fun q hq => ?_⟩
  obtain ⟨r, hr, hq⟩ := mem_flatMap.mp hq
  exact ⟨r, hr, (hspec r hr).2 q hq⟩

section

variable (h : m.Tidy)

include h

lemma Tidy.valid (hr : r ∈ m.mappings) : 0 < r.len ∧ r.span.stop ≤ w.usizeMax := by
  have := (h.mapping hr).upper
  have := h.ceiling
  have := w.le_usizeMax
  exact ⟨(h.mapping hr).pos, by omega⟩

lemma Tidy.munmap (addr len : Nat) : (m.munmap w addr len).2.Tidy := by
  rcases munmap_spec h.mappings_packed (fun r hr => h.valid hr) addr len with
    heq | ⟨n, rs, -, heq, hp, hsub⟩ <;> rw [heq]
  · exact h
  refine h.ofMappings hp fun q hq => ?_
  obtain ⟨r, hr, hq⟩ := hsub q hq
  exact ⟨hq.pos, r, hr, hq.within⟩

lemma Tidy.setBrk (newBrk : Nat) : (m.setBrk w newBrk).2.Tidy := by
  simp only [MemoryManager.setBrk]
  split
  · exact h
  next hc =>
  simp only [Bool.or_eq_true, not_or, decide_eq_true_eq, Bool.and_eq_true, Bool.not_eq_true,
    not_and] at hc
  obtain ⟨⟨⟨⟨⟨⟨-, hlow⟩, -⟩, -⟩, hmaps⟩, hres⟩, -⟩ := hc
  refine ⟨⟨h.guarded, h.pos, h.base, by dsimp only; omega, h.ceiling⟩, h.mappings_packed,
    h.reserved_packed, h.apart, ?_⟩
  intro s hs
  have hplaced := h.placed s hs
  refine ⟨hplaced.pos, ?_, hplaced.upper⟩
  dsimp only
  rcases Nat.lt_or_ge m.programBreak newBrk with hgrow | hshrink
  · -- The added heap is apart from the region, and the region starts above the old break.
    have hapart : (⟨m.programBreak, newBrk - m.programBreak⟩ : Span).Apart s := by
      rcases mem_spans.mp hs with ⟨r, hr, rfl⟩ | ⟨r, hr, rfl⟩
      · exact h.apart_mappings (overlapTest_eq_false (hmaps hgrow)).2 r hr
      · exact h.apart_reserved (hres hgrow) r hr
    have hlow := hplaced.lower
    have hpos := hplaced.pos
    simp only [Span.Apart, stop] at hapart
    omega
  · exact Nat.le_trans hshrink hplaced.lower

lemma Tidy.reserveHostRegion (len : Nat) : (m.reserveHostRegion w len).2.Tidy := by
  simp only [MemoryManager.reserveHostRegion]
  split
  · exact h
  next hlen =>
  split
  · exact h
  next alignedLen halign =>
  split
  · exact h
  next addr hgap =>
  exact h.insertReserved (h.free_of_findGap (alignLen_pos hlen halign) hgap)

lemma Tidy.reserveHostRegionAt (addr len : Nat) : (m.reserveHostRegionAt w addr len).2.Tidy := by
  simp only [MemoryManager.reserveHostRegionAt]
  split
  · exact h
  next hlen =>
  split
  · exact h
  next alignedLen halign =>
  split
  · exact h
  next stop hstop =>
  split
  · exact h
  next hc =>
  simp only [Bool.or_eq_true, not_or, decide_eq_true_eq, Bool.not_eq_true] at hlen hc
  obtain ⟨⟨⟨⟨⟨hmax, hprefix⟩, -⟩, hmaps⟩, hres⟩, hheap⟩ := hc
  obtain ⟨rfl, -⟩ := checkedAdd_eq_some hstop
  have hpos := alignLen_pos hlen.1 halign
  apply h.insertReserved
  refine ⟨⟨hpos, ?_, Nat.le_of_not_lt hmax⟩, ?_⟩
  · exact h.above_break (s := ⟨addr, alignedLen⟩) hpos hprefix hheap
  intro t ht
  rcases mem_spans.mp ht with ⟨r, hr, rfl⟩ | ⟨r, hr, rfl⟩
  · exact h.apart_mappings (s := ⟨addr, alignedLen⟩) (overlapTest_eq_false hmaps).2 r hr
  · exact h.apart_reserved hres r hr

lemma Tidy.extend {before after : List MappedRegion} (hm : m.mappings = before ++ r :: after)
    (hlt : r.len < newLen) (hf : m.Free ⟨r.span.stop, newLen - r.len⟩) :
    Tidy { m with mappings := before ++ { r with len := newLen } :: after } := by
  have hpacked := h.mappings_packed
  rw [Span.Packed, hm, pairwise_append, pairwise_cons] at hpacked
  obtain ⟨hbefore, ⟨hr, hafter⟩, hcross⟩ := hpacked
  have hin : ∀ q ∈ before ++ r :: after, q ∈ m.mappings := fun q hq => hm ▸ hq
  -- A later mapping starts behind the old end, so the free range ends before it.
  have hlater : ∀ q ∈ after, r.addr + newLen ≤ q.addr := by
    intro q hq
    have hqm := hin q (by simp [hq])
    have h1 := hr q hq
    have h2 := hf.apart _ (mem_spans.mpr (.inl ⟨q, hqm, rfl⟩))
    have h3 := (h.mapping hqm).pos
    simp only [Span.Apart, Span.stop, MappedRegion.span_addr, MappedRegion.span_len] at *
    omega
  have hrm := hin r (by simp)
  refine ⟨⟨h.guarded, h.pos, h.base, h.heap, h.ceiling⟩, ?_, h.reserved_packed, ?_, ?_⟩
  · apply pairwise_append.mpr
    refine ⟨hbefore, pairwise_cons.mpr ⟨hlater, hafter⟩, ?_⟩
    intro a ha b hb
    rcases mem_cons.mp hb with rfl | hb
    · exact hcross a ha r mem_cons_self
    · exact hcross a ha b (mem_cons_of_mem r hb)
  · intro a ha q hq
    rcases mem_append.mp ha with ha | ha
    · exact h.apart a (hin a (by simp [ha])) q hq
    rcases mem_cons.mp ha with rfl | ha
    · have h1 := h.apart r hrm q hq
      have h2 := hf.apart _ (mem_spans.mpr (.inr ⟨q, hq, rfl⟩))
      have h3 := (h.reserved hq).pos
      simp only [Span.Apart, Span.stop, MappedRegion.span] at *
      omega
    · exact h.apart a (hin a (by simp [ha])) q hq
  · intro s hs
    rcases mem_spans.mp hs with ⟨a, ha, rfl⟩ | hs
    · rcases mem_append.mp ha with ha | ha
      · exact (h.mapping (hin a (by simp [ha]))).transfer rfl rfl
      rcases mem_cons.mp ha with rfl | ha
      · have hlow := (h.mapping hrm).lower
        have hup := hf.upper
        refine ⟨by simp only [MappedRegion.span]; omega, hlow, ?_⟩
        simp only [Span.stop, MappedRegion.span] at hup ⊢
        omega
      · exact (h.mapping (hin a (by simp [ha]))).transfer rfl rfl
    · exact (h.placed s (mem_spans.mpr (.inr hs))).transfer rfl rfl

lemma Tidy.growInPlace {oldLen : Nat} (hlt : oldLen < newLen) {found : Bool}
    (hg : m.growInPlace w addr oldLen newLen = some (found, m')) : m'.Tidy := by
  simp only [MemoryManager.growInPlace] at hg
  split at hg
  · next hc =>
    simp only [extendMapping] at hg
    split at hg
    · next ms hms =>
      cases hg
      obtain ⟨before, r, after, hm, hmatch, rfl⟩ := Slice.modifyFirst_eq_some hms
      simp only [Bool.and_eq_true, decide_eq_true_eq] at hmatch
      obtain ⟨rfl, rfl⟩ := hmatch
      have hr : r ∈ m.mappings := by simp [hm]
      have hsum : w.wrappingAdd r.addr r.len = r.addr + r.len := by
        apply PointerWidth.wrappingAdd_eq
        have := (h.mapping hr).upper
        have := h.ceiling
        have := w.le_usizeMax
        simp only [Span.stop, MappedRegion.span] at *
        omega
      rw [hsum] at hc
      exact h.extend hm hlt (h.free_of_canGrowAt (s := ⟨r.addr + r.len, newLen - r.len⟩)
        (by dsimp only; omega) hc)
    · cases hg
      exact h
  · cases hg

lemma Tidy.sysMremap (oldAddr oldLen newLen flags : Nat) :
    (m.sysMremap w oldAddr oldLen newLen flags).2.Tidy :=
  sysMremap_rule (fun _ addr len h => h.munmap addr len)
    (fun _ hint len prot flags h => h.mmapAnonymous hint len prot flags)
    (fun _ _ _ _ _ _ hlt h hg => h.growInPlace hlt hg) h oldAddr oldLen newLen flags

end

end MemoryManager

end Kandelo.Kernel.Memory
