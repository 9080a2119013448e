import Kandelo.Kernel.Memory.Runs

/-!
# Alignment of automatic placements

The first-fit search stops at its starting bound or at the end of a range,
so it gives out page boundaries as long as all of these are. The starting bound is the larger
of the automatic base and the program break (`memory.rs:179`), and the break may be any byte.
-/

namespace Kandelo.Kernel.Memory

variable {w : PointerWidth} {m : MemoryManager} {addr len hint : Nat}

lemma pageSize_dvd_pageFloor {value : Nat} : pageSize ∣ pageFloor value := Nat.dvd_mul_left _ _

lemma pageSize_dvd_alignLen {n : Nat} (h : alignLen w len = some n) : pageSize ∣ n := by
  obtain ⟨v, -, rfl⟩ := Option.map_eq_some_iff.mp h
  exact pageSize_dvd_pageFloor

namespace MemoryManager

/-- Everything the search can stop at is a page boundary. -/
structure Paged (m : MemoryManager) : Prop where
  base : pageSize ∣ m.mmapBase
  brk : m.programBreak ≤ m.mmapBase ∨ pageSize ∣ m.programBreak
  spans : ∀ s ∈ m.spans, pageSize ∣ s.addr ∧ pageSize ∣ s.stop

lemma Paged.findGap (h : m.Paged) (ht : m.Tidy) {needed a : Nat} (hpos : 0 < needed)
    (hg : m.findGap w needed = some a) : pageSize ∣ a := by
  rcases (ht.fits_of_findGap hpos hg).edge with rfl | ⟨s, hs, rfl⟩
  · rcases h.brk with hle | hbrk
    · rw [Nat.max_eq_left hle]
      exact h.base
    · rcases max_choice m.mmapBase m.programBreak with heq | heq <;> rw [heq]
      exacts [h.base, hbrk]
  · exact (h.spans s hs).2

/-- A change of the tables that adds page-aligned ranges only. -/
lemma Paged.ofSpans (h : m.Paged) {m' : MemoryManager} (hbase : m'.mmapBase = m.mmapBase)
    (hbrk : m'.programBreak = m.programBreak)
    (hs : ∀ s ∈ m'.spans, s ∈ m.spans ∨ pageSize ∣ s.addr ∧ pageSize ∣ s.stop) : m'.Paged := by
  refine ⟨hbase ▸ h.base, ?_, fun s hs' => (hs s hs').elim (h.spans s) id⟩
  rw [hbase, hbrk]
  exact h.brk

lemma Paged.insertMapping (h : m.Paged) {r : MappedRegion} (ha : pageSize ∣ r.addr)
    (hl : pageSize ∣ r.len) : (m.insertMapping r).Paged := by
  refine h.ofSpans rfl rfl fun s hs => ?_
  rcases mem_spans.mp hs with ⟨q, hq, rfl⟩ | hq
  · rcases mem_inserted.mp hq with rfl | hq
    · exact .inr ⟨ha, Nat.dvd_add ha hl⟩
    · exact .inl (mem_spans.mpr (.inl ⟨q, hq, rfl⟩))
  · exact .inl (mem_spans.mpr (.inr hq))

lemma Paged.mmapAnonymous (h : m.Paged) (ht : m.Tidy) {flags : Nat}
    (hf : isFixed flags = true → pageSize ∣ hint) (len prot : Nat) :
    (m.mmapAnonymous w hint len prot flags).2.Paged ∧
      ((m.mmapAnonymous w hint len prot flags).1 ≠ mapFailed w →
        pageSize ∣ (m.mmapAnonymous w hint len prot flags).1) := by
  have hfail : m.Paged ∧ (mapFailed w ≠ mapFailed w → pageSize ∣ mapFailed w) :=
    ⟨h, fun hne => absurd rfl hne⟩
  simp only [MemoryManager.mmapAnonymous]
  split
  · exact hfail
  next hlen =>
  split
  · exact hfail
  next n halign =>
  split
  · exact hfail
  next a m' hplaced =>
  obtain ⟨hm', ha⟩ : m'.Paged ∧ pageSize ∣ a := by
    split at hplaced
    · next hc =>
      simp only [placeFixed] at hplaced
      split at hplaced
      · cases hplaced
      cases hplaced
      simp only [Bool.and_eq_true] at hc
      refine ⟨h.ofSpans rfl rfl fun s hs => .inl ?_, hf hc.2⟩
      refine mem_spans.mpr ((mem_spans.mp hs).imp_left ?_)
      rintro ⟨r, hr, he⟩
      exact ⟨r, (List.mem_filter.mp hr).1, he⟩
    · simp only [placeAnywhere] at hplaced
      split at hplaced
      · cases hplaced
        exact ⟨h, pageSize_dvd_pageFloor⟩
      · obtain ⟨c, hc, he⟩ := Option.map_eq_some_iff.mp hplaced
        cases he
        exact ⟨h, h.findGap ht (alignLen_pos hlen halign) hc⟩
  exact ⟨hm'.insertMapping ha (pageSize_dvd_alignLen halign), fun _ => ha⟩

lemma Paged.munmap (h : m.Paged) (ht : m.Tidy) (ha : pageSize ∣ addr) (len : Nat) :
    (m.munmap w addr len).2.Paged := by
  rcases munmap_spec ht.mappings_packed (fun r hr => ht.valid hr) addr len with
    heq | ⟨n, rs, halign, heq, -, hsub⟩ <;> rw [heq]
  · exact h
  refine h.ofSpans rfl rfl fun s hs => ?_
  rcases mem_spans.mp hs with ⟨q, hq, rfl⟩ | hq
  · obtain ⟨r, hr, hq⟩ := hsub q hq
    obtain ⟨hra, hrs⟩ := h.spans r.span (mem_spans.mpr (.inl ⟨r, hr, rfl⟩))
    refine .inr ⟨?_, ?_⟩
    · rcases hq.starts with heq | ⟨heq, hlt⟩ <;> rw [MappedRegion.span_addr, heq]
      · exact hra
      have hend : w.saturatingAdd addr n = addr + n := by
        simp only [PointerWidth.saturatingAdd] at *
        omega
      rw [hend]
      exact Nat.dvd_add ha (pageSize_dvd_alignLen halign)
    · rcases hq.stops with heq | heq <;> rw [heq]
      exacts [hrs, ha]
  · exact .inl (mem_spans.mpr (.inr hq))

lemma Paged.reserveHostRegion (h : m.Paged) (ht : m.Tidy) (len : Nat) :
    (m.reserveHostRegion w len).2.Paged ∧
      ((m.reserveHostRegion w len).1 ≠ mapFailed w → pageSize ∣ (m.reserveHostRegion w len).1) := by
  simp only [MemoryManager.reserveHostRegion]
  split
  · exact ⟨h, fun hne => absurd rfl hne⟩
  next hlen =>
  split
  · exact ⟨h, fun hne => absurd rfl hne⟩
  next n halign =>
  split
  · exact ⟨h, fun hne => absurd rfl hne⟩
  next a hgap =>
  have ha := h.findGap ht (alignLen_pos hlen halign) hgap
  refine ⟨h.ofSpans rfl rfl fun s hs => ?_, fun _ => ha⟩
  rcases mem_spans.mp hs with hq | ⟨q, hq, rfl⟩
  · exact .inl (mem_spans.mpr (.inl hq))
  rcases mem_inserted.mp hq with rfl | hq
  · exact .inr ⟨ha, Nat.dvd_add ha (pageSize_dvd_alignLen halign)⟩
  · exact .inl (mem_spans.mpr (.inr ⟨q, hq, rfl⟩))

/-- Histories whose addresses are page boundaries, with every break a page boundary or at most
the automatic base. -/
inductive PagedRun (w : PointerWidth) (m0 : MemoryManager) : MemoryManager → Prop
  | start : PagedRun w m0 m0
  | setBrk {m : MemoryManager} (h : PagedRun w m0 m) {newBrk : Nat}
      (hb : newBrk ≤ m.mmapBase ∨ pageSize ∣ newBrk) : PagedRun w m0 (m.setBrk w newBrk).2
  | munmap {m : MemoryManager} (h : PagedRun w m0 m) {addr : Nat} (ha : pageSize ∣ addr)
      (len : Nat) : PagedRun w m0 (m.munmap w addr len).2
  | mmapAnonymous {m : MemoryManager} (h : PagedRun w m0 m) {hint flags : Nat}
      (hf : isFixed flags = true → pageSize ∣ hint) (len prot : Nat) :
      PagedRun w m0 (m.mmapAnonymous w hint len prot flags).2
  | reserveHostRegion {m : MemoryManager} (h : PagedRun w m0 m) (len : Nat) :
      PagedRun w m0 (m.reserveHostRegion w len).2

lemma PagedRun.paged {m0 : MemoryManager} (hp : m0.Paged) (ht : m0.Tidy)
    (h : PagedRun w m0 m) : m.Paged ∧ m.Tidy := by
  induction h with
  | start => exact ⟨hp, ht⟩
  | setBrk _ hb ih =>
    refine ⟨⟨?_, ?_, ?_⟩, ih.2.setBrk _⟩ <;> unfold MemoryManager.setBrk <;> split
    exacts [ih.1.base, ih.1.base, ih.1.brk, hb, ih.1.spans, ih.1.spans]
  | munmap _ ha len ih => exact ⟨ih.1.munmap ih.2 ha len, ih.2.munmap _ len⟩
  | mmapAnonymous _ hf len prot ih =>
    exact ⟨(ih.1.mmapAnonymous ih.2 hf len prot).1, ih.2.mmapAnonymous _ len prot _⟩
  | reserveHostRegion _ len ih =>
    exact ⟨(ih.1.reserveHostRegion ih.2 len).1, ih.2.reserveHostRegion len⟩

/-- In such a history from a page-aligned compact layout, automatic mappings and host ranges
start at page boundaries. -/
theorem pageSize_dvd_of_pagedRun (before : List Limit) {brkBase : Nat} (hb : brkBase ≠ 0)
    (hpage : pageSize ∣ brkBase) (between : List Limit) (mmapBase : Nat) (after : List Limit)
    (h : PagedRun w (compactLayout w before brkBase between mmapBase after) m) :
    (∀ hint len prot flags, isFixed flags = false →
        (m.mmapAnonymous w hint len prot flags).1 ≠ mapFailed w →
        pageSize ∣ (m.mmapAnonymous w hint len prot flags).1) ∧
      ∀ len, (m.reserveHostRegion w len).1 ≠ mapFailed w →
        pageSize ∣ (m.reserveHostRegion w len).1 := by
  obtain ⟨hmaps, hres, -, hbrk, hbase, -⟩ :=
    compactLayout_fields w before brkBase between mmapBase after
  have hstart : (compactLayout w before brkBase between mmapBase after).Paged := by
    refine ⟨?_, .inr (by rwa [hbrk]), by simp [spans, hmaps, hres]⟩
    rw [hbase]
    rcases max_choice (alignPageUp w mmapBase) brkBase with heq | heq <;> rw [heq]
    exacts [pageSize_dvd_pageFloor, hpage]
  obtain ⟨hp, ht⟩ := h.paged hstart (tidy_compactLayout w before hb between mmapBase after)
  refine ⟨fun hint len prot flags hf => ?_, fun len => (hp.reserveHostRegion ht len).2⟩
  exact (hp.mmapAnonymous ht (by simp [hf]) len prot).2

/-- A break at a page boundary, then an automatic mapping behind it. -/
theorem pageSize_dvd_small : ∃ m,
    PagedRun .wasm32 (compactLayout .wasm32 [] 0x20000 [] 0x20000 []) m ∧
      m.programBreak = 0x30000 ∧ pageSize ∣ (m.mmapAnonymous .wasm32 0 1 3 0x22).1 := by
  have h : PagedRun .wasm32 (compactLayout .wasm32 [] 0x20000 [] 0x20000 []) _ :=
    PagedRun.start.setBrk (.inr (by decide : pageSize ∣ 0x30000))
  exact ⟨_, h, by decide, (pageSize_dvd_of_pagedRun [] (by decide) (by decide) [] _ [] h).1
    0 1 3 0x22 (by decide) (by decide)⟩

/-- A break of one byte behind the automatic base: the next mapping starts at that byte. -/
theorem mmapAnonymous_unaligned : ∃ m, Reachable .wasm32
    (compactLayout .wasm32 [] 0x20000 [] 0x20000 []) m ∧
      (m.mmapAnonymous .wasm32 0 1 3 0x22).1 = 0x20001 :=
  ⟨_, Reachable.start.setBrk 0x20001, by decide⟩

end MemoryManager

end Kandelo.Kernel.Memory
