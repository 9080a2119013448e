import Mathlib.Data.List.Pairwise
import Kandelo.Kernel.Memory.Runs

/-!
# The address space read address by address

What a guest sees of the mapping table is which addresses are mapped, and
with which protection and flags. `munmap` is exact in these terms. A fixed mapping is not: it
drops every mapping it overlaps as a whole (`memory.rs:133-137`). `mremap` keeps its promise
for a range that is mapped with one protection, unless a move replaces protection and flags.
-/

namespace Kandelo.Kernel.Memory

open Lib List MappedRegion PointerWidth Span

variable {w : PointerWidth} {m : MemoryManager} {r : MappedRegion} {addr len n prot flags a : Nat}

/-- The mapping has the address, with this protection and these flags. -/
def MappedRegion.Holds (r : MappedRegion) (a prot flags : Nat) : Prop :=
  r.addr ≤ a ∧ a < r.addr + r.len ∧ r.prot = prot ∧ r.flags = flags

instance : Decidable (r.Holds a prot flags) := inferInstanceAs (Decidable (_ ∧ _ ∧ _ ∧ _))

namespace MemoryManager

/-- The address is mapped with the given attributes. -/
def Maps (m : MemoryManager) (a prot flags : Nat) : Prop := ∃ r ∈ m.mappings, r.Holds a prot flags

instance : Decidable (m.Maps a prot flags) :=
  inferInstanceAs (Decidable (∃ r ∈ m.mappings, r.Holds a prot flags))

/-! ### Unmapping -/

lemma holds_remnants {unmapEnd : Nat} (hstop : r.span.stop ≤ w.usizeMax) :
    (∃ q ∈ remnants w addr unmapEnd r, q.Holds a prot flags) ↔
      r.Holds a prot flags ∧ ¬ (addr ≤ a ∧ a < unmapEnd) := by
  have hsat := saturatingAdd_eq hstop
  simp only [span_addr, span_len] at hsat
  simp only [remnants, MappedRegion.Holds]
  split
  · next hc =>
    simp only [Bool.or_eq_true, decide_eq_true_eq] at hc
    simp only [mem_singleton, exists_eq_left]
    omega
  · next hc =>
    simp only [Bool.or_eq_true, decide_eq_true_eq] at hc
    split <;> split <;> simp <;> omega

lemma maps_munmap (hv : ∀ r ∈ m.mappings, r.span.stop ≤ w.usizeMax) (hlen : len ≠ 0)
    (halign : alignLen w len = some n) :
    (m.munmap w addr len).2.Maps a prot flags ↔
      m.Maps a prot flags ∧ ¬ (addr ≤ a ∧ a < addr + n) := by
  -- The saturated end excludes the largest address only, which no mapping holds.
  have hend : ∀ r ∈ m.mappings, r.Holds a prot flags →
      (a < w.saturatingAdd addr n ↔ a < addr + n) := by
    intro r hr hold
    have := hv r hr
    have := hold.2.1
    simp only [Span.stop, MappedRegion.span, PointerWidth.saturatingAdd] at *
    omega
  simp only [munmap, hlen, if_false, halign, Maps, mem_flatMap]
  constructor
  · rintro ⟨q, ⟨r, hr, hq⟩, hold⟩
    obtain ⟨hold, hout⟩ := (holds_remnants (hv r hr)).mp ⟨q, hq, hold⟩
    rw [hend r hr hold] at hout
    exact ⟨⟨r, hr, hold⟩, hout⟩
  · rintro ⟨⟨r, hr, hold⟩, hout⟩
    rw [← hend r hr hold] at hout
    obtain ⟨q, hq, hold⟩ := (holds_remnants (hv r hr)).mpr ⟨hold, hout⟩
    exact ⟨q, ⟨r, hr, hq⟩, hold⟩

/-- `munmap` is exact over mappings that are nonempty and end inside the address space. -/
theorem munmap_exact (hp : Span.Packed span m.mappings)
    (hv : ∀ r ∈ m.mappings, 0 < r.len ∧ r.addr + r.len ≤ w.usizeMax) (hlen : len ≠ 0)
    (halign : alignLen w len = some n) (addr : Nat) :
    (∀ a prot flags, (m.munmap w addr len).2.Maps a prot flags ↔
        m.Maps a prot flags ∧ ¬ (addr ≤ a ∧ a < addr + n)) ∧
      Span.Packed span (m.munmap w addr len).2.mappings ∧
      ((m.munmap w addr len).1 = true ↔ ∃ a prot flags, m.Maps a prot flags ∧
        ¬ (m.munmap w addr len).2.Maps a prot flags) := by
  have hmaps : ∀ a prot flags, (m.munmap w addr len).2.Maps a prot flags ↔
      m.Maps a prot flags ∧ ¬ (addr ≤ a ∧ a < addr + n) :=
    fun a prot flags => maps_munmap (fun r hr => (hv r hr).2) hlen halign
  have hpacked : Span.Packed span (m.munmap w addr len).2.mappings := by
    rcases munmap_spec hp hv addr len with heq | ⟨_, rs, -, heq, hrs, -⟩ <;> rw [heq]
    exacts [hp, hrs]
  refine ⟨hmaps, hpacked, ?_⟩
  have hpos := alignLen_pos hlen halign
  have hfound : (m.munmap w addr len).1 = true ↔ ∃ r ∈ m.mappings,
      addr < r.addr + r.len ∧ r.addr < addr + n := by
    simp only [munmap, hlen, if_false, halign, any_eq_true]
    refine exists_congr fun r => and_congr_right fun hr => ?_
    have := hv r hr
    simp [saturatingAdd]
    omega
  simp only [hmaps, not_and_not_right, hfound]
  constructor
  · rintro ⟨r, hr, h1, h2⟩
    have := (hv r hr).1
    exact ⟨max r.addr addr, r.prot, r.flags, ⟨r, hr, by omega, by omega, rfl, rfl⟩,
      fun _ => by omega⟩
  · rintro ⟨a, prot, flags, hmaps, hin⟩
    obtain ⟨h3, h4⟩ := hin hmaps
    obtain ⟨r, hr, h1, h2, -⟩ := hmaps
    exact ⟨r, hr, by omega, by omega⟩

/-- The middle page of three goes. -/
theorem munmap_exact_small : ∃ m : MemoryManager, m.Maps 0x4010000 3 0x22 ∧
    ¬ (m.munmap .wasm32 0x4010000 1).2.Maps 0x4010000 3 0x22 := by
  let m : MemoryManager := { new with mappings := [⟨0x4000000, 0x30000, 3, 0x22⟩] }
  have hp : Span.Packed span m.mappings := pairwise_singleton _ _
  have hexact := munmap_exact (w := .wasm32) hp (by decide) Nat.one_ne_zero rfl 0x4010000
  exact ⟨m, by decide, fun h => ((hexact.1 _ _ _).mp h).2 (by decide)⟩

/-- An empty mapping makes `munmap` report success although nothing was mapped; and a mapping that
reaches the top of the address space loses its last address, which is outside the range. -/
theorem munmap_inexact :
    (let m : MemoryManager := { new with mappings := [⟨0x4010000, 0, 3, 0x22⟩] }
     (m.munmap .wasm32 0x4000000 0x20000).1 = true ∧ ∀ a prot flags, ¬ m.Maps a prot flags) ∧
    let m : MemoryManager := { new with mappings := [⟨0xFFFF0000, 0x10000, 3, 0x22⟩] }
    m.Maps 0xFFFFFFFF 3 0x22 ∧
      ¬ (m.munmap .wasm32 0xFFFE8000 0x10000).2.Maps 0xFFFFFFFF 3 0x22 := by
  refine ⟨⟨by decide, ?_⟩, by decide, by decide⟩
  rintro a prot flags ⟨r, hr, h1, h2, -⟩
  obtain rfl := mem_singleton.mp hr
  exact absurd h1 (Nat.not_le_of_lt h2)

/-! ### Fixed mappings -/

lemma maps_insertMapping :
    (m.insertMapping r).Maps a prot flags ↔ r.Holds a prot flags ∨ m.Maps a prot flags := by
  simp only [Maps, insertMapping, mem_inserted, or_and_right, exists_or, exists_eq_left]

/-- A packed table maps an address once. -/
lemma eq_of_holds (hp : Span.Packed MappedRegion.span m.mappings) {q : MappedRegion}
    (hq : q ∈ m.mappings) (hr : r ∈ m.mappings) {prot' flags' : Nat}
    (hqa : q.Holds a prot flags) (hra : r.Holds a prot' flags') : q = r := by
  by_contra hne
  have : Std.Symm fun a b : MappedRegion => a.span.Apart b.span := ⟨fun _ _ => Span.Apart.symm⟩
  have := hp.apart.forall hq hr hne
  simp only [Span.Apart, Span.stop, MappedRegion.span, MappedRegion.Holds] at *
  omega

/-- Inside the range everything is mapped with the new attributes, outside nothing changes. -/
def Replaces (m m' : MemoryManager) (addr len prot flags : Nat) : Prop :=
  ∀ a p f, m'.Maps a p f ↔
    if addr ≤ a ∧ a < addr + len then prot = p ∧ flags = f else m.Maps a p f

/-- A fixed mapping drops every mapping it is not apart from. -/
lemma mmapAnonymous_fixed (hv : ∀ r ∈ m.mappings, r.span.stop ≤ w.usizeMax) {hint : Nat}
    (hhint : hint ≠ 0) (hfixed : isFixed flags = true) (hlen : len ≠ 0)
    (halign : alignLen w len = some n) (hend : hint + n ≤ w.usizeMax)
    (hok : (m.mmapAnonymous w hint len prot flags).1 ≠ mapFailed w) :
    ∃ kept, (m.mmapAnonymous w hint len prot flags).2 =
      insertMapping { m with mappings := kept } ⟨hint, n, prot, flags⟩ ∧
        ∀ r, r ∈ kept ↔ r ∈ m.mappings ∧ (⟨hint, n⟩ : Span).Apart r.span := by
  cases hplaced : m.placeFixed w hint n with
  | none => simp [mmapAnonymous, halign, hhint, hfixed, hplaced] at hok
  | some placed =>
    have heq : m.mmapAnonymous w hint len prot flags =
        (placed.1, placed.2.insertMapping ⟨placed.1, n, prot, flags⟩) := by
      simp [mmapAnonymous, hlen, halign, hhint, hfixed, hplaced]
    simp only [placeFixed, saturatingAdd_eq hend] at hplaced
    split at hplaced
    · cases hplaced
    cases hplaced
    refine ⟨_, congrArg Prod.snd heq, fun r => ?_⟩
    rw [mem_filter]
    refine and_congr_right fun hr => ?_
    have hsat := saturatingAdd_eq (hv r hr)
    simp only [span_addr, span_len] at hsat
    simp only [hsat, Bool.or_eq_true, decide_eq_true_eq]
    exact or_comm

/-- An automatic mapping takes a free range, and leaves the table alone if it fails. -/
lemma Tidy.mmapAnonymous_cases (h : m.Tidy) (hlen : len ≠ 0) (halign : alignLen w len = some n)
    (prot flags : Nat) : m.mmapAnonymous w 0 len prot flags = (mapFailed w, m) ∨
      ∃ a, a ≠ mapFailed w ∧ m.Free ⟨a, n⟩ ∧
        m.mmapAnonymous w 0 len prot flags = (a, m.insertMapping ⟨a, n, prot, flags⟩) := by
  have hpos := alignLen_pos hlen halign
  cases hplaced : m.placeAnywhere w 0 n with
  | none => exact .inl (by simp [MemoryManager.mmapAnonymous, halign, hplaced])
  | some placed =>
    obtain ⟨a, m'⟩ := placed
    obtain ⟨rfl, hf⟩ := h.placeAnywhere hpos hplaced
    refine .inr ⟨a, ?_, hf, by simp [MemoryManager.mmapAnonymous, hlen, halign, hplaced]⟩
    have := hf.upper
    have := h.ceiling
    have := w.le_usizeMax
    simp only [stop, mapFailed] at *
    omega

/-- With a hint of zero a fixed mapping goes to a free range above the break. -/
lemma Tidy.not_replaces_zero (h : m.Tidy) (hlen : len ≠ 0) (halign : alignLen w len = some n)
    (hok : (m.mmapAnonymous w 0 len prot flags).1 ≠ mapFailed w) :
    ¬ m.Replaces (m.mmapAnonymous w 0 len prot flags).2 0 n prot flags := by
  rcases h.mmapAnonymous_cases hlen halign prot flags with heq | ⟨a, -, hf, heq⟩
  · exact absurd (congrArg Prod.fst heq) hok
  intro hrep
  -- the last address of the new mapping is not in the range, and was free
  have ha : 0 < a := Nat.lt_of_lt_of_le h.pos (Nat.le_trans h.heap hf.lower)
  have hn : 0 < n := hf.pos
  have hmaps := (hrep (a + n - 1) prot flags).mp <| by
    rw [heq, maps_insertMapping]
    exact .inl ⟨show a ≤ a + n - 1 by omega, show a + n - 1 < a + n by omega, rfl, rfl⟩
  rw [if_neg (by omega)] at hmaps
  obtain ⟨r, hr, h1, h2, -⟩ := hmaps
  have hapart := hf.apart _ (mem_spans.mpr (.inl ⟨r, hr, rfl⟩))
  simp only [Span.Apart, Span.stop, MappedRegion.span] at hapart
  omega

/-- A fixed mapping replaces its own range only if it cuts no mapping and the range does not start
at zero, where the call chooses a place itself. -/
theorem mmapFixed_replaces_iff (hp : Span.Packed MappedRegion.span m.mappings)
    (hv : ∀ r ∈ m.mappings, 0 < r.len ∧ r.span.stop ≤ w.usizeMax) {hint : Nat}
    (hzero : hint = 0 → m.Tidy) (hfixed : isFixed flags = true) (hlen : len ≠ 0)
    (halign : alignLen w len = some n) (hend : hint + n ≤ w.usizeMax)
    (hok : (m.mmapAnonymous w hint len prot flags).1 ≠ mapFailed w) :
    m.Replaces (m.mmapAnonymous w hint len prot flags).2 hint n prot flags ↔
      hint ≠ 0 ∧ ∀ r ∈ m.mappings, (⟨hint, n⟩ : Span).Apart r.span ∨
        hint ≤ r.addr ∧ r.span.stop ≤ hint + n := by
  by_cases hhint : hint = 0
  · subst hhint
    exact iff_of_false ((hzero rfl).not_replaces_zero hlen halign hok) fun h => h.1 rfl
  rw [and_iff_right hhint]
  obtain ⟨kept, heq, hkept⟩ := mmapAnonymous_fixed (fun r hr => (hv r hr).2) hhint hfixed hlen
    halign hend hok
  simp only [heq, Replaces, maps_insertMapping]
  constructor
  · intro hrep r hr
    by_contra hcut
    rw [not_or] at hcut
    -- An address of the mapping that the new range does not cover is lost.
    obtain ⟨a, ha, hout⟩ : ∃ a, r.Holds a r.prot r.flags ∧ ¬ (hint ≤ a ∧ a < hint + n) := by
      have := (hv r hr).1
      simp only [MappedRegion.Holds, and_true, Span.stop, MappedRegion.span] at hcut ⊢
      rcases Nat.lt_or_ge r.addr hint with hlt | hge
      · exact ⟨r.addr, by omega, by omega⟩
      · exact ⟨r.addr + r.len - 1, by omega, by omega⟩
    have hmaps := hrep a r.prot r.flags
    rw [if_neg hout] at hmaps
    rcases hmaps.mpr ⟨r, hr, ha⟩ with hnew | ⟨q, hq, hqa⟩
    · exact hout ⟨hnew.1, hnew.2.1⟩
    · obtain ⟨hqm, hapart⟩ := (hkept q).mp hq
      exact hcut.1 (eq_of_holds hp hqm hr hqa ha ▸ hapart)
  · intro hcut a p f
    split
    · next hin =>
      refine ⟨?_, fun hpf => .inl ⟨hin.1, hin.2, hpf⟩⟩
      rintro (hnew | ⟨q, hq, hqa⟩)
      · exact hnew.2.2
      have hapart := ((hkept q).mp hq).2
      simp only [Span.Apart, Span.stop, MappedRegion.span, MappedRegion.Holds] at hapart hqa
      omega
    · next hout =>
      constructor
      · rintro (hnew | ⟨q, hq, hqa⟩)
        · exact absurd ⟨hnew.1, hnew.2.1⟩ hout
        · exact ⟨q, ((hkept q).mp hq).1, hqa⟩
      · rintro ⟨q, hq, hqa⟩
        refine .inr ⟨q, (hkept q).mpr ⟨hq, (hcut q hq).resolve_right fun hin => hout ?_⟩, hqa⟩
        exact ⟨Nat.le_trans hin.1 hqa.1, Nat.lt_of_lt_of_le hqa.2.1 hin.2⟩

/-- A fixed mapping over exactly one old mapping changes its attributes only. -/
theorem mmapFixed_replaces_small : ∃ m : MemoryManager, m.Maps 0x4000000 3 0x22 ∧
    m.Replaces (m.mmapAnonymous .wasm32 0x4000000 0x10000 1 0x32).2 0x4000000 0x10000 1 0x32 := by
  let m : MemoryManager := { new with mappings := [⟨0x4000000, 0x10000, 3, 0x22⟩] }
  have hp : Span.Packed span m.mappings := pairwise_singleton _ _
  refine ⟨m, by decide, (mmapFixed_replaces_iff hp (by decide) (by simp) rfl (by decide) rfl
    (by decide) (by decide)).mpr ?_⟩
  decide

/-- A fixed mapping over the middle page of three unmaps the other two. -/
theorem mmapFixed_drops_neighbours : ∃ m,
    Reachable .wasm32 (compactLayout .wasm32 [] 0x20000 [] 0x20000 []) m ∧
      (m.mmapAnonymous .wasm32 0x30000 0x10000 3 0x32).1 = 0x30000 ∧ m.Maps 0x20000 3 0x22 ∧
      ¬ (m.mmapAnonymous .wasm32 0x30000 0x10000 3 0x32).2.Maps 0x20000 3 0x22 :=
  ⟨_, Reachable.start.mmapAnonymous 0 0x30000 3 0x22, by decide, by decide, by decide⟩

/-! ### Remapping -/

lemma alignLen_self (hn : pageSize ∣ n) (hle : n ≤ w.usizeMax) : alignLen w n = some n := by
  obtain ⟨k, rfl⟩ := hn
  have hsum : pageSize * k + 0xFFFF ≤ w.usizeMax := by
    cases w <;> simp only [usizeMax, pageSize] at * <;> omega
  rw [alignLen, checkedAdd, if_pos hsum, Option.map_some, pageFloor]
  simp only [pageSize, Option.some.injEq]
  omega

lemma Tidy.maps_munmap (h : m.Tidy) (hpos : 0 < n) (hn : pageSize ∣ n) (hle : n ≤ w.usizeMax) :
    (m.munmap w addr n).2.Maps a prot flags ↔ m.Maps a prot flags ∧ ¬ (addr ≤ a ∧ a < addr + n) :=
  MemoryManager.maps_munmap (fun _ hr => (h.valid hr).2) (Nat.ne_of_gt hpos) (alignLen_self hn hle)

/-- The whole range is mapped with the given attributes. -/
def MapsRange (m : MemoryManager) (a n prot flags : Nat) : Prop :=
  ∀ x, a ≤ x → x < a + n → m.Maps x prot flags

lemma Tidy.mapsRange_le (h : m.Tidy) (hn : 0 < n) (hmapped : m.MapsRange a n prot flags) :
    a + n ≤ w.usizeMax := by
  obtain ⟨r, hr, -, h2, -⟩ := hmapped (a + n - 1) (by omega) (by omega)
  have := (h.valid (w := w) hr).2
  simp only [Span.stop, MappedRegion.span] at this
  omega

/-- The new range is mapped with the given attributes, and nothing outside the old and the
new range changed. -/
def Remaps (m m' : MemoryManager) (oldAddr o a n prot flags : Nat) : Prop :=
  m'.MapsRange a n prot flags ∧
    ∀ x p f, ¬ (oldAddr ≤ x ∧ x < oldAddr + o) → ¬ (a ≤ x ∧ x < a + n) →
      (m'.Maps x p f ↔ m.Maps x p f)

section

variable {oldAddr o : Nat} (h : m.Tidy) (ho : 0 < o)
  (hmapped : m.MapsRange oldAddr o prot flags)

include h ho hmapped

lemma Tidy.remaps_shrink (hpage : pageSize ∣ o - n) (hlt : n < o) :
    m.Remaps (m.munmap w (w.wrappingAdd oldAddr n) (o - n)).2 oldAddr o oldAddr n prot flags := by
  have hend : oldAddr + o ≤ w.usizeMax := h.mapsRange_le ho hmapped
  rw [PointerWidth.wrappingAdd_eq (by omega)]
  constructor
  · intro x h1 h2
    rw [h.maps_munmap (by omega) hpage (by omega)]
    exact ⟨hmapped x h1 (by omega), by omega⟩
  · intro x p f h1 h2
    rw [h.maps_munmap (by omega) hpage (by omega)]
    exact and_iff_left (by omega)

lemma Tidy.remaps_grow (hlt : o < n) {m' : MemoryManager}
    (hg : m.extendMapping oldAddr o n = (true, m')) :
    m.Remaps m' oldAddr o oldAddr n prot flags := by
  simp only [extendMapping] at hg
  split at hg
  next hms =>
    cases hg
    obtain ⟨before, r, after, hm, hmatch, rfl⟩ := Slice.modifyFirst_eq_some hms
    simp only [Bool.and_eq_true, decide_eq_true_eq] at hmatch
    obtain ⟨rfl, rfl⟩ := hmatch
    -- The mapping grown is the one that maps the old range.
    have hr : r ∈ m.mappings := by simp [hm]
    obtain ⟨q, hq, hold⟩ := hmapped r.addr (Nat.le_refl _) (by omega)
    obtain rfl := eq_of_holds h.mappings_packed hq hr hold ⟨by omega, by omega, rfl, rfl⟩
    obtain ⟨-, -, rfl, rfl⟩ := hold
    refine ⟨fun x h1 h2 => ⟨{ q with len := n }, by simp, h1, h2, rfl, rfl⟩, fun x p f h1 h2 => ?_⟩
    have hold : ¬ q.Holds x p f := fun hx => h1 ⟨hx.1, hx.2.1⟩
    have hnew : ¬ { q with len := n }.Holds x p f := fun hx => h2 ⟨hx.1, hx.2.1⟩
    simp [Maps, hm, or_and_right, exists_or, hold, hnew]
  · cases hg

lemma Tidy.remaps_move (hf : m.Free ⟨a, n⟩) (hpage : pageSize ∣ o) (hle : o ≤ w.usizeMax)
    (p f : Nat) :
    m.Remaps ((m.insertMapping ⟨a, n, p, f⟩).munmap w oldAddr o).2 oldAddr o a n p f := by
  have hm : (m.insertMapping ⟨a, n, p, f⟩).Tidy := h.insertMapping hf
  -- The new range is free and the old one is mapped.
  have hapart : ∀ x, a ≤ x → x < a + n → ¬ (oldAddr ≤ x ∧ x < oldAddr + o) := by
    intro x h1 h2 hx
    obtain ⟨r, hr, h3, h4, -⟩ := hmapped x hx.1 hx.2
    have := hf.apart _ (mem_spans.mpr (.inl ⟨r, hr, rfl⟩))
    simp only [Span.Apart, Span.stop, MappedRegion.span] at this
    omega
  refine ⟨fun x h1 h2 => ?_, fun x p' f' h1 h2 => ?_⟩
  · rw [hm.maps_munmap ho hpage hle, maps_insertMapping]
    exact ⟨.inl ⟨h1, h2, rfl, rfl⟩, hapart x h1 h2⟩
  · rw [hm.maps_munmap ho hpage hle, maps_insertMapping]
    exact ⟨fun hx => hx.1.resolve_left fun hx => h2 ⟨hx.1, hx.2.1⟩, fun hx => ⟨.inr hx, h1⟩⟩

end

/-- The range has to grow, and cannot where it is. -/
def MovesRange (w : PointerWidth) (m : MemoryManager) (oldAddr o n : Nat) : Prop :=
  o < n ∧ m.canGrowAt w (w.wrappingAdd oldAddr o) (n - o) = false

instance {oldAddr o : Nat} : Decidable (m.MovesRange w oldAddr o n) :=
  inferInstanceAs (Decidable (_ ∧ _))

/-- An error leaves the manager alone; a success remaps a range that is mapped with one protection,
and keeps it where the range is not moved. -/
def Remapped (w : PointerWidth) (m : MemoryManager) (oldAddr o n : Nat)
    (res : Except Errno Nat × MemoryManager) : Prop :=
  (∀ e, res.1 = .error e → res.2 = m) ∧ ∀ a prot flags, res.1 = .ok a → 0 < o →
    m.MapsRange oldAddr o prot flags → m.Remaps res.2 oldAddr o a n
      (if m.MovesRange w oldAddr o n then 3 else prot)
      (if m.MovesRange w oldAddr o n then 0x22 else flags)

lemma pageFloor_spec (x : Nat) : pageSize ∣ pageFloor x ∧ pageFloor x ≤ x :=
  ⟨Nat.dvd_mul_left _ _, Nat.div_mul_le_self _ _⟩

lemma Tidy.remapped_sysMremap (h : m.Tidy) (oldAddr oldLen newLen mflags : Nat) :
    m.Remapped w oldAddr (pageFloor (w.wrappingAdd oldLen 0xFFFF))
      (pageFloor (w.wrappingAdd newLen 0xFFFF)) (m.sysMremap w oldAddr oldLen newLen mflags) := by
  obtain ⟨hdo, hlo⟩ := pageFloor_spec (w.wrappingAdd oldLen 0xFFFF)
  obtain ⟨hdn, hln⟩ := pageFloor_spec (w.wrappingAdd newLen 0xFFFF)
  have hwrapped (x y : Nat) : w.wrappingAdd x y ≤ w.usizeMax :=
    Nat.le_of_lt_succ (Nat.mod_lt _ (Nat.succ_pos _))
  have hwo := hwrapped oldLen 0xFFFF
  have hwn := hwrapped newLen 0xFFFF
  simp only [MemoryManager.sysMremap]
  generalize pageFloor (w.wrappingAdd oldLen 0xFFFF) = o at *
  generalize pageFloor (w.wrappingAdd newLen 0xFFFF) = n at *
  have herr (e : Errno) : m.Remapped w oldAddr o n (.error e, m) :=
    ⟨fun _ _ => rfl, by rintro _ _ _ ⟨⟩⟩
  have hok {m' : MemoryManager} (hstay : ¬ m.MovesRange w oldAddr o n)
      (hm : ∀ prot flags, 0 < o → m.MapsRange oldAddr o prot flags →
        m.Remaps m' oldAddr o oldAddr n prot flags) :
      m.Remapped w oldAddr o n (.ok oldAddr, m') := by
    refine ⟨by rintro _ ⟨⟩, ?_⟩
    rintro _ prot flags ⟨⟩ ho hmapped
    rw [if_neg hstay, if_neg hstay]
    exact hm prot flags ho hmapped
  split
  · exact herr _
  split
  · exact herr _
  split
  · next hle =>
    have hstay : ¬ m.MovesRange w oldAddr o n := fun hmoves => hmoves.1.not_ge hle
    split
    · next hlt => exact hok hstay fun _ _ ho hmapped =>
        h.remaps_shrink ho hmapped (Nat.dvd_sub hdo hdn) hlt
    next hge =>
    obtain rfl : n = o := by omega
    exact hok hstay fun _ _ _ hmapped => ⟨hmapped, fun _ _ _ _ _ => Iff.rfl⟩
  next hgt =>
  unfold MemoryManager.growInPlace
  split
  · next hg =>
    split at hg
    · next hgrow =>
      refine hok (fun hmoves => ?_) fun _ _ ho hmapped =>
        h.remaps_grow ho hmapped (by omega) (Option.some.inj hg)
      rw [hmoves.2] at hgrow
      cases hgrow
    · cases hg
  · next hg =>
    split at hg
    · simp only [extendMapping, Option.some.injEq] at hg
      split at hg <;> cases hg
      exact herr _
    · cases hg
  next hg =>
  have hmoves : m.MovesRange w oldAddr o n := by
    split at hg
    · cases hg
    · next hgrow => exact ⟨by omega, Bool.eq_false_iff.mpr hgrow⟩
  split
  · have hn : n ≠ 0 := Nat.ne_of_gt (Nat.zero_lt_of_lt hmoves.1)
    rcases h.mmapAnonymous_cases hn (alignLen_self hdn (hln.trans hwn)) 3 0x22 with
      heq | ⟨a, hne, hf, heq⟩
    · simp only [heq, if_true]
      exact herr _
    simp only [heq, if_neg hne]
    refine ⟨by rintro _ ⟨⟩, ?_⟩
    rintro _ prot flags ⟨⟩ ho hmapped
    rw [if_pos hmoves, if_pos hmoves]
    exact h.remaps_move ho hmapped hf hdo (hlo.trans hwo) 3 0x22
  · exact herr _

lemma add_le_of_pageFloor_le (h : pageFloor (len + 0xFFFF) ≤ w.usizeMax) :
    len + 0xFFFF ≤ w.usizeMax := by
  cases w <;> simp only [usizeMax, pageFloor, pageSize] at * <;> omega

lemma pageFloor_pos (h : len ≠ 0) : 0 < pageFloor (len + 0xFFFF) := by
  simp only [pageFloor, pageSize]
  omega

end MemoryManager

end Kandelo.Kernel.Memory
