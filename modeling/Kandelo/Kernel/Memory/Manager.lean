import Kandelo.Kernel.Errno
import Kandelo.Kernel.Usize
import Kandelo.Lib.Span

/-!
# The process memory manager

Bookkeeping of `mmap`, `munmap`, `brk` and host-reserved control
ranges in one process address space: `memory.rs:1-583`, with the
in-place growth path of `sys_mremap` (`syscalls.rs:7597-7666`) that
guards `extend_mapping`. Addresses are `usize` values of either pointer width.
-/

namespace Kandelo.Kernel.Memory

open Lib

/-- One mapping; `memory.rs:6-11`. -/
structure MappedRegion where
  addr : Nat
  len : Nat
  prot : Nat
  flags : Nat
  deriving DecidableEq

/-- One host-owned control range; `memory.rs:14-17`. -/
structure ReservedRegion where
  addr : Nat
  len : Nat

/-- The addresses of a mapping. -/
def MappedRegion.span (r : MappedRegion) : Span := ⟨r.addr, r.len⟩

/-- The addresses of a reservation. -/
def ReservedRegion.span (r : ReservedRegion) : Span := ⟨r.addr, r.len⟩

/-- Address-space state of one process; `memory.rs:29-53`. -/
structure MemoryManager where
  mappings : List MappedRegion
  reservedRegions : List ReservedRegion
  programBreak : Nat
  maxAddr : Nat
  mmapBase : Nat
  reservedUntil : Nat
  brkLimit : Nat
  dataLimit : Nat
  initialBrk : Nat

/-- A page of WebAssembly. -/
def pageSize : Nat := 0x10000

/-- Round down to a page boundary, `value & !0xFFFF`. -/
def pageFloor (value : Nat) : Nat := value / pageSize * pageSize

/-- The `MAP_FIXED` flag; `lib.rs:669`. -/
def mapFixed : Nat := 0x10

/-- `MAP_FIXED` is given. -/
def isFixed (flags : Nat) : Bool := flags &&& mapFixed != 0

variable (w : PointerWidth)

/-- The failure value of mapping calls, `usize::MAX`; `lib.rs:674`. -/
def mapFailed : Nat := w.usizeMax

/-- Round a length up to whole pages, unless the sum overflows. -/
def alignLen (len : Nat) : Option Nat := (w.checkedAdd len 0xFFFF).map pageFloor

/-- Saturating round up to a page boundary; `memory.rs:568-570`. -/
def alignPageUp (addr : Nat) : Nat := pageFloor (w.saturatingAdd addr 0xFFFF)

/-- The half-open ranges `[addr, stop)` and `[lo, hi)` share an address. -/
def spansMeet (addr stop lo hi : Nat) : Bool := addr < hi && stop > lo

namespace MemoryManager

/-- Legacy defaults; `memory.rs:60-85`. -/
def new : MemoryManager where
  mappings := []
  reservedRegions := []
  programBreak := 0x01000000
  maxAddr := 0x40000000
  mmapBase := 0x04000000
  reservedUntil := 0
  brkLimit := 0x40000000
  dataLimit := 2 ^ 64 - 1
  initialBrk := 0x01000000

/-! ### Overlap tests -/

/-- Test a range given by address and length; an overflowing end counts as overlapping. -/
def overlapTest (addr len : Nat) (test : Nat → Bool) : Bool :=
  match w.checkedAdd addr len with
  | some stop => test stop
  | none => true

variable (m : MemoryManager)

/-- Overlap with `[brk_limit, mmap_base)`; `memory.rs:243-252`. -/
def overlapsHostControl (addr len : Nat) : Bool :=
  if m.brkLimit ≥ m.mmapBase then false
  else overlapTest w addr len fun stop => addr < m.mmapBase && stop > m.brkLimit

/-- Overlap with the protected prefix; `memory.rs:254-263`. -/
def overlapsReservedPrefix (addr len : Nat) : Bool :=
  if m.reservedUntil = 0 then false
  else overlapTest w addr len fun stop => addr < m.reservedUntil && stop > addr

/-- Overlap with a mapping; `memory.rs:265-277`. -/
def overlapsMappings (addr len : Nat) : Bool :=
  overlapTest w addr len fun stop =>
    m.mappings.any fun r => spansMeet addr stop r.addr (w.saturatingAdd r.addr r.len)

/-- Overlap with a host-owned range; `memory.rs:279-291`. -/
def overlapsReservedRegions (addr len : Nat) : Bool :=
  overlapTest w addr len fun stop =>
    m.reservedRegions.any fun r => spansMeet addr stop r.addr (w.saturatingAdd r.addr r.len)

/-- Overlap with the grown heap; `memory.rs:297-306`. -/
def overlapsBrkHeap (addr len : Nat) : Bool :=
  if m.programBreak ≤ m.initialBrk then false
  else overlapTest w addr len fun stop => spansMeet addr stop m.initialBrk m.programBreak

/-- Whether a range is free and inside the address space; `memory.rs:438-466`. -/
def canGrowAt (addr len : Nat) : Bool :=
  match w.checkedAdd addr len with
  | none => false
  | some stop =>
    !(stop > m.maxAddr) && !m.overlapsHostControl w addr len &&
      !m.overlapsReservedPrefix w addr len && !m.overlapsReservedRegions w addr len &&
      !(m.reservedUntil ≠ 0 && m.overlapsBrkHeap w addr len) &&
      !m.mappings.any fun r => spansMeet addr stop r.addr (w.saturatingAdd r.addr r.len)

/-! ### First-fit search -/

/-- Advance the cursor over a region that ends behind it. -/
def advance (cursor addr len : Nat) : Nat :=
  if w.saturatingAdd addr len > cursor then w.saturatingAdd addr len else cursor

/-- Next region of the merge and what remains; at an equal start the mapping comes first.
`memory.rs:191-219`. -/
def nextRegion : List Span → List Span → Option (Span × List Span × List Span)
  | m :: ms, r :: rs => if m.addr ≤ r.addr then some (m, ms, r :: rs) else some (r, m :: ms, rs)
  | m :: ms, [] => some (m, ms, [])
  | [], r :: rs => some (r, [], rs)
  | [], [] => none

/-- First-fit scan of the merged regions; `memory.rs:190-243`. Each
iteration consumes one region, so their number bounds `fuel`. -/
def findGapLoop (maxAddr needed : Nat) : Nat → Nat → List Span → List Span → Option Nat
  | fuel, cursor, ms, rs =>
    match nextRegion ms rs, fuel with
    | none, _ => if w.saturatingAdd cursor needed ≤ maxAddr then some cursor else none
    | some _, 0 => none
    | some (region, ms, rs), fuel + 1 =>
      if region.addr ≥ cursor && region.addr - cursor ≥ needed then some cursor
      else findGapLoop maxAddr needed fuel (advance w cursor region.addr region.len) ms rs

/-- First gap of `needed` bytes from the automatic base on; `memory.rs:178-241`. -/
def findGap (needed : Nat) : Option Nat :=
  findGapLoop w m.maxAddr needed (m.mappings.length + m.reservedRegions.length)
    (max m.mmapBase m.programBreak) (m.mappings.map MappedRegion.span)
    (m.reservedRegions.map ReservedRegion.span)

/-! ### Operations -/

/-- Insert a mapping at its place in address order; `memory.rs:167-177`. -/
def insertMapping (region : MappedRegion) : MemoryManager :=
  let pos := Slice.partitionPoint (fun r => decide (r.addr < region.addr)) m.mappings
  { m with mappings := m.mappings.take pos ++ region :: m.mappings.drop pos }

/-- Insert a host range at its place in address order; `memory.rs:481-488`. -/
def insertReserved (region : ReservedRegion) : MemoryManager :=
  let pos := Slice.partitionPoint (fun r => decide (r.addr < region.addr)) m.reservedRegions
  { m with reservedRegions := m.reservedRegions.take pos ++ region :: m.reservedRegions.drop pos }

/-- Map at exactly `hint`, dropping what overlaps; `memory.rs:122-142`. -/
def placeFixed (hint len : Nat) : Option (Nat × MemoryManager) :=
  let stop := w.saturatingAdd hint len
  if stop > m.maxAddr || m.overlapsReservedPrefix w hint len ||
      m.overlapsReservedRegions w hint len || m.overlapsHostControl w hint len ||
      (m.reservedUntil ≠ 0 && m.overlapsBrkHeap w hint len) then none
  else
    let kept := m.mappings.filter fun r => w.saturatingAdd r.addr r.len ≤ hint || r.addr ≥ stop
    some (hint, { m with mappings := kept })

/-- Map at the rounded hint if it is free, else first fit; `memory.rs:144-164`. -/
def placeAnywhere (hint len : Nat) : Option (Nat × MemoryManager) :=
  let roundedHint := pageFloor hint
  if roundedHint ≥ max m.mmapBase m.programBreak && m.canGrowAt w roundedHint len then
    some (roundedHint, m)
  else (m.findGap w len).map fun addr => (addr, m)

/-- Anonymous mapping; `memory.rs:106-175`. -/
def mmapAnonymous (hint len prot flags : Nat) : Nat × MemoryManager :=
  if len = 0 then (mapFailed w, m)
  else
    match alignLen w len with
    | none => (mapFailed w, m)
    | some alignedLen =>
      let placed :=
        if hint ≠ 0 && isFixed flags then m.placeFixed w hint alignedLen
        else m.placeAnywhere w hint alignedLen
      match placed with
      | none => (mapFailed w, m)
      | some (addr, m) => (addr, m.insertMapping ⟨addr, alignedLen, prot, flags⟩)

/-- What is left of one mapping after removing `[addr, unmapEnd)`;
`memory.rs:326-354`. -/
def remnants (addr unmapEnd : Nat) (r : MappedRegion) : List MappedRegion :=
  let stop := w.saturatingAdd r.addr r.len
  if stop ≤ addr || r.addr ≥ unmapEnd then [r]
  else
    (if r.addr < addr then [{ r with len := addr - r.addr }] else []) ++
      (if stop > unmapEnd then [{ r with addr := unmapEnd, len := stop - unmapEnd }] else [])

/-- Unmap whole pages from `addr`; `memory.rs:314-359`. -/
def munmap (addr len : Nat) : Bool × MemoryManager :=
  if len = 0 then (false, m)
  else
    match alignLen w len with
    | none => (false, m)
    | some alignedLen =>
      let unmapEnd := w.saturatingAdd addr alignedLen
      let found := m.mappings.any fun r =>
        !(w.saturatingAdd r.addr r.len ≤ addr || r.addr ≥ unmapEnd)
      (found, { m with mappings := m.mappings.flatMap (remnants w addr unmapEnd) })

/-- Move the program break; `memory.rs:387-422`. -/
def setBrk (newBrk : Nat) : Nat × MemoryManager :=
  if newBrk = 0 || newBrk < m.initialBrk || newBrk > m.maxAddr || newBrk > m.brkLimit ||
      (newBrk > m.programBreak && m.overlapsMappings w m.programBreak (newBrk - m.programBreak)) ||
      (newBrk > m.programBreak &&
        m.overlapsReservedRegions w m.programBreak (newBrk - m.programBreak)) ||
      (newBrk > m.initialBrk && newBrk - m.initialBrk > m.dataLimit) then
    (m.programBreak, m)
  else (newBrk, { m with programBreak := newBrk })

/-- Reserve a host range by first fit; `memory.rs:468-488`. -/
def reserveHostRegion (len : Nat) : Nat × MemoryManager :=
  if len = 0 then (mapFailed w, m)
  else
    match alignLen w len with
    | none => (mapFailed w, m)
    | some alignedLen =>
      match m.findGap w alignedLen with
      | none => (mapFailed w, m)
      | some addr => (addr, m.insertReserved ⟨addr, alignedLen⟩)

/-- Reserve a host range at an exact page; `memory.rs:490-521`. -/
def reserveHostRegionAt (addr len : Nat) : Nat × MemoryManager :=
  if len = 0 || addr % pageSize ≠ 0 then (mapFailed w, m)
  else
    match alignLen w len with
    | none => (mapFailed w, m)
    | some alignedLen =>
      match w.checkedAdd addr alignedLen with
      | none => (mapFailed w, m)
      | some stop =>
        if stop > m.maxAddr || m.overlapsReservedPrefix w addr alignedLen ||
            m.overlapsHostControl w addr alignedLen || m.overlapsMappings w addr alignedLen ||
            m.overlapsReservedRegions w addr alignedLen ||
            (m.reservedUntil ≠ 0 && m.overlapsBrkHeap w addr alignedLen) then (mapFailed w, m)
        else (addr, m.insertReserved ⟨addr, alignedLen⟩)

/-- Resize the first mapping with the given address and length;
`memory.rs:575-583`. -/
def extendMapping (addr oldLen newLen : Nat) : Bool × MemoryManager :=
  let extended := Slice.modifyFirst (fun r => r.addr = addr && r.len = oldLen)
    (fun r => { r with len := newLen }) m.mappings
  match extended with
  | some mappings => (true, { m with mappings })
  | none => (false, m)

/-! ### Layout configuration -/

/-- Install the heap start; `memory.rs:377-383`. -/
def setBrkBase (addr : Nat) : MemoryManager :=
  { m with
    initialBrk := addr
    programBreak := addr
    mmapBase := if m.mmapBase < addr then alignPageUp w addr else m.mmapBase }

/-- Lower the address-space ceiling; `memory.rs:527-531`. -/
def setMaxAddr (addr : Nat) : MemoryManager :=
  if addr < m.maxAddr then { m with maxAddr := addr } else m

/-- Opt into the compact layout; `memory.rs:538-541`. -/
def setMmapBase (addr : Nat) : MemoryManager :=
  { m with
    mmapBase := max (alignPageUp w addr) m.initialBrk
    reservedUntil := max m.reservedUntil m.initialBrk }

/-- Lower the break ceiling; `memory.rs:544-548`. -/
def setBrkLimit (addr : Nat) : MemoryManager :=
  if addr < m.brkLimit then { m with brkLimit := addr } else m

/-! ### Remapping -/

/-- Grow a mapping in place after checking that the added range is free, the only way
`extendMapping` is called; `syscalls.rs:7632-7642`. -/
def growInPlace (addr oldLen newLen : Nat) : Option (Bool × MemoryManager) :=
  if m.canGrowAt w (w.wrappingAdd addr oldLen) (newLen - oldLen) then
    some (m.extendMapping addr oldLen newLen)
  else none

/-- Remap a mapping; `syscalls.rs:7597-7666`. -/
def sysMremap (oldAddr oldLen newLen flags : Nat) : Except Errno Nat × MemoryManager :=
  if oldLen = 0 || newLen = 0 then (.error .EINVAL, m)
  else if flags / 2 ≠ 0 then (.error .EINVAL, m)
  else
    let alignedOld := pageFloor (w.wrappingAdd oldLen 0xFFFF)
    let alignedNew := pageFloor (w.wrappingAdd newLen 0xFFFF)
    if alignedNew ≤ alignedOld then
      if alignedNew < alignedOld then
        (.ok oldAddr, (m.munmap w (w.wrappingAdd oldAddr alignedNew) (alignedOld - alignedNew)).2)
      else (.ok oldAddr, m)
    else
      match m.growInPlace w oldAddr alignedOld alignedNew with
      | some (true, m) => (.ok oldAddr, m)
      | some (false, m) => (.error .EFAULT, m)
      | none =>
        -- `MREMAP_MAYMOVE`: a new private anonymous mapping replaces the old one.
        if flags % 2 = 1 then
          let (newAddr, m) := m.mmapAnonymous w 0 alignedNew 3 0x22
          if newAddr = mapFailed w then (.error .ENOMEM, m)
          else (.ok newAddr, (m.munmap w oldAddr alignedOld).2)
        else (.error .ENOMEM, m)

variable {w}

/-- What unmapping, growing and mapping keep, `mremap` keeps. -/
lemma sysMremap_rule {I : MemoryManager → Prop}
    (hunmap : ∀ m addr len, I m → I (munmap w m addr len).2)
    (hmap : ∀ m hint len prot flags, I m → I (mmapAnonymous w m hint len prot flags).2)
    (hgrow : ∀ m addr oldLen newLen found m', oldLen < newLen → I m →
      growInPlace w m addr oldLen newLen = some (found, m') → I m')
    {m : MemoryManager} (h : I m) (oldAddr oldLen newLen flags : Nat) :
    I (m.sysMremap w oldAddr oldLen newLen flags).2 := by
  simp only [sysMremap]
  split
  · exact h
  split
  · exact h
  split
  · split
    · exact hunmap _ _ _ h
    · exact h
  next hgt =>
  have hlt := Nat.lt_of_not_le hgt
  split
  · next hg => exact hgrow _ _ _ _ _ _ hlt h hg
  · next hg => exact hgrow _ _ _ _ _ _ hlt h hg
  split
  · split
    · exact hmap _ _ _ _ _ h
    · exact hunmap _ _ _ (hmap _ _ _ _ _ h)
  · exact h

end MemoryManager

end Kandelo.Kernel.Memory
