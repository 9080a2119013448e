import Kandelo.Kernel.Pipe.InFlight

/-!
# Pipe buffers

`PipeBuffer` of `crates/kernel/src/pipe.rs`: the counts of the ends that
descriptions hold, and what a named pipe keeps besides: its names, the descriptions that only name
it, and the opens that wait for the other side. Counts are numbers without a bound.
-/

namespace Kandelo.Kernel.Pipe

open File

/-! ### Buffers -/

/-- `FifoOpenSide`; `pipe.rs:20-24`. -/
inductive FifoOpenSide
  | Reader
  | Writer
  deriving DecidableEq

/-- `FifoOpenWaiter`; `pipe.rs:27-34`. -/
structure FifoOpenWaiter where
  side : FifoOpenSide
  path : List UInt8
  statusFlags : BitVec 32
  fdFlags : BitVec 32
  reservedFd : Nat
  ready : Bool

/-- `PipeBuffer`; `pipe.rs:458-505`. The ring is the bytes in it. -/
structure PipeBuffer where
  data : List UInt8
  readCount : Nat
  writeCount : Nat
  inFlightReadCount : Nat
  inFlightWriteCount : Nat
  orphanedRead : Bool
  isFifo : Bool
  fifoReadOnlyCount : Nat
  fifoWriterEverOpened : Bool
  fifoReadHangup : Bool
  fifoNames : Nat
  fifoPathRefs : Nat
  fifoOpenWaiters : List (Nat × FifoOpenWaiter)
  ancillaryFds : List (List InFlightFd)

namespace PipeBuffer

/-- `PipeBuffer::new`; `pipe.rs:509-533`. -/
def new : PipeBuffer := ⟨[], 1, 1, 0, 0, false, false, 0, false, false, 0, 0, [], []⟩

/-- `PipeBuffer::new_fifo`; `pipe.rs:537-545`. -/
def newFifo : PipeBuffer :=
  { new with readCount := 0, writeCount := 0, isFifo := true, fifoNames := 1 }

variable (p : PipeBuffer)

/-- `has_readers`; `pipe.rs:1056-1058`. -/
def hasReaders : Bool := 0 < p.readCount

/-- `is_write_end_open`; `pipe.rs:1061-1063`. -/
def isWriteEndOpen : Bool := 0 < p.writeCount

/-- `has_external_reader`; `pipe.rs:1027-1029`. -/
def hasExternalReader : Bool := p.inFlightReadCount < p.readCount

/-- `has_ready_fifo_reader_waiter`; `pipe.rs:1081-1085`. -/
def hasReadyFifoReaderWaiter : Bool :=
  p.fifoOpenWaiters.any fun w => w.2.side = .Reader && w.2.ready

/-- `is_fully_closed`; `pipe.rs:1093-1098`. -/
def isFullyClosed : Bool :=
  p.readCount = 0 && p.writeCount = 0 && !p.orphanedRead &&
    (!p.isFifo || (p.fifoNames = 0 && p.fifoPathRefs = 0))

/-- `add_reader`; `pipe.rs:977-981`. -/
def addReader : PipeBuffer :=
  { p with orphanedRead := false, readCount := p.readCount + 1 }

/-- `add_writer`; `pipe.rs:984-987`. -/
def addWriter : PipeBuffer := { p with writeCount := p.writeCount + 1 }

/-- `close_read_end`; `pipe.rs:926-940`. -/
def closeReadEnd : PipeBuffer :=
  let p := { p with readCount := p.readCount - 1 }
  if p.readCount = 0 then { p with orphanedRead := false, data := [], ancillaryFds := [] } else p

/-- `close_write_end`; `pipe.rs:961-974`. -/
def closeWriteEnd : PipeBuffer :=
  let p := { p with writeCount := p.writeCount - 1 }
  if p.writeCount = 0 then
    let p := { p with orphanedRead := false }
    if p.isFifo && p.fifoWriterEverOpened && 0 < p.fifoReadOnlyCount then
      { p with fifoReadHangup := true }
    else if p.isFifo && !p.hasReadyFifoReaderWaiter then
      { p with fifoWriterEverOpened := false, fifoReadHangup := false }
    else p
  else p

/-- `close_fifo_read_only`; `pipe.rs:774-784`. -/
def closeFifoReadOnly : PipeBuffer :=
  let p := closeReadEnd { p with fifoReadOnlyCount := p.fifoReadOnlyCount - 1 }
  if p.fifoReadOnlyCount = 0 ∧ p.hasReadyFifoReaderWaiter = false then
    { p with
      fifoReadHangup := false
      fifoWriterEverOpened := if p.writeCount = 0 then false else p.fifoWriterEverOpened }
  else p

/-- `reference_kind`: the reference that a description with these flags holds; `pipe.rs:607-622`. -/
def referenceKind (statusFlags : BitVec 32) : Option RefKind :=
  if statusFlags &&& oPath ≠ 0 then if p.isFifo then some .Path else none
  else if statusFlags &&& oAccmode = oRdonly then some (.Read p.isFifo)
  else if statusFlags &&& oAccmode = oWronly then some .Write
  else if statusFlags &&& oAccmode = oRdwr then some .ReadWrite
  else none

/-- `add_reference`; `pipe.rs:624-640`. -/
def addReference : RefKind → PipeBuffer
  | .Path => { p with fifoPathRefs := p.fifoPathRefs + 1 }
  | .Read true => { p.addReader with fifoReadOnlyCount := p.fifoReadOnlyCount + 1 }
  | .Read false => p.addReader
  | .Write => p.addWriter
  | .ReadWrite => p.addReader.addWriter

/-- `close_reference`; `pipe.rs:643-658`. -/
def closeReference : RefKind → PipeBuffer
  | .Path => { p with fifoPathRefs := p.fifoPathRefs - 1 }
  | .Read true => p.closeFifoReadOnly
  | .Read false => p.closeReadEnd
  | .Write => p.closeWriteEnd
  | .ReadWrite => p.closeReadEnd.closeWriteEnd

/-! ### References that come and go -/

/-- The read end looks as its last close leaves it: nothing is queued without a reader. -/
def ReadIdle : Prop :=
  p.orphanedRead = false ∧ (p.readCount = 0 → p.data = [] ∧ p.ancillaryFds = [])

/-- The write end looks as its last close leaves it: without a writer, a named pipe has hung up on
the readers that a writer was there for, and has forgotten the writer if there are none. -/
def WriteIdle : Prop :=
  p.writeCount = 0 → p.orphanedRead = false ∧ (p.isFifo = true →
    if p.fifoWriterEverOpened = true ∧ 0 < p.fifoReadOnlyCount then p.fifoReadHangup = true
    else p.hasReadyFifoReaderWaiter = true ∨
      p.fifoWriterEverOpened = false ∧ p.fifoReadHangup = false)

/-- The ends that a reference of this kind is for look as a close leaves them. -/
def Idle : RefKind → Prop
  | .Path => True
  | .Read _ => p.ReadIdle
  | .Write => p.WriteIdle
  | .ReadWrite => p.ReadIdle ∧ p.WriteIdle

lemma closeReadEnd_addReader_iff : p.addReader.closeReadEnd = p ↔ p.ReadIdle := by
  cases p with
  | mk =>
    simp only [addReader, closeReadEnd, ReadIdle, Nat.add_sub_cancel]
    split
    · next h =>
      simp
      tauto
    · next h => simp [h]

lemma closeWriteEnd_addWriter_iff : p.addWriter.closeWriteEnd = p ↔ p.WriteIdle := by
  cases p with
  | mk data rc wc ir iw orph fifo roc ever hang names refs waiters =>
    simp only [addWriter, closeWriteEnd, WriteIdle, Nat.add_sub_cancel, hasReadyFifoReaderWaiter]
    by_cases hwc : wc = 0
    · subst hwc
      cases fifo <;> cases ever <;> cases hang <;> cases orph <;>
        cases waiters.any (fun w => decide (w.2.side = .Reader) && w.2.ready) <;>
        by_cases hroc : 0 < roc <;> simp [hroc]
    · simp [hwc]

lemma closeWriteEnd_reads :
    p.closeWriteEnd.data = p.data ∧ p.closeWriteEnd.ancillaryFds = p.ancillaryFds ∧
      (p.orphanedRead = false → p.closeWriteEnd.orphanedRead = false) := by
  fun_cases closeWriteEnd p
  · exact ⟨rfl, rfl, fun _ => rfl⟩
  · exact ⟨rfl, rfl, fun _ => rfl⟩
  · exact ⟨rfl, rfl, fun _ => rfl⟩
  · exact ⟨rfl, rfl, id⟩

lemma closeReadEnd_addReader_reads :
    p.addReader.closeReadEnd.orphanedRead = false ∧ (p.readCount = 0 →
      p.addReader.closeReadEnd.data = [] ∧ p.addReader.closeReadEnd.ancillaryFds = []) := by
  by_cases h : p.readCount = 0 <;> simp [addReader, closeReadEnd, h]

lemma closeReference_addReference_iff {k : RefKind} (hk : k ≠ .Read true) :
    (p.addReference k).closeReference k = p ↔ p.Idle k := by
  cases k with
  | Path => exact iff_of_true rfl trivial
  | Read fifoReadOnly =>
    cases fifoReadOnly with
    | true => exact absurd rfl hk
    | false => exact p.closeReadEnd_addReader_iff
  | Write => exact p.closeWriteEnd_addWriter_iff
  | ReadWrite =>
    -- closing the read end does not read what the writer changed
    have hswap : p.addReader.addWriter.closeReadEnd = p.addReader.closeReadEnd.addWriter := by
      by_cases h : p.readCount = 0 <;> simp [addReader, addWriter, closeReadEnd, h]
    change p.addReader.addWriter.closeReadEnd.closeWriteEnd = p ↔ p.ReadIdle ∧ p.WriteIdle
    rw [hswap]
    constructor
    · intro h
      obtain ⟨hdata, hanc, horph⟩ := p.addReader.closeReadEnd.addWriter.closeWriteEnd_reads
      obtain ⟨horph', hempty⟩ := p.closeReadEnd_addReader_reads
      rw [h] at hdata hanc horph
      have hr : p.ReadIdle :=
        ⟨horph horph', fun h0 => ⟨hdata.trans (hempty h0).1, hanc.trans (hempty h0).2⟩⟩
      rw [p.closeReadEnd_addReader_iff.mpr hr] at h
      exact ⟨hr, p.closeWriteEnd_addWriter_iff.mp h⟩
    · rintro ⟨hr, hw⟩
      rw [p.closeReadEnd_addReader_iff.mpr hr, p.closeWriteEnd_addWriter_iff.mpr hw]

lemma ancillary_closeReference_addReference (k : RefKind) :
    ((p.addReference k).closeReference k).ancillaryFds = p.ancillaryFds ∨
      ((p.addReference k).closeReference k).ancillaryFds = [] := by
  have hread (q : PipeBuffer) : q.closeReadEnd.ancillaryFds = q.ancillaryFds ∨
      q.closeReadEnd.ancillaryFds = [] := by
    fun_cases closeReadEnd q
    · exact .inr rfl
    · exact .inl rfl
  cases k with
  | Path => exact .inl rfl
  | Read fifoReadOnly =>
    cases fifoReadOnly with
    | false => exact hread p.addReader
    | true =>
      change (closeFifoReadOnly _).ancillaryFds = _ ∨ (closeFifoReadOnly _).ancillaryFds = _
      fun_cases closeFifoReadOnly
      · exact hread _
      · exact hread _
  | Write => exact .inl p.addWriter.closeWriteEnd_reads.2.1
  | ReadWrite =>
    have h := p.addReader.addWriter.closeReadEnd.closeWriteEnd_reads.2.1
    exact (hread p.addReader.addWriter).imp h.trans h.trans

/-! ### Opens of named pipes -/

variable (owner : Nat)

/-- `fifo_open_waiters.get(&owner)`. -/
def waiter : Option FifoOpenWaiter := p.fifoOpenWaiters.lookup owner

/-- `add_fifo_endpoint_ref`; `pipe.rs:721-727`. -/
def addFifoEndpointRef : FifoOpenSide → PipeBuffer
  | .Reader => p.addReader
  | .Writer => p.addWriter

/-- `reserve_fifo_open`, none if the owner waits already; `pipe.rs:690-716`. -/
def reserveFifoOpen (w : FifoOpenWaiter) : Option PipeBuffer :=
  if (p.waiter owner).isSome then none
  else
    some (addFifoEndpointRef { p with fifoOpenWaiters := (owner, w) :: p.fifoOpenWaiters } w.side)

variable (side : FifoOpenSide)

/-- Make the waiting opens of a side ready. -/
def wake : PipeBuffer :=
  { p with
    fifoOpenWaiters := p.fifoOpenWaiters.map fun w =>
      if w.2.side = side then (w.1, { w.2 with ready := true }) else w }

/-- `publish_fifo_open`; `pipe.rs:729-758`. -/
def publishFifoOpen : FifoOpenSide → PipeBuffer
  | .Reader =>
    let p := { p with fifoReadOnlyCount := p.fifoReadOnlyCount + 1 }
    let p :=
      if 0 < p.writeCount then { p with fifoWriterEverOpened := true, fifoReadHangup := false }
      else if p.fifoWriterEverOpened then { p with fifoReadHangup := true }
      else p
    p.wake .Writer
  | .Writer => wake { p with fifoWriterEverOpened := true, fifoReadHangup := false } .Reader

/-- `publish_fifo_read_write_open`; `pipe.rs:760-767`. -/
def publishFifoReadWriteOpen : PipeBuffer :=
  (wake { p with fifoWriterEverOpened := true, fifoReadHangup := false } .Reader).wake .Writer

/-- Forget a waiting open. -/
def dropWaiter : PipeBuffer :=
  { p with fifoOpenWaiters := p.fifoOpenWaiters.filter (·.1 ≠ owner) }

/-- `cancel_fifo_open` for the waiter of the owner; `pipe.rs:801-816`. -/
def cancelFifoOpen : PipeBuffer :=
  let p := p.dropWaiter owner
  match side with
  | .Reader =>
    let p := p.closeReadEnd
    if p.fifoReadOnlyCount = 0 ∧ p.hasReadyFifoReaderWaiter = false then
      { p with
        fifoReadHangup := false
        fifoWriterEverOpened := if p.writeCount = 0 then false else p.fifoWriterEverOpened }
    else p
  | .Writer => p.closeWriteEnd

end PipeBuffer

end Kandelo.Kernel.Pipe
