import Kandelo.Kernel.Pipe.Buffer

/-!
# Ends of pipes in flight

A descriptor in flight holds ends of pipes as a description does, and each pipe
counts how many of its ends are held so: `crates/kernel/src/pipe.rs`. `Adds` and `Loses` are all
that later modules need to know of taking and releasing an end: which counts change, and that
messages are either kept or dropped.
-/

namespace Kandelo.Kernel.Pipe

/-! ### What a reference counts for -/

namespace RefKind

/-- Read ends that a reference holds. -/
def reads : RefKind → Nat
  | Read _ | ReadWrite => 1
  | Path | Write => 0

/-- Write ends that a reference holds. -/
def writes : RefKind → Nat
  | Write | ReadWrite => 1
  | Path | Read _ => 0

/-- How many references to the name of a FIFO the reference is. -/
def paths : RefKind → Nat
  | Path => 1
  | Read _ | Write | ReadWrite => 0

/-- How many members of the readers of a FIFO the reference is. -/
def cohorts : RefKind → Nat
  | Read true => 1
  | Read false | Path | Write | ReadWrite => 0

end RefKind

namespace PipeBuffer

variable {p q : PipeBuffer}

/-! ### Ends that come and go -/

/-- `close_read_end_orderly`; `pipe.rs:948-958`. -/
def closeReadEndOrderly (p : PipeBuffer) : PipeBuffer :=
  let p := { p with readCount := p.readCount - 1 }
  if p.readCount = 0 then
    { p with data := [], orphanedRead := 0 < p.writeCount, ancillaryFds := [] }
  else p

/-- `adopt_in_flight_reader`; `pipe.rs:999-1002`. -/
def adoptInFlightReader (p : PipeBuffer) : PipeBuffer :=
  { p with inFlightReadCount := p.inFlightReadCount - 1 }

/-- `adopt_in_flight_writer`; `pipe.rs:1004-1007`. -/
def adoptInFlightWriter (p : PipeBuffer) : PipeBuffer :=
  { p with inFlightWriteCount := p.inFlightWriteCount - 1 }

/-- `adopt_in_flight_reference`; `pipe.rs:673-683`. -/
def adoptInFlightReference (p : PipeBuffer) : RefKind → PipeBuffer
  | .Path => p
  | .Read _ => p.adoptInFlightReader
  | .Write => p.adoptInFlightWriter
  | .ReadWrite => p.adoptInFlightReader.adoptInFlightWriter

/-- `release_in_flight_reader`; `pipe.rs:1009-1013`. -/
def releaseInFlightReader (p : PipeBuffer) : PipeBuffer := p.adoptInFlightReader.closeReadEnd

/-- `release_in_flight_reader_orderly`; `pipe.rs:1015-1019`. -/
def releaseInFlightReaderOrderly (p : PipeBuffer) : PipeBuffer :=
  p.adoptInFlightReader.closeReadEndOrderly

/-- `release_in_flight_writer`; `pipe.rs:1021-1025`. -/
def releaseInFlightWriter (p : PipeBuffer) : PipeBuffer := p.adoptInFlightWriter.closeWriteEnd

/-- `release_in_flight_reference`; `pipe.rs:685-688`. -/
def releaseInFlightReference (p : PipeBuffer) (k : RefKind) : PipeBuffer :=
  (p.adoptInFlightReference k).closeReference k

/-! ### What releasing an end changes -/

/-- The pipe has one reference of a kind less, of which as many were in flight as `flew` says. A
read end that discards what is sent to it does so for a writer at most, and messages stay as they
are or are dropped. -/
structure Loses (k : RefKind) (flew : Nat) (p q : PipeBuffer) : Prop where
  reads : q.readCount = p.readCount - k.reads
  writes : q.writeCount = p.writeCount - k.writes
  paths : q.fifoPathRefs = p.fifoPathRefs - k.paths
  cohorts : q.fifoReadOnlyCount = p.fifoReadOnlyCount - k.cohorts
  inFlightReads : q.inFlightReadCount = p.inFlightReadCount - k.reads * flew
  inFlightWrites : q.inFlightWriteCount = p.inFlightWriteCount - k.writes * flew
  fifo : q.isFifo = p.isFifo
  names : q.fifoNames = p.fifoNames
  orphan : (p.orphanedRead = true → 0 < p.readCount + p.writeCount) →
    q.orphanedRead = true → 0 < q.readCount + q.writeCount
  queue : q.ancillaryFds = p.ancillaryFds ∨ q.ancillaryFds = []

lemma loses_closeReadEnd (p : PipeBuffer) : Loses (.Read false) 0 p p.closeReadEnd := by
  fun_cases closeReadEnd p
  · next h =>
    constructor
    case orphan => exact fun _ hq => absurd hq Bool.false_ne_true
    case queue => exact .inr rfl
    all_goals rfl
  · next h =>
    constructor
    case orphan => exact fun _ _ => Nat.lt_of_lt_of_le (Nat.pos_of_ne_zero h) (Nat.le_add_right _ _)
    case queue => exact .inl rfl
    all_goals rfl

lemma loses_closeReadEndOrderly (p : PipeBuffer) :
    Loses (.Read false) 0 p p.closeReadEndOrderly := by
  fun_cases closeReadEndOrderly p
  · next h =>
    constructor
    case orphan =>
      intro _ hq
      have hwrite : 0 < p.writeCount := of_decide_eq_true hq
      exact Nat.lt_of_lt_of_le hwrite (Nat.le_add_left _ _)
    case queue => exact .inr rfl
    all_goals rfl
  · next h =>
    constructor
    case orphan => exact fun _ _ => Nat.lt_of_lt_of_le (Nat.pos_of_ne_zero h) (Nat.le_add_right _ _)
    case queue => exact .inl rfl
    all_goals rfl

lemma loses_closeWriteEnd (p : PipeBuffer) : Loses .Write 0 p p.closeWriteEnd := by
  fun_cases closeWriteEnd p
  case case4 h =>
    constructor
    case orphan => exact fun _ _ => Nat.lt_of_lt_of_le (Nat.pos_of_ne_zero h) (Nat.le_add_left _ _)
    case queue => exact .inl rfl
    all_goals rfl
  all_goals
    constructor
    case orphan => exact fun _ hq => absurd hq Bool.false_ne_true
    case queue => exact .inl rfl
    all_goals rfl

lemma loses_closeFifoReadOnly (p : PipeBuffer) : Loses (.Read true) 0 p p.closeFifoReadOnly := by
  have h := loses_closeReadEnd { p with fifoReadOnlyCount := p.fifoReadOnlyCount - 1 }
  fun_cases closeFifoReadOnly p
  all_goals
    exact ⟨h.reads, h.writes, h.paths, h.cohorts, h.inFlightReads,
      h.inFlightWrites, h.fifo, h.names,
      h.orphan, h.queue⟩

lemma loses_closeReference (p : PipeBuffer) (k : RefKind) : Loses k 0 p (p.closeReference k) := by
  cases k with
  | Path =>
    constructor
    case orphan => exact id
    case queue => exact .inl rfl
    all_goals rfl
  | Read fifoReadOnly =>
    cases fifoReadOnly with
    | true => exact p.loses_closeFifoReadOnly
    | false => exact p.loses_closeReadEnd
  | Write => exact p.loses_closeWriteEnd
  | ReadWrite =>
    have hr := p.loses_closeReadEnd
    have hw := p.closeReadEnd.loses_closeWriteEnd
    exact {
      reads := hw.reads.trans hr.reads
      writes := hw.writes.trans (congrArg (· - 1) hr.writes)
      paths := hw.paths.trans hr.paths
      cohorts := hw.cohorts.trans hr.cohorts
      inFlightReads := hw.inFlightReads.trans hr.inFlightReads
      inFlightWrites := hw.inFlightWrites.trans hr.inFlightWrites
      fifo := hw.fifo.trans hr.fifo
      names := hw.names.trans hr.names
      orphan := fun h => hw.orphan (hr.orphan h)
      queue := hw.queue.elim (fun h => hr.queue.imp h.trans h.trans) .inr }

lemma Loses.of_adopt {k : RefKind} (h : Loses k 0 (p.adoptInFlightReference k) q) :
    Loses k 1 p q := by
  cases k with
  | Read fifoReadOnly | Path | Write | ReadWrite =>
    exact ⟨h.reads, h.writes, h.paths, h.cohorts, h.inFlightReads,
      h.inFlightWrites, h.fifo, h.names,
      h.orphan, h.queue⟩

lemma loses_reference (p : PipeBuffer) (k : RefKind) :
    Loses k 1 p (p.releaseInFlightReference k) := .of_adopt (loses_closeReference _ k)

lemma loses_writer (p : PipeBuffer) : Loses .Write 1 p p.releaseInFlightWriter :=
  .of_adopt (loses_closeWriteEnd _)

end PipeBuffer

end Kandelo.Kernel.Pipe
