import Kandelo.Kernel.Pipe.Buffer

/-!
# The rendezvous of a named pipe

An open of one end of a named pipe waits for the other end, and holds its own end
while it waits. `Rendezvous` says what the counts and flags of the buffer are worth at any time
between two calls: both counts add up from the descriptions and the waiting opens, no open waits
for an end that is there, and a hang-up is shown only to readers that a writer has left. Every
operation on the buffer keeps it, given who holds what.
-/

namespace Kandelo.Kernel.Pipe

open List PipeBuffer

namespace PipeBuffer

variable {p : PipeBuffer} {k : RefKind}

/-- How many opens of a side wait. -/
def waiting (p : PipeBuffer) (side : FifoOpenSide) : Nat :=
  p.fifoOpenWaiters.countP fun x => x.2.side = side

/-! ### What closing an end changes -/

section

variable (p : PipeBuffer)

@[simp] lemma frame_closeReadEnd : p.closeReadEnd.readCount = p.readCount - 1 ∧
    p.closeReadEnd.writeCount = p.writeCount ∧ p.closeReadEnd.isFifo = p.isFifo ∧
    p.closeReadEnd.fifoReadOnlyCount = p.fifoReadOnlyCount ∧
    p.closeReadEnd.fifoReadHangup = p.fifoReadHangup ∧
    p.closeReadEnd.fifoOpenWaiters = p.fifoOpenWaiters := by
  fun_cases closeReadEnd p <;> exact ⟨rfl, rfl, rfl, rfl, rfl, rfl⟩

@[simp] lemma frame_closeWriteEnd : p.closeWriteEnd.writeCount = p.writeCount - 1 ∧
    p.closeWriteEnd.readCount = p.readCount ∧ p.closeWriteEnd.isFifo = p.isFifo ∧
    p.closeWriteEnd.fifoReadOnlyCount = p.fifoReadOnlyCount ∧
    p.closeWriteEnd.fifoOpenWaiters = p.fifoOpenWaiters := by
  fun_cases closeWriteEnd p <;> exact ⟨rfl, rfl, rfl, rfl, rfl⟩

@[simp] lemma frame_closeFifoReadOnly : p.closeFifoReadOnly.readCount = p.readCount - 1 ∧
    p.closeFifoReadOnly.writeCount = p.writeCount ∧ p.closeFifoReadOnly.isFifo = p.isFifo ∧
    p.closeFifoReadOnly.fifoReadOnlyCount = p.fifoReadOnlyCount - 1 ∧
    p.closeFifoReadOnly.fifoOpenWaiters = p.fifoOpenWaiters := by
  have h := frame_closeReadEnd { p with fifoReadOnlyCount := p.fifoReadOnlyCount - 1 }
  fun_cases closeFifoReadOnly p <;> exact ⟨h.1, h.2.1, h.2.2.1, h.2.2.2.1, h.2.2.2.2.2⟩

lemma waiters_addReference (k : RefKind) :
    (p.addReference k).fifoOpenWaiters = p.fifoOpenWaiters := by
  cases k with
  | Read fifoReadOnly => cases fifoReadOnly <;> rfl
  | Path | Write | ReadWrite => rfl

lemma waiters_closeReference (k : RefKind) :
    (p.closeReference k).fifoOpenWaiters = p.fifoOpenWaiters := by
  cases k with
  | Read fifoReadOnly => cases fifoReadOnly <;> simp [closeReference]
  | Path => rfl
  | Write | ReadWrite => simp [closeReference]

end

lemma hangup_closeFifoReadOnly (h : p.closeFifoReadOnly.fifoReadHangup = true) :
    p.fifoReadHangup = true ∧
      (0 < p.fifoReadOnlyCount - 1 ∨ p.hasReadyFifoReaderWaiter = true) := by
  simp only [closeFifoReadOnly, frame_closeReadEnd, hasReadyFifoReaderWaiter] at h
  split at h
  · cases h
  next hkeep =>
  rw [not_and, Bool.not_eq_false] at hkeep
  refine ⟨by simpa using h, ?_⟩
  by_cases hlast : p.fifoReadOnlyCount - 1 = 0
  · exact .inr (hkeep hlast)
  · exact .inl (Nat.pos_of_ne_zero hlast)

lemma hangup_closeWriteEnd (hfifo : p.isFifo = true) (h : p.closeWriteEnd.fifoReadHangup = true) :
    p.writeCount - 1 = 0 ∧ (0 < p.fifoReadOnlyCount ∨ p.hasReadyFifoReaderWaiter = true) ∨
      p.writeCount - 1 ≠ 0 ∧ p.fifoReadHangup = true := by
  revert h
  fun_cases closeWriteEnd p
  · next _ hlast _ hever =>
    simp only [Bool.and_eq_true, decide_eq_true_eq] at hever
    exact fun _ => .inl ⟨hlast, .inl hever.2⟩
  · rintro ⟨⟩
  · next _ hlast _ _ hready =>
    refine fun _ => .inl ⟨hlast, .inr ?_⟩
    rw [Bool.and_eq_true, not_and, Bool.not_eq_true', Bool.not_eq_false] at hready
    exact hready hfifo
  · next hmore => exact fun h => .inr ⟨hmore, h⟩

end PipeBuffer

/-! ### The invariant -/

/-- One more description holds a reference of kind `k`. -/
def Adds (k : RefKind) (held held' : RefKind → Nat) : Prop :=
  ∀ j, held' j = held j + if j = k then 1 else 0

/-- The state of a named pipe between two calls, if `held` says how many descriptions hold a
reference of each kind. -/
structure Rendezvous (p : PipeBuffer) (held : RefKind → Nat) : Prop where
  fifo : p.isFifo = true
  owners : (p.fifoOpenWaiters.map Prod.fst).Nodup
  readOnly : p.fifoReadOnlyCount = held (.Read true)
  readers : p.readCount = held (.Read true) + held .ReadWrite + p.waiting .Reader
  writers : p.writeCount = held .Write + held .ReadWrite + p.waiting .Writer
  blockedReader : ∀ x ∈ p.fifoOpenWaiters, x.2.side = .Reader → x.2.ready = false → p.writeCount = 0
  blockedWriter : ∀ x ∈ p.fifoOpenWaiters, x.2.side = .Writer → x.2.ready = false → p.readCount = 0
  hangup : p.fifoReadHangup = true →
    p.writeCount = 0 ∧ (0 < p.fifoReadOnlyCount ∨ p.hasReadyFifoReaderWaiter = true)

namespace Rendezvous

variable {p : PipeBuffer} {held held' : RefKind → Nat}

lemma newFifo : Rendezvous newFifo fun _ => 0 where
  fifo := rfl
  owners := nodup_nil
  readOnly := rfl
  readers := rfl
  writers := rfl
  blockedReader := nofun
  blockedWriter := nofun
  hangup := nofun

lemma congr (h : Rendezvous p held) (hq : q = { p with
      data := q.data
      ancillaryFds := q.ancillaryFds
      orphanedRead := q.orphanedRead
      fifoPathRefs := q.fifoPathRefs
      fifoNames := q.fifoNames }) (hheld : ∀ k, k ≠ .Path → held' k = held k) :
    Rendezvous q held' := by
  rw [hq]
  have hro := hheld (.Read true) nofun
  have hw := hheld .Write nofun
  have hrw := hheld .ReadWrite nofun
  exact ⟨h.fifo, h.owners, by rw [hro]; exact h.readOnly, by rw [hro, hrw]; exact h.readers,
    by rw [hw, hrw]; exact h.writers, h.blockedReader, h.blockedWriter, h.hangup⟩

lemma waiting_pos (hx : x ∈ p.fifoOpenWaiters) : 0 < p.waiting x.2.side := by
  rw [waiting, countP_pos_iff]
  exact ⟨x, hx, by simp⟩

section

variable (h : Rendezvous p held)

include h

lemma same_side {y : Nat × FifoOpenWaiter} (hx : x ∈ p.fifoOpenWaiters)
    (hy : y ∈ p.fifoOpenWaiters) (hxr : x.2.ready = false) (hyr : y.2.ready = false) :
    x.2.side = y.2.side := by
  have hxpos := waiting_pos hx
  have hypos := waiting_pos hy
  have hwriters := h.writers
  cases hxs : x.2.side with
  | Reader =>
    cases hys : y.2.side with
    | Reader => rfl
    | Writer =>
      have hnone := h.blockedReader x hx hxs hxr
      rw [hys] at hypos
      omega
  | Writer =>
    cases hys : y.2.side with
    | Reader =>
      have hnone := h.blockedReader y hy hys hyr
      rw [hxs] at hxpos
      omega
    | Writer => rfl

/-! ### Inherited and closed references -/

lemma recount (hfifo : q.isFifo = p.isFifo) (hwaiters : q.fifoOpenWaiters = p.fifoOpenWaiters)
    (hro : q.fifoReadOnlyCount + held (.Read true) = p.fifoReadOnlyCount + held' (.Read true))
    (hr : q.readCount + (held (.Read true) + held .ReadWrite) =
      p.readCount + (held' (.Read true) + held' .ReadWrite))
    (hw : q.writeCount + (held .Write + held .ReadWrite) =
      p.writeCount + (held' .Write + held' .ReadWrite))
    (hread : p.readCount = 0 → q.readCount = 0) (hwrite : p.writeCount = 0 → q.writeCount = 0)
    (hhang : q.fifoReadHangup = true → q.writeCount = 0 ∧
      (0 < q.fifoReadOnlyCount ∨ p.hasReadyFifoReaderWaiter = true)) :
    Rendezvous q held' := by
  have hreadOnly := h.readOnly
  have hreaders := h.readers
  have hwriters := h.writers
  have hwaiting (side : FifoOpenSide) : q.waiting side = p.waiting side := by
    rw [waiting, hwaiters, waiting]
  constructor
  · rw [hfifo, h.fifo]
  · rw [hwaiters]
    exact h.owners
  · omega
  · rw [hwaiting]
    omega
  · rw [hwaiting]
    omega
  · rw [hwaiters]
    exact fun x hx hside hready => hwrite (h.blockedReader x hx hside hready)
  · rw [hwaiters]
    exact fun x hx hside hready => hread (h.blockedWriter x hx hside hready)
  · rw [hasReadyFifoReaderWaiter, hwaiters]
    exact hhang

lemma addReference (hk : k ≠ .Read false) (hpos : 0 < held k) (hadds : Adds k held held') :
    Rendezvous (p.addReference k) held' := by
  have hro := hadds (.Read true)
  have hw := hadds .Write
  have hrw := hadds .ReadWrite
  have hreaders := h.readers
  have hwriters := h.writers
  cases k with
  | Path => exact h.congr rfl fun j hj => by rw [hadds, if_neg hj, Nat.add_zero]
  | Read fifoReadOnly =>
    cases fifoReadOnly with
    | false => exact absurd rfl hk
    | true =>
      simp only [if_true, reduceCtorEq, if_false] at hro hw hrw
      apply h.recount (by rfl) (by rfl) <;>
        simp only [PipeBuffer.addReference, PipeBuffer.addReader]
      iterate 5 omega
      exact fun hh => ⟨(h.hangup hh).1, .inl (Nat.succ_pos _)⟩
  | Write | ReadWrite =>
    simp only [if_true, reduceCtorEq, if_false] at hro hw hrw
    apply h.recount (by rfl) (by rfl) <;>
      simp only [PipeBuffer.addReference, PipeBuffer.addReader, PipeBuffer.addWriter]
    iterate 5 omega
    intro hh
    have hnone := (h.hangup hh).1
    omega

lemma closeReference (hk : k ≠ .Read false) (hadds : Adds k held' held) :
    Rendezvous (p.closeReference k) held' := by
  have hro := hadds (.Read true)
  have hw := hadds .Write
  have hrw := hadds .ReadWrite
  have hreadOnly := h.readOnly
  have hreaders := h.readers
  have hwriters := h.writers
  cases k with
  | Path => exact h.congr rfl fun j hj => by rw [hadds, if_neg hj, Nat.add_zero]
  | Read fifoReadOnly =>
    cases fifoReadOnly with
    | false => exact absurd rfl hk
    | true =>
      simp only [if_true, reduceCtorEq, if_false] at hro hw hrw
      change Rendezvous p.closeFifoReadOnly held'
      apply h.recount (by simp) (by simp) <;> simp only [frame_closeFifoReadOnly]
      iterate 5 omega
      intro hh
      obtain ⟨hbefore, hreader⟩ := hangup_closeFifoReadOnly hh
      exact ⟨(h.hangup hbefore).1, hreader⟩
  | Write =>
    simp only [if_true, reduceCtorEq, if_false] at hro hw hrw
    apply h.recount (by simp [PipeBuffer.closeReference]) (by simp [PipeBuffer.closeReference]) <;>
      simp only [PipeBuffer.closeReference, PipeBuffer.frame_closeWriteEnd]
    iterate 5 omega
    intro hh
    rcases hangup_closeWriteEnd h.fifo hh with hlast | ⟨-, hbefore⟩
    · exact hlast
    · have hnone := (h.hangup hbefore).1
      omega
  | ReadWrite =>
    simp only [if_true, reduceCtorEq, if_false] at hro hw hrw
    apply h.recount (by simp [PipeBuffer.closeReference]) (by simp [PipeBuffer.closeReference]) <;>
      simp [PipeBuffer.closeReference]
    iterate 5 omega
    intro hh
    have hfifo : p.closeReadEnd.isFifo = true := by simp only [frame_closeReadEnd, h.fifo]
    rcases hangup_closeWriteEnd hfifo hh with hlast | ⟨-, hbefore⟩
    · simpa [hasReadyFifoReaderWaiter] using hlast
    simp only [frame_closeReadEnd] at hbefore
    have hnone := (h.hangup hbefore).1
    omega

/-! ### Opens that succeed or fail at once -/

lemma withdrawn (hk : k ≠ .Read true) : Rendezvous ((p.addReference k).closeReference k) held := by
  have hsame {q : PipeBuffer} (hq : (q.isFifo, q.fifoOpenWaiters, q.fifoReadOnlyCount, q.readCount,
      q.writeCount) = (p.isFifo, p.fifoOpenWaiters, p.fifoReadOnlyCount, p.readCount, p.writeCount))
      (hhang : q.fifoReadHangup = true →
        p.writeCount = 0 ∧ (0 < p.fifoReadOnlyCount ∨ p.hasReadyFifoReaderWaiter = true)) :
      Rendezvous q held := by
    simp only [Prod.mk.injEq] at hq
    obtain ⟨hfifo, hwaiters, hro, hr, hw⟩ := hq
    apply h.recount hfifo hwaiters <;> simp only [hro, hr, hw, imp_self]
    exact hhang
  cases k with
  | Path => exact h.congr rfl fun _ _ => rfl
  | Read fifoReadOnly =>
    cases fifoReadOnly with
    | true => exact absurd rfl hk
    | false =>
      change Rendezvous p.addReader.closeReadEnd held
      apply hsame
      · simp [addReader]
      · simp only [frame_closeReadEnd]
        exact h.hangup
  | Write =>
    change Rendezvous p.addWriter.closeWriteEnd held
    apply hsame
    · simp [addWriter]
    intro hh
    rcases hangup_closeWriteEnd (p := p.addWriter) h.fifo hh with hlast | ⟨-, hbefore⟩
    · exact hlast
    · exact h.hangup hbefore
  | ReadWrite =>
    change Rendezvous p.addReader.addWriter.closeReadEnd.closeWriteEnd held
    apply hsame
    · simp [addReader, addWriter]
    intro hh
    have hfifo : p.addReader.addWriter.closeReadEnd.isFifo = true := by
      simp only [frame_closeReadEnd]
      exact h.fifo
    rcases hangup_closeWriteEnd hfifo hh with hlast | ⟨-, hbefore⟩
    · simpa [hasReadyFifoReaderWaiter, addReader, addWriter] using hlast
    · simp only [frame_closeReadEnd] at hbefore
      exact h.hangup hbefore

end

end Rendezvous

/-! ### Waking the other side -/

namespace PipeBuffer

variable (p : PipeBuffer) (side side' : FifoOpenSide)

lemma owners_wake : (p.wake side).fifoOpenWaiters.map Prod.fst =
    p.fifoOpenWaiters.map Prod.fst := by
  rw [wake, map_map]
  apply map_congr_left
  intro x _
  rw [Function.comp_apply]
  split <;> rfl

@[simp] lemma waiting_wake : (p.wake side).waiting side' = p.waiting side' := by
  rw [waiting, wake, countP_map]
  apply countP_congr
  intro x _
  rw [Function.comp_apply]
  split <;> rfl

variable {p side}

lemma mem_wake (hx : x ∈ (p.wake side).fifoOpenWaiters)
    (hready : x.2.ready = false) : x ∈ p.fifoOpenWaiters ∧ x.2.side ≠ side := by
  obtain ⟨y, hy, rfl⟩ := mem_map.mp hx
  by_cases hside : y.2.side = side
  · rw [if_pos hside] at hready
    cases hready
  · rw [if_neg hside]
    exact ⟨hy, hside⟩

end PipeBuffer

/-- The reference that an open of one side holds once it is published. -/
def FifoOpenSide.kind : FifoOpenSide → RefKind
  | .Reader => .Read true
  | .Writer => .Write

/-- The state of a named pipe while an open of one side holds its end and has not told the others:
opens of the other side may still be asleep. -/
structure Opening (p : PipeBuffer) (held : RefKind → Nat) (side : FifoOpenSide) : Prop where
  fifo : p.isFifo = true
  owners : (p.fifoOpenWaiters.map Prod.fst).Nodup
  readOnly : p.fifoReadOnlyCount = held (.Read true)
  readers : p.readCount = held (.Read true) + held .ReadWrite + p.waiting .Reader +
    if side = .Reader then 1 else 0
  writers : p.writeCount = held .Write + held .ReadWrite + p.waiting .Writer +
    if side = .Writer then 1 else 0
  blocked : ∀ x ∈ p.fifoOpenWaiters, x.2.side = side → x.2.ready = false →
    if side = .Reader then p.writeCount = 0 else p.readCount = 0
  hangup : side = .Reader → p.fifoReadHangup = true → p.writeCount = 0

namespace Rendezvous

variable {p : PipeBuffer} {held held' : RefKind → Nat} {side : FifoOpenSide} {owner : Nat}
  {waiter : FifoOpenWaiter}

lemma opening (h : Rendezvous p held) (side : FifoOpenSide) :
    Opening (p.addFifoEndpointRef side) held side := by
  have hreaders := h.readers
  have hwriters := h.writers
  cases side with
  | Reader =>
    exact {
      fifo := h.fifo
      owners := h.owners
      readOnly := h.readOnly
      readers := congrArg (· + 1) hreaders
      writers := hwriters
      blocked := h.blockedReader
      hangup := fun _ hh => (h.hangup hh).1 }
  | Writer =>
    exact {
      fifo := h.fifo
      owners := h.owners
      readOnly := h.readOnly
      readers := hreaders
      writers := congrArg (· + 1) hwriters
      blocked := h.blockedWriter
      hangup := nofun }

lemma wake (hfifo : p.isFifo = true) (howners : (p.fifoOpenWaiters.map Prod.fst).Nodup)
    (hreadOnly : p.fifoReadOnlyCount = held (.Read true))
    (hreaders : p.readCount = held (.Read true) + held .ReadWrite + p.waiting .Reader)
    (hwriters : p.writeCount = held .Write + held .ReadWrite + p.waiting .Writer)
    (hblocked : ∀ x ∈ p.fifoOpenWaiters, x.2.side ≠ side → x.2.ready = false →
      if x.2.side = .Reader then p.writeCount = 0 else p.readCount = 0)
    (hhang : p.fifoReadHangup = true → p.writeCount = 0 ∧ 0 < p.fifoReadOnlyCount) :
    Rendezvous (p.wake side) held := by
  constructor
  · exact hfifo
  · rw [owners_wake]
    exact howners
  · exact hreadOnly
  · rw [waiting_wake]
    exact hreaders
  · rw [waiting_wake]
    exact hwriters
  · intro x hx hside hready
    obtain ⟨hx, hother⟩ := mem_wake hx hready
    have hnone := hblocked x hx hother hready
    rwa [if_pos hside] at hnone
  · intro x hx hside hready
    obtain ⟨hx, hother⟩ := mem_wake hx hready
    have hnone := hblocked x hx hother hready
    rwa [if_neg (by rw [hside]; exact nofun)] at hnone
  · intro hh
    exact ⟨(hhang hh).1, .inl (hhang hh).2⟩

lemma publish (h : Opening p held side) (hadds : Adds side.kind held held') :
    Rendezvous (p.publishFifoOpen side) held' := by
  have hro := hadds (.Read true)
  have hw := hadds .Write
  have hrw := hadds .ReadWrite
  have hreadOnly := h.readOnly
  have hreaders := h.readers
  have hwriters := h.writers
  have hother {x : Nat × FifoOpenWaiter} (hx : x.2.side ≠ .Writer) : x.2.side = .Reader := by
    cases hside : x.2.side with
    | Reader => rfl
    | Writer => exact absurd hside hx
  cases side with
  | Reader =>
    simp only [FifoOpenSide.kind, if_true, reduceCtorEq, if_false] at hro hw hrw hreaders hwriters
    -- the flags of the writer are settled before the writers wake
    obtain ⟨ever, hang, hhang, hpublish⟩ : ∃ ever hang : Bool,
        (hang = true → p.writeCount = 0) ∧ p.publishFifoOpen .Reader = PipeBuffer.wake { p with
          fifoReadOnlyCount := p.fifoReadOnlyCount + 1
          fifoWriterEverOpened := ever
          fifoReadHangup := hang } .Writer := by
      simp only [PipeBuffer.publishFifoOpen]
      split
      · exact ⟨true, false, by rintro ⟨⟩, rfl⟩
      next hnone =>
      split
      · exact ⟨_, true, fun _ => Nat.eq_zero_of_not_pos hnone, rfl⟩
      · exact ⟨_, _, h.hangup rfl, rfl⟩
    rw [hpublish]
    apply wake
    · exact h.fifo
    · exact h.owners
    · change p.fifoReadOnlyCount + 1 = _
      omega
    · change p.readCount = _ + p.waiting .Reader
      omega
    · change p.writeCount = _ + p.waiting .Writer
      omega
    · intro x hx hside hready
      rw [if_pos (hother hside)]
      exact h.blocked x hx (hother hside) hready
    · exact fun hh => ⟨hhang hh, Nat.succ_pos _⟩
  | Writer =>
    simp only [FifoOpenSide.kind, reduceCtorEq, if_false] at hro hw hrw hreaders hwriters
    apply wake
    · exact h.fifo
    · exact h.owners
    · change p.fifoReadOnlyCount = _
      omega
    · change p.readCount = _ + p.waiting .Reader
      omega
    · change p.writeCount = _ + p.waiting .Writer
      omega
    · intro x hx hside hready
      rw [if_neg hside]
      have hwriter : x.2.side = .Writer := by
        by_contra hx'
        exact hside (hother hx')
      exact h.blocked x hx hwriter hready
    · rintro ⟨⟩

section

variable (h : Rendezvous p held)

include h

lemma publishReadWrite (hadds : Adds .ReadWrite held held') :
    Rendezvous (p.addReference .ReadWrite).publishFifoReadWriteOpen held' := by
  have hro := hadds (.Read true)
  have hw := hadds .Write
  have hrw := hadds .ReadWrite
  simp only [if_true, reduceCtorEq, if_false] at hro hw hrw
  have hreadOnly := h.readOnly
  have hreaders := h.readers
  have hwriters := h.writers
  apply wake
  · exact h.fifo
  · rw [owners_wake]
    exact h.owners
  · change p.fifoReadOnlyCount = _
    omega
  · rw [waiting_wake]
    change p.readCount + 1 = _ + p.waiting .Reader
    omega
  · rw [waiting_wake]
    change p.writeCount + 1 = _ + p.waiting .Writer
    omega
  · intro x hx hside hready
    have hreader := (mem_wake hx hready).2
    cases hx' : x.2.side with
    | Reader => exact absurd hx' hreader
    | Writer => exact absurd hx' hside
  · exact nofun

/-! ### Opens that wait -/

lemma reserve (hq : p.reserveFifoOpen owner waiter = some q)
    (hnone : if waiter.side = .Reader then p.writeCount = 0 else p.readCount = 0) :
    Rendezvous q held := by
  have hreaders := h.readers
  have hwriters := h.writers
  unfold reserveFifoOpen at hq
  split at hq
  · cases hq
  next hfree =>
  rw [Option.some.injEq] at hq
  subst hq
  have howners : (((owner, waiter) :: p.fifoOpenWaiters).map Prod.fst).Nodup := by
    rw [map_cons, nodup_cons]
    refine ⟨?_, h.owners⟩
    rw [PipeBuffer.waiter, Option.not_isSome_iff_eq_none, lookup_eq_none_iff] at hfree
    intro hmem
    obtain ⟨x, hx, heq⟩ := mem_map.mp hmem
    have hne := hfree x hx
    rw [heq] at hne
    simp at hne
  have hwaiting (side : FifoOpenSide) : ((owner, waiter) :: p.fifoOpenWaiters).countP
      (fun x => x.2.side = side) = p.waiting side + if waiter.side = side then 1 else 0 := by
    rw [countP_cons, waiting]
    simp
  have hnew {x : Nat × FifoOpenWaiter} (hx : x ∈ (owner, waiter) :: p.fifoOpenWaiters)
      (hside : x.2.side ≠ waiter.side) : x ∈ p.fifoOpenWaiters := by
    rcases mem_cons.mp hx with rfl | hx
    · exact absurd rfl hside
    · exact hx
  have hr := hwaiting .Reader
  have hw := hwaiting .Writer
  cases hside : waiter.side with simp only [hside, if_true, reduceCtorEq, if_false] at hnone hr hw
  | Reader =>
    constructor
    · exact h.fifo
    · exact howners
    · exact h.readOnly
    · change p.readCount + 1 = _ + ((owner, waiter) :: p.fifoOpenWaiters).countP _
      omega
    · change p.writeCount = _ + ((owner, waiter) :: p.fifoOpenWaiters).countP _
      omega
    · exact fun _ _ _ _ => hnone
    · intro x hx hx'
      have hpos := waiting_pos (hnew hx (by rw [hx', hside]; rintro ⟨⟩))
      rw [hx'] at hpos
      omega
    · intro hh
      refine ⟨hnone, (h.hangup hh).2.imp_right fun hready => ?_⟩
      exact any_cons.trans (by rw [← hasReadyFifoReaderWaiter, hready, Bool.or_true])
  | Writer =>
    constructor
    · exact h.fifo
    · exact howners
    · exact h.readOnly
    · change p.readCount = _ + ((owner, waiter) :: p.fifoOpenWaiters).countP _
      omega
    · change p.writeCount + 1 = _ + ((owner, waiter) :: p.fifoOpenWaiters).countP _
      omega
    · intro x hx hx'
      have hpos := waiting_pos (hnew hx (by rw [hx', hside]; rintro ⟨⟩))
      rw [hx'] at hpos
      omega
    · exact fun _ _ _ _ => hnone
    · -- without a reader nobody could have been hung up on
      intro hh
      have hreadOnly := h.readOnly
      rcases (h.hangup hh).2 with hro | hready
      · omega
      obtain ⟨x, hx, hx'⟩ := any_eq_true.mp hready
      rw [Bool.and_eq_true, decide_eq_true_eq] at hx'
      have hpos := waiting_pos hx
      rw [hx'.1] at hpos
      omega

lemma waiting_dropWaiter (hwaiter : p.waiter owner = some waiter) (side : FifoOpenSide) :
    (p.dropWaiter owner).waiting side + (if waiter.side = side then 1 else 0) = p.waiting side := by
  have howners := h.owners
  rw [PipeBuffer.waiter] at hwaiter
  rw [waiting, dropWaiter, waiting]
  dsimp only
  generalize p.fifoOpenWaiters = waiters at howners hwaiter
  induction waiters with
  | nil => cases hwaiter
  | cons x waiters ih =>
    rw [map_cons, nodup_cons] at howners
    rw [lookup_cons] at hwaiter
    by_cases howner : owner = x.1
    · -- the entry itself: no other entry has this owner
      rw [← howner, beq_self_eq_true] at hwaiter
      cases hwaiter
      rw [filter_cons_of_neg (by simpa using howner.symm), filter_eq_self.mpr, countP_cons]
      · simp
      intro y hy
      rw [decide_eq_true_eq]
      rintro rfl
      exact howners.1 (howner ▸ mem_map_of_mem hy)
    · rw [beq_false_of_ne howner] at hwaiter
      rw [filter_cons_of_pos (by simpa using Ne.symm howner), countP_cons, countP_cons]
      have hrest := ih howners.2 hwaiter
      omega

lemma resumed (hwaiter : p.waiter owner = some waiter) :
    Opening (p.dropWaiter owner) held waiter.side := by
  have hr := h.waiting_dropWaiter hwaiter .Reader
  have hw := h.waiting_dropWaiter hwaiter .Writer
  have hreaders := h.readers
  have hwriters := h.writers
  constructor
  · exact h.fifo
  · exact h.owners.sublist (filter_sublist.map _)
  · exact h.readOnly
  · change p.readCount = _
    omega
  · change p.writeCount = _
    omega
  · intro x hx hside hready
    have hx := mem_of_mem_filter hx
    split
    · next hreader => exact h.blockedReader x hx (hside.trans hreader) hready
    next hwriter =>
    refine h.blockedWriter x hx ?_ hready
    cases hx' : x.2.side with
    | Reader => exact absurd (hside.symm.trans hx') hwriter
    | Writer => rfl
  · exact fun _ hh => (h.hangup hh).1

end

lemma hangup_cancelFifoOpen (hh : (p.cancelFifoOpen owner .Reader).fifoReadHangup = true) :
    p.fifoReadHangup = true ∧
      (0 < p.fifoReadOnlyCount ∨ (p.dropWaiter owner).hasReadyFifoReaderWaiter = true) := by
  simp only [cancelFifoOpen, frame_closeReadEnd, hasReadyFifoReaderWaiter] at hh
  split at hh
  · cases hh
  next hkeep =>
  rw [not_and, Bool.not_eq_false] at hkeep
  simp only [frame_closeReadEnd] at hh
  refine ⟨hh, ?_⟩
  by_cases hro : p.fifoReadOnlyCount = 0
  · exact .inr (hkeep hro)
  · exact .inl (Nat.pos_of_ne_zero hro)

lemma counts_cancelFifoOpen (p : PipeBuffer) (owner : Nat) (side : FifoOpenSide) :
    let q := p.cancelFifoOpen owner side
    (q.isFifo, q.fifoOpenWaiters, q.fifoReadOnlyCount, q.readCount, q.writeCount) =
      (p.isFifo, (p.dropWaiter owner).fifoOpenWaiters, p.fifoReadOnlyCount,
        p.readCount - (if side = .Reader then 1 else 0),
        p.writeCount - if side = .Writer then 1 else 0) := by
  cases side with
  | Reader =>
    simp only [cancelFifoOpen]
    split <;> simp [dropWaiter]
  | Writer => simp [cancelFifoOpen, dropWaiter]

lemma waiters_cancelFifoOpen (p : PipeBuffer) (side : FifoOpenSide) :
    (p.cancelFifoOpen owner side).fifoOpenWaiters = (p.dropWaiter owner).fifoOpenWaiters :=
  congrArg (·.2.1) (counts_cancelFifoOpen p owner side)

lemma cancel (h : Rendezvous p held) (hwaiter : p.waiter owner = some waiter) :
    Rendezvous (p.cancelFifoOpen owner waiter.side) held := by
  have hopen := h.resumed hwaiter
  have hreaders : p.readCount = _ := hopen.readers
  have hwriters : p.writeCount = _ := hopen.writers
  have hcounts := counts_cancelFifoOpen p owner waiter.side
  simp only [Prod.mk.injEq] at hcounts
  obtain ⟨hfifo, hwaiters, hro, hr, hw⟩ := hcounts
  have hwaiting (side : FifoOpenSide) :
      (p.cancelFifoOpen owner waiter.side).waiting side = (p.dropWaiter owner).waiting side := by
    rw [waiting, hwaiters, waiting]
  have hsub {x : Nat × FifoOpenWaiter} (hx : x ∈ (p.dropWaiter owner).fifoOpenWaiters) :
      x ∈ p.fifoOpenWaiters := mem_of_mem_filter hx
  constructor
  · rw [hfifo, h.fifo]
  · rw [hwaiters]
    exact hopen.owners
  · rw [hro, h.readOnly]
  · rw [hwaiting]
    omega
  · rw [hwaiting]
    omega
  · intro x hx hside hready
    have hnone := h.blockedReader x (hsub (hwaiters ▸ hx)) hside hready
    omega
  · intro x hx hside hready
    have hnone := h.blockedWriter x (hsub (hwaiters ▸ hx)) hside hready
    omega
  · intro hh
    rw [hro, hasReadyFifoReaderWaiter, hwaiters]
    cases hside : waiter.side with
    | Reader =>
      rw [hside] at hh
      obtain ⟨hbefore, hreader⟩ := hangup_cancelFifoOpen hh
      have hnone := (h.hangup hbefore).1
      rw [hside] at hw
      exact ⟨by omega, hreader⟩
    | Writer =>
      rw [hside] at hh hwriters hw
      simp only [if_true] at hwriters hw
      rcases hangup_closeWriteEnd hopen.fifo hh with ⟨hlast, hreader⟩ | ⟨-, hbefore⟩
      · exact ⟨hw.trans hlast, hreader⟩
      · have hnone := (h.hangup hbefore).1
        omega

end Rendezvous

end Kandelo.Kernel.Pipe
