import Kandelo.Kernel.Pipe.Buffer

/-!
# Waiting for a bounded pipe

A pipe with the size of its ring, and who waits for it: `poll`, a write that does not
block and `recv` with `MSG_WAITALL`. Polling asks for one free byte, but a short write for room for
all of it; and `recv` waits until all its bytes are in a ring that may be smaller.
-/

namespace Kandelo.Kernel.Pipe

open File List

/-- A pipe with the size of its ring; `pipe.rs:458-505, 832-834`. -/
structure Ring extends PipeBuffer where
  capacity : Nat
  fits : data.length ≤ capacity

/-- Events of `poll`; `lib.rs:1010-1016`. -/
def pollIn : BitVec 16 := 1

/-- `POLLOUT`. -/
def pollOut : BitVec 16 := 4

/-- `POLLERR`. -/
def pollErr : BitVec 16 := 8

/-- `POLLHUP`. -/
def pollHup : BitVec 16 := 16

/-- Writes of so many bytes or less are not split; `syscalls.rs:3649`. -/
def pipeBuf : Nat := 4096

variable {len : Nat}

namespace Ring

variable (r : Ring) (statusFlags : BitVec 32)

/-- `free_space`; `pipe.rs:842-844`. -/
def freeSpace : Nat := r.capacity - r.data.length

/-- `write`; `pipe.rs:855-876`. -/
def write (bytes : List UInt8) : Nat × Ring :=
  if r.readCount = 0 then (if r.orphanedRead then bytes.length else 0, r)
  else
    (min bytes.length r.freeSpace,
      { r with
        data := r.data ++ bytes.take r.freeSpace
        fits := by
          have hfits := r.fits
          rw [length_append, length_take, freeSpace]
          omega })

/-- `poll_check` for a pipe of the kernel; `syscalls.rs:11535-11570`. -/
def pollCheck (events : BitVec 16) : BitVec 16 :=
  let input := if events &&& pollIn ≠ 0 ∧ r.data ≠ [] then pollIn else 0
  let output := if events &&& pollOut ≠ 0 ∧ 0 < r.freeSpace then pollOut else 0
  let hangup := if r.isFifo then r.fifoReadHangup else !r.isWriteEndOpen
  if statusFlags &&& oAccmode = oRdonly then input ||| if hangup then pollHup else 0
  else if statusFlags &&& oAccmode = oWronly then if r.readCount = 0 then pollErr else output
  else if statusFlags &&& oAccmode = oRdwr then input ||| output
  else pollErr

/-- `sys_write` to a pipe of the kernel, without the signal; `syscalls.rs:3625-3670`. -/
def sysWrite (bytes : List UInt8) : Except Errno Nat × Ring :=
  if statusFlags &&& oPath ≠ 0 ∨ statusFlags &&& oAccmode = oRdonly then (.error .EBADF, r)
  else if bytes = [] then (.ok 0, r)
  else if r.readCount = 0 ∧ r.orphanedRead = false then (.error .EPIPE, r)
  else if bytes.length ≤ pipeBuf ∧ r.freeSpace < bytes.length then (.error .EAGAIN, r)
  else if (r.write bytes).1 = 0 then (.error .EAGAIN, r)
  else (.ok (r.write bytes).1, (r.write bytes).2)

/-- The path of `sys_recv` for a pipe, whose loop has one round; `syscalls.rs:9655-9685`. -/
def recv (len : Nat) (peek waitall : Bool) : Except Errno Nat × Ring :=
  let n := min len r.data.length
  let r' :=
    if peek then r else { r with data := r.data.drop n, fits := Nat.le_trans (by simp) r.fits }
  if waitall ∧ r.data.length < len ∧ r.isWriteEndOpen then (.error .EAGAIN, r)
  else if len ≤ n ∨ (0 < n ∧ waitall = false) then (.ok n, r')
  else if r.isWriteEndOpen then (.error .EAGAIN, r')
  else (.ok n, r')

/-- A pipe of that capacity that holds so many bytes. -/
def filled (n capacity : Nat) (h : n ≤ capacity) : Ring :=
  { PipeBuffer.new with data := replicate n 0, capacity, fits := by rwa [length_replicate] }

variable {r statusFlags} {bytes : List UInt8}

section

variable {n capacity : Nat} (h : n ≤ capacity)

lemma length_filled : (filled n capacity h).data.length = n := length_replicate

lemma freeSpace_filled : (filled n capacity h).freeSpace = capacity - n := by
  rw [freeSpace, length_filled]
  rfl

end

section

variable (hreader : 0 < r.readCount)

include hreader

lemma written_eq : (r.write bytes).1 = min bytes.length r.freeSpace := by
  rw [write, if_neg (Nat.ne_of_gt hreader)]

/-! ### Writable, by `poll` and by `write` -/

lemma pollCheck_pollOut {events : BitVec 16}
    (hend : statusFlags &&& oAccmode = oWronly ∨ statusFlags &&& oAccmode = oRdwr)
    (hevents : events &&& pollOut ≠ 0) :
    r.pollCheck statusFlags events &&& pollOut ≠ 0 ↔ 0 < r.freeSpace := by
  unfold pollCheck
  simp only
  rcases hend with hend | hend <;> rw [hend, if_neg (by decide)]
  · rw [if_pos rfl, if_neg (Nat.ne_of_gt hreader)]
    split <;> simp_all [pollOut]
  · rw [if_neg (by decide), if_pos rfl]
    split <;> split <;> simp_all [pollIn, pollOut]

lemma sysWrite_eq_again_iff
    (hopen : ¬ (statusFlags &&& oPath ≠ 0 ∨ statusFlags &&& oAccmode = oRdonly))
    (hpos : 0 < bytes.length) (hlen : bytes.length ≤ pipeBuf) :
    (r.sysWrite statusFlags bytes).1 = .error .EAGAIN ↔ r.freeSpace < bytes.length := by
  rw [sysWrite, if_neg hopen, if_neg (length_pos_iff.mp hpos), if_neg (by omega)]
  by_cases hroom : r.freeSpace < bytes.length
  · rw [if_pos ⟨hlen, hroom⟩]
    exact iff_of_true rfl hroom
  · rw [if_neg fun h => hroom h.2, if_neg (by rw [written_eq hreader]; omega)]
    exact iff_of_false (by rintro ⟨⟩) hroom

end

/-- A write end takes every short write while it is reported writable, if and only if it has no room
and is not reported, or has room for the longest one. -/
theorem writable_takes_short_writes_iff (r : Ring) (statusFlags : BitVec 32) (events : BitVec 16)
    (hreader : 0 < r.readCount)
    (hend : statusFlags &&& oAccmode = oWronly ∨ statusFlags &&& oAccmode = oRdwr)
    (hopen : statusFlags &&& oPath = 0) (hevents : events &&& pollOut ≠ 0) :
    (r.pollCheck statusFlags events &&& pollOut ≠ 0 → ∀ bytes : List UInt8,
      1 ≤ bytes.length → bytes.length ≤ pipeBuf →
        (r.sysWrite statusFlags bytes).1 ≠ .error .EAGAIN) ↔
      r.freeSpace = 0 ∨ pipeBuf ≤ r.freeSpace := by
  have hfd : ¬ (statusFlags &&& oPath ≠ 0 ∨ statusFlags &&& oAccmode = oRdonly) := by
    rintro (h | h)
    · exact h hopen
    · rw [h] at hend
      revert hend
      decide
  rw [pollCheck_pollOut hreader hend hevents]
  constructor
  · intro h
    by_contra hfree
    obtain ⟨bytes, hlong⟩ : ∃ bytes : List UInt8, bytes.length = pipeBuf :=
      ⟨replicate pipeBuf 0, length_replicate⟩
    have hpos : 1 ≤ bytes.length := by
      rw [hlong]
      decide
    refine h (by omega) bytes hpos hlong.le ?_
    rw [sysWrite_eq_again_iff hreader hfd hpos hlong.le]
    omega
  · intro hfree hsome bytes hpos hlen hagain
    have hroom := (sysWrite_eq_again_iff hreader hfd hpos hlen).mp hagain
    omega

/-- An empty pipe is reported writable and takes them. -/
theorem empty_pipe_takes_short_writes :
    let r := filled 0 65536 (Nat.zero_le _)
    r.pollCheck oWronly pollOut &&& pollOut ≠ 0 ∧ ∀ bytes : List UInt8,
      1 ≤ bytes.length → bytes.length ≤ pipeBuf →
        (r.sysWrite oWronly bytes).1 ≠ .error .EAGAIN := by
  have hpoll : (filled 0 65536 (Nat.zero_le _)).pollCheck oWronly pollOut &&& pollOut ≠ 0 := by
    rw [pollCheck_pollOut Nat.one_pos (by decide) (by decide), freeSpace_filled]
    decide
  refine ⟨hpoll, (writable_takes_short_writes_iff _ _ _ Nat.one_pos (by decide) (by decide)
    (by decide)).mpr (.inr ?_) hpoll⟩
  rw [freeSpace_filled]
  decide

/-- One free byte is reported, and a write of two bytes does not fit. -/
theorem writable_pipe_refuses_two_bytes :
    let r := filled 65535 65536 (by decide)
    r.pollCheck oWronly pollOut &&& pollOut ≠ 0 ∧
      (r.sysWrite oWronly [0, 0]).1 = .error .EAGAIN := by
  have hone : (filled 65535 65536 (by decide)).freeSpace = 1 := freeSpace_filled _
  constructor
  · rw [pollCheck_pollOut Nat.one_pos (by decide) (by decide), hone]
    exact Nat.one_pos
  · rw [sysWrite_eq_again_iff Nat.one_pos (by decide) (by decide) (by decide), hone]
    exact Nat.lt_succ_self 1

/-! ### Waiting for all bytes -/

lemma recv_eq_again_iff : (r.recv len false true).1 = .error .EAGAIN ↔
    r.data.length < len ∧ r.isWriteEndOpen := by
  unfold recv
  by_cases hwait : r.data.length < len ∧ r.isWriteEndOpen
  · rw [if_pos ⟨rfl, hwait⟩]
    exact iff_of_true rfl hwait
  · rw [if_neg fun h => hwait h.2, iff_false_right hwait]
    split
    · rintro ⟨⟩
    split
    · next hlen hopen => exact absurd ⟨by omega, hopen⟩ hwait
    · rintro ⟨⟩

end Ring

/-- The fields of a stream socket that `sys_recv` reads, with its receive pipe; `socket.rs:655-685`.
-/
structure StreamSocket where
  connected : Bool
  shutRd : Bool
  oobByte : Option UInt8
  recvBuf : Option Ring

/-- Flags of `recv`: `MSG_OOB`, `MSG_PEEK` and `MSG_WAITALL`; `syscalls.rs:9611-9612`. -/
def msgOob : BitVec 32 := 1

/-- `MSG_PEEK`. -/
def msgPeek : BitVec 32 := 2

/-- `MSG_WAITALL`. -/
def msgWaitall : BitVec 32 := 0x100

/-- `sys_recv` on a stream socket, with the answer of the host for one without a pipe;
`syscalls.rs:9603-9687`. -/
def StreamSocket.recv (s : StreamSocket) (host : Except Errno Nat) (len : Nat) (flags : BitVec 32) :
    Except Errno Nat × StreamSocket :=
  if s.connected = false then (.error .ENOTCONN, s)
  else if s.shutRd then (.ok 0, s)
  else if flags &&& msgOob ≠ 0 then
    if s.oobByte = none then (.error .EINVAL, s) else (.ok 1, { s with oobByte := none })
  else
    match s.recvBuf with
    | none => (host, s)
    | some r =>
      let peek := flags &&& msgPeek ≠ 0
      let answer := r.recv len peek (flags &&& msgWaitall ≠ 0 ∧ ¬ peek)
      (answer.1, { s with recvBuf := some answer.2 })

variable {s : StreamSocket} {r : Ring} {host : Except Errno Nat}

lemma StreamSocket.recv_eq_again_iff (hs : s.recvBuf = some r) :
    (s.recv host len msgWaitall).1 = .error .EAGAIN ↔
      s.connected = true ∧ s.shutRd = false ∧ r.data.length < len ∧ r.isWriteEndOpen := by
  unfold StreamSocket.recv
  rw [hs]
  by_cases hconn : s.connected = true
  · by_cases hshut : s.shutRd = true
    · simp [hconn, hshut]
    · rw [Bool.not_eq_true] at hshut
      simp only [hconn, hshut, true_and]
      exact Ring.recv_eq_again_iff
  · simp [hconn]

/-- A `recv` that waits for all bytes leaves room for the next one, unless the socket is connected
and open at both ends, its pipe is full, and the bytes do not fit in it. -/
theorem waitall_leaves_room_iff (s : StreamSocket) (r : Ring) (host : Except Errno Nat) (len : Nat)
    (hs : s.recvBuf = some r) (hreader : 0 < r.readCount) :
    ((s.recv host len msgWaitall).1 = .error .EAGAIN → ∀ byte, (r.write [byte]).1 = 1) ↔
      ¬ (s.connected = true ∧ s.shutRd = false ∧ r.isWriteEndOpen ∧
        r.data.length = r.capacity ∧ r.capacity < len) := by
  have hfits := r.fits
  have hroom : (∀ byte, (r.write [byte]).1 = 1) ↔ r.data.length ≠ r.capacity := by
    simp only [Ring.written_eq hreader, Ring.freeSpace, length_singleton, forall_const]
    omega
  rw [StreamSocket.recv_eq_again_iff hs, hroom]
  constructor
  · rintro h ⟨hconn, hshut, hopen, hfull, hlen⟩
    exact h ⟨hconn, hshut, hfull.trans_lt hlen, hopen⟩ hfull
  · rintro h ⟨hconn, hshut, hlen, hopen⟩ hfull
    exact h ⟨hconn, hshut, hopen, hfull, hfull ▸ hlen⟩

/-- A `recv` of more bytes than fit waits while there is room, and leaves it. -/
theorem waitall_leaves_room_empty :
    let r := Ring.filled 0 65536 (Nat.zero_le _)
    (StreamSocket.recv ⟨true, false, none, some r⟩ (.ok 0) 65537 msgWaitall).1 = .error .EAGAIN ∧
      ∀ byte, (r.write [byte]).1 = 1 := by
  have hagain : (StreamSocket.recv ⟨true, false, none, some (Ring.filled 0 65536 (Nat.zero_le _))⟩
      (.ok 0) 65537 msgWaitall).1 = .error .EAGAIN :=
    (StreamSocket.recv_eq_again_iff rfl).mpr ⟨rfl, rfl, by decide, rfl⟩
  exact ⟨hagain, (waitall_leaves_room_iff _ _ _ _ rfl Nat.one_pos).mpr
    (fun h => absurd h.2.2.2.1 (by decide)) hagain⟩

/-- The pipe is full, and a `recv` of one byte more than it holds waits. -/
theorem waitall_blocks_full_pipe :
    let r := Ring.filled 65536 65536 (Nat.le_refl _)
    (StreamSocket.recv ⟨true, false, none, some r⟩ (.ok 0) 65537 msgWaitall).1 = .error .EAGAIN ∧
      (r.write [0]).1 = 0 := by
  constructor
  · exact (StreamSocket.recv_eq_again_iff rfl).mpr
      ⟨rfl, rfl, (Ring.length_filled _).trans_lt (Nat.lt_succ_self _), rfl⟩
  · rw [Ring.written_eq Nat.one_pos, Ring.freeSpace_filled]
    rfl

end Kandelo.Kernel.Pipe
