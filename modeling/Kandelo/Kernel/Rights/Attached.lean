import Kandelo.Kernel.Pipe.Ring
import Kandelo.Lib.History
import Mathlib.Data.List.Perm.Basic

/-!
# Descriptors and the data they came with

One direction of a connected `AF_UNIX` stream pair: the pipe, with the batches of
descriptors queued beside its bytes. `kernel_recvmsg` takes the oldest batch whenever it
returns bytes (`wasm_api.rs:6839-6895`), and `recv` and `read` never take one. `batches_attached`
says when each batch goes with its own bytes.
-/

namespace Kandelo.Kernel.Pipe.Ring

open List

variable {r : Ring} {len : Nat} {peek waitall : Bool}

/-- How many bytes a `recv` returns. -/
def returned (r : Ring) (len : Nat) (peek waitall : Bool) : Nat :=
  (r.recv len peek waitall).1.toOption.getD 0

lemma returned_le : r.returned len peek waitall ≤ r.data.length := by
  simp only [returned, recv]
  split
  · exact Nat.zero_le _
  split
  · exact Nat.min_le_right ..
  split
  · exact Nat.zero_le _
  · exact Nat.min_le_right ..

/-- A `recv` takes out what it returns, unless it peeks, and leaves all else as it is. -/
lemma toPipeBuffer_recv : (r.recv len peek waitall).2.toPipeBuffer =
    { r.toPipeBuffer with
      data := r.data.drop (if peek then 0 else r.returned len peek waitall) } := by
  cases peek with
  | true =>
    simp only [recv]
    split
    · rfl
    · split
      · rfl
      · split <;> rfl
  | false =>
    simp only [returned, recv]
    split
    · rfl
    split
    · rfl
    next hnone =>
    split
    · -- nothing was there
      have hzero : min len r.data.length = 0 := by grind
      simp [hzero, Except.toOption]
    · rfl

end Kandelo.Kernel.Pipe.Ring

namespace Kandelo.Kernel.Rights.Attached

open Lib List
open Pipe (Ring InFlightFd)

/-- A batch of descriptors, with the number of the send it came with. -/
structure Batch where
  send : Nat
  fds : List InFlightFd

/-- The pipe, with the number of the send of each byte and of each batch, the number of sends so
far, the batches that were queued, and those that were taken out, with the room for descriptors that
the taker had. The receiver has its end open. -/
structure Channel where
  ring : Ring
  origins : List Nat
  batches : List Batch
  sends : Nat
  queued : List Batch
  taken : List (Batch × Nat)
  reader : 0 < ring.readCount
  marked : origins.length = ring.data.length
  linked : ring.ancillaryFds = batches.map Batch.fds

/-- Sends, with a batch or without, and the calls of the receiver. A `recvmsg` has room for some
descriptors in its control buffer; `read` is `recv` without flags. -/
inductive Call
  | send (data : List UInt8) (fds : List InFlightFd)
  | recvmsg (len : Nat) (peek waitall : Bool) (room : Nat)
  | recv (len : Nat) (peek waitall : Bool)

namespace Channel

variable {c : Channel} {call : Call}

section

variable (c : Channel) (len : Nat) (peek waitall : Bool)

/-- How many bytes `sys_recv` returns; `syscalls.rs:9655-9690`. -/
def returned : Nat := c.ring.returned len peek (waitall && !peek)

/-- How many bytes it takes out of the pipe. -/
def taking : Nat := if peek then 0 else c.returned len peek waitall

/-- `sys_recv` on the pipe. -/
def receive : Channel :=
  { c with
    ring := (c.ring.recv len peek (waitall && !peek)).2
    origins := c.origins.drop (c.taking len peek waitall)
    reader := by
      rw [Ring.toPipeBuffer_recv]
      exact c.reader
    marked := by
      rw [Ring.toPipeBuffer_recv, length_drop, length_drop, c.marked]
      rfl
    linked := by
      rw [Ring.toPipeBuffer_recv]
      exact c.linked }

/-- `pop_ancillary` for a receiver with so much room; `pipe.rs:1108-1110`. -/
def popAncillary (room : Nat) : Channel :=
  { c with
    ring := { c.ring with ancillaryFds := c.ring.ancillaryFds.tail }
    batches := c.batches.tail
    taken := c.taken ++ c.batches.head?.toList.map (·, room)
    linked := by
      dsimp only
      rw [c.linked, map_tail] }

/-- The batch that a send queues; `wasm_api.rs:6770-6775`. -/
def attached (data : List UInt8) (fds : List InFlightFd) : List Batch :=
  if 0 < (c.ring.write data).1 ∧ fds ≠ [] then [⟨c.sends, fds⟩] else []

/-- `kernel_sendmsg` on the pipe; `wasm_api.rs:6718-6784`. -/
def send (data : List UInt8) (fds : List InFlightFd) : Channel where
  ring :=
    { (c.ring.write data).2 with
      ancillaryFds := (c.ring.write data).2.ancillaryFds ++ (c.attached data fds).map Batch.fds }
  origins := c.origins ++ replicate (c.ring.write data).1 c.sends
  batches := c.batches ++ c.attached data fds
  sends := c.sends + 1
  queued := c.queued ++ c.attached data fds
  taken := c.taken
  reader := by
    rw [Ring.write, if_neg (Nat.ne_of_gt c.reader)]
    exact c.reader
  marked := by
    rw [Ring.write, if_neg (Nat.ne_of_gt c.reader)]
    simp only [length_append, length_replicate, c.marked, length_take]
    omega
  linked := by
    rw [map_append, ← c.linked]
    simp only [Ring.write, if_neg (Nat.ne_of_gt c.reader)]

end

/-- The channel after a call. -/
def apply (c : Channel) : Call → Channel
  | .send data fds => c.send data fds
  | .recvmsg len peek waitall room =>
    if 0 < c.returned len peek waitall then (c.receive len peek waitall).popAncillary room
    else c.receive len peek waitall
  | .recv len peek waitall => c.receive len peek waitall

/-- The sends of the bytes that a call takes out. -/
def consumed (c : Channel) : Call → List Nat
  | .send .. => []
  | .recvmsg len peek waitall _ | .recv len peek waitall =>
    c.origins.take (c.taking len peek waitall)

/-- The batch that a call takes. -/
def popped (c : Channel) : Call → Option Batch
  | .recvmsg len peek waitall _ => if 0 < c.returned len peek waitall then c.batches.head? else none
  | _ => none

/-- A batch is only taken by a call that takes out bytes of its send, so in particular not by one
that looks at them or returns earlier bytes; and one whose bytes are taken out does not stay. -/
def Right (c : Channel) (call : Call) : Prop :=
  (∀ b, c.popped call = some b → b.send ∈ c.consumed call) ∧
    ∀ b ∈ c.batches, b.send ∈ c.consumed call → b ∉ (c.apply call).batches

/-- The descriptors that receivers had room for. -/
def delivered (c : Channel) : List InFlightFd := c.taken.flatMap fun x => x.1.fds.take x.2

/-- The descriptors of batches that were taken which are released; `wasm_api.rs:6871-6884`. -/
def released (c : Channel) : List InFlightFd := c.taken.flatMap fun x => x.1.fds.drop x.2

/-- How many bytes are in the pipe before those of the batch. -/
def before (c : Channel) (b : Batch) : Nat := c.origins.idxOf b.send

/-- A `recvmsg` that returns bytes while a batch is queued does not peek, and reaches the bytes of
the oldest batch and of no other. A `recv` or `read` ends before the bytes of every batch. -/
def Fits (c : Channel) : Call → Prop
  | .send .. => True
  | .recvmsg len peek waitall _ =>
    0 < c.returned len peek waitall → ∀ b rest, c.batches = b :: rest → peek = false ∧
      c.before b < c.returned len peek waitall ∧
      ∀ b' ∈ rest, c.returned len peek waitall ≤ c.before b'
  | .recv len peek waitall => ∀ b ∈ c.batches, c.taking len peek waitall ≤ c.before b

/-! ### Runs -/

/-- Batches leave in the order they were queued, and each was queued by a send of its own. -/
structure Ordered (c : Channel) : Prop where
  conserved : c.queued = c.taken.map Prod.fst ++ c.batches
  increasing : (c.queued.map Batch.send).Pairwise (· < ·)
  earlier : ∀ b ∈ c.queued, b.send < c.sends

lemma mem_take_iff (c : Channel) (len : Nat) (peek waitall : Bool) (b : Batch) :
    b.send ∈ c.origins.take (c.taking len peek waitall) ↔
      c.before b < c.taking len peek waitall := by
  have hle : c.taking len peek waitall ≤ c.origins.length := by
    rw [c.marked, taking]
    split
    · exact Nat.zero_le _
    · exact Ring.returned_le
  by_cases hmem : b.send ∈ c.origins
  · exact mem_take_iff_idxOf_lt hmem
  · rw [before, idxOf_of_notMem hmem]
    exact iff_of_false (fun h => hmem (mem_of_mem_take h)) hle.not_gt

lemma Ordered.head_notMem (h : c.Ordered) {b : Batch} {rest : List Batch}
    (hb : c.batches = b :: rest) : b ∉ rest := by
  have hincreasing := h.increasing
  rw [h.conserved, hb, map_append, pairwise_append] at hincreasing
  intro hmem
  have hlt := (pairwise_cons.mp hincreasing.2.1).1 b.send (mem_map_of_mem hmem)
  exact Nat.lt_irrefl _ hlt

lemma Ordered.right_iff_fits (h : c.Ordered) (call : Call) : c.Right call ↔ c.Fits call := by
  cases call with
  | send => simp [Right, Fits, popped, consumed]
  | recv len peek waitall =>
    simp only [Right, Fits, popped, consumed, mem_take_iff, Channel.apply, Channel.receive]
    refine ⟨fun hright b hb => ?_, fun hfits => ⟨nofun, fun b hb hlt => ?_⟩⟩
    · exact Nat.le_of_not_lt fun hlt => hright.2 b hb hlt hb
    · exact absurd hlt (hfits b hb).not_gt
  | recvmsg len peek waitall room =>
    simp only [Right, Fits, popped, consumed, mem_take_iff, Channel.apply]
    by_cases hpos : 0 < c.returned len peek waitall
    · simp only [if_pos hpos, forall_prop_of_true hpos]
      have hbatches : ((c.receive len peek waitall).popAncillary room).batches =
          c.batches.tail := rfl
      rw [hbatches]
      cases hb : c.batches with
      | nil => simp
      | cons b rest =>
        have hnot := h.head_notMem hb
        cases peek with
        | true => simp [taking]
        | false =>
          simp only [taking, head?_cons, Option.some.injEq, forall_eq', tail_cons, forall_mem_cons]
          grind
    · have hzero : c.taking len peek waitall = 0 := by grind [taking]
      simp [hpos, hzero]

lemma Ordered.receive (h : c.Ordered) (len : Nat) (peek waitall : Bool) :
    (c.receive len peek waitall).Ordered := ⟨h.conserved, h.increasing, h.earlier⟩

lemma Ordered.popAncillary (h : c.Ordered) (room : Nat) : (c.popAncillary room).Ordered := by
  refine ⟨?_, h.increasing, h.earlier⟩
  have hconserved := h.conserved
  change c.queued = (c.taken ++ c.batches.head?.toList.map (·, room)).map Prod.fst ++ c.batches.tail
  rw [hconserved]
  cases c.batches <;> simp

lemma Ordered.send (h : c.Ordered) (data : List UInt8) (fds : List InFlightFd) :
    (c.send data fds).Ordered := by
  have hnew : ∀ b ∈ c.attached data fds, b.send = c.sends := by
    intro b hb
    unfold attached at hb
    split at hb
    · rw [mem_singleton.mp hb]
    · cases hb
  refine ⟨?_, ?_, ?_⟩
  · simp [Channel.send, h.conserved]
  · simp only [Channel.send, map_append, pairwise_append]
    refine ⟨h.increasing, ?_, ?_⟩
    · unfold attached
      split <;> simp
    simp only [mem_map]
    rintro _ ⟨b, hb, rfl⟩ _ ⟨b', hb', rfl⟩
    rw [hnew b' hb']
    exact h.earlier b hb
  · intro b hb
    rcases mem_append.mp hb with hb | hb
    · exact Nat.lt_succ_of_lt (h.earlier b hb)
    · exact (hnew b hb).symm ▸ Nat.lt_succ_self c.sends

lemma Ordered.fds_perm (h : c.Ordered) : (c.queued.flatMap Batch.fds).Perm
    (c.delivered ++ c.released ++ c.batches.flatMap Batch.fds) := by
  rw [h.conserved, flatMap_append]
  refine Perm.append_right _ ?_
  have hsplit := flatMap_append_perm c.taken (fun x => x.1.fds.take x.2) fun x => x.1.fds.drop x.2
  simp only [take_append_drop] at hsplit
  rw [flatMap_map]
  exact hsplit.symm

lemma Ordered.apply (h : c.Ordered) (call : Call) : (c.apply call).Ordered := by
  cases call with
  | send data fds => exact h.send data fds
  | recvmsg len peek waitall room =>
    simp only [Channel.apply]
    split
    · exact (h.receive ..).popAncillary room
    · exact h.receive ..
  | recv => exact h.receive ..

/-- An empty pipe with its receiver. -/
def start (capacity : Nat) : Channel where
  ring := .filled 0 capacity (Nat.zero_le _)
  origins := []
  batches := []
  sends := 0
  queued := []
  taken := []
  reader := Nat.one_pos
  marked := rfl
  linked := rfl

variable (capacity : Nat) (calls : List Call)

/-- The channel after some calls, the latest first. -/
def after : Channel := calls.foldr (fun call c => c.apply call) (start capacity)

lemma ordered_after : (after capacity calls).Ordered := by
  induction calls with
  | nil => exact ⟨rfl, .nil, nofun⟩
  | cons call calls ih => exact ih.apply call

/-- In every run each batch goes with its own bytes exactly as long as every call fits. A batch is
taken out at most once, and in the order of the sends, in every run; and each of its descriptors is
delivered once, released once or still queued. -/
theorem batches_attached (capacity : Nat) (calls : List Call) :
    (Always (fun call earlier => (after capacity earlier).Right call) calls ↔
      Always (fun call earlier => (after capacity earlier).Fits call) calls) ∧
    (after capacity calls).queued =
      (after capacity calls).taken.map Prod.fst ++ (after capacity calls).batches ∧
    ((after capacity calls).queued.map Batch.send).Pairwise (· < ·) ∧
    ((after capacity calls).queued.flatMap Batch.fds).Perm ((after capacity calls).delivered ++
      (after capacity calls).released ++ (after capacity calls).batches.flatMap Batch.fds) := by
  have hordered := ordered_after capacity calls
  refine ⟨?_, hordered.conserved, hordered.increasing, hordered.fds_perm⟩
  simp only [Always, (ordered_after capacity _).right_iff_fits]

/-- A descriptor of a file of the host, in flight. -/
def regularFd : InFlightFd := ⟨1, none, .Regular, 2, 5, [], none, none, true⟩

/-- A byte is sent alone, then one with a batch; the first byte is received and brings the batch. -/
theorem batch_before_its_bytes :
    let c := after 16 [.send [2] [regularFd], .send [1] []]
    c.popped (.recvmsg 1 false false 1) = some ⟨1, [regularFd]⟩ ∧
      c.consumed (.recvmsg 1 false false 1) = [0] ∧ ¬c.Right (.recvmsg 1 false false 1) := by
  refine ⟨rfl, rfl, fun h => ?_⟩
  exact absurd (h.1 ⟨1, [regularFd]⟩ rfl) (by decide)

end Channel

end Kandelo.Kernel.Rights.Attached
