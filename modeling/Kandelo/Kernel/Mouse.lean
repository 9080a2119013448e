import Kandelo.Lib.History
import Kandelo.Lib.Overrun

/-!
# Packets of the mouse

The host's events wait in a queue of bytes, three for each (`crates/kernel/src/mouse.rs`). A full
queue drops three bytes, which are one packet only if the reader has not begun to read it.
-/

namespace Kandelo.Kernel.Mouse

open Lib List

/-- `PACKET_LEN`. -/
def packetLen : Nat := 3

/-- `MAX_QUEUED_BYTES`; `mouse.rs:60`. -/
def maxQueuedBytes : Nat := 4096 * packetLen

/-- `clamp` to the range of `i8`; `mouse.rs:82-83`. -/
def clampI8 (x : Int32) : Int8 := (max (-128) (min x 127)).toInt8

/-- The packet of an event; `mouse.rs:82-97`. -/
def packet (dx dy : Int32) (buttons : UInt32) : List UInt8 :=
  [0x08 ||| (buttons &&& 7).toUInt8 ||| (if clampI8 dx < 0 then 0x10 else 0) |||
      (if clampI8 dy < 0 then 0x20 else 0), (clampI8 dx).toUInt8, (clampI8 dy).toUInt8]

/-- `inject_event` and `read_into`. -/
inductive Call
  | inject (dx dy : Int32) (buttons : UInt32)
  | read (len : Nat)

/-- The queue, what was read of it and the packets that were injected. -/
structure Device where
  queue : List UInt8
  received : List UInt8
  injected : List (List UInt8)

namespace Device

variable (d : Device)

/-- The device after a call; `mouse.rs:99-110, 122-135`. -/
def apply : Call → Device
  | .inject dx dy buttons =>
    { d with
      queue := Overrun.makeRoom maxQueuedBytes packetLen packetLen d.queue ++ packet dx dy buttons
      injected := d.injected ++ [packet dx dy buttons] }
  | .read len => { d with queue := d.queue.drop len, received := d.received ++ d.queue.take len }

/-- The device after some calls, the latest first. -/
def after (calls : List Call) : Device := calls.foldr (fun call d => d.apply call) ⟨[], [], []⟩

/-- An event that overflows the queue comes when the reader has read whole packets. -/
def Aligned (call : Call) : Prop :=
  ∀ dx dy buttons, call = .inject dx dy buttons → maxQueuedBytes < d.queue.length + packetLen →
    packetLen ∣ d.received.length

/-- What was read and what is queued are packets that were injected, in their order. -/
def Whole : Prop :=
  (∀ p ∈ d.injected, p.length = packetLen) ∧
    ∃ ps, ps <+ d.injected ∧ d.received ++ d.queue = ps.flatten

variable {d} {ps : List (List UInt8)}

/-- Packets can be cut off at whole packets. -/
lemma take_flatten (h : ∀ p ∈ ps, p.length = packetLen) (k : Nat) :
    ps.flatten.take (packetLen * k) = (ps.take k).flatten ∧
      ps.flatten.drop (packetLen * k) = (ps.drop k).flatten := by
  induction ps generalizing k with
  | nil => simp
  | cons p ps ih =>
    obtain ⟨hp, hps⟩ := forall_mem_cons.mp h
    cases k with
    | zero => simp
    | succ k => simp [Nat.mul_succ, take_append, drop_append, hp, ih hps k]

lemma Whole.apply {call : Call} (h : d.Whole) (haligned : d.Aligned call) :
    (d.apply call).Whole := by
  obtain ⟨hlen, ps, hsub, hps⟩ := h
  cases call with
  | read len => exact ⟨hlen, ps, hsub, by simp [Device.apply, hps]⟩
  | inject dx dy buttons =>
    have hroom : ∃ qs, qs <+ d.injected ∧
        d.received ++ Overrun.makeRoom maxQueuedBytes packetLen packetLen d.queue = qs.flatten := by
      by_cases hfull : maxQueuedBytes < d.queue.length + packetLen
      · obtain ⟨k, hk⟩ := haligned dx dy buttons rfl hfull
        have hsuffix : Overrun.makeRoom maxQueuedBytes packetLen packetLen d.queue <:+ _ :=
          Overrun.makeRoom_suffix
        have hmod : d.queue.length % packetLen < packetLen := Nat.mod_lt _ (by decide)
        obtain ⟨-, j, hj⟩ := (Overrun.makeRoom_whole_iff (q := d.queue) (by decide)).mpr
          (show packetLen + d.queue.length % packetLen ≤ maxQueuedBytes by
            unfold maxQueuedBytes; omega)
        have hpieces := take_flatten fun p hp => hlen p (hsub.subset hp)
        refine ⟨ps.take k ++ ps.drop (k + j), ?_, ?_⟩
        · refine .trans ?_ hsub
          nth_rewrite 3 [← take_append_drop k ps]
          rw [← drop_drop]
          exact (drop_sublist _ _).append_left _
        · rw [flatten_append, ← (hpieces k).1, ← (hpieces _).2, ← hps, Nat.mul_add, ← hk, ← hj,
            take_left, drop_length_add_append, ← suffix_iff_eq_drop.mp hsuffix]
      · rw [Overrun.makeRoom_of_le (Nat.not_lt.mp hfull)]
        exact ⟨ps, hsub, hps⟩
    obtain ⟨qs, hqs, heq⟩ := hroom
    refine ⟨forall_mem_append.mpr ⟨hlen, by simp [packet, packetLen]⟩, _, hqs.append_right _, ?_⟩
    rw [flatten_append, ← heq]
    simp [Device.apply]

lemma after_cons {call : Call} {calls : List Call} :
    after (call :: calls) = (after calls).apply call := rfl

/-- The queue while it is filled. -/
lemma after_replicate {n : Nat} (hn : n < 4096) :
    after (replicate n (.inject 2 0 0) ++ [.inject 1 0 1]) =
      ⟨[9, 1, 0] ++ (replicate n [8, 2, 0]).flatten, [], [9, 1, 0] :: replicate n [8, 2, 0]⟩ := by
  induction n with
  | zero => simp [after, apply, Overrun.makeRoom_of_le, maxQueuedBytes, packetLen]; decide
  | succ n ih =>
    have hpacket : packet 2 0 0 = [8, 2, 0] := by decide
    rw [replicate_succ, cons_append, after_cons, ih (by omega), apply,
      Overrun.makeRoom_of_le, hpacket]
    · simp [replicate_succ']
    · simp [maxQueuedBytes, packetLen]
      omega

end Device

end Kandelo.Kernel.Mouse
