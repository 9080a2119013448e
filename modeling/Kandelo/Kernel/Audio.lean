import Kandelo.Lib.History
import Kandelo.Lib.Overrun

/-!
# The audio ring

What is written to `/dev/dsp` waits for the host in a ring (`crates/kernel/src/audio.rs`). An
overrun drops frames, so that the host never gets the second half of a frame first; but an
incomplete frame is dropped too, and a long write is kept whole.
-/

namespace Kandelo.Kernel.Audio

open Lib List

/-- `MAX_QUEUED_BYTES`; `audio.rs:70`. -/
def maxQueuedBytes : Nat := 256 * 1024

/-- `frame_bytes`; `audio.rs:60-62`. -/
def frameBytes (channels : Nat) : Nat := 2 * max channels 1

variable (channels : Nat)

/-- `write_pcm`; `audio.rs:90-109`. -/
def writePcm (ring data : List UInt8) : List UInt8 :=
  Overrun.makeRoom maxQueuedBytes (frameBytes channels) data.length ring ++ data

/-- `drain_into`: how many bytes are taken from the front; `audio.rs:114-129`. -/
def drainInto (ring : List UInt8) (want : Nat) : Nat :=
  min want ring.length / frameBytes channels * frameBytes channels

/-- A call of the process, or of the host. -/
inductive Call
  | write (data : List UInt8)
  | drain (want : Nat)

/-- The ring, and all that was written. -/
structure Stream where
  ring : List UInt8
  written : List UInt8

/-- The stream after a call. -/
def Stream.apply (s : Stream) : Call → Stream
  | .write data => ⟨writePcm channels s.ring data, s.written ++ data⟩
  | .drain want => { s with ring := s.ring.drop (drainInto channels s.ring want) }

/-- The stream after some calls, the latest first. -/
def after (calls : List Call) : Stream := calls.foldr (fun call s => s.apply channels call) ⟨[], []⟩

/-- The ring is not too long, and is the end of what was written, from the start of a frame on. -/
def Stream.Framed (s : Stream) : Prop :=
  s.ring <:+ s.written ∧ s.ring.length ≤ maxQueuedBytes ∧
    frameBytes channels ∣ s.written.length - s.ring.length

/-- A write fits in beside an incomplete frame. -/
def Stream.Fits (s : Stream) (call : Call) : Prop :=
  ∀ data, call = .write data → data.length + s.ring.length % frameBytes channels ≤ maxQueuedBytes

variable {channels} {s : Stream}

/-- One call keeps the ring framed exactly if it fits. -/
lemma framed_apply_iff (call : Call) (h : s.Framed channels) :
    (s.apply channels call).Framed channels ↔ s.Fits channels call := by
  obtain ⟨hring, hmax, hdvd⟩ := h
  have hle := hring.length_le
  cases call with
  | drain want =>
    have hdrain : drainInto channels s.ring want ≤ s.ring.length :=
      (Nat.div_mul_le_self _ _).trans (Nat.min_le_right _ _)
    refine iff_of_true ⟨(drop_suffix _ _).trans hring, ?_, ?_⟩ (by rintro _ ⟨⟩)
    all_goals simp only [Stream.apply, length_drop]
    · omega
    · rw [show s.written.length - (s.ring.length - drainInto channels s.ring want) =
        s.written.length - s.ring.length + drainInto channels s.ring want by omega]
      exact Nat.dvd_add hdvd (Nat.dvd_mul_left _ _)
  | write data =>
    have hfits : s.Fits channels (.write data) ↔
        data.length + s.ring.length % frameBytes channels ≤ maxQueuedBytes :=
      ⟨fun h => h data rfl, by rintro h _ ⟨⟩; exact h⟩
    have hroom : Overrun.makeRoom maxQueuedBytes (frameBytes channels) data.length s.ring <:+ _ :=
      Overrun.makeRoom_suffix
    have hle' := hroom.length_le
    rw [hfits, ← Overrun.makeRoom_whole_iff (by unfold frameBytes; omega)]
    simp only [Stream.Framed, Stream.apply, writePcm, length_append]
    obtain ⟨taken, htaken⟩ := hroom.trans hring
    rw [and_iff_right ⟨taken, by rw [← append_assoc, htaken]⟩]
    refine and_congr_right fun _ => ?_
    generalize Overrun.makeRoom _ _ _ s.ring = left at *
    rw [Nat.add_sub_add_right, show s.written.length - left.length =
      s.written.length - s.ring.length + (s.ring.length - left.length) by omega]
    exact Nat.dvd_add_right hdvd

/-- At every moment the ring is framed, if and only if every write fits in beside the incomplete
frame that is there. -/
theorem framed_iff_fits (channels : Nat) (calls : List Call) :
    (∀ earlier, earlier <:+ calls → (after channels earlier).Framed channels) ↔
      Always (fun call earlier => (after channels earlier).Fits channels call) calls := by
  induction calls with
  | nil => simp [after, Stream.Framed]
  | cons call calls ih =>
    rw [Always.cons_iff, ← ih]
    simp only [suffix_cons_iff, forall_eq_or_imp]
    exact and_congr_left fun h => framed_apply_iff call (h calls (suffix_refl _))

/-- Half a sample waits, and a write that fills the ring drops it: what the host gets starts in the
middle of a sample. -/
theorem half_sample_dropped :
    after 1 [.write (replicate maxQueuedBytes 0), .write [1]] =
        ⟨replicate maxQueuedBytes 0, [1] ++ replicate maxQueuedBytes 0⟩ ∧ ¬ frameBytes 1 ∣ 1 := by
  have hnil (need : Nat) :
      Overrun.makeRoom maxQueuedBytes (frameBytes 1) need ([] : List UInt8) = [] :=
    suffix_nil.mp Overrun.makeRoom_suffix
  have hdrop : Overrun.makeRoom maxQueuedBytes (frameBytes 1) maxQueuedBytes
      [(1 : UInt8)] = [] := by
    rw [Overrun.makeRoom, if_pos (by simp [frameBytes])]
    exact hnil _
  exact ⟨by simp [after, Stream.apply, writePcm, hnil, hdrop], by decide⟩

end Kandelo.Kernel.Audio
