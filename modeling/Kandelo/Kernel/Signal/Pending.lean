import Mathlib.Data.List.Nodup
import Kandelo.Kernel.Signal.State

/-!
# Pending masks and their queues

A pending set is *synced* when its mask and its queue describe the same
signals. Removing the instances of a timer examines a single signal number, so it keeps the
two in step only while every instance of a timer carries that timer's own signal; a *sound*
set records this ownership as well, against the signal numbers of the live timers.
-/

namespace Kandelo.Kernel.Signal

open Lib List

namespace PendingSet

variable {s t : Nat} {signo' : Nat → Option Nat} {queue : List RtSigEntry} {e : RtSigEntry}

/-- An instance of the signal that no timer owns. -/
def plain (signum : Nat) (e : RtSigEntry) : Bool := e.signum = signum && e.timerId.isNone

/-- The mask and the queue describe the same signals. -/
structure Synced (q : PendingSet) : Prop where
  /-- Every instance carries a signal number. -/
  valid : ∀ e ∈ q.rtQueue, Valid e.signum
  /-- A bit is set exactly when an instance is queued. -/
  pending_iff : ∀ s, Valid s → (SigMask.Has q.pending s ↔ ∃ e ∈ q.rtQueue, e.signum = s)
  /-- Standard signals coalesce. -/
  coalesced : ∀ s, s < sigRtMin → q.rtQueue.countP (plain s) ≤ 1

/-- Synced, and the instances of each timer carry the signal number `signo` gives it. -/
structure Sound (signo : Nat → Option Nat) (q : PendingSet) : Prop extends Synced q where
  owned : ∀ e ∈ q.rtQueue, ∀ t, e.timerId = some t → signo t = some e.signum

variable {signo : Nat → Option Nat} {q : PendingSet}

lemma queued_iff : q.queued s = true ↔ ∃ e ∈ q.rtQueue, e.signum = s := by simp [queued]

lemma sound_empty : Sound signo empty where
  valid := by simp [empty]
  pending_iff s _ := iff_of_false (has_zero s) (by simp [empty])
  coalesced := by simp [empty]
  owned := by simp [empty]

lemma Sound.of_signo (h : Sound signo q)
    (hs : ∀ e ∈ q.rtQueue, ∀ t, e.timerId = some t → signo' t = signo t) : Sound signo' q where
  toSynced := h.toSynced
  owned e he t ht := by rw [hs e he t ht]; exact h.owned e he t ht

/-! ### Removal -/

lemma Synced.shrink (h : Synced q) (hs : Valid s)
    (hsub : queue.Sublist q.rtQueue) (hother : ∀ e ∈ q.rtQueue, e.signum ≠ s → e ∈ queue) :
    Synced ({ q with rtQueue := queue }.clearBitIfDrained s) := by
  have hvalid : ∀ e ∈ queue, Valid e.signum := fun e he => h.valid e (hsub.subset he)
  have hcoal : ∀ t, t < sigRtMin → queue.countP (plain t) ≤ 1 :=
    fun t ht => Nat.le_trans hsub.countP_le (h.coalesced t ht)
  -- away from `s` the queue holds the same signals as before
  have hkeep : ∀ t, t ≠ s → ((∃ e ∈ q.rtQueue, e.signum = t) ↔ ∃ e ∈ queue, e.signum = t) := by
    intro t hne
    constructor
    · rintro ⟨e, he, rfl⟩
      exact ⟨e, hother e he hne, rfl⟩
    · rintro ⟨e, he, rfl⟩
      exact ⟨e, hsub.subset he, rfl⟩
  unfold clearBitIfDrained
  split
  · next hq =>
    refine ⟨hvalid, fun t ht => ?_, hcoal⟩
    by_cases hts : t = s
    · subst hts
      obtain ⟨e, he, hes⟩ := queued_iff.mp hq
      exact iff_of_true ((h.pending_iff t ht).mpr ⟨e, hsub.subset he, hes⟩) ⟨e, he, hes⟩
    · rw [← hkeep t hts]
      exact h.pending_iff t ht
  · next hq =>
    refine ⟨hvalid, fun t ht => ?_, hcoal⟩
    rw [has_and_not_sigBit hs ht]
    by_cases hts : t = s
    · subst hts
      exact iff_of_false (fun hb => hb.2 rfl) (fun he => hq (queued_iff.mpr he))
    · rw [← hkeep t hts, ← h.pending_iff t ht]
      exact and_iff_left (Ne.symm hts)

@[simp] lemma rtQueue_clearBitIfDrained (s : Nat) :
    (q.clearBitIfDrained s).rtQueue = q.rtQueue := by
  unfold clearBitIfDrained
  split <;> rfl

lemma Sound.shrink (h : Sound signo q) (hs : Valid s)
    (hsub : queue.Sublist q.rtQueue) (hother : ∀ e ∈ q.rtQueue, e.signum ≠ s → e ∈ queue) :
    Sound signo ({ q with rtQueue := queue }.clearBitIfDrained s) where
  toSynced := h.toSynced.shrink hs hsub hother
  owned e he := h.owned e (hsub.subset (by simpa using he))

lemma Sound.consumePendingInfo (h : Sound signo q) (s : Nat) :
    Sound signo (q.consumePendingInfo s).2 := by
  unfold PendingSet.consumePendingInfo
  split
  · exact h
  next hs =>
  have hv : Valid s := by unfold Valid; unfold nsig at hs; omega
  apply h.shrink hv eraseP_sublist
  intro e he hne
  exact (mem_eraseP_of_neg (by simpa using hne)).mpr he

lemma Sound.removeTimerInfo (h : Sound signo q) (t : Nat) :
    Sound signo (q.removeTimerInfo t).2 := by
  unfold PendingSet.removeTimerInfo
  split
  · exact h
  next first hfirst =>
  have hmem : first ∈ q.rtQueue := mem_of_find?_eq_some hfirst
  have htimer : first.timerId = some t := by simpa using find?_some hfirst
  apply h.shrink (h.valid first hmem) filter_sublist
  intro e he hne
  -- an instance of another signal is not this timer's
  have hother : e.timerId ≠ some t := by
    intro het
    have := (h.owned e he t het).symm.trans (h.owned first hmem t htimer)
    exact hne (Option.some.inj this)
  exact mem_filter.mpr ⟨he, by simpa using hother⟩

lemma clearPending_eq (hs : Valid s) :
    q.clearPending s =
      { q with rtQueue := q.rtQueue.filter fun e => e.signum ≠ s }.clearBitIfDrained s := by
  unfold Valid at hs
  have hdrained :
      queued { q with rtQueue := q.rtQueue.filter fun e => e.signum ≠ s } s = false := by
    simp [queued]
  unfold clearPending clearBitIfDrained nsig
  rw [if_pos (by omega), hdrained]
  rfl

lemma Sound.clearPending (h : Sound signo q) (s : Nat) : Sound signo (q.clearPending s) := by
  by_cases hs : Valid s
  · rw [clearPending_eq hs]
    apply h.shrink hs filter_sublist
    intro e he hne
    exact mem_filter.mpr ⟨he, by simpa using hne⟩
  · unfold PendingSet.clearPending
    rw [if_neg (by unfold Valid at hs; unfold nsig; omega)]
    exact h

/-! ### Generation -/

lemma Synced.append (h : Synced q) (hv : Valid e.signum)
    (hnew : e.timerId = none → e.signum < sigRtMin → ∀ x ∈ q.rtQueue, plain e.signum x = false) :
    Synced ((q.push e).setBit e.signum) where
  valid x hx := by
    rcases mem_append.mp hx with hx | hx
    · exact h.valid x hx
    · rw [mem_singleton.mp hx]
      exact hv
  pending_iff s hs := by
    show SigMask.Has (q.pending ||| sigBit e.signum) s ↔ ∃ x ∈ q.rtQueue ++ [e], x.signum = s
    rw [has_or_sigBit hv hs, h.pending_iff s hs]
    simp
  coalesced s hs := by
    show (q.rtQueue ++ [e]).countP (plain s) ≤ 1
    rw [countP_append, countP_singleton]
    split
    · next he =>
      unfold plain at he
      simp only [Bool.and_eq_true, decide_eq_true_eq, Option.isNone_iff_eq_none] at he
      obtain ⟨rfl, hnone⟩ := he
      have hzero : q.rtQueue.countP (plain e.signum) = 0 := by
        rw [countP_eq_zero]
        intro x hx
        simp [hnew hnone hs x hx]
      omega
    · exact h.coalesced s hs

lemma Sound.append (h : Sound signo q) (hv : Valid e.signum)
    (hnew : e.timerId = none → e.signum < sigRtMin → ∀ x ∈ q.rtQueue, plain e.signum x = false)
    (howned : ∀ t, e.timerId = some t → signo t = some e.signum) :
    Sound signo ((q.push e).setBit e.signum) where
  toSynced := h.toSynced.append hv hnew
  owned x hx := by
    rcases mem_append.mp hx with hx | hx
    · exact h.owned x hx
    · rw [mem_singleton.mp hx]
      exact howned

lemma Sound.amend (h : Sound signo q) {f : RtSigEntry → RtSigEntry}
    {before after : List RtSigEntry} (hq : q.rtQueue = before ++ e :: after)
    (hsig : (f e).signum = e.signum) (htimer : (f e).timerId = e.timerId) :
    Sound signo ({ q with rtQueue := before ++ f e :: after }.setBit e.signum) := by
  have hmem : e ∈ q.rtQueue := by simp [hq]
  have hv : Valid e.signum := h.valid e hmem
  -- membership facts about `f e` follow from those about `e`
  have hlift : ∀ x ∈ before ++ f e :: after,
      ∃ y ∈ q.rtQueue, x.signum = y.signum ∧ x.timerId = y.timerId := by
    intro x hx
    simp only [mem_append, mem_cons] at hx
    rcases hx with hx | rfl | hx
    · exact ⟨x, by simp [hq, hx], rfl, rfl⟩
    · exact ⟨e, hmem, hsig, htimer⟩
    · exact ⟨x, by simp [hq, hx], rfl, rfl⟩
  refine ⟨⟨?_, ?_, ?_⟩, ?_⟩
  · intro x hx
    obtain ⟨y, hy, hxy, -⟩ := hlift x hx
    rw [hxy]
    exact h.valid y hy
  · intro s hs
    show SigMask.Has (q.pending ||| sigBit e.signum) s ↔ ∃ x ∈ before ++ f e :: after, x.signum = s
    rw [has_or_sigBit hv hs, h.pending_iff s hs, hq]
    simp only [mem_append, mem_cons, or_and_right, exists_or, exists_eq_left, hsig]
    rw [or_iff_left_iff_imp]
    exact fun hes => .inr (.inl hes)
  · intro s hs
    have hcount := h.coalesced s hs
    have hplain : plain s (f e) = plain s e := by unfold plain; rw [hsig, htimer]
    show (before ++ f e :: after).countP (plain s) ≤ 1
    rw [hq] at hcount
    simpa [countP_cons, hplain] using hcount
  · intro x hx t ht
    obtain ⟨y, hy, hxy, hxt⟩ := hlift x hx
    rw [hxy]
    exact h.owned y hy t (hxt ▸ ht)

lemma Sound.generate (h : Sound signo q) (hs : Valid s) (siValue siCode : Int) :
    Sound signo (q.generate s siValue siCode) := by
  unfold PendingSet.generate
  split
  · next hrt => exact h.append hs (fun _ hlt => absurd hrt (by simpa using hlt)) (by simp)
  dsimp only
  split
  · next rtQueue hsome =>
    obtain ⟨before, e, after, hq, he, rfl⟩ := Slice.modifyFirst_eq_some hsome
    have hes : e.signum = s := by simpa using (Bool.and_eq_true_iff.mp he).1
    subst hes
    exact h.amend hq (by split <;> rfl) (by split <;> rfl)
  · next hnone =>
    exact h.append hs (fun _ _ x hx => Slice.modifyFirst_eq_none.mp hnone x hx) (by simp)

lemma Sound.raiseTimer (h : Sound signo q) (hsigno : signo t = some s)
    (siValue : Int) : Sound signo (q.raiseTimer s siValue t).2 := by
  unfold PendingSet.raiseTimer
  split
  · exact h
  next hs =>
  have hv : Valid s := by unfold Valid; unfold nsig at hs; omega
  -- a synced set never has the bit without an instance, so no stand-in is queued
  rw [if_neg]
  · exact h.append (e := ⟨s, siValue, -2, some t⟩) hv (by simp) (by simpa using hsigno)
  rintro ⟨-, hbit, hno⟩
  have := queued_iff.mpr ((h.pending_iff s hv).mp hbit)
  simp [this] at hno

/-! ### Timers left behind by an image -/

lemma rtQueue_removeTimerInfo (t : Nat) :
    (q.removeTimerInfo t).2.rtQueue = q.rtQueue.filter fun e => e.timerId ≠ some t := by
  unfold removeTimerInfo
  split
  · next hnone =>
    rw [eq_comm, filter_eq_self]
    intro e he
    simpa using find?_eq_none.mp hnone e he
  · simp

@[simp] lemma rtQueue_foldl_clearBitIfDrained (signums : List Nat) :
    (signums.foldl clearBitIfDrained q).rtQueue = q.rtQueue := by
  induction signums generalizing q with
  | nil => rfl
  | cons s signums ih => rw [foldl_cons, ih, rtQueue_clearBitIfDrained]

lemma has_foldl_clearBitIfDrained {signums : List Nat} (hv : ∀ s ∈ signums, Valid s)
    (ht : Valid t) :
    SigMask.Has (signums.foldl clearBitIfDrained q).pending t ↔
      SigMask.Has q.pending t ∧ (t ∈ signums → q.queued t = true) := by
  induction signums generalizing q with
  | nil => simp
  | cons s signums ih =>
    have hq : (q.clearBitIfDrained s).queued t = q.queued t := by simp [queued]
    rw [foldl_cons, ih (fun x hx => hv x (mem_cons_of_mem s hx)), hq]
    have hbit : SigMask.Has (q.clearBitIfDrained s).pending t ↔
        SigMask.Has q.pending t ∧ (t = s → q.queued t = true) := by
      unfold clearBitIfDrained
      split
      · next hqs => exact (and_iff_left (by rintro rfl; exact hqs)).symm
      next hqs =>
      rw [has_and_not_sigBit (hv s mem_cons_self) ht]
      refine and_congr_right fun _ => ⟨fun hne heq => absurd heq.symm hne, ?_⟩
      rintro himp rfl
      exact hqs (himp rfl)
    rw [hbit, mem_cons]
    constructor
    · rintro ⟨⟨hp, h1⟩, h2⟩
      exact ⟨hp, Or.rec h1 h2⟩
    · rintro ⟨hp, h⟩
      exact ⟨⟨hp, fun he => h (.inl he)⟩, fun hm => h (.inr hm)⟩

lemma Synced.discardTimers (h : Synced q) :
    Sound signo' (((q.rtQueue.filter fun e => e.timerId.isSome).map (·.signum)).foldl
      clearBitIfDrained { q with rtQueue := q.rtQueue.filter fun e => e.timerId.isNone }) where
  valid e he := by
    rw [rtQueue_foldl_clearBitIfDrained] at he
    exact h.valid e (mem_filter.mp he).1
  pending_iff s hs := by
    have hv : ∀ x ∈ (q.rtQueue.filter fun e => e.timerId.isSome).map (·.signum), Valid x := by
      intro x hx
      obtain ⟨e, he, rfl⟩ := mem_map.mp hx
      exact h.valid e (mem_filter.mp he).1
    rw [has_foldl_clearBitIfDrained hv hs, rtQueue_foldl_clearBitIfDrained, h.pending_iff s hs]
    constructor
    · rintro ⟨⟨e, he, rfl⟩, hdrained⟩
      cases htimer : e.timerId with
      | none => exact ⟨e, mem_filter.mpr ⟨he, by simp [htimer]⟩, rfl⟩
      | some =>
        -- the signal was examined, so some other instance of it is left
        apply queued_iff.mp
        apply hdrained
        exact mem_map.mpr ⟨e, mem_filter.mpr ⟨he, by simp [htimer]⟩, rfl⟩
    · rintro ⟨e, he, rfl⟩
      exact ⟨⟨e, (mem_filter.mp he).1, rfl⟩, fun _ => queued_iff.mpr ⟨e, he, rfl⟩⟩
  coalesced s hs := by
    rw [rtQueue_foldl_clearBitIfDrained]
    exact Nat.le_trans filter_sublist.countP_le (h.coalesced s hs)
  owned e he t ht := by
    rw [rtQueue_foldl_clearBitIfDrained] at he
    have := (mem_filter.mp he).2
    simp [ht] at this

lemma sound_ofMask {pending : SigMask} : Sound signo
    ⟨pending, ((range' 1 64).filter fun sig => decide (SigMask.Has pending sig)).map
      fun sig => ⟨sig, 0, 0, none⟩⟩ where
  valid e he := by
    obtain ⟨s, hs, rfl⟩ := mem_map.mp he
    have := mem_range'_1.mp (mem_filter.mp hs).1
    unfold Valid
    dsimp only
    omega
  pending_iff s hs := by
    have hmem : s ∈ range' 1 64 := mem_range'_1.mpr (by unfold Valid at hs; omega)
    simp [hmem, -mem_range'_1]
  coalesced s _ := by
    have hnodup : ((range' 1 64).filter fun sig => decide (SigMask.Has pending sig)).Nodup :=
      List.Nodup.filter _ nodup_range'
    rw [countP_map]
    calc _ = count s _ := countP_congr (by simp [plain])
      _ ≤ 1 := nodup_iff_count_le_one.mp hnodup s
  owned e he t ht := by
    obtain ⟨s, -, rfl⟩ := mem_map.mp he
    cases ht

end PendingSet

end Kandelo.Kernel.Signal
