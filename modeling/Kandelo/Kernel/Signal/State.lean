import Kandelo.Lib.Slice

/-!
# Pending signal sets

Signal masks, dispositions and the two pending sets of
`crates/kernel/src/signal.rs`: the process-wide `SignalState` and the directed
`PerThreadSignalState`. Both keep a bit mask next to a queue of instances and share their
queue operations, which are written once on the common pair of fields.
-/

namespace Kandelo.Kernel.Signal

open Lib

/-- One more than the largest signal number; `crates/shared/src/lib.rs`. -/
def nsig : Nat := 65

/-- First real-time signal; `signal.rs:9`. -/
def sigRtMin : Nat := 32

variable (signum : Nat)

/-- A number of a signal. -/
def Valid : Prop := 1 ≤ signum ∧ signum ≤ 64

instance (signum : Nat) : Decidable (Valid signum) := inferInstanceAs (Decidable (_ ∧ _))

/-! ### Masks -/

/-- A `u64` signal mask; signal `n` has bit `n - 1`. -/
abbrev SigMask := BitVec 64

/-- Mask of one signal, empty for an invalid number; `signal.rs:17-23`. -/
def sigBit : SigMask :=
  if signum = 0 ∨ signum ≥ 65 then 0 else BitVec.twoPow 64 (signum - 1)

variable (mask : SigMask)

/-- The mask has the signal's bit, `mask & sig_bit(signum) != 0`. -/
def SigMask.Has (signum : Nat) : Prop := mask &&& sigBit signum ≠ 0

instance (mask : SigMask) (signum : Nat) : Decidable (SigMask.Has mask signum) :=
  inferInstanceAs (Decidable (_ ≠ _))

/-- Number of the lowest signal in a mask, `trailing_zeros() + 1`; 65 for the empty mask. -/
def lowestSignal : Nat := (((List.range 64).find? mask.getLsbD).getD 64) + 1

lemma sigBit_eq {signum : Nat} (h : Valid signum) :
    sigBit signum = BitVec.twoPow 64 (signum - 1) := by
  unfold Valid at h
  exact if_neg (by omega)

variable {mask : SigMask}

lemma has_iff {signum : Nat} (h : Valid signum) :
    SigMask.Has mask signum ↔ mask.getLsbD (signum - 1) = true := by
  have hlt : signum - 1 < 64 := by unfold Valid at h; omega
  have hne : ¬ BitVec.twoPow 64 (signum - 1) = 0#64 := by
    intro hz
    have hbit := congrArg (fun m => m.getLsbD (signum - 1)) hz
    simp [hlt] at hbit
  unfold SigMask.Has
  rw [sigBit_eq h, BitVec.and_twoPow]
  cases hbit : mask.getLsbD (signum - 1) <;> simp [hne]

lemma has_zero : ¬ SigMask.Has 0 signum := by simp [SigMask.Has]

lemma bit_decide {s t : Nat} (hs : Valid s) (ht : Valid t) :
    (decide (s - 1 < 64) && decide (s - 1 = t - 1)) = decide (s = t) := by
  unfold Valid at hs ht
  rw [← Bool.decide_and, decide_eq_decide]
  omega

lemma has_or_sigBit {s t : Nat} (hs : Valid s) (ht : Valid t) :
    SigMask.Has (mask ||| sigBit s) t ↔ SigMask.Has mask t ∨ s = t := by
  rw [has_iff ht, has_iff ht, sigBit_eq hs]
  simp [bit_decide hs ht]

lemma has_and_not_sigBit {s t : Nat} (hs : Valid s) (ht : Valid t) :
    SigMask.Has (mask &&& ~~~ sigBit s) t ↔ SigMask.Has mask t ∧ s ≠ t := by
  rw [has_iff ht, has_iff ht, sigBit_eq hs]
  have hlt : t - 1 < 64 := by unfold Valid at ht; omega
  simp only [BitVec.getLsbD_and, BitVec.getLsbD_not, BitVec.getLsbD_twoPow, bit_decide hs ht]
  simp [hlt]

/-! ### Dispositions -/

/-- Configured handler of a signal; `signal.rs:27-31`. -/
inductive SignalHandler
  | default
  | ignore
  | handler (ptr : Nat)
  deriving DecidableEq

/-- Handler with its flags and mask; `signal.rs:34-39`. -/
structure SignalAction where
  handler : SignalHandler
  flags : Nat
  mask : SigMask

/-- Initial action; `signal.rs:41-49`. -/
def SignalAction.default : SignalAction := ⟨.default, 0, 0⟩

/-- Default effect of a signal; `signal.rs:52-59`. -/
inductive DefaultAction
  | terminate
  | ignore
  | coreDump
  | stop
  | continue
  deriving DecidableEq

/-- `SIGKILL`. -/
def sigKill : Nat := 9
/-- `SIGCHLD`. -/
def sigChld : Nat := 17
/-- `SIGCONT`. -/
def sigCont : Nat := 18
/-- `SIGSTOP`. -/
def sigStop : Nat := 19
/-- `SIGTSTP`. -/
def sigTstp : Nat := 20
/-- `SIGTTIN`. -/
def sigTtin : Nat := 21
/-- `SIGTTOU`. -/
def sigTtou : Nat := 22
/-- `SIGWINCH`. -/
def sigWinch : Nat := 28

/-- Default action by signal number; `signal.rs:62-74`. -/
def defaultAction : DefaultAction :=
  if signum = sigChld ∨ signum = sigWinch then .ignore
  else if signum = sigCont then .continue
  else if signum = sigStop ∨ signum = sigTstp ∨ signum = sigTtin ∨ signum = sigTtou then .stop
  else .terminate

/-- Setting this handler discards pending instances; `signal.rs:231-237`. -/
def shouldDiscardPending : SignalHandler → Bool
  | .ignore => true
  | .default => defaultAction signum = .ignore
  | .handler _ => false

/-! ### Pending sets -/

/-- One queued instance; `signal.rs:240-247`. -/
structure RtSigEntry where
  signum : Nat
  siValue : Int
  siCode : Int
  timerId : Option Nat

/-- What a consumed instance reports; `signal.rs:250-255`. -/
structure PendingSignalInfo where
  siValue : Int
  siCode : Int
  timerId : Option Nat

/-- Information of a signal with no queued instance. -/
def PendingSignalInfo.none : PendingSignalInfo := ⟨0, 0, Option.none⟩

/-- The `pending` and `rt_queue` fields shared by both kinds of state. -/
structure PendingSet where
  pending : SigMask
  rtQueue : List RtSigEntry

namespace PendingSet

/-- Nothing is pending. -/
def empty : PendingSet := ⟨0, []⟩

variable (q : PendingSet) (signum : Nat)

/-- An instance of the signal is queued. -/
def queued : Bool := q.rtQueue.any fun e => e.signum = signum

/-- Clear the bit once the last instance is gone, `*pending &= !sig_bit(signum)`. -/
def clearBitIfDrained : PendingSet :=
  if q.queued signum then q else { q with pending := q.pending &&& ~~~ sigBit signum }

/-- Consume the oldest instance; `signal.rs:257-281`. -/
def consumePendingInfo : PendingSignalInfo × PendingSet :=
  if signum = 0 ∨ signum ≥ nsig then (.none, q)
  else
    let info :=
      match q.rtQueue.find? fun e => e.signum = signum with
      | some e => ⟨e.siValue, e.siCode, e.timerId⟩
      | none => .none
    let rest : PendingSet := { q with rtQueue := q.rtQueue.eraseP fun e => e.signum = signum }
    (info, rest.clearBitIfDrained signum)

/-- Drop a timer's instances; `signal.rs:283-301`. Only the number of the
first of them has its bit examined. -/
def removeTimerInfo (timerId : Nat) : Bool × PendingSet :=
  match q.rtQueue.find? fun e => e.timerId = some timerId with
  | none => (false, q)
  | some e =>
    let rest : PendingSet :=
      { q with rtQueue := q.rtQueue.filter fun e => e.timerId ≠ some timerId }
    (true, rest.clearBitIfDrained e.signum)

/-- Queue an instance. -/
def push (entry : RtSigEntry) : PendingSet :=
  { q with rtQueue := q.rtQueue ++ [entry] }

/-- Set the signal's bit, `pending |= sig_bit(signum)`. -/
def setBit : PendingSet :=
  { q with pending := q.pending ||| sigBit signum }

/-- Queue a generated signal: real-time signals always add an instance, standard ones coalesce
with their non-timer instance; `signal.rs:352-385,589-625`. -/
def generate (siValue siCode : Int) : PendingSet :=
  let entry : RtSigEntry := ⟨signum, siValue, siCode, none⟩
  let queue :=
    if signum ≥ sigRtMin then q.push entry
    else
      let coalesced := Slice.modifyFirst (fun e => e.signum = signum && e.timerId.isNone)
        (fun e => if siCode ≠ 0 then { e with siValue, siCode } else e) q.rtQueue
      match coalesced with
      | some rtQueue => { q with rtQueue }
      | none => q.push entry
  queue.setBit signum

/-- Queue a timer expiration; `signal.rs:387-410,627-650`. A standard signal
that is pending without an instance first gets one. -/
def raiseTimer (siValue : Int) (timerId : Nat) : Bool × PendingSet :=
  if signum = 0 ∨ signum ≥ nsig then (false, q)
  else
    let q :=
      if signum < sigRtMin ∧ SigMask.Has q.pending signum ∧ q.queued signum = false then
        q.push ⟨signum, 0, 0, none⟩
      else q
    (true, (q.setBit signum).push ⟨signum, siValue, -2, some timerId⟩)

/-- Drop every instance of a signal; `signal.rs:421-426,654-659,687-692`. -/
def clearPending : PendingSet :=
  if signum > 0 ∧ signum < nsig then
    ⟨q.pending &&& ~~~ sigBit signum, q.rtQueue.filter fun e => e.signum ≠ signum⟩
  else q

/-- The signal's bit is set; `signal.rs:442-444,662-667`. -/
def isPending : Bool :=
  signum > 0 && signum < nsig && decide (SigMask.Has q.pending signum)

end PendingSet

/-- Directed signals of one thread; `signal.rs:315-329`. -/
structure PerThreadSignalState extends PendingSet where
  blocked : SigMask
  sigsuspendSavedMask : Option SigMask

namespace PerThreadSignalState

/-- Nothing pending or blocked; `signal.rs:332-339`. -/
def new : PerThreadSignalState := ⟨.empty, 0, none⟩

variable (t : PerThreadSignalState)

/-- Queue a directed signal; `signal.rs:352-385`. -/
def raiseInternal (signum : Nat) (siValue siCode : Int) : Bool × PerThreadSignalState :=
  if signum = 0 ∨ signum ≥ nsig then (false, t)
  else (true, { t with toPendingSet := t.generate signum siValue siCode })

/-- Directed `kill`, `SI_USER`. -/
def raise (signum : Nat) : Bool × PerThreadSignalState :=
  t.raiseInternal signum 0 0

/-- Directed `sigqueue`, `SI_QUEUE`. -/
def raiseWithValue (signum : Nat) (siValue : Int) : Bool × PerThreadSignalState :=
  t.raiseInternal signum siValue (-1)

/-- Consume one instance if its bit is set; `signal.rs:431-440`. -/
def consumeOne (signum : Nat) : Option (Int × Int) × PerThreadSignalState :=
  if t.isPending signum then
    let (info, q) := t.consumePendingInfo signum
    (some (info.siValue, info.siCode), { t with toPendingSet := q })
  else (none, t)

/-- Consume the lowest unblocked signal; `signal.rs:456-467`. -/
def dequeue : Option (Nat × Int × Int) × PerThreadSignalState :=
  let deliverable := t.pending &&& ~~~ t.blocked
  if deliverable = 0 then (none, t)
  else
    let signum := lowestSignal deliverable
    if signum ≥ nsig then (none, t)
    else
      match t.consumeOne signum with
      | (some (siValue, siCode), t) => (some (signum, siValue, siCode), t)
      | (none, t) => (none, t)

end PerThreadSignalState

/-- Process-wide signals; `signal.rs:471-482`. The action table is indexed by
signal number. -/
structure SignalState extends PendingSet where
  actions : Nat → SignalAction
  blocked : SigMask

namespace SignalState

/-- Initial state; `signal.rs:485-492`. -/
def new : SignalState := ⟨.empty, fun _ => .default, 0⟩

variable (s : SignalState) (signum : Nat)

/-- Configured handler; `signal.rs:495-500`. -/
def getHandler : SignalHandler :=
  if signum = 0 ∨ signum ≥ 65 then .default else (s.actions signum).handler

/-- Configured action; `signal.rs:528-533`. -/
def getAction : SignalAction :=
  if signum = 0 ∨ signum ≥ 65 then .default else s.actions signum

/-- Install an action; `signal.rs:538-553`. -/
def setAction (action : SignalAction) : Option (SignalAction × SignalState) :=
  if signum = 0 ∨ signum ≥ 65 then none
  else if signum = sigKill ∨ signum = sigStop then none
  else
    let old := s.actions signum
    let s := { s with actions := fun i => if i = signum then action else s.actions i }
    if shouldDiscardPending signum action.handler then
      some (old, { s with toPendingSet := s.clearPending signum })
    else some (old, s)

/-- Replace the handler of an action, keeping flags and mask;
`signal.rs:506-525`. -/
def setHandler (handler : SignalHandler) : Option (SignalHandler × SignalState) :=
  (s.setAction signum { s.actions signum with handler }).map fun r => (r.1.handler, r.2)

/-- Exec disposition rules; `signal.rs:562-575`. -/
def resetDispositionsForExec : SignalState :=
  { s with actions := fun i =>
      if i = 0 then s.actions i
      else ⟨if (s.actions i).handler = .ignore then .ignore else .default, 0, 0⟩ }

/-- Queue a process-wide signal unless its disposition discards it;
`signal.rs:589-625`. -/
def raiseInternal (siValue siCode : Int) : Bool × SignalState :=
  if signum = 0 ∨ signum ≥ 65 then (false, s)
  else if shouldDiscardPending signum (s.actions signum).handler then (true, s)
  else (true, { s with toPendingSet := s.generate signum siValue siCode })

/-- Process-wide `kill`, `SI_USER`. -/
def raise : Bool × SignalState := s.raiseInternal signum 0 0

/-- Process-wide `sigqueue`, `SI_QUEUE`. -/
def raiseWithValue (siValue : Int) : Bool × SignalState :=
  s.raiseInternal signum siValue (-1)

/-- Consume the lowest unblocked signal; `signal.rs:731-740`. -/
def dequeue : Option (Nat × Int × Int) × SignalState :=
  let deliverable := s.pending &&& ~~~ s.blocked
  if deliverable = 0 then (none, s)
  else
    let signum := lowestSignal deliverable
    let (info, q) := s.consumePendingInfo signum
    (some (signum, info.siValue, info.siCode), { s with toPendingSet := q })

/-- State of a fork child: dispositions and mask, nothing pending;
`signal.rs:772-779`. -/
def fromActions (actions : Nat → SignalAction) (blocked : SigMask) : SignalState :=
  ⟨.empty, actions, blocked⟩

/-- State rebuilt for a serialized exec: one instance for each pending bit;
`signal.rs:782-809`. -/
def fromPartsWithPending (handlers : Nat → SignalHandler) (blocked pending : SigMask) :
    SignalState :=
  { pending
    rtQueue := ((List.range' 1 64).filter fun sig => decide (SigMask.Has pending sig)).map
      fun sig => ⟨sig, 0, 0, none⟩
    actions := fun i => { SignalAction.default with handler := handlers i }
    blocked }

end SignalState

end Kandelo.Kernel.Signal
