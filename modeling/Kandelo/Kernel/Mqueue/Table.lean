import Kandelo.Kernel.Errno
import Mathlib.Data.List.AList

/-!
# Message queues

The message queues of `crates/kernel/src/mqueue.rs`. A descriptor keeps what its
queue is found by: in the source that is the name, and `MqueueTable` is a store by name. Queues keep
neither their name nor their mode, which nothing reads. Counts of descriptors are natural numbers;
`Store.Counted.openCount_le` bounds them.
-/

namespace Kandelo.Kernel.Mqueue

/-- Names of queues. -/
abbrev Name := List UInt8

/-- `MqMessage`; `mqueue.rs:34-37`. -/
structure MqMessage where
  data : List UInt8
  priority : UInt32
  deriving DecidableEq

/-- `MqNotification`; `mqueue.rs:61-64`. -/
structure MqNotification where
  pid : UInt32
  signo : UInt32
  deriving DecidableEq

/-- `MqQueue`; `mqueue.rs:41-50`. -/
structure MqQueue where
  maxmsg : UInt32
  msgsize : UInt32
  messages : List MqMessage
  unlinked : Bool
  openCount : Nat
  notification : Option MqNotification

/-- `MqDescriptor`, with what its queue is found by; `mqueue.rs:53-57`. -/
structure MqDescriptor (κ : Type) where
  queue : κ
  accessMode : UInt32
  nonblock : Bool

/-- `MqAttr`; `mqueue.rs:68-73`. -/
structure MqAttr where
  flags : UInt32
  maxmsg : UInt32
  msgsize : UInt32
  curmsgs : Nat
  deriving DecidableEq

/-- Flags of `mq_open`; `mqueue.rs:13-21`. -/
def oRdonly : UInt32 := 0
/-- `O_WRONLY`. -/
def oWronly : UInt32 := 1
/-- `O_ACCMODE`. -/
def oAccmode : UInt32 := 3
/-- `O_CREAT`. -/
def oCreat : UInt32 := 0o100
/-- `O_EXCL`. -/
def oExcl : UInt32 := 0o200
/-- `O_NONBLOCK`. -/
def oNonblock : UInt32 := 0o4000

/-- Kinds of notification; `mqueue.rs:24-25`. -/
def sigevSignal : UInt32 := 0
/-- `SIGEV_NONE`. -/
def sigevNone : UInt32 := 1

/-- `MQD_BASE`; `mqueue.rs:31`. -/
def mqdBase : UInt32 := 0x40000000

/-! ### One queue -/

namespace MqQueue

/-- A message goes before the first one with a lower priority; `mqueue.rs:253-261`. -/
def insertMessage (msg : MqMessage) : List MqMessage → List MqMessage
  | [] => [msg]
  | m :: ms => if m.priority < msg.priority then msg :: m :: ms else m :: insertMessage msg ms

variable (q : MqQueue)

/-- The part of `mq_send` that works on the queue; `mqueue.rs:237-270`. -/
def send (data : List UInt8) (priority : UInt32) : Except Errno (Option MqNotification × MqQueue) :=
  if q.msgsize.toNat < data.length then .error .EMSGSIZE
  else if q.maxmsg.toNat ≤ q.messages.length then .error .EAGAIN
  else
    let messages := insertMessage ⟨data, priority⟩ q.messages
    -- a notification is for the first message only
    if q.messages = [] then
      .ok (q.notification, { q with messages := messages, notification := none })
    else .ok (none, { q with messages := messages })

/-- The part of `mq_receive` that works on the queue; `mqueue.rs:283-299`. -/
def receive (bufSize : UInt32) : Except Errno (MqMessage × MqQueue) :=
  if bufSize < q.msgsize then .error .EMSGSIZE
  else
    match q.messages with
    | [] => .error .EAGAIN
    | msg :: rest => .ok (msg, { q with messages := rest })

/-- The part of `mq_notify` that works on the queue; `mqueue.rs:317-337`. -/
def notify (pid : UInt32) (sigevNotify : Option UInt32) (signo : UInt32) :
    Except Errno (Unit × MqQueue) :=
  match sigevNotify with
  | none => .ok ((), { q with notification := none })
  | some kind =>
    if kind = sigevNone then
      if q.notification.isSome then .error .EBUSY
      else .ok ((), { q with notification := some ⟨pid, 0⟩ })
    else if kind = sigevSignal then
      if q.notification.isSome then .error .EBUSY
      else .ok ((), { q with notification := some ⟨pid, signo⟩ })
    else .error .EINVAL

end MqQueue

/-! ### Stores of queues -/

/-- Queues and descriptors of `MqueueTable`; `mqueue.rs:88-93`. -/
structure Store (κ : Type) where
  queues : κ → Option MqQueue
  descriptors : AList fun _ : UInt32 => MqDescriptor κ
  nextMqd : UInt32

/-- What `mq_open` is asked for; `mqueue.rs:120-128`. -/
structure OpenRequest where
  name : Name
  flags : UInt32
  attrMaxmsg : UInt32
  attrMsgsize : UInt32
  hasAttr : Bool

namespace OpenRequest

variable (r : OpenRequest)

/-- The limits of a queue that is created; `mqueue.rs:156-165`. -/
def limits : UInt32 × UInt32 :=
  if r.hasAttr then (r.attrMaxmsg, r.attrMsgsize) else (10, 8192)

/-- Why a request fails, given whether there is a queue to open; `mqueue.rs:129-168`. -/
def check (found : Bool) : Except Errno Unit :=
  let creating := r.flags &&& oCreat ≠ 0
  let exclusive := r.flags &&& oExcl ≠ 0
  if r.name = [] ∨ 255 < r.name.length then .error .EINVAL
  else if creating ∧ exclusive ∧ found then .error .EEXIST
  else if ¬ creating ∧ ¬ found then .error .ENOENT
  else if ¬ found ∧ (r.limits.1 = 0 ∨ r.limits.2 = 0) then .error .EINVAL
  else .ok ()

/-- The queue that is created; `mqueue.rs:170-179`. -/
def newQueue : MqQueue := ⟨r.limits.1, r.limits.2, [], false, 1, none⟩

end OpenRequest

namespace Store

variable {κ α : Type} [DecidableEq κ]

/-- A store with nothing in it; `mqueue.rs:96-103`. -/
def empty : Store κ := ⟨fun _ => none, ∅, mqdBase⟩

variable (s : Store κ) (k : κ)

/-- There is a queue of this key that is not unlinked; `mqueue.rs:139`. -/
def listed : Bool := (s.queues k).any (!·.unlinked)

/-- Open the queue of a key, or create it there; `mqueue.rs:151-196`. -/
def openAs (found : Bool) (r : OpenRequest) : UInt32 × Store κ :=
  (s.nextMqd,
    { queues := Function.update s.queues k <|
        if found then (s.queues k).map fun q => { q with openCount := q.openCount + 1 }
        else some r.newQueue
      descriptors := s.descriptors.insert s.nextMqd
        ⟨k, r.flags &&& oAccmode, r.flags &&& oNonblock ≠ 0⟩
      -- the number wraps in a release build
      nextMqd := s.nextMqd + 1 })

variable (mqd : UInt32)

/-- `mq_close`; `mqueue.rs:204-215`. -/
def mqClose : Except Errno Unit × Store κ :=
  match s.descriptors.lookup mqd with
  | none => (.error .EBADF, s)
  | some desc =>
    (.ok (),
      { s with
        descriptors := s.descriptors.erase mqd
        queues := Function.update s.queues desc.queue <| (s.queues desc.queue).bind fun q =>
          if q.openCount - 1 = 0 ∧ q.unlinked then none
          else some { q with openCount := q.openCount - 1 } })

/-- Unlink the queue of a key; `mqueue.rs:221-225`. -/
def unlinkAt : Store κ :=
  { s with
    queues := Function.update s.queues k <| (s.queues k).bind fun q =>
      if q.openCount = 0 then none else some { q with unlinked := true } }

/-- Work on the queue of a descriptor, unless its access mode does not allow it. -/
def act (refused : UInt32 → Bool) (f : MqQueue → Except Errno (α × MqQueue)) :
    Except Errno α × Store κ :=
  match s.descriptors.lookup mqd with
  | none => (.error .EBADF, s)
  | some desc =>
    if refused desc.accessMode then (.error .EBADF, s)
    else
      match s.queues desc.queue with
      | none => (.error .EBADF, s)
      | some q =>
        match f q with
        | .error e => (.error e, s)
        | .ok (a, q) => (.ok a, { s with queues := Function.update s.queues desc.queue (some q) })

/-- `mq_send`; `mqueue.rs:234-276`. -/
def mqSend (data : List UInt8) (priority : UInt32) :
    Except Errno (Option MqNotification) × Store κ :=
  s.act mqd (· = oRdonly) (·.send data priority)

/-- `mq_receive`; `mqueue.rs:274-304`. -/
def mqReceive (bufSize : UInt32) : Except Errno MqMessage × Store κ :=
  s.act mqd (· = oWronly) (·.receive bufSize)

variable (pid : UInt32)

/-- `mq_notify`; `mqueue.rs:307-340`. -/
def mqNotify (sigevNotify : Option UInt32) (signo : UInt32) : Except Errno Unit × Store κ :=
  s.act mqd (fun _ => false) (·.notify pid sigevNotify signo)

/-- `mq_getsetattr`; `mqueue.rs:343-360`. -/
def mqGetsetattr (newFlags : Option UInt32) : Except Errno MqAttr × Store κ :=
  match s.descriptors.lookup mqd with
  | none => (.error .EBADF, s)
  | some desc =>
    match s.queues desc.queue with
    | none => (.error .EBADF, s)
    | some q =>
      (.ok ⟨if desc.nonblock then oNonblock else 0, q.maxmsg, q.msgsize, q.messages.length⟩,
        match newFlags with
        | none => s
        | some flags =>
          { s with
            descriptors := s.descriptors.insert mqd
              { desc with nonblock := flags &&& oNonblock ≠ 0 } })

/-- `cleanup_process`; `mqueue.rs:363-371`. -/
def cleanupProcess : Store κ :=
  { s with
    queues := fun k => (s.queues k).map fun q =>
      if q.notification.any (·.pid = pid) then { q with notification := none } else q }

end Store

/-! ### The table of the kernel -/

/-- `MqueueTable`; `mqueue.rs:88-93`. -/
abbrev MqueueTable := Store Name

namespace MqueueTable

variable (t : MqueueTable)

/-- `mq_open`; `mqueue.rs:128-201`. -/
def mqOpen (r : OpenRequest) : Except Errno UInt32 × MqueueTable :=
  match r.check (t.listed r.name) with
  | .error e => (.error e, t)
  | .ok () => (.ok (t.openAs r.name (t.listed r.name) r).1, (t.openAs r.name (t.listed r.name) r).2)

/-- `mq_unlink`; `mqueue.rs:218-231`. -/
def mqUnlink (name : Name) : Except Errno Unit × MqueueTable :=
  if t.listed name then (.ok (), t.unlinkAt name) else (.error .ENOENT, t)

end MqueueTable

end Kandelo.Kernel.Mqueue
