import Kandelo.Kernel.Mqueue.Identity
import Mathlib.Data.List.MinMax

/-!
# The order of messages

A queue keeps its messages in the order in which they leave it. That order is
traced back to the order in which they were sent, which the code does not store.
-/

namespace Kandelo.Kernel.Mqueue

open List MqQueue

/-- The messages that were accepted, those that were received, and those that wait, in the order in
which they were sent. -/
structure Traffic where
  sent : List MqMessage
  received : List MqMessage
  pending : List MqMessage

variable {pending : List MqMessage} {msg : MqMessage} {maxmsg : Nat} {t : MqueueTable} {name : Name}
  {x : Traffic}

/-- The messages of a queue, given those that wait in the order in which they were sent. -/
def ordered (pending : List MqMessage) : List MqMessage :=
  pending.foldl (fun ms msg => insertMessage msg ms) []

/-- What a call and its reply mean for the messages. -/
def Traffic.after (x : Traffic) : Call → Reply → Traffic
  | .other (.mqSend _ data priority), .notified _ =>
    ⟨⟨data, priority⟩ :: x.sent, x.received, x.pending ++ [⟨data, priority⟩]⟩
  | .other (.mqReceive ..), .message msg => ⟨x.sent, msg :: x.received, x.pending.erase msg⟩
  | _, _ => x

/-- The traffic of some calls, the latest first, and the table after them. -/
def traced (t : MqueueTable) : List Call → Traffic × MqueueTable
  | [] => (⟨[], [], []⟩, t)
  | call :: earlier =>
    let (x, t) := traced t earlier
    let (reply, t) := MqueueTable.answer t call
    (x.after call reply, t)

/-- A message is sent or received through a descriptor of the queue. -/
def Uses (t : MqueueTable) (name : Name) (call : Call) : Prop :=
  ∃ mqd desc, call.moves = some mqd ∧ t.descriptors.lookup mqd = some desc ∧ desc.queue = name

/-- The queue holds the pending messages in their order, and no message is lost or made up. -/
def Holds (t : MqueueTable) (name : Name) (maxmsg : Nat) (x : Traffic) : Prop :=
  (x.received ++ x.pending).Perm x.sent ∧ ∃ q, t.queues name = some q ∧ q.maxmsg.toNat = maxmsg ∧
    q.messages = ordered x.pending ∧ q.messages.length ≤ maxmsg

/-- A send is accepted exactly if the descriptor may write, the message is not too long and there is
room; a receive returns the first message with the highest priority exactly if the descriptor may
read, the buffer is large enough and there is one; and a call that fails changes nothing. -/
structure Fair (pending : List MqMessage) (t : MqueueTable) (call : Call) : Prop where
  send : ∀ mqd data priority desc q, call = .other (.mqSend mqd data priority) →
    t.descriptors.lookup mqd = some desc → t.queues desc.queue = some q →
    ((∃ n, (MqueueTable.answer t call).1 = .notified n) ↔ desc.accessMode ≠ oRdonly ∧
      data.length ≤ q.msgsize.toNat ∧ pending.length < q.maxmsg.toNat)
  receive : ∀ mqd bufSize desc q msg, call = .other (.mqReceive mqd bufSize) →
    t.descriptors.lookup mqd = some desc → t.queues desc.queue = some q →
    ((MqueueTable.answer t call).1 = .message msg ↔ desc.accessMode ≠ oWronly ∧
      q.msgsize ≤ bufSize ∧ pending.argmax (·.priority.toNat) = some msg)
  failed : ∀ e, (MqueueTable.answer t call).1 = .failed e → (MqueueTable.answer t call).2 = t

lemma ordered_concat (msg : MqMessage) :
    ordered (pending ++ [msg]) = insertMessage msg (ordered pending) := foldl_concat ..

lemma ordered_eq_cons (h : pending.argmax (·.priority.toNat) = some msg) :
    ordered pending = msg :: ordered (pending.erase msg) := by
  induction pending using List.reverseRecOn generalizing msg with
  | nil => cases h
  | append_singleton pending last ih =>
    rw [argmax_concat] at h
    rw [ordered_concat]
    cases hfirst : pending.argmax (·.priority.toNat) with rw [hfirst] at h
    | none =>
      cases h
      simp [argmax_eq_none.mp hfirst, ordered, insertMessage]
    | some first =>
      rw [ih hfirst, insertMessage]
      dsimp only at h
      split at h <;> cases h
      · next hlt =>
        -- nothing that waits is like the last message, whose priority is the highest
        have hnot : last ∉ pending := fun hmem => (le_of_mem_argmax hmem hfirst).not_gt hlt
        rw [if_pos (UInt32.lt_iff_toNat_lt.mpr hlt), erase_append_right _ hnot, ← ih hfirst]
        simp
      · next hle =>
        rw [if_neg (mt UInt32.lt_iff_toNat_lt.mp hle), erase_append_left _ (argmax_mem hfirst),
          ordered_concat]

lemma length_insertMessage (ms : List MqMessage) :
    (insertMessage msg ms).length = ms.length + 1 := by
  induction ms with
  | nil => rfl
  | cons => grind [insertMessage]

lemma length_ordered : (ordered pending).length = pending.length := by
  induction pending using List.reverseRecOn with
  | nil => rfl
  | append_singleton pending last ih =>
    rw [ordered_concat, length_insertMessage, ih, length_append]; rfl

/-- A call keeps what holds of the queue, and is fair. -/
def Serves (t : MqueueTable) (name : Name) (maxmsg : Nat) (x : Traffic) (call : Call) : Prop :=
  Holds (MqueueTable.answer t call).2 name maxmsg (x.after call (MqueueTable.answer t call).1) ∧
    (MqueueTable.answer t call).2.descriptors = t.descriptors ∧ Fair x.pending t call

section

variable {mqd : UInt32} {desc : MqDescriptor Name} (h : Holds t desc.queue maxmsg x)
  (hdesc : t.descriptors.lookup mqd = some desc)

include h hdesc

lemma Holds.mqSend (data : List UInt8) (priority : UInt32) :
    Serves t desc.queue maxmsg x (.other (.mqSend mqd data priority)) := by
  obtain ⟨hperm, q, hq, rfl, hmessages, hle⟩ := id h
  have hlength : q.messages.length = x.pending.length := by rw [hmessages, length_ordered]
  unfold Serves
  by_cases hok : desc.accessMode ≠ oRdonly ∧ data.length ≤ q.msgsize.toNat ∧
      x.pending.length < q.maxmsg.toNat
  · obtain ⟨n, q', hsend, hmax, hmessages'⟩ : ∃ n q', q.send data priority = .ok (n, q') ∧
        q'.maxmsg = q.maxmsg ∧ q'.messages = insertMessage ⟨data, priority⟩ q.messages := by
      rw [send, if_neg hok.2.1.not_gt, if_neg (by omega)]
      split <;> exact ⟨_, _, rfl, rfl, rfl⟩
    have hanswer : MqueueTable.answer t (.other (.mqSend mqd data priority)) =
        (.notified n, { t with queues := Function.update t.queues desc.queue (some q') }) := by
      simp [MqueueTable.answer, Store.answer, Store.mqSend, Store.act, hdesc, hq, hok.1, hsend,
        Reply.of]
    refine ⟨?_, by rw [hanswer], ?_, by rintro _ _ _ _ _ ⟨⟩, by rw [hanswer]; rintro _ ⟨⟩⟩
    · rw [hanswer]
      refine ⟨?_, q', Function.update_self .., congrArg _ hmax, ?_, ?_⟩
      · simpa [Traffic.after] using (perm_append_singleton _ _).trans (hperm.cons _)
      · rw [hmessages', hmessages]
        exact (ordered_concat _).symm
      · rw [hmessages', length_insertMessage]
        omega
    · rintro _ _ _ desc' q₁ ⟨⟩ hdesc' hq₁
      cases hdesc.symm.trans hdesc'
      cases hq.symm.trans hq₁
      exact iff_of_true ⟨n, by rw [hanswer]⟩ hok
  · have hsend : desc.accessMode = oRdonly ∨ ∃ e, q.send data priority = .error e := by
      refine or_iff_not_imp_left.mpr fun hmode => ?_
      unfold MqQueue.send
      split
      · exact ⟨_, rfl⟩
      · rw [if_pos (by grind)]
        exact ⟨_, rfl⟩
    obtain ⟨e, hanswer⟩ : ∃ e,
        MqueueTable.answer t (.other (.mqSend mqd data priority)) = (.failed e, t) := by
      simp only [MqueueTable.answer, Store.answer, Store.mqSend, Store.act, hdesc, hq]
      rcases hsend with hsend | ⟨e, hsend⟩
      · exact ⟨.EBADF, by simp [hsend, Reply.of]⟩
      · rw [hsend]
        split <;> exact ⟨_, rfl⟩
    refine ⟨by rw [hanswer]; exact h, by rw [hanswer], ?_, by rintro _ _ _ _ _ ⟨⟩,
      fun _ _ => by rw [hanswer]⟩
    rintro _ _ _ desc' q₁ ⟨⟩ hdesc' hq₁
    cases hdesc.symm.trans hdesc'
    cases hq.symm.trans hq₁
    refine iff_of_false ?_ hok
    rw [hanswer]
    rintro ⟨_, ⟨⟩⟩

lemma Holds.mqReceive (bufSize : UInt32) :
    Serves t desc.queue maxmsg x (.other (.mqReceive mqd bufSize)) := by
  obtain ⟨hperm, q, hq, rfl, hmessages, hle⟩ := id h
  unfold Serves
  by_cases hok : desc.accessMode ≠ oWronly ∧ q.msgsize ≤ bufSize ∧ x.pending ≠ []
  · obtain ⟨first, hfirst⟩ : ∃ first, x.pending.argmax (·.priority.toNat) = some first :=
      Option.ne_none_iff_exists'.mp (mt argmax_eq_none.mp hok.2.2)
    have hcons := hmessages.trans (ordered_eq_cons hfirst)
    have hanswer : MqueueTable.answer t (.other (.mqReceive mqd bufSize)) =
        (.message first, { t with
          queues := Function.update t.queues desc.queue
            (some { q with messages := ordered (x.pending.erase first) }) }) := by
      simp [MqueueTable.answer, Store.answer, Store.mqReceive, Store.act, hdesc, hq, hok.1,
        receive, hcons, UInt32.not_lt.mpr hok.2.1, Reply.of]
    refine ⟨?_, by rw [hanswer], by rintro _ _ _ _ _ ⟨⟩, ?_, by rw [hanswer]; rintro _ ⟨⟩⟩
    · rw [hanswer]
      refine ⟨?_, _, Function.update_self .., rfl, rfl, ?_⟩
      · have hback := (perm_cons_erase (argmax_mem hfirst)).symm.append_left x.received
        exact perm_middle.symm.trans (hback.trans hperm)
      · rw [hcons] at hle
        exact Nat.le_of_succ_le hle
    · rintro _ _ desc' q₁ msg ⟨⟩ hdesc' hq₁
      cases hdesc.symm.trans hdesc'
      cases hq.symm.trans hq₁
      rw [hanswer, hfirst]
      simp [hok.1, hok.2.1]
  · have hreceive : desc.accessMode = oWronly ∨ ∃ e, q.receive bufSize = .error e := by
      refine or_iff_not_imp_left.mpr fun hmode => ?_
      unfold MqQueue.receive
      split
      · exact ⟨_, rfl⟩
      · have hnil : x.pending = [] := by grind
        rw [hmessages, hnil]
        exact ⟨_, rfl⟩
    obtain ⟨e, hanswer⟩ : ∃ e,
        MqueueTable.answer t (.other (.mqReceive mqd bufSize)) = (.failed e, t) := by
      simp only [MqueueTable.answer, Store.answer, Store.mqReceive, Store.act, hdesc, hq]
      rcases hreceive with hreceive | ⟨e, hreceive⟩
      · exact ⟨.EBADF, by simp [hreceive, Reply.of]⟩
      · rw [hreceive]
        split <;> exact ⟨_, rfl⟩
    refine ⟨by rw [hanswer]; exact h, by rw [hanswer], by rintro _ _ _ _ _ ⟨⟩, ?_,
      fun _ _ => by rw [hanswer]⟩
    rintro _ _ desc' q₁ msg ⟨⟩ hdesc' hq₁
    cases hdesc.symm.trans hdesc'
    cases hq.symm.trans hq₁
    refine iff_of_false (by rw [hanswer]; rintro ⟨⟩) fun hall => hok ⟨hall.1, hall.2.1, ?_⟩
    rintro hnil
    cases (argmax_eq_none.mpr hnil).symm.trans hall.2.2

end

lemma Holds.answer {call : Call} (h : Holds t name maxmsg x) (huses : Uses t name call) :
    Serves t name maxmsg x call := by
  obtain ⟨mqd, desc, hmoves, hdesc, rfl⟩ := huses
  cases call with
  | mqOpen | mqUnlink => cases hmoves
  | other call =>
    cases call with cases hmoves
    | mqSend mqd data priority => exact h.mqSend hdesc data priority
    | mqReceive mqd bufSize => exact h.mqReceive hdesc bufSize

/-- In any run of calls that send and receive on a new queue, the queue is never longer than its
limit, each accepted message is received once or waits, each receiver gets, of the messages with the
highest priority that wait, the one that was sent first, and a call that fails changes nothing. -/
theorem highest_priority_first {q : MqQueue} (hq : t.queues name = some q) (hnew : q.messages = [])
    (calls : List Call) (huses : ∀ call ∈ calls, Uses t name call) :
    let r := traced t calls
    Holds r.2 name q.maxmsg.toNat r.1 ∧ ∀ call, Uses t name call → Fair r.1.pending r.2 call := by
  have hrun : Holds (traced t calls).2 name q.maxmsg.toNat (traced t calls).1 ∧
      (traced t calls).2.descriptors = t.descriptors := by
    induction calls with
    | nil => exact ⟨⟨.refl _, q, hq, rfl, hnew, by simp [hnew]⟩, rfl⟩
    | cons call earlier ih =>
      obtain ⟨hcall, hearlier⟩ := forall_mem_cons.mp huses
      obtain ⟨hholds, hdescs⟩ := ih hearlier
      obtain ⟨hholds, hdescs', -⟩ := hholds.answer (by rwa [Uses, hdescs])
      exact ⟨hholds, hdescs'.trans hdescs⟩
  exact ⟨hrun.1, fun call hcall => (hrun.1.answer (by rwa [Uses, hrun.2])).2.2⟩

/-- Of two messages the one with the higher priority is received, though it was sent later. -/
theorem highest_priority_first_once :
    let t := (replies MqueueTable.answer Store.empty [createQueue]).2
    let r := traced t [.other (.mqSend mqdBase [2] 7), .other (.mqSend mqdBase [1] 5)]
    (MqueueTable.answer r.2 (.other (.mqReceive mqdBase 8192))).1 = .message ⟨[2], 7⟩ := by
  intro t
  have huses (call : Call) (h : call.moves = some mqdBase) : Uses t [0x2f, 0x71] call :=
    ⟨mqdBase, _, h, rfl, rfl⟩
  have hq : t.queues [0x2f, 0x71] = some ⟨10, 8192, [], false, 1, none⟩ := rfl
  have hrun := (highest_priority_first hq rfl
    [.other (.mqSend mqdBase [2] 7), .other (.mqSend mqdBase [1] 5)]
      (forall_mem_cons.mpr ⟨huses _ rfl, forall_mem_singleton.mpr (huses _ rfl)⟩)).2
  exact ((hrun _ (huses _ rfl)).receive mqdBase 8192 _ _ _ rfl rfl rfl).mpr (by decide)

end Kandelo.Kernel.Mqueue
