import Kandelo.Kernel.Mqueue.Table
import Kandelo.Lib.Entries

/-!
# What calls do to message queues

In a store of message queues, whatever they are found by, each queue counts its descriptors if no
descriptor is opened under a number that is in use; and a call changes the messages of no queue but
that of its descriptor.
-/

namespace Kandelo.Kernel.Mqueue

open Lib Option Function Entries

/-! ### Calls -/

/-- The calls that name no queue. -/
inductive StoreCall
  | mqClose (mqd : UInt32)
  | mqSend (mqd : UInt32) (data : List UInt8) (priority : UInt32)
  | mqReceive (mqd bufSize : UInt32)
  | mqNotify (mqd pid : UInt32) (sigevNotify : Option UInt32) (signo : UInt32)
  | mqGetsetattr (mqd : UInt32) (newFlags : Option UInt32)
  | cleanupProcess (pid : UInt32)

variable {q' : MqQueue} {pid signo : UInt32} {kind : Option UInt32} {u : Unit} {α : Type}
  {call : StoreCall} {κ : Type} [DecidableEq κ] {f : MqQueue → Except Errno (α × MqQueue)}

/-- The descriptor through which a message is sent or received. -/
def StoreCall.moves : StoreCall → Option UInt32
  | .mqSend mqd _ _ | .mqReceive mqd _ => some mqd
  | _ => none

/-- What a call returns. -/
inductive Reply
  | done
  | descriptor (mqd : UInt32)
  | notified (notification : Option MqNotification)
  | message (msg : MqMessage)
  | attr (attr : MqAttr)
  | failed (e : Errno)
  deriving DecidableEq

/-- The reply to a call that answers or fails. -/
def Reply.of {α σ : Type} (f : α → Reply) : Except Errno α × σ → Reply × σ
  | (.ok a, s) => (f a, s)
  | (.error e, s) => (.failed e, s)

/-- The reply to a call, and the store after it. -/
def Store.answer (s : Store κ) : StoreCall → Reply × Store κ
  | .mqClose mqd => Reply.of (fun _ => .done) (s.mqClose mqd)
  | .mqSend mqd data priority => Reply.of .notified (s.mqSend mqd data priority)
  | .mqReceive mqd bufSize => Reply.of .message (s.mqReceive mqd bufSize)
  | .mqNotify mqd pid kind signo => Reply.of (fun _ => .done) (s.mqNotify mqd pid kind signo)
  | .mqGetsetattr mqd newFlags => Reply.of .attr (s.mqGetsetattr mqd newFlags)
  | .cleanupProcess pid => (.done, s.cleanupProcess pid)

/-! ### Work on a queue -/

namespace MqQueue

/-- The queue is as open as before, and has the name that it had. -/
structure SameUse (q q' : MqQueue) : Prop where
  openCount : q'.openCount = q.openCount
  unlinked : q'.unlinked = q.unlinked

variable {q : MqQueue}

lemma sameUse_send {data : List UInt8} {priority : UInt32} {n : Option MqNotification}
    (h : q.send data priority = .ok (n, q')) : SameUse q q' := by
  unfold send at h
  split at h
  · cases h
  split at h
  · cases h
  · split at h <;> (cases h; exact ⟨rfl, rfl⟩)

lemma sameUse_receive {bufSize : UInt32} {msg : MqMessage} (h : q.receive bufSize = .ok (msg, q')) :
    SameUse q q' := by
  unfold receive at h
  split at h
  · cases h
  split at h
  · cases h
  · cases h
    exact ⟨rfl, rfl⟩

lemma notify_eq_ok (h : q.notify pid kind signo = .ok (u, q')) :
    ∃ n, q' = { q with notification := n } := by
  unfold notify at h
  split at h
  · cases h
    exact ⟨_, rfl⟩
  split at h
  · split at h
    · cases h
    · cases h
      exact ⟨_, rfl⟩
  · split at h
    · split at h
      · cases h
      · cases h
        exact ⟨_, rfl⟩
    · cases h

lemma sameUse_notify (h : q.notify pid kind signo = .ok (u, q')) : SameUse q q' := by
  obtain ⟨n, rfl⟩ := notify_eq_ok h
  exact ⟨rfl, rfl⟩

end MqQueue

/-! ### Counts of descriptors -/

namespace Store

/-- How many descriptors are open on a queue. -/
def opened (s : Store κ) (k : κ) : Nat := s.descriptors.entries.countP (·.2.queue = k)

/-- Each queue counts its descriptors, and each descriptor has its queue. -/
structure Counted (s : Store κ) : Prop where
  count : ∀ k q, s.queues k = some q → q.openCount = s.opened k
  live : ∀ mqd desc, s.descriptors.lookup mqd = some desc → (s.queues desc.queue).isSome

variable {s : Store κ} {k : κ} {mqd : UInt32} {desc : MqDescriptor κ} {q : MqQueue}

lemma opened_erase (h : s.descriptors.lookup mqd = some desc) (k : κ) :
    s.opened k = (s.descriptors.erase mqd).entries.countP (·.2.queue = k) +
      if desc.queue = k then 1 else 0 := by
  rw [opened, countP_erase h]
  simp

/-- The count of a queue, a `u32` in the source, can wrap only when every number is a descriptor of
the queue. -/
lemma Counted.openCount_le (h : s.Counted) (hq : s.queues k = some q) : q.openCount ≤ 2 ^ 32 := by
  have hsub : s.descriptors.keys.map UInt32.toNat ⊆ List.range (2 ^ 32) := by
    intro n hn
    obtain ⟨mqd, -, rfl⟩ := List.mem_map.mp hn
    exact List.mem_range.mpr mqd.toNat_lt
  have hnodup := s.descriptors.keys_nodup.map fun _ _ => UInt32.toNat_inj.mp
  calc q.openCount = s.opened k := h.count k q hq
    _ ≤ s.descriptors.entries.length := List.countP_le_length
    _ = (s.descriptors.keys.map UInt32.toNat).length := by
      rw [List.length_map, AList.keys, List.keys, List.length_map]
    _ ≤ (List.range (2 ^ 32)).length := (List.subperm_of_subset hnodup hsub).length_le
    _ = 2 ^ 32 := List.length_range

lemma Counted.opened_eq_zero (h : s.Counted) (hk : s.queues k = none) : s.opened k = 0 := by
  by_contra hne
  obtain ⟨mqd, desc, hdesc, hqueue⟩ := exists_lookup_of_pos (Nat.pos_of_ne_zero hne)
  have hlive := h.live mqd desc hdesc
  rw [of_decide_eq_true hqueue, hk] at hlive
  cases hlive

lemma Counted.of_queues (h : s.Counted) {queues : κ → Option MqQueue}
    (hqueues : ∀ k, (queues k).map (·.openCount) = (s.queues k).map (·.openCount)) :
    Counted { s with queues := queues } where
  count k q hq := by
    change queues k = some q at hq
    have hsame := hqueues k
    rw [hq, map_some] at hsame
    obtain ⟨q', hq', heq⟩ := map_eq_some_iff.mp hsame.symm
    rw [← heq]
    exact h.count k q' hq'
  live mqd desc hdesc := by
    have hsame := hqueues desc.queue
    have hlive := h.live mqd desc hdesc
    rw [← isSome_map (f := (·.openCount)), hsame, isSome_map]
    exact hlive

lemma Counted.set (h : s.Counted) (hq : s.queues k = some q)
    (hcount : q'.openCount = q.openCount) :
    Counted { s with queues := Function.update s.queues k (some q') } := by
  apply h.of_queues
  intro k'
  rw [update_apply]
  split
  · next heq => rw [heq, hq, map_some, map_some, hcount]
  · rfl

lemma Counted.empty : (empty : Store κ).Counted where
  count _ _ hq := nomatch hq
  live _ _ hdesc := nomatch hdesc

section

variable (h : s.Counted)

include h

lemma Counted.insert (hfresh : s.descriptors.lookup mqd = none) (desc : MqDescriptor κ)
    (q : MqQueue) (hcount : q.openCount = s.opened desc.queue + 1) (next : UInt32) :
    Counted
      ⟨Function.update s.queues desc.queue (some q), s.descriptors.insert mqd desc, next⟩ where
  count k q' hq' := by
    have hopened : (s.descriptors.insert mqd desc).entries.countP (·.2.queue = k) =
        s.opened k + if desc.queue = k then 1 else 0 := by
      rw [countP_insert_of_none hfresh, opened]
      simp
    change Function.update s.queues desc.queue (some q) k = some q' at hq'
    change q'.openCount = (s.descriptors.insert mqd desc).entries.countP (·.2.queue = k)
    rw [hopened]
    by_cases hk : k = desc.queue
    · rw [hk, update_self] at hq'
      cases hq'
      rw [hk, if_pos rfl, hcount]
    · rw [update_of_ne hk] at hq'
      rw [if_neg (Ne.symm hk), h.count k q' hq', Nat.add_zero]
  live mqd' desc' hdesc' := by
    change (Function.update s.queues desc.queue (some q) desc'.queue).isSome
    by_cases hk : desc'.queue = desc.queue
    · rw [hk, update_self]
      rfl
    rw [update_of_ne hk]
    rw [lookup_insert_eq] at hdesc'
    split at hdesc'
    · cases hdesc'
      exact absurd rfl hk
    · exact h.live mqd' desc' hdesc'

lemma Counted.openAs (found : Bool) (hk : found = (s.queues k).isSome)
    (hfresh : s.descriptors.lookup s.nextMqd = none) (r : OpenRequest) :
    (s.openAs k found r).2.Counted := by
  unfold Store.openAs
  cases hq : s.queues k with
  | none =>
    rw [hk, hq]
    refine h.insert hfresh ⟨k, _, _⟩ r.newQueue ?_ _
    rw [h.opened_eq_zero hq]
    rfl
  | some q =>
    rw [hk, hq]
    refine h.insert hfresh ⟨k, _, _⟩ { q with openCount := q.openCount + 1 } ?_ _
    rw [← h.count k q hq]

lemma Counted.mqClose (mqd : UInt32) : (s.mqClose mqd).2.Counted := by
  unfold Store.mqClose
  split
  · exact h
  next desc hdesc =>
  have hopened := fun k => opened_erase hdesc k
  constructor
  · intro k q hq
    change Function.update s.queues desc.queue _ k = some q at hq
    change q.openCount = (s.descriptors.erase mqd).entries.countP (·.2.queue = k)
    have hk := hopened k
    by_cases hqueue : k = desc.queue
    · rw [hqueue, update_self] at hq
      obtain ⟨q0, hq0, hrest⟩ := bind_eq_some_iff.mp hq
      have hcount := h.count _ _ hq0
      split at hrest
      · cases hrest
      cases hrest
      rw [hqueue, if_pos rfl] at hk
      rw [hqueue]
      dsimp only
      omega
    · rw [update_of_ne hqueue] at hq
      rw [if_neg (Ne.symm hqueue), Nat.add_zero] at hk
      rw [h.count k q hq, hk]
  · intro mqd' desc' hdesc'
    change (Function.update s.queues desc.queue _ desc'.queue).isSome
    rw [lookup_erase_eq] at hdesc'
    split at hdesc'
    · cases hdesc'
    next hne =>
    by_cases hqueue : desc'.queue = desc.queue
    · -- the other descriptor keeps the queue open
      obtain ⟨q, hq⟩ := isSome_iff_exists.mp (h.live mqd desc hdesc)
      have hcount := h.count _ _ hq
      have hother : 0 < (s.descriptors.erase mqd).entries.countP (·.2.queue = desc.queue) := by
        refine pos_of_lookup (a := mqd') (b := desc') ?_ (by simpa using hqueue)
        rw [lookup_erase_eq, if_neg hne, hdesc']
      have hk := hopened desc.queue
      rw [if_pos rfl] at hk
      rw [hqueue, update_self, hq, bind_some, if_neg (by omega)]
      rfl
    · rw [update_of_ne hqueue]
      exact h.live mqd' desc' hdesc'

lemma Counted.unlinkAt (k : κ) : (s.unlinkAt k).Counted where
  count k' q' hq' := by
    change Function.update s.queues k _ k' = some q' at hq'
    by_cases hk : k' = k
    · rw [hk, update_self] at hq'
      obtain ⟨q, hq, hrest⟩ := bind_eq_some_iff.mp hq'
      split at hrest
      · cases hrest
      cases hrest
      rw [hk]
      exact h.count k q hq
    · rw [update_of_ne hk] at hq'
      exact h.count k' q' hq'
  live mqd desc hdesc := by
    change (Function.update s.queues k _ desc.queue).isSome
    have hlive := h.live mqd desc hdesc
    by_cases hk : desc.queue = k
    · obtain ⟨q, hq⟩ := isSome_iff_exists.mp hlive
      have hcount := h.count _ _ hq
      have hpos : 0 < s.opened desc.queue := pos_of_lookup hdesc (by simp)
      rw [← hk, update_self, hq, bind_some, if_neg (by omega)]
      rfl
    · rw [update_of_ne hk]
      exact hlive

omit h in
/-- Work on a queue fails and changes nothing, or replaces the queue of a descriptor. -/
lemma act_cases (s : Store κ) (mqd : UInt32) (refused : UInt32 → Bool)
    (f : MqQueue → Except Errno (α × MqQueue)) : (∃ e, s.act mqd refused f = (.error e, s)) ∨
    ∃ desc q a q', s.descriptors.lookup mqd = some desc ∧ s.queues desc.queue = some q ∧
      f q = .ok (a, q') ∧ s.act mqd refused f =
        (.ok a, { s with queues := Function.update s.queues desc.queue (some q') }) := by
  unfold Store.act
  split
  · exact .inl ⟨_, rfl⟩
  next desc hdesc =>
  split
  · exact .inl ⟨_, rfl⟩
  split
  · exact .inl ⟨_, rfl⟩
  next q hq =>
  split
  · exact .inl ⟨_, rfl⟩
  · next a q' hf => exact .inr ⟨desc, q, a, q', hdesc, hq, hf, rfl⟩

lemma Counted.act (mqd : UInt32) (refused : UInt32 → Bool)
    (hf : ∀ q a q', f q = .ok (a, q') → q.SameUse q') :
    (s.act mqd refused f).2.Counted := by
  obtain ⟨e, hact⟩ | ⟨desc, q, a, q', -, hq, hfq, hact⟩ := s.act_cases mqd refused f <;> rw [hact]
  · exact h
  · exact h.set hq (hf q a q' hfq).openCount

lemma Counted.mqGetsetattr (mqd : UInt32) (newFlags : Option UInt32) :
    (s.mqGetsetattr mqd newFlags).2.Counted := by
  unfold Store.mqGetsetattr
  split
  · exact h
  next desc hdesc =>
  split
  · exact h
  cases newFlags with
  | none => exact h
  | some =>
    constructor
    · intro k q hq
      rw [h.count k q hq]
      exact (countP_replace hdesc rfl).symm
    intro mqd' desc' hdesc'
    rw [lookup_insert_eq] at hdesc'
    split at hdesc'
    · cases hdesc'
      exact h.live mqd desc hdesc
    · exact h.live mqd' desc' hdesc'

lemma Counted.cleanupProcess (pid : UInt32) : (s.cleanupProcess pid).Counted := by
  apply h.of_queues
  intro k
  rw [map_map]
  apply congrArg (Option.map · (s.queues k))
  funext q
  dsimp only [Function.comp]
  split <;> rfl

end

end Store

@[simp] lemma Reply.snd_of {σ : Type} (f : α → Reply) (r : Except Errno α × σ) :
    (Reply.of f r).2 = r.2 := by
  rcases r with ⟨_ | _, _⟩ <;> rfl

lemma Store.Counted.answer {s : Store κ} (h : s.Counted) (call : StoreCall) :
    (s.answer call).2.Counted := by
  cases call with try rw [Store.answer, Reply.snd_of]
  | mqClose mqd => exact h.mqClose mqd
  | mqSend mqd => exact h.act mqd _ fun _ _ _ => MqQueue.sameUse_send
  | mqReceive mqd => exact h.act mqd _ fun _ _ _ => MqQueue.sameUse_receive
  | mqNotify mqd => exact h.act mqd _ fun _ _ _ => MqQueue.sameUse_notify
  | mqGetsetattr mqd newFlags => exact h.mqGetsetattr mqd newFlags
  | cleanupProcess pid => exact h.cleanupProcess pid

namespace Store

variable {s : Store κ} {k : κ} {q : MqQueue}

/-- What a call can do to a queue: change it, with its messages only through a descriptor that was
opened on it, or remove it after it was unlinked. -/
inductive Becomes (s : Store κ) (k : κ) (call : StoreCall) (o : Option MqQueue) : Prop
  | same (h : o = s.queues k)
  | changed {q q' : MqQueue} (hq : s.queues k = some q) (hq' : o = some q')
      (hunlinked : q'.unlinked = q.unlinked)
      (hmessages : q'.messages = q.messages ∨ ∃ mqd desc, call.moves = some mqd ∧
        s.descriptors.lookup mqd = some desc ∧ desc.queue = k)
  | removed {q : MqQueue} (hq : s.queues k = some q) (ho : o = none) (hunlinked : q.unlinked = true)

lemma becomes_act {mqd : UInt32} {refused : UInt32 → Bool}
    (hf : ∀ q a q', f q = .ok (a, q') → q.SameUse q' ∧
      (q'.messages = q.messages ∨ call.moves = some mqd)) :
    s.Becomes k call ((s.act mqd refused f).2.queues k) := by
  obtain ⟨e, hact⟩ | ⟨desc, q, a, q', hdesc, hq, hq', hact⟩ :=
    s.act_cases mqd refused f <;> rw [hact]
  · exact .same rfl
  by_cases hk : k = desc.queue
  · subst hk
    refine .changed hq (update_self ..) (hf q a q' hq').1.unlinked ?_
    rcases (hf q a q' hq').2 with hsame | hmoves
    · exact .inl hsame
    · exact .inr ⟨mqd, desc, hmoves, hdesc, rfl⟩
  · exact .same (update_of_ne hk ..)

lemma becomes_answer (k : κ) : s.Becomes k call ((s.answer call).2.queues k) := by
  cases call with
  | mqClose =>
    rw [answer, Reply.snd_of]
    unfold mqClose
    split
    · exact .same rfl
    next desc hdesc =>
    by_cases hk : k = desc.queue
    · subst hk
      dsimp only
      rw [update_self]
      cases hq : s.queues desc.queue with
      | none => exact .same hq.symm
      | some =>
        rw [bind_some]
        split
        · next hlast => exact .removed hq rfl hlast.2
        · exact .changed hq rfl rfl (.inl rfl)
    · exact .same (update_of_ne hk ..)
  | mqSend mqd =>
    rw [answer, Reply.snd_of]
    exact becomes_act fun _ _ _ h => ⟨MqQueue.sameUse_send h, .inr rfl⟩
  | mqReceive mqd =>
    rw [answer, Reply.snd_of]
    exact becomes_act fun _ _ _ h => ⟨MqQueue.sameUse_receive h, .inr rfl⟩
  | mqNotify mqd =>
    rw [answer, Reply.snd_of]
    refine becomes_act fun _ _ _ h => ⟨MqQueue.sameUse_notify h, .inl ?_⟩
    obtain ⟨n, rfl⟩ := MqQueue.notify_eq_ok h
    rfl
  | mqGetsetattr mqd newFlags =>
    rw [answer]
    unfold mqGetsetattr
    split
    · exact .same rfl
    split
    · exact .same rfl
    · cases newFlags <;> exact .same rfl
  | cleanupProcess pid =>
    cases hq : s.queues k with
    | none => exact .same (by simp only [answer, cleanupProcess, hq, map_none])
    | some q =>
      have hq' : (s.answer (.cleanupProcess pid)).2.queues k = some
          (if q.notification.any (·.pid = pid) then { q with notification := none } else q) := by
        simp [answer, cleanupProcess, hq]
      refine .changed hq hq' ?_ (.inl ?_) <;> (split <;> rfl)

lemma listed_answer : (s.answer call).2.listed k = s.listed k := by
  unfold listed
  cases becomes_answer k with
  | same h => rw [h]
  | changed hq hq' hunlinked => rw [hq, hq', any_some, any_some, hunlinked]
  | removed hq ho hunlinked => rw [hq, ho, any_some, hunlinked]; rfl

lemma isSome_of_answer (h : ((s.answer call).2.queues k).isSome) : (s.queues k).isSome := by
  cases becomes_answer k with
  | same heq => rwa [heq] at h
  | changed hq => rw [hq]; rfl
  | removed hq => rw [hq]; rfl

lemma Counted.messages_answer (h : s.Counted) (hq : s.queues k = some q)
    (hmoves : ∀ mqd desc, call.moves = some mqd → s.descriptors.lookup mqd = some desc →
      desc.queue ≠ k)
    (hopen : 0 < (s.answer call).2.opened k) :
    ∃ q', (s.answer call).2.queues k = some q' ∧ q'.messages = q.messages := by
  cases becomes_answer k with
  | same heq => exact ⟨q, heq.trans hq, rfl⟩
  | changed hq0 hq' _ hmessages =>
    rw [hq] at hq0
    cases hq0
    rcases hmessages with hsame | ⟨mqd, desc, hmove, hdesc, hqueue⟩
    · exact ⟨_, hq', hsame⟩
    · exact absurd hqueue (hmoves mqd desc hmove hdesc)
  | removed _ ho =>
    have hzero := (h.answer call).opened_eq_zero ho
    omega

end Store

end Kandelo.Kernel.Mqueue
