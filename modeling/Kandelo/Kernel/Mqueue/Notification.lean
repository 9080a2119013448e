import Kandelo.Kernel.Mqueue.Identity

/-!
# Notifications of a queue

How a process that registered for a notification loses it. `mq_notify` without a
`sigevent` takes the notification away, no matter which process has registered it.
-/

namespace Kandelo.Kernel.Mqueue.MqueueTable

open Function Option MqQueue

variable (t : MqueueTable) (name : Name) (n : MqNotification)

/-- The notification is still there after the call. -/
def Keeps (call : Call) : Prop :=
  ∃ q, (t.answer call).2.queues name = some q ∧ q.notification = some n

/-- The reasons for which a notification may go: its process unregisters through a descriptor of the
queue or exits, it is fired, or its queue goes. A queue that was unlinked goes when its name is used
for a new one. -/
inductive Ends (t : MqueueTable) (name : Name) (n : MqNotification) : Call → Prop
  | unregistered {mqd signo : UInt32} {desc : MqDescriptor Name}
      (hdesc : t.descriptors.lookup mqd = some desc) (hname : desc.queue = name) :
      Ends t name n (.other (.mqNotify mqd n.pid none signo))
  | exited : Ends t name n (.other (.cleanupProcess n.pid))
  | fired {call : Call} (h : (t.answer call).1 = .notified (some n)) : Ends t name n call
  | destroyed {call : Call} (h : (t.answer call).2.queues name = none) : Ends t name n call
  | replaced {r : OpenRequest} (hname : r.name = name) (h : t.listed name = false) :
      Ends t name n (.mqOpen r)

/-- Another process unregisters through a descriptor of the queue. -/
def Cancels (call : Call) : Prop :=
  ∃ mqd pid signo desc, call = .other (.mqNotify mqd pid none signo) ∧ pid ≠ n.pid ∧
    t.descriptors.lookup mqd = some desc ∧ desc.queue = name

variable {t name n} {q : MqQueue} {α : Type}

section

variable (hq : t.queues name = some q) (hn : q.notification = some n) {call : Call}

include hq hn

lemma keeps_of_same (h : (t.answer call).2 = t) : t.Keeps name n call := ⟨q, by rw [h, hq], hn⟩

lemma kept_of_bind {c : MqQueue → Prop} [DecidablePred c] {f : MqQueue → MqQueue}
    (hf : ∀ q, (f q).notification = q.notification) (q' : MqQueue)
    (h : ((t.queues name).bind fun q => if c q then none else some (f q)) = some q') :
    q'.notification = some n := by
  rw [hq, bind_some] at h
  split at h <;> cases h
  rw [hf, hn]

lemma keeps_update {k : Name} {o : Option MqQueue}
    (hcall : (t.answer call).2.queues = update t.queues k o)
    (ho : k = name → (∀ q', o = some q' → q'.notification = some n) ∨ t.Ends name n call) :
    t.Keeps name n call ∨ t.Ends name n call := by
  by_cases hname : k = name
  · have hafter : (t.answer call).2.queues name = o := by rw [hcall, ← hname, update_self]
    rcases ho hname with hkept | hends
    · cases o with
      | none => exact .inr (.destroyed hafter)
      | some q' => exact .inl ⟨q', hafter, hkept q' rfl⟩
    · exact .inr hends
  · exact .inl ⟨q, by rw [hcall, update_of_ne (Ne.symm hname), hq], hn⟩

lemma keeps_act {mqd : UInt32} {refused : UInt32 → Bool}
    {f : MqQueue → Except Errno (α × MqQueue)} {g : α → Reply}
    (hcall : t.answer call = Reply.of g (t.act mqd refused f))
    (hf : ∀ desc a q', t.descriptors.lookup mqd = some desc → desc.queue = name →
      f q = .ok (a, q') → (t.answer call).1 = g a → q'.notification = some n ∨ t.Ends name n call) :
    t.Keeps name n call ∨ t.Ends name n call := by
  obtain ⟨e, hact⟩ | ⟨desc, q₀, a, q', hdesc, hq₀, hfq, hact⟩ := t.act_cases mqd refused f
  · exact .inl (keeps_of_same hq hn (by rw [hcall, hact]; rfl))
  · refine keeps_update hq hn (by rw [hcall, hact]; rfl) fun hname => ?_
    rw [hname, hq] at hq₀
    cases hq₀
    refine (hf desc a q' hdesc hname hfq (by rw [hcall, hact]; rfl)).imp_left ?_
    rintro hkept _ ⟨⟩
    exact hkept

/-- A notification goes only for one of the reasons, if and only if no other process cancels it. -/
theorem only_registrant_cancels_iff (call : Call) :
    t.Keeps name n call ∨ t.Ends name n call ↔ ¬t.Cancels name n call := by
  constructor
  · rintro h ⟨mqd, pid, signo, desc, rfl, hpid, hdesc, rfl⟩
    have hact : t.answer (.other (.mqNotify mqd pid none signo)) = (.done,
        { t with
          queues := update t.queues desc.queue (some { q with notification := none }) }) := by
      simp [answer, Store.answer, Store.mqNotify, Store.act, hdesc, hq, notify, Reply.of]
    obtain ⟨q', hq', hn'⟩ | hends := h
    · rw [hact] at hq'
      cases (update_self ..).symm.trans hq'
      cases hn'
    · cases hends with
      | unregistered => exact hpid rfl
      | fired h | destroyed h => simp [hact] at h
  · intro h
    cases call with
    | mqOpen r =>
      by_cases hnew : r.name = name ∧ t.listed name = false
      · exact .inr (.replaced hnew.1 hnew.2)
      cases hcheck : r.check (t.listed r.name) with
      | error => exact .inl (keeps_of_same hq hn (by simp [answer, mqOpen, hcheck, Reply.of]))
      | ok =>
        refine keeps_update hq hn (by simp [answer, mqOpen, hcheck, Reply.of]; rfl) ?_
        rintro rfl
        have hl : t.listed r.name = true := by simpa using hnew
        rw [hl, if_pos rfl, hq]
        exact .inl (by rintro _ ⟨⟩; exact hn)
    | mqUnlink name' =>
      by_cases hl : t.listed name' = true
      · refine keeps_update hq hn (by simp [answer, mqUnlink, hl, Reply.of]; rfl) ?_
        rintro rfl
        exact .inl (kept_of_bind hq hn fun _ => rfl)
      · exact .inl (keeps_of_same hq hn (by simp [answer, mqUnlink, hl, Reply.of]))
    | other call =>
      cases call with
      | mqClose mqd =>
        cases hdesc : t.descriptors.lookup mqd with
        | none =>
          refine .inl (keeps_of_same hq hn ?_)
          simp [answer, Store.answer, Store.mqClose, hdesc, Reply.of]
        | some desc =>
          refine keeps_update hq hn
            (by simp [answer, Store.answer, Store.mqClose, hdesc, Reply.of]; rfl) ?_
          rintro rfl
          exact .inl (kept_of_bind hq hn fun _ => rfl)
      | mqSend mqd data priority =>
        refine keeps_act hq hn rfl fun desc a q' _ _ hsend hreply => ?_
        unfold send at hsend
        split_ifs at hsend <;> cases hsend
        · exact .inr (.fired (hreply.trans (congrArg _ hn)))
        · exact .inl hn
      | mqReceive mqd bufSize =>
        refine keeps_act hq hn rfl fun desc a q' _ _ hreceive _ => .inl ?_
        unfold receive at hreceive
        split_ifs at hreceive
        split at hreceive <;> cases hreceive
        exact hn
      | mqNotify mqd pid kind signo =>
        refine keeps_act hq hn rfl fun desc a q' hdesc hname hnotify _ => ?_
        cases kind with
        | none =>
          by_cases hpid : pid = n.pid
          · exact .inr (hpid ▸ .unregistered hdesc hname)
          · exact absurd ⟨mqd, pid, signo, desc, rfl, hpid, hdesc, hname⟩ h
        | some kind =>
          simp only [notify, hn, isSome_some, if_true] at hnotify
          split_ifs at hnotify
      | mqGetsetattr mqd newFlags =>
        refine .inl ⟨q, ?_, hn⟩
        rw [answer, Store.answer, Reply.snd_of, ← hq]
        unfold Store.mqGetsetattr
        (repeat' split) <;> rfl
      | cleanupProcess pid =>
        by_cases hpid : n.pid = pid
        · exact .inr (hpid ▸ .exited)
        · exact .inl ⟨q, by simp [answer, Store.answer, Store.cleanupProcess, hq, hn, hpid], hn⟩

end

/-- A queue that process 1 has registered for, with a second descriptor. -/
def registered : MqueueTable :=
  (replies answer Store.empty
    [.other (.mqNotify mqdBase 1 (some sigevSignal) 10), createQueue, createQueue]).2

/-- The exit of another process. -/
theorem only_registrant_cancels_exit :
    let call := .other (.cleanupProcess 2)
    registered.Keeps [0x2f, 0x71] ⟨1, 10⟩ call ∨ registered.Ends [0x2f, 0x71] ⟨1, 10⟩ call :=
  (only_registrant_cancels_iff rfl rfl _).mpr (by rintro ⟨_, _, _, _, ⟨⟩, _⟩)

/-- Another process cancels the registration. -/
theorem other_process_cancels :
    let call := .other (.mqNotify (mqdBase + 1) 2 none 0)
    let after := (registered.answer call).2
    (registered.queues [0x2f, 0x71]).bind (·.notification) = some ⟨1, 10⟩ ∧
      (registered.answer call).1 = .done ∧
      (after.queues [0x2f, 0x71]).map (·.notification) = some none := by
  decide

end Kandelo.Kernel.Mqueue.MqueueTable
