import Kandelo.Kernel.Mqueue.Calls
import Kandelo.Lib.History

/-!
# A descriptor and the queue that it was opened on

In the table of the kernel a descriptor finds its queue by name. Here it is compared
with one in which each queue that is created has an identity of its own, which its descriptors keep.
The two behave alike as long as no queue is created under the name of one that was unlinked and is
still open.
-/

namespace Kandelo.Kernel.Mqueue

open Lib Option Function Entries
open MqueueTable

variable {κ : Type} [DecidableEq κ] {s : Store κ}

/-! ### Queues with an identity -/

/-- A store in which queues have identities, with the identity of each name and the next one. -/
structure IdentityTable where
  store : Store Nat
  names : Name → Option Nat
  nextQueue : Nat

namespace IdentityTable

/-- No queue. -/
def new : IdentityTable := ⟨.empty, fun _ => none, 0⟩

variable (i : IdentityTable)

/-- `mq_open`, with a new identity for a new queue. -/
def mqOpen (r : OpenRequest) : Except Errno UInt32 × IdentityTable :=
  match r.check (i.names r.name).isSome with
  | .error e => (.error e, i)
  | .ok () =>
    match i.names r.name with
    | some k => (.ok (i.store.openAs k true r).1, { i with store := (i.store.openAs k true r).2 })
    | none =>
      (.ok (i.store.openAs i.nextQueue false r).1,
        { store := (i.store.openAs i.nextQueue false r).2
          names := Function.update i.names r.name (some i.nextQueue)
          nextQueue := i.nextQueue + 1 })

/-- `mq_unlink`, after which the identity has no name. -/
def mqUnlink (name : Name) : Except Errno Unit × IdentityTable :=
  match i.names name with
  | none => (.error .ENOENT, i)
  | some k =>
    (.ok (), { i with store := i.store.unlinkAt k, names := Function.update i.names name none })

end IdentityTable

/-! ### Calls with names -/

/-- The calls of processes. -/
inductive Call
  | mqOpen (r : OpenRequest)
  | mqUnlink (name : Name)
  | other (call : StoreCall)

variable (t : MqueueTable) {call : Call}

/-- The reply of the kernel's table. -/
def MqueueTable.answer : Call → Reply × MqueueTable
  | .mqOpen r => Reply.of .descriptor (mqOpen t r)
  | .mqUnlink name => Reply.of (fun _ => .done) (mqUnlink t name)
  | .other call => Store.answer t call

/-- The reply of the table of identities. -/
def IdentityTable.answer (i : IdentityTable) : Call → Reply × IdentityTable
  | .mqOpen r => Reply.of .descriptor (i.mqOpen r)
  | .mqUnlink name => Reply.of (fun _ => .done) (i.mqUnlink name)
  | .other call => ((i.store.answer call).1, { i with store := (i.store.answer call).2 })

/-- Calls in some order, the latest first, with their replies. -/
def replies {σ : Type} (answer : σ → Call → Reply × σ) (s : σ) : List Call → List Reply × σ
  | [] => ([], s)
  | call :: earlier =>
    let (before, s) := replies answer s earlier
    let (reply, s) := answer s call
    (reply :: before, s)

/-! ### Stores that behave alike -/

/-- The descriptor with its queue named in another way. -/
def MqDescriptor.retarget {μ : Type} (ident : κ → μ) (desc : MqDescriptor κ) : MqDescriptor μ :=
  ⟨ident desc.queue, desc.accessMode, desc.nonblock⟩

/-- Two stores with the same descriptors, whose queues are found by other keys. -/
structure Alike {μ : Type} (ident : κ → μ) (s : Store κ) (s' : Store μ) : Prop where
  nextMqd : s'.nextMqd = s.nextMqd
  lookup : ∀ mqd, s'.descriptors.lookup mqd = (s.descriptors.lookup mqd).map (·.retarget ident)
  queues : ∀ k, (s.queues k).isSome → s'.queues (ident k) = s.queues k
  inj : ∀ k k', (s.queues k).isSome → (s.queues k').isSome → ident k = ident k' → k = k'

/-- The same answer, and stores that are alike. -/
abbrev Agree {μ α : Type} (ident : κ → μ) (r : α × Store κ) (r' : α × Store μ) : Prop :=
  r'.1 = r.1 ∧ Alike ident r.2 r'.2

namespace Alike

variable {μ : Type} {ident : κ → μ} {s : Store κ} {s' : Store μ} {k : κ}

section

omit [DecidableEq κ]

lemma of_result {α : Type} {f : α → Reply} {r : Except Errno α × Store κ}
    {r' : Except Errno α × Store μ} (h : Agree ident r r') :
    Agree ident (Reply.of f r) (Reply.of f r') := by
  rcases r with ⟨_ | _, _⟩ <;> rcases r' with ⟨_ | _, _⟩ <;> cases h.1 <;> exact ⟨rfl, h.2⟩

variable (h : Alike ident s s')

include h

lemma insert (mqd : UInt32) (desc : MqDescriptor κ) :
    Alike ident { s with descriptors := s.descriptors.insert mqd desc }
      { s' with descriptors := s'.descriptors.insert mqd (desc.retarget ident) } := by
  refine ⟨h.nextMqd, fun mqd' => ?_, h.queues, h.inj⟩
  rw [lookup_insert_eq, lookup_insert_eq]
  split
  · rfl
  · exact h.lookup mqd'

lemma erase (mqd : UInt32) :
    Alike ident { s with descriptors := s.descriptors.erase mqd }
      { s' with descriptors := s'.descriptors.erase mqd } := by
  refine ⟨h.nextMqd, fun mqd' => ?_, h.queues, h.inj⟩
  rw [lookup_erase_eq, lookup_erase_eq]
  split
  · rfl
  · exact h.lookup mqd'

lemma cleanupProcess (pid : UInt32) :
    Alike ident (s.cleanupProcess pid) (s'.cleanupProcess pid) where
  nextMqd := h.nextMqd
  lookup := h.lookup
  queues k hk := by
    rw [Store.cleanupProcess, isSome_map] at hk
    simp only [Store.cleanupProcess, h.queues k hk]
  inj k k' hk hk' := by
    rw [Store.cleanupProcess, isSome_map] at hk hk'
    exact h.inj k k' hk hk'

end

variable (h : Alike ident s s')

include h

lemma mqGetsetattr (hs : s.Counted) (mqd : UInt32)
    (newFlags : Option UInt32) :
    Agree ident (s.mqGetsetattr mqd newFlags) (s'.mqGetsetattr mqd newFlags) := by
  unfold Store.mqGetsetattr
  rw [h.lookup]
  cases hdesc : s.descriptors.lookup mqd with
  | none => exact ⟨rfl, h⟩
  | some desc =>
    have hlive := hs.live mqd desc hdesc
    simp only [map_some, MqDescriptor.retarget, h.queues _ hlive]
    cases s.queues desc.queue with
    | none => exact ⟨rfl, h⟩
    | some =>
      cases newFlags with
      | none => exact ⟨rfl, h⟩
      | some => exact ⟨rfl, h.insert mqd _⟩

variable [DecidableEq μ]

lemma update (hk : (s.queues k).isSome) (o : Option MqQueue) :
    Alike ident { s with queues := Function.update s.queues k o }
      { s' with queues := Function.update s'.queues (ident k) o } := by
  have hlive {k' : κ} (hk' : (Function.update s.queues k o k').isSome) : (s.queues k').isSome := by
    by_cases heq : k' = k
    · rw [heq]
      exact hk
    · rwa [update_of_ne heq] at hk'
  refine ⟨h.nextMqd, h.lookup, fun k' hk' => ?_,
    fun k1 k2 h1 h2 => h.inj k1 k2 (hlive h1) (hlive h2)⟩
  dsimp only
  by_cases heq : k' = k
  · rw [heq, update_self, update_self]
  have hne : ident k' ≠ ident k := fun hident => heq (h.inj k' k (hlive hk') hk hident)
  rw [update_of_ne hne, update_of_ne heq]
  exact h.queues k' (hlive hk')

lemma act {α : Type} (hs : s.Counted) (mqd : UInt32)
    (refused : UInt32 → Bool) (f : MqQueue → Except Errno (α × MqQueue)) :
    Agree ident (s.act mqd refused f) (s'.act mqd refused f) := by
  unfold Store.act
  rw [h.lookup]
  cases hdesc : s.descriptors.lookup mqd with
  | none => exact ⟨rfl, h⟩
  | some desc =>
    have hlive := hs.live mqd desc hdesc
    simp only [map_some, MqDescriptor.retarget, h.queues _ hlive]
    split
    · exact ⟨rfl, h⟩
    split
    · exact ⟨rfl, h⟩
    split
    · exact ⟨rfl, h⟩
    · exact ⟨rfl, h.update hlive _⟩

lemma mqClose (hs : s.Counted) (mqd : UInt32) : Agree ident (s.mqClose mqd) (s'.mqClose mqd) := by
  unfold Store.mqClose
  rw [h.lookup]
  cases hdesc : s.descriptors.lookup mqd with
  | none => exact ⟨rfl, h⟩
  | some desc =>
    have hlive := hs.live mqd desc hdesc
    simp only [map_some, MqDescriptor.retarget, h.queues _ hlive]
    exact ⟨rfl, (h.erase mqd).update hlive _⟩

lemma answer (hs : s.Counted) (call : StoreCall) :
    Agree ident (s.answer call) (s'.answer call) := by
  cases call with
  | mqClose mqd => exact of_result (h.mqClose hs mqd)
  | mqSend mqd data priority | mqReceive mqd bufSize | mqNotify mqd pid kind signo =>
    exact of_result (h.act hs mqd _ _)
  | mqGetsetattr mqd newFlags => exact of_result (h.mqGetsetattr hs mqd newFlags)
  | cleanupProcess pid => exact ⟨rfl, h.cleanupProcess pid⟩

lemma openFound (hk : (s.queues k).isSome) (r : OpenRequest) :
    Agree ident (s.openAs k true r) (s'.openAs (ident k) true r) := by
  have hboth :=
    (h.update hk ((s.queues k).map fun q => { q with openCount := q.openCount + 1 })).insert
    s.nextMqd ⟨k, r.flags &&& oAccmode, r.flags &&& oNonblock ≠ 0⟩
  simp only [Store.openAs, h.queues k hk, h.nextMqd]
  exact ⟨rfl, rfl, hboth.lookup, hboth.queues, hboth.inj⟩

lemma openNew (hs : s.Counted) (hk : s.queues k = none) {n : μ}
    (hn : ∀ k', (s.queues k').isSome → ident k' ≠ n) (r : OpenRequest) :
    Agree (Function.update ident k n) (s.openAs k false r) (s'.openAs n false r) := by
  have hold {k' : κ} (hne : k' ≠ k) (hk' : ((s.openAs k false r).2.queues k').isSome) :
      (s.queues k').isSome := by
    simp only [Store.openAs, update_of_ne hne] at hk'
    exact hk'
  refine ⟨h.nextMqd, congrArg (· + 1) h.nextMqd, fun mqd => ?_, fun k' hk' => ?_,
    fun k1 k2 h1 h2 heq => ?_⟩
  · simp only [Store.openAs, h.nextMqd, lookup_insert_eq]
    split
    · simp [MqDescriptor.retarget]
    rw [h.lookup]
    cases hdesc : s.descriptors.lookup mqd with
    | none => rfl
    | some desc =>
      have hne : desc.queue ≠ k := by
        intro heq
        have hlive := hs.live mqd desc hdesc
        rw [heq, hk] at hlive
        cases hlive
      simp [MqDescriptor.retarget, update_of_ne hne]
  · simp only [Store.openAs]
    by_cases hne : k' = k
    · rw [hne, update_self, update_self, update_self]
      rfl
    · have hlive := hold hne hk'
      rw [update_of_ne hne, update_of_ne hne, update_of_ne (hn k' hlive)]
      exact h.queues k' hlive
  · by_cases hk1 : k1 = k
    · by_cases hk2 : k2 = k
      · rw [hk1, hk2]
      · rw [hk1, update_self, update_of_ne hk2] at heq
        exact absurd heq.symm (hn k2 (hold hk2 h2))
    · by_cases hk2 : k2 = k
      · rw [hk2, update_self, update_of_ne hk1] at heq
        exact absurd heq (hn k1 (hold hk1 h1))
      · rw [update_of_ne hk1, update_of_ne hk2] at heq
        exact h.inj k1 k2 (hold hk1 h1) (hold hk2 h2) heq

lemma unlinkAt (hk : (s.queues k).isSome) : Alike ident (s.unlinkAt k) (s'.unlinkAt (ident k)) := by
  unfold Store.unlinkAt
  rw [h.queues k hk]
  exact h.update hk _

end Alike

/-! ### Runs -/

/-- The table of the kernel and the one with identities, when no name has been taken from a queue
that is open and given to another. -/
structure Mirrors (ident : Name → Nat) (t : MqueueTable) (i : IdentityTable) : Prop where
  alike : Alike ident t i.store
  names : ∀ name, i.names name = if t.listed name then some (ident name) else none
  counted : t.Counted
  identities : i.store.Counted
  old : ∀ name, (t.queues name).isSome → ident name < i.nextQueue
  fresh : ∀ k, i.nextQueue ≤ k → i.store.queues k = none

/-- A call that does not create a queue under the name of one that was unlinked and is still open,
nor uses the number of a descriptor that is open. -/
def MqueueTable.Safe : Call → Prop
  | .mqOpen r => r.check (t.listed r.name) = .ok () →
    (t.queues r.name).isSome = t.listed r.name ∧ t.descriptors.lookup t.nextMqd = none
  | _ => True

omit [DecidableEq κ] in
lemma isSome_of_listed {k : κ} (h : s.listed k = true) : (s.queues k).isSome := by
  unfold Store.listed at h
  cases hq : s.queues k with
  | none =>
    rw [hq] at h
    cases h
  | some => rfl

lemma listed_openAs {k : κ} {found : Bool} (h : found = s.listed k)
    (hsome : (s.queues k).isSome = found) (r : OpenRequest) (k' : κ) :
    (s.openAs k found r).2.listed k' = (decide (k' = k) || s.listed k') := by
  unfold Store.listed Store.openAs
  dsimp only
  by_cases hk : k' = k
  · rw [hk]
    cases found with
    | false => simp [OpenRequest.newQueue]
    | true =>
      rw [Store.listed] at h
      cases hq : s.queues k with
      | none =>
        rw [hq] at hsome
        cases hsome
      | some =>
        rw [hq, any_some] at h
        simp [← h]
  · rw [update_of_ne hk, decide_eq_false hk, Bool.false_or]

namespace Mirrors

variable {ident : Name → Nat} {t : MqueueTable} {i : IdentityTable}

section

variable (h : Mirrors ident t i)

include h

lemma isSome_names (name : Name) : (i.names name).isSome = t.listed name := by
  rw [h.names]
  cases t.listed name <;> rfl

lemma other (call : StoreCall) :
    (i.answer (.other call)).1 = (answer t (.other call)).1 ∧
      Mirrors ident (answer t (.other call)).2 (i.answer (.other call)).2 := by
  obtain ⟨hreply, halike⟩ := h.alike.answer h.counted call
  refine ⟨hreply, halike, fun name => ?_, h.counted.answer call, h.identities.answer call, ?_, ?_⟩
  · have hlisted : (Store.answer t call).2.listed name = t.listed name :=
      Store.listed_answer
    simp only [answer, hlisted]
    exact h.names name
  · exact fun name hname => h.old name (Store.isSome_of_answer hname)
  · intro k hk
    by_contra hsome
    have hbefore := Store.isSome_of_answer (isSome_iff_ne_none.mpr hsome)
    rw [h.fresh k hk] at hbefore
    cases hbefore

lemma mqUnlink (name : Name) :
    (i.answer (.mqUnlink name)).1 = (MqueueTable.answer t (.mqUnlink name)).1 ∧
      Mirrors ident (MqueueTable.answer t (.mqUnlink name)).2 (i.answer (.mqUnlink name)).2 := by
  simp only [IdentityTable.answer, MqueueTable.answer, IdentityTable.mqUnlink, MqueueTable.mqUnlink,
    h.names name]
  cases hlisted : t.listed name with
  | false => exact ⟨rfl, h⟩
  | true =>
    have hsome := isSome_of_listed hlisted
    have hqueues (k : Name) : ((t.unlinkAt name).queues k).isSome → (t.queues k).isSome := by
      intro hk
      by_cases heq : k = name
      · rw [heq]
        exact hsome
      · simpa [Store.unlinkAt, update_of_ne heq] using hk
    refine ⟨rfl, h.alike.unlinkAt hsome, fun name' => ?_, h.counted.unlinkAt name,
      h.identities.unlinkAt _,
        fun name' hname' => h.old name' (hqueues name' hname'), fun k hk => ?_⟩
    · simp only [Reply.of, if_true, Store.listed, Store.unlinkAt]
      by_cases heq : name' = name
      · rw [heq, update_self, update_self]
        obtain ⟨q, hq⟩ := isSome_iff_exists.mp hsome
        rw [hq, bind_some]
        split <;> rfl
      · rw [update_of_ne heq, update_of_ne heq]
        exact h.names name'
    · have hk' : i.nextQueue ≤ k := hk
      have hne : k ≠ ident name := by
        have hold := h.old name hsome
        omega
      simp only [Reply.of, if_true, Store.unlinkAt, update_of_ne hne]
      exact h.fresh k hk'

lemma mqOpen {r : OpenRequest} (hsafe : MqueueTable.Safe t (.mqOpen r)) :
    (i.answer (.mqOpen r)).1 = (MqueueTable.answer t (.mqOpen r)).1 ∧
      ∃ ident', Mirrors ident' (MqueueTable.answer t (.mqOpen r)).2 (i.answer (.mqOpen r)).2 := by
  simp only [IdentityTable.answer, MqueueTable.answer, IdentityTable.mqOpen, MqueueTable.mqOpen,
    h.isSome_names]
  rcases hcheck : r.check (t.listed r.name) with e | u
  · exact ⟨rfl, ident, h⟩
  obtain ⟨hsome, hfree⟩ := hsafe hcheck
  have hfree' : i.store.descriptors.lookup i.store.nextMqd = none := by
    rw [h.alike.nextMqd, h.alike.lookup, hfree]
    rfl
  cases hlisted : t.listed r.name with
  | true =>
    rw [hlisted] at hsome
    obtain ⟨hmqd, halike⟩ := h.alike.openFound hsome r
    have hsome' : true = (i.store.queues (ident r.name)).isSome := by
      rw [h.alike.queues _ hsome, hsome]
    simp only [h.names r.name, hlisted, if_true]
    refine ⟨congrArg Reply.descriptor hmqd, ident, halike, fun name => ?_,
      h.counted.openAs true hsome.symm hfree r, h.identities.openAs true hsome' hfree' r, ?_, ?_⟩
    · simp only [Reply.of, listed_openAs hlisted.symm hsome]
      by_cases heq : name = r.name
      · rw [heq, h.names, hlisted]
        simp
      · rw [h.names, decide_eq_false heq, Bool.false_or]
    · intro name hname
      by_cases heq : name = r.name
      · rw [heq]
        exact h.old _ hsome
      · refine h.old name ?_
        simpa [Store.openAs, update_of_ne heq] using hname
    · intro k hk
      have hne : k ≠ ident r.name := by
        have hold := h.old r.name hsome
        dsimp only [Reply.of] at hk
        omega
      simp only [Reply.of, Store.openAs, update_of_ne hne]
      exact h.fresh k hk
  | false =>
    rw [hlisted] at hsome
    have hnone : t.queues r.name = none := by rwa [isSome_eq_false_iff, isNone_iff_eq_none] at hsome
    have hnew : ∀ k, (t.queues k).isSome → ident k ≠ i.nextQueue :=
      fun k hk => Nat.ne_of_lt (h.old k hk)
    obtain ⟨hmqd, halike⟩ := h.alike.openNew h.counted hnone hnew r
    have hsome' : false = (i.store.queues i.nextQueue).isSome := by
      rw [h.fresh _ (Nat.le_refl _)]
      rfl
    simp only [h.names r.name, hlisted, Bool.false_eq_true, if_false]
    refine ⟨congrArg Reply.descriptor hmqd, _, halike, fun name => ?_,
      h.counted.openAs false hsome.symm hfree r, h.identities.openAs false hsome' hfree' r, ?_, ?_⟩
    · simp only [Reply.of, listed_openAs hlisted.symm hsome]
      by_cases heq : name = r.name
      · rw [heq]
        simp
      · rw [update_of_ne heq, update_of_ne heq, h.names, decide_eq_false heq, Bool.false_or]
    · intro name hname
      by_cases heq : name = r.name
      · rw [heq, update_self]
        exact Nat.lt_succ_self _
      · rw [update_of_ne heq]
        refine Nat.lt_succ_of_lt (h.old name ?_)
        simpa [Store.openAs, update_of_ne heq] using hname
    · intro k hk
      dsimp only [Reply.of] at hk
      have hne : k ≠ i.nextQueue := by omega
      simp only [Reply.of, Store.openAs, update_of_ne hne]
      exact h.fresh k (by omega)

lemma answer (hsafe : MqueueTable.Safe t call) :
    (i.answer call).1 = (answer t call).1 ∧
      ∃ ident', Mirrors ident' (answer t call).2 (i.answer call).2 := by
  cases call with
  | mqOpen => exact h.mqOpen hsafe
  | mqUnlink name => exact ⟨(h.mqUnlink name).1, ident, (h.mqUnlink name).2⟩
  | other call => exact ⟨(h.other call).1, ident, (h.other call).2⟩

end

lemma new : Mirrors (fun _ => 0) (Store.empty : MqueueTable) IdentityTable.new where
  alike := ⟨rfl, fun _ => rfl, nofun, nofun⟩
  names _ := rfl
  counted := .empty
  identities := .empty
  old := nofun
  fresh _ _ := rfl

end Mirrors

lemma mirrors_replies {calls : List Call} (h : Always (fun call earlier =>
      MqueueTable.Safe (replies answer .empty earlier).2 call) calls) :
    (replies answer .empty calls).1 = (replies IdentityTable.answer .new calls).1 ∧
      ∃ ident, Mirrors ident (replies answer .empty calls).2
        (replies IdentityTable.answer .new calls).2 := by
  induction calls with
  | nil => exact ⟨rfl, _, Mirrors.new⟩
  | cons call earlier ih =>
    rw [Always.cons_iff] at h
    obtain ⟨hbefore, ident, hmirrors⟩ := ih h.2
    obtain ⟨hreply, hafter⟩ := hmirrors.answer h.1
    simp only [replies]
    exact ⟨by rw [hbefore, hreply], hafter⟩

/-- The descriptor through which a message is sent or received. -/
def Call.moves : Call → Option UInt32
  | .other call => call.moves
  | _ => none

lemma Mirrors.messages_answer {ident : Name → Nat} {t : MqueueTable} {i : IdentityTable}
    (h : Mirrors ident t i) {k : Nat} {q : MqQueue} (hq : i.store.queues k = some q)
    (hmoves : ∀ mqd desc, call.moves = some mqd → i.store.descriptors.lookup mqd = some desc →
      desc.queue ≠ k)
    (hsafe : MqueueTable.Safe t call) (hopen : 0 < (i.answer call).2.store.opened k) :
    ∃ q', (i.answer call).2.store.queues k = some q' ∧ q'.messages = q.messages := by
  cases call with
  | other => exact h.identities.messages_answer hq hmoves hopen
  | mqUnlink name =>
    simp only [IdentityTable.answer, IdentityTable.mqUnlink] at hopen ⊢
    cases hname : i.names name with
    | none => exact ⟨q, hq, rfl⟩
    | some k' =>
      rw [hname] at hopen
      change 0 < i.store.opened k at hopen
      change ∃ q', Function.update i.store.queues k' _ k = some q' ∧ _
      by_cases hk : k = k'
      · have hcount := h.identities.count k q hq
        rw [← hk, update_self, hq, bind_some, if_neg (by omega)]
        exact ⟨_, rfl, rfl⟩
      · rw [update_of_ne hk]
        exact ⟨q, hq, rfl⟩
  | mqOpen r =>
    simp only [IdentityTable.answer, IdentityTable.mqOpen, Reply.snd_of] at hopen ⊢
    cases r.check (i.names r.name).isSome with
    | error => exact ⟨q, hq, rfl⟩
    | ok =>
      cases hname : i.names r.name with
      | none =>
        have hne : k ≠ i.nextQueue := by
          rintro rfl
          rw [h.fresh _ (Nat.le_refl _)] at hq
          cases hq
        exact ⟨q, by simp only [Store.openAs, update_of_ne hne, hq], rfl⟩
      | some k' =>
        change ∃ q', Function.update i.store.queues k' _ k = some q' ∧ _
        by_cases hk : k = k'
        · rw [← hk, update_self, hq]
          exact ⟨_, rfl, rfl⟩
        · rw [update_of_ne hk]
          exact ⟨q, hq, rfl⟩

/-- In a run whose calls are safe, the table answers as one whose descriptors keep the identity of
their queue; each queue counts its descriptors, and they are those that were opened on that very
queue; and a queue that stays open keeps its messages, unless they go through such a descriptor. -/
theorem queue_identity {calls : List Call} (h : Always (fun call earlier =>
      MqueueTable.Safe (replies MqueueTable.answer .empty earlier).2 call) calls) :
    let t := (replies MqueueTable.answer .empty calls).2
    let i := (replies IdentityTable.answer .new calls).2
    (replies MqueueTable.answer .empty calls).1 = (replies IdentityTable.answer .new calls).1 ∧
      (∀ name q, t.queues name = some q → q.openCount = t.opened name) ∧
      (∀ mqd desc, t.descriptors.lookup mqd = some desc → ∃ desc' q,
        i.store.descriptors.lookup mqd = some desc' ∧ t.queues desc.queue = some q ∧
          i.store.queues desc'.queue = some q ∧ q.openCount = i.store.opened desc'.queue) ∧
      ∀ call k q, MqueueTable.Safe t call → i.store.queues k = some q →
        (∀ mqd desc, call.moves = some mqd → i.store.descriptors.lookup mqd = some desc →
          desc.queue ≠ k) →
        0 < (i.answer call).2.store.opened k →
        ∃ q', (i.answer call).2.store.queues k = some q' ∧ q'.messages = q.messages := by
  obtain ⟨hreplies, ident, hmirrors⟩ := mirrors_replies h
  refine ⟨hreplies, hmirrors.counted.count, fun mqd desc hdesc => ?_,
    fun call k q hsafe hq hmoves =>
    hmirrors.messages_answer hq hmoves hsafe⟩
  have hlive := hmirrors.counted.live mqd desc hdesc
  obtain ⟨q, hq⟩ := isSome_iff_exists.mp hlive
  have hq' : (replies IdentityTable.answer .new calls).2.store.queues (ident desc.queue) = some q :=
    (hmirrors.alike.queues _ hlive).trans hq
  refine ⟨desc.retarget ident, q, ?_, hq, hq', hmirrors.identities.count _ q hq'⟩
  rw [hmirrors.alike.lookup, hdesc]
  rfl

/-- Create a queue with a short name, for reading and writing. -/
def createQueue : Call := .mqOpen ⟨[0x2f, 0x71], 0o102, 0, 0, false⟩

/-- A queue is created, unlinked and created again while its first descriptor is open; then a
message is sent through the first descriptor and received through the second, the latest call first.
-/
def recreated : List Call :=
  [.other (.mqReceive (mqdBase + 1) 8192), .other (.mqSend mqdBase [7] 1), createQueue,
    .mqUnlink [0x2f, 0x71], createQueue]

/-- The message of the first queue is received from the second. -/
theorem queue_identity_recreated :
    (replies MqueueTable.answer .empty recreated).1.head? = some (.message ⟨[7], 1⟩) ∧
      (replies IdentityTable.answer .new recreated).1.head? = some (.failed .EAGAIN) := by
  decide

/-- A message through a queue that was unlinked, but whose name was not used again. -/
theorem queue_identity_unlinked :
    (replies MqueueTable.answer .empty
        [.other (.mqReceive mqdBase 8192), .other (.mqSend mqdBase [7] 1), .mqUnlink [0x2f, 0x71],
          createQueue]).1 =
      (replies IdentityTable.answer .new
        [.other (.mqReceive mqdBase 8192), .other (.mqSend mqdBase [7] 1), .mqUnlink [0x2f, 0x71],
          createQueue]).1 := by
  refine (queue_identity ?_).1
  simp only [Always.cons_iff, Always.nil, and_true]
  refine ⟨trivial, trivial, trivial, fun _ => ⟨rfl, rfl⟩⟩

end Kandelo.Kernel.Mqueue
