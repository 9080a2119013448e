import Kandelo.Kernel.Errno

/-!
# The message that `msgrcv` takes

A receiver of a System V message queue asks for the oldest message, for the oldest of a type or of
any other type, or, by a negative type, for the oldest of the lowest type up to its absolute value.
For the last the kernel takes the first message up to the value, which need not have the lowest
type.
-/

namespace Kandelo.Kernel.Ipc

open List

/-- A message; `ipc.rs:87-90`. -/
structure MsgEntry where
  mtype : Int32
  data : List UInt8

/-- A queue, as far as a receiver reads and changes it; `ipc.rs:93-110`. -/
structure MsgQueue where
  mode : UInt32
  uid : UInt32
  gid : UInt32
  messages : List MsgEntry
  cbytes : Nat
  lrpid : UInt32
  rtime : Int

/-- Flags and permissions; `ipc.rs:18-30`. -/
def ipcNowait : UInt32 := 0o4000

/-- Read permission of the owner. -/
def ipcR : UInt32 := 0o400

/-- `MSG_NOERROR`. -/
def msgNoerror : UInt32 := 0o10000

/-- `MSG_EXCEPT`. -/
def msgExcept : UInt32 := 0o20000

/-- `ipc_has_perm`; `ipc.rs:45-59`. -/
def ipcHasPerm (uid gid ownerUid ownerGid mode perm : UInt32) : Bool :=
  if uid = 0 ∨ perm = 0 then true
  else
    let available :=
      (if uid = ownerUid then mode >>> 6 else if gid = ownerGid then mode >>> 3 else mode) &&& 7
    let requested := (perm >>> 6) &&& 7
    available &&& requested = requested

/-- The arguments of `msgrcv` but for the id, and the time of the call. -/
structure Request where
  maxSize : UInt32
  msgtype : Int32
  flags : UInt32
  pid : UInt32
  uid : UInt32
  gid : UInt32
  now : Int

namespace Request

variable (r : Request)

/-- The message may have any type but the requested one. -/
def except : Bool := r.flags &&& msgExcept ≠ 0

/-- The first such message is taken; `ipc.rs:386-403`. -/
def takes (m : MsgEntry) : Bool :=
  if r.msgtype = 0 then true
  else if 0 < r.msgtype then if r.except then m.mtype ≠ r.msgtype else m.mtype = r.msgtype
  else m.mtype ≤ -r.msgtype

end Request

/-- `msgrcv` on the queue that the id finds, with `find?` and `eraseP` for `position` and `remove`;
`ipc.rs:370-439`. -/
def msgrcv (found : Option MsgQueue) (r : Request) : Except Errno MsgEntry × Option MsgQueue :=
  match found with
  | none => (.error .EINVAL, none)
  | some q =>
    if ipcHasPerm r.uid r.gid q.uid q.gid q.mode ipcR = false then (.error .EACCES, some q)
    else
      match q.messages.find? r.takes with
      | none => (.error (if r.flags &&& ipcNowait ≠ 0 then .ENOMSG else .EAGAIN), some q)
      | some m =>
        if r.maxSize.toNat < m.data.length ∧ r.flags &&& msgNoerror = 0 then (.error .E2BIG, some q)
        else
          let data := m.data.take r.maxSize.toNat
          (.ok ⟨m.mtype, data⟩, some { q with
            messages := q.messages.eraseP r.takes
            cbytes := q.cbytes - data.length
            lrpid := r.pid
            rtime := r.now })

/-! ### What is asked for -/

/-- A message that the request admits. -/
def Admits (r : Request) (m : MsgEntry) : Prop :=
  if r.msgtype < 0 then m.mtype.toInt ≤ r.msgtype.toInt.natAbs
  else r.msgtype = 0 ∨ (m.mtype = r.msgtype ↔ r.except = false)

/-- Of the messages that the request admits, the oldest, for a negative type the oldest of the
lowest type; and the others in their order. -/
def Wanted (r : Request) (msgs : List MsgEntry) (m : MsgEntry) (rest : List MsgEntry) : Prop :=
  ∃ before after, msgs = before ++ m :: after ∧ rest = before ++ after ∧ Admits r m ∧
    (∀ x ∈ before, Admits r x → r.msgtype < 0 ∧ m.mtype < x.mtype) ∧
    ∀ x ∈ after, Admits r x → r.msgtype < 0 → m.mtype ≤ x.mtype

/-- The call returns the wanted message and takes out no other; or it fails and changes nothing,
because the caller may not read the queue, the request admits no message, or the wanted one does not
fit and may not be cut. -/
def Served (q : MsgQueue) (r : Request) : Except Errno MsgEntry × Option MsgQueue → Prop
  | (.ok got, found) => ∃ m q', found = some q' ∧ Wanted r q.messages m q'.messages ∧
      got = ⟨m.mtype, m.data.take r.maxSize.toNat⟩
  | (.error e, found) => found = some q ∧
      (e = .EACCES ∧ ipcHasPerm r.uid r.gid q.uid q.gid q.mode ipcR = false ∨
        (e = if r.flags &&& ipcNowait ≠ 0 then .ENOMSG else .EAGAIN) ∧
          (∀ x ∈ q.messages, ¬ Admits r x) ∨
        e = .E2BIG ∧ r.flags &&& msgNoerror = 0 ∧
          ∃ m rest, Wanted r q.messages m rest ∧ r.maxSize.toNat < m.data.length)

/-- The first message up to the absolute value of a negative type has the lowest type; for the least
`i32`, whose negation wraps, there is no message. -/
def FirstLowest (msgtype : Int32) (msgs : List MsgEntry) : Prop :=
  ∀ x ∈ msgs, x.mtype.toInt ≤ msgtype.toInt.natAbs →
    ∃ m, msgs.find? (·.mtype ≤ -msgtype) = some m ∧ m.mtype ≤ x.mtype

variable {r : Request} {q : MsgQueue} {m : MsgEntry} {msgs : List MsgEntry}

lemma takes_of_neg (h : r.msgtype < 0) : r.takes = fun m => decide (m.mtype ≤ -r.msgtype) := by
  funext m
  have h0 : r.msgtype ≠ 0 := by
    intro h0
    rw [h0] at h
    cases h
  rw [Request.takes, if_neg h0, if_neg fun hpos => absurd (Int32.lt_trans h hpos) (Int32.lt_irrefl)]

lemma takes_iff (h : ¬ r.msgtype < 0) : r.takes m = true ↔ Admits r m := by
  rw [Admits, if_neg h, Request.takes]
  by_cases h0 : r.msgtype = 0
  · simp [h0]
  rw [if_neg h0, if_pos (Int32.lt_of_le_of_ne (Int32.not_lt.mp h) (Ne.symm h0)), or_iff_right h0]
  cases r.except <;> simp

lemma toInt_neg_le (a : Int32) : (-a).toInt ≤ a.toInt.natAbs := by
  have hlow := a.le_toInt
  have hhigh := a.toInt_lt
  rw [Int32.toInt_neg, Int.bmod_def]
  split <;> omega

lemma wanted_of_find (hfind : msgs.find? r.takes = some m)
    (hlow : r.msgtype < 0 → FirstLowest r.msgtype msgs) :
    Wanted r msgs m (msgs.eraseP r.takes) := by
  obtain ⟨hm, before, after, hmsgs, hbefore⟩ := find?_eq_some_iff_append.mp hfind
  refine ⟨before, after, hmsgs, ?_, ?_, fun x hx hadmits => ?_, fun x hx hadmits hneg => ?_⟩
  · rw [hmsgs, eraseP_append_right _ fun x hx => by simpa using hbefore x hx,
      eraseP_cons_of_pos hm]
  · by_cases hneg : r.msgtype < 0
    · rw [takes_of_neg hneg, decide_eq_true_iff, Int32.le_iff_toInt_le] at hm
      rw [Admits, if_pos hneg]
      exact Int.le_trans hm (toInt_neg_le _)
    · exact (takes_iff hneg).mp hm
  · have hnot := hbefore x hx
    by_cases hneg : r.msgtype < 0
    · rw [takes_of_neg hneg, decide_eq_true_iff] at hm
      rw [takes_of_neg hneg, Bool.not_eq_true', decide_eq_false_iff_not] at hnot
      exact ⟨hneg, Int32.lt_of_le_of_lt hm (Int32.not_le.mp hnot)⟩
    · rw [(takes_iff hneg).mpr hadmits] at hnot
      cases hnot
  · rw [Admits, if_pos hneg] at hadmits
    obtain ⟨m', hm', hle⟩ := hlow hneg x (by rw [hmsgs]; simp [hx]) hadmits
    rw [takes_of_neg hneg, hm'] at hfind
    exact Option.some.inj hfind ▸ hle

lemma firstLowest_of_served (hserved : Served q r (msgrcv (some q) r)) (hroot : r.uid = 0)
    (hcut : r.flags &&& msgNoerror ≠ 0) (hneg : r.msgtype < 0) :
    FirstLowest r.msgtype q.messages := by
  intro x hx hle
  have hadmits : Admits r x := by rwa [Admits, if_pos hneg]
  have hperm : ipcHasPerm r.uid r.gid q.uid q.gid q.mode ipcR = true := if_pos (.inl hroot)
  rw [msgrcv, hperm, if_neg nofun] at hserved
  rw [← takes_of_neg hneg]
  cases hfind : q.messages.find? r.takes with
  | none =>
    rw [hfind] at hserved
    rcases hserved.2 with ⟨he, -⟩ | ⟨-, hnone⟩ | ⟨-, hkeep, -⟩
    · split at he <;> cases he
    · exact absurd hadmits (hnone x hx)
    · exact absurd hkeep hcut
  | some m =>
    rw [hfind] at hserved
    dsimp only at hserved
    rw [if_neg fun h => hcut h.2] at hserved
    obtain ⟨m', _, -, ⟨before, after, hmsgs, -, -, hbefore, hafter⟩, hgot⟩ := hserved
    refine ⟨m, rfl, ?_⟩
    rw [(MsgEntry.mk.inj hgot).1]
    rw [hmsgs, mem_append, mem_cons] at hx
    rcases hx with hx | rfl | hx
    · exact Int32.le_of_lt (hbefore x hx hadmits).2
    · exact Int32.le_refl _
    · exact hafter x hx hadmits hneg

lemma served_of_firstLowest (hlow : r.msgtype < 0 → FirstLowest r.msgtype q.messages) :
    Served q r (msgrcv (some q) r) := by
  unfold msgrcv
  dsimp only
  split
  · next hperm => exact And.intro rfl (.inl ⟨rfl, hperm⟩)
  cases hfind : q.messages.find? r.takes with
  | none =>
    refine And.intro rfl (.inr (.inl ⟨rfl, fun x hx hadmits => ?_⟩))
    by_cases hneg : r.msgtype < 0
    · rw [Admits, if_pos hneg] at hadmits
      obtain ⟨m, hm, -⟩ := hlow hneg x hx hadmits
      rw [← takes_of_neg hneg, hfind] at hm
      cases hm
    · exact find?_eq_none.mp hfind x hx ((takes_iff hneg).mpr hadmits)
  | some m =>
    have hwanted := wanted_of_find hfind hlow
    dsimp only
    split
    · next hlong => exact And.intro rfl (.inr (.inr ⟨rfl, hlong.2, m, _, hwanted, hlong.1⟩))
    · exact Exists.intro m ⟨_, rfl, hwanted, rfl⟩

/-- The receivers of a type always get the message that they ask for, if and only if the type is not
negative or the first message up to its absolute value has the lowest type. -/
theorem msgrcv_serves_iff (q : MsgQueue) (msgtype : Int32) :
    (∀ r : Request, r.msgtype = msgtype → Served q r (msgrcv (some q) r)) ↔
      (msgtype < 0 → FirstLowest msgtype q.messages) := by
  constructor
  · intro hserved
    exact firstLowest_of_served (hserved ⟨0, msgtype, msgNoerror, 0, 0, 0, 0⟩ rfl) rfl
      (show msgNoerror &&& msgNoerror ≠ 0 by decide)
  · rintro hlow r rfl
    exact served_of_firstLowest hlow

/-- Asked for the lowest type up to 2, the kernel returns the message of type 2, and the one of type
1 stays. -/
theorem msgrcv_takes_higher_type :
    let q : MsgQueue := ⟨0, 0, 0, [⟨2, []⟩, ⟨1, []⟩], 0, 0, 0⟩
    msgrcv (some q) ⟨0, -2, 0, 0, 0, 0, 0⟩ =
      (.ok ⟨2, []⟩, some { q with messages := [⟨1, []⟩] }) := rfl

end Kandelo.Kernel.Ipc
