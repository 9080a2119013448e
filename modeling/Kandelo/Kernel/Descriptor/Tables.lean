import Kandelo.Kernel.Descriptor.Open

/-!
# The tables of a process

What `dup`, `dup2`, `close`, `fork` and `posix_spawn` do to the descriptors and
descriptions of one process. What a description stands for is released elsewhere: a close says
which description it was the last one for. `Change` is all that other tables need to know: which
description went, which came, and that the others are as many as before.
-/

namespace Kandelo.Kernel.Descriptor

open Lib List Option Slots

namespace FdTable

variable {t t' : FdTable} {fd r : Nat} {flags : BitVec 32}

/-- `Clone`: no number is reserved; `fd.rs:227-235`. -/
def clone (t : FdTable) : FdTable := { t with reserved := [], reserved_lt := nofun }

/-- The descriptors that a child gets; `fork.rs:812-828, 1115-1138`. -/
def inherit (t : FdTable) : FdTable where
  entries := t.entries.map (·.filter fun e => !has e.fdFlags fdClofork)
  reserved := []
  maxFds := t.maxFds
  reserved_lt := nofun

/-- The numbers that blocked opens have reserved stay reserved and unused. -/
def Keeps (t t' : FdTable) : Prop :=
  ∀ i ∈ t.reserved, t.entries.get i = none → i ∈ t'.reserved ∧ t'.entries.get i = none

lemma Keeps.refl (t : FdTable) : t.Keeps t := fun _ hi hnone => ⟨hi, hnone⟩

lemma Keeps.trans {t'' : FdTable} (h : t.Keeps t') (h' : t'.Keeps t'') : t.Keeps t'' :=
  fun i hi hnone => h' i (h i hi hnone).1 (h i hi hnone).2

lemma keeps_free (t : FdTable) (fd : Nat) : t.Keeps (t.free fd) := by
  intro i hi hnone
  refine ⟨hi, ?_⟩
  rw [free, get_clear, hnone, ite_self]

lemma keeps_alloc (h : t.alloc r flags = .ok (fd, t')) : t.Keeps t' := by
  obtain ⟨havail, -, -, hres, hget⟩ := alloc_eq_ok h
  intro i hi hnone
  refine ⟨hres ▸ hi, ?_⟩
  rw [hget, if_neg, hnone]
  rintro rfl
  exact havail.2 hi

lemma keeps_setAt (t : FdTable) (fd r : Nat) (flags : BitVec 32) :
    t.Keeps (t.setAt fd r flags).2 := by
  intro i hi hnone
  unfold setAt
  split
  · exact ⟨hi, hnone⟩
  dsimp only
  split
  · exact ⟨hi, (t.get_grownTo _ i).trans hnone⟩
  next hfree =>
  refine ⟨hi, ?_⟩
  rw [t.get_put_grownTo (Nat.le_succ fd), if_neg, hnone]
  rintro rfl
  exact hfree hi

end FdTable

/-- The descriptors and descriptions of a process. -/
structure Tables where
  fds : FdTable
  ofds : Slots OpenFileDesc

namespace Tables

variable {t t' : Tables} {fd i : Nat} {o : OpenFileDesc} {q : OpenFileDesc → Bool}
  {ofds : Slots OpenFileDesc}

/-- `OfdTable::inc_ref`; `ofd.rs:456-460`. -/
def incRef (ofds : Slots OpenFileDesc) (i : Nat) : Slots OpenFileDesc :=
  ofds.update i fun o => { o with refCount := o.refCount + 1 }

/-- `sys_close` as far as these tables go, with the description if it was its last descriptor;
`syscalls.rs:2954-3016`. -/
def close (t : Tables) (fd : Nat) : Except Errno (Option OpenFileDesc) × Tables :=
  match t.fds.get fd with
  | .error e => (.error e, t)
  | .ok entry =>
    match t.ofds.get entry.ofdRef with
    | none => (.error .EBADF, { t with fds := t.fds.free fd })
    | some o =>
      (.ok (if o.refCount - 1 = 0 then some o else none),
        ⟨t.fds.free fd, decRef t.ofds entry.ofdRef⟩)

/-- `sys_dup`; `syscalls.rs:4665-4679`. -/
def dup (t : Tables) (fd : Nat) : Except Errno Nat × Tables :=
  match t.fds.get fd with
  | .error e => (.error e, t)
  | .ok entry =>
    match t.fds.alloc entry.ofdRef 0 with
    | .ok (new, fds) => (.ok new, ⟨fds, incRef t.ofds entry.ofdRef⟩)
    | .error e => (.error e, { t with ofds := decRef (incRef t.ofds entry.ofdRef) entry.ofdRef })

/-- The description that a close was the last one for. -/
def freed : Except Errno (Option OpenFileDesc) → Option OpenFileDesc
  | .ok o => o
  | .error _ => none

/-- `sys_dup2_impl`, with the description that the number named before if it is gone;
`syscalls.rs:4700-4738`. -/
def dup2 (t : Tables) (old new : Nat) : Except Errno Nat × Option OpenFileDesc × Tables :=
  match t.fds.get old with
  | .error e => (.error e, none, t)
  | .ok _ =>
    if old = new then (.ok new, none, t)
    else
      let gone := freed (t.close new).1
      let t := (t.close new).2
      match t.fds.get old with
      | .error e => (.error e, gone, t)
      | .ok entry =>
        match t.fds.setAt new entry.ofdRef 0 with
        | (.ok _, fds) => (.ok new, gone, ⟨fds, incRef t.ofds entry.ofdRef⟩)
        | (.error e, fds) =>
          (.error e, gone, ⟨fds, decRef (incRef t.ofds entry.ofdRef) entry.ofdRef⟩)

/-- How many descriptors of a child name a description; `fork.rs:819-822`. -/
def inheritedRefs (t : Tables) (i : Nat) : Nat := t.fds.inherit.entries.count fun e => e.ofdRef = i

/-- The tables of a child of `fork`: the descriptors without `FD_CLOFORK`, and the descriptions
that they name, each with a directory position of its own; `fork.rs:812-851, 1115-1180`. -/
def fork (t : Tables) : Tables where
  fds := t.fds.inherit
  ofds := t.ofds.mapIdx fun i slot => slot.bind fun o =>
    if t.inheritedRefs i = 0 then none
    else some { o with refCount := t.inheritedRefs i, dirHostHandle := -1 }

/-- The tables of a child of `posix_spawn`: all of them; `process_table.rs:1024-1026`. -/
def spawn (t : Tables) : Tables := { t with fds := t.fds.clone }

/-! ### What a call changes -/

/-- Every description has a descriptor, or had one. -/
def Counted (t : Tables) : Prop := ∀ i o, t.ofds.get i = some o → 0 < o.refCount

/-- The property does not depend on the number of descriptors. -/
def Lasting (q : OpenFileDesc → Bool) : Prop := ∀ o n, q { o with refCount := n } = q o

/-- Whether the description has the property, as a number. -/
def share (q : OpenFileDesc → Bool) (o : Option OpenFileDesc) : Nat := if o.any q then 1 else 0

/-- From `t` to `t'` the description `gone` went and `new` came. -/
structure Change (t t' : Tables) (gone new : Option OpenFileDesc) : Prop where
  count : ∀ q, Lasting q → t'.ofds.count q + share q gone = t.ofds.count q + share q new
  counted : t'.Counted

lemma Change.refl (hc : t.Counted) : Change t t none none := ⟨fun _ _ => rfl, hc⟩

lemma Change.trans {t'' : Tables} {gone : Option OpenFileDesc} (h : Change t t' gone none)
    (h' : Change t' t'' none none) : Change t t'' gone none := by
  refine ⟨fun q hq => ?_, h'.counted⟩
  have h1 := h.count q hq
  have h2 := h'.count q hq
  omega

lemma count_decRef (h : ofds.get i = some o) (hq : Lasting q) :
    (decRef ofds i).count q + share q (if o.refCount - 1 = 0 then some o else none) =
      ofds.count q := by
  rw [decRef, h]
  dsimp only
  split
  · exact count_clear h q
  · exact count_update fun o => hq o _

lemma counted_decRef (hc : (Tables.mk t.fds ofds).Counted) (fds : FdTable) :
    (Tables.mk fds (decRef ofds i)).Counted := by
  intro j o' ho'
  unfold decRef at ho'
  split at ho'
  · exact hc j o' ho'
  next o ho =>
  split at ho'
  · rw [get_clear] at ho'
    split at ho'
    · cases ho'
    · exact hc j o' ho'
  next hmore =>
  rw [get_update] at ho'
  split at ho'
  · next hj =>
    rw [hj, ho] at ho'
    cases ho'
    exact Nat.pos_of_ne_zero hmore
  · exact hc j o' ho'

lemma count_incRef (ofds : Slots OpenFileDesc) (i : Nat) (hq : Lasting q) :
    (incRef ofds i).count q = ofds.count q :=
  count_update fun o => hq o _

lemma counted_incRef (hc : t.Counted) (fds : FdTable) :
    (Tables.mk fds (incRef t.ofds i)).Counted := by
  intro j o' ho'
  rw [incRef, get_update] at ho'
  split at ho'
  · obtain ⟨o, -, rfl⟩ := map_eq_some_iff.mp ho'
    exact Nat.succ_pos _
  · exact hc j o' ho'

lemma get_decRef_incRef (hc : t.Counted) (i j : Nat) :
    (decRef (incRef t.ofds i) i).get j = t.ofds.get j := by
  have hget : (incRef t.ofds i).get i =
      (t.ofds.get i).map fun o => { o with refCount := o.refCount + 1 } := by
    rw [incRef, get_update, if_pos rfl]
  unfold decRef
  cases ho : t.ofds.get i with
  | none =>
    rw [hget, ho]
    dsimp only [map_none]
    rw [incRef, get_update]
    split
    · next hj => rw [hj, ho]; rfl
    · rfl
  | some o =>
    rw [hget, ho]
    dsimp only [map_some]
    rw [Nat.add_sub_cancel, if_neg (Nat.ne_of_gt (hc i o ho)), get_update]
    split
    · next hj => rw [hj, hget, ho]; rfl
    · next hj => rw [incRef, get_update, if_neg hj]

lemma change_of_get (hc : t.Counted) (h : ∀ i, t'.ofds.get i = t.ofds.get i) :
    Change t t' none none where
  count q _ := congrArg (· + _) (count_congr fun i => by rw [h])
  counted := fun i o ho => hc i o (by rw [← h, ho])

lemma change_close (hc : t.Counted) (fd : Nat) :
    Change t (t.close fd).2 (freed (t.close fd).1) none := by
  unfold close
  split
  · exact Change.refl hc
  next entry _ =>
  split
  · exact change_of_get hc fun _ => rfl
  · next o ho => exact ⟨fun q hq => count_decRef ho hq, counted_decRef (t := t) hc _⟩

lemma keeps_close (t : Tables) (fd : Nat) : t.fds.Keeps (t.close fd).2.fds := by
  unfold close
  split
  · exact FdTable.Keeps.refl _
  split
  · exact t.fds.keeps_free fd
  · exact t.fds.keeps_free fd

lemma change_dup (hc : t.Counted) (fd : Nat) : Change t (t.dup fd).2 none none := by
  unfold dup
  split
  · exact Change.refl hc
  next entry _ =>
  split
  · exact ⟨fun q hq => congrArg (· + _) (count_incRef _ _ hq), counted_incRef hc _⟩
  · exact change_of_get hc (get_decRef_incRef hc _)

lemma keeps_dup (t : Tables) (fd : Nat) : t.fds.Keeps (t.dup fd).2.fds := by
  unfold dup
  split
  · exact FdTable.Keeps.refl _
  split
  · next halloc => exact FdTable.keeps_alloc halloc
  · exact FdTable.Keeps.refl _

lemma change_dup2 (hc : t.Counted) (old new : Nat) :
    Change t (t.dup2 old new).2.2 (t.dup2 old new).2.1 none := by
  unfold dup2
  split
  · exact Change.refl hc
  split
  · exact Change.refl hc
  have hclose := change_close hc new
  dsimp only
  split
  · exact hclose
  next entry _ =>
  split
  · exact hclose.trans
      ⟨fun q hq => congrArg (· + _) (count_incRef _ _ hq), counted_incRef hclose.counted _⟩
  · exact hclose.trans (change_of_get hclose.counted (get_decRef_incRef hclose.counted _))

lemma keeps_dup2 (t : Tables) (old new : Nat) : t.fds.Keeps (t.dup2 old new).2.2.fds := by
  unfold dup2
  split
  · exact FdTable.Keeps.refl _
  split
  · exact FdTable.Keeps.refl _
  have hclose := t.keeps_close new
  dsimp only
  split
  · exact hclose
  next entry _ =>
  have hset := (t.close new).2.fds.keeps_setAt new entry.ofdRef 0
  split
  all_goals
    next heq =>
    rw [heq] at hset
    exact hclose.trans hset

lemma change_insert (hc : t.Counted) (ho : o.refCount = 1) (fds : FdTable) :
    Change t ⟨fds, t.ofds.insert o⟩ none (some o) := by
  refine ⟨fun q _ => count_insert t.ofds o q, ?_⟩
  intro i o' ho'
  rw [get_insert] at ho'
  split at ho'
  · cases ho'
    rw [ho]
    exact Nat.one_pos
  · exact hc i o' ho'

lemma change_of_insert (hc : t.Counted) (ho : o.refCount = 1)
    (h : ∀ i, t'.ofds.get i = (t.ofds.insert o).get i) : Change t t' none (some o) := by
  have hinsert := change_insert hc ho t'.fds
  refine ⟨fun q hq => ?_, fun i o' ho' => hinsert.counted i o' (by rw [← ho']; exact (h i).symm)⟩
  rw [← hinsert.count q hq]
  exact congrArg (· + _) (count_congr fun i => congrArg (Option.any q) (h i))

/-! ### Children -/

lemma get_fork_eq (t : Tables) (i : Nat) : t.fork.ofds.get i = (t.ofds.get i).bind fun o =>
    if t.inheritedRefs i = 0 then none
    else some { o with refCount := t.inheritedRefs i, dirHostHandle := -1 } := by
  unfold fork Slots.get
  rw [getElem?_mapIdx]
  cases t.ofds[i]? <;> rfl

lemma get_fork {o' : OpenFileDesc} (h : t.fork.ofds.get i = some o') :
    ∃ o, t.ofds.get i = some o ∧ 0 < t.inheritedRefs i ∧
      o' = { o with refCount := t.inheritedRefs i, dirHostHandle := -1 } := by
  rw [get_fork_eq, bind_eq_some_iff] at h
  obtain ⟨o, ho, h⟩ := h
  split at h
  · cases h
  · next hrefs => exact ⟨o, ho, Nat.pos_of_ne_zero hrefs, (some.inj h).symm⟩

lemma counted_fork (t : Tables) : t.fork.Counted := by
  intro i o' ho'
  obtain ⟨o, -, hpos, rfl⟩ := get_fork ho'
  exact hpos

lemma counted_spawn (hc : t.Counted) : t.spawn.Counted := hc

end Tables

end Kandelo.Kernel.Descriptor
