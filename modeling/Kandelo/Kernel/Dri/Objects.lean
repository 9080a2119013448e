import Kandelo.Lib.Entries
import Mathlib.Algebra.GroupWithZero.Nat

/-!
# Buffer objects

The registry of graphics buffers of `crates/kernel/src/dri/bo.rs`, and the state of
an open file description that names buffers (`ofd.rs:189-275`): the handles and
framebuffers of a device, or the one buffer of a PRIME descriptor. Counts are numbers without a
bound.
-/

namespace Kandelo.Kernel.Dri

open Lib List Option Entries

/-- `GbmBo`; `bo.rs:32-39`. -/
structure GbmBo where
  id : Nat
  stride : Nat
  size : Nat
  refcount : Nat
  primeCookie : Option Nat

/-- `BoRegistry`; `bo.rs:41-45`. -/
structure BoRegistry where
  nextId : Nat
  nextCookie : Nat
  map : AList fun _ : Nat => GbmBo

namespace BoRegistry

variable (r : BoRegistry)

/-- `BoRegistry::new`; `bo.rs:48-54`. -/
def new : BoRegistry := ⟨1, 1, ∅⟩

/-- Bytes of a row, rounded up to words, unless they overflow; `bo.rs:61-63`. -/
def strideOf (width bpp : Nat) : Option Nat :=
  if width * bpp < 2 ^ 32 ∧ width * bpp + 7 < 2 ^ 32 ∧ (width * bpp + 7) / 8 + 3 < 2 ^ 32 then
    some (((width * bpp + 7) / 8 + 3) / 4 * 4)
  else none

/-- `try_alloc`; `bo.rs:56-75`. -/
def tryAlloc (width height bpp : Nat) : Option (GbmBo × BoRegistry) :=
  match strideOf width bpp with
  | none => none
  | some stride =>
    if stride * height < 2 ^ 64 ∧ r.nextId + 1 < 2 ^ 32 then
      let bo : GbmBo := ⟨r.nextId, stride, stride * height, 1, none⟩
      some (bo, { r with nextId := r.nextId + 1, map := r.map.insert r.nextId bo })
    else none

variable (id : Nat)

/-- `incref`; `bo.rs:86-90`. The source refuses a count past `u32::MAX`. -/
def incref : BoRegistry :=
  match r.map.lookup id with
  | none => r
  | some bo => { r with map := r.map.insert id { bo with refcount := bo.refcount + 1 } }

/-- `decref`, with the count that is left; `bo.rs:95-104`. -/
def decref : Option Nat × BoRegistry :=
  match r.map.lookup id with
  | none => (none, r)
  | some bo =>
    if bo.refcount - 1 = 0 then (some 0, { r with map := r.map.erase id })
    else (some (bo.refcount - 1),
      { r with map := r.map.insert id { bo with refcount := bo.refcount - 1 } })

/-- `ensure_prime_cookie`; `bo.rs:109-118`. -/
def ensurePrimeCookie : Option (Nat × BoRegistry) :=
  match r.map.lookup id with
  | none => none
  | some bo =>
    match bo.primeCookie with
    | some c => some (c, r)
    | none => some (r.nextCookie, { r with
        nextCookie := (r.nextCookie + 1) % 2 ^ 64
        map := r.map.insert id { bo with primeCookie := some r.nextCookie } })

/-- The count of a buffer, zero for one that is not there. -/
def refcount (id : Nat) : Nat := (r.map.lookup id).elim 0 (·.refcount)

/-- Buffers have numbers that were given out, and are counted. -/
structure Tidy : Prop where
  lt_next : ∀ id bo, r.map.lookup id = some bo → id < r.nextId
  pos : ∀ id bo, r.map.lookup id = some bo → 0 < bo.refcount

end BoRegistry

/-! ### State of a description -/

/-- `DriFdState`; handles are given out in order; `ofd.rs:207-218`. -/
structure DriFdState where
  handles : AList fun _ : Nat => Nat
  nextHandle : Nat
  lt_next : ∀ h bo, handles.lookup h = some bo → h < nextHandle

/-- `KmsFb`; `ofd.rs:232-239`. -/
structure KmsFb where
  boId : Nat
  width : Nat
  height : Nat
  pixelFormat : Nat
  stride : Nat

/-- `KmsFdState`; framebuffers are numbered in order; `ofd.rs:252-258`. -/
structure KmsFdState where
  fbs : AList fun _ : Nat => KmsFb
  nextFbId : Nat
  le_next : ∀ id fb, fbs.lookup id = some fb → id ≤ nextFbId

/-- `DriOfdState`; `ofd.rs:264-272`. -/
inductive DriOfdState
  | primeBo (boId cookie : Nat)
  | renderNode (dri : DriFdState)
  | card (dri : DriFdState) (kms : KmsFdState)

variable (d : DriFdState)

/-- The buffers that the handles refer to. -/
def DriFdState.refs : List Nat := d.handles.entries.map (·.2)

variable (k : KmsFdState)

/-- The buffers that the framebuffers refer to. -/
def KmsFdState.refs : List Nat := k.fbs.entries.map (·.2.boId)

/-- The buffers that a description refers to, each as often as it does. -/
def DriOfdState.refs : DriOfdState → List Nat
  | .primeBo boId _ => [boId]
  | .renderNode dri => dri.refs
  | .card dri kms => kms.refs ++ dri.refs

/-- An open file description: how many descriptors it has, and its state if it is one of these. -/
structure Ofd where
  refCount : Nat
  driState : Option DriOfdState

/-- The buffers that a description refers to. -/
def Ofd.refs (o : Ofd) : List Nat := o.driState.elim [] (·.refs)

/-! ### Counting -/

namespace BoRegistry

variable {r r' : BoRegistry} {id b c : Nat} {bo : GbmBo}

lemma refcount_of_lookup (h : r.map.lookup id = some bo) : r.refcount id = bo.refcount := by
  rw [refcount, h]
  rfl

lemma refcount_of_none (h : r.map.lookup id = none) : r.refcount id = 0 := by
  rw [refcount, h]
  rfl

lemma Tidy.isSome_iff (h : r.Tidy) : (r.map.lookup b).isSome ↔ 0 < r.refcount b := by
  cases hb : r.map.lookup b with
  | none => simp [refcount_of_none hb]
  | some bo => simp [refcount_of_lookup hb, h.pos b bo hb]

lemma refcount_insert (nextId nextCookie : Nat) :
    refcount ⟨nextId, nextCookie, r.map.insert id bo⟩ b =
      if b = id then bo.refcount else r.refcount b := by
  rw [refcount, lookup_insert_eq]
  split <;> rfl

lemma Tidy.insert (h : r.Tidy) {nextId : Nat} (nextCookie : Nat) (hid : id < nextId)
    (hle : r.nextId ≤ nextId) (hpos : 0 < bo.refcount) :
    Tidy ⟨nextId, nextCookie, r.map.insert id bo⟩ := by
  constructor
  · intro i bo' hi
    rw [lookup_insert_eq] at hi
    split at hi
    · next he => exact he ▸ hid
    · exact Nat.lt_of_lt_of_le (h.lt_next i bo' hi) hle
  · intro i bo' hi
    rw [lookup_insert_eq] at hi
    split at hi
    · cases hi
      exact hpos
    · exact h.pos i bo' hi

lemma refcount_incref (h : 0 < r.refcount id) :
    (r.incref id).refcount b = r.refcount b + if b = id then 1 else 0 := by
  unfold incref
  cases hl : r.map.lookup id with
  | none =>
    rw [refcount_of_none hl] at h
    cases h
  | some =>
    rw [refcount_insert]
    split
    · next hb => rw [hb, refcount_of_lookup hl]
    · rfl

lemma Tidy.incref_eq (h : r.Tidy) (hid : ¬ 0 < r.refcount id) : r.incref id = r := by
  rw [← h.isSome_iff, isSome_iff_ne_none, not_not] at hid
  rw [BoRegistry.incref, hid]

lemma Tidy.incref (h : r.Tidy) : (r.incref id).Tidy := by
  unfold BoRegistry.incref
  split
  · exact h
  · next bo hl => exact h.insert _ (h.lt_next id bo hl) (Nat.le_refl _) (Nat.succ_pos _)

lemma refcount_decref : (r.decref id).2.refcount b = r.refcount b - if b = id then 1 else 0 := by
  unfold decref
  cases hl : r.map.lookup id with
  | none =>
    dsimp only
    split
    · next hb => rw [hb, refcount_of_none hl]
    · rfl
  | some =>
    dsimp only
    split
    · next hlast =>
      rw [refcount, lookup_erase_eq]
      split
      · next hb =>
        rw [hb, refcount_of_lookup hl, hlast]
        rfl
      · rfl
    · rw [refcount_insert]
      split
      · next hb => rw [hb, refcount_of_lookup hl]
      · rfl

lemma Tidy.decref (h : r.Tidy) : (r.decref id).2.Tidy := by
  unfold BoRegistry.decref
  split
  · exact h
  next bo hl =>
  split
  · constructor
    · intro i bo' hi
      rw [lookup_erase_eq] at hi
      split at hi
      · cases hi
      · exact h.lt_next i bo' hi
    · intro i bo' hi
      rw [lookup_erase_eq] at hi
      split at hi
      · cases hi
      · exact h.pos i bo' hi
  · next hmore => exact h.insert _ (h.lt_next id bo hl) (Nat.le_refl _) (Nat.pos_of_ne_zero hmore)

lemma refcount_decref_incref (h : r.Tidy) :
    ((r.incref id).decref id).2.refcount b = r.refcount b := by
  rw [refcount_decref]
  by_cases hid : 0 < r.refcount id
  · rw [refcount_incref hid, Nat.add_sub_cancel]
  rw [h.incref_eq hid]
  split
  · next hb =>
    subst hb
    omega
  · rfl

lemma decref_eq_zero (h : r.Tidy) : (r.decref id).1 = some 0 ↔ r.refcount id = 1 := by
  unfold BoRegistry.decref
  cases hl : r.map.lookup id with
  | none =>
    rw [refcount_of_none hl]
    exact iff_of_false nofun nofun
  | some bo =>
    have hpos := h.pos id bo hl
    rw [refcount_of_lookup hl]
    dsimp only
    split
    · exact iff_of_true rfl (by omega)
    · next hmore => exact iff_of_false (fun he => hmore (some.inj he)) (by omega)

lemma refcount_tryAlloc (h : r.Tidy) {width height bpp : Nat}
    (ha : r.tryAlloc width height bpp = some (bo, r')) :
    r.refcount bo.id = 0 ∧ r'.Tidy ∧ ∀ b, r'.refcount b =
      r.refcount b + if b = bo.id then 1 else 0 := by
  unfold tryAlloc at ha
  split at ha
  · cases ha
  split at ha
  · cases ha
    have hnew : r.map.lookup r.nextId = none := by
      cases hl : r.map.lookup r.nextId with
      | none => rfl
      | some bo => exact absurd (h.lt_next _ bo hl) (Nat.lt_irrefl _)
    refine ⟨refcount_of_none hnew, h.insert _ (Nat.lt_succ_self _) (Nat.le_succ _) Nat.one_pos, ?_⟩
    intro b
    rw [refcount_insert]
    split
    · next hb => rw [hb, refcount_of_none hnew]
    · rfl
  · cases ha

lemma refcount_ensurePrimeCookie (he : r.ensurePrimeCookie id = some (c, r')) :
    r'.refcount b = r.refcount b := by
  unfold ensurePrimeCookie at he
  cases hl : r.map.lookup id with
  | none =>
    rw [hl] at he
    cases he
  | some =>
    rw [hl] at he
    dsimp only at he
    split at he
    · cases he
      rfl
    cases he
    rw [refcount_insert]
    split
    · next hb => rw [hb, refcount_of_lookup hl]
    · rfl

lemma Tidy.ensurePrimeCookie (h : r.Tidy) (he : r.ensurePrimeCookie id = some (c, r')) :
    r'.Tidy := by
  unfold BoRegistry.ensurePrimeCookie at he
  cases hl : r.map.lookup id with
  | none =>
    rw [hl] at he
    cases he
  | some bo =>
    rw [hl] at he
    dsimp only at he
    split at he
    · cases he
      exact h
    · cases he
      exact h.insert _ (h.lt_next id bo hl) (Nat.le_refl _) (h.pos id bo hl)

end BoRegistry

/-! ### Handles and framebuffers -/

namespace DriFdState

variable (d : DriFdState)

/-- `DriFdState::default`; `ofd.rs:220-228`. -/
def empty : DriFdState := ⟨∅, 1, nofun⟩

/-- Give out the next handle, unless there is none; `syscalls.rs:900-905, 1053-1058`. -/
def addHandle (boId : Nat) : Option DriFdState :=
  if d.nextHandle + 1 < 2 ^ 32 then
    some {
      handles := d.handles.insert d.nextHandle boId
      nextHandle := d.nextHandle + 1
      lt_next := by
        intro h bo hl
        rw [Entries.lookup_insert_eq] at hl
        split at hl
        · next he => exact he ▸ Nat.lt_succ_self _
        · exact Nat.lt_succ_of_lt (d.lt_next h bo hl) }
  else none

/-- The state without a handle. -/
def removeHandle (handle : Nat) : DriFdState where
  handles := d.handles.erase handle
  nextHandle := d.nextHandle
  lt_next := by
    intro h bo hl
    rw [Entries.lookup_erase_eq] at hl
    split at hl
    · cases hl
    · exact d.lt_next h bo hl

variable {d} {d' : DriFdState} {boId b handle : Nat}

lemma count_refs (d : DriFdState) (b : Nat) :
    d.refs.count b = d.handles.entries.countP fun e => b = e.2 := by
  rw [refs, count, countP_map]
  exact countP_congr fun e _ => (beq_iff_eq.trans eq_comm).trans decide_eq_true_iff.symm

lemma count_addHandle (h : d.addHandle boId = some d') :
    d'.refs.count b = d.refs.count b + if b = boId then 1 else 0 := by
  unfold addHandle at h
  split at h
  · cases h
    have hnew : d.handles.lookup d.nextHandle = none := by
      cases hl : d.handles.lookup d.nextHandle with
      | none => rfl
      | some bo => exact absurd (d.lt_next _ bo hl) (Nat.lt_irrefl _)
    rw [count_refs, count_refs, countP_insert_of_none hnew]
    simp
  · cases h

lemma count_removeHandle (h : d.handles.lookup handle = some boId) :
    (d.removeHandle handle).refs.count b + (if b = boId then 1 else 0) = d.refs.count b := by
  rw [count_refs, count_refs, countP_erase h]
  simp only [decide_eq_true_eq]
  rfl

end DriFdState

namespace KmsFdState

variable (k : KmsFdState)

/-- `KmsFdState::default`; `ofd.rs:251`. -/
def empty : KmsFdState := ⟨∅, 0, nofun⟩

/-- Add a framebuffer under the next number, unless there is none; `syscalls.rs:1474-1490`. -/
def addFb (fb : KmsFb) : Option KmsFdState :=
  if k.nextFbId + 1 < 2 ^ 32 then
    some {
      fbs := k.fbs.insert (k.nextFbId + 1) fb
      nextFbId := k.nextFbId + 1
      le_next := by
        intro id fb' hl
        rw [Entries.lookup_insert_eq] at hl
        split at hl
        · next he => exact Nat.le_of_eq he
        · exact Nat.le_succ_of_le (k.le_next id fb' hl) }
  else none

/-- The state without a framebuffer. -/
def removeFb (fbId : Nat) : KmsFdState where
  fbs := k.fbs.erase fbId
  nextFbId := k.nextFbId
  le_next := by
    intro id fb hl
    rw [Entries.lookup_erase_eq] at hl
    split at hl
    · cases hl
    · exact k.le_next id fb hl

variable {k} {k' : KmsFdState} {fb : KmsFb} {fbId b : Nat}

lemma count_refs (k : KmsFdState) (b : Nat) :
    k.refs.count b = k.fbs.entries.countP fun e => b = e.2.boId := by
  rw [refs, count, countP_map]
  exact countP_congr fun e _ => (beq_iff_eq.trans eq_comm).trans decide_eq_true_iff.symm

lemma count_addFb (h : k.addFb fb = some k') :
    k'.refs.count b = k.refs.count b + if b = fb.boId then 1 else 0 := by
  unfold addFb at h
  split at h
  · cases h
    have hnew : k.fbs.lookup (k.nextFbId + 1) = none := by
      cases hl : k.fbs.lookup (k.nextFbId + 1) with
      | none => rfl
      | some fb => exact absurd (k.le_next _ fb hl) (Nat.not_succ_le_self _)
    rw [count_refs, count_refs, countP_insert_of_none hnew]
    simp
  · cases h

lemma lookup_addFb (h : k.addFb fb = some k') : k'.fbs.lookup (k.nextFbId + 1) = some fb := by
  unfold addFb at h
  split at h
  · cases h
    exact AList.lookup_insert _
  · cases h

lemma count_removeFb (h : k.fbs.lookup fbId = some fb) :
    (k.removeFb fbId).refs.count b + (if b = fb.boId then 1 else 0) = k.refs.count b := by
  rw [count_refs, count_refs, countP_erase h]
  simp only [decide_eq_true_eq]
  rfl

end KmsFdState

namespace Ofd

variable (o : Ofd)

/-- The handles of a device; `ofd.rs:311-316`. -/
def dri : Option DriFdState :=
  match o.driState with
  | some (.renderNode d) | some (.card d _) => some d
  | some (.primeBo _ _) | none => none

/-- The framebuffers of a card; `ofd.rs:344-349`. -/
def kms : Option KmsFdState :=
  match o.driState with
  | some (.card _ k) => some k
  | some (.renderNode _) | some (.primeBo _ _) | none => none

/-- The description with other handles. -/
def setDri (d : DriFdState) : Ofd :=
  { o with driState := o.driState.map fun
    | .renderNode _ => .renderNode d
    | .card _ k => .card d k
    | .primeBo boId cookie => .primeBo boId cookie }

/-- The description with other framebuffers. -/
def setKms (k : KmsFdState) : Ofd :=
  { o with driState := o.driState.map fun
    | .card d _ => .card d k
    | .renderNode d => .renderNode d
    | .primeBo boId cookie => .primeBo boId cookie }

variable {o} {d d' : DriFdState} {k k' : KmsFdState} {b n m : Nat}

lemma count_refs_primeBo (refCount boId cookie : Nat) :
    (refs ⟨refCount, some (.primeBo boId cookie)⟩).count b = if b = boId then 1 else 0 := by
  change [boId].count b = _
  rw [count_singleton]
  exact if_congr (beq_iff_eq.trans eq_comm) rfl rfl

lemma count_setDri (h : o.dri = some d) (hd : d'.refs.count b + n = d.refs.count b + m) :
    (o.setDri d').refs.count b + n = o.refs.count b + m := by
  obtain ⟨refCount, driState⟩ := o
  unfold dri at h
  dsimp only at h
  split at h
  · cases h
    exact hd
  · cases h
    simp only [Ofd.refs, setDri, map_some, elim_some, DriOfdState.refs, count_append]
    omega
  · cases h
  · cases h

lemma count_setKms (h : o.kms = some k) (hk : k'.refs.count b + n = k.refs.count b + m) :
    (o.setKms k').refs.count b + n = o.refs.count b + m := by
  obtain ⟨refCount, driState⟩ := o
  unfold kms at h
  dsimp only at h
  split at h
  · cases h
    simp only [Ofd.refs, setKms, map_some, elim_some, DriOfdState.refs, count_append]
    omega
  · cases h
  · cases h
  · cases h

end Ofd

end Kandelo.Kernel.Dri
