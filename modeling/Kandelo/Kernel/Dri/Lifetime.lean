import Kandelo.Kernel.Dri.Objects
import Kandelo.Lib.Fleet
import Kandelo.Lib.History
import Kandelo.Lib.SlotSum

/-!
# The lifetime of a buffer

Processes with their descriptions, the registry of buffers and the buffers the host has memory for.
A buffer is created, exported and imported by calls on a device (`syscalls.rs:813-1080, 1449-1530`),
the references of a description that is closed are dropped (`syscalls.rs:1641-1694`), a fork counts
the references that the child reads (`fork.rs:635-741`), and a spawn and the removal of a process
count nothing (`process_table.rs:1019, 355-607`). `buffers_counted` says in which runs the counts
are the numbers of references.
-/

namespace Kandelo.Kernel.Dri

open Lib List Option Slots Fleet BoRegistry

variable {bos : List Nat} {width height bpp pid b : Nat} {granted : Bool} {kept : Nat → Nat}
  {d : DriFdState}

/-- The registry and the memory of the host: a buffer that is counted has memory. -/
structure Buffers where
  registry : BoRegistry
  backings : Finset Nat
  tidy : registry.Tidy
  backed : ∀ b, b ∈ backings ↔ 0 < registry.refcount b

namespace Buffers

variable (bufs : Buffers) (id : Nat)

/-- No buffer. -/
def none : Buffers := ⟨.new, ∅, ⟨nofun, nofun⟩, fun b => by
  rw [BoRegistry.refcount_of_none (r := .new) rfl]
  exact iff_of_false (Finset.notMem_empty b) (Nat.lt_irrefl 0)⟩

/-- The reference count of a buffer. -/
def count : Nat := bufs.registry.refcount id

/-- Take a reference to a buffer. -/
def retain : Buffers where
  registry := bufs.registry.incref id
  backings := bufs.backings
  tidy := bufs.tidy.incref
  backed := by
    intro b
    rw [bufs.backed]
    by_cases hid : 0 < bufs.registry.refcount id
    · rw [BoRegistry.refcount_incref hid]
      split
      · next hb => exact iff_of_true (hb ▸ hid) (Nat.succ_pos _)
      · rfl
    · rw [bufs.tidy.incref_eq hid]

/-- Drop a reference, and with the last one the memory; `syscalls.rs:1651-1656`. -/
def release : Buffers where
  registry := (bufs.registry.decref id).2
  backings := if (bufs.registry.decref id).1 = some 0 then bufs.backings.erase id else bufs.backings
  tidy := bufs.tidy.decref
  backed := by
    intro b
    have hb := bufs.backed b
    rw [BoRegistry.refcount_decref]
    split
    · next hlast =>
      rw [BoRegistry.decref_eq_zero bufs.tidy] at hlast
      rw [Finset.mem_erase]
      by_cases he : b = id
      · subst he
        rw [if_pos rfl, hlast]
        exact iff_of_false (fun h => h.1 rfl) (Nat.lt_irrefl 0)
      · rw [if_neg he, Nat.sub_zero, ← hb]
        exact and_iff_right he
    · next hmore =>
      rw [BoRegistry.decref_eq_zero bufs.tidy] at hmore
      rw [hb]
      split
      · next he =>
        subst he
        omega
      · rw [Nat.sub_zero]

/-- A reference that is counted and dropped again, when what needs it cannot be made. -/
def attempt : Buffers where
  registry := ((bufs.registry.incref id).decref id).2
  backings := bufs.backings
  tidy := bufs.tidy.incref.decref
  backed := by
    intro b
    rw [BoRegistry.refcount_decref_incref bufs.tidy]
    exact bufs.backed b

/-- Create a buffer. If the host has no memory, its number is given up; otherwise it has one
reference; `syscalls.rs:873-895`. -/
def create (width height bpp : Nat) (granted : Bool) : Option (Option Nat × Buffers) :=
  match h : bufs.registry.tryAlloc width height bpp with
  | Option.none => Option.none
  | some (bo, r) =>
    have hnew := BoRegistry.refcount_tryAlloc bufs.tidy h
    if granted then
      some (some bo.id, {
        registry := r
        backings := insert bo.id bufs.backings
        tidy := hnew.2.1
        backed := by
          intro b
          rw [Finset.mem_insert, bufs.backed, hnew.2.2]
          split
          · next hb => exact iff_of_true (.inl hb) (Nat.succ_pos _)
          · next hb => exact or_iff_right hb })
    else
      some (Option.none, {
        registry := (r.decref bo.id).2
        backings := bufs.backings
        tidy := hnew.2.1.decref
        backed := by
          intro b
          rw [bufs.backed, BoRegistry.refcount_decref, hnew.2.2, Nat.add_sub_cancel] })

/-- Make sure that a buffer can be exported; `syscalls.rs:980-981`. -/
def ensureCookie : Option (Nat × Buffers) :=
  match h : bufs.registry.ensurePrimeCookie id with
  | Option.none => Option.none
  | some (c, r) => some (c, {
      registry := r
      backings := bufs.backings
      tidy := bufs.tidy.ensurePrimeCookie h
      backed := fun b => by rw [bufs.backed, BoRegistry.refcount_ensurePrimeCookie h] })

/-- Take references to several buffers. -/
def retainAll (bos : List Nat) : Buffers := bos.foldl retain bufs

/-- Give up references to several buffers. -/
def releaseAll (bos : List Nat) : Buffers := bos.foldl release bufs

variable {bufs id} {bufs' : Buffers} {b : Nat}

lemma count_retain (h : 0 < bufs.count id) :
    (bufs.retain id).count b = bufs.count b + if b = id then 1 else 0 :=
  refcount_incref h

lemma count_release : (bufs.release id).count b = bufs.count b - if b = id then 1 else 0 :=
  refcount_decref

lemma count_attempt : (bufs.attempt id).count b = bufs.count b := refcount_decref_incref bufs.tidy

lemma count_retainAll (h : ∀ id ∈ bos, 0 < bufs.count id) :
    (bufs.retainAll bos).count b = bufs.count b + bos.count b := by
  induction bos generalizing bufs with
  | nil => rfl
  | cons id bos ih =>
    have hid := h id mem_cons_self
    have hrest : ∀ i ∈ bos, 0 < (bufs.retain id).count i := by
      intro i hi
      rw [count_retain hid]
      exact Nat.add_pos_left (h i (mem_cons_of_mem _ hi)) _
    have hcons : bufs.retainAll (id :: bos) = (bufs.retain id).retainAll bos := rfl
    rw [hcons, ih hrest, count_retain hid, count_cons]
    simp only [beq_iff_eq, eq_comm (a := id)]
    omega

lemma count_releaseAll (bufs : Buffers) :
    (bufs.releaseAll bos).count b = bufs.count b - bos.count b := by
  induction bos generalizing bufs with
  | nil => rfl
  | cons id bos ih =>
    have hcons : bufs.releaseAll (id :: bos) = (bufs.release id).releaseAll bos := rfl
    rw [hcons, ih, count_release, count_cons]
    simp only [beq_iff_eq, eq_comm (a := id)]
    omega

lemma count_create (h : bufs.create width height bpp granted = some (some id, bufs')) :
    bufs'.count b = bufs.count b + if b = id then 1 else 0 := by
  unfold create at h
  split at h
  · cases h
  next bo r ha =>
  split at h
  · cases h
    exact (refcount_tryAlloc bufs.tidy ha).2.2 b
  · cases h

lemma count_create_none (h : bufs.create width height bpp granted = some (Option.none, bufs')) :
    bufs'.count b = bufs.count b := by
  unfold create at h
  split at h
  · cases h
  next bo r ha =>
  split at h
  · cases h
  cases h
  have hnew := (refcount_tryAlloc bufs.tidy ha).2.2 b
  rw [count, refcount_decref, hnew, Nat.add_sub_cancel]
  rfl

lemma count_ensureCookie {c : Nat} (h : bufs.ensureCookie id = some (c, bufs')) :
    bufs'.count b = bufs.count b := by
  unfold ensureCookie at h
  split at h
  · cases h
  next he =>
  cases h
  exact refcount_ensurePrimeCookie he

end Buffers

/-- The processes with their descriptions, and the buffers. -/
structure World where
  procs : Fleet Nat (Slots Ofd)
  bufs : Buffers

namespace World

variable (w : World) (x : Nat × Nat)

/-- The description that the caller names. -/
def ofd : Option Ofd :=
  if x.1 ∈ w.procs.live then (w.procs.state x.1).get x.2 else none

/-- The world with a description and the buffers changed. -/
def change (f : Ofd → Ofd) (bufs : Buffers) : World :=
  ⟨w.procs.set x.1 ((w.procs.state x.1).update x.2 f), bufs⟩

variable (t : Slots Ofd)

/-- The references of a table of descriptions, in the order of the table. -/
def refsOf : List Nat := t.entries.flatMap Ofd.refs

/-- The descriptions a child gets: those it has descriptors for; `fork.rs:829-860, 1140-1190`. -/
def childOfds (kept : Nat → Nat) : Slots Ofd :=
  t.mapIdx fun i o => if kept i = 0 then none else o.map fun o => { o with refCount := kept i }

end World

/-- The formats of a framebuffer; `lib.rs:2378-2382`, `syscalls.rs:1458-1463`. -/
def pixelFormats : List Nat := [0x34325241, 0x34325258, 0x36314752]

/-- What happens to buffers and the references to them. The host may refuse memory or a
framebuffer, and a process may have no descriptor left. -/
inductive Call
  | create (pid : Nat)
  | openNode (pid : Nat) (card : Bool)
  | createDumb (x : Nat × Nat) (flags width height bpp : Nat) (granted : Bool)
  | gemClose (x : Nat × Nat) (handle : Nat)
  | addFb (x : Nat × Nat) (handle : Nat) (others : List Nat) (width height pixelFormat pitch : Nat)
    (granted : Bool)
  | removeFb (x : Nat × Nat) (fbId : Nat)
  | primeExport (x : Nat × Nat) (handle : Nat) (hasFd : Bool)
  | primeImport (x : Nat × Nat) (prime : Nat)
  | dup (x : Nat × Nat)
  | close (x : Nat × Nat)
  | fork (pid child : Nat) (kept : Nat → Nat)
  /-- A fork that fails after the child has read some references. -/
  | forkFails (pid : Nat) (kept : Nat → Nat) (read : Nat)
  | spawn (pid child : Nat)
  | exit (pid : Nat)
  /-- A process is removed, after its exit or without one. -/
  | remove (pid : Nat)

/-- The state after a call. A call that fails changes nothing, up to numbers and cookies given
out. -/
def Call.apply (w : World) : Call → World
  | .create pid => if pid ∈ w.procs.live then w else { w with procs := w.procs.add pid [] }
  | .openNode pid card =>
    if pid ∈ w.procs.live then
      let state : DriOfdState := if card then .card .empty .empty else .renderNode .empty
      { w with procs := w.procs.set pid ((w.procs.state pid).insert ⟨1, some state⟩) }
    else w
  | .createDumb x flags width height bpp granted =>
    if flags ≠ 0 ∨ width = 0 ∨ height = 0 ∨ bpp ≠ 32 then w
    else
      match w.bufs.create width height bpp granted with
      | none => w
      | some (none, bufs) => { w with bufs }
      | some (some id, bufs) =>
        match (w.ofd x).bind Ofd.dri with
        | none => { w with bufs := bufs.release id }
        | some d =>
          match d.addHandle id with
          | some d => w.change x (·.setDri d) bufs
          | none => { w with bufs := bufs.release id }
  | .gemClose x handle =>
    match (w.ofd x).bind Ofd.dri with
    | none => w
    | some d =>
      match d.handles.lookup handle with
      | none => w
      | some id => w.change x (·.setDri (d.removeHandle handle)) (w.bufs.release id)
  | .addFb x handle others width height pixelFormat pitch granted =>
    match (w.ofd x).bind Ofd.dri, (w.ofd x).bind Ofd.kms with
    | some d, some k =>
      match d.handles.lookup handle with
      | none => w
      | some id =>
        if width = 0 ∨ height = 0 ∨ others.any (· ≠ 0) ∨ pixelFormat ∉ pixelFormats ∨
          (w.bufs.registry.map.lookup id).map (·.stride) ≠ some pitch then w
        else
          match k.addFb ⟨id, width, height, pixelFormat, pitch⟩ with
          | none => w
          | some k' =>
            if granted then w.change x (·.setKms k') (w.bufs.retain id)
            else w.change x (·.setKms (k'.removeFb (k.nextFbId + 1))) (w.bufs.attempt id)
    | _, _ => w
  | .removeFb x fbId =>
    match (w.ofd x).bind Ofd.kms with
    | none => w
    | some k =>
      match k.fbs.lookup fbId with
      | none => w
      | some fb => w.change x (·.setKms (k.removeFb fbId)) (w.bufs.release fb.boId)
  | .primeExport x handle hasFd =>
    match (w.ofd x).bind Ofd.dri with
    | none => w
    | some d =>
      match d.handles.lookup handle with
      | none => w
      | some id =>
        match w.bufs.ensureCookie id with
        | none => w
        | some (cookie, bufs) =>
          if hasFd then
            ⟨w.procs.set x.1 ((w.procs.state x.1).insert ⟨1, some (.primeBo id cookie)⟩),
              bufs.retain id⟩
          else { w with bufs := bufs.attempt id }
  | .primeImport x prime =>
    match (w.ofd (x.1, prime)).bind (·.driState) with
    | some (.primeBo id cookie) =>
      if ((w.bufs.registry.map.lookup id).bind (·.primeCookie)) = some cookie then
        match (w.ofd x).bind Ofd.dri with
        | none => { w with bufs := w.bufs.attempt id }
        | some d =>
          match d.addHandle id with
          | some d => w.change x (·.setDri d) (w.bufs.retain id)
          | none => { w with bufs := w.bufs.attempt id }
      else w
    | _ => w
  | .dup x =>
    match w.ofd x with
    | none => w
    | some _ => w.change x (fun o => { o with refCount := o.refCount + 1 }) w.bufs
  | .close x =>
    match w.ofd x with
    | none => w
    | some o =>
      if o.refCount = 1 then
        ⟨w.procs.set x.1 ((w.procs.state x.1).clear x.2), w.bufs.releaseAll o.refs⟩
      else w.change x (fun o => { o with refCount := o.refCount - 1 }) w.bufs
  | .fork pid child kept =>
    if pid ∈ w.procs.live ∧ child ∉ w.procs.live then
      let t := World.childOfds (w.procs.state pid) kept
      ⟨w.procs.add child t, w.bufs.retainAll (World.refsOf t)⟩
    else w
  | .forkFails pid kept read =>
    if pid ∈ w.procs.live then
      let refs := World.refsOf (World.childOfds (w.procs.state pid) kept)
      { w with bufs := w.bufs.retainAll (refs.take read) }
    else w
  | .spawn pid child =>
    if pid ∈ w.procs.live ∧ child ∉ w.procs.live then
      { w with procs := w.procs.add child (w.procs.state pid) }
    else w
  | .exit pid =>
    if pid ∈ w.procs.live then
      ⟨w.procs.set pid [], w.bufs.releaseAll (World.refsOf (w.procs.state pid))⟩
    else w
  | .remove pid => { w with procs := w.procs.remove pid }

/-- The world after some calls, the latest first. -/
def World.after (calls : List Call) : World :=
  calls.foldr (fun call w => call.apply w) ⟨⟨∅, fun _ => []⟩, .none⟩

/-! ### Counting references -/

namespace World

variable {w w' : World} {x : Nat × Nat} {o : Ofd} {f : Ofd → Ofd} {bufs : Buffers} {b n m : Nat}

/-- How often the descriptions of live processes refer to a buffer. -/
def refs (w : World) (b : Nat) : Nat := w.procs.total fun t => t.sum fun o => o.refs.count b

/-- Every buffer is counted as often as it is referred to. -/
def Counted (w : World) : Prop := ∀ b, w.bufs.count b = w.refs b

lemma ofd_eq_some : w.ofd x = some o ↔
    x.1 ∈ w.procs.live ∧ (w.procs.state x.1).get x.2 = some o := by
  unfold ofd
  split
  · next hl => exact (and_iff_right hl).symm
  · next hl => exact iff_of_false nofun fun h => hl h.1

lemma count_refsOf (t : Slots Ofd) : (refsOf t).count b = t.sum fun o => o.refs.count b :=
  count_flatMap_entries

lemma refs_change (h : w.ofd x = some o) (hf : (f o).refs.count b + n = o.refs.count b + m) :
    (w.change x f bufs).refs b + n = w.refs b + m := by
  rw [ofd_eq_some] at h
  have htotal := total_set (x := (w.procs.state x.1).update x.2 f) h.1
    fun t => t.sum fun o => o.refs.count b
  have hsum := sum_update h.2 f fun o => o.refs.count b
  change (w.procs.set x.1 _).total _ + n = w.procs.total _ + m
  omega

lemma refs_insert (h : pid ∈ w.procs.live) :
    refs ⟨w.procs.set pid ((w.procs.state pid).insert o), bufs⟩ b = w.refs b + o.refs.count b := by
  have htotal := total_set (x := (w.procs.state pid).insert o) h
    fun t => t.sum fun o => o.refs.count b
  rw [sum_insert] at htotal
  change (w.procs.set pid _).total _ = w.procs.total _ + _
  omega

lemma count_le_refs (h : w.ofd x = some o) : o.refs.count b ≤ w.refs b := by
  rw [ofd_eq_some] at h
  have hsum := le_sum h.2 fun o => o.refs.count b
  exact hsum.trans (le_total h.1 fun t => t.sum fun o => o.refs.count b)

lemma Counted.pos (h : w.Counted) (ho : w.ofd x = some o) (hb : b ∈ o.refs) :
    0 < w.bufs.count b := by
  rw [h]
  exact (count_pos_iff.mpr hb).trans_le (count_le_refs ho)

lemma Counted.move (h : w.Counted) (n m : Nat → Nat)
    (hc : ∀ b, w'.bufs.count b = w.bufs.count b + m b - n b)
    (hr : ∀ b, w'.refs b + n b = w.refs b + m b) : w'.Counted := by
  intro b
  have hb := h b
  have hcb := hc b
  have hrb := hr b
  omega

lemma Counted.bufs_iff (hc : ∀ b, bufs.count b = w.bufs.count b) :
    Counted { w with bufs } ↔ w.Counted :=
  forall_congr' fun b => by rw [← hc b]; rfl

end World

namespace Ofd

variable {o : Ofd}

lemma mem_refs_of_dri (h : o.dri = some d) (hb : b ∈ d.refs) : b ∈ o.refs := by
  obtain ⟨refCount, driState⟩ := o
  unfold dri at h
  dsimp only at h
  split at h
  · cases h
    exact hb
  · cases h
    exact mem_append_right _ hb
  · cases h
  · cases h

lemma mem_refs_of_handle {handle : Nat} (h : o.dri = some d)
    (hl : d.handles.lookup handle = some b) :
    b ∈ o.refs := by
  apply mem_refs_of_dri h
  exact mem_map.mpr ⟨⟨handle, b⟩, AList.mem_lookup_iff.mp hl, rfl⟩

end Ofd

/-! ### One call -/

section

variable {w : World} {x : Nat × Nat}

open World

section

variable (h : w.Counted)

include h

lemma World.Counted.addHandle {d' : DriFdState} {id : Nat} {bufs : Buffers}
    (hd : (w.ofd x).bind Ofd.dri = some d) (ha : d.addHandle id = some d')
    (hc : ∀ b, bufs.count b = w.bufs.count b + if b = id then 1 else 0) :
    (w.change x (·.setDri d') bufs).Counted := by
  obtain ⟨o, ho, hod⟩ := bind_eq_some_iff.mp hd
  apply h.move (fun _ => 0) (fun b => if b = id then 1 else 0)
  · exact hc
  · intro b
    exact refs_change ho (Ofd.count_setDri hod (DriFdState.count_addHandle ha))

lemma counted_createDumb (flags width height bpp : Nat) (granted : Bool) :
    ((Call.createDumb x flags width height bpp granted).apply w).Counted := by
  unfold Call.apply
  dsimp only
  split
  · exact h
  split
  · exact h
  · next bufs hn => exact (Counted.bufs_iff fun b => Buffers.count_create_none hn).mpr h
  next id bufs hs =>
  have hc := fun b => Buffers.count_create (b := b) hs
  have hback : ∀ b, (bufs.release id).count b = w.bufs.count b := by
    intro b
    rw [Buffers.count_release, hc, Nat.add_sub_cancel]
  split
  · exact (Counted.bufs_iff hback).mpr h
  next d hd =>
  split
  · next d' ha => exact h.addHandle hd ha hc
  · exact (Counted.bufs_iff hback).mpr h

variable (handle : Nat)

lemma counted_gemClose : ((Call.gemClose x handle).apply w).Counted := by
  unfold Call.apply
  dsimp only
  split
  · exact h
  next d hd =>
  split
  · exact h
  next id hl =>
  obtain ⟨o, ho, hod⟩ := bind_eq_some_iff.mp hd
  apply h.move (fun b => if b = id then 1 else 0) (fun _ => 0)
  · intro b
    exact Buffers.count_release
  · intro b
    exact refs_change ho (Ofd.count_setDri hod (DriFdState.count_removeHandle hl))

lemma counted_removeFb (fbId : Nat) : ((Call.removeFb x fbId).apply w).Counted := by
  unfold Call.apply
  dsimp only
  split
  · exact h
  next k hk =>
  split
  · exact h
  next fb hl =>
  obtain ⟨o, ho, hok⟩ := bind_eq_some_iff.mp hk
  apply h.move (fun b => if b = fb.boId then 1 else 0) (fun _ => 0)
  · intro b
    exact Buffers.count_release
  · intro b
    exact refs_change ho (Ofd.count_setKms hok (KmsFdState.count_removeFb hl))

lemma counted_addFb (others : List Nat) (width height pixelFormat pitch : Nat) (granted : Bool) :
    ((Call.addFb x handle others width height pixelFormat pitch granted).apply w).Counted := by
  unfold Call.apply
  dsimp only
  split
  · next d k hd hk =>
    split
    · exact h
    next id hl =>
    split
    · exact h
    split
    · exact h
    next k' ha =>
    obtain ⟨o, ho, hod⟩ := bind_eq_some_iff.mp hd
    have hok : o.kms = some k := by
      rw [ho] at hk
      exact hk
    have hadd := fun b => KmsFdState.count_addFb (b := b) ha
    split
    · apply h.move (fun _ => 0) (fun b => if b = id then 1 else 0)
      · intro b
        exact Buffers.count_retain (h.pos ho (Ofd.mem_refs_of_handle hod hl))
      · intro b
        exact refs_change ho (Ofd.count_setKms hok (hadd b))
    -- the framebuffer that was added is taken away again
    have hnew : k'.fbs.lookup (k.nextFbId + 1) = some ⟨id, width, height, pixelFormat, pitch⟩ :=
      KmsFdState.lookup_addFb ha
    apply h.move (fun _ => 0) (fun _ => 0)
    · intro b
      exact Buffers.count_attempt
    intro b
    apply refs_change ho
    apply Ofd.count_setKms hok
    have hgone := KmsFdState.count_removeFb (b := b) hnew
    have hb := hadd b
    omega
  · exact h

lemma counted_primeExport (hasFd : Bool) : ((Call.primeExport x handle hasFd).apply w).Counted := by
  unfold Call.apply
  dsimp only
  split
  · exact h
  next d hd =>
  split
  · exact h
  next id hl =>
  split
  · exact h
  next cookie bufs hcookie =>
  obtain ⟨o, ho, hod⟩ := bind_eq_some_iff.mp hd
  have hsame := fun b => Buffers.count_ensureCookie (b := b) hcookie
  have hpos : 0 < bufs.count id := by
    rw [hsame]
    exact h.pos ho (Ofd.mem_refs_of_handle hod hl)
  split
  · apply h.move (fun _ => 0) (fun b => if b = id then 1 else 0)
    · intro b
      rw [← hsame]
      exact Buffers.count_retain hpos
    · intro b
      rw [Nat.add_zero, refs_insert (ofd_eq_some.mp ho).1, Ofd.count_refs_primeBo]
  · exact (Counted.bufs_iff fun b => Buffers.count_attempt.trans (hsame b)).mpr h

lemma counted_primeImport (prime : Nat) : ((Call.primeImport x prime).apply w).Counted := by
  unfold Call.apply
  dsimp only
  split
  · next id cookie hp =>
    obtain ⟨o, ho, hstate⟩ := bind_eq_some_iff.mp hp
    have hpos : 0 < w.bufs.count id := by
      apply h.pos ho
      rw [Ofd.refs, hstate]
      exact mem_singleton_self id
    split
    · split
      · exact (Counted.bufs_iff fun b => Buffers.count_attempt).mpr h
      next d hd =>
      split
      · next d' ha => exact h.addHandle hd ha fun b => Buffers.count_retain hpos
      · exact (Counted.bufs_iff fun b => Buffers.count_attempt).mpr h
    · exact h
  · exact h

lemma counted_openNode (pid : Nat) (card : Bool) : ((Call.openNode pid card).apply w).Counted := by
  unfold Call.apply
  dsimp only
  split
  · next hl =>
    intro b
    rw [refs_insert hl]
    cases card
    · exact h b
    · exact h b
  · exact h

lemma counted_dup : ((Call.dup x).apply w).Counted := by
  unfold Call.apply
  dsimp only
  split
  · exact h
  next o ho =>
  intro b
  exact (h b).trans (refs_change (n := 0) (m := 0) ho rfl).symm

lemma counted_close : ((Call.close x).apply w).Counted := by
  unfold Call.apply
  dsimp only
  split
  · exact h
  next o ho =>
  split
  · apply h.move (fun b => o.refs.count b) (fun _ => 0)
    · intro b
      exact Buffers.count_releaseAll ..
    intro b
    have hx := ofd_eq_some.mp ho
    have htotal := total_set (x := (w.procs.state x.1).clear x.2) hx.1
      fun t => t.sum fun o => o.refs.count b
    have hsum := sum_clear hx.2 fun o => o.refs.count b
    change (w.procs.set x.1 _).total _ + _ = w.procs.total _ + 0
    omega
  · intro b
    exact (h b).trans (refs_change (n := 0) (m := 0) ho rfl).symm

lemma counted_exit (pid : Nat) : ((Call.exit pid).apply w).Counted := by
  unfold Call.apply
  dsimp only
  split
  · next hl =>
    apply h.move (fun b => (refsOf (w.procs.state pid)).count b) (fun _ => 0)
    · intro b
      exact Buffers.count_releaseAll ..
    intro b
    have htotal := total_set (x := []) hl fun t : Slots Ofd => t.sum fun o => o.refs.count b
    rw [count_refsOf]
    exact htotal
  · exact h

end

lemma mem_refsOf_childOfds {t : Slots Ofd} (hb : b ∈ refsOf (childOfds t kept)) : b ∈ refsOf t := by
  obtain ⟨o, ho, hbo⟩ := mem_flatMap.mp hb
  obtain ⟨i, hi⟩ := mem_entries.mp ho
  rw [get_eq_some_iff, childOfds, getElem?_mapIdx] at hi
  obtain ⟨y, hy, hkept⟩ := map_eq_some_iff.mp hi
  split at hkept
  · cases hkept
  · obtain ⟨o', rfl, rfl⟩ := map_eq_some_iff.mp hkept
    exact mem_flatMap.mpr ⟨o', mem_entries.mpr ⟨i, get_eq_some_iff.mpr hy⟩, hbo⟩

lemma World.Counted.retainAll (h : w.Counted) (hl : pid ∈ w.procs.live)
    (hbos : bos ⊆ refsOf (childOfds (w.procs.state pid) kept)) (b : Nat) :
    (w.bufs.retainAll bos).count b = w.bufs.count b + bos.count b := by
  apply Buffers.count_retainAll
  intro id hid
  obtain ⟨o, ho, hbo⟩ := mem_flatMap.mp (mem_refsOf_childOfds (hbos hid))
  obtain ⟨i, hi⟩ := mem_entries.mp ho
  exact h.pos (x := (pid, i)) (ofd_eq_some.mpr ⟨hl, hi⟩) hbo

lemma counted_fork (h : w.Counted) (pid child : Nat) (kept : Nat → Nat) :
    ((Call.fork pid child kept).apply w).Counted := by
  unfold Call.apply
  dsimp only
  split
  · next hl =>
    apply h.move (fun _ => 0) fun b => (refsOf (childOfds (w.procs.state pid) kept)).count b
    · exact h.retainAll hl.1 (List.Subset.refl _)
    intro b
    have htotal := total_add_party (x := childOfds (w.procs.state pid) kept) hl.2
      fun t => t.sum fun o => o.refs.count b
    rw [count_refsOf]
    exact htotal
  · exact h

lemma forall_count_eq_zero {l : List Nat} : (∀ b, l.count b = 0) ↔ l = [] := by
  rw [eq_nil_iff_forall_not_mem]
  exact forall_congr' fun b => count_eq_zero

section

variable (h : w.Counted) (hl : pid ∈ w.procs.live)

include h hl

lemma counted_spawn_iff {child : Nat} (hc : child ∉ w.procs.live) :
    ((Call.spawn pid child).apply w).Counted ↔ refsOf (w.procs.state pid) = [] := by
  unfold Call.apply
  dsimp only
  rw [if_pos ⟨hl, hc⟩, ← forall_count_eq_zero]
  apply forall_congr'
  intro b
  have htotal := total_add_party (x := w.procs.state pid) hc fun t => t.sum fun o => o.refs.count b
  have hb := h b
  rw [count_refsOf]
  unfold World.refs at hb ⊢
  dsimp only
  omega

lemma counted_remove_iff :
    ((Call.remove pid).apply w).Counted ↔ refsOf (w.procs.state pid) = [] := by
  unfold Call.apply
  rw [← forall_count_eq_zero]
  apply forall_congr'
  intro b
  have htotal := total_remove hl fun t => t.sum fun o => o.refs.count b
  have hb := h b
  rw [count_refsOf]
  unfold World.refs at hb ⊢
  dsimp only
  omega

end

end

/-- A call after which the counts are still right: no reference is copied, read in vain or
forgotten. The other calls always are. -/
def Call.Fits (w : World) : Call → Prop
  | .forkFails pid kept read =>
    pid ∈ w.procs.live → (World.refsOf (World.childOfds (w.procs.state pid) kept)).take read = []
  | .spawn pid child =>
    pid ∈ w.procs.live → child ∉ w.procs.live → World.refsOf (w.procs.state pid) = []
  | .remove pid => pid ∈ w.procs.live → World.refsOf (w.procs.state pid) = []
  | _ => True

lemma Call.apply_iff {w : World} (h : w.Counted) (call : Call) :
    (call.apply w).Counted ↔ call.Fits w := by
  cases call with
  | create =>
    refine iff_of_true ?_ trivial
    simp only [Call.apply]
    split
    · exact h
    next hl =>
    intro b
    have htotal := total_add_party (x := []) hl fun t : Slots Ofd => t.sum fun o => o.refs.count b
    exact (h b).trans htotal.symm
  | openNode pid card => exact iff_of_true (counted_openNode h pid card) trivial
  | createDumb x flags width height bpp granted =>
    exact iff_of_true (counted_createDumb h flags width height bpp granted) trivial
  | gemClose x handle => exact iff_of_true (counted_gemClose h handle) trivial
  | addFb x handle others width height pixelFormat pitch granted =>
    exact iff_of_true (counted_addFb h handle others width height pixelFormat pitch granted) trivial
  | removeFb x fbId => exact iff_of_true (counted_removeFb h fbId) trivial
  | primeExport x handle hasFd => exact iff_of_true (counted_primeExport h handle hasFd) trivial
  | primeImport x prime => exact iff_of_true (counted_primeImport h prime) trivial
  | dup => exact iff_of_true (counted_dup h) trivial
  | close => exact iff_of_true (counted_close h) trivial
  | fork pid child kept => exact iff_of_true (counted_fork h pid child kept) trivial
  | exit pid => exact iff_of_true (counted_exit h pid) trivial
  | forkFails pid kept read =>
    by_cases hl : pid ∈ w.procs.live
    · refine Iff.trans ?_ ⟨fun h _ => h, fun h => h hl⟩
      unfold Call.apply
      dsimp only
      rw [if_pos hl, ← forall_count_eq_zero]
      apply forall_congr'
      intro b
      rw [h.retainAll hl (take_subset _ _), h b]
      exact Nat.add_eq_left
    refine iff_of_true ?_ fun hl' => absurd hl' hl
    simp only [Call.apply, if_neg hl]
    exact h
  | spawn pid child =>
    by_cases hl : pid ∈ w.procs.live ∧ child ∉ w.procs.live
    · exact (counted_spawn_iff h hl.1 hl.2).trans ⟨fun h _ _ => h, fun h => h hl.1 hl.2⟩
    refine iff_of_true ?_ fun hp hc => absurd ⟨hp, hc⟩ hl
    simp only [Call.apply, if_neg hl]
    exact h
  | remove pid =>
    by_cases hl : pid ∈ w.procs.live
    · exact (counted_remove_iff h hl).trans ⟨fun h _ => h, fun h => h hl⟩
    refine iff_of_true ?_ fun hl' => absurd hl' hl
    have hsame : w.procs.remove pid = w.procs := by rw [Fleet.remove, Finset.erase_eq_of_notMem hl]
    simp only [Call.apply, hsame]
    exact h

namespace World

variable {w : World} {calls : List Call}

lemma refs_eq_zero (h : ∀ x o, w.ofd x = some o → b ∉ o.refs) : w.refs b = 0 := by
  apply Finset.sum_eq_zero
  intro pid hpid
  dsimp only
  rw [← count_refsOf]
  apply count_eq_zero_of_not_mem
  intro hb
  obtain ⟨o, ho, hbo⟩ := mem_flatMap.mp hb
  obtain ⟨i, hi⟩ := mem_entries.mp ho
  exact h (pid, i) o (ofd_eq_some.mpr ⟨hpid, hi⟩) hbo

lemma counted_after (h : Always (fun call earlier => call.Fits (after earlier)) calls) :
    (after calls).Counted := by
  induction calls with
  | nil =>
    intro b
    rfl
  | cons call calls ih =>
    rw [Always.cons_iff] at h
    exact (Call.apply_iff (ih h.2) call).mpr h.1

lemma Counted.backed (h : w.Counted) :
    (∀ x o b, w.ofd x = some o → b ∈ o.refs → b ∈ w.bufs.backings) ∧
      ∀ b, (∀ x o, w.ofd x = some o → b ∉ o.refs) →
        b ∉ w.bufs.backings ∧ w.bufs.registry.map.lookup b = none := by
  constructor
  · intro x o b ho hb
    exact (w.bufs.backed b).mpr (h.pos ho hb)
  intro b hb
  have hzero : w.bufs.registry.refcount b = 0 := (h b).trans (refs_eq_zero hb)
  constructor
  · rw [w.bufs.backed, hzero]
    exact Nat.lt_irrefl 0
  · rw [← not_isSome_iff_eq_none, w.bufs.tidy.isSome_iff, hzero]
    exact Nat.lt_irrefl 0

end World

/-- The counts are the numbers of references through a run exactly if no process that refers to a
buffer spawns another or is removed before it exits, and no fork of one fails after the child has
read a reference. In such a run every reference is to a buffer with memory, and a buffer without a
reference is gone. -/
theorem buffers_counted (calls : List Call) :
    (Always (fun call earlier => (call.apply (.after earlier)).Counted) calls ↔
      Always (fun call earlier => call.Fits (.after earlier)) calls) ∧
    (Always (fun call earlier => call.Fits (.after earlier)) calls →
      (World.after calls).Counted ∧
      (∀ x o b, (World.after calls).ofd x = some o → b ∈ o.refs →
        b ∈ (World.after calls).bufs.backings) ∧
      ∀ b, (∀ x o, (World.after calls).ofd x = some o → b ∉ o.refs) →
        b ∉ (World.after calls).bufs.backings ∧
          (World.after calls).bufs.registry.map.lookup b = none) := by
  constructor
  · induction calls with
    | nil => exact iff_of_true .nil .nil
    | cons call calls ih =>
      rw [Always.cons_iff, Always.cons_iff, ih]
      exact and_congr_left fun h => Call.apply_iff (World.counted_after h) call
  · intro h
    exact ⟨World.counted_after h, (World.counted_after h).backed⟩

/-- A process makes a buffer and spawns a child, which exits: the parent's handle names a buffer
without memory. -/
theorem buffers_counted_spawn :
    let w := World.after [.exit 2, .spawn 1 2, .createDumb (1, 0) 0 1 1 32 true,
      .openNode 1 false, .create 1]
    ((w.ofd (1, 0)).map Ofd.refs) = some [1] ∧ 1 ∉ w.bufs.backings ∧ ¬ w.Counted := by
  refine ⟨by decide +kernel, by decide +kernel, fun h => ?_⟩
  exact absurd (h 1) (by decide +kernel)

end Kandelo.Kernel.Dri
