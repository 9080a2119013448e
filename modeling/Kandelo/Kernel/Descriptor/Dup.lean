import Kandelo.Kernel.Descriptor.Tables

/-!
# What a failing `dup2` leaves

The target is closed before the step that can still fail (`syscalls.rs:4716-4736`):
`FdTable::set_at` refuses a reserved number, and one at or above a limit that may have been lowered
since the target was opened. What a close does besides is a parameter.
-/

namespace Kandelo.Kernel.Descriptor

open Lib

/-- The table with other flags of a descriptor. -/
def FdTable.setFlags (t : FdTable) (fd : Nat) (flags : BitVec 32) : FdTable where
  entries := t.entries.update fd fun e => { e with fdFlags := flags }
  reserved := t.reserved
  maxFds := t.maxFds
  reserved_lt := by
    intro i hi
    rw [Slots.update, List.length_modify]
    exact t.reserved_lt i hi

namespace Tables

variable {σ : Type} (release : OpenFileDesc → Bool → σ → σ) (t : Tables) (s : σ)

/-- What closing a number does to locks and objects, given its description and whether it was the
last descriptor of it; `syscalls.rs:2954-3016`. -/
def released (fd : Nat) : σ :=
  match t.fds.get fd with
  | .error _ => s
  | .ok entry =>
    match t.ofds.get entry.ofdRef with
    | none => s
    | some o => release o (o.refCount - 1 = 0) s

/-- `sys_dup2_impl` for any two numbers, of which negative ones are never open;
`syscalls.rs:4701-4737`. -/
def sysDup2 (old new : Int) : Except Errno Nat × Tables × σ :=
  if old < 0 then (.error .EBADF, t, s)
  else
    match t.fds.get old.toNat with
    | .error e => (.error e, t, s)
    | .ok entry =>
      if new < 0 then
        (.error .EBADF, { t with ofds := decRef (incRef t.ofds entry.ofdRef) entry.ofdRef }, s)
      else
        let (result, _, t') := t.dup2 old.toNat new.toNat
        (result, t', if old = new then s else t.released release s new.toNat)

/-- `sys_dup3_impl`; `syscalls.rs:4762-4789`. -/
def sysDup3 (old new : Int) (flags : BitVec 32) : Except Errno Nat × Tables × σ :=
  if flags &&& ~~~(oCloexec ||| oClofork) ≠ 0 then (.error .EINVAL, t, s)
  else if old = new then (.error .EINVAL, t, s)
  else
    match t.sysDup2 release s old new with
    | (.error e, rest) => (.error e, rest)
    | (.ok fd, t, s) =>
      let fds :=
        if oflagsToFdFlags flags = 0 then t.fds else t.fds.setFlags fd (oflagsToFdFlags flags)
      (.ok fd, { t with fds := fds }, s)

/-- If the call failed, the target names what it named, and neither a description nor anything
else changed. -/
def Harmless (new : Int) (r : Except Errno Nat × Tables × σ) : Prop :=
  ∀ e, r.1 = .error e → (0 ≤ new → r.2.1.fds.get new.toNat = t.fds.get new.toNat) ∧
    (∀ i, r.2.1.ofds.get i = t.ofds.get i) ∧ r.2.2 = s

/-- Two numbers are open, and the second one is reserved or not below the limit. -/
def Refused (old new : Int) : Prop :=
  0 ≤ old ∧ 0 ≤ new ∧ old ≠ new ∧ (∃ entry, t.fds.get old.toNat = .ok entry) ∧
    (∃ entry, t.fds.get new.toNat = .ok entry) ∧
    (t.fds.maxFds ≤ new.toNat ∨ new.toNat ∈ t.fds.reserved)

variable {t}

lemma setAt_error_iff (fds : FdTable) (fd r : Nat) (flags : BitVec 32) :
    (∃ e, (fds.setAt fd r flags).1 = .error e) ↔ fds.maxFds ≤ fd ∨ fd ∈ fds.reserved := by
  unfold FdTable.setAt
  split
  · next h => simp [h]
  · dsimp only [FdTable.grownTo]
    split <;> simp_all

lemma get_setAt_of_error {fds fds' : FdTable} {fd r : Nat} {flags : BitVec 32} {e : Errno}
    (h : fds.setAt fd r flags = (.error e, fds')) (i : Nat) : fds'.get i = fds.get i := by
  unfold FdTable.setAt at h
  split at h
  · cases h
    rfl
  dsimp only at h
  split at h
  · cases h
    simp only [FdTable.get, FdTable.get_grownTo]
  · cases h

lemma fds_close {fd : Nat} {entry : FdEntry} (h : t.fds.get fd = .ok entry) :
    (t.close fd).2.fds = t.fds.free fd := by
  simp only [close, h]
  split <;> rfl

lemma harmless_sysDup2_iff (hc : t.Counted) (old new : Int) :
    t.Harmless s new (t.sysDup2 release s old new) ↔ ¬ t.Refused old new := by
  unfold sysDup2
  split
  · exact iff_of_true (fun _ _ => ⟨fun _ => rfl, fun _ => rfl, rfl⟩) fun hr =>
      absurd hr.1 (by omega)
  split
  · next h =>
    refine iff_of_true (fun _ _ => ⟨fun _ => rfl, fun _ => rfl, rfl⟩) ?_
    rintro ⟨-, -, -, ⟨_, hopen⟩, -⟩
    cases h.symm.trans hopen
  next entry hold =>
  split
  · exact iff_of_true (fun _ _ => ⟨fun _ => rfl, get_decRef_incRef hc _, rfl⟩)
      fun hr => absurd hr.2.1 (by omega)
  by_cases heq : old = new
  · rw [heq] at hold
    exact iff_of_true (by simp [Harmless, dup2, heq, hold]) fun hr => hr.2.2.1 heq
  have hne : old.toNat ≠ new.toNat := by omega
  simp only [dup2, hold, if_neg hne, if_neg heq]
  cases hnew : t.fds.get new.toNat with
  | error e =>
    have hclose : t.close new.toNat = (.error e, t) := by simp only [close, hnew]
    simp only [hclose, hold, released, hnew]
    refine iff_of_true ?_ fun hr => ?_
    · split
      · rintro _ ⟨⟩
      · next herr =>
        exact fun _ _ => ⟨fun _ => get_setAt_of_error herr _, get_decRef_incRef hc _, rfl⟩
    · obtain ⟨_, hopen⟩ := hr.2.2.2.2.1
      cases hnew.symm.trans hopen
  | ok target =>
    have hset := setAt_error_iff (t.close new.toNat).2.fds new.toNat entry.ofdRef 0
    have hget : (t.close new.toNat).2.fds.get old.toNat = .ok entry := by
      rw [fds_close hnew, FdTable.get, FdTable.free, Slots.get_clear, if_neg hne]
      exact hold
    simp only [hget]
    split
    · next hok =>
      refine iff_of_true (by rintro _ ⟨⟩) fun hr => ?_
      rw [hok, fds_close hnew] at hset
      obtain ⟨_, ⟨⟩⟩ := hset.mpr hr.2.2.2.2.2
    · next e fds herr =>
      -- The target is closed by now.
      rw [herr, fds_close hnew] at hset
      refine iff_of_false (fun h => ?_) (not_not_intro ⟨by omega, by omega, heq, ⟨_, hold⟩,
        ⟨_, hnew⟩, hset.mp ⟨e, rfl⟩⟩)
      have htarget := (h e rfl).1 (by omega)
      rw [get_setAt_of_error herr, fds_close hnew, hnew, FdTable.get, FdTable.free,
        Slots.get_clear, if_pos rfl] at htarget
      cases htarget

/-- A failing `dup2` or `dup3` does no harm, unless the target was open and `set_at` refuses its
number. -/
theorem dup_harmless_iff (hc : t.Counted) (old new : Int) (flags : BitVec 32) :
    (t.Harmless s new (t.sysDup2 release s old new) ↔ ¬ t.Refused old new) ∧
      (t.Harmless s new (t.sysDup3 release s old new flags) ↔
        flags &&& ~~~(oCloexec ||| oClofork) ≠ 0 ∨ ¬ t.Refused old new) := by
  have h := harmless_sysDup2_iff release s hc old new
  refine ⟨h, ?_⟩
  unfold sysDup3
  split
  · next hbad => exact iff_of_true (fun _ _ => ⟨fun _ => rfl, fun _ => rfl, rfl⟩) (.inl hbad)
  next hflags =>
  rw [or_iff_right hflags]
  split
  · next heq =>
    exact iff_of_true (fun _ _ => ⟨fun _ => rfl, fun _ => rfl, rfl⟩) fun hr => hr.2.2.1 heq
  split
  · next hres => rwa [hres] at h
  · next hres =>
    rw [hres] at h
    exact iff_of_true (by rintro _ ⟨⟩) (h.mp (by rintro _ ⟨⟩))

/-- A terminal on 0 and 1, with the limit lowered to 1. -/
def lowered : Tables where
  fds := ⟨[some ⟨0, 0⟩, some ⟨0, 0⟩], [], 1, nofun⟩
  ofds := [some ⟨0, none, .CharDevice, 0, 0, 2, [], -1, none⟩]

/-- Number 7 is not open. -/
theorem dup_harmless_lowered : (lowered.sysDup2 (fun _ _ s => s) () 0 7).1 = .error .EBADF ∧
    lowered.Harmless () 7 (lowered.sysDup2 (fun _ _ s => s) () 0 7) := by
  have hc : lowered.Counted := by
    rintro (_ | i) o h <;> cases h
    decide
  refine ⟨rfl, (dup_harmless_iff _ () hc 0 7 0).1.mpr ?_⟩
  rintro ⟨-, -, -, -, ⟨_, h⟩, -⟩
  cases h

/-- `dup2(0, 1)` fails and closes 1. -/
theorem dup2_closes_target : lowered.fds.get 1 = .ok ⟨0, 0⟩ ∧
    (lowered.sysDup2 (fun _ _ s => s) () 0 1).1 = .error .EBADF ∧
    (lowered.sysDup2 (fun _ _ s => s) () 0 1).2.1.fds.get 1 = .error .EBADF := ⟨rfl, rfl, rfl⟩

end Tables

end Kandelo.Kernel.Descriptor
