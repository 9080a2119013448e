import Kandelo.Kernel.Directory.Getdents

/-!
# Complete enumeration

Successive calls of `sys_getdents64` list a directory as they should exactly if
the first call lists all of it: each of the three places at which a full buffer ends a call loses
the place at which the next call should go on.
-/

namespace Kandelo.Kernel.Directory

open List Buf

open Kandelo.Kernel.Path (bytes)

variable {r : Result × OfdCursor} {b' : Buf} {e : Entry} {off : Int} {d : Dirent} {b : Buf}
  {es : List Entry} {s : OfdCursor} {len : Nat} {D : Dir}

/-! ### A call only appends -/

/-- A call that succeeds has appended entries to the buffer `b`, and the state it leaves knows the
cookies given to them. -/
def Extends (b : Buf) (r : Result × OfdCursor) : Prop :=
  ∀ recs, r.1 = .ok recs → ∃ es, recs = (b.add es).recs ∧ (b.add es).off ≤ r.2.entryOffset

lemma Extends.trans (h : Extends (b.add es) r) : Extends b r := by
  intro recs hrecs
  obtain ⟨fs, hfs⟩ := h recs hrecs
  exact ⟨es ++ fs, by rwa [add_append]⟩

lemma Extends.error (b : Buf) (e : Errno) (s : OfdCursor) : Extends b (.error e, s) :=
  fun _ hrecs => nomatch hrecs

lemma Extends.ok (hb : b' = b.add es)
    (hs : b'.off ≤ s.entryOffset) : Extends b (.ok b'.recs, s) := by
  subst hb
  rintro recs ⟨⟩
  exact ⟨es, rfl, hs⟩

lemma Extends.stopped (hb : b' = b.add es)
    (hs : b'.off ≤ s.entryOffset) : Extends b (b'.stopped, s) := by
  unfold Buf.stopped
  split
  · exact .error b .EINVAL s
  · exact .ok hb hs

lemma writeVirtuals_extends (virtuals : List Entry)
    (hb : b.pos ≤ len) : Extends b (writeVirtuals virtuals s len b) := by
  unfold writeVirtuals
  rcases writeSynthetic_cases (virtuals.drop (s.synthState - 2)) hb with
    ⟨-, hok⟩ | ⟨pre, e, -, herr⟩
  · simp only [hok]
    exact .ok rfl (Int.le_refl _)
  · simp only [herr]
    exact .stopped rfl (Int.le_refl _)

variable (D)

lemma Dir.writeHost_extends (hb : b.pos ≤ len) : Extends b (D.writeHost s len b) := by
  unfold Dir.writeHost
  rcases D.readHost_cases s.unread hb with ⟨hfits, hread⟩ | ⟨pre, e, rest, -, hread⟩
  · simp only [hread]
    exact (writeVirtuals_extends _ (by simpa using hfits)).trans
  simp only [hread]
  split
  · exact .error b .EINVAL _
  · rintro recs ⟨⟩
    exact ⟨pre, rfl, Int.le_add_one (Int.le_refl _)⟩

lemma Dir.writeOpen_extends : Extends ⟨[], s.entryOffset⟩ (D.writeOpen s len) := by
  have hpos : (⟨[], s.entryOffset⟩ : Buf).pos ≤ len := Nat.zero_le len
  unfold Dir.writeOpen
  split
  · rcases writeSynthetic_cases (dots s.synthState) hpos with ⟨hfits, hok⟩ | ⟨pre, e, -, herr⟩
    · simp only [hok]
      exact (D.writeHost_extends (by simpa using hfits)).trans
    simp only [herr]
    split
    · exact .error _ .EINVAL s
    · exact .ok rfl (Int.le_refl _)
  · exact D.writeHost_extends hpos

lemma Dir.getdents64_extends : Extends ⟨[], s.entryOffset⟩ (D.getdents64 s len) := by
  have hnone : Extends ⟨[], s.entryOffset⟩ (.ok [], s) := .ok (add_nil _).symm (Int.le_refl _)
  unfold Dir.getdents64
  split
  · exact hnone
  · split
    · exact writeVirtuals_extends _ (Nat.zero_le len)
    · exact hnone
  · exact D.writeOpen_extends
  · exact D.writeOpen_extends

/-! ### Where a full buffer leaves the stream -/

/-- The next call does not go on with the record `d`. -/
def Dir.Derailed (s : OfdCursor) (d : Dirent) : Prop :=
  ∀ len d' more s', D.getdents64 s len = (.ok (d' :: more), s') → d' ≠ d

lemma Stops.pre_cases {x : Entry} {pre : List Entry}
    (h : Stops len b (e :: es) pre x) : pre = [] ∨ ∃ fs, pre = e :: fs := by
  obtain ⟨⟨post, hsplit⟩, -⟩ := h
  cases pre with
  | nil => exact .inl rfl
  | cons d fs =>
    injection hsplit with hd _
    exact .inr ⟨fs, by rw [hd]⟩

lemma Extends.head_entry (h : Extends (add ⟨[], off⟩ (e :: es)) r) {more : List Dirent}
    (hr : r.1 = .ok (d :: more)) : d.entry = e := by
  obtain ⟨fs, hrecs, -⟩ := h _ hr
  injection hrecs with hd _
  rw [hd]

lemma Dir.derailed_dots (hh : s.handle = .host) (hs : s.synthState = 0) :
    D.Derailed s ⟨synthetic 1 "..", off⟩ := by
  intro len d more s' hcall heq
  have hpos : (⟨[], s.entryOffset⟩ : Buf).pos ≤ len := Nat.zero_le len
  simp only [Dir.getdents64, hh, Dir.writeOpen, hs, Nat.zero_lt_two, if_true] at hcall
  have hdot : d.entry = synthetic 1 "." := by
    rcases writeSynthetic_cases (dots 0) hpos with ⟨hfits, hok⟩ | ⟨pre, e, hstops, herr⟩
    · simp only [hok] at hcall
      have hb : (add ⟨[], s.entryOffset⟩ (dots 0)).pos ≤ len := by simpa using hfits
      exact (D.writeHost_extends hb).head_entry (congrArg Prod.fst hcall)
    simp only [herr] at hcall
    rcases hstops.pre_cases with rfl | ⟨fs, rfl⟩
    · simp [pos] at hcall
    split at hcall
    · cases hcall
    · exact (Extends.ok (s := { s with entryOffset := _ }) (add_nil _).symm
        (Int.le_refl _)).head_entry (congrArg Prod.fst hcall)
  rw [heq] at hdot
  exact absurd hdot (by decide : synthetic 1 ".." ≠ synthetic 1 ".")

lemma Dir.derailed_host (hs : off ≤ s.entryOffset) : D.Derailed s ⟨e, off⟩ := by
  intro len d more s' hcall heq
  obtain ⟨es, hrecs, -⟩ := D.getdents64_extends _ (congrArg Prod.fst hcall)
  have hmem : d ∈ number s.entryOffset es := by
    have hd : d ∈ d :: more := mem_cons_self
    rwa [hrecs] at hd
  have hlt := lt_off_of_mem_number hmem
  rw [heq] at hlt
  exact absurd hlt (Int.not_lt.mpr hs)

lemma Dir.derailed_virtuals (hh : s.handle = .virtuals) (hs : s.synthState = 2)
    (hroot : D.path = rootPath) : D.Derailed s ⟨synthetic 2 "proc", off⟩ := by
  intro len d more s' hcall heq
  have hpos : (⟨[], s.entryOffset⟩ : Buf).pos ≤ len := Nat.zero_le len
  simp only [Dir.getdents64, hh, hroot, writeVirtuals, hs, Nat.sub_self, drop_zero] at hcall
  have hres := congrArg Prod.fst hcall
  have hdev : d.entry = synthetic 2 "dev" := by
    rcases writeSynthetic_cases pendingVirtuals hpos with ⟨-, hok⟩ | ⟨pre, e, hstops, herr⟩
    · simp only [hok] at hres
      exact (Extends.ok (s := { s with entryOffset := _ }) (add_nil _).symm
        (Int.le_refl _)).head_entry hres
    · simp only [herr] at hres
      rcases hstops.pre_cases with rfl | ⟨fs, rfl⟩
      · simp [stopped, pos] at hres
      · exact (Extends.stopped (s := { s with entryOffset := _ }) (add_nil _).symm
          (Int.le_refl _)).head_entry hres
  rw [heq] at hdev
  exact absurd hdev (by decide : synthetic 2 "proc" ≠ synthetic 2 "dev")

/-! ### The first call -/

/-- The first call did not get beyond `pre`, and what follows does not go on from there. -/
def Dir.Cut (r : Result × OfdCursor) : Prop :=
  ∀ recs s, r = (.ok recs, s) → ∃ pre e post, D.listing = pre ++ e :: post ∧
    recs = number 0 pre ∧ D.Derailed s ⟨e, pre.length + 1⟩

lemma Dir.Cut.error (e : Errno) (s : OfdCursor) : D.Cut (.error e, s) := nofun

lemma Dir.writeVirtuals_first (hes : size es ≤ len) (hlist : D.listing = es ++ D.virtuals) :
    let r := writeVirtuals D.virtuals ⟨.host, 2, 0, []⟩ len (add ⟨[], 0⟩ es)
    size D.listing ≤ len ∧ r.1 = .ok (number 0 D.listing) ∧ r.2.handle = .exhausted ∨
      len < size D.listing ∧ D.Cut r := by
  have hpos : (add ⟨[], 0⟩ es).pos = size es := pos_start_add 0 es
  intro r
  have hr : r = writeVirtuals D.virtuals ⟨.host, 2, 0, []⟩ len (add ⟨[], 0⟩ es) := rfl
  simp only [writeVirtuals, Nat.sub_self, drop_zero] at hr
  rcases writeSynthetic_cases D.virtuals (hpos ▸ hes) with ⟨hfits, hok⟩ | ⟨pre, e, hstops, herr⟩
  · rw [hpos, ← size_append, ← hlist] at hfits
    rw [hok] at hr
    refine .inl ⟨hfits, ?_, by rw [hr]⟩
    rw [hr, ← add_append, ← hlist]
    rfl
  have hlt := hstops.lt_size
  rw [hpos, ← size_append, ← hlist] at hlt
  rw [herr] at hr
  refine .inr ⟨hlt, ?_⟩
  obtain ⟨⟨post, hsplit⟩, -⟩ := hstops
  unfold Dir.virtuals at hsplit
  split at hsplit
  · next hroot =>
    -- the only virtual entry is the one that does not fit
    have hnil : pre = [] ∧ e = synthetic 2 "proc" ∧ post = [] := by
      cases pre with
      | nil =>
        injection hsplit with he hpost
        exact ⟨rfl, he.symm, hpost.symm⟩
      | cons =>
        injection hsplit with _ htail
        simp at htail
    obtain ⟨rfl, rfl, rfl⟩ := hnil
    rw [hr]
    intro recs s hcall
    injection hcall with hres hs
    unfold stopped at hres
    split at hres
    · cases hres
    injection hres with hrecs
    refine ⟨es, synthetic 2 "proc", [], ?_, ?_, ?_⟩
    · rw [hlist, Dir.virtuals, if_pos hroot]
    · rw [← hrecs]
      simp [add, number]
    · exact D.derailed_virtuals (by rw [← hs]) (by rw [← hs]; rfl) hroot
  · simp at hsplit

lemma Dir.getdents64_fresh_cases :
    let r := D.getdents64 .fresh len
    size D.listing ≤ len ∧ r.1 = .ok (number 0 D.listing) ∧ r.2.handle = .exhausted ∨
      len < size D.listing ∧ D.Cut r := by
  intro r
  have hpos : (⟨[], 0⟩ : Buf).pos ≤ len := Nat.zero_le len
  have hr : r = D.writeOpen ⟨.host, 0, 0, D.entries⟩ len := rfl
  simp only [Dir.writeOpen, Nat.zero_lt_two, if_true] at hr
  rcases writeSynthetic_cases (dots 0) hpos with ⟨hfits, hok⟩ | ⟨pre, e, hstops, herr⟩
  · have hb : (add ⟨[], 0⟩ (dots 0)).pos ≤ len := by simpa using hfits
    simp only [hok, Dir.writeHost] at hr
    rcases D.readHost_cases D.entries hb with ⟨hfits', hread⟩ | ⟨pre, e, rest, hstops, hread⟩
    · rw [hread, ← add_append] at hr
      rw [pos_start_add, ← size_append] at hfits'
      rw [hr]
      exact D.writeVirtuals_first hfits' rfl
    have hlt := hstops.lt_size
    rw [pos_start_add] at hlt
    simp only [hread] at hr
    refine .inr ⟨Nat.lt_of_lt_of_le hlt ?_, ?_⟩
    · simp [Dir.listing]
    obtain ⟨⟨post, hsplit⟩, -⟩ := hstops
    rw [hr]
    split
    · exact .error D .EINVAL _
    rintro recs s ⟨⟩
    refine ⟨dots 0 ++ pre, e, post ++ D.virtuals, ?_, ?_, ?_⟩
    · simp [Dir.listing, hsplit]
    · rfl
    · apply D.derailed_host
      simp [add]
  · have hlt := hstops.lt_size
    simp only [herr] at hr
    refine .inr ⟨Nat.lt_of_lt_of_le hlt ?_, ?_⟩
    · simp [Dir.listing, pos]
    rw [hr]
    split
    · exact .error D .EINVAL _
    next hne =>
    obtain ⟨⟨post, hsplit⟩, -⟩ := hstops
    -- `.` was written, so the entry that did not fit is `..`
    obtain ⟨rfl, rfl, rfl⟩ : pre = [synthetic 1 "."] ∧ e = synthetic 1 ".." ∧ post = [] := by
      cases pre with
      | nil => exact absurd rfl hne
      | cons d pre =>
        injection hsplit with hd htail
        cases pre with
        | nil =>
          injection htail with he hpost
          exact ⟨by rw [hd], he.symm, hpost.symm⟩
        | cons =>
          injection htail with _ htail'
          simp at htail'
    rintro recs s ⟨⟩
    refine ⟨[synthetic 1 "."], synthetic 1 "..", D.shown D.entries ++ D.virtuals, ?_, rfl, ?_⟩
    · simp [Dir.listing, dots]
    · exact D.derailed_dots rfl rfl

/-! ### Whole enumerations -/

lemma Dir.enumerate_cons (lens : List Nat) :
    D.enumerate (len :: lens) s = match D.getdents64 s len with
      | (.error _, _) => none
      | (.ok [], _) => some []
      | (.ok recs, s') => (D.enumerate lens s').map (recs ++ ·) :=
  rfl

variable {D}

lemma Dir.enumerate_of_ok {s' : OfdCursor} {recs : List Dirent}
    (h : D.getdents64 s len = (.ok recs, s')) (hne : recs ≠ []) (lens : List Nat) :
    D.enumerate (len :: lens) s = (D.enumerate lens s').map (recs ++ ·) := by
  cases recs with
  | nil => exact absurd rfl hne
  | cons => rw [Dir.enumerate_cons, h]

lemma Dir.enumerate_exhausted (D : Dir) (h : s.handle = .exhausted) (len : Nat)
    (lens : List Nat) : D.enumerate (len :: lens) s = some [] := by
  simp [Dir.enumerate_cons, Dir.getdents64, h]

/-- An enumeration that ends starts with a call that succeeds; unless that call wrote nothing, the
rest is an enumeration from the state it left. -/
lemma Dir.enumerate_cons_cases {lens : List Nat}
    {out : List Dirent} (h : D.enumerate (len :: lens) s = some out) :
    ∃ recs s', D.getdents64 s len = (.ok recs, s') ∧ (recs = [] ∧ out = [] ∨
      ∃ more, D.enumerate lens s' = some more ∧ out = recs ++ more) := by
  rcases hcall : D.getdents64 s len with ⟨e | recs, s'⟩
  · rw [Dir.enumerate_cons, hcall] at h
    cases h
  refine ⟨recs, s', rfl, ?_⟩
  cases recs with
  | nil =>
    rw [Dir.enumerate_cons, hcall] at h
    exact .inl ⟨rfl, (Option.some.inj h).symm⟩
  | cons d recs =>
    rw [D.enumerate_of_ok hcall (cons_ne_nil d recs), Option.map_eq_some_iff] at h
    obtain ⟨more, hmore, rfl⟩ := h
    exact .inr ⟨more, hmore, rfl⟩

lemma Dir.Derailed.enumerate_ne (h : D.Derailed s d)
    (lens : List Nat) (more : List Dirent) : D.enumerate lens s ≠ some (d :: more) := by
  intro hrun
  cases lens with
  | nil => cases hrun
  | cons len =>
    obtain ⟨recs, s', hcall, ⟨-, hout⟩ | ⟨rest, hrest, hout⟩⟩ := D.enumerate_cons_cases hrun
    · cases hout
    cases recs with
    | nil =>
      rw [Dir.enumerate_cons, hcall] at hrun
      cases hrun
    | cons d' recs =>
      injection hout with hd _
      exact h len d' recs s' hcall hd.symm

/-- A fresh descriptor is listed exactly, entry by entry and with consecutive cookies, if and only
if the first buffer has room for the whole listing. -/
theorem Dir.enumerate_eq_listing_iff (D : Dir) (len len' : Nat) (lens : List Nat) :
    D.enumerate (len :: len' :: lens) .fresh = some (number 0 D.listing) ↔
      size D.listing ≤ len := by
  have hne : number 0 D.listing ≠ [] := by simp [Dir.listing, dots, number]
  rcases D.getdents64_fresh_cases with ⟨hfits, hrecs, hdone⟩ | ⟨hlt, hcut⟩
  · refine iff_of_true ?_ hfits
    have hcall : D.getdents64 .fresh len =
        (.ok (number 0 D.listing), (D.getdents64 .fresh len).2) :=
      Prod.ext hrecs rfl
    rw [D.enumerate_of_ok hcall hne, D.enumerate_exhausted hdone, Option.map_some, append_nil]
  refine iff_of_false ?_ (Nat.not_le_of_lt hlt)
  intro hrun
  obtain ⟨recs, s', hcall, ⟨-, hout⟩ | ⟨more, hmore, hout⟩⟩ := D.enumerate_cons_cases hrun
  · exact hne hout
  obtain ⟨pre, e, post, hsplit, rfl, hderailed⟩ := hcut recs s' hcall
  rw [hsplit, number_append, append_cancel_left_eq] at hout
  rw [← hout, Int.zero_add] at hmore
  exact hderailed.enumerate_ne _ _ hmore

/-- A directory with two files. -/
def twoFiles : Dir := ⟨bytes "/d", [⟨10, 8, bytes "a"⟩, ⟨11, 8, bytes "b"⟩], []⟩

/-- Buffers of 72 bytes have room for three of the four records: the last one is lost. -/
theorem Dir.enumerate_twoFiles_loses_entry :
    (twoFiles.enumerate [72, 72, 72] .fresh).map (List.map fun d => d.entry.name) =
        some [bytes ".", bytes "..", bytes "a"] ∧
      twoFiles.listing.map Entry.name = [bytes ".", bytes "..", bytes "a", bytes "b"] := by
  decide +kernel

end Kandelo.Kernel.Directory
