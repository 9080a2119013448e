import Kandelo.Kernel.Path.Walk

/-!
# Resolved paths

Every iteration of the walk leaves a canonical path, whose ancestors were all
seen as directories that may be searched; so does every result. The walk ends, since an iteration
uses up a component or one of forty links, and a link brings fewer than `PATH_MAX` components.
-/

namespace Kandelo.Kernel.Path

open Lib Lib.Effect Lib.Segments List

variable {cs : List Bytes} {path base : Bytes} {st : Stat} {α : Type} {u : Unit} {i : Iteration}
  {r : ResolvedNamespacePath} {fuel : Nat} {x : Lookup α}

/-! ### Canonical paths -/

/-- Components of canonical paths. -/
structure IsName (c : Bytes) : Prop where
  segment : IsSegment slash c
  ne_dot : c ≠ bytes "."
  ne_dotdot : c ≠ bytes ".."

/-- Canonical absolute paths: the root, or a slash before components that are not empty, `.` or
`..`, with a slash between any two. -/
def Canonical (path : Bytes) : Prop :=
  path = [slash] ∨
    path.head? = some slash ∧ ∀ c ∈ path.tail.splitOn slash, c ≠ [] ∧ c ≠ bytes "." ∧ c ≠ bytes ".."

lemma canonical_render (hcs : ∀ c ∈ cs, IsName c) : Canonical (render slash cs) := by
  by_cases hne : cs = []
  · rw [hne]
    exact .inl rfl
  · refine .inr ⟨head_render cs, ?_⟩
    rw [splitOn_tail_render (fun c hc => (hcs c hc).segment) hne]
    exact fun c hc => ⟨(hcs c hc).segment.1, (hcs c hc).ne_dot, (hcs c hc).ne_dotdot⟩

lemma appendPathComponent_render (hcs : ∀ c ∈ cs, IsName c) (c : Bytes) :
    appendPathComponent (render slash cs) c = render slash (cs ++ [c]) := by
  unfold appendPathComponent
  by_cases hne : cs = []
  · simp [hne, render]
  · rw [if_pos (one_lt_length_render (fun c hc => (hcs c hc).segment) hne), render_append,
      render_of_ne_nil hne]

lemma popPathComponent_render (hcs : ∀ c ∈ cs, IsName c) :
    popPathComponent (render slash cs) = render slash cs.dropLast := by
  rcases eq_nil_or_concat cs with rfl | ⟨ds, c, rfl⟩
  · rfl
  rw [concat_eq_append] at hcs ⊢
  have hlen := one_lt_length_render (fun c hc => (hcs c hc).segment) (by simp : ds ++ [c] ≠ [])
  have hc := (hcs c (by simp)).segment
  have hidx : (render slash (ds ++ [c])).reverse.findIdx? (· == slash) = some c.length := by
    rw [render_append, reverse_append, reverse_cons, append_assoc, findIdx?_append]
    have hnone : c.reverse.findIdx? (· == slash) = none := by
      rw [findIdx?_eq_none_iff]
      intro x hx
      refine beq_false_of_ne fun heq => hc.2 ?_
      rw [← heq]
      exact mem_reverse.mp hx
    rw [hnone]
    simp [findIdx?_cons]
  have htake : (render slash (ds ++ [c])).length - 1 - c.length =
      (ds.flatMap (slash :: ·)).length := by
    rw [render_append, length_append, length_cons]
    omega
  unfold popPathComponent
  rw [if_neg (by omega), hidx, dropLast_concat]
  dsimp only
  rw [htake, render_append]
  by_cases hne : ds = []
  · rw [hne]
    rfl
  have hpos : 1 ≤ (ds.flatMap (slash :: ·)).length := by
    have hds := one_lt_length_render (fun d hd => (hcs d (mem_append_left _ hd)).segment) hne
    rw [render_of_ne_nil hne] at hds
    omega
  rw [Nat.max_eq_left hpos, take_left, render_of_ne_nil hne]

/-! ### Lookups -/

/-- The path is in a namespace of the kernel's own. -/
def Synthetic (path : Bytes) : Prop :=
  isProcfsNamespacePath path = true ∨ isDevfsNamespacePath path = true

section

variable {K : Caller} {host : Host} {o : PathResolveOptions} {tr tr' : Trace}

/-- The host was asked for the directory, which the caller may search. -/
def Searched (K : Caller) (o : PathResolveOptions) (tr : Trace) (path : Bytes) : Prop :=
  ∃ st, HostCall.lstat path (.ok st) ∈ tr ∧ MaySearch K o st

lemma not_isDir_of_mode {mode : BitVec 32} (h : mode &&& sIfmt ≠ sIfdir) {uid gid : Nat} :
    ¬ (⟨mode, uid, gid⟩ : Stat).IsDir := h

lemma isDevfs_of_syntheticStat (h : syntheticStat K path = some st)
    (hdir : st.IsDir) : isDevfsNamespacePath path = true := by
  unfold syntheticStat at h
  split at h
  · next hmem =>
    have hall : ∀ p ∈ devfsDirs, isDevfsNamespacePath p = true := by decide
    exact hall path hmem
  -- Devices, terminals and aliases are character devices, and the last entry is a regular file.
  iterate 4
    split at h
    · cases h
      exact absurd hdir (not_isDir_of_mode (by decide))
  cases h

lemma fifo_mode (mode : BitVec 32) : (sIfifo ||| (mode &&& 0o7777)) &&& sIfmt = sIfifo := by
  have hmask : (0o7777 : BitVec 32) &&& sIfmt = 0#32 := by decide
  rw [BitVec.and_or_distrib_right, BitVec.and_assoc, hmask, BitVec.and_zero]
  decide

lemma fifoPathStatRaw_not_isDir (h : exec (fifoPathStatRaw K host path) tr = (.ok (some st), tr')) :
    ¬ st.IsDir := by
  unfold fifoPathStatRaw at h
  split at h
  · cases h
  obtain ⟨st0, tr1, -, hrest⟩ := exec_bind_eq_ok.mp h
  split at hrest
  · cases hrest
    refine not_isDir_of_mode ?_
    rw [fifo_mode]
    decide
  · cases hrest

lemma lstatBelow_dir (h : exec (lstatBelow K host path) tr = (.ok st, tr'))
    (hdir : st.IsDir) (hpath : ¬ Synthetic path) : HostCall.lstat path (.ok st) ∈ tr' := by
  unfold lstatBelow at h
  split at h
  · next hst =>
    cases h
    exact absurd (.inr (isDevfs_of_syntheticStat hst hdir)) hpath
  split at h
  · cases h
  obtain ⟨found, tr1, hfifo, hrest⟩ := exec_bind_eq_ok.mp h
  cases found with
  | some =>
    cases hrest
    exact absurd hdir (fifoPathStatRaw_not_isDir hfifo)
  | none =>
    obtain ⟨hst, rfl⟩ := Prod.mk.inj hrest
    rw [hst]
    exact mem_cons_self

lemma namespaceLstatRaw_dir (h : exec (namespaceLstatRaw K host path) tr = (.ok st, tr'))
    (hdir : st.IsDir) (hpath : ¬ Synthetic path) : HostCall.lstat path (.ok st) ∈ tr' := by
  unfold namespaceLstatRaw at h
  split at h
  · next entry hentry => exact absurd (.inl (K.procfs_path path (by rw [hentry]; rfl))) hpath
  rw [if_neg fun hproc => hpath (.inl hproc)] at h
  split at h
  · next hshm => exact absurd (.inr (by rw [hshm]; decide)) hpath
  · exact lstatBelow_dir h hdir hpath

/-- The lookup only adds to the trace. -/
abbrev Adds {α : Type} (x : Lookup α) : Prop := Respects (· <:+ ·) x

lemma adds_pure {a : α} : Adds (pure a) := respects_pure suffix_refl a

lemma adds_throw {e : Errno} : Adds (throw e : Lookup α) := respects_throw suffix_refl e

lemma adds_ofExcept (r : Except Errno α) : Adds (Effect.ofExcept r) :=
  respects_ofExcept suffix_refl r

lemma adds_bind {β : Type} {f : α → Lookup β} (hx : Adds x) (hf : ∀ a, Adds (f a)) :
    Adds (x >>= f) :=
  respects_bind (fun _ _ _ => List.IsSuffix.trans) hx hf

lemma adds_hostLstat : Adds (hostLstat host path) := fun tr => suffix_cons _ tr

lemma adds_hostReadlink : Adds (hostReadlink host path) := fun tr => suffix_cons _ tr

lemma adds_lstatBelow : Adds (lstatBelow K host path) := by
  have hfifo : Adds (fifoPathStatRaw K host path) := by
    unfold fifoPathStatRaw
    split
    · exact adds_pure
    refine adds_bind adds_hostLstat fun st => ?_
    split
    · exact adds_pure
    · exact adds_throw
  unfold lstatBelow
  split
  · exact adds_pure
  split
  · exact adds_throw
  refine adds_bind hfifo fun found => ?_
  cases found with
  | some st => exact adds_pure
  | none => exact adds_hostLstat

lemma adds_namespaceLstatRaw : Adds (namespaceLstatRaw K host path) := by
  unfold namespaceLstatRaw
  split
  · exact adds_ofExcept _
  split
  · exact adds_throw
  split
  · refine adds_bind (respects_attempt adds_hostLstat) fun answer => ?_
    cases answer with
    | ok st =>
      dsimp only
      split
      · exact adds_pure
      · exact adds_lstatBelow
    | error e =>
      cases e with
      | ENOENT => exact adds_lstatBelow
      | _ => exact adds_throw
  · exact adds_lstatBelow

lemma adds_namespaceReadlinkRaw : Adds (namespaceReadlinkRaw K host path) := by
  refine adds_bind ?_ fun target => ?_
  · unfold linkTarget
    split
    · exact adds_ofExcept _
    · exact adds_hostReadlink
  · split
    · exact adds_throw
    split
    · exact adds_throw
    · exact adds_pure

end

/-! ### Iterations -/

section

variable {K : Caller} {host : Host} {o : PathResolveOptions} {rootStat : Stat} {w w' : Walk}
  {c : Bytes} {tr tr' : Trace}

/-- A component that is neither `.` nor `..`. -/
def Proper (c : Bytes) : Prop := c ≠ bytes "." ∧ c ≠ bytes ".."

/-- The path with one component more. -/
def Walk.candidate (w : Walk) (c : Bytes) : Bytes := appendPathComponent w.resolved c

/-- Everything that an iteration which does not end the loop can do. -/
inductive Move (K : Caller) (host : Host) (o : PathResolveOptions) (rootStat : Stat) (w : Walk)
    (c : Bytes) (tr : Trace) : Walk → Trace → Prop
  | stay (hc : c = bytes ".") : Move K host o rootStat w c tr w tr
  | up {st : Stat} {tr' : Trace} (hc : c = bytes "..")
    (hst : exec (namespaceLstatRaw K host (popPathComponent w.resolved)) tr = (.ok st, tr'))
    (hsearch : w.pending ≠ [] → MaySearch K o st) :
    Move K host o rootStat w c tr
      { w with resolved := popPathComponent w.resolved, finalStat := st } tr'
  | enter {st : Stat} {tr' : Trace} (hc : Proper c)
    (hst : exec (namespaceLstatRaw K host (w.candidate c)) tr = (.ok st, tr'))
    (hlink : ¬ Follows o w st)
    (hsearch : w.pending ≠ [] ∨ w.requireDirectory = true → MaySearch K o st) :
    Move K host o rootStat w c tr { w with resolved := w.candidate c, finalStat := st } tr'
  | follow {st : Stat} {target : Bytes} {tr1 tr' : Trace} (hc : Proper c)
    (hst : exec (namespaceLstatRaw K host (w.candidate c)) tr = (.ok st, tr1))
    (hlink : Follows o w st) (hcount : w.symlinkCount < 40)
    (hread : exec (namespaceReadlinkRaw K host (w.candidate c)) tr1 = (.ok target, tr')) :
    Move K host o rootStat w c tr
      ({ w with symlinkCount := w.symlinkCount + 1 }.substituted rootStat target) tr'
  | threadSelf {st st' : Stat} {tr1 tr' : Trace} (hc : Proper c)
    (hst : exec (namespaceLstatRaw K host (w.candidate c)) tr = (.ok st, tr1))
    (hlink : Follows o w st) (hcount : w.symlinkCount < 40)
    (hst' : exec (namespaceLstatRaw K host (bytes "/proc/" ++ decimal K.pid)) tr1 =
      (.ok st', tr')) :
    Move K host o rootStat w c tr
      { w with
        symlinkCount := w.symlinkCount + 1
        resolved := bytes "/proc/" ++ decimal K.pid
        finalStat := st' } tr'
  | fd {st : Stat} {tr' : Trace} (hc : Proper c)
    (hst : exec (namespaceLstatRaw K host (w.candidate c)) tr = (.ok st, tr'))
    (hlink : Follows o w st) (hcount : w.symlinkCount < 40) (hlast : w.pending = [])
    (hproc : (K.procfs (w.candidate c)).isSome = true) :
    Move K host o rootStat w c tr
      { w with
        symlinkCount := w.symlinkCount + 1
        resolved := w.candidate c
        finalStat := st } tr'

lemma checkSearch_eq_ok (h : exec (checkSearch K o st) tr = (.ok u, tr')) :
    MaySearch K o st ∧ tr' = tr := by
  unfold checkSearch at h
  split at h
  · cases h
  next hdir =>
  split at h
  · next haccess =>
    cases h
    exact ⟨⟨not_not.mp hdir, haccess⟩, rfl⟩
  · cases h

lemma checkSearchIf_eq_ok {required : Prop} [Decidable required]
    (h : exec (checkSearchIf K o required st) tr = (.ok u, tr')) :
    (required → MaySearch K o st) ∧ tr' = tr := by
  unfold checkSearchIf at h
  split at h
  · obtain ⟨hsearch, rfl⟩ := checkSearch_eq_ok h
    exact ⟨fun _ => hsearch, rfl⟩
  · next hnot =>
    cases h
    exact ⟨fun hreq => absurd hreq hnot, rfl⟩

lemma followLink_ok {tr1 : Trace} (hc : Proper c)
    (hst : exec (namespaceLstatRaw K host (w.candidate c)) tr = (.ok st, tr1))
    (hlink : Follows o w st)
    (h : exec (followLink K host rootStat w (w.candidate c) st) tr1 = (.ok i, tr')) :
    ∃ w', i = .next w' ∧ Move K host o rootStat w c tr w' tr' := by
  unfold followLink at h
  dsimp only at h
  split at h
  · cases h
  next hcount =>
  have hcount : w.symlinkCount < 40 := by omega
  split at h
  · obtain ⟨st', tr2, hst', hrest⟩ := exec_bind_eq_ok.mp h
    cases hrest
    exact ⟨_, rfl, .threadSelf hc hst hlink hcount hst'⟩
  · next hproc =>
    split at h
    · cases h
    next hlast =>
    cases h
    rw [not_or, not_not] at hlast
    refine ⟨_, rfl, .fd hc hst hlink hcount hlast.1 ?_⟩
    cases hentry : K.procfs (w.candidate c) with
    | none =>
      rw [hentry] at hproc
      cases hproc
    | some => rfl
  · obtain ⟨target, tr2, hread, hrest⟩ := exec_bind_eq_ok.mp h
    unfold substitute at hrest
    split at hrest
    · cases hrest
    split at hrest
    · cases hrest
    · cases hrest
      exact ⟨_, rfl, .follow hc hst hlink hcount hread⟩

/-- The last component, which is missing, ends the loop. -/
structure Missing (K : Caller) (host : Host) (w : Walk) (c : Bytes) (tr : Trace)
    (r : ResolvedNamespacePath) (tr' : Trace) : Prop where
  name : Proper c
  path : r.path = w.candidate c
  lstat : exec (namespaceLstatRaw K host (w.candidate c)) tr = (.error .ENOENT, tr')

lemma iterate_cases (h : exec (iterate K host o rootStat w c) tr = (.ok i, tr')) :
    (∃ w', i = .next w' ∧ Move K host o rootStat w c tr w' tr') ∨
      ∃ r, i = .done r ∧ Missing K host w c tr r tr' := by
  unfold iterate at h
  split at h
  · next hc =>
    cases h
    exact .inl ⟨w, rfl, .stay hc⟩
  next hdot =>
  split at h
  · next hc =>
    obtain ⟨st, tr1, hst, hrest⟩ := exec_bind_eq_ok.mp h
    obtain ⟨u, tr2, hcheck, hlast⟩ := exec_bind_eq_ok.mp hrest
    obtain ⟨hsearch, rfl⟩ := checkSearchIf_eq_ok hcheck
    cases hlast
    exact .inl ⟨_, rfl, .up hc hst hsearch⟩
  next hdotdot =>
  have hc : Proper c := ⟨hdot, hdotdot⟩
  obtain ⟨answer, tr1, hanswer, hrest⟩ := exec_bind_eq_ok.mp h
  have hst : exec (namespaceLstatRaw K host (w.candidate c)) tr = (answer, tr1) := by
    obtain ⟨hok, htr⟩ := Prod.mk.inj hanswer
    exact Prod.ext (Except.ok.inj hok) htr
  cases answer with
  | error =>
    dsimp only at hrest
    split at hrest
    · next hmissing =>
      unfold missingFinal at hrest
      split at hrest
      · cases hrest
      split at hrest
      · cases hrest
      · cases hrest
        exact .inr ⟨_, rfl, hc, rfl, hmissing.1 ▸ hst⟩
    · cases hrest
  | ok =>
    dsimp only at hrest
    split at hrest
    · next hlink => exact .inl (followLink_ok hc hst hlink hrest)
    next hlink =>
    obtain ⟨u, tr2, hcheck, hlast⟩ := exec_bind_eq_ok.mp hrest
    obtain ⟨hsearch, rfl⟩ := checkSearchIf_eq_ok hcheck
    cases hlast
    exact .inl ⟨_, rfl, .enter hc hst hlink hsearch⟩

lemma iterate_next (h : exec (iterate K host o rootStat w c) tr = (.ok (.next w'), tr')) :
    Move K host o rootStat w c tr w' tr' := by
  rcases iterate_cases h with ⟨w1, heq, hmove⟩ | ⟨r, heq, -⟩
  · cases heq
    exact hmove
  · cases heq

lemma iterate_done (h : exec (iterate K host o rootStat w c) tr = (.ok (.done r), tr')) :
    Missing K host w c tr r tr' := by
  rcases iterate_cases h with ⟨w1, heq, -⟩ | ⟨r1, heq, hmissing⟩
  · cases heq
  · cases heq
    exact hmissing

lemma suffix_of_exec (hx : Adds x) {r : Except Errno α}
    (h : exec x tr = (r, tr')) : tr <:+ tr' := by
  have hs := hx tr
  rwa [h] at hs

lemma Move.adds (h : Move K host o rootStat w c tr w' tr') : tr <:+ tr' := by
  cases h with
  | stay => exact suffix_refl _
  | up _ hst | enter _ hst | fd _ hst => exact suffix_of_exec adds_namespaceLstatRaw hst
  | follow _ hst _ _ hread =>
    exact (suffix_of_exec adds_namespaceLstatRaw hst).trans
      (suffix_of_exec adds_namespaceReadlinkRaw hread)
  | threadSelf _ hst _ _ hst' =>
    exact (suffix_of_exec adds_namespaceLstatRaw hst).trans
      (suffix_of_exec adds_namespaceLstatRaw hst')

end

/-! ### The invariant of the loop -/

/-- What can be carried along a walk about the directories it goes through, and with `last` also
about the object at its end: the property stays as the walk goes on, holds under `/proc`, and is
established by the lookups of the components. -/
structure Carried (K : Caller) (host : Host) (o : PathResolveOptions) (last : Prop)
    (R : Trace → Bytes → Prop) : Prop where
  mono : ∀ {tr tr' : Trace} {path : Bytes}, R tr path → tr <:+ tr' → R tr' path
  procfs : ∀ {tr : Trace} {path : Bytes}, isProcfsNamespacePath path = true → R tr path
  root : ∀ {tr tr' : Trace} {st : Stat},
    exec (namespaceLstatRaw K host [slash]) tr = (.ok st, tr') → MaySearch K o st → R tr' [slash]
  enter : ∀ {w : Walk} {c : Bytes} {tr tr' : Trace} {st : Stat},
    exec (namespaceLstatRaw K host (w.candidate c)) tr = (.ok st, tr') → ¬ Follows o w st →
    (w.pending ≠ [] → MaySearch K o st) → w.pending ≠ [] ∨ last → R tr' (w.candidate c)
  missing : ∀ {path : Bytes} {tr tr' : Trace},
    exec (namespaceLstatRaw K host path) tr = (.error .ENOENT, tr') → last → R tr' path

variable {K : Caller} {host : Host} {o : PathResolveOptions} {last : Prop}
  {R : Trace → Bytes → Prop} {rootStat : Stat} {w w' : Walk} {c : Bytes} {rest : List Bytes}
  {tr tr' : Trace}

section

/-- What holds at the beginning of every iteration. The directories above the resolved path have
the property, and so has the resolved path itself if something is looked up in it. -/
structure Inv (last : Prop) (R : Trace → Bytes → Prop) (w : Walk) (tr : Trace) (cs : List Bytes) :
    Prop where
  resolved : w.resolved = render slash cs
  names : ∀ c ∈ cs, IsName c
  pending : ∀ c ∈ w.pending, IsSegment slash c
  above : ∀ ds, ds <+: cs → ds ≠ cs → R tr (render slash ds)
  here : w.pending ≠ [] ∨ last → R tr (render slash cs)
  root : R tr [slash]
  count : w.symlinkCount ≤ 40

lemma isName_decimal (n : Nat) : IsName (decimal n) := by
  have hdigit : ∀ b ∈ decimal n, 48 ≤ b.toNat := by
    intro b hb
    obtain ⟨c, hc, rfl⟩ := mem_map.mp hb
    have hc : 48 ≤ c.toNat ∧ c.toNat ≤ 57 := by
      have hisDigit := Nat.isDigit_of_mem_toDigits (by decide) (by decide) hc
      simp only [Char.isDigit, Bool.and_eq_true, decide_eq_true_eq] at hisDigit
      exact hisDigit
    rw [UInt8.toNat_ofNat', Nat.mod_eq_of_lt (by omega)]
    exact hc.1
  have hne : decimal n ≠ [] := by
    unfold decimal
    rw [ne_eq, map_eq_nil_iff]
    exact Nat.toDigits_ne_nil
  have hsmall : ∀ b : UInt8, b.toNat < 48 → b ∉ decimal n := fun b hb hmem => by
    have hle := hdigit b hmem
    omega
  refine ⟨⟨hne, hsmall slash (by decide)⟩, fun h => ?_, fun h => ?_⟩
  · exact hsmall 46 (by decide) (by rw [h]; decide)
  · exact hsmall 46 (by decide) (by rw [h]; decide)

lemma render_procPid (n : Nat) :
    bytes "/proc/" ++ decimal n = render slash [bytes "proc", decimal n] := by
  rw [render_of_ne_nil (by simp)]
  simp [bytes, slash]

lemma prefix_append_singleton {ds cs : List α} {c : α} (h : ds <+: cs ++ [c])
    (hne : ds ≠ cs ++ [c]) : ds <+: cs := by
  rw [prefix_concat_iff] at h
  exact h.resolve_left hne

lemma Inv.above_candidate (h : Inv last R w tr cs) (hw : w.pending ≠ [])
    {ds : List Bytes} (hds : ds <+: cs ++ [c]) (hne : ds ≠ cs ++ [c]) : R tr (render slash ds) := by
  by_cases heq : ds = cs
  · rw [heq]
    exact h.here (.inl hw)
  · exact h.above ds (prefix_append_singleton hds hne) heq

lemma Inv.parent (h : Inv last R w tr cs) : R tr (render slash cs.dropLast) := by
  by_cases hne : cs = []
  · rw [hne]
    exact h.root
  refine h.above _ (List.dropLast_prefix cs) fun heq => ?_
  have hlen := congrArg length heq
  have hpos := length_pos_iff_ne_nil.mpr hne
  rw [length_dropLast] at hlen
  omega

lemma Inv.move (hR : Carried K host o last R) (h : Inv last R w tr cs)
    (hw : w.pending = c :: rest)
    (hmove : Move K host o rootStat { w with pending := rest } c tr w' tr') :
    ∃ cs', Inv last R w' tr' cs' := by
  have hne : w.pending ≠ [] := by
    rw [hw]
    simp
  have hseg : IsSegment slash c := h.pending c (by rw [hw]; exact mem_cons_self)
  have hrest : ∀ d ∈ rest, IsSegment slash d := fun d hd =>
    h.pending d (by rw [hw]; exact mem_cons_of_mem _ hd)
  have hadds := hmove.adds
  have hroot : R tr' [slash] := hR.mono h.root hadds
  have hcandidate : appendPathComponent w.resolved c = render slash (cs ++ [c]) := by
    rw [h.resolved, appendPathComponent_render h.names]
  have hnames : Proper c → ∀ d ∈ cs ++ [c], IsName d := by
    intro hc d hd
    rcases mem_append.mp hd with hd | hd
    · exact h.names d hd
    · rw [mem_singleton.mp hd]
      exact ⟨hseg, hc.1, hc.2⟩
  cases hmove with
  | stay =>
    exact ⟨cs, h.resolved, h.names, hrest, h.above, fun _ => h.here (.inl hne), h.root, h.count⟩
  | up =>
    have hpop : popPathComponent w.resolved = render slash cs.dropLast := by
      rw [h.resolved, popPathComponent_render h.names]
    refine ⟨cs.dropLast, hpop, fun d hd => h.names d ((dropLast_sublist cs).subset hd), hrest,
      fun ds hds hds' => ?_, fun _ => hR.mono h.parent hadds, hroot, h.count⟩
    refine hR.mono (h.above ds (hds.trans (List.dropLast_prefix cs)) fun heq => hds' ?_) hadds
    rw [heq] at hds ⊢
    exact (hds.eq_of_length_le (by rw [length_dropLast]; omega))
  | enter hc hst hlink hsearch =>
    refine ⟨cs ++ [c], hcandidate, hnames hc, hrest,
      fun ds hds hds' => hR.mono (h.above_candidate hne hds hds') hadds, fun hneeded => ?_, hroot,
      h.count⟩
    rw [← hcandidate]
    exact hR.enter (w := { w with pending := rest }) hst hlink
      (fun hpending => hsearch (.inl hpending)) hneeded
  | @follow st target _ _ _ _ _ hcount =>
    have hparts : ∀ d ∈ parts slash target ++ rest, IsSegment slash d := by
      intro d hd
      rcases mem_append.mp hd with hd | hd
      · exact isSegment_of_mem_parts hd
      · exact hrest d hd
    by_cases habsolute : target.head? = some slash
    · refine ⟨[], if_pos habsolute, (fun d hd => nomatch hd), hparts, fun ds hds hds' => ?_,
        fun _ => hroot, hroot, hcount⟩
      exact absurd (prefix_nil.mp hds) hds'
    · exact ⟨cs, (if_neg habsolute).trans h.resolved, h.names, hparts,
        fun ds hds hds' => hR.mono (h.above ds hds hds') hadds,
        fun _ => hR.mono (h.here (.inl hne)) hadds, hroot, hcount⟩
  | threadSelf _ _ _ hcount =>
    refine ⟨[bytes "proc", decimal K.pid], render_procPid _, ?_, hrest, ?_, ?_, hroot, hcount⟩
    · intro d hd
      rcases mem_cons.mp hd with rfl | hd
      · exact ⟨by decide, by decide, by decide⟩
      · rw [mem_singleton.mp hd]
        exact isName_decimal _
    · intro ds hds hds'
      have hproc :=
        prefix_append_singleton (show ds <+: [bytes "proc"] ++ [decimal K.pid] from hds) hds'
      rcases prefix_concat_iff.mp (show ds <+: [] ++ [bytes "proc"] from hproc) with rfl | hnil
      · exact hR.procfs (by decide)
      · rw [prefix_nil.mp hnil]
        exact hroot
    · intro _
      refine hR.procfs ?_
      unfold isProcfsNamespacePath
      rw [Bool.or_eq_true]
      exact .inr (List.isPrefixOf_iff_prefix.mpr (prefix_append _ _))
  | fd hc _ _ hcount hlast hproc =>
    refine ⟨cs ++ [c], hcandidate, hnames hc, hrest,
      fun ds hds hds' => hR.mono (h.above_candidate hne hds hds') hadds, fun _ => ?_, hroot, hcount⟩
    rw [← hcandidate]
    exact hR.procfs (K.procfs_path _ hproc)

end

/-! ### The loop ends -/

section

variable {K : Caller} {host : Host} {o : PathResolveOptions} {rootStat : Stat} {w w' : Walk}
  {c : Bytes} {rest : List Bytes} {tr tr' : Trace}

/-- Iterations that can be left: the components, and those that links can still bring. -/
def Walk.budget (w : Walk) : Nat := w.pending.length + (40 - w.symlinkCount) * namespacePathMax

lemma length_namespaceReadlinkRaw {target : Bytes}
    (h : exec (namespaceReadlinkRaw K host path) tr = (.ok target, tr')) :
    target.length < namespacePathMax := by
  obtain ⟨text, tr1, -, hrest⟩ := exec_bind_eq_ok.mp h
  split at hrest
  · cases hrest
  split at hrest
  · cases hrest
  next hlen _ =>
  cases hrest
  omega

lemma Move.budget_lt (hw : w.pending = c :: rest)
    (hmove : Move K host o rootStat { w with pending := rest } c tr w' tr') :
    w'.budget < w.budget := by
  have hbudget : w.budget = rest.length + 1 + (40 - w.symlinkCount) * namespacePathMax := by
    rw [Walk.budget, hw, length_cons]
  have hspent : w.symlinkCount < 40 → (40 - w.symlinkCount) * namespacePathMax =
      (40 - (w.symlinkCount + 1)) * namespacePathMax + namespacePathMax := by
    intro hcount
    rw [← Nat.succ_mul]
    congr 1
    omega
  cases hmove with
  | stay | up | enter =>
    rw [hbudget]
    exact Nat.add_lt_add_right (Nat.lt_succ_self _) _
  | threadSelf _ _ _ hcount | fd _ _ _ hcount =>
    have h := hspent hcount
    change rest.length + (40 - (w.symlinkCount + 1)) * namespacePathMax < _
    omega
  | @follow st target _ _ _ _ _ hcount hread =>
    have h := hspent hcount
    have hlen := length_namespaceReadlinkRaw hread
    have hparts : (parts slash target).length ≤ target.length := length_parts_le
    change (parts slash target ++ rest).length + (40 - (w.symlinkCount + 1)) * namespacePathMax < _
    rw [length_append]
    omega

lemma loop_nil (hw : w.pending = []) :
    loop K host o rootStat (fuel + 1) w = finish K host w >>= fun r => pure (some r) := by
  rw [loop, hw]

lemma loop_cons (hw : w.pending = c :: rest) :
    loop K host o rootStat (fuel + 1) w =
      iterate K host o rootStat { w with pending := rest } c >>= fun i =>
        match i with
        | .next w' => loop K host o rootStat fuel w'
        | .done r => pure (some r) := by
  rw [loop]
  split
  · next heq => cases hw.symm.trans heq
  · next heq =>
    cases hw.symm.trans heq
    rfl

lemma loop_ends (h : w.budget < fuel) (tr : Trace) :
    ∃ r tr', (∀ more, exec (loop K host o rootStat (fuel + more) w) tr = (r, tr')) ∧
      r ≠ .ok none := by
  induction fuel generalizing w tr with
  | zero => cases h
  | succ fuel ih =>
    have hadd : ∀ more, fuel + 1 + more = fuel + more + 1 := fun more => by omega
    cases hw : w.pending with
    | nil =>
      rcases exec_bind_cases (finish K host w) with ⟨e, tr1, -, hrun⟩ | ⟨r, tr1, -, hrun⟩
      · refine ⟨.error e, tr1, fun more => ?_, nofun⟩
        rw [hadd, loop_nil hw, hrun]
      · refine ⟨.ok (some r), tr1, fun more => ?_, nofun⟩
        rw [hadd, loop_nil hw, hrun]
        rfl
    | cons c rest =>
      rcases hi : exec (iterate K host o rootStat { w with pending := rest } c) tr with ⟨r, tr1⟩
      cases r with
      | error e =>
        refine ⟨.error e, tr1, fun more => ?_, nofun⟩
        rw [hadd, loop_cons hw, exec_bind_of_error hi]
      | ok i =>
        cases i with
        | next w' =>
          have hlt := Move.budget_lt hw (iterate_next hi)
          obtain ⟨r, tr', hrun, hr⟩ := ih (show w'.budget < fuel by omega) tr1
          refine ⟨r, tr', fun more => ?_, hr⟩
          rw [hadd, loop_cons hw, exec_bind_of_ok hi]
          exact hrun more
        | done r =>
          refine ⟨.ok (some r), tr1, fun more => ?_, nofun⟩
          rw [hadd, loop_cons hw, exec_bind_of_ok hi]
          rfl

lemma loop_rule {J : Walk → Trace → Prop} {Q : ResolvedNamespacePath → Trace → Prop}
    (hnext : ∀ {w w' : Walk} {c : Bytes} {rest : List Bytes} {tr tr' : Trace}, J w tr →
      w.pending = c :: rest →
        Move K host o rootStat { w with pending := rest } c tr w' tr' → J w' tr')
    (hdone : ∀ {w : Walk} {c : Bytes} {rest : List Bytes} {r : ResolvedNamespacePath}
      {tr tr' : Trace}, J w tr → w.pending = c :: rest →
      Missing K host { w with pending := rest } c tr r tr' → Q r tr')
    (hfinish : ∀ {w : Walk} {r : ResolvedNamespacePath} {tr tr' : Trace}, J w tr → w.pending = [] →
      exec (finish K host w) tr = (.ok r, tr') → Q r tr')
    (hJ : J w tr)
    (h : exec (loop K host o rootStat fuel w) tr = (.ok (some r), tr')) : Q r tr' := by
  induction fuel generalizing w tr with
  | zero => cases h
  | succ fuel ih =>
    cases hw : w.pending with
    | nil =>
      rw [loop_nil hw] at h
      obtain ⟨r', tr1, hrun, hpure⟩ := exec_bind_eq_ok.mp h
      cases hpure
      exact hfinish hJ hw hrun
    | cons =>
      rw [loop_cons hw] at h
      obtain ⟨i, tr1, hi, hrest⟩ := exec_bind_eq_ok.mp h
      cases i with
      | next => exact ih (hnext hJ hw (iterate_next hi)) hrest
      | done =>
        cases hrest
        exact hdone hJ hw (iterate_done hi)

end

/-! ### Results -/

section

/-- A canonical path below directories with the property. -/
structure Below (last : Prop) (R : Trace → Bytes → Prop) (path : Bytes) (tr : Trace)
    (cs : List Bytes) : Prop where
  path_eq : path = render slash cs
  names : ∀ c ∈ cs, IsName c
  above : ∀ ds, ds <+: cs → ds ≠ cs → R tr (render slash ds)
  here : last → R tr (render slash cs)

lemma finish_eq_ok (h : exec (finish K host w) tr = (.ok r, tr')) :
    r.path = w.resolved ∧ tr <:+ tr' := by
  obtain ⟨st, tr1, hst, hrest⟩ := exec_bind_eq_ok.mp h
  have hadds : Adds (finalLstat K host w) := by
    unfold finalLstat
    split
    · exact adds_pure
    · exact adds_namespaceLstatRaw
  split at hrest
  · cases hrest
  · cases hrest
    exact ⟨rfl, suffix_of_exec hadds hst⟩

lemma suffix_of_loop (h : exec (loop K host o rootStat fuel w) tr = (.ok (some r), tr')) :
    tr <:+ tr' := by
  refine loop_rule (J := fun _ t => tr <:+ t) (Q := fun _ t => tr <:+ t) ?_ ?_ ?_ (suffix_refl _) h
  · exact fun hJ _ hmove => hJ.trans hmove.adds
  · exact fun hJ _ hmissing => hJ.trans (suffix_of_exec adds_namespaceLstatRaw hmissing.lstat)
  · exact fun hJ _ hfinish => hJ.trans (finish_eq_ok hfinish).2

lemma below_of_loop (hR : Carried K host o last R) (hinv : Inv last R w tr cs)
    (h : exec (loop K host o rootStat fuel w) tr = (.ok (some r), tr')) :
    ∃ cs, Below last R r.path tr' cs := by
  refine loop_rule (J := fun w tr => ∃ cs, Inv last R w tr cs)
    (Q := fun r tr => ∃ cs, Below last R r.path tr cs) ?_ ?_ ?_ ⟨cs, hinv⟩ h
  · rintro w w' c rest tr tr' ⟨cs, hinv⟩ hw hmove
    exact hinv.move hR hw hmove
  · rintro w c rest r tr tr' ⟨cs, hinv⟩ hw hmissing
    have hadds := suffix_of_exec adds_namespaceLstatRaw hmissing.lstat
    have hpath : ({ w with pending := rest } : Walk).candidate c = render slash (cs ++ [c]) := by
      rw [Walk.candidate, hinv.resolved, appendPathComponent_render hinv.names]
    refine ⟨cs ++ [c], hmissing.path.trans hpath, fun d hd => ?_,
      fun ds hds hne => ?_, fun hlast => ?_⟩
    · rcases mem_append.mp hd with hd | hd
      · exact hinv.names d hd
      · rw [mem_singleton.mp hd]
        exact ⟨hinv.pending c (by rw [hw]; exact mem_cons_self), hmissing.name.1, hmissing.name.2⟩
    · exact hR.mono (hinv.above_candidate (by rw [hw]; simp) hds hne) hadds
    · rw [← hpath]
      exact hR.missing hmissing.lstat hlast
  · rintro w r tr tr' ⟨cs, hinv⟩ hw hfinish
    obtain ⟨hpath, hadds⟩ := finish_eq_ok hfinish
    exact ⟨cs, hpath.trans hinv.resolved, hinv.names,
      fun ds hds hne => hR.mono (hinv.above ds hds hne) hadds,
      fun hlast => hR.mono (hinv.here (.inr hlast)) hadds⟩

lemma inv_initialWalk (hR : Carried K host o last R) {absolute : Bytes}
    (hst : exec (namespaceLstatRaw K host [slash]) tr = (.ok rootStat, tr'))
    (hsearch : MaySearch K o rootStat) : Inv last R (initialWalk rootStat absolute) tr' [] where
  resolved := rfl
  names _ hc := nomatch hc
  pending _ := isSegment_of_mem_parts
  above _ hds hne := absurd (prefix_nil.mp hds) hne
  here _ := hR.root hst hsearch
  root := hR.root hst hsearch
  count := Nat.zero_le _

lemma resolve_eq_ok {r : Option ResolvedNamespacePath}
    (h : exec (resolveNamespacePathFrom K host o fuel path base) tr = (.ok r, tr')) :
    ∃ rootStat tr1, exec (namespaceLstatRaw K host [slash]) tr = (.ok rootStat, tr1) ∧
      MaySearch K o rootStat ∧
      exec (loop K host o rootStat fuel (initialWalk rootStat (makeAbsolute path base))) tr1 =
        (.ok r, tr') := by
  unfold resolveNamespacePathFrom at h
  dsimp only at h
  iterate 4
    split at h
    · cases h
  obtain ⟨rootStat, tr1, hst, hrest⟩ := exec_bind_eq_ok.mp h
  obtain ⟨u, tr2, hcheck, hloop⟩ := exec_bind_eq_ok.mp hrest
  obtain ⟨hsearch, rfl⟩ := checkSearch_eq_ok hcheck
  exact ⟨rootStat, _, hst, hsearch, hloop⟩

/-- The next component is a link that is followed. -/
def LinkNext (K : Caller) (host : Host) (o : PathResolveOptions) (w : Walk)
    (c : Bytes) (tr : Trace) :
    Prop :=
  Proper c ∧ ∃ st tr', exec (namespaceLstatRaw K host (w.candidate c)) tr = (.ok st, tr') ∧
    Follows o w st

/-- The path gets past the checks before the walk; `syscalls.rs:1973-1995`. -/
structure Admitted (path base : Bytes) : Prop where
  nonempty : path ≠ []
  short : path.length < namespacePathMax
  rooted : (makeAbsolute path base).head? = some slash
  names : (parts slash (makeAbsolute path base)).any (namespaceNameMax < ·.length) = false

/-- The iterations of a call, with the number of links followed before. -/
inductive Reaches (K : Caller) (host : Host) (o : PathResolveOptions) (path base : Bytes)
    (tr : Trace) : Nat → Stat → Walk → Trace → Prop
  | start {rootStat : Stat} {tr1 : Trace} (hpath : Admitted path base)
    (hst : exec (namespaceLstatRaw K host [slash]) tr = (.ok rootStat, tr1))
    (hsearch : MaySearch K o rootStat) :
    Reaches K host o path base tr 0 rootStat (initialWalk rootStat (makeAbsolute path base)) tr1
  | walk {n : Nat} {rootStat : Stat} {w w' : Walk} {c : Bytes} {rest : List Bytes} {tr1 tr2 : Trace}
    (h : Reaches K host o path base tr n rootStat w tr1) (hw : w.pending = c :: rest)
    (hlink : ¬ LinkNext K host o { w with pending := rest } c tr1)
    (hnext : exec (iterate K host o rootStat { w with pending := rest } c) tr1 =
      (.ok (.next w'), tr2)) :
    Reaches K host o path base tr n rootStat w' tr2
  | follow {n : Nat} {rootStat : Stat} {w w' : Walk} {c : Bytes} {rest : List Bytes}
    {tr1 tr2 : Trace} (h : Reaches K host o path base tr n rootStat w tr1)
    (hw : w.pending = c :: rest) (hlink : LinkNext K host o { w with pending := rest } c tr1)
    (hnext : exec (iterate K host o rootStat { w with pending := rest } c) tr1 =
      (.ok (.next w'), tr2)) :
    Reaches K host o path base tr (n + 1) rootStat w' tr2

lemma Move.symlinkCount (h : Move K host o rootStat w c tr w' tr') :
    (LinkNext K host o w c tr → w'.symlinkCount = w.symlinkCount + 1) ∧
      (¬ LinkNext K host o w c tr → w'.symlinkCount = w.symlinkCount) := by
  have hsame : ∀ {st st' : Stat} {tr1 tr2 : Trace},
      exec (namespaceLstatRaw K host (w.candidate c)) tr = (.ok st, tr1) →
      exec (namespaceLstatRaw K host (w.candidate c)) tr = (.ok st', tr2) → st = st' := by
    intro st st' tr1 tr2 h1 h2
    rw [h1] at h2
    cases h2
    rfl
  cases h with
  | stay hc => exact ⟨fun hlink => absurd hc hlink.1.1, fun _ => rfl⟩
  | up hc => exact ⟨fun hlink => absurd hc hlink.1.2, fun _ => rfl⟩
  | enter hc hst hnot =>
    refine ⟨fun hlink => ?_, fun _ => rfl⟩
    obtain ⟨-, st', tr2, hst', hfollows⟩ := hlink
    exact absurd (hsame hst hst' ▸ hfollows) hnot
  | follow hc hst hlink | threadSelf hc hst hlink | fd hc hst hlink =>
    exact ⟨fun _ => rfl, fun hnot => absurd ⟨hc, _, _, hst, hlink⟩ hnot⟩

/-- From every iteration the call goes on as it ends. -/
lemma Reaches.runs {n : Nat} {tr1 : Trace} {result : Except Errno (Option ResolvedNamespacePath)}
    (h : Reaches K host o path base tr n rootStat w tr1)
    (hrun : exec (resolveNamespacePathFrom K host o fuel path base) tr = (result, tr'))
    (hne : result ≠ .ok none) :
    ∃ left, exec (loop K host o rootStat left w) tr1 = (result, tr') := by
  have hstep {rootStat : Stat} {w w' : Walk} {c : Bytes} {rest : List Bytes} {tr1 tr2 : Trace}
      (hw : w.pending = c :: rest)
      (hnext : exec (iterate K host o rootStat { w with pending := rest } c) tr1 =
        (.ok (.next w'), tr2)) :
      (∃ left, exec (loop K host o rootStat left w) tr1 = (result, tr')) →
        ∃ left, exec (loop K host o rootStat left w') tr2 = (result, tr') := by
    rintro ⟨_ | left, hleft⟩
    · cases hleft
      exact absurd rfl hne
    · rw [loop_cons hw, exec_bind_of_ok hnext] at hleft
      exact ⟨left, hleft⟩
  induction h with
  | @start rootStat tr1 hpath hst hsearch =>
    refine ⟨fuel, ?_⟩
    have hcheck : exec (checkSearch K o rootStat) tr1 = (.ok (), tr1) := by
      rw [checkSearch, if_neg (not_not.mpr hsearch.1), if_pos hsearch.2]
      rfl
    unfold resolveNamespacePathFrom at hrun
    dsimp only at hrun
    rw [if_neg hpath.nonempty, if_neg (Nat.not_le_of_lt hpath.short),
      if_neg (not_not.mpr hpath.rooted), hpath.names, if_neg Bool.false_ne_true,
      exec_bind_of_ok hst, exec_bind_of_ok hcheck] at hrun
    exact hrun
  | walk _ hw _ hnext ih | follow _ hw _ hnext ih => exact hstep hw hnext ih

lemma Reaches.inv (hR : Carried K host o last R) {n : Nat}
    (h : Reaches K host o path base tr n rootStat w tr') :
    (∃ cs, Inv last R w tr' cs) ∧ w.symlinkCount = n := by
  induction h with
  | start _ hst hsearch => exact ⟨⟨[], inv_initialWalk hR hst hsearch⟩, rfl⟩
  | walk _ hw hlink hnext ih =>
    obtain ⟨⟨cs, hinv⟩, hcount⟩ := ih
    have hmove := iterate_next hnext
    exact ⟨hinv.move hR hw hmove, (hmove.symlinkCount.2 hlink).trans hcount⟩
  | follow _ hw hlink hnext ih =>
    obtain ⟨⟨cs, hinv⟩, hcount⟩ := ih
    have hmove := iterate_next hnext
    refine ⟨hinv.move hR hw hmove, (hmove.symlinkCount.1 hlink).trans ?_⟩
    rw [← hcount]

lemma iterate_eloop (hcount : 40 ≤ w.symlinkCount) (hlink : LinkNext K host o w c tr) :
    (exec (iterate K host o rootStat w c) tr).1 = .error .ELOOP := by
  obtain ⟨hc, st, tr1, hst, hfollows⟩ := hlink
  have hanswer : exec (attempt (namespaceLstatRaw K host (appendPathComponent w.resolved c))) tr =
      (.ok (.ok st), tr1) := by
    rw [exec_attempt]
    rw [Walk.candidate] at hst
    rw [hst]
  unfold iterate
  rw [if_neg hc.1, if_neg hc.2, enter]
  rw [exec_bind_of_ok hanswer]
  dsimp only
  rw [if_pos hfollows, followLink]
  dsimp only
  rw [if_pos (by omega)]
  rfl

lemma length_makeAbsolute_le (path base : Bytes) :
    (makeAbsolute path base).length ≤ path.length + base.length + 1 := by
  unfold makeAbsolute
  split
  · exact Nat.zero_le _
  split
  · omega
  split
  · rw [length_append]
    omega
  · rw [length_append, length_cons]
    omega

/-- Rounds that are enough for every path. -/
def enoughFuel (path base : Bytes) : Nat := path.length + base.length + 41 * namespacePathMax

lemma budget_initialWalk_lt :
    (initialWalk rootStat (makeAbsolute path base)).budget < enoughFuel path base := by
  have hparts : (parts slash (makeAbsolute path base)).length ≤ (makeAbsolute path base).length :=
    length_parts_le
  have hlen := length_makeAbsolute_le path base
  change (parts slash (makeAbsolute path base)).length + 40 * 4096 <
    path.length + base.length + 41 * 4096
  omega

lemma resolve_ends :
    ∃ r tr',
      (∀ more, exec (resolveNamespacePathFrom K host o (enoughFuel path base + more) path base)
      tr = (r, tr')) ∧ r ≠ .ok none := by
  unfold resolveNamespacePathFrom
  dsimp only
  iterate 4
    split
    · exact ⟨_, _, fun _ => rfl, nofun⟩
  rcases hst : exec (namespaceLstatRaw K host [slash]) tr with ⟨rootStat | rootStat, tr1⟩
  · exact ⟨_, _, fun _ => exec_bind_of_error hst, nofun⟩
  rcases hcheck : exec (checkSearch K o rootStat) tr1 with ⟨u | u, tr2⟩
  · refine ⟨.error u, tr2, fun _ => ?_, nofun⟩
    rw [exec_bind_of_ok hst, exec_bind_of_error hcheck]
  have hloop : ∃ r tr', (∀ more, exec (loop K host o rootStat (enoughFuel path base + more)
      (initialWalk rootStat (makeAbsolute path base))) tr2 = (r, tr')) ∧ r ≠ .ok none :=
    loop_ends budget_initialWalk_lt tr2
  obtain ⟨r, tr', hrun, hr⟩ := hloop
  refine ⟨r, tr', fun more => ?_, hr⟩
  rw [exec_bind_of_ok hst, exec_bind_of_ok hcheck, hrun]

end

/-- The walk ends for every path, directory and host, after a number of iterations that depends on
the lengths of the path and the directory only. What it returns is canonical. Every iteration of it
comes after forty links at most, and at the next link the call fails. -/
theorem resolve_terminates_canonical (K : Caller) (host : Host) (o : PathResolveOptions)
    (path base : Bytes) (tr : Trace) :
    ∃ result tr', (∀ fuel ≥ enoughFuel path base,
        exec (resolveNamespacePathFrom K host o fuel path base) tr = (result, tr')) ∧
      ((∃ e, result = .error e) ∨ ∃ r, result = .ok (some r) ∧ Canonical r.path) ∧
      (∀ n rootStat w tr1, Reaches K host o path base tr n rootStat w tr1 → n ≤ 40 ∧
        ∃ left, exec (loop K host o rootStat left w) tr1 = (result, tr')) ∧
      ∀ rootStat w c rest tr1, Reaches K host o path base tr 40 rootStat w tr1 →
        w.pending = c :: rest → LinkNext K host o { w with pending := rest } c tr1 →
        result = .error .ELOOP := by
  have hany : Carried K host o False fun _ _ => True :=
    ⟨fun _ _ => trivial, fun _ => trivial, fun _ _ => trivial, fun _ _ _ _ => trivial,
      fun _ _ => trivial⟩
  obtain ⟨result, tr', hrun, hne⟩ : ∃ r tr', (∀ more, exec (resolveNamespacePathFrom K host o
    (enoughFuel path base + more) path base) tr = (r, tr')) ∧ r ≠ .ok none := resolve_ends
  refine ⟨result, tr', fun fuel hfuel => ?_, ?_, fun n rootStat w tr1 hreach => ⟨?_, ?_⟩,
    fun rootStat w c rest tr1 hreach hw hlink => ?_⟩
  · obtain ⟨more, rfl⟩ := Nat.exists_eq_add_of_le hfuel
    exact hrun more
  · rcases result with e | _ | r
    · exact .inl ⟨e, rfl⟩
    · exact absurd rfl hne
    obtain ⟨rootStat, tr1, hst, hsearch, hloop⟩ := resolve_eq_ok (hrun 0)
    obtain ⟨cs, hbelow⟩ := below_of_loop hany (inv_initialWalk hany hst hsearch) hloop
    refine .inr ⟨r, rfl, ?_⟩
    rw [hbelow.path_eq]
    exact canonical_render hbelow.names
  · obtain ⟨⟨cs, hinv⟩, hcount⟩ := hreach.inv hany
    rw [← hcount]
    exact hinv.count
  · exact hreach.runs (hrun 0) hne
  · have hcount := (hreach.inv hany).2
    have hloop : (exec (iterate K host o rootStat { w with pending := rest } c) tr1).1 =
        .error .ELOOP := iterate_eloop (by change 40 ≤ w.symlinkCount; omega) hlink
    rcases hi : exec (iterate K host o rootStat { w with pending := rest } c) tr1 with ⟨x, tr2⟩
    rw [hi] at hloop
    cases hloop
    obtain ⟨_ | left, hleft⟩ := hreach.runs (hrun 0) hne
    · cases hleft
      exact absurd rfl hne
    · rw [loop_cons hw, exec_bind_of_error hi] at hleft
      cases hleft
      rfl

end Kandelo.Kernel.Path
