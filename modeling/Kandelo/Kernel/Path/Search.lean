import Kandelo.Kernel.Path.Resolve

/-!
# Search permission

A path is only resolved through directories that the caller may search: each of
them was reported by the host in the same call. In a namespace that does not change during the
call, a path that is followed to its end is not a link.
-/

namespace Kandelo.Kernel.Path

open Lib.Effect Lib.Segments

/-- A host whose objects do not change while it is asked. -/
def Host.Stable (host : Host) : Prop := ∀ tr tr' path, host.lstat tr path = host.lstat tr' path

section

variable {K : Caller} {host : Host} {o : PathResolveOptions} {st : Stat} {path : Bytes}
  {tr tr' tr2 tr1 : Trace}

lemma exec_bind_congr {α β : Type} {x : Lookup α} {f : α → Lookup β}
    (hx : (exec x tr1).1 = (exec x tr2).1)
    (hf : ∀ a tr1 tr2, (exec (f a) tr1).1 = (exec (f a) tr2).1) :
    (exec (x >>= f) tr1).1 = (exec (x >>= f) tr2).1 := by
  rw [exec_bind, exec_bind]
  rcases h1 : exec x tr1 with ⟨r1, tr1'⟩
  rcases h2 : exec x tr2 with ⟨r2, tr2'⟩
  rw [h1, h2] at hx
  obtain rfl : r1 = r2 := hx
  cases r1 with
  | ok a => exact hf a _ _
  | error => rfl

lemma fifoPathStatRaw_stable (hstable : host.Stable) (tr1 tr2 : Trace) :
    (exec (fifoPathStatRaw K host path) tr1).1 = (exec (fifoPathStatRaw K host path) tr2).1 := by
  unfold fifoPathStatRaw
  split
  · rfl
  · refine exec_bind_congr (hstable _ _ _) fun st _ _ => ?_
    split <;> rfl

lemma lstatBelow_stable (hstable : host.Stable) :
    (exec (lstatBelow K host path) tr1).1 = (exec (lstatBelow K host path) tr2).1 := by
  unfold lstatBelow
  split
  · rfl
  split
  · rfl
  refine exec_bind_congr (fifoPathStatRaw_stable hstable _ _) fun found _ _ => ?_
  cases found with
  | some => rfl
  | none => exact hstable _ _ _

lemma namespaceLstatRaw_stable (hstable : host.Stable) (tr1 tr2 : Trace) :
    (exec (namespaceLstatRaw K host path) tr1).1 =
    (exec (namespaceLstatRaw K host path) tr2).1 := by
  unfold namespaceLstatRaw
  split
  · rfl
  split
  · rfl
  split
  · refine exec_bind_congr (congrArg Except.ok (hstable _ _ _)) fun answer _ _ => ?_
    cases answer with
    | ok =>
      dsimp only
      split
      · rfl
      · exact lstatBelow_stable hstable
    | error e =>
      cases e with
      | ENOENT => exact lstatBelow_stable hstable
      | _ => rfl
  · exact lstatBelow_stable hstable

/-- Under `/proc`, or never seen as a link. -/
def Plain (K : Caller) (host : Host) (path : Bytes) : Prop :=
  isProcfsNamespacePath path = true ∨
    ∀ tr st, (exec (namespaceLstatRaw K host path) tr).1 = .ok st → ¬ st.IsLink

lemma plain_of_lstat (hstable : host.Stable) {r : Except Errno Stat}
    (h : exec (namespaceLstatRaw K host path) tr = (r, tr')) (hr : ∀ st, r = .ok st → ¬ st.IsLink) :
    Plain K host path := by
  refine .inr fun tr1 st hst => hr st ?_
  rw [namespaceLstatRaw_stable hstable tr1 tr, h] at hst
  exact hst

lemma not_isLink_of_isDir (h : st.IsDir) : ¬ st.IsLink := by
  unfold Stat.IsLink
  rw [h]
  decide

lemma carried_plain (hstable : host.Stable) :
    Carried K host o (o.followFinalSymlink = true) fun _ path => Plain K host path where
  mono h _ := h
  procfs := .inl
  root hst hsearch := plain_of_lstat hstable hst fun st heq => by
    cases heq
    exact not_isLink_of_isDir hsearch.1
  enter hst hlink _ hneeded := plain_of_lstat hstable hst fun st heq hislink => by
    cases heq
    exact hlink ⟨hislink, hneeded.imp_right .inl⟩
  missing hst _ := plain_of_lstat hstable hst fun st heq => nomatch heq

/-- In the kernel's own trees, or reported by the host as a directory that may be searched. -/
def Reported (K : Caller) (o : PathResolveOptions) (tr : Trace) (path : Bytes) : Prop :=
  Synthetic path ∨ Searched K o tr path

lemma reported_of_lstat (h : exec (namespaceLstatRaw K host path) tr = (.ok st, tr'))
    (hsearch : MaySearch K o st) : Reported K o tr' path := by
  by_cases hpath : Synthetic path
  · exact .inl hpath
  · exact .inr ⟨st, namespaceLstatRaw_dir h hsearch.1 hpath, hsearch⟩

lemma carried_reported : Carried K host o False (Reported K o) where
  mono h htr := by
    rcases h with h | ⟨st, hst, hsearch⟩
    · exact .inl h
    · exact .inr ⟨st, htr.subset hst, hsearch⟩
  procfs h := .inl (.inl h)
  root hst hsearch := reported_of_lstat hst hsearch
  enter hst _ hsearch hneeded := reported_of_lstat hst (hsearch (hneeded.resolve_right id))
  missing _ h := h.elim

end

/-- The directory is above the path. -/
def ProperAncestor (dir path : Bytes) : Prop :=
  ∃ ds cs : List Bytes, dir = render slash ds ∧ path = render slash cs ∧
    (∀ c ∈ cs, IsSegment slash c) ∧ ds <+: cs ∧ ds ≠ cs

lemma ProperAncestor.of_prefixes {P : Bytes → Prop} {dir path : Bytes} {cs : List Bytes}
    (h : ProperAncestor dir path) (hpath : path = render slash cs) (hnames : ∀ c ∈ cs, IsName c)
    (hP : ∀ ds, ds <+: cs → ds ≠ cs → P (render slash ds)) : P dir := by
  obtain ⟨ds, cs', rfl, hpath', hcs', hds, hne⟩ := h
  have heq : cs = cs' :=
    render_injective (fun c hc => (hnames c hc).segment) hcs' (hpath.symm.trans hpath')
  rw [heq] at hP
  exact hP ds hds hne

/-- A path that has been resolved lies below directories that the host has reported, in this call,
as directories the caller may search; the same holds for the directory in which any component of
the walk, a link and `..` included, was looked up, and for those above it. If links at the end are
followed, the path is no link. -/
theorem resolve_searches_every_directory (K : Caller) (host : Host) (o : PathResolveOptions)
    (fuel : Nat) (path base : Bytes) {r : ResolvedNamespacePath} {tr : Trace}
    (h : exec (resolveNamespacePathFrom K host o fuel path base) [] = (.ok (some r), tr)) :
    (∀ dir, ProperAncestor dir r.path → ¬ Synthetic dir → Searched K o tr dir) ∧
    (∀ n rootStat w tr' c rest, Reaches K host o path base [] n rootStat w tr' →
      w.pending = c :: rest → tr' <:+ tr ∧
        ∀ dir, dir = w.resolved ∨ ProperAncestor dir w.resolved → ¬ Synthetic dir →
          Searched K o tr' dir ∧ Searched K o tr dir) ∧
    (host.Stable → o.followFinalSymlink = true → isProcfsNamespacePath r.path = false →
      ∀ tr' st, (exec (namespaceLstatRaw K host r.path) tr').1 = .ok st → ¬ st.IsLink) := by
  obtain ⟨rootStat, tr1, hst, hsearch, hloop⟩ := resolve_eq_ok h
  refine ⟨fun dir hdir hsynthetic => ?_, fun n rs w tr' c rest hreach hw => ?_,
    fun hstable hfollow hproc tr' st hlstat => ?_⟩
  · obtain ⟨cs, hbelow⟩ :=
      below_of_loop carried_reported (inv_initialWalk carried_reported hst hsearch)
      hloop
    have hreported : Reported K o tr dir :=
      hdir.of_prefixes hbelow.path_eq hbelow.names hbelow.above
    exact hreported.resolve_left hsynthetic
  · obtain ⟨⟨cs, hinv⟩, -⟩ := hreach.inv carried_reported
    obtain ⟨left, hleft⟩ := hreach.runs h nofun
    have hsuffix := suffix_of_loop hleft
    refine ⟨hsuffix, fun dir hdir hsynthetic => ?_⟩
    have hreported : Reported K o tr' dir := by
      rcases hdir with rfl | hdir
      · rw [hinv.resolved]
        exact hinv.here (.inl (by rw [hw]; simp))
      · exact hdir.of_prefixes hinv.resolved hinv.names hinv.above
    obtain ⟨st, hst, hsearch⟩ := hreported.resolve_left hsynthetic
    exact ⟨⟨st, hst, hsearch⟩, st, hsuffix.subset hst, hsearch⟩
  · have hplain := carried_plain (K := K) (o := o) hstable
    obtain ⟨cs, hbelow⟩ := below_of_loop hplain (inv_initialWalk hplain hst hsearch) hloop
    rcases hbelow.here hfollow with hp | hnot
    · rw [← hbelow.path_eq, hproc] at hp
      cases hp
    · rw [← hbelow.path_eq] at hnot
      exact hnot tr' st hlstat

/-- A host with directories `/`, `/a` and `/b`, and a link from `/a/l` to `../b`. -/
def linkHost : Host where
  lstat _ path :=
    if path = bytes "/a/l" then .ok ⟨sIflnk ||| 0o777, 0, 0⟩
    else if path = bytes "/" ∨ path = bytes "/a" ∨ path = bytes "/b" then
      .ok ⟨sIfdir ||| 0o755, 0, 0⟩
    else .error .ENOENT
  readlink _ path := if path = bytes "/a/l" then .ok (bytes "../b") else .error .EINVAL

/-- A caller who is not the owner of these objects. -/
def strangerCaller : Caller where
  pid := 7
  uid := 1000
  gid := 1000
  euid := 1000
  egid := 1000
  procfs _ := none
  fifo _ := none
  procfs_path _ h := nomatch h

/-- The walk of `/a/l` has entered `/a`. -/
lemma reaches_linkHost : ∃ rootStat w tr', Reaches strangerCaller linkHost .follow (bytes "a/l")
    (bytes "/") [] 0 rootStat w tr' ∧ w.resolved = bytes "/a" ∧ w.pending = [bytes "l"] := by
  have hstart := Reaches.start (K := strangerCaller) (o := .follow)
    (show Admitted (bytes "a/l") (bytes "/") from ⟨by decide, by decide, by decide, by decide⟩)
    (show exec (namespaceLstatRaw strangerCaller linkHost [slash]) [] = _ from rfl)
    (by unfold MaySearch; decide)
  have hpending : Lib.Segments.parts slash (makeAbsolute (bytes "a/l") (bytes "/")) =
      bytes "a" :: [bytes "l"] := by decide
  refine ⟨_, _, _, hstart.walk hpending ?_ rfl, rfl, rfl⟩
  rintro ⟨-, st, tr', hst, hfollows⟩
  cases hst
  exact absurd hfollows (by decide)

/-- The link from `/a` is followed, and `/a` was searched though the result is not below it. -/
theorem resolve_searches_linkHost :
    ∃ r tr,
      exec (resolveNamespacePathFrom strangerCaller linkHost .follow 10 (bytes "a/l") (bytes "/"))
        [] = (.ok (some r), tr) ∧ r.path = bytes "/b" ∧
      Searched strangerCaller .follow tr (bytes "/a") := by
  have hpath : (exec (resolveNamespacePathFrom strangerCaller linkHost .follow 10 (bytes "a/l")
      (bytes "/")) []).1.toOption.bind (·.map (·.path)) = some (bytes "/b") := by decide +kernel
  rcases h : exec (resolveNamespacePathFrom strangerCaller linkHost .follow 10 (bytes "a/l")
    (bytes "/")) [] with ⟨_ | _ | r, tr⟩
  · rw [h] at hpath
    cases hpath
  · rw [h] at hpath
    cases hpath
  · rw [h] at hpath
    obtain ⟨rootStat, w, tr', hreach, hresolved, hpending⟩ := reaches_linkHost
    refine ⟨r, tr, rfl, Option.some.inj hpath, ?_⟩
    have hwalk := (resolve_searches_every_directory _ _ _ _ _ _ h).2.1 _ _ _ _ _ _ hreach hpending
    exact (hwalk.2 (bytes "/a") (.inl hresolved.symm) (by unfold Synthetic; decide)).2

end Kandelo.Kernel.Path
