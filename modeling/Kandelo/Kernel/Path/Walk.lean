import Kandelo.Kernel.Path.Lookup

/-!
# Walking a path

`resolve_namespace_path_from` of `crates/kernel/src/syscalls.rs`: a path is
resolved one component at a time, with `..` going up in the resolved path and the target of a
symbolic link put in front of the components that are left. One iteration of the loop is
`iterate`; `loop` runs it a bounded number of times.
-/

namespace Kandelo.Kernel.Path

open Lib

/-- `make_absolute`; `path.rs:11-25`. -/
def makeAbsolute (path cwd : Bytes) : Bytes :=
  if path = [] then []
  else if path.head? = some slash then path
  else if cwd.getLast? = some slash then cwd ++ path
  else cwd ++ slash :: path

/-- `append_path_component`; `syscalls.rs:1925-1930`. -/
def appendPathComponent (path component : Bytes) : Bytes :=
  if 1 < path.length then path ++ slash :: component else path ++ component

/-- `pop_path_component`; `syscalls.rs:1938-1947`. -/
def popPathComponent (path : Bytes) : Bytes :=
  if path.length ≤ 1 then [slash]
  else
    match path.reverse.findIdx? (· == slash) with
    | some fromEnd => path.take (max (path.length - 1 - fromEnd) 1)
    | none => path

/-- Length of the components that follow, each behind a separator but the first if there is one
already. -/
def pendingLen : Bool → List Bytes → Nat
  | _, [] => 0
  | needsSeparator, c :: rest => (if needsSeparator then 1 else 0) + c.length + pendingLen true rest

/-- `substituted_path_len`; `syscalls.rs:1949-1960`. A sum that overflows is an error like one that
is too large. -/
def substitutedPathLen (target : Bytes) (pending : List Bytes) : Nat :=
  target.length + pendingLen (target.getLast? != some slash) pending

/-- `PathResolveOptions`; `syscalls.rs:1772-1778`. -/
structure PathResolveOptions where
  followFinalSymlink : Bool
  allowMissingFinal : Bool
  allowMissingDirectory : Bool
  useRealIds : Bool

/-- `PathResolveOptions::FOLLOW`; `syscalls.rs:1781-1786`. -/
def PathResolveOptions.follow : PathResolveOptions := ⟨true, false, false, false⟩

/-- `ResolvedNamespacePath`; `syscalls.rs:1811-1814`. -/
structure ResolvedNamespacePath where
  path : Bytes
  stat : Option Stat

/-- The variables of the loop. -/
structure Walk where
  resolved : Bytes
  pending : List Bytes
  finalStat : Stat
  symlinkCount : Nat
  requireDirectory : Bool

/-- How an iteration ends: with the next one or with a result. -/
inductive Iteration
  | next (w : Walk)
  | done (r : ResolvedNamespacePath)

section

variable (K : Caller) (host : Host) (o : PathResolveOptions)

/-- The ids for search permission; `syscalls.rs:2005-2009`. -/
def searchIds : Nat × Nat := if o.useRealIds then (K.uid, K.gid) else (K.euid, K.egid)

/-- The object is a directory that the caller may search. -/
def MaySearch (st : Stat) : Prop :=
  st.IsDir ∧ hasAccessForIds (searchIds K o).1 (searchIds K o).2 st xOk = true

/-- Require a directory that can be searched; `syscalls.rs:2026-2029, 2126-2129`. -/
def checkSearch (st : Stat) : Lookup Unit :=
  if ¬ st.IsDir then throw .ENOTDIR
  else if hasAccessForIds (searchIds K o).1 (searchIds K o).2 st xOk then pure ()
  else throw .EACCES

/-- The same if the object has to be a directory. -/
def checkSearchIf (required : Prop) [Decidable required] (st : Stat) : Lookup Unit :=
  if required then checkSearch K o st else pure ()

variable (w : Walk)

/-- The component is `..`; `syscalls.rs:2021-2034`. -/
def goUp : Lookup Iteration := do
  let st ← namespaceLstatRaw K host (popPathComponent w.resolved)
  checkSearchIf K o (w.pending ≠ []) st
  pure (.next { w with resolved := popPathComponent w.resolved, finalStat := st })

/-- The last component is missing, which the caller allows; `syscalls.rs:2042-2057`. -/
def missingFinal (candidate : Bytes) : Lookup Iteration :=
  if isProcfsNamespacePath candidate ||
      isDevfsNamespacePath candidate && !isHostBackedDevfsPath candidate then throw .EROFS
  else if w.requireDirectory && !o.allowMissingDirectory then throw .ENOENT
  else pure (.done ⟨candidate, none⟩)

/-- The digits of a number. -/
def decimal (n : Nat) : Bytes := (Nat.toDigits 10 n).map fun c => c.toNat.toUInt8

variable (rootStat : Stat)

/-- The variables with the target of a link in front of what is left; `syscalls.rs:2098-2123`. -/
def Walk.substituted (w : Walk) (target : Bytes) : Walk :=
  { w with
    resolved := if target.head? = some slash then [slash] else w.resolved
    finalStat := if target.head? = some slash then rootStat else w.finalStat
    pending := Segments.parts slash target ++ w.pending
    requireDirectory := w.requireDirectory ||
      (w.pending = [] && 1 < target.length && target.getLast? == some slash) }

/-- Go on with the target of a link; `syscalls.rs:2091-2123`. -/
def substitute (w : Walk) (target : Bytes) : Lookup Iteration :=
  if namespacePathMax ≤ substitutedPathLen target w.pending then throw .ENAMETOOLONG
  else if (Segments.parts slash target).any (namespaceNameMax < ·.length) then throw .ENAMETOOLONG
  else pure (.next (w.substituted rootStat target))

/-- The component is a link that is followed; `syscalls.rs:2061-2124`. -/
def followLink (w : Walk) (candidate : Bytes) (st : Stat) : Lookup Iteration :=
  let w := { w with symlinkCount := w.symlinkCount + 1 }
  if 40 < w.symlinkCount then throw .ELOOP
  else
    match (K.procfs candidate).map ProcfsEntry.link with
    | some .threadSelf => do
      let st ← namespaceLstatRaw K host (bytes "/proc/" ++ decimal K.pid)
      pure (.next { w with resolved := bytes "/proc/" ++ decimal K.pid, finalStat := st })
    | some .fd =>
      if w.pending ≠ [] ∨ w.requireDirectory = true then throw .ENOTDIR
      else pure (.next { w with resolved := candidate, finalStat := st })
    | _ => do
      let target ← namespaceReadlinkRaw K host candidate
      substitute rootStat w target

/-- The component is a link that has to be followed; `syscalls.rs:2059-2060`. -/
def Follows (st : Stat) : Prop :=
  st.IsLink ∧ (w.pending ≠ [] ∨ o.followFinalSymlink = true ∨ w.requireDirectory = true)

instance (w : Walk) (st : Stat) : Decidable (Follows o w st) := inferInstanceAs (Decidable (_ ∧ _))

/-- The component is a name; `syscalls.rs:2036-2132`. -/
def enter (w : Walk) (component : Bytes) : Lookup Iteration := do
  let candidate := appendPathComponent w.resolved component
  match ← Effect.attempt (namespaceLstatRaw K host candidate) with
  | .error e =>
    if e = .ENOENT ∧ w.pending = [] ∧ o.allowMissingFinal = true then missingFinal o w candidate
    else throw e
  | .ok st =>
    if Follows o w st then followLink K host rootStat w candidate st
    else do
      checkSearchIf K o (w.pending ≠ [] ∨ w.requireDirectory = true) st
      pure (.next { w with resolved := candidate, finalStat := st })

/-- One iteration, with the component already taken from those that are pending;
`syscalls.rs:2017-2133`. -/
def iterate (w : Walk) (component : Bytes) : Lookup Iteration :=
  if component = bytes "." then pure (.next w)
  else if component = bytes ".." then goUp K host o w
  else enter K host o rootStat w component

/-- Metadata of the resolved path; `syscalls.rs:2135-2138`. -/
def finalLstat : Lookup Stat :=
  if w.resolved = [slash] then pure w.finalStat else namespaceLstatRaw K host w.resolved

/-- What follows the loop; `syscalls.rs:2135-2147`. -/
def finish : Lookup ResolvedNamespacePath := do
  let st ← finalLstat K host w
  if w.requireDirectory = true ∧ ¬ st.IsDir then throw .ENOTDIR else pure ⟨w.resolved, some st⟩

/-- The rounds of the walk; none is out of fuel. -/
def loop (rootStat : Stat) : Nat → Walk → Lookup (Option ResolvedNamespacePath)
  | 0, _ => pure none
  | fuel + 1, w =>
    match w.pending with
    | [] => do
      let r ← finish K host w
      pure (some r)
    | component :: rest => do
      match ← iterate K host o rootStat { w with pending := rest } component with
      | .next w => loop rootStat fuel w
      | .done r => pure (some r)

variable (absolute : Bytes)

/-- The path ends in a slash, `.` or `..`; `syscalls.rs:1985, 1997-2001`. -/
def endsInDirectory : Bool :=
  (1 < absolute.length && absolute.getLast? == some slash) ||
    (Segments.parts slash absolute).getLast? == some (bytes ".") ||
    (Segments.parts slash absolute).getLast? == some (bytes "..")

/-- The variables before the loop; `syscalls.rs:1985-2015`. -/
def initialWalk : Walk :=
  ⟨[slash], Segments.parts slash absolute, rootStat, 0, endsInDirectory absolute⟩

/-- `resolve_namespace_path_from`; `syscalls.rs:1966-2149`. -/
def resolveNamespacePathFrom (fuel : Nat) (path base : Bytes) :
    Lookup (Option ResolvedNamespacePath) :=
  let absolute := makeAbsolute path base
  if path = [] then throw .ENOENT
  else if namespacePathMax ≤ path.length then throw .ENAMETOOLONG
  else if absolute.head? ≠ some slash then throw .ENOENT
  else if (Segments.parts slash absolute).any (namespaceNameMax < ·.length) then throw .ENAMETOOLONG
  else do
    let rootStat ← namespaceLstatRaw K host [slash]
    checkSearch K o rootStat
    loop K host o rootStat fuel (initialWalk rootStat absolute)

end

end Kandelo.Kernel.Path
