import Kandelo.Kernel.Errno
import Kandelo.Lib.History

/-!
# Ports

The tables of bound ports of `crates/kernel/src/socket.rs`: one for UDP and one for
TCP, over IPv4 and over IPv6. A binding has one or more owners, each a socket of a process, since a
child process inherits the sockets of its parent.
-/

namespace Kandelo.Kernel.Socket

/-- Addresses of IPv4. -/
abbrev Ipv4 := Vector UInt8 4

/-- Addresses of IPv6. -/
abbrev Ipv6 := Vector UInt8 16

open Lib List

/-- `BindingOwner`; `socket.rs:123-127`. -/
structure BindingOwner where
  pid : Nat
  sockIdx : Nat
  deriving DecidableEq

/-- A binding of one of the tables: `UdpBinding`, `Udp6Binding`, `TcpBinding` or `Tcp6Binding`,
where the latter two have no `reuse_addr` and are never made with it; `socket.rs:160-166, 299-305,
409-414, 499-504`. -/
structure Binding (A : Type) where
  owners : List BindingOwner
  addr : A
  port : UInt16
  reuseAddr : Bool

section

variable {A : Type} [DecidableEq A] (wild : A)

/-- Both addresses take the same packets: they are equal, or one is the wildcard;
`socket.rs:200-202, 328-330, 428-430, 518-520`. -/
def conflicts (a b : A) : Bool := a = wild || b = wild || a = b

variable (bindings : List (Binding A))

/-- Some owners are taken away, and the bindings without an owner with them. -/
def keepOwners (p : BindingOwner → Bool) : List (Binding A) :=
  (bindings.map fun b => { b with owners := b.owners.filter p }).filter (·.owners ≠ [])

/-- `remove_binding_owner`; `socket.rs:135-142`. -/
def removeBindingOwner (owner : BindingOwner) : List (Binding A) :=
  keepOwners bindings (· ≠ owner)

/-- `cleanup_binding_owner_pid`; `socket.rs:144-149`. -/
def cleanupBindingOwnerPid (pid : Nat) : List (Binding A) :=
  keepOwners bindings (·.pid ≠ pid)

/-- `inherit_binding_owner`; `socket.rs:151-161`. -/
def inheritBindingOwner (parent child : BindingOwner) : List (Binding A) :=
  bindings.map fun b =>
    if parent ∈ b.owners ∧ child ∉ b.owners then { b with owners := b.owners ++ [child] } else b

/-- Whether a socket may bind an address: a binding that it alone has is about to be replaced;
`socket.rs:208-229, 337-356, 432-446, 522-532`. -/
def canBind (bindings : List (Binding A)) (owner : BindingOwner) (addr : A) (port : UInt16)
    (reuseAddr : Bool) : Bool :=
  bindings.all fun b =>
    (owner ∈ b.owners && b.owners.length = 1) || b.port ≠ port || !conflicts wild b.addr addr ||
      (b.reuseAddr && reuseAddr)

/-- Bind a socket; `socket.rs:231-265, 358-389, 448-473, 534-571`. -/
def register (bindings : List (Binding A)) (owner : BindingOwner) (addr : A) (port : UInt16)
    (reuseAddr : Bool) : Except Errno Unit × List (Binding A) :=
  if port = 0 then (.error .EINVAL, bindings)
  else if bindings.any fun b => b.addr = addr && b.port = port && b.reuseAddr = reuseAddr &&
      owner ∈ b.owners then (.ok (), bindings)
  else if !canBind wild bindings owner addr port reuseAddr then (.error .EADDRINUSE, bindings)
  else (.ok (), removeBindingOwner bindings owner ++ [⟨[owner], addr, port, reuseAddr⟩])

end

/-! ### The four tables -/

/-- The four tables; `socket.rs:191-198, 319-326, 419-426, 509-516`. -/
structure InetTables where
  udp : List (Binding Ipv4)
  udp6 : List (Binding Ipv6)
  tcp : List (Binding Ipv4)
  tcp6 : List (Binding Ipv6)

namespace InetTables

variable (t : InetTables) (pid sockIdx : Nat) (addr : Ipv4) (port : UInt16)

/-- `udp_register`; `socket.rs:231-265`. -/
def udpRegister (reuse : Bool) : Except Errno Unit × InetTables :=
  let (r, udp) := register (.replicate 4 0) t.udp ⟨pid, sockIdx⟩ addr port reuse
  (r, { t with udp })

/-- `udp6_register`; `socket.rs:356-388`. -/
def udp6Register (addr : Ipv6) (port : UInt16) (reuse : Bool) : Except Errno Unit × InetTables :=
  let (r, udp6) := register (.replicate 16 0) t.udp6 ⟨pid, sockIdx⟩ addr port reuse
  (r, { t with udp6 })

/-- `tcp_register`; `socket.rs:462-486`. -/
def tcpRegister : Except Errno Unit × InetTables :=
  let (r, tcp) := register (.replicate 4 0) t.tcp ⟨pid, sockIdx⟩ addr port false
  (r, { t with tcp })

/-- `tcp6_register`; `socket.rs:534-571`. -/
def tcp6Register (addr : Ipv6) (port : UInt16) : Except Errno Unit × InetTables :=
  let (r, tcp6) := register (.replicate 16 0) t.tcp6 ⟨pid, sockIdx⟩ addr port false
  (r, { t with tcp6 })

/-- `udp_unregister`; `socket.rs:267-269`. -/
def udpUnregister : InetTables :=
  { t with udp := removeBindingOwner t.udp ⟨pid, sockIdx⟩ }

/-- `udp6_unregister`; `socket.rs:390-392`. -/
def udp6Unregister : InetTables :=
  { t with udp6 := removeBindingOwner t.udp6 ⟨pid, sockIdx⟩ }

/-- `tcp_unregister`; `socket.rs:488-490`. -/
def tcpUnregister : InetTables :=
  { t with tcp := removeBindingOwner t.tcp ⟨pid, sockIdx⟩ }

/-- `tcp6_unregister`; `socket.rs:573-575`. -/
def tcp6Unregister : InetTables :=
  { t with tcp6 := removeBindingOwner t.tcp6 ⟨pid, sockIdx⟩ }

/-- `udp_cleanup_process`; `socket.rs:271-273`. -/
def udpCleanupProcess : InetTables :=
  { t with udp := cleanupBindingOwnerPid t.udp pid }

/-- `udp6_cleanup_process`; `socket.rs:394-396`. -/
def udp6CleanupProcess : InetTables :=
  { t with udp6 := cleanupBindingOwnerPid t.udp6 pid }

/-- `tcp_cleanup_process`; `socket.rs:492-494`. -/
def tcpCleanupProcess : InetTables :=
  { t with tcp := cleanupBindingOwnerPid t.tcp pid }

/-- `tcp6_cleanup_process`; `socket.rs:577-579`. -/
def tcp6CleanupProcess : InetTables :=
  { t with tcp6 := cleanupBindingOwnerPid t.tcp6 pid }

/-- `inherit_inet_binding_owners`; `socket.rs:588-601`. -/
def inheritInetBindingOwners (parentPid childPid sockIdx : Nat) : InetTables where
  udp := inheritBindingOwner t.udp ⟨parentPid, sockIdx⟩ ⟨childPid, sockIdx⟩
  udp6 := inheritBindingOwner t.udp6 ⟨parentPid, sockIdx⟩ ⟨childPid, sockIdx⟩
  tcp := inheritBindingOwner t.tcp ⟨parentPid, sockIdx⟩ ⟨childPid, sockIdx⟩
  tcp6 := inheritBindingOwner t.tcp6 ⟨parentPid, sockIdx⟩ ⟨childPid, sockIdx⟩

end InetTables

/-! ### What holds of a table -/

variable {A : Type} [DecidableEq A] {wild addr : A} {bindings : List (Binding A)}
  {owner parent child : BindingOwner} {port : UInt16} {reuseAddr : Bool} {e : Errno}

/-- The two bindings may be there at the same time. -/
def Compatible (wild : A) (b b' : Binding A) : Prop :=
  b.port = b'.port → conflicts wild b.addr b'.addr = true → b.reuseAddr = true ∧ b'.reuseAddr = true

/-- No two bindings are in conflict, and each has an owner. -/
structure Exclusive (wild : A) (bindings : List (Binding A)) : Prop where
  compatible : bindings.Pairwise (Compatible wild)
  owned : ∀ b ∈ bindings, b.owners ≠ []

variable (bindings)

/-- How many bindings have the owner. -/
def owning (owner : BindingOwner) : Nat :=
  bindings.countP (owner ∈ ·.owners)

/-- Each socket of a process has at most one binding. -/
def Single : Prop := ∀ owner, owning bindings owner ≤ 1

variable {bindings}

lemma Exclusive.keepOwners (h : Exclusive wild bindings) (p : BindingOwner → Bool) :
    Exclusive wild (keepOwners bindings p) where
  compatible := by
    apply List.Pairwise.filter
    exact pairwise_map.mpr h.compatible
  owned b hb := by simpa using (mem_filter.mp hb).2

omit [DecidableEq A] in
lemma owning_keepOwners (p : BindingOwner → Bool) :
    owning (keepOwners bindings p) owner = if p owner then owning bindings owner else 0 := by
  rw [owning, keepOwners, countP_filter, countP_map]
  split
  · next hp =>
    apply countP_congr
    intro b _
    have hne : owner ∈ b.owners → b.owners.filter p ≠ [] := by
      intro hmem hnil
      exact not_mem_nil (hnil ▸ mem_filter.mpr ⟨hmem, hp⟩)
    simp [hp]
    tauto
  · next hp =>
    rw [countP_eq_zero]
    intro b _
    simp [hp]

lemma Exclusive.register (h : Exclusive wild bindings) :
    Exclusive wild (register wild bindings owner addr port reuseAddr).2 := by
  unfold Socket.register
  split
  · exact h
  split
  · exact h
  split
  · exact h
  next hcan =>
  have hall : canBind wild bindings owner addr port reuseAddr = true := by simpa using hcan
  have hkept : Exclusive wild (removeBindingOwner bindings owner) := h.keepOwners _
  constructor
  · refine pairwise_append.mpr ⟨hkept.compatible, pairwise_singleton _ _, ?_⟩
    intro b hb b' hb' hport hconflicts
    cases mem_singleton.mp hb'
    obtain ⟨hmem, hne⟩ := mem_filter.mp hb
    obtain ⟨b0, hb0, rfl⟩ := mem_map.mp hmem
    have hb0 := all_eq_true.mp hall b0 hb0
    -- a binding of this socket alone is gone
    have hshared : ¬ (owner ∈ b0.owners ∧ b0.owners.length = 1) := by
      rintro ⟨howner, hlen⟩
      obtain ⟨o, ho⟩ := length_eq_one_iff.mp hlen
      rw [ho, mem_singleton] at howner
      simp [ho, howner] at hne
    have hport' : b0.port = port := hport
    have hconflicts' : conflicts wild b0.addr addr = true := hconflicts
    simpa [hshared, hport', hconflicts'] using hb0
  · intro b hb
    rcases mem_append.mp hb with hb | hb
    · exact hkept.owned b hb
    · cases mem_singleton.mp hb
      exact cons_ne_nil _ _

lemma Exclusive.inherit (h : Exclusive wild bindings) :
    Exclusive wild (inheritBindingOwner bindings parent child) := by
  have haddr (b : Binding A) : (if parent ∈ b.owners ∧ child ∉ b.owners then
      { b with owners := b.owners ++ [child] } else b) =
      { b with owners := if parent ∈ b.owners ∧ child ∉ b.owners then b.owners ++ [child]
        else b.owners } := by
    split <;> rfl
  simp only [inheritBindingOwner, haddr]
  constructor
  · exact pairwise_map.mpr h.compatible
  intro b hb
  obtain ⟨b0, hb0, rfl⟩ := mem_map.mp hb
  split
  · exact append_ne_nil_of_right_ne_nil _ (cons_ne_nil _ _)
  · exact h.owned b0 hb0

lemma Single.register (h : Single bindings) :
    Single (register wild bindings owner addr port reuseAddr).2 := by
  unfold Socket.register
  split
  · exact h
  split
  · exact h
  split
  · exact h
  intro o
  have hold := h o
  rw [owning, countP_append, ← owning, removeBindingOwner, owning_keepOwners]
  by_cases ho : o = owner
  · simp [ho]
  · simpa [ho] using hold

omit [DecidableEq A] in
lemma Single.keepOwners (h : Single bindings) (p : BindingOwner → Bool) :
    Single (keepOwners bindings p) := by
  intro owner
  rw [owning_keepOwners]
  split
  · exact h owner
  · exact Nat.zero_le _

/-- The parent and the child have at most one binding between them. -/
def Inheritable (bindings : List (Binding A)) (parent child : BindingOwner) : Prop :=
  bindings.countP (fun b => parent ∈ b.owners ∨ child ∈ b.owners) ≤ 1

instance (bindings : List (Binding A)) (parent child : BindingOwner) :
    Decidable (Inheritable bindings parent child) :=
  inferInstanceAs (Decidable (_ ≤ _))

omit [DecidableEq A] in
lemma owning_inherit :
    owning (inheritBindingOwner bindings parent child) owner =
      if owner = child then bindings.countP (fun b => parent ∈ b.owners ∨ child ∈ b.owners)
      else owning bindings owner := by
  rw [owning, inheritBindingOwner, countP_map]
  split
  · next howner =>
    apply countP_congr
    intro b _
    by_cases hparent : parent ∈ b.owners <;> by_cases hchild : child ∈ b.owners <;>
      simp [hparent, hchild, howner]
  · next howner =>
    apply countP_congr
    intro b _
    by_cases hboth : parent ∈ b.owners ∧ child ∉ b.owners
    · simp [hboth, howner]
    · simp [hboth]

omit [DecidableEq A] in
lemma single_inherit_iff (h : Single bindings) :
    Single (inheritBindingOwner bindings parent child) ↔ Inheritable bindings parent child := by
  constructor
  · intro hsingle
    have hchild := hsingle child
    rwa [owning_inherit, if_pos rfl] at hchild
  · intro hinheritable owner
    rw [owning_inherit]
    split
    · exact hinheritable
    · exact h owner

lemma register_error (h : (register wild bindings owner addr port reuseAddr).1 = .error e) :
    (register wild bindings owner addr port reuseAddr).2 = bindings := by
  unfold Socket.register at h ⊢
  split
  · rfl
  next hport =>
  rw [if_neg hport] at h
  split
  · rfl
  next hsame =>
  rw [if_neg hsame] at h
  split
  · rfl
  next hcan =>
  rw [if_neg hcan] at h
  cases h

/-! ### Runs -/

/-- The calls on the tables. -/
inductive PortCall
  | udpRegister (pid sockIdx : Nat) (addr : Ipv4) (port : UInt16) (reuseAddr : Bool)
  | udp6Register (pid sockIdx : Nat) (addr : Ipv6) (port : UInt16) (reuseAddr : Bool)
  | tcpRegister (pid sockIdx : Nat) (addr : Ipv4) (port : UInt16)
  | tcp6Register (pid sockIdx : Nat) (addr : Ipv6) (port : UInt16)
  | udpUnregister (pid sockIdx : Nat)
  | udp6Unregister (pid sockIdx : Nat)
  | tcpUnregister (pid sockIdx : Nat)
  | tcp6Unregister (pid sockIdx : Nat)
  | udpCleanupProcess (pid : Nat)
  | udp6CleanupProcess (pid : Nat)
  | tcpCleanupProcess (pid : Nat)
  | tcp6CleanupProcess (pid : Nat)
  | inheritInetBindingOwners (parentPid childPid sockIdx : Nat)

namespace InetTables

variable (t : InetTables)

/-- The answer to a call, and the tables after it. -/
def run : PortCall → Except Errno Unit × InetTables
  | .udpRegister pid sockIdx addr port reuse => t.udpRegister pid sockIdx addr port reuse
  | .udp6Register pid sockIdx addr port reuse => t.udp6Register pid sockIdx addr port reuse
  | .tcpRegister pid sockIdx addr port => t.tcpRegister pid sockIdx addr port
  | .tcp6Register pid sockIdx addr port => t.tcp6Register pid sockIdx addr port
  | .udpUnregister pid sockIdx => (.ok (), t.udpUnregister pid sockIdx)
  | .udp6Unregister pid sockIdx => (.ok (), t.udp6Unregister pid sockIdx)
  | .tcpUnregister pid sockIdx => (.ok (), t.tcpUnregister pid sockIdx)
  | .tcp6Unregister pid sockIdx => (.ok (), t.tcp6Unregister pid sockIdx)
  | .udpCleanupProcess pid => (.ok (), t.udpCleanupProcess pid)
  | .udp6CleanupProcess pid => (.ok (), t.udp6CleanupProcess pid)
  | .tcpCleanupProcess pid => (.ok (), t.tcpCleanupProcess pid)
  | .tcp6CleanupProcess pid => (.ok (), t.tcp6CleanupProcess pid)
  | .inheritInetBindingOwners parent child sockIdx =>
    (.ok (), t.inheritInetBindingOwners parent child sockIdx)

/-- The tables after some calls, the latest first. -/
def after : List PortCall → InetTables
  | [] => ⟨[], [], [], []⟩
  | call :: earlier => ((after earlier).run call).2

/-- No table has bindings in conflict or without an owner. -/
structure AllExclusive (t : InetTables) : Prop where
  udp : Exclusive (.replicate 4 0) t.udp
  udp6 : Exclusive (.replicate 16 0) t.udp6
  tcp : Exclusive (.replicate 4 0) t.tcp
  tcp6 : Exclusive (.replicate 16 0) t.tcp6

/-- A socket of a process has at most one binding in each table. -/
structure AllSingle (t : InetTables) : Prop where
  udp : Single t.udp
  udp6 : Single t.udp6
  tcp : Single t.tcp
  tcp6 : Single t.tcp6

/-- A child that inherits a socket has no binding of its own besides that of its parent. -/
def Orderly : PortCall → Prop
  | .inheritInetBindingOwners parent child sockIdx =>
    Inheritable t.udp ⟨parent, sockIdx⟩ ⟨child, sockIdx⟩ ∧
      Inheritable t.udp6 ⟨parent, sockIdx⟩ ⟨child, sockIdx⟩ ∧
      Inheritable t.tcp ⟨parent, sockIdx⟩ ⟨child, sockIdx⟩ ∧
      Inheritable t.tcp6 ⟨parent, sockIdx⟩ ⟨child, sockIdx⟩
  | _ => True

variable {t : InetTables}

lemma AllExclusive.run (h : t.AllExclusive) (call : PortCall) : (t.run call).2.AllExclusive := by
  cases call with
  | udpRegister => exact { h with udp := h.udp.register }
  | udp6Register => exact { h with udp6 := h.udp6.register }
  | tcpRegister => exact { h with tcp := h.tcp.register }
  | tcp6Register => exact { h with tcp6 := h.tcp6.register }
  | udpUnregister | udpCleanupProcess => exact { h with udp := h.udp.keepOwners _ }
  | udp6Unregister | udp6CleanupProcess => exact { h with udp6 := h.udp6.keepOwners _ }
  | tcpUnregister | tcpCleanupProcess => exact { h with tcp := h.tcp.keepOwners _ }
  | tcp6Unregister | tcp6CleanupProcess => exact { h with tcp6 := h.tcp6.keepOwners _ }
  | inheritInetBindingOwners => exact ⟨h.udp.inherit, h.udp6.inherit, h.tcp.inherit, h.tcp6.inherit⟩

lemma AllSingle.run_iff (h : t.AllSingle) (call : PortCall) :
    (t.run call).2.AllSingle ↔ t.Orderly call := by
  cases call with
  | udpRegister => exact iff_of_true { h with udp := h.udp.register } trivial
  | udp6Register => exact iff_of_true { h with udp6 := h.udp6.register } trivial
  | tcpRegister => exact iff_of_true { h with tcp := h.tcp.register } trivial
  | tcp6Register => exact iff_of_true { h with tcp6 := h.tcp6.register } trivial
  | udpUnregister | udpCleanupProcess =>
    exact iff_of_true { h with udp := h.udp.keepOwners _ } trivial
  | udp6Unregister | udp6CleanupProcess =>
    exact iff_of_true { h with udp6 := h.udp6.keepOwners _ } trivial
  | tcpUnregister | tcpCleanupProcess =>
    exact iff_of_true { h with tcp := h.tcp.keepOwners _ } trivial
  | tcp6Unregister | tcp6CleanupProcess =>
    exact iff_of_true { h with tcp6 := h.tcp6.keepOwners _ } trivial
  | inheritInetBindingOwners =>
    rw [Orderly, ← single_inherit_iff h.udp, ← single_inherit_iff h.udp6,
      ← single_inherit_iff h.tcp,
      ← single_inherit_iff h.tcp6]
    exact ⟨fun ⟨h1, h2, h3, h4⟩ => ⟨h1, h2, h3, h4⟩, fun ⟨h1, h2, h3, h4⟩ => ⟨h1, h2, h3, h4⟩⟩

lemma run_error {call : PortCall} (h : (t.run call).1 = .error e) : (t.run call).2 = t := by
  cases call with
  | udpRegister => simp only [run, udpRegister, register_error h]
  | udp6Register => simp only [run, udp6Register, register_error h]
  | tcpRegister => simp only [run, tcpRegister, register_error h]
  | tcp6Register => simp only [run, tcp6Register, register_error h]
  | _ => cases h

lemma exclusive_after (calls : List PortCall) : (after calls).AllExclusive := by
  induction calls with
  | nil => exact ⟨⟨.nil, nofun⟩, ⟨.nil, nofun⟩, ⟨.nil, nofun⟩, ⟨.nil, nofun⟩⟩
  | cons call earlier ih => exact ih.run call

lemma single_after {calls : List PortCall}
    (h : Always (fun call earlier => (after earlier).Orderly call) calls) :
    (after calls).AllSingle := by
  induction calls with
  | nil => exact ⟨fun _ => Nat.zero_le _, fun _ => Nat.zero_le _, fun _ => Nat.zero_le _,
      fun _ => Nat.zero_le _⟩
  | cons call earlier ih =>
    rw [Always.cons_iff] at h
    exact ((ih h.2).run_iff call).mpr h.1

/-- After any calls, no two bindings of a table are in conflict, each has an owner, and a call that
fails changes nothing; and if a child that inherits a socket has no binding of its own besides that
of its parent, each socket has at most one binding in each table. -/
theorem ports_exclusive (calls : List PortCall) :
    (after calls).AllExclusive ∧
      (∀ call e, ((after calls).run call).1 = .error e → ((after calls).run call).2 = after calls) ∧
      (Always (fun call earlier => (after earlier).Orderly call) calls → (after calls).AllSingle) :=
  ⟨exclusive_after calls, fun _ _ => run_error, single_after⟩

/-- A process binds a socket, its child inherits it, and both stay the owners of the one binding. -/
theorem ports_exclusive_inherited :
    (after
      [.inheritInetBindingOwners 1 2 0, .udpRegister 1 0 (.replicate 4 0) 53 false]).AllSingle ∧
      (after [.inheritInetBindingOwners 1 2 0,
        .udpRegister 1 0 (.replicate 4 0) 53 false]).udp.length = 1 := by
  refine ⟨(ports_exclusive _).2.2 ?_, by decide⟩
  simp only [Always.cons_iff, Always.nil, and_true]
  exact ⟨⟨by decide, by decide, by decide, by decide⟩, trivial⟩

/-- A process that has a binding of its own inherits the socket of another as the same index. -/
theorem ports_two_bindings :
    ¬ (after [.inheritInetBindingOwners 1 2 0, .udpRegister 2 0 (.replicate 4 0) 54 false,
      .udpRegister 1 0 (.replicate 4 0) 53 false]).AllSingle := by
  intro h
  have htwo := h.udp ⟨2, 0⟩
  revert htwo
  decide

end InetTables

end Kandelo.Kernel.Socket
