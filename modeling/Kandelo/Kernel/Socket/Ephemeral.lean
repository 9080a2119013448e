import Kandelo.Kernel.Socket.Ports

/-!
# Ephemeral ports

How a UDP socket gets a port of its own, by `crates/kernel/src/syscalls.rs`: a cursor goes round the
ports from 49152 on until it finds one that can be bound, or is back where it started.
-/

namespace Kandelo.Kernel.Socket

/-- `bump_ephemeral_port`; `syscalls.rs:8458-8464`. -/
def bumpEphemeralPort (next : UInt16) : UInt16 :=
  if next < 49152 ∨ next = 65535 then 49152 else next + 1

/-- The loop, for a number of rounds: the answer and the cursor; `syscalls.rs:8476-8486`. -/
def probePorts (ok : UInt16 → Bool) (start : UInt16) :
    Nat → UInt16 → Option (Except Errno UInt16 × UInt16)
  | 0, _ => none
  | rounds + 1, port =>
    let next := bumpEphemeralPort port
    if ok port then some (.ok port, next)
    else if next = start then some (.error .EADDRINUSE, next)
    else probePorts ok start rounds next

/-- `allocate_udp_ephemeral_port`; `syscalls.rs:8466-8487`. -/
def allocateUdpEphemeralPort (udp : List (Binding Ipv4)) (owner : BindingOwner) (addr : Ipv4)
    (reuseAddr : Bool) (next : UInt16) (rounds : Nat) : Option (Except Errno UInt16 × UInt16) :=
  let start := if next < 49152 then 49152 else next
  probePorts (canBind (.replicate 4 0) udp owner addr · reuseAddr) start rounds start

/-- How many rounds the cursor takes from one port to another. -/
def distance (a b : UInt16) : Nat := (b.toNat + 16384 - a.toNat) % 16384

variable {start port p : UInt16}

lemma toNat_bump (h : 49152 ≤ port.toNat) :
    (bumpEphemeralPort port).toNat = 49152 + (port.toNat - 49152 + 1) % 16384 := by
  have hlt := port.toNat_lt
  have hge : ¬ port < 49152 := Nat.not_lt.mpr h
  unfold bumpEphemeralPort
  by_cases hlast : port = 65535
  · rw [hlast]
    rfl
  · have hne : port.toNat ≠ 65535 := fun heq => hlast (UInt16.toNat_inj.mp heq)
    rw [if_neg (by simp [hge, hlast])]
    change (port.toNat + 1) % 65536 = _
    omega

lemma distance_bump (h : 49152 ≤ port.toNat) (hp : 49152 ≤ p.toNat) (hne : p ≠ port) :
    distance (bumpEphemeralPort port) p + 1 = distance port p := by
  have hlt := port.toNat_lt
  have hlt' := p.toNat_lt
  have hne' := mt UInt16.toNat_inj.mp hne
  rw [distance, distance, toNat_bump h]
  omega

/-- From a port on, the loop finds one that can be bound, or none of those up to the start can. -/
lemma probePorts_spec (ok : UInt16 → Bool) (hstart : 49152 ≤ start.toNat) {rounds : Nat}
    (h : 49152 ≤ port.toNat)
    (hrounds : distance (bumpEphemeralPort port) start < rounds) :
    ∃ answer next, probePorts ok start rounds port = some (answer, next) ∧
      ((∃ p, answer = .ok p ∧ 49152 ≤ p.toNat ∧ ok p = true) ∨
        (answer = .error .EADDRINUSE ∧ ∀ p : UInt16, 49152 ≤ p.toNat →
          distance port p ≤ distance (bumpEphemeralPort port) start → ok p = false)) := by
  induction rounds generalizing port with
  | zero => omega
  | succ rounds ih =>
    rw [probePorts]
    by_cases hok : ok port = true
    · rw [if_pos hok]
      exact ⟨_, _, rfl, .inl ⟨port, rfl, h, hok⟩⟩
    rw [if_neg hok]
    have hnext : 49152 ≤ (bumpEphemeralPort port).toNat := by
      rw [toNat_bump h]
      exact Nat.le_add_right ..
    -- what is left besides the port itself is one round nearer to the next one
    have hpass : ∀ p : UInt16, 49152 ≤ p.toNat →
        (distance (bumpEphemeralPort port) p < distance (bumpEphemeralPort port) start →
          ok p = false) →
        distance port p ≤ distance (bumpEphemeralPort port) start → ok p = false := by
      intro p hp hrest hle
      by_cases hne : p = port
      · rwa [hne, ← Bool.not_eq_true]
      · have hnear := distance_bump h hp hne
        exact hrest (by omega)
    split
    · next hlast =>
      refine ⟨_, _, rfl, .inr ⟨rfl, fun p hp => hpass p hp fun hlt => ?_⟩⟩
      rw [hlast, distance, distance] at hlt
      omega
    · next hlast =>
      have hless := distance_bump hnext hstart (Ne.symm hlast)
      obtain ⟨answer, next, hrun, hanswer⟩ := ih hnext (by omega)
      refine ⟨answer, next, hrun, hanswer.imp_right (And.imp_right fun hall p hp => ?_)⟩
      exact hpass p hp fun hlt => hall p hp (by omega)

/-- A UDP socket gets a port from 49152 on that can be bound, after at most 16384 rounds, and none
if and only if there is none. -/
theorem udp_ephemeral_port (udp : List (Binding Ipv4)) (owner : BindingOwner) (addr : Ipv4)
    (reuseAddr : Bool) (next : UInt16) :
    ∃ answer next', allocateUdpEphemeralPort udp owner addr reuseAddr next 16384 =
        some (answer, next') ∧
      (∀ e, answer = .error e → e = .EADDRINUSE) ∧
      (∀ p, answer = .ok p →
        49152 ≤ p ∧ canBind (.replicate 4 0) udp owner addr p reuseAddr = true) ∧
      (answer = .error .EADDRINUSE ↔
        ∀ p, 49152 ≤ p → canBind (.replicate 4 0) udp owner addr p reuseAddr = false) := by
  obtain ⟨start, hstart, hle⟩ : ∃ start, start = (if next < 49152 then 49152 else next) ∧
      49152 ≤ start.toNat := by
    refine ⟨_, rfl, ?_⟩
    split
    · exact Nat.le_refl _
    · next h => exact Nat.not_lt.mp h
  have hmod : ∀ p, distance p start < 16384 := fun p => Nat.mod_lt _ (by decide)
  obtain ⟨answer, next', hrun, hanswer⟩ := probePorts_spec
    (canBind (.replicate 4 0) udp owner addr · reuseAddr) hle hle (hmod _)
  refine ⟨answer, next', by rw [← hrun, hstart]; rfl, ?_⟩
  rcases hanswer with ⟨p, rfl, hp, hok⟩ | ⟨rfl, hall⟩
  · refine ⟨by rintro _ ⟨⟩, by rintro _ ⟨⟩; exact ⟨hp, hok⟩, by rintro ⟨⟩, fun hnone => ?_⟩
    rw [hnone p hp] at hok
    cases hok
  · refine ⟨by rintro _ ⟨⟩; rfl, by rintro _ ⟨⟩, fun _ p hp => hall p hp ?_, fun _ => rfl⟩
    have hbump := toNat_bump hle
    have hlt := p.toNat_lt
    have hlt' := start.toNat_lt
    rw [distance, distance]
    omega

end Kandelo.Kernel.Socket
