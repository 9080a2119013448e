import Kandelo.Kernel.Pipe.InFlight

/-!
# A socket that is sent to another process

`extract_scm_rights` puts some fields of a socket into the message, and
`install_scm_rights_fds` makes a socket of them for the receiver. `same_received_iff` says for which
sockets that is the same open socket.
-/

namespace Kandelo.Kernel.Rights.Received

open Pipe

variable (s : SocketInfo)

/-- `wasm_api.rs:6635-6667`. A socket that is still connecting is sent as a closed one. -/
def extract : InFlightSocket where
  domain := match s.domain with | .Unix => 0 | .Inet => 1 | .Inet6 => 2
  sockType := match s.sockType with | .Stream => 0 | .Dgram => 1
  protocol := s.protocol
  state := match s.state with
    | .Unbound => 0 | .Bound => 1 | .Listening => 2 | .Connected => 3 | .Closed => 4
    | .Connecting => 4
  sendBufIdx := s.sendBufIdx
  recvBufIdx := s.recvBufIdx
  globalPipes := s.globalPipes
  shutRd := s.shutRd
  shutWr := s.shutWr
  bindAddr := s.bindAddr
  bindPort := s.bindPort
  peerAddr := s.peerAddr
  peerPort := s.peerPort

/-- `syscalls.rs:2866-2893`. -/
def install (d : InFlightSocket) : SocketInfo :=
  let domain := match d.domain with | 0 => .Unix | 1 => .Inet | _ => .Inet6
  let sockType := match d.sockType with | 0 => .Stream | _ => .Dgram
  { SocketInfo.new domain sockType d.protocol with
    state := match d.state with
      | 0 => .Unbound | 1 => .Bound | 2 => .Listening | 3 => .Connected | _ => .Closed
    sendBufIdx := d.sendBufIdx
    recvBufIdx := d.recvBufIdx
    globalPipes := d.globalPipes
    shutRd := d.shutRd
    shutWr := d.shutWr
    bindAddr := d.bindAddr
    bindPort := d.bindPort
    peerAddr := d.peerAddr
    peerPort := d.peerPort }

/-- Two records are of one open socket. Its indices in a process and a pending error may differ. -/
def Same (t : SocketInfo) : Prop :=
  { s with peerIdx := t.peerIdx, acceptWakeIdx := t.acceptWakeIdx,
           connectError := t.connectError } = t

/-- What processes share: the counts of the backlogs in use, the counts of handles that are
inherited, and the handles that are open at the host. A send changes none of it
(`pipe.rs:284-323`). -/
structure Shared where
  backlogs : Nat → Option Nat
  hostNetRefs : BitVec 32 → Option Nat
  hostNetOpen : BitVec 32 → Bool

variable (w : Shared)

/-- `dec_ref`; `socket.rs:954-965`. -/
def Shared.decRef (i : Nat) : Shared :=
  let left := (w.backlogs i).bind fun n => if n - 1 = 0 then none else some (n - 1)
  { w with backlogs := Function.update w.backlogs i left }

/-- `host_net_handle_close_ref`, and `host_net_close` if that says so; `socket.rs:43-55`. -/
def Shared.closeRef (h : BitVec 32) : Shared :=
  let left := (w.hostNetRefs h).bind fun n => if n - 1 = 0 then none else some (n - 1)
  { w with hostNetRefs := Function.update w.hostNetRefs h left
           hostNetOpen := Function.update w.hostNetOpen h (w.hostNetOpen h && left.isSome) }

/-- The last descriptor of a socket in its process is closed; `syscalls.rs:3080-3092`. -/
def Shared.close (s : SocketInfo) : Shared :=
  let w := s.hostNetHandle.elim w w.closeRef
  s.sharedBacklogIdx.elim w w.decRef

/-- The backlog and the handle are open after the sender's close. -/
def Shared.StaysOpen (s : SocketInfo) : Prop :=
  (∀ i, s.sharedBacklogIdx = some i → ((w.close s).backlogs i).isSome) ∧
    ∀ h, s.hostNetHandle = some h → (w.close s).hostNetOpen h

lemma install_extract :
    install (extract s) = { SocketInfo.new s.domain s.sockType s.protocol with
      state := if s.state = .Connecting then .Closed else s.state
      sendBufIdx := s.sendBufIdx, recvBufIdx := s.recvBufIdx, globalPipes := s.globalPipes
      shutRd := s.shutRd, shutWr := s.shutWr, bindAddr := s.bindAddr, bindPort := s.bindPort
      peerAddr := s.peerAddr, peerPort := s.peerPort } := by
  obtain ⟨domain, sockType, -, state⟩ := s
  cases domain <;> cases sockType <;> cases state <;> rfl

/-- The receiver's socket is the sent one, and what that uses stays open, exactly if the socket is
not connecting and has nothing of what the message leaves out. -/
theorem same_received_iff (w : Shared) (s : SocketInfo) :
    Same (install (extract s)) s ∧ w.StaysOpen s ↔
      s.state ≠ .Connecting ∧ s.hostNetHandle = none ∧ s.options = [] ∧ s.lingerOnoff = 0 ∧
        s.lingerSeconds = 0 ∧ s.bindDevice = none ∧ s.tcpCongestion =
          [0x63, 0x75, 0x62, 0x69, 0x63] ∧
        s.bindAddr6 = .replicate 16 0 ∧ s.peerAddr6 = .replicate 16 0 ∧ s.listenBacklog = [] ∧
        s.sharedBacklogIdx = none ∧ s.ipv4MulticastMemberships = [] ∧ s.recvTimeoutUs = 0 ∧
        s.sendTimeoutUs = 0 ∧ s.bindPath = none := by
  constructor
  · rintro ⟨hsame, -⟩
    rw [install_extract] at hsame
    refine ⟨fun hstate => ?_, ?_⟩
    · have := congrArg SocketInfo.state hsame
      simp [hstate] at this
    · rw [← hsame]
      exact ⟨rfl, rfl, rfl, rfl, rfl, rfl, rfl, rfl, rfl, rfl, rfl, rfl, rfl, rfl⟩
  · rintro ⟨hstate, hhandle, hrest⟩
    refine ⟨?_, by simp [hrest], by simp [hhandle]⟩
    rw [Same, install_extract]
    cases s
    simp_all [SocketInfo.new]

/-- The receiver has a listening socket without a backlog, and closing the sender's ends the
backlog. -/
theorem listener_without_backlog :
    let s := { SocketInfo.new .Unix .Stream 0 with state := .Listening, sharedBacklogIdx := some 3 }
    let w : Shared := ⟨fun i => if i = 3 then some 1 else none, fun _ => none, fun _ => false⟩
    (install (extract s)).state = .Listening ∧ (install (extract s)).sharedBacklogIdx = none ∧
      (w.close s).backlogs 3 = none ∧ ¬(Same (install (extract s)) s ∧ w.StaysOpen s) := by
  intro s w
  refine ⟨rfl, rfl, rfl, fun h => ?_⟩
  cases h.2.1 3 rfl

end Kandelo.Kernel.Rights.Received
