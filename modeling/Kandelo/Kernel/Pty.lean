import Kandelo.Kernel.Errno
import Kandelo.Lib.History

/-!
# Pseudo-terminals

The line discipline of `crates/kernel/src/terminal.rs` between the two sides of a pair
(`crates/kernel/src/pty.rs`). Canonical input is kept in other buffers than raw input, and a read
looks only at those of the mode of the moment. `input_survives_iff` says when nothing is lost by
that, and `drained_iff` when a hang-up loses no output. The flags of `c_cflag`, the speeds and the
window size decide nothing here.

An editor as it should be keeps complete lines apart, and reads them one by one. The line discipline
edits as it does, unless `VWERASE` is typed or a carriage return that is both ignored and
translated, but it joins the lines. Raw input is not translated.
-/

namespace Kandelo.Kernel.Pty

/-- What `tcsetattr` sets. -/
structure Attrs where
  iflag : BitVec 32
  oflag : BitVec 32
  lflag : BitVec 32
  cc : Vector UInt8 32

open Lib List

namespace Attrs

variable (a : Attrs) (byte : UInt8)

/-- `INLCR`. -/
def inlcr : Bool := a.iflag &&& 0o0100 != 0
/-- `IGNCR`. -/
def igncr : Bool := a.iflag &&& 0o0200 != 0
/-- `ICRNL`. -/
def icrnl : Bool := a.iflag &&& 0o0400 != 0
/-- `ISIG`. -/
def isig : Bool := a.lflag &&& 0o0001 != 0
/-- `ICANON`. -/
def icanon : Bool := a.lflag &&& 0o0002 != 0
/-- `ECHO`. -/
def echo : Bool := a.lflag &&& 0o0010 != 0
/-- `ECHOE`. -/
def echoe : Bool := a.lflag &&& 0o0020 != 0
/-- `ECHOK`. -/
def echok : Bool := a.lflag &&& 0o0040 != 0
/-- `ECHONL`. -/
def echonl : Bool := a.lflag &&& 0o0100 != 0
/-- `NOFLSH`. -/
def noflsh : Bool := a.lflag &&& 0o0200 != 0

/-- `control_char_matches`; `terminal.rs:182-187`. -/
def matchesChar (index : Fin 32) : Bool := a.cc[index] != 0 && a.cc[index] == byte

/-- The translation of input, which may drop a carriage return; `terminal.rs:197-206`. -/
def translate : Option UInt8 :=
  if a.icrnl && byte == 13 then some 10
  else if a.inlcr && byte == 10 then some 13
  else if a.igncr && byte == 13 then none
  else some byte

/-- `SIGINT`, `SIGQUIT` or `SIGTSTP` for a signal character; `terminal.rs:210-220`. -/
def signalOf : Option Nat :=
  if !a.isig then none
  else if a.matchesChar byte 0 then some 2
  else if a.matchesChar byte 1 then some 3
  else if a.matchesChar byte 10 then some 20
  else none

/-- Output processing; `pty.rs:126-137`. -/
def post (bytes : List UInt8) : List UInt8 :=
  bytes.flatMap fun b =>
    if a.oflag &&& 0o0001 != 0 && a.oflag &&& 0o0004 != 0 && b == 10 then [13, 10] else [b]

end Attrs

/-- `TerminalState`. -/
structure TerminalState where
  attrs : Attrs
  lineBuffer : List UInt8
  cookedBuffer : List UInt8

/-- `PtyPair`; `pty.rs:18-31`. -/
structure PtyPair where
  terminal : TerminalState
  inputBuf : List UInt8
  outputBuf : List UInt8
  slaveRefs : Nat

namespace TerminalState

variable (t : TerminalState) (byte : UInt8)

/-- Line editing, with what it echoes; `terminal.rs:243-291`. -/
def edit : List UInt8 × TerminalState :=
  let a := t.attrs
  let rubout : List UInt8 := [8, 32, 8]
  if a.matchesChar byte 2 then
    (if t.lineBuffer ≠ [] ∧ a.echo ∧ a.echoe then rubout else [],
      { t with lineBuffer := t.lineBuffer.dropLast })
  else if a.matchesChar byte 3 then
    (if a.echo ∧ a.echok then t.lineBuffer.flatMap fun _ => rubout else [],
      { t with lineBuffer := [] })
  else if a.matchesChar byte 4 then
    ([], { t with lineBuffer := [], cookedBuffer := t.cookedBuffer ++ t.lineBuffer })
  else if byte = 10 ∨ a.matchesChar byte 11 then
    (if a.echo ∨ a.echonl ∧ byte = 10 then [byte] else [],
      { t with lineBuffer := [], cookedBuffer := t.cookedBuffer ++ (t.lineBuffer ++ [byte]) })
  else (if a.echo then [byte] else [], { t with lineBuffer := t.lineBuffer ++ [byte] })

/-- `process_input_byte`: what is echoed, the signal, and the new state; `terminal.rs:193-292`. -/
def processInputByte : List UInt8 × Option Nat × TerminalState :=
  match t.attrs.translate byte with
  | none => ([], none, t)
  | some byte =>
    match t.attrs.signalOf byte with
    | some signum =>
      (if t.attrs.echo then [94, byte ^^^ 0x40, 10] else [], some signum,
        if t.attrs.noflsh then t else { t with lineBuffer := [], cookedBuffer := [] })
    | none =>
      if t.attrs.icanon then ((t.edit byte).1, none, (t.edit byte).2) else ([], none, t)

end TerminalState

namespace PtyPair

/-- `PtyPair::new`, with one descriptor of the slave; `terminal.rs:111-145`. -/
def new : PtyPair where
  terminal := ⟨⟨0o26400, 0o5, 0o100073, #v[0x03, 0x1C, 0x7F, 0x15, 0x04, 0, 1, 0, 0x11, 0x13, 0x1A,
    0, 0, 0, 0, 0, 0, 0, 0, 0, 0, 0, 0, 0, 0, 0, 0, 0, 0, 0, 0, 0]⟩, [], []⟩
  inputBuf := []
  outputBuf := []
  slaveRefs := 1

variable (p : PtyPair)

/-- `process_master_input`; in raw mode the byte itself is passed on; `pty.rs:48-92`. -/
def processMasterInput (byte : UInt8) : PtyPair :=
  let a := p.terminal.attrs
  let (echo, signal, terminal) := p.terminal.processInputByte byte
  let p := { p with
    terminal
    inputBuf := if signal.isSome && !a.noflsh then [] else p.inputBuf
    outputBuf := p.outputBuf ++ a.post echo }
  if signal.isSome ∨ a.icanon then p
  else { p with
    inputBuf := p.inputBuf ++ [byte]
    outputBuf := p.outputBuf ++ if a.echo then a.post [byte] else [] }

/-- What the slave can read in the mode of the moment; `slave_has_data`, `pty.rs:115-121`. -/
def readable : List UInt8 :=
  if p.terminal.attrs.icanon then p.terminal.cookedBuffer else p.inputBuf

/-- `slave_read`: the bytes read are the first of `readable`; `pty.rs:94-112`. -/
def slaveRead (n : Nat) : PtyPair :=
  if p.terminal.attrs.icanon then
    { p with terminal := { p.terminal with cookedBuffer := p.terminal.cookedBuffer.drop n } }
  else { p with inputBuf := p.inputBuf.drop n }

/-- `sys_tcsetattr`, whose action is not looked at; `syscalls.rs:12243-12275`. -/
def tcsetattr (attrs : Attrs) : PtyPair := { p with terminal := { p.terminal with attrs } }

end PtyPair

/-! ### Input -/

/-- A write to the master, a change of the attributes, or a read of the slave. -/
inductive Call
  | write (bytes : List UInt8)
  | tcsetattr (attrs : Attrs)
  | read (n : Nat)

namespace PtyPair

variable {p : PtyPair} {byte : UInt8} {attrs : Attrs}

/-- The pair after a call. -/
def apply (p : PtyPair) : Call → PtyPair
  | .write bytes => bytes.foldl processMasterInput p
  | .tcsetattr attrs => p.tcsetattr attrs
  | .read n => p.slaveRead n

variable (calls : List Call)

/-- The pair after some calls, the latest first. -/
def after : PtyPair := calls.foldr (fun call p => p.apply call) new

variable (p)

/-- What is queued in buffers that the mode of the moment does not read from. -/
def hidden : List UInt8 :=
  if p.terminal.attrs.icanon then p.inputBuf else p.terminal.cookedBuffer ++ p.terminal.lineBuffer

/-- The input that was not read yet. -/
def queued : List UInt8 :=
  p.terminal.cookedBuffer ++ p.terminal.lineBuffer ++ p.inputBuf

/-- All that is queued is moved to where the mode of the moment reads from. -/
def settle : PtyPair :=
  if p.terminal.attrs.icanon then
    { p with
      terminal := { p.terminal with cookedBuffer := p.inputBuf ++ p.terminal.cookedBuffer }
      inputBuf := [] }
  else
    { p with terminal := ⟨p.terminal.attrs, [], []⟩, inputBuf := p.hidden ++ p.inputBuf }

variable {p}

/-- The pair as it should be: the same line discipline, and nothing queued is ever out of reach.
What is erased, or flushed by a signal, counts as consumed. -/
def ideal : PtyPair := calls.foldr (fun call p => (p.apply call).settle) new

lemma settle_eq (h : p.hidden = []) : p.settle = p := by
  obtain ⟨⟨attrs, line, cooked⟩, input, output, refs⟩ := p
  unfold hidden at h
  unfold settle
  split at h
  · next hcanon =>
    rw [if_pos hcanon]
    subst h
    rfl
  · next hraw =>
    obtain ⟨rfl, rfl⟩ := append_eq_nil_iff.mp h
    rw [if_neg hraw, hidden, if_neg hraw]
    rfl

lemma readable_settle : p.settle.readable = p.readable ↔ p.hidden = [] := by
  by_cases hcanon : p.terminal.attrs.icanon = true
  · simp [settle, readable, hidden, hcanon]
  · simp only [settle, readable, if_neg hcanon]
    exact append_left_eq_self

variable (t : TerminalState)

lemma attrs_edit : (t.edit byte).2.attrs = t.attrs := by
  simp only [TerminalState.edit]
  split
  · rfl
  split
  · rfl
  split
  · rfl
  · split <;> rfl

lemma attrs_processInputByte : (t.processInputByte byte).2.2.attrs = t.attrs := by
  unfold TerminalState.processInputByte
  split
  · rfl
  split
  · dsimp only
    split <;> rfl
  · split
    · exact attrs_edit t
    · rfl

/-- Raw input does not reach the buffers of canonical input. -/
lemma buffers_processInputByte {t : TerminalState} (hraw : t.attrs.icanon = false)
    (h : t.cookedBuffer ++ t.lineBuffer = []) :
    (t.processInputByte byte).2.2.cookedBuffer ++
    (t.processInputByte byte).2.2.lineBuffer = [] := by
  unfold TerminalState.processInputByte
  split
  · exact h
  split
  · dsimp only
    split
    · exact h
    · rfl
  · rw [if_neg (by simp [hraw])]
    exact h

lemma terminal_processMasterInput :
    (p.processMasterInput byte).terminal = (p.terminal.processInputByte byte).2.2 := by
  simp only [processMasterInput]
  split <;> rfl

lemma processMasterInput_keeps (h : p.hidden = []) :
    (p.processMasterInput byte).terminal.attrs = p.terminal.attrs ∧
      (p.processMasterInput byte).hidden = [] := by
  have hattrs := @attrs_processInputByte byte p.terminal
  rw [terminal_processMasterInput]
  refine ⟨hattrs, ?_⟩
  rw [hidden, terminal_processMasterInput, hattrs]
  by_cases hcanon : p.terminal.attrs.icanon = true
  · rw [hidden, if_pos hcanon] at h
    rw [processMasterInput]
    simp [hcanon, h]
  · rw [hidden, if_neg hcanon] at h
    rw [if_neg hcanon]
    exact buffers_processInputByte (Bool.eq_false_iff.mpr hcanon) h

lemma write_keeps (bytes : List UInt8) (h : p.hidden = []) :
    (p.apply (.write bytes)).hidden = [] := by
  induction bytes generalizing p with
  | nil => exact h
  | cons byte bytes ih => exact ih (processMasterInput_keeps h).2

lemma read_keeps (n : Nat) (h : p.hidden = []) : (p.apply (.read n)).hidden = [] := by
  unfold hidden at h
  rw [apply, slaveRead]
  by_cases hcanon : p.terminal.attrs.icanon = true
  · rw [if_pos hcanon] at h ⊢
    rw [hidden, if_pos hcanon]
    exact h
  · rw [if_neg hcanon] at h ⊢
    rw [hidden, if_neg hcanon]
    exact h

lemma hidden_tcsetattr (h : p.hidden = []) :
    (p.tcsetattr attrs).hidden = [] ↔ (attrs.icanon ≠ p.terminal.attrs.icanon → p.queued = []) := by
  unfold hidden at h ⊢
  cases hold : p.terminal.attrs.icanon <;> cases hnew : attrs.icanon <;>
    simp_all [tcsetattr, queued]

/-- A call that changes between canonical and raw mode comes when nothing is queued. -/
def Quiet (p : PtyPair) (call : Call) : Prop :=
  ∀ attrs, call = .tcsetattr attrs → attrs.icanon ≠ p.terminal.attrs.icanon → p.queued = []

lemma hidden_apply (call : Call) (h : p.hidden = []) :
    (p.apply call).hidden = [] ↔ p.Quiet call := by
  cases call with
  | write bytes => exact iff_of_true (write_keeps bytes h) nofun
  | read n => exact iff_of_true (read_keeps n h) nofun
  | tcsetattr attrs =>
    refine (hidden_tcsetattr h).trans ⟨?_, fun hquiet => hquiet attrs rfl⟩
    rintro hquiet _ ⟨⟩
    exact hquiet

/-- At this moment of a run the slave can read all input that it should. -/
def Kept : Prop := (after calls).readable = (ideal calls).readable

lemma ideal_eq_after {calls : List Call} (h : ∀ earlier, earlier <:+ calls → Kept earlier) :
    ideal calls = after calls ∧ (after calls).hidden = [] := by
  induction calls with
  | nil => exact ⟨rfl, rfl⟩
  | cons call calls ih =>
    obtain ⟨heq, -⟩ := ih fun earlier hsuffix => h earlier (hsuffix.trans (suffix_cons ..))
    have hstep : ideal (call :: calls) = (after (call :: calls)).settle :=
      congrArg (fun p => (apply p call).settle) heq
    have hkept := h _ (suffix_refl _)
    rw [Kept, hstep, eq_comm, readable_settle] at hkept
    exact ⟨hstep.trans (settle_eq hkept), hkept⟩

/-- At every moment of a run the slave can read all input in order, exactly if the mode is only
changed while nothing is queued. -/
theorem input_survives_iff (calls : List Call) :
    (∀ earlier, earlier <:+ calls → Kept earlier) ↔
      Always (fun call earlier => (after earlier).Quiet call) calls := by
  induction calls with
  | nil => simp [Kept, after, ideal]
  | cons call calls ih =>
    rw [Always.cons_iff, ← ih]
    simp only [suffix_cons_iff, forall_eq_or_imp]
    refine and_congr_left fun hbefore => ?_
    obtain ⟨heq, hhidden⟩ := ideal_eq_after hbefore
    have hstep : ideal (call :: calls) = (after (call :: calls)).settle :=
      congrArg (fun p => (apply p call).settle) heq
    rw [Kept, hstep, eq_comm, readable_settle]
    exact hidden_apply call hhidden

/-- A line that was entered is out of reach after a change to raw mode. -/
theorem line_lost_in_raw_mode :
    let calls := [Call.tcsetattr { new.terminal.attrs with lflag := 0 }, .write [97, 10]]
    (after calls).readable = [] ∧ (ideal calls).readable = [97, 10] ∧ ¬Kept calls :=
  ⟨rfl, rfl, fun h => cons_ne_nil 97 [10] (Eq.symm h)⟩

/-! ### Output -/

/-- What happens at the output side while both sides are open. -/
inductive OutCall
  | slaveWrite (data : List UInt8)
  | masterRead (n : Nat)

variable (p)

/-- `slave_write` and `master_read`; `pty.rs:125-147`. -/
def applyOut : OutCall → PtyPair
  | .slaveWrite data => { p with outputBuf := p.outputBuf ++ p.terminal.attrs.post data }
  | .masterRead n => { p with outputBuf := p.outputBuf.drop n }

/-- `sys_read` of the master; `syscalls.rs:3433-3444`. -/
def sysRead (n : Nat) : Except Errno (List UInt8) × PtyPair :=
  if p.slaveRefs = 0 then (.ok [], p)
  else if p.outputBuf.take n ≠ [] then (.ok (p.outputBuf.take n), p.applyOut (.masterRead n))
  else (.error .EAGAIN, p)

/-- The last descriptor of the slave is closed, and the master is open; `syscalls.rs:3171-3180`. -/
def hangUp : PtyPair := { p with slaveRefs := 0 }

/-- The bytes that some reads return before the first end of file, if there is one. -/
def untilEof (p : PtyPair) : List Nat → Option (List UInt8)
  | [] => none
  | n :: ns =>
    match p.sysRead n with
    | (.ok [], _) => some []
    | (.ok bytes, p) => (p.untilEof ns).map (bytes ++ ·)
    | (.error _, p) => p.untilEof ns

/-- What the calls write, with its line ends translated. -/
def written (calls : List OutCall) : List UInt8 :=
  calls.flatMap fun
    | .slaveWrite data => p.terminal.attrs.post data
    | .masterRead _ => []

/-- What the calls read. -/
def returned (p : PtyPair) : List OutCall → List UInt8
  | [] => []
  | .slaveWrite data :: calls => (p.applyOut (.slaveWrite data)).returned calls
  | .masterRead n :: calls => p.outputBuf.take n ++ (p.applyOut (.masterRead n)).returned calls

variable {p}

/-- After a hang-up the master reads all that is left before the end of file, exactly if nothing is
left. -/
theorem drained_iff (p : PtyPair) (calls : List OutCall) :
    (∀ ns bytes, (calls.foldl applyOut p).hangUp.untilEof ns = some bytes →
      p.returned calls ++ bytes = p.outputBuf ++ p.written calls) ↔
    p.returned calls = p.outputBuf ++ p.written calls := by
  constructor
  · intro h
    have hfirst := h [1] [] rfl
    rwa [append_nil] at hfirst
  intro h ns bytes hread
  cases ns with
  | nil => cases hread
  | cons =>
    cases hread
    rw [append_nil, h]

/-- The slave writes one byte and closes, and the first read of the master is the end of file. -/
theorem output_lost_at_hang_up :
    new.written [.slaveWrite [65]] = [65] ∧
      (new.applyOut (.slaveWrite [65])).hangUp.untilEof [1] = some [] :=
  ⟨rfl, rfl⟩

end PtyPair

/-! ### The flags of input -/

namespace Attrs

variable (a : Attrs) (byte : UInt8)

/-- `VWERASE` is set, and `IEXTEN`. -/
def werase : Bool := a.lflag &&& 0o100000 != 0 && a.cc[14] != 0

/-- The translation of input as it should be. -/
def translated : Option UInt8 :=
  if byte = 13 then if a.igncr then none else some (if a.icrnl then 10 else 13)
  else if byte = 10 ∧ a.inlcr then some 13
  else some byte

/-- The signal of a byte that is written to the master. -/
def signals : Option Nat := (a.translate byte).bind a.signalOf

/-- `ICRNL` wins over `IGNCR` for a carriage return, and no signal hides it. -/
def Reversed : Prop := a.igncr = true ∧ a.icrnl = true ∧ a.signalOf 10 = none

variable {a byte}

lemma translate_eq (h : byte = 13 → ¬ (a.igncr = true ∧ a.icrnl = true)) :
    a.translate byte = a.translated byte := by
  unfold translate translated
  grind

lemma translate_of_signals (h : ¬ a.Reversed) (hs : a.signals byte = none) :
    a.translate byte = a.translated byte := by
  apply translate_eq
  rintro rfl ⟨hign, hcr⟩
  refine h ⟨hign, hcr, ?_⟩
  simpa [signals, translate, hcr] using hs

end Attrs

/-- The terminal after some bytes. -/
def TerminalState.feed (t : TerminalState) (bytes : List UInt8) : TerminalState :=
  bytes.foldl (fun t byte => (t.processInputByte byte).2.2) t

/-! ### Translation -/

namespace PtyPair

variable {p : PtyPair} {a : Attrs} {byte : UInt8} {bytes : List UInt8}

lemma processMasterInput_raw (hraw : p.terminal.attrs.icanon = false)
    (hs : p.terminal.attrs.signals byte = none) :
    (p.processMasterInput byte).terminal = p.terminal ∧
      (p.processMasterInput byte).inputBuf = p.inputBuf ++ [byte] := by
  have hnone : p.terminal.processInputByte byte = ([], none, p.terminal) := by
    unfold Attrs.signals at hs
    unfold TerminalState.processInputByte
    cases ht : p.terminal.attrs.translate byte with
    | none => rfl
    | some =>
      rw [ht, Option.bind_some] at hs
      simp [hs, hraw]
  simp [processMasterInput, hnone, hraw]

lemma write_raw (hraw : p.terminal.attrs.icanon = false)
    (hs : ∀ b ∈ bytes, p.terminal.attrs.signals b = none) :
    (p.apply (.write bytes)).readable = p.readable ++ bytes := by
  induction bytes generalizing p with
  | nil => simp [apply]
  | cons byte bytes ih =>
    obtain ⟨hterminal, hinput⟩ := processMasterInput_raw hraw (hs byte mem_cons_self)
    have hrest := ih (p := p.processMasterInput byte) (by rwa [hterminal])
      (by rw [hterminal]; exact fun b hb => hs b (mem_cons_of_mem _ hb))
    refine hrest.trans ?_
    simp [readable, hterminal, hinput, hraw]

lemma terminal_write : (p.apply (.write bytes)).terminal = p.terminal.feed bytes := by
  induction bytes generalizing p with
  | nil => rfl
  | cons byte bytes ih =>
    rw [TerminalState.feed, foldl_cons, ← terminal_processMasterInput]
    exact ih

/-- Without signals the line discipline edits each byte in translation. -/
lemma feed_canonical {t : TerminalState} (hcanon : t.attrs.icanon = true)
    (h : ¬ t.attrs.Reversed) (hs : ∀ b ∈ bytes, t.attrs.signals b = none) :
    t.feed bytes = (bytes.filterMap t.attrs.translated).foldl (fun t b => (t.edit b).2) t := by
  induction bytes generalizing t with
  | nil => rfl
  | cons byte bytes ih =>
    have hbyte := hs byte mem_cons_self
    have hattrs := @attrs_processInputByte byte t
    have hrest := ih (t := (t.processInputByte byte).2.2) (by rwa [hattrs]) (by rwa [hattrs])
      (by rw [hattrs]; exact fun b hb => hs b (mem_cons_of_mem _ hb))
    rw [TerminalState.feed, foldl_cons]
    refine hrest.trans ?_
    rw [hattrs, filterMap_cons, ← Attrs.translate_of_signals h hbyte]
    unfold Attrs.signals at hbyte
    unfold TerminalState.processInputByte
    cases ht : t.attrs.translate byte with
    | none => rfl
    | some b =>
      rw [ht, Option.bind_some] at hbyte
      simp [hbyte, hcanon]

/-- A newline changes a terminal on which something was typed. -/
lemma edit_newline_ne : ((⟨a, [0], []⟩ : TerminalState).edit 10).2 ≠ ⟨a, [0], []⟩ := by
  unfold TerminalState.edit
  intro h
  grind

end PtyPair

/-! ### Editing -/

/-- The lines that are complete, the oldest first, and the line that is entered. -/
structure Editor where
  lines : List (List UInt8)
  line : List UInt8
deriving DecidableEq

namespace Editor

variable (a : Attrs) (e : Editor) (byte : UInt8)

/-- The line without its last word. -/
def eraseWord : List UInt8 :=
  ((e.line.reverse.dropWhile (· = 32)).dropWhile (· ≠ 32)).reverse

/-- A byte that is translated and no signal. -/
def press : Editor :=
  if a.matchesChar byte 2 then { e with line := e.line.dropLast }
  else if a.matchesChar byte 3 then { e with line := [] }
  else if a.werase && a.matchesChar byte 14 then { e with line := e.eraseWord }
  else if a.matchesChar byte 4 then ⟨e.lines ++ [e.line], []⟩
  else if byte = 10 ∨ a.matchesChar byte 11 then ⟨e.lines ++ [e.line ++ [byte]], []⟩
  else { e with line := e.line ++ [byte] }

/-- A byte is translated first, and a signal flushes all lines unless `NOFLSH` is set. -/
def type : Editor :=
  match a.translated byte with
  | none => e
  | some byte =>
    if (a.signalOf byte).isSome then if a.noflsh then e else ⟨[], []⟩ else e.press a byte

/-- The terminal that joins the lines. -/
def terminal : TerminalState := ⟨a, e.line, e.lines.flatten⟩

/-- A carriage return that should be ignored is one that changes nothing as a newline. -/
def IgnoresNewline : Prop :=
  if (a.signalOf 10).isSome then a.noflsh = true ∨ e.line = [] ∧ e.lines.flatten = []
  else e.line = [] ∧ (a.matchesChar 10 2 ∨ a.matchesChar 10 3 ∨ a.matchesChar 10 4)

/-- The line discipline does with the byte what the editor does. -/
def Fits : Prop :=
  (byte = 13 → a.igncr = true → a.icrnl = true → e.IgnoresNewline a) ∧
    ∀ b ∈ a.translated byte, a.signalOf b = none → a.werase = true →
      a.matchesChar b 14 → a.matchesChar b 2 ∨ a.matchesChar b 3 ∨ e.line = [] ∧ a.matchesChar b 4

variable {a}

lemma length_eraseWord : e.eraseWord.length ≤ e.line.length := by
  have hword : eraseWord e <+ e.line := by
    rw [eraseWord, ← reverse_sublist, reverse_reverse]
    exact (dropWhile_sublist _).trans (dropWhile_sublist _)
  exact hword.length_le

lemma edit_terminal : ((e.terminal a).edit byte).2 = (e.press a byte).terminal a ↔
    (a.werase = true → a.matchesChar byte 14 →
      a.matchesChar byte 2 ∨ a.matchesChar byte 3 ∨ e.line = [] ∧ a.matchesChar byte 4) := by
  have hword := e.length_eraseWord
  have hnil : e.line = [] → e.eraseWord = [] := by
    intro h
    simp [eraseWord, h]
  by_cases hwerase : (a.werase && a.matchesChar byte 14) = true
  · -- the line discipline enters the byte, and the editor makes the line no longer
    have hentered : e.line ++ [byte] ≠ e.eraseWord := by
      intro h
      have := congrArg length h
      simp at this
      omega
    obtain ⟨hset, hbyte⟩ := Bool.and_eq_true_iff.mp hwerase
    simp only [TerminalState.edit, press, terminal, hset, hbyte]
    by_cases hverase : a.matchesChar byte 2 = true
    · simp [hverase]
    by_cases hvkill : a.matchesChar byte 3 = true
    · simp [hverase, hvkill]
    by_cases hveof : a.matchesChar byte 4 = true
    · simpa [hverase, hvkill, hveof] using fun h => (hnil h).symm
    by_cases hline : byte = 10 ∨ a.matchesChar byte 11 = true
    · simp [hverase, hvkill, hveof, hline]
    · simp [hverase, hvkill, hveof, hline, hentered]
  · simp only [TerminalState.edit, press, terminal]
    grind

section

variable (hcanon : a.icanon = true)

include hcanon

/-- A newline in place of a carriage return that should be ignored. -/
lemma processInputByte_newline (hcr : a.icrnl = true) :
    ((e.terminal a).processInputByte 13).2.2 = e.terminal a ↔ e.IgnoresNewline a := by
  have htranslate : a.translate 13 = some 10 := by simp [Attrs.translate, hcr]
  unfold TerminalState.processInputByte IgnoresNewline
  simp only [terminal, htranslate]
  cases hs : a.signalOf 10 with
  | some =>
    by_cases hflush : a.noflsh = true
    · simp [hflush]
    · simp [hflush, eq_comm]
  | none =>
    have hdrop : e.line.dropLast = e.line ↔ e.line = [] := by
      refine ⟨fun h => ?_, fun h => by rw [h, dropLast_nil]⟩
      have hlength := congrArg length h
      rw [length_dropLast] at hlength
      exact length_eq_zero_iff.mp (by omega)
    simp only [hcanon, TerminalState.edit]
    by_cases hverase : a.matchesChar 10 2 = true
    · simp [hverase, hdrop]
    by_cases hvkill : a.matchesChar 10 3 = true
    · simp [hverase, hvkill, @eq_comm _ []]
    by_cases hveof : a.matchesChar 10 4 = true
    · simp [hverase, hvkill, hveof, @eq_comm _ []]
    · simp [hverase, hvkill, hveof]

lemma processInputByte_terminal :
    ((e.terminal a).processInputByte byte).2.2 = (e.type a byte).terminal a ↔ e.Fits a byte := by
  unfold Fits
  by_cases hcr : byte = 13 ∧ a.igncr = true ∧ a.icrnl = true
  · obtain ⟨rfl, hign, hnl⟩ := hcr
    have hdropped : a.translated 13 = none := by simp [Attrs.translated, hign]
    simpa [type, hdropped, hign, hnl] using e.processInputByte_newline hcanon hnl
  · rw [and_iff_right fun h hign hnl => absurd ⟨h, hign, hnl⟩ hcr]
    unfold TerminalState.processInputByte type
    rw [← Attrs.translate_eq fun h => not_and.mp hcr h]
    cases ht : a.translate byte with
    | none => simp [terminal, ht]
    | some b =>
      cases hs : a.signalOf b with
      | some =>
        simp only [terminal, ht, hs]
        split <;> simp_all
      | none =>
        simpa [hs, hcanon, show (e.terminal a).attrs = a from rfl, ht] using e.edit_terminal b

/-- At every moment the line discipline keeps what the editor keeps, with its lines joined, if and
only if it does with each byte what the editor does. -/
theorem line_discipline_edits_iff (bytes : List UInt8) :
    (∀ n, (e.terminal a).feed (bytes.take n) = ((bytes.take n).foldl (type a) e).terminal a) ↔
      ∀ n b, bytes[n]? = some b → ((bytes.take n).foldl (type a) e).Fits a b := by
  induction bytes generalizing e with
  | nil => simp [TerminalState.feed]
  | cons byte bytes ih =>
    have hcons (h : e.Fits a byte) (l : List UInt8) :
        (e.terminal a).feed (byte :: l) = ((e.type a byte).terminal a).feed l := by
      rw [TerminalState.feed, foldl_cons, (e.processInputByte_terminal byte hcanon).mpr h]
      rfl
    constructor
    · intro h
      have hbyte : e.Fits a byte := (e.processInputByte_terminal byte hcanon).mp (h 1)
      rintro (_ | n) b hb
      · cases hb
        exact hbyte
      · refine (ih (e.type a byte)).mp (fun k => ?_) n b hb
        rw [← hcons hbyte]
        exact h (k + 1)
    · intro h
      rintro (_ | n)
      · rfl
      · rw [take_succ_cons, hcons (h 0 byte rfl)]
        exact (ih (e.type a byte)).mpr (fun k b hb => h (k + 1) b hb) n

end

/-- `VWERASE` is entered as any byte. -/
theorem werase_is_entered :
    let a := { PtyPair.new.terminal.attrs with cc := PtyPair.new.terminal.attrs.cc.set 14 23 }
    a.icanon = true ∧ a.werase = true ∧
    ((terminal a ⟨[], []⟩).feed [97, 23, 10]).cookedBuffer = [97, 23, 10] ∧
    ([97, 23, 10].foldl (type a) ⟨[], []⟩).lines = [[10]] := by decide

/-- `VERASE` removes a byte, with `VWERASE` enabled and not typed. -/
theorem line_discipline_edits_erase :
    let a := { PtyPair.new.terminal.attrs with cc := PtyPair.new.terminal.attrs.cc.set 14 23 }
    a.werase = true ∧
      (terminal a ⟨[], []⟩).feed [97, 127, 98, 10] = terminal a ⟨[[98, 10]], []⟩ := by
  intro a
  have hfits : ∀ b ∈ [(97 : UInt8), 127, 98, 10], ∀ e : Editor, e.Fits a b := by
    intro b hb e
    have hword : ∀ b ∈ [(97 : UInt8), 127, 98, 10], ∀ c ∈ a.translated b,
      a.matchesChar c 14 = false := by decide +kernel
    have hign : a.igncr = false := by decide +kernel
    exact ⟨fun _ h => by simp [hign] at h,
      fun c hc _ _ hmatch => by simp [hword b hb c hc] at hmatch⟩
  have h := (line_discipline_edits_iff (a := a) ⟨[], []⟩ (by decide) [97, 127, 98, 10]).mpr
    fun n b hb => hfits b (mem_of_getElem? hb) _
  exact ⟨by decide, (h 4).trans (congrArg (terminal a) (by decide))⟩

end Editor

/-! ### Reading -/

/-- `sys_read` of the slave while the master is open; `syscalls.rs:3445-3456`. -/
def PtyPair.sysReadSlave (p : PtyPair) (n : Nat) : Except Errno (List UInt8) × PtyPair :=
  if p.readable.take n ≠ [] then (.ok (p.readable.take n), p.slaveRead n) else (.error .EAGAIN, p)

/-- What a read should return: bytes of one line, and no bytes for an end of file. -/
def lineRead : List (List UInt8) → Nat → Except Errno (List UInt8)
  | [], _ => .error .EAGAIN
  | line :: _, n => .ok (line.take n)

/-- The lines that such a read leaves. -/
def linesLeft : List (List UInt8) → Nat → List (List UInt8)
  | [], _ => []
  | line :: lines, n => if line.length ≤ n then lines else line.drop n :: lines

/-- The complete lines after a byte, by the editing of the line discipline itself. -/
def TerminalState.completed (t : TerminalState) (lines : List (List UInt8)) (byte : UInt8) :
    List (List UInt8) :=
  match t.attrs.translate byte with
  | none => lines
  | some b =>
    if (t.attrs.signalOf b).isSome then if t.attrs.noflsh then lines else []
    else if t.attrs.matchesChar b 2 || t.attrs.matchesChar b 3 then lines
    else if t.attrs.matchesChar b 4 then lines ++ [t.lineBuffer]
    else if b = 10 ∨ t.attrs.matchesChar b 11 then lines ++ [t.lineBuffer ++ [b]]
    else lines

/-- The complete lines after some bytes. -/
def TerminalState.completedBy (t : TerminalState) (lines : List (List UInt8)) :
    List UInt8 → List (List UInt8)
  | [] => lines
  | b :: bytes => (t.processInputByte b).2.2.completedBy (t.completed lines b) bytes

/-- The complete lines that are not read yet, if each read takes its bytes from one line. -/
def unread : List Call → List (List UInt8)
  | [] => []
  | .write bytes :: calls => (PtyPair.after calls).terminal.completedBy (unread calls) bytes
  | .tcsetattr _ :: calls => unread calls
  | .read n :: calls => if n = 0 then unread calls else linesLeft (unread calls) n

/-- Nothing is there to read, or the read ends within the first line or takes the last. -/
def Within : List (List UInt8) → Nat → Prop
  | [], _ => True
  | line :: rest, n => line ≠ [] ∧ (n ≤ line.length ∨ rest.flatten = [])

variable {p : PtyPair} {t : TerminalState} {lines : List (List UInt8)} {byte : UInt8} {n : Nat}

lemma cookedBuffer_processInputByte (byte : UInt8) (hcanon : t.attrs.icanon = true)
    (h : t.cookedBuffer = lines.flatten) :
    (t.processInputByte byte).2.2.cookedBuffer = (t.completed lines byte).flatten := by
  unfold TerminalState.processInputByte TerminalState.completed
  cases t.attrs.translate byte with
  | none => exact h
  | some b =>
    cases hs : t.attrs.signalOf b with
    | some =>
      by_cases hflush : t.attrs.noflsh = true
      · simpa [hs, hflush] using h
      · simp [hs, hflush]
    | none =>
      simp only [hcanon, TerminalState.edit]
      grind

lemma cookedBuffer_feed (bytes : List UInt8) (hcanon : t.attrs.icanon = true)
    (h : t.cookedBuffer = lines.flatten) :
    (t.feed bytes).attrs = t.attrs ∧
      (t.feed bytes).cookedBuffer = (t.completedBy lines bytes).flatten := by
  induction bytes generalizing t lines with
  | nil => exact ⟨rfl, h⟩
  | cons byte bytes ih =>
    have hattrs := @PtyPair.attrs_processInputByte byte t
    have hbyte := cookedBuffer_processInputByte byte hcanon h
    obtain ⟨hkept, hcooked⟩ := ih (by rwa [hattrs]) hbyte
    exact ⟨hkept.trans hattrs, hcooked⟩

/-- A read of the joined lines returns bytes of the first line and leaves the others. -/
lemma sysReadSlave_iff (hcanon : p.terminal.attrs.icanon = true)
    (h : p.terminal.cookedBuffer = lines.flatten) (hn : 0 < n) :
    (p.sysReadSlave n).1 = lineRead lines n ↔ Within lines n := by
  unfold PtyPair.sysReadSlave PtyPair.readable
  rw [if_pos hcanon, h]
  cases lines with
  | nil => simp [lineRead, Within]
  | cons line rest =>
    rw [lineRead, Within, flatten_cons]
    have hsame : (line ++ rest.flatten).take n = line.take n ↔
        n ≤ line.length ∨ rest.flatten = [] := by
      rw [take_append, append_right_eq_self, take_eq_nil_iff, Nat.sub_eq_zero_iff_le]
    by_cases hnone : (line ++ rest.flatten).take n = []
    · have hline : line = [] := by
        rcases take_eq_nil_iff.mp hnone with rfl | h
        · cases hn
        · exact (append_eq_nil_iff.mp h).1
      rw [if_neg (not_not.mpr hnone)]
      exact iff_of_false nofun fun h => h.1 hline
    · rw [if_pos hnone, Except.ok.injEq, hsame, iff_and_self]
      rintro h rfl
      exact hnone ((hsame.mpr h).trans take_nil)

lemma flatten_linesLeft (h : Within lines n) :
    (linesLeft lines n).flatten = lines.flatten.drop n := by
  cases lines with
  | nil => simp [linesLeft]
  | cons line rest =>
    obtain ⟨-, hfits⟩ := h
    rw [linesLeft, flatten_cons, drop_append]
    split
    · next hle =>
      rw [drop_eq_nil_of_le hle, nil_append]
      rcases hfits with hge | hnil
      · rw [Nat.sub_eq_zero_of_le hge, drop_zero]
      · rw [hnil, drop_nil]
    · next hlt => rw [flatten_cons, Nat.sub_eq_zero_of_le (Nat.le_of_not_le hlt), drop_zero]

/-- In canonical mode the lines that are not read yet are joined in the buffer. -/
lemma cookedBuffer_after {calls : List Call}
    (hcanon : ∀ attrs, .tcsetattr attrs ∈ calls → attrs.icanon = true)
    (h : Always
      (fun call earlier => ∀ n, call = .read n → 0 < n → Within (unread earlier) n) calls) :
    (PtyPair.after calls).terminal.attrs.icanon = true ∧
      (PtyPair.after calls).terminal.cookedBuffer = (unread calls).flatten := by
  induction calls with
  | nil => exact ⟨rfl, rfl⟩
  | cons call calls ih =>
    rw [Always.cons_iff] at h
    obtain ⟨hp, hcooked⟩ := ih (fun attrs h => hcanon attrs (mem_cons_of_mem call h)) h.2
    cases call with
    | write bytes =>
      have hfeed := cookedBuffer_feed bytes hp hcooked
      have hterminal : (PtyPair.after (.write bytes :: calls)).terminal =
          (PtyPair.after calls).terminal.feed bytes := PtyPair.terminal_write
      rw [hterminal, hfeed.1]
      exact ⟨hp, hfeed.2⟩
    | tcsetattr attrs => exact ⟨hcanon attrs mem_cons_self, hcooked⟩
    | read n =>
      have hread : (PtyPair.after (.read n :: calls)).terminal =
          { (PtyPair.after calls).terminal with
            cookedBuffer := (PtyPair.after calls).terminal.cookedBuffer.drop n } :=
        congrArg PtyPair.terminal (if_pos hp)
      rw [hread, unread]
      refine ⟨hp, ?_⟩
      dsimp only
      split
      · next hzero => rw [hzero, drop_zero, hcooked]
      · next hpos =>
        rw [hcooked, flatten_linesLeft (h.1 n rfl (Nat.pos_of_ne_zero hpos))]

/-- In a run in canonical mode each read returns bytes of one line, and an end of file for each that
was typed, if and only if each read finds nothing, or ends within the first line or with all lines.
-/
theorem reads_keep_lines_iff (calls : List Call)
    (hcanon : ∀ attrs, .tcsetattr attrs ∈ calls → attrs.icanon = true) :
    Always (fun call earlier => ∀ n, call = .read n → 0 < n →
      ((PtyPair.after earlier).sysReadSlave n).1 = lineRead (unread earlier) n) calls ↔
    Always (fun call earlier => ∀ n, call = .read n → 0 < n → Within (unread earlier) n) calls := by
  induction calls with
  | nil => simp
  | cons call calls ih =>
    have hbefore := fun attrs h => hcanon attrs (mem_cons_of_mem call h)
    rw [Always.cons_iff, Always.cons_iff, ih hbefore]
    refine and_congr_left fun hwithin => ?_
    obtain ⟨hp, hcooked⟩ := cookedBuffer_after hbefore hwithin
    exact forall_congr' fun n => imp_congr_right fun _ => imp_congr_right
      (sysReadSlave_iff hp hcooked)

/-- Two lines are read one by one, and a third that is typed in between. -/
theorem reads_keep_three_lines :
    let calls := [Call.read 9, .read 2, .write [99, 10], .read 2, .write [97, 10, 98, 10]]
    unread calls = [] ∧ Always (fun call earlier => ∀ n, call = .read n → 0 < n →
      ((PtyPair.after earlier).sysReadSlave n).1 = lineRead (unread earlier) n) calls := by
  refine ⟨rfl, (reads_keep_lines_iff _ (by simp)).mpr ?_⟩
  simp only [Always.cons_iff, Always.nil]
  refine ⟨?_, ?_, by rintro _ ⟨⟩, ?_, by rintro _ ⟨⟩, trivial⟩
  · rintro n ⟨⟩ -
    exact (show Within [[99, 10]] 9 by simp [Within])
  · rintro n ⟨⟩ -
    exact (show Within [[98, 10], [99, 10]] 2 by simp [Within])
  · rintro n ⟨⟩ -
    exact (show Within [[97, 10], [98, 10]] 2 by simp [Within])

/-- A read returns two lines, and an end of file is not seen. -/
theorem read_returns_two_lines :
    ((PtyPair.new.apply (.write [97, 10, 98, 10])).sysReadSlave 4).1 = .ok [97, 10, 98, 10] ∧
      ((PtyPair.new.apply (.write [4])).sysReadSlave 1).1 = .error .EAGAIN ∧
      unread [.write [97, 10, 98, 10]] = [[97, 10], [98, 10]] ∧ unread [.write [4]] = [[]] :=
  ⟨rfl, rfl, rfl, rfl⟩

end Kandelo.Kernel.Pty
