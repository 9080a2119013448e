import Kandelo.ForkInstrument.CallStack

/-!
# The save buffer as a stack

Runs of instrumented functions, as far as their call stacks go, and
what a fork at their end does to the save buffer. In a run without tail calls the activation
above a waiting one was entered by the call of its site, so rewinding finds the same function
again, unless the slot of an indirect call has been given to another function. A tail call
replaces the activation that the waiting one has called, and rewinding enters the replaced one.
-/

namespace Kandelo.ForkInstrument.Machine

open List Instrumented

/-! ### Runs -/

/-- A running activation and those that wait below it, innermost first. -/
structure CallState where
  world : World
  func : FunctionId
  locals : Var → Val
  waiting : List Activation

variable {w : World} {f above : FunctionId} {site : Nat} {s : CallState} {a : Activation}
  {acts : List Activation}

/-- What a step does to the call stack. -/
inductive Action
  | exec
  | call
  | tailCall
  | ret
  deriving DecidableEq

/-- The call can enter the function. -/
def MayEnter (w : World) (g : FunctionId) : Callee → Prop
  | .direct f => f = g
  | .indirect table => Ref.func g ∈ w.tables table

namespace Instrumented

/-- The tail calls of a function. -/
def tailCallsOf (I : Instrumented) (f : FunctionId) : List Callee :=
  match I.module.bodyOf f with
  | some body => tailCalls body
  | none => []

/-- Steps. The locals and the world of the running activation may change in any way that keeps
the types of the locals and the sizes of the auxiliary tables. -/
inductive CallStep (I : Instrumented) : Action → CallState → CallState → Prop
  | exec {s : CallState} {w : World} {L : Var → Val}
      (hlen : ∀ c, (w.aux c).length = (s.world.aux c).length)
      (ht : I.WellTyped s.func L w.aux) : CallStep I .exec s ⟨w, s.func, L, s.waiting⟩
  | call {s : CallState} {site : Nat} {g : FunctionId} {L : Var → Val}
      (htarget : I.target s.world s.func site s.locals = some g) (hg : I.IsTarget g)
      (ht : I.WellTyped g L s.world.aux) :
      CallStep I .call s ⟨s.world, g, L, ⟨s.func, site, s.locals⟩ :: s.waiting⟩
  | tailCall {s : CallState} {c : Callee} {g : FunctionId} {L : Var → Val}
      (hc : c ∈ I.tailCallsOf s.func) (henters : MayEnter s.world g c) (hg : I.IsTarget g)
      (ht : I.WellTyped g L s.world.aux) :
      CallStep I .tailCall s ⟨s.world, g, L, s.waiting⟩
  | ret {s : CallState} {a : Activation} {rest : List Activation}
      (hwaiting : s.waiting = a :: rest) :
      CallStep I .ret s ⟨s.world, a.func, a.locals, rest⟩

/-- States of runs all of whose steps are allowed. -/
inductive Reached (I : Instrumented) (allowed : Action → Prop) : CallState → Prop
  | start {w : World} {f : FunctionId} {L : Var → Val} (hf : I.IsTarget f)
      (ht : I.WellTyped f L w.aux) : Reached I allowed ⟨w, f, L, []⟩
  | step {a : Action} {s s' : CallState} (hs : Reached I allowed s) (ha : allowed a)
      (hstep : I.CallStep a s s') : Reached I allowed s'

/-- The live activations when the running one calls `kernel_fork` from the site, innermost
first. -/
def live (s : CallState) (site : Nat) : List Activation := ⟨s.func, site, s.locals⟩ :: s.waiting

/-- The outermost function. -/
def root (s : CallState) : FunctionId := (s.waiting.getLast?.map (·.func)).getD s.func

/-- The calls of indirect sites still enter the function above, innermost first. -/
def IndirectHeld (I : Instrumented) (w : World) : FunctionId → List Activation → Prop
  | _, [] => True
  | above, a :: rest =>
    (∀ table, (I.sites a.func)[a.site]? = some (.indirect table) →
      I.target w a.func a.site a.locals = some above) ∧ IndirectHeld I w a.func rest

/-- The sites of the waiting activations lead to the function above, or are indirect. -/
def SitesLead (I : Instrumented) : FunctionId → List Activation → Prop
  | _, [] => True
  | above, a :: rest =>
    (∃ c, (I.sites a.func)[a.site]? = some c ∧ (c = .direct above ∨ ∃ table, c = .indirect table)) ∧
      SitesLead I a.func rest

/-- What holds of the call stack in every run without tail calls. -/
structure Nested (I : Instrumented) (s : CallState) : Prop where
  running : I.IsTarget s.func ∧ I.WellTyped s.func s.locals s.world.aux
  waiting : ∀ a ∈ s.waiting, I.IsTarget a.func ∧ I.WellTyped a.func a.locals s.world.aux
  sites : I.SitesLead s.func s.waiting

variable {I : Instrumented}

lemma exists_site_of_target {g : FunctionId} {L : Var → Val} (h : I.target w f site L = some g) :
    ∃ c, (I.sites f)[site]? = some c ∧ (c = .direct g ∨ ∃ table, c = .indirect table) := by
  unfold target at h
  split at h
  · next g' hsite => exact ⟨_, hsite, .inl (congrArg _ (Option.some.inj h))⟩
  · next table hsite => exact ⟨_, hsite, .inr ⟨table, rfl⟩⟩
  · cases h

lemma Nested.step {a : Action} {s' : CallState} (h : I.Nested s) (ha : a ≠ .tailCall)
    (hstep : I.CallStep a s s') : I.Nested s' := by
  cases hstep with
  | exec hlen ht =>
    refine ⟨⟨h.running.1, ht⟩, fun b hb => ?_, h.sites⟩
    exact ⟨(h.waiting b hb).1, (h.waiting b hb).2.congr hlen⟩
  | call htarget hg ht =>
    refine ⟨⟨hg, ht⟩, fun b hb => ?_, exists_site_of_target htarget, h.sites⟩
    rcases mem_cons.mp hb with rfl | hb
    · exact h.running
    · exact h.waiting b hb
  | tailCall => exact absurd rfl ha
  | ret hwaiting =>
    have hsites := h.sites
    rw [hwaiting] at hsites
    refine ⟨h.waiting _ (hwaiting ▸ mem_cons_self), fun b hb => ?_, hsites.2⟩
    exact h.waiting b (hwaiting ▸ mem_cons_of_mem _ hb)

lemma nested_of_reached (h : I.Reached (· ≠ .tailCall) s) : I.Nested s := by
  induction h with
  | start hf ht => exact ⟨⟨hf, ht⟩, fun b hb => (by cases hb), trivial⟩
  | step _ ha hstep ih => exact ih.step ha hstep

/-! ### Forking at the end of a run -/

lemma ne_fork_of_isTarget (h : I.IsTarget f) : f ≠ I.fork := by
  rintro rfl
  have hbody := h.2
  rw [I.fork_import] at hbody
  cases hbody

lemma target_of_sitesLead {rest : List Activation} (hlead : I.SitesLead above (a :: rest))
    (hheld : I.IndirectHeld w above (a :: rest)) :
    I.target w a.func a.site a.locals = some above := by
  obtain ⟨c, hc, rfl | ⟨table, rfl⟩⟩ := hlead.1
  · unfold target
    rw [hc]
  · exact hheld.1 table hc

lemma linked_reverse_append {below above : List Activation}
    (htarget : ∀ b ∈ a :: below, I.IsTarget b.func) (hlead : I.SitesLead a.func below)
    (hheld : I.IndirectHeld w a.func below) (h : I.Linked w (a :: above)) :
    I.Linked w (below.reverse ++ a :: above) := by
  induction below generalizing a above with
  | nil => exact h
  | cons b below ih =>
    rw [reverse_cons, append_assoc]
    refine ih (fun c hc => htarget c (mem_cons_of_mem _ hc)) hlead.2 hheld.2 ?_
    exact ⟨target_of_sitesLead hlead hheld, ne_fork_of_isTarget (htarget a mem_cons_self), h⟩

lemma site_lt {c : Callee} (h : (I.sites f)[site]? = some c) : site < 2 ^ 32 := by
  have hlt := (List.getElem?_eq_some_iff.mp h).1
  rw [sites, length_map] at hlt
  unfold Instrumented.callSites at hlt
  split at hlt
  · next body hbody => exact lt_trans hlt (I.sites_lt f body hbody)
  · cases hlt

lemma site_lt_of_sitesLead (h : I.SitesLead above acts) : ∀ a ∈ acts, a.site < 2 ^ 32 := by
  induction acts generalizing above with
  | nil => exact fun a ha => by cases ha
  | cons b acts ih =>
    intro a ha
    rcases mem_cons.mp ha with rfl | ha
    · obtain ⟨c, hc, -⟩ := h.1
      exact site_lt hc
    · exact ih h.2 a ha

lemma live_reverse : ∃ a rest, (live s site).reverse = a :: rest ∧ a.func = root s := by
  unfold live root
  cases hlast : s.waiting.getLast? with
  | none =>
    rw [getLast?_eq_none_iff.mp hlast]
    exact ⟨_, [], rfl, rfl⟩
  | some a =>
    obtain ⟨below, hbelow⟩ := getLast?_eq_some_iff.mp hlast
    refine ⟨a, below.reverse ++ [⟨s.func, site, s.locals⟩], ?_, rfl⟩
    rw [hbelow, reverse_cons, reverse_append]
    rfl

/-- What a fork needs of the save buffer: room for the frames of the live activations, which
the host has to provide, and results that can be faked. -/
structure Ready (I : Instrumented) (acts : List Activation) (buf : Nat) (w : World) : Prop where
  fits : buf + I.runtime.framesStartOffset + I.total acts ≤ w.mem.size
  addressable : buf + I.runtime.framesStartOffset + I.total acts < I.env.ptr.space
  defaults : ∀ a ∈ acts, I.HasDefaults a.func

lemma size_le_framesStartOffset : I.env.ptr.size ≤ I.runtime.framesStartOffset := by
  rw [I.ptr_eq]
  have hheader := I.runtime.header_le
  have hframes := I.runtime.frames_eq
  omega

lemma Nested.live (hnested : I.Nested s) : ∀ a ∈ live s site, I.IsTarget a.func ∧
    I.WellTyped a.func a.locals s.world.aux := by
  intro a ha
  rcases mem_cons.mp ha with rfl | ha
  · exact hnested.running
  · exact hnested.waiting a ha

/-- Unwinding leaves one frame for each live activation in the buffer, the outermost on top. -/
lemma unwind_live (hnested : I.Nested s) {buf : Nat} (hready : I.Ready (live s site) buf s.world) :
    ∃ w0 w1, I.runtime.unwindBegin buf s.world = some w0 ∧
      I.unwind (live s site) w0 =
        some (I.framesUp (buf + I.runtime.framesStartOffset) (live s site), w1) ∧
      w1.mem.size = s.world.mem.size ∧ w1.buf = buf ∧ w1.tables = s.world.tables ∧
      w1.aux = I.savedRefs (live s site) s.world.aux ∧
      (∀ f, Cursor (I.envOf f) w1
        (buf + I.runtime.framesStartOffset + I.total (live s site).reverse)) ∧
      I.Stacked w1.mem (buf + I.runtime.framesStartOffset) (live s site).reverse := by
  have hfits := hready.fits
  have hspace := hready.addressable
  have hptr := I.size_le_framesStartOffset
  obtain ⟨mem, hbegin, hsize, hcursor⟩ :=
    Runtime.unwindBegin_spec (E := I.env) (w := s.world) I.ptr_eq
    (show buf + I.runtime.framesStartOffset ≤ _ by omega) (by rw [← I.ptr_eq]; omega)
  have hcursor0 : ∀ f, Cursor (I.envOf f)
      { s.world with mem := mem, state := stateUnwinding, buf := buf }
      (buf + I.runtime.framesStartOffset + I.total []) := fun f =>
    ⟨hcursor.inMemory, hcursor.addressable, hcursor.value⟩
  have hfits0 : buf + I.runtime.framesStartOffset + I.total [] + I.total
      (live s site) ≤ mem.size := by
    rw [total_nil]
    omega
  obtain ⟨w1, hunwind, hsame, haux1, hcursor1, hstacked⟩ := unwind_spec rfl hcursor0
    (show buf + _ ≤ _ by omega) hfits0 (by rw [total_nil]; omega)
    (fun a ha => (hnested.live a ha).2) hready.defaults trivial
  rw [append_nil] at hcursor1 hstacked
  exact ⟨_, w1, hbegin, hunwind, hsame.size.trans hsize, hsame.buf, hsame.tables, haux1, hcursor1,
    hstacked⟩

/-- The frames are pushed innermost first and popped in the opposite order, and the activations
are re-entered with what the frames and the auxiliary tables hold. The tables may be those of
another instance. -/
lemma fork_cycle (hnested : I.Nested s) {buf : Nat}
    (tables : TableId → List Ref) (aux : RefClass → List Ref) (init : FunctionId → Var → Val)
    (hfork : I.target s.world s.func site s.locals = some I.fork)
    (hheld : I.IndirectHeld { s.world with tables := tables } I.fork (live s site))
    (haux : ∀ c, (aux c).length = (s.world.aux c).length)
    (hready : I.Ready (live s site) buf s.world) :
    ∃ w0 w1 w2 w3, I.runtime.unwindBegin buf s.world = some w0 ∧
      I.unwind (live s site) w0 =
        some (I.framesUp (buf + I.runtime.framesStartOffset) (live s site), w1) ∧
      w1.tables = s.world.tables ∧ w1.aux = I.savedRefs (live s site) s.world.aux ∧
      I.runtime.rewindBegin buf { w1 with tables := tables, aux := aux } = some w2 ∧
      I.rewind init (live s site).length (root s) w2 =
        some (I.entered init aux (buf + I.runtime.framesStartOffset) (live s site).reverse, w3) ∧
      I.cursor w3 = buf + I.runtime.framesStartOffset := by
  have hfits := hready.fits
  have hspace := hready.addressable
  have hptr := I.size_le_framesStartOffset
  have hlead : I.SitesLead I.fork (live s site) := ⟨exists_site_of_target hfork, hnested.sites⟩
  obtain ⟨w0, w1, hbegin, hunwind, hsize, hbuf, htables, haux1, hcursor1, hstacked⟩ :=
    unwind_live hnested hready
  obtain ⟨globals, hrewind⟩ :=
    Runtime.rewindBegin_spec (w := { w1 with tables := tables, aux := aux })
    (show buf + I.runtime.framesStartOffset ≤ w1.mem.size by omega)
  obtain ⟨a, rest, hrev, hroot⟩ := live_reverse
  rw [hrev] at hcursor1 hstacked
  have htotal : I.total (a :: rest) = I.total (live s site) := by rw [← hrev, total_reverse]
  have hlinked : I.Linked { s.world with tables := tables } (live s site).reverse := by
    rw [live, reverse_cons]
    exact linked_reverse_append (fun b hb => (hnested.live b hb).1) hlead.2 hheld.2
      (target_of_sitesLead hlead hheld)
  rw [hrev] at hlinked
  have hmem : ∀ b ∈ a :: rest, b ∈ live s site := by
    intro b hb
    rw [← hrev] at hb
    exact mem_reverse.mp hb
  have hcursor2 : ∀ f, Cursor (I.envOf f)
      { w1 with tables := tables, aux := aux, globals := globals, state :=
        stateRewinding, buf := buf }
      (buf + I.runtime.framesStartOffset + I.total (a :: rest)) := by
    intro f
    exact ⟨hbuf ▸ (hcursor1 f).inMemory, hbuf ▸ (hcursor1 f).addressable, hbuf ▸ (hcursor1 f).value⟩
  have hfits2 : buf + I.runtime.framesStartOffset + I.total (a :: rest) ≤ w1.mem.size := by
    omega
  obtain ⟨w3, hrun, hfinal⟩ := rewind_spec init rfl hcursor2 (show buf + _ ≤ _ by omega) hfits2
    (by rw [htotal]; omega) (fun b hb => (hnested.live b (hmem b hb)).2.congr haux)
    (fun b hb => site_lt_of_sitesLead hlead b (hmem b hb)) hstacked
    (by refine Linked.congr ?_ hlinked; rfl)
  refine ⟨w0, w1, _, w3, hbegin, hunwind, htables, haux1, hrewind, ?_, hfinal⟩
  rw [← hroot, ← length_reverse, hrev]
  exact hrun

end Instrumented

/-- Every fork at the end of a run without tail calls pushes one frame for each live activation,
innermost first, and pops the same frames in the opposite order, as long as the indirect calls
still enter the functions they have entered. -/
theorem Instrumented.stack_discipline {I : Instrumented} {s : CallState}
    (hreached : I.Reached (· ≠ .tailCall) s) {site buf : Nat} {tables : TableId → List Ref}
    {aux : RefClass → List Ref} (init : FunctionId → Var → Val)
    (hfork : I.target s.world s.func site s.locals = some I.fork)
    (hheld : I.IndirectHeld { s.world with tables := tables } I.fork (Instrumented.live s site))
    (haux : ∀ c, (aux c).length = (s.world.aux c).length)
    (hready : I.Ready (live s site) buf s.world) :
    ∃ w0 w1 w2 w3 entered, I.runtime.unwindBegin buf s.world = some w0 ∧
      I.unwind (live s site) w0 =
        some (I.framesUp (buf + I.runtime.framesStartOffset) (live s site), w1) ∧
      I.runtime.rewindBegin buf { w1 with tables := tables, aux := aux } = some w2 ∧
      I.rewind init (live s site).length (root s) w2 = some (entered, w3) ∧
      entered.map (·.frame) =
        (I.framesUp (buf + I.runtime.framesStartOffset) (live s site)).reverse ∧
      I.cursor w3 = buf + I.runtime.framesStartOffset := by
  obtain ⟨w0, w1, w2, w3, hbegin, hunwind, -, -, hrewind, hrun, hcursor⟩ :=
    fork_cycle (nested_of_reached hreached) tables aux init hfork hheld haux
      hready
  refine ⟨w0, w1, w2, w3, _, hbegin, hunwind, hrewind, hrun, ?_, hcursor⟩
  rw [map_frame_entered, framesDown_reverse]

/-! ### A module with a tail call -/

lemma Instrumented.hasDefaults_of_types {I : Instrumented} (h : I.module.types = [⟨[], []⟩])
    (f : FunctionId) : I.HasDefaults f := by
  have hresults : (I.module.typeOf f).results = [] := by
    unfold Module.typeOf
    rw [h]
    cases I.module.funcs[f]? with
    | none => rfl
    | some fn => cases hty : fn.ty <;> simp [hty]
  intro ty hty
  rw [layout, hresults] at hty
  cases hty

/-- Calls stay pending. -/
def idleEnv : Env where
  ptr := .i32
  varTy _ := .i32
  i32Pure _ a := a
  i64Pure _ a := a
  unop _ _ := .stuck
  binop _ _ _ := .stuck
  plain _ _ _ := .stuck
  plainCall _ _ _ := .stuck
  call _ _ _ := .pending

/-- Function 1 calls function 2, which forks and then tail-calls function 3, which sets a local and
forks. -/
def tailCallModule : Module where
  types := [⟨[], []⟩]
  imports := [⟨"kernel", "kernel_fork", true⟩]
  funcs := [⟨0, none⟩, ⟨0, some [.call 2]⟩, ⟨0, some [.call 0, .returnCall 3]⟩,
    ⟨0, some [.const (.i32 0), .localSet 0, .call 0]⟩]
  tables := []
  elements := []

lemma idleEnv_ptr : idleEnv.ptr = (injectRuntime .i32 [] 0).ptr := rfl

/-- The module instrumented. -/
def tailCalling : Instrumented where
  module := tailCallModule
  forkPath _ := true
  fork := 0
  runtime := injectRuntime .i32 [] 0
  env := idleEnv
  varTy _ _ := .i32
  params _ := []
  ordinal f := f - 1
  carryovers _ := []
  catchState _ := false
  refs _ := []
  ptr_eq := idleEnv_ptr
  fork_import := rfl
  sites_lt f body h := by
    match f with
    | 0 => cases h
    | 1 | 2 | 3 => cases h; decide
    | f + 4 => cases h

/-- Every local is zero. -/
def zeroLocals : Var → Val := fun _ => .num (.i32 0)

/-- A world with an empty memory. -/
def zeroWorld : World where
  mem := ⟨256, fun _ => 0⟩
  globals _ := .num (.i32 0)
  tables _ := []
  state := stateNormal
  buf := 0
  aux _ := []
  trace := []

lemma wellTyped_tailCalling : tailCalling.WellTyped f zeroLocals zeroWorld.aux := by
  refine ⟨⟨fun x hx => ?_, fun h => (by cases h)⟩, fun r hr => (by cases hr),
    fun r hr => (by cases hr)⟩
  match f with
  | 0 | 1 | 2 => cases hx
  | 3 =>
    rw [mem_singleton.mp (show x ∈ [(.user 0, .i32)] from hx)]
    exact ⟨rfl, .i32 0, rfl, rfl⟩
  | f + 4 => cases hx

/-- Function 2 is about to fork, called by function 1. -/
def beforeTailCall : CallState := ⟨zeroWorld, 2, zeroLocals, [⟨1, 0, zeroLocals⟩]⟩

/-- Function 3 is about to fork, in the place of function 2. -/
def afterTailCall : CallState := ⟨zeroWorld, 3, zeroLocals, [⟨1, 0, zeroLocals⟩]⟩

lemma reached_beforeTailCall (allowed : Action → Prop) (h : allowed .call) :
    tailCalling.Reached allowed beforeTailCall := by
  have hstart : tailCalling.Reached allowed ⟨zeroWorld, 1, zeroLocals, []⟩ :=
    .start ⟨rfl, rfl⟩ wellTyped_tailCalling
  have hcall : tailCalling.CallStep .call ⟨zeroWorld, 1, zeroLocals, []⟩ beforeTailCall :=
    .call rfl ⟨rfl, rfl⟩ wellTyped_tailCalling
  exact .step hstart h hcall

lemma ready_tailCalling (h : tailCalling.total acts ≤ 100) :
    tailCalling.Ready acts 64 zeroWorld := by
  have hstart : tailCalling.runtime.framesStartOffset = 8 := rfl
  have hsize : zeroWorld.mem.size = 256 := rfl
  have hspace : tailCalling.env.ptr.space = 4294967296 := rfl
  exact ⟨by omega, by omega, fun _ _ => hasDefaults_of_types rfl _⟩

/-- The fork before the tail call. -/
theorem stack_discipline_beforeTailCall :
    ∃ w0 w1 w2 w3 entered, tailCalling.runtime.unwindBegin 64 zeroWorld = some w0 ∧
      tailCalling.unwind [⟨2, 0, zeroLocals⟩, ⟨1, 0, zeroLocals⟩] w0 =
        some ([⟨2, 0, 72, 16⟩, ⟨1, 0, 88, 16⟩], w1) ∧
      tailCalling.runtime.rewindBegin 64
        { w1 with tables := fun _ => [], aux := fun _ => [] } = some w2 ∧
      tailCalling.rewind (fun _ => zeroLocals) 2 1 w2 = some (entered, w3) ∧
      entered.map (·.frame) = [⟨1, 0, 88, 16⟩, ⟨2, 0, 72, 16⟩] ∧ tailCalling.cursor w3 = 72 :=
  stack_discipline (s := beforeTailCall) (reached_beforeTailCall _ (by decide))
    (fun _ => zeroLocals) rfl
    ⟨fun _ h => (by cases h), fun _ h => (by cases h), trivial⟩ (fun _ => rfl)
    (ready_tailCalling (by decide))

/-- After the tail call, rewinding enters function 2 again, whose frame has another size than
that of function 3: it pops from the middle of that frame, and the cursor does not come back to
the first frame. -/
theorem tail_call_pops_other_frame :
    tailCalling.Reached (fun _ => True) afterTailCall ∧
      tailCalling.target zeroWorld 3 0 zeroLocals = some tailCalling.fork ∧
      tailCalling.Ready (Instrumented.live afterTailCall 0) 64 zeroWorld ∧
      (do
        let w0 ← tailCalling.runtime.unwindBegin 64 zeroWorld
        let (frames, w1) ← tailCalling.unwind (Instrumented.live afterTailCall 0) w0
        let w2 ← tailCalling.runtime.rewindBegin 64 w1
        let (entered, w3) ← tailCalling.rewind (fun _ => zeroLocals) 2 1 w2
        some (frames, entered.map (·.frame), tailCalling.cursor w3)) =
      some ([⟨3, 0, 72, 20⟩, ⟨1, 0, 92, 16⟩], [⟨1, 0, 92, 16⟩, ⟨2, 0, 76, 16⟩], 76) := by
  refine ⟨?_, rfl, ready_tailCalling (by decide), by decide +kernel⟩
  have htail : tailCalling.CallStep .tailCall beforeTailCall afterTailCall :=
    .tailCall (c := .direct 3) mem_cons_self rfl ⟨rfl, rfl⟩ wellTyped_tailCalling
  exact .step (reached_beforeTailCall _ trivial) trivial htail

end Kandelo.ForkInstrument.Machine
