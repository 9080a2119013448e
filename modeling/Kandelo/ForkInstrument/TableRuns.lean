import Kandelo.ForkInstrument.TableSound

/-!
# Every dispatch is admitted

The invariant of a run: the store is sound, every activation executes
sequences of its function's body, the current one has its known operands on the stack, and the
others wait behind a call, where nothing is known.
-/

namespace Kandelo.ForkInstrument

open TableTargets List

variable {fr fr' : Frame} {past : List Instr} {i : Instr} {m : Module} {t : TableTargets}
  {st st' : Store} {s : State} {stack : List Val} {g : FunctionId} {env : Env}

/-! ### Frames -/

namespace Frame

/-- The frame runs the body of its function. -/
def InBody (m : Module) (fr : Frame) : Prop :=
  ∃ body, m.bodyOf fr.func = some body ∧ ∀ c ∈ fr.ctrl, c.InBody body

/-- No operands are known in any of the entered sequences. -/
def Waiting (fr : Frame) : Prop := ∀ c ∈ fr.ctrl, knownStack c.past = []

/-- The operands known in the innermost sequence are on the stack. -/
structure Known (fr : Frame) : Prop where
  outer : ∀ c ∈ fr.ctrl.tail, knownStack c.past = []
  inner : ∀ c ∈ fr.ctrl.head?, knownStack c.past <+: fr.stack

lemma Waiting.known (h : fr.Waiting) (stack : List Val) : Known { fr with stack := stack } where
  outer c hc := h c (mem_of_mem_tail hc)
  inner c hc := by
    rw [h c (mem_of_mem_head? hc)]
    exact nil_prefix

lemma ctrl_of_current (h : fr.current = some (past, i)) :
    ∃ next rs ctls, fr.ctrl = ⟨past, i :: next, rs⟩ :: ctls ∧
      ∀ stack, fr.advance stack = ⟨fr.func, ⟨i :: past, next, rs⟩ :: ctls, stack⟩ := by
  unfold current at h
  split at h
  · next past' i' next rs ctls hctrl =>
    cases h
    refine ⟨next, rs, ctls, hctrl, fun stack => ?_⟩
    unfold advance
    rw [hctrl]
  · cases h

lemma InBody.occurs (h : fr.InBody m) (hi : fr.current = some (past, i)) :
    ∃ body, m.bodyOf fr.func = some body ∧ instrOccurrences past i ⊆ seqOccurrences [] body := by
  obtain ⟨body, hbody, hctrl⟩ := h
  obtain ⟨next, rs, ctls, heq, -⟩ := ctrl_of_current hi
  rw [heq] at hctrl
  exact ⟨body, hbody, (hctrl _ mem_cons_self).current⟩

lemma InBody.advance (h : fr.InBody m)
    (hi : fr.current = some (past, i)) (stack : List Val) : (fr.advance stack).InBody m := by
  obtain ⟨body, hbody, hctrl⟩ := h
  obtain ⟨next, rs, ctls, heq, hadv⟩ := ctrl_of_current hi
  rw [heq] at hctrl
  rw [hadv]
  refine ⟨body, hbody, fun c hc => ?_⟩
  rcases mem_cons.mp hc with rfl | hc
  · exact (hctrl _ mem_cons_self).advance
  · exact hctrl c (mem_cons_of_mem _ hc)

lemma Known.waiting_advance (h : fr.Known)
    (hi : fr.current = some (past, i)) (hnone : knownStack (i :: past) = []) (stack : List Val) :
    (fr.advance stack).Waiting := by
  obtain ⟨next, rs, ctls, heq, hadv⟩ := ctrl_of_current hi
  have houter := h.outer
  rw [heq] at houter
  rw [hadv]
  intro c hc
  rcases mem_cons.mp hc with rfl | hc
  · exact hnone
  · exact houter c hc

lemma Known.advance (h : fr.Known) (hi : fr.current = some (past, i))
    (hpre : knownStack past <+: fr.stack → knownStack (i :: past) <+: stack) :
    (fr.advance stack).Known := by
  obtain ⟨next, rs, ctls, heq, hadv⟩ := ctrl_of_current hi
  have houter := h.outer
  have hinner := h.inner
  rw [heq] at houter hinner
  rw [hadv]
  refine ⟨houter, fun c hc => ?_⟩
  cases hc
  exact hpre (hinner _ rfl)

lemma Known.outside (h : fr.Known) {inner : List Ctl} {c : Ctl} {ctls : List Ctl}
    (heq : fr.ctrl = inner ++ c :: ctls) : ∀ c' ∈ ctls, knownStack c'.past = [] := by
  intro c' hc'
  apply h.outer
  rw [heq]
  cases inner with
  | nil => exact hc'
  | cons => exact mem_append_right _ (mem_cons_of_mem _ hc')

end Frame

lemma knownStack_arith {past : List Instr} {a b : BitVec 32}
    (hpre : knownStack past <+: .num (.i32 b) :: .num (.i32 a) :: stack) :
    knownStack (.binop (.i32 .add) :: past) <+: .num (.i32 (a + b)) :: stack ∧
      knownStack (.binop (.i32 .sub) :: past) <+: .num (.i32 (a - b)) :: stack := by
  obtain ⟨tail, htail⟩ := hpre
  simp only [knownStack]
  split
  · next b' a' rest heq =>
    rw [heq] at htail
    obtain ⟨rfl, rfl, rfl⟩ := htail
    exact ⟨prefix_append _ _, prefix_append _ _⟩
  · exact ⟨List.nil_prefix, nil_prefix⟩

/-! ### Steps inside an activation -/

lemma FrameStep.store_sound (ha : Analysed m t)
    (hstep : FrameStep st fr st' fr') (hst : st.Sound m t) (hfr : fr.InBody m) : st'.Sound m t := by
  cases hstep with
  | table h hi =>
    obtain ⟨body, hbody, hocc⟩ := hfr.occurs h
    exact hst.tableOp ha hbody (hocc mem_instrOccurrences_self) hi
  | _ => exact hst

lemma FrameStep.inBody (hstep : FrameStep st fr st' fr') (h : fr.InBody m) : fr'.InBody m := by
  cases hstep with
  | const hi | add hi | sub hi | quiet hi | table hi => exact h.advance hi _
  | enter hi hb stack =>
    obtain ⟨body, hbody, hocc⟩ := h.occurs hi
    obtain ⟨body', hbody', hctrl⟩ := h.advance hi stack
    have hfunc : (fr.advance stack).func = fr.func := by
      obtain ⟨next, rs, ctls, -, hadv⟩ := Frame.ctrl_of_current hi
      rw [hadv]
    rw [hfunc, hbody] at hbody'
    cases hbody'
    have hsub := bodies_subset hb
    refine ⟨body, (congrArg m.bodyOf hfunc).trans hbody, fun c hc => ?_⟩
    rcases mem_cons.mp hc with rfl | hc
    · refine ⟨?_, fun s hs => ?_⟩
      · exact List.Subset.trans (hsub _ _ mem_cons_self) hocc
      · exact List.Subset.trans (hsub _ s (mem_cons_of_mem _ hs)) hocc
    · exact hctrl c hc
  | leave heq =>
    obtain ⟨body, hbody, hctrl⟩ := h
    rw [heq] at hctrl
    exact ⟨body, hbody, fun c hc => hctrl c (mem_append_right _ (mem_cons_of_mem _ hc))⟩
  | resume heq hs =>
    obtain ⟨body, hbody, hctrl⟩ := h
    rw [heq] at hctrl
    refine ⟨body, hbody, fun c hc => ?_⟩
    rcases mem_cons.mp hc with rfl | hc
    · have hin := hctrl _ (mem_append_right _ mem_cons_self)
      exact ⟨hin.resume _ hs, hin.resume⟩
    · exact hctrl c (mem_append_right _ (mem_cons_of_mem _ hc))

lemma FrameStep.known (hstep : FrameStep st fr st' fr') (h : fr.Known) : fr'.Known := by
  cases hstep with
  | const hi =>
    apply h.advance hi
    intro hpre
    exact (prefix_cons_inj _).mpr hpre
  | add hi hs =>
    apply h.advance hi
    intro hpre
    exact (knownStack_arith (hs ▸ hpre)).1
  | sub hi hs =>
    apply h.advance hi
    intro hpre
    exact (knownStack_arith (hs ▸ hpre)).2
  | quiet hi hq stack => exact (h.waiting_advance hi (knownStack_quiet hq _) stack).known _
  | table hi hop stack =>
    have hnil := knownStack_eq_nil (P := (Store.tableOp _ · _ = some _)) hop nofun nofun nofun
    exact (h.waiting_advance hi (hnil _) stack).known _
  | enter hi hb stack =>
    have hnil := knownStack_eq_nil (P := (_ ∈ ·.bodies)) hb nofun nofun nofun
    refine ⟨h.waiting_advance hi (hnil _) stack, fun c hc => ?_⟩
    cases hc
    exact nil_prefix
  | leave heq stack =>
    have hwaiting : Frame.Waiting ⟨fr.func, _, stack⟩ := h.outside heq
    exact hwaiting.known stack
  | resume heq =>
    refine ⟨h.outside heq, fun c hc => ?_⟩
    cases hc
    exact nil_prefix

/-! ### Runs -/

/-- An activation below the running one. -/
def Activation.Waiting (m : Module) : Activation → Prop
  | .wasm fr => fr.InBody m ∧ fr.Waiting
  | .host => True

/-- The activation at the top. -/
def Activation.Running (m : Module) : Activation → Prop
  | .wasm fr => fr.InBody m ∧ fr.Known
  | .host => True

/-- Invariant of a run. -/
structure State.Sound (m : Module) (t : TableTargets) (s : State) : Prop where
  store : s.store.Sound m t
  running : ∀ a ∈ s.acts.head?, a.Running m
  waiting : ∀ a ∈ s.acts.tail, a.Waiting m

lemma running_activate : (m.activate g).Running m := by
  unfold Module.activate
  split
  · next body hbody =>
    refine ⟨⟨body, hbody, fun c hc => ?_⟩, ⟨fun c hc => ?_, fun c hc => ?_⟩⟩
    · rw [mem_singleton.mp hc]
      exact ⟨List.Subset.refl _, fun s hs => absurd hs not_mem_nil⟩
    · cases hc
    · cases hc
      exact nil_prefix
  · trivial

lemma Activation.Running.waiting_advance (h : (Activation.wasm fr).Running m)
    (hi : fr.current = some (past, i)) (hnone : knownStack (i :: past) = []) (stack : List Val) :
    (Activation.wasm (fr.advance stack)).Waiting m :=
  ⟨h.1.advance hi stack, h.2.waiting_advance hi hnone stack⟩

lemma Step.sound (ha : Analysed m t) {s' : State}
    (hstep : Step m s s') (h : s.Sound m t) : s'.Sound m t := by
  obtain ⟨hstore, hrun, hwait⟩ := h
  -- What a call pushes, and what a tail call replaces.
  have hcall : ∀ {fr rest past i}, s.acts = .wasm fr :: rest → fr.current = some (past, i) →
      knownStack (i :: past) = [] → ∀ a ∈ Activation.wasm (fr.advance []) :: rest, a.Waiting m := by
    intro fr rest past i heq hi hnone a hmem
    rw [heq] at hrun hwait
    rcases mem_cons.mp hmem with rfl | hmem
    · exact Activation.Running.waiting_advance (hrun _ rfl) hi hnone []
    · exact hwait a hmem
  cases hstep with
  | frame hfs =>
    have hfr := hrun _ rfl
    refine ⟨hfs.store_sound ha hstore hfr.1, fun a hmem => ?_, hwait⟩
    cases hmem
    exact ⟨hfs.inBody hfr.1, hfs.known hfr.2⟩
  | call hi | callIndirect hi hc hg =>
    refine ⟨hstore, fun a hmem => ?_, hcall rfl hi rfl⟩
    cases hmem
    exact running_activate
  | returnCall hi | returnCallIndirect hi hc hg =>
    refine ⟨hstore, fun a hmem => ?_, hwait⟩
    cases hmem
    exact running_activate
  | callForeign hi =>
    refine ⟨hstore, fun a hmem => ?_, hcall rfl hi rfl⟩
    cases hmem
    trivial
  | returnCallForeign =>
    refine ⟨hstore, fun a hmem => ?_, hwait⟩
    cases hmem
    trivial
  | hostCall =>
    refine ⟨hstore, fun a hmem => ?_, fun a hmem => ?_⟩
    · cases hmem
      exact running_activate
    · rcases mem_cons.mp hmem with rfl | hmem
      · trivial
      · exact hwait a hmem
  | @ret st act rest stack =>
    cases rest with
    | nil =>
      refine ⟨hstore, fun a hmem => ?_, fun a hmem => ?_⟩
      · cases hmem
      · cases hmem
    | cons caller =>
      have hcaller := hwait caller mem_cons_self
      cases caller with
      | host =>
        refine ⟨hstore, fun a hmem => ?_, fun a hmem => hwait a (mem_cons_of_mem _ hmem)⟩
        cases hmem
        trivial
      | wasm =>
        refine ⟨hstore, fun a hmem => ?_, fun a hmem => hwait a (mem_cons_of_mem _ hmem)⟩
        cases hmem
        exact ⟨hcaller.1, hcaller.2.known stack⟩

lemma State.Sound.of_reachable (ha : Analysed m t)
    (hlocal : ∀ table ∈ m.tables, table.imported = false) (hinit : InitsKnown m env)
    (h : Reachable m env s) : s.Sound m t := by
  obtain ⟨st, hst, hrun⟩ := h
  induction hrun with
  | refl =>
    refine ⟨(instantiate_sound hlocal hinit hst).mono ha.le, fun a hmem => ?_, fun a hmem => ?_⟩
    · cases hmem
      trivial
    · cases hmem
  | tail _ hstep ih => exact hstep.sound ha ih

lemma Dispatches.slot (hs : s.Sound m t)
    {f : FunctionId} {call : IndirectCall} (h : Dispatches m s f call g) :
    (call, f) ∈ indirectCallers m ∧
      (∃ ty, functionTypeId m g = some ty ∧ typesMatch m call.ty ty = true) ∧
      ∃ slot, (s.store.tables call.table)[slot]? = some (.func g) ∧
        ∀ v, call.index = .const v → v.toNat = slot := by
  obtain ⟨fr, rest, past, i, hacts, rfl, hi, hcall, htarget⟩ := h
  have hfr : (Activation.wasm fr).Running m := hs.running _ (by rw [hacts]; rfl)
  refine ⟨?_, ?_⟩
  · obtain ⟨body, hbody, hocc⟩ := hfr.1.occurs hi
    refine mem_flatMap.mpr ⟨(fr.func, profile body), ?_, ?_⟩
    · exact mem_map.mpr ⟨(fr.func, body), Module.mem_localFuncs.mpr hbody, rfl⟩
    · refine mem_map.mpr ⟨call, ?_, rfl⟩
      exact mem_filterMap.mpr ⟨(past, i), hocc mem_instrOccurrences_self, hcall⟩
  simp only [dispatchTarget, Option.bind_eq_bind, Option.bind_eq_some_iff] at htarget
  obtain ⟨v, hv, slot, hslot, htarget⟩ := htarget
  split at htarget
  · next g' hg =>
    simp only [Option.bind_eq_some_iff] at htarget
    obtain ⟨ty, hty, htarget⟩ := htarget
    split at htarget
    · next hmatch =>
      cases htarget
      refine ⟨⟨ty, hty, hmatch⟩, slot, hg, fun w hw => ?_⟩
      -- The known operands are on the stack, and the inferred constant is the first of them.
      have hindex : call.index = inferCallIndirectIndex past := by
        unfold indirectCallAt at hcall
        split at hcall <;> cases hcall <;> rfl
      obtain ⟨stack, hknown⟩ := knownStack_of_inferCallIndirectIndex (hindex.symm.trans hw)
      obtain ⟨next, rs, ctls, hctrl, -⟩ := Frame.ctrl_of_current hi
      obtain ⟨tail, htail⟩ := hfr.2.inner _ (by rw [hctrl]; rfl)
      rw [hknown] at htail
      rw [← htail] at hv
      cases hv
      cases hslot
      rfl
    · cases htarget
  · cases htarget

/-- In every run of a module without imported tables whose table initialisers that read a
global do not evaluate to functions of the module, an indirect call that dispatches to `g` is
among the calls the analysis has collected for its function, its type matches, and the targets
let it reach `g`: it is an edge of the fork-path closure. -/
theorem tableCanDispatch_of_reachable {m : Module} {env : Env}
    (hlocal : ∀ table ∈ m.tables, table.imported = false) (hinit : InitsKnown m env) {s : State}
    (hs : Reachable m env s) {f g : FunctionId} {call : IndirectCall}
    (hd : Dispatches m s f call g) :
    ∃ t, tableTargets m = some t ∧ t.tableCanDispatch call g = true ∧
      (call, f) ∈ indirectCallers m ∧
      ∃ ty, functionTypeId m g = some ty ∧ typesMatch m call.ty ty = true := by
  obtain ⟨t, ht, hle, hlinked, hcopied⟩ := tableTargets_spec m
  have hsound := State.Sound.of_reachable ⟨hle, hlinked, hcopied⟩ hlocal hinit hs
  obtain ⟨hcaller, hty, slot, hslot, hindex⟩ := hd.slot hsound
  exact ⟨t, ht, tableCanDispatch_of_admits hlinked hindex (hsound.store.tables _ _ _ hslot),
    hcaller, hty⟩

/-- Function 0 is the imported `kernel_fork`; function 1 calls slot 0 of a table that an
expression initialises. -/
def callsSlotZero (init : ConstExpr) (elements : List Element) : Module where
  types := [⟨[], []⟩]
  imports := [⟨"kernel", "kernel_fork", true⟩]
  funcs := [⟨0, none⟩, ⟨0, some [.const (.i32 0), .callIndirect 0 0]⟩]
  tables := [⟨false, 1, some init⟩]
  elements := elements

/-- Every global holds `kernel_fork`. -/
def holdsFork : Env := ⟨fun _ => .ref (.func 0), fun _ => []⟩

/-- A frame before a call through slot 0. -/
def atSlotZeroCall : Frame := ⟨1, [⟨[.const (.i32 0)], [.callIndirect 0 0], []⟩], [.num (.i32 0)]⟩

/-- The call through slot 0. -/
def slotZeroCall : IndirectCall := ⟨0, 0, .const 0⟩

lemma reaches_call {init : ConstExpr} {elements : List Element} {st : Store}
    (h : instantiate (callsSlotZero init elements) env = some st) :
    Reachable (callsSlotZero init elements) env ⟨st, [.wasm atSlotZeroCall, .host]⟩ := by
  refine ⟨st, h, ?_⟩
  have hcall : Step (callsSlotZero init elements) ⟨st, [.host]⟩
      ⟨st, [(callsSlotZero init elements).activate 1, .host]⟩ := Step.hostCall 1
  exact (Relation.ReflTransGen.single hcall).tail (Step.frame (FrameStep.const rfl))

/-- Puts `kernel_fork` into slot 0. -/
def forkSegment : Element := ⟨.active 0 (.value (.i32 0)), .functions [0]⟩

/-- With `kernel_fork` in the slot by an element segment, the call is admitted. -/
theorem tableCanDispatch_active_segment :
    ∃ st, instantiate (callsSlotZero .refNull [forkSegment]) holdsFork = some st ∧
      Dispatches (callsSlotZero .refNull [forkSegment]) ⟨st, [.wasm atSlotZeroCall, .host]⟩ 1
        slotZeroCall 0 ∧
      ∃ t, tableTargets (callsSlotZero .refNull [forkSegment]) = some t ∧
        t.tableCanDispatch slotZeroCall 0 = true := by
  obtain ⟨st, hst, hd⟩ : ∃ st,
      instantiate (callsSlotZero .refNull [forkSegment]) holdsFork = some st ∧
        Dispatches (callsSlotZero .refNull [forkSegment]) ⟨st, [.wasm atSlotZeroCall, .host]⟩ 1
          slotZeroCall 0 :=
    ⟨_, rfl, atSlotZeroCall, [.host], _, _, rfl, rfl, rfl, rfl, rfl⟩
  obtain ⟨t, ht, hcan, -⟩ := tableCanDispatch_of_reachable (by simp [callsSlotZero])
    (by simp [InitsKnown, callsSlotZero, ConstExpr.readsGlobal]) (reaches_call hst) hd
  exact ⟨st, hst, hd, t, ht, hcan⟩

/-- A table initialised from a global that holds `kernel_fork`: the call dispatches to it, and the
targets do not let it. -/
theorem table_init_from_global_missed :
    ∃ st, instantiate (callsSlotZero (.global 0) []) holdsFork = some st ∧
      Reachable (callsSlotZero (.global 0) []) holdsFork ⟨st, [.wasm atSlotZeroCall, .host]⟩ ∧
      Dispatches (callsSlotZero (.global 0) []) ⟨st, [.wasm atSlotZeroCall, .host]⟩ 1
        slotZeroCall 0 ∧
      ∃ t, tableTargets (callsSlotZero (.global 0) []) = some t ∧
        t.tableCanDispatch slotZeroCall 0 = false := by
  refine ⟨_, rfl, reaches_call rfl, ?_, TableTargets.empty, ?_, rfl⟩
  · exact ⟨atSlotZeroCall, [.host], _, _, rfl, rfl, rfl, rfl, rfl⟩
  · decide

end Kandelo.ForkInstrument
