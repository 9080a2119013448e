import Kandelo.Lib.Fold
import Kandelo.ForkInstrument.RefPlan
import Kandelo.ForkInstrument.StackDiscipline

/-!
# Reference locals across a fork

A slot of an auxiliary table belongs to a local of a function, not to
an activation. Unwinding goes from the innermost activation outwards, so the slot keeps what the
outermost activation of the function has put there, and every activation of the function gets
that back.
-/

namespace Kandelo.ForkInstrument.Machine

open Lib List Instrumented

variable {r : RefLocalSlot} {acts : List Activation}

/-! ### Slots -/

section

variable {L : Var → Val} {refs : List RefLocalSlot} {aux : RefClass → List Ref}

lemma saveRefs_of_ne {c : RefClass} {i : Nat} (h : ∀ r ∈ refs, ¬(r.cls = c ∧ r.slot = i)) :
    (saveRefs L refs aux c)[i]? = (aux c)[i]? := by
  induction refs generalizing aux with
  | nil => rfl
  | cons r refs ih =>
    rw [saveRefs, ih fun r' hr' => h r' (mem_cons_of_mem _ hr')]
    split
    · next hc =>
      have hne : r.slot ≠ i := fun hi => h r mem_cons_self ⟨hc.symm, hi⟩
      split
      · exact getElem?_set_ne hne
      · rfl
    · rfl

lemma saveRefs_of_mem {v : Ref} (hr : r ∈ refs)
    (hv : L (.user r.local_) = .ref v) (hslot : r.slot < (aux r.cls).length)
    (hdistinct : ∀ r' ∈ refs, r'.cls = r.cls → r'.slot = r.slot → r' = r) :
    (saveRefs L refs aux r.cls)[r.slot]? = some v := by
  induction refs generalizing aux with
  | nil => cases hr
  | cons r' refs ih =>
    rw [saveRefs]
    by_cases hmem : r ∈ refs
    · refine ih hmem ?_ fun r'' hr'' => hdistinct r'' (mem_cons_of_mem _ hr'')
      split
      · split
        · rw [length_set]
          exact hslot
        · exact hslot
      · exact hslot
    · obtain rfl : r = r' := (mem_cons.mp hr).resolve_right hmem
      rw [saveRefs_of_ne, if_pos rfl, hv]
      · exact getElem?_set_self hslot
      rintro r'' hr'' ⟨hc, hs⟩
      rw [hdistinct r'' (mem_cons_of_mem _ hr'') hc hs] at hr''
      exact hmem hr''

lemma restoreRefs_of_mem (hr : r ∈ refs) (hnodup : (refs.map (·.local_)).Nodup) :
    restoreRefs aux refs L (.user r.local_) = .ref ((aux r.cls).getD r.slot .null) := by
  induction refs generalizing L with
  | nil => cases hr
  | cons r' refs ih =>
    rw [map_cons, nodup_cons] at hnodup
    rw [restoreRefs]
    rcases mem_cons.mp hr with rfl | hr
    · have hne : ∀ r' ∈ refs, Var.user r.local_ ≠ .user r'.local_ := by
        intro r' hr' heq
        exact hnodup.1 (mem_map.mpr ⟨r', hr', (Var.user.inj heq).symm⟩)
      rw [restoreRefs_of_ne hne, if_pos rfl]
    · exact ih hr hnodup.2

end

/-! ### Planned modules -/

/-- The locals of a function that the frame cannot hold. -/
def Instrumented.IsRefLocal (I : Instrumented) (f : FunctionId) (x : LocalId) : Prop :=
  x ∈ collectUserLocals (I.params f) ((I.module.bodyOf f).getD []) ∧
    isScalar (I.userTy f x) = false

/-- The plan for the reference locals of a module, `plan_and_inject_aux_tables`. -/
structure RefPlan (I : Instrumented) where
  targets : List FunctionId
  tryTables : Nat
  plan : List (FunctionId × List RefLocalSlot)
  sizes : Cursors
  planned : planAuxTables (targets.map fun f => (f, I.userLocals f)) tryTables =
    some (plan, sizes)
  /-- Each instrumented function saves and restores what the plan lists for it. -/
  layout_refs : ∀ f, I.IsTarget f → (f, (I.layout f).refs) ∈ plan

namespace RefPlan

variable {I : Instrumented} {f g : FunctionId}

lemma map_local_refs (P : RefPlan I) (hf : I.IsTarget f) :
    (I.layout f).refs.map (·.local_) =
      ((I.userLocals f).filter fun x => !isScalar x.2).map (·.1) := by
  obtain ⟨locals, hmem, heq⟩ := (planAuxTables_spec P.planned).locals _ (P.layout_refs f hf)
  obtain ⟨f', -, hf'⟩ := mem_map.mp hmem
  obtain ⟨rfl, rfl⟩ := Prod.mk.inj hf'
  exact heq

lemma nodup_refs (P : RefPlan I) (hf : I.IsTarget f) :
    ((I.layout f).refs.map (·.local_)).Nodup := by
  rw [P.map_local_refs hf]
  have hnodup : ((I.userLocals f).map (·.1)).Nodup := by
    unfold userLocals
    rw [map_map]
    have hid : ((·.1) ∘ fun x => (x, I.userTy f x) : LocalId → LocalId) = id := rfl
    rw [hid, map_id]
    exact (firstSeen_spec [] _).1
  exact hnodup.sublist (filter_sublist.map _)

lemma isRefLocal_iff (P : RefPlan I) (hf : I.IsTarget f) {x : LocalId} :
    I.IsRefLocal f x ↔ ∃ r ∈ (I.layout f).refs, r.local_ = x := by
  rw [← mem_map (f := fun r : RefLocalSlot => r.local_), P.map_local_refs hf]
  simp [Instrumented.IsRefLocal, userLocals]

lemma eq_of_same_slot (P : RefPlan I) (hf : I.IsTarget f) (hg : I.IsTarget g) {r' : RefLocalSlot}
    (hr : r ∈ (I.layout f).refs) (hr' : r' ∈ (I.layout g).refs) (hcls : r.cls = r'.cls)
    (hslot : r.slot = r'.slot) : f = g ∧ r = r' :=
  Prod.mk.inj ((planAuxTables_spec P.planned).distinct _ (mem_planEntries (P.layout_refs f hf) hr) _
    (mem_planEntries (P.layout_refs g hg) hr') hcls hslot)

end RefPlan

/-! ### What the slots hold after unwinding -/

namespace Instrumented

variable {I : Instrumented} {aux : RefClass → List Ref} {a : Activation}

lemma savedRefs_outermost (P : RefPlan I) (inner : List Activation) {outer : List Activation}
    (htargets : ∀ b ∈ a :: outer, I.IsTarget b.func) (houter : ∀ b ∈ outer, b.func ≠ a.func)
    (ht : I.WellTyped a.func a.locals aux) (hr : r ∈ (I.layout a.func).refs) {v : Ref}
    (hv : a.locals (.user r.local_) = .ref v) :
    (I.savedRefs (inner ++ a :: outer) aux r.cls).getD r.slot .null = v := by
  have ha := htargets a mem_cons_self
  have hlen : r.slot < (I.savedRefs inner aux r.cls).length := by
    rw [length_savedRefs]
    exact (ht.slots r hr).2.1
  have hsaved : (saveRefs a.locals (I.layout a.func).refs (I.savedRefs inner aux) r.cls)[r.slot]? =
      some v := by
    refine saveRefs_of_mem hr hv hlen fun r' hr' hcls hslot => ?_
    exact (P.eq_of_same_slot ha ha hr' hr hcls hslot).2
  -- The activations further out belong to other functions, so they leave the slot alone.
  have hkept : (I.savedRefs (inner ++ a :: outer) aux r.cls)[r.slot]? = some v := by
    unfold savedRefs
    rw [foldl_append, foldl_cons]
    refine Fold.foldl_keeps (I := fun aux' : RefClass → List Ref => (aux' r.cls)[r.slot]? = some v)
      (fun aux' b hb hslot => ?_) hsaved
    rw [saveRefs_of_ne]
    · exact hslot
    · rintro r' hr' ⟨hcls, hs⟩
      exact houter b hb (P.eq_of_same_slot (htargets b (mem_cons_of_mem _ hb)) ha hr' hr hcls hs).1
  rw [getD_eq_getElem?_getD, hkept, Option.getD_some]

lemma exists_restored_eq (P : RefPlan I) (init : FunctionId → Var → Val)
    (hacts : ∀ b ∈ acts, I.IsTarget b.func ∧ I.WellTyped b.func b.locals aux) {f : FunctionId}
    (hf : ∃ a ∈ acts, a.func = f) :
    ∃ c ∈ acts, c.func = f ∧ ∀ a ∈ acts, a.func = f → ∀ r ∈ (I.layout f).refs,
      I.restored init (I.savedRefs acts aux) a (.user r.local_) = c.locals (.user r.local_) := by
  obtain ⟨a0, ha0, hfunc0⟩ := hf
  obtain ⟨inner, c, outer, heq, rfl, houter⟩ :=
    Fold.exists_last (p := fun b : Activation => b.func = f) ha0 hfunc0
  have hmem : ∀ b ∈ c :: outer, b ∈ acts := by
    intro b hb
    rw [heq]
    exact mem_append_right _ hb
  obtain ⟨hc, hct⟩ := hacts c (hmem c mem_cons_self)
  refine ⟨c, hmem c mem_cons_self, rfl, fun a _ hfunc r hr => ?_⟩
  obtain ⟨v, hv⟩ := hct.refs r hr
  have hslot := savedRefs_outermost P inner (fun b hb => (hacts b (hmem b hb)).1) houter hct hr hv
  rw [← heq] at hslot
  rw [restored, restoredLocals, hfunc, restoreRefs_of_mem hr (P.nodup_refs hc), hslot, hv]

variable {init : FunctionId → Var → Val} {start : Nat}

/-- Any two live activations of a function have the same references. -/
def RefsAgree (I : Instrumented) (acts : List Activation) : Prop :=
  ∀ a ∈ acts, ∀ b ∈ acts, a.func = b.func → ∀ x, I.IsRefLocal a.func x →
    a.locals (.user x) = b.locals (.user x)

/-- Every re-entered activation has the references it was saved with. -/
def RefsRestored (I : Instrumented) (es : List Entered) (acts : List Activation) : Prop :=
  ∀ p ∈ es.zip acts, ∀ x, I.IsRefLocal p.2.func x → p.1.locals (.user x) = p.2.locals (.user x)

lemma mem_zip_entered {p : Entered × Activation}
    (h : p ∈ (I.entered init aux start acts).zip acts) :
    p.2 ∈ acts ∧ p.1.locals = I.restored init aux p.2 := by
  induction acts with
  | nil => cases h
  | cons a acts ih =>
    rcases mem_cons.mp h with rfl | h
    · exact ⟨mem_cons_self, rfl⟩
    · exact ⟨mem_cons_of_mem _ (ih h).1, (ih h).2⟩

lemma exists_mem_zip_entered (h : a ∈ acts) :
    ∃ e, (e, a) ∈ (I.entered init aux start acts).zip acts := by
  induction acts with
  | nil => cases h
  | cons b acts ih =>
    rcases mem_cons.mp h with rfl | h
    · exact ⟨_, mem_cons_self⟩
    · obtain ⟨e, he⟩ := ih h
      exact ⟨e, mem_cons_of_mem _ he⟩

lemma refsRestored_iff (P : RefPlan I) (init : FunctionId → Var → Val)
    (hacts : ∀ b ∈ acts, I.IsTarget b.func ∧ I.WellTyped b.func b.locals aux) :
    I.RefsRestored (I.entered init (I.savedRefs acts aux) start acts.reverse) acts.reverse ↔
      I.RefsAgree acts := by
  constructor
  · intro hrestored a ha b hb hfunc x hx
    obtain ⟨r, hr, rfl⟩ := (P.isRefLocal_iff (hacts a ha).1).mp hx
    obtain ⟨c, -, -, heq⟩ := exists_restored_eq P init hacts ⟨a, ha, rfl⟩
    have hsaved : ∀ d ∈ acts, d.func = a.func →
        d.locals (.user r.local_) = c.locals (.user r.local_) := by
      intro d hd hdf
      obtain ⟨e, he⟩ := exists_mem_zip_entered (I := I) (mem_reverse.mpr hd)
      have hback := hrestored _ he r.local_ (hdf ▸ hx)
      rw [(mem_zip_entered he).2] at hback
      rw [← hback]
      exact heq d hd hdf r hr
    rw [hsaved a ha rfl, hsaved b hb hfunc.symm]
  · intro hagree p hp x hx
    obtain ⟨hmem, hlocals⟩ := mem_zip_entered hp
    have ha := mem_reverse.mp hmem
    obtain ⟨r, hr, rfl⟩ := (P.isRefLocal_iff (hacts p.2 ha).1).mp hx
    obtain ⟨c, hc, hcf, heq⟩ := exists_restored_eq P init hacts ⟨p.2, ha, rfl⟩
    rw [hlocals, heq p.2 ha rfl r hr]
    exact (hagree p.2 ha c hc hcf.symm r.local_ hx).symm

end Instrumented

/-- After a fork and a resume in the same instance, every activation has its own references
again exactly if any two live activations of a function had the same ones. -/
theorem Instrumented.refs_restored {I : Instrumented} (P : RefPlan I) {s : CallState}
    (hreached : I.Reached (· ≠ .tailCall) s) {site buf : Nat} (init : FunctionId → Var → Val)
    (hfork : I.target s.world s.func site s.locals = some I.fork)
    (hheld : I.IndirectHeld s.world I.fork (Instrumented.live s site))
    (hready : I.Ready (Instrumented.live s site) buf s.world) :
    ∃ w0 frames w1 w2 w3 entered, I.runtime.unwindBegin buf s.world = some w0 ∧
      I.unwind (Instrumented.live s site) w0 = some (frames, w1) ∧
      I.runtime.rewindBegin buf w1 = some w2 ∧
      I.rewind init (Instrumented.live s site).length (Instrumented.root s) w2 =
        some (entered, w3) ∧
      entered.length = (Instrumented.live s site).length ∧
      (I.RefsRestored entered (Instrumented.live s site).reverse ↔
        I.RefsAgree (Instrumented.live s site)) := by
  have hnested := nested_of_reached hreached
  have hacts : ∀ a ∈ live s site, I.IsTarget a.func ∧ I.WellTyped a.func a.locals s.world.aux := by
    intro a ha
    rcases mem_cons.mp ha with rfl | ha
    · exact hnested.running
    · exact hnested.waiting a ha
  obtain ⟨w0, w1, w2, w3, hbegin, hunwind, htables, haux, hrewind, hrun, -⟩ :=
    fork_cycle hnested s.world.tables
      (I.savedRefs (live s site) s.world.aux) init hfork hheld
      (length_savedRefs _ _) hready
  rw [← htables, ← haux] at hrewind
  refine ⟨w0, _, w1, w2, w3, _, hbegin, hunwind, hrewind, hrun, ?_, refsRestored_iff P init hacts⟩
  rw [← length_map (f := (·.frame)), map_frame_entered,
    framesDown_reverse, length_reverse, length_framesUp]

/-! ### A recursive function with a reference local -/

/-- A function that calls itself and then forks. -/
def recursiveModule : Module where
  types := [⟨[], []⟩]
  imports := [⟨"kernel", "kernel_fork", true⟩]
  funcs := [⟨0, none⟩, ⟨0, some [.localGet 0, .prim 0 1 [], .localGet 1,
    .ifElse 1 2 ⟨[], []⟩ [.call 1] [], .call 0]⟩]
  tables := []
  elements := []

/-- The module instrumented: local 0 is an `externref`, local 1 the flag. -/
def recursive : Instrumented where
  module := recursiveModule
  forkPath _ := true
  fork := 0
  runtime := injectRuntime .i32 [] 0
  env := idleEnv
  varTy _ x := if x = .user 0 then .externref else .i32
  params _ := []
  ordinal _ := 0
  carryovers _ := []
  catchState _ := false
  refs _ := [⟨0, .externref, 0⟩]
  ptr_eq := idleEnv_ptr
  fork_import := rfl
  sites_lt f body h := by
    match f with
    | 0 => cases h
    | 1 => cases h; decide
    | f + 2 => cases h

/-- The plan gives the `externref` the first slot. -/
def recursivePlan : RefPlan recursive where
  targets := [1]
  tryTables := 0
  plan := [(1, [⟨0, .externref, 0⟩])]
  sizes c := if c = .externref then 1 else 0
  planned := by
    refine congrArg some (Prod.ext rfl (funext fun c => ?_))
    cases c <;> rfl
  layout_refs f h := by
    match f with
    | 0 => cases h.2
    | 1 => exact mem_cons_self
    | f + 2 => cases h.2

/-- A reference in local 0 and a flag in the others. -/
def refAndFlag (r : Ref) (flag : BitVec 32) : Var → Val :=
  fun x => if x = .user 0 then .ref r else .num (.i32 flag)

/-- A world with one slot for an `externref`. -/
def oneSlotWorld : World :=
  { zeroWorld with aux := fun c => if c = .externref then [.null] else [] }

lemma wellTyped_recursive {r : Ref} {flag : BitVec 32} :
    recursive.WellTyped 1 (refAndFlag r flag) oneSlotWorld.aux := by
  refine ⟨⟨fun x hx => ?_, fun h => (by cases h)⟩, fun x hx => ?_, fun x hx => ?_⟩
  · rw [mem_singleton.mp hx]
    exact ⟨rfl, .i32 flag, rfl, rfl⟩
  · rw [mem_singleton.mp hx]
    decide
  · rw [mem_singleton.mp hx]
    exact ⟨r, rfl⟩

/-- The function has called itself; the outer activation holds a reference, the inner one none. -/
def twoActivations : CallState :=
  ⟨oneSlotWorld, 1, refAndFlag .null 0, [⟨1, 0, refAndFlag (.foreign 7) 1⟩]⟩

lemma reached_twoActivations : recursive.Reached (· ≠ .tailCall) twoActivations := by
  have hstart : recursive.Reached (· ≠ .tailCall)
      ⟨oneSlotWorld, 1, refAndFlag (.foreign 7) 1, []⟩ :=
    .start ⟨rfl, rfl⟩ wellTyped_recursive
  have hcall : recursive.CallStep .call ⟨oneSlotWorld, 1, refAndFlag (.foreign 7) 1, []⟩
      twoActivations :=
    .call rfl ⟨rfl, rfl⟩ wellTyped_recursive
  exact .step hstart (by decide) hcall

lemma ready_twoActivations : recursive.Ready (live twoActivations 1) 64 oneSlotWorld := by
  have hstart : recursive.runtime.framesStartOffset = 8 := rfl
  have htotal : recursive.total (live twoActivations 1) = 40 := rfl
  have hsize : oneSlotWorld.mem.size = 256 := rfl
  have hspace : recursive.env.ptr.space = 4294967296 := rfl
  exact ⟨by omega, by omega, fun _ _ => hasDefaults_of_types rfl _⟩

/-- The two activations resume. -/
theorem refs_restored_twoActivations :
    ∃ w0 frames w1 w2 w3 entered, recursive.runtime.unwindBegin 64 oneSlotWorld = some w0 ∧
      recursive.unwind (Instrumented.live twoActivations 1) w0 = some (frames, w1) ∧
      recursive.runtime.rewindBegin 64 w1 = some w2 ∧
      recursive.rewind (fun _ => zeroLocals) 2 1 w2 = some (entered, w3) ∧
      entered.length = 2 ∧
      (recursive.RefsRestored entered (Instrumented.live twoActivations 1).reverse ↔
        recursive.RefsAgree (Instrumented.live twoActivations 1)) :=
  refs_restored recursivePlan (s := twoActivations) reached_twoActivations
    (fun _ => zeroLocals) rfl ⟨fun _ h => (by cases h), fun _ h => (by cases h), trivial⟩
    ready_twoActivations

/-- The inner activation, which held no reference, comes back with that of the outer one. -/
theorem inner_activation_gets_outer_ref :
    recursive.Reached (· ≠ .tailCall) twoActivations ∧
      (Instrumented.live twoActivations 1).map (·.locals (.user 0)) =
        [.ref .null, .ref (.foreign 7)] ∧
      (do
        let w0 ← recursive.runtime.unwindBegin 64 oneSlotWorld
        let (_, w1) ← recursive.unwind (Instrumented.live twoActivations 1) w0
        let w2 ← recursive.runtime.rewindBegin 64 w1
        let (entered, _) ← recursive.rewind (fun _ => zeroLocals) 2 1 w2
        some (entered.reverse.map (·.locals (.user 0)))) =
      some [.ref (.foreign 7), .ref (.foreign 7)] :=
  ⟨reached_twoActivations, rfl, by decide +kernel⟩

end Kandelo.ForkInstrument.Machine
