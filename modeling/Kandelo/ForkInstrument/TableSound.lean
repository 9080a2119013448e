import Kandelo.ForkInstrument.TableTargets
import Kandelo.ForkInstrument.TableExec

/-!
# Soundness of the table analysis

Whatever function a slot holds in a run, the targets admit it there.
The index inferred for a call is the one on the stack, because the operands an unbroken run of
constants, additions and subtractions leaves are known. Control stays within the occurrences of
the function's body, so every instruction a run executes is one the analysis has read.
-/

namespace Kandelo.ForkInstrument

open Lib TableTargets List Fold Store Slice

variable {stack : List Val} {elem : ElementId} {k : Nat} {seq next : List Instr} {past : List Instr}
  {v : BitVec 32} {i : Instr} {st st' : Store} {globals : GlobalId → Val} {e : ConstExpr}
  {f : FunctionId} {table : TableId} {refs : List Ref} {id : ElementId} {rs : List (List Instr)}
  {r : Ref} {op : BitVec 32 → BitVec 32 → BitVec 32} {s' s : List (BitVec 32)}

/-! ### Inferred indices -/

/-- Operands that the instructions behind, last to first, are known to have left on top. -/
def knownStack : List Instr → List Val
  | .const v :: past => .num v :: knownStack past
  | .binop (.i32 .add) :: past =>
    match knownStack past with
    | .num (.i32 b) :: .num (.i32 a) :: stack => .num (.i32 (a + b)) :: stack
    | _ => []
  | .binop (.i32 .sub) :: past =>
    match knownStack past with
    | .num (.i32 b) :: .num (.i32 a) :: stack => .num (.i32 (a - b)) :: stack
    | _ => []
  | _ => []

lemma knownStack_of_inferI32Expr {fuel : Nat} {rest : List Instr}
    (h : inferI32Expr fuel past = some (.const v, rest)) :
    knownStack past = .num (.i32 v) :: knownStack rest := by
  induction fuel generalizing past rest v with
  | zero => cases h
  | succ fuel ih =>
    cases past with
    | nil => cases h
    | cons =>
      unfold inferI32Expr at h
      split at h
      · cases h
        rfl
      · next op =>
        split at h
        · next hop =>
          simp only [Option.bind_eq_bind, Option.bind_eq_some_iff, Option.some.injEq,
            Prod.mk.injEq] at h
          obtain ⟨⟨rhs, past1⟩, hrhs, ⟨lhs, past2⟩, hlhs, hproof, hrest⟩ := h
          -- A known sum has two known operands, which stand in the order the code pops them.
          cases lhs with
          | unknown => cases hproof
          | const =>
            cases rhs with
            | unknown => cases hproof
            | const =>
              have hb := ih hrhs
              have ha := ih hlhs
              rcases hop with rfl | rfl
              all_goals
                cases hproof
                cases hrest
                simp only [knownStack, hb, ha]
                rfl
        · cases h
      · cases h

lemma knownStack_of_inferCallIndirectIndex (h : inferCallIndirectIndex past = .const v) :
    ∃ stack, knownStack past = .num (.i32 v) :: stack := by
  unfold inferCallIndirectIndex at h
  cases hinfer : inferI32Expr (past.length + 1) past with
  | none =>
    rw [hinfer] at h
    cases h
  | some r =>
    rw [hinfer] at h
    have hr : r.1 = .const v := h
    exact ⟨_, knownStack_of_inferI32Expr (hinfer.trans (congrArg some (Prod.ext hr rfl)))⟩

lemma knownStack_eq_nil {P : Instr → Prop} (h : P i) (hconst : ∀ v, ¬P (.const v))
    (hadd : ¬P (.binop (.i32 .add))) (hsub : ¬P (.binop (.i32 .sub))) (past : List Instr) :
    knownStack (i :: past) = [] := by
  unfold knownStack
  split <;> simp_all

lemma knownStack_quiet (h : i.isQuiet = true) : ∀ past, knownStack (i :: past) = [] :=
  knownStack_eq_nil (P := (·.isQuiet = true)) h nofun nofun nofun

/-! ### Constant expressions -/

/-- 32-bit operands. -/
private def i32Vals (s : List (BitVec 32)) : List Val := s.map fun v => .num (.i32 v)

lemma evalI32_of_binaryI32 (h : binaryI32 op s = some s') :
    evalI32 op (i32Vals s) = some (i32Vals s') := by
  unfold binaryI32 at h
  split at h
  · cases h
    rfl
  · cases h

lemma evalConstOp_of_constOpI32 {op : ConstOp} (h : constOpI32 s op = some s') :
    evalConstOp globals (i32Vals s) op = some (i32Vals s') := by
  cases op with
  | const v =>
    cases v with
    | i32 =>
      cases h
      rfl
    | _ => cases h
  | i32Add | i32Sub | i32Mul => exact evalI32_of_binaryI32 h
  | _ => cases h

lemma foldlM_constOpI32 {ops : List ConstOp} (h : ops.foldlM constOpI32 s = some s') :
    ops.foldlM (evalConstOp globals) (i32Vals s) = some (i32Vals s') := by
  induction ops generalizing s with
  | nil =>
    cases h
    rfl
  | cons op ops ih =>
    rw [foldlM_cons, Option.bind_eq_bind, Option.bind_eq_some_iff] at h ⊢
    obtain ⟨s1, hop, h⟩ := h
    exact ⟨i32Vals s1, evalConstOp_of_constOpI32 hop, ih h⟩

lemma evalConst_of_constExprI32 (h : constExprI32 e = some v) :
    evalConst globals e = some (.num (.i32 v)) := by
  unfold constExprI32 at h
  split at h
  · cases h
    rfl
  · next ops =>
    split at h
    · next w hops =>
      cases h
      simp only [evalConst]
      rw [show ([] : List Val) = i32Vals [] from rfl, foldlM_constOpI32 hops]
      rfl
    · cases h
  · cases h

lemma constExprRef_mayBe (h : evalRef globals e = some (.func f)) : (constExprRef e).MayBe f := by
  unfold constExprRef
  split
  · left
    simpa [evalRef, evalConst] using h
  · simp [evalRef, evalConst] at h
  · left
    simpa [evalRef, evalConst, evalConstOp] using h
  · simp [evalRef, evalConst, evalConstOp] at h
  · exact .inr rfl

/-- Whether the expression depends on a global. -/
def ConstExpr.readsGlobal : ConstExpr → Bool
  | .global _ => true
  | .extended ops => ops.any fun
    | .globalGet _ => true
    | _ => false
  | _ => false

lemma ref_mem_of_evalI32 {s s' : List Val} (h : evalI32 op s = some s') (hr : .ref r ∈ s') :
    .ref r ∈ s := by
  unfold evalI32 at h
  split at h
  · cases h
    simpa using hr
  · cases h

lemma ref_mem_of_evalI64 {op : BitVec 64 → BitVec 64 → BitVec 64} {s s' : List Val}
    (h : evalI64 op s = some s') (hr : .ref r ∈ s') : .ref r ∈ s := by
  unfold evalI64 at h
  split at h
  · cases h
    simpa using hr
  · cases h

lemma refFunc_mem_of_evalConstOp {s s' : List Val}
    {op : ConstOp} (hop : evalConstOp globals s op = some s') (hglobal : ∀ g, op ≠ .globalGet g)
    {f : FunctionId} (hf : .ref (.func f) ∈ s') : .ref (.func f) ∈ s ∨ op = .refFunc f := by
  cases op with
  | const v | refNull =>
    cases hop
    exact .inl (by simpa using hf)
  | i32Add | i32Sub | i32Mul => exact .inl (ref_mem_of_evalI32 hop hf)
  | i64Add | i64Sub | i64Mul => exact .inl (ref_mem_of_evalI64 hop hf)
  | globalGet g => exact absurd rfl (hglobal g)
  | refFunc =>
    cases hop
    rcases mem_cons.mp hf with heq | hf
    · cases heq
      exact .inr rfl
    · exact .inl hf

lemma mem_constExprFunctions_of_evalRef (h : evalRef globals e = some (.func f))
    (hglobal : e.readsGlobal = false) :
    f ∈ constExprFunctions e := by
  cases e with
  | value => simp [evalRef, evalConst] at h
  | global => cases hglobal
  | refNull => simp [evalRef, evalConst] at h
  | refFunc g =>
    have hg : g = f := by simpa [evalRef, evalConst] using h
    exact hg ▸ mem_singleton_self g
  | extended ops =>
    simp only [evalRef, evalConst] at h
    split at h
    · next r hv =>
      cases h
      split at hv
      · next v hops =>
        cases hv
        have hnamed := foldlM_keeps (I := fun s => .ref (.func f) ∈ s → .refFunc f ∈ ops)
          (fun s op s' hmem hop hI hf => ?_) hops (fun hf => absurd hf not_mem_nil)
        · exact mem_filterMap.mpr ⟨.refFunc f, hnamed (mem_singleton_self _), rfl⟩
        have hop' : ∀ g, op ≠ .globalGet g := by
          rintro g rfl
          have hany := any_eq_false.mp hglobal _ hmem
          exact hany rfl
        rcases refFunc_mem_of_evalConstOp hop hop' hf with hs | rfl
        · exact hI hs
        · exact hmem
      · cases hv
    · cases h

/-! ### Stores -/

variable (m : Module) {t : TableTargets} {body : List Instr} {g : FunctionId}

/-- Table initialisers that read a global do not evaluate to a function of the module. -/
def InitsKnown (env : Env) : Prop :=
  ∀ table ∈ m.tables, ∀ e, table.init = some e → e.readsGlobal = true →
    ∀ f, evalRef env.globals e ≠ some (.func f)

namespace Store

/-- Every function in a table is one that the analysis admits there. -/
def TablesSound (t : TableTargets) (st : Store) : Prop :=
  ∀ table slot f, (st.tables table)[slot]? = some (.func f) → t.Admits table slot f

/-- Functions in a segment are items of it, at the same position. -/
def ElemsSound (st : Store) : Prop :=
  ∀ (id : ElementId) (k : Nat) (f : FunctionId), (st.elems id)[k]? = some (Ref.func f) →
    ∃ elem, m.elements[id]? = some elem ∧
      ∃ r : ElementItemRef, (elementItemRefs elem.items)[k]? = some r ∧ r.MayBe f

/-- Only passive segments still have items. -/
def OnlyPassive (st : Store) : Prop :=
  ∀ id elem, m.elements[id]? = some elem → elem.kind ≠ .passive → st.elems id = []

lemma TablesSound.setTable (h : st.TablesSound t)
    (hrefs : ∀ slot f, refs[slot]? = some (.func f) → t.Admits table slot f) :
    (st.setTable table refs).TablesSound t := by
  intro table' slot f hslot
  unfold Store.setTable at hslot
  dsimp only at hslot
  by_cases heq : table' = table
  · rw [if_pos heq] at hslot
    rw [heq]
    exact hrefs slot f hslot
  · rw [if_neg heq] at hslot
    exact h table' slot f hslot

lemma TablesSound.writeRange (h : st.TablesSound t) {i : Nat} {new : List Ref}
    (hwrite : writeRange (st.tables table) i new = some refs)
    (hnew : ∀ k f, new[k]? = some (.func f) → t.Admits table (i + k) f) :
    (st.setTable table refs).TablesSound t := by
  apply h.setTable
  intro slot f hslot
  rcases getElem?_of_writeRange hwrite hslot with hold | ⟨k, rfl, hk⟩
  · exact h table slot f hold
  · exact hnew k f hk

lemma elems_dropElem_subset (h : ((st.dropElem elem).elems id)[k]? = some r) :
    (st.elems id)[k]? = some r := by
  unfold dropElem at h
  dsimp only at h
  split at h
  · cases h
  · exact h

lemma ElemsSound.dropElem {m : Module} (h : st.ElemsSound m) (elem : ElementId) :
    (st.dropElem elem).ElemsSound m :=
  fun id k f hk => h id k f (elems_dropElem_subset hk)

lemma elems_eq_nil_dropElem (h : st.elems id = []) : (st.dropElem elem).elems id = [] := by
  unfold dropElem
  dsimp only
  split
  · rfl
  · exact h

lemma OnlyPassive.dropElem {m : Module} (h : st.OnlyPassive m) (elem : ElementId) :
    (st.dropElem elem).OnlyPassive m :=
  fun id e he hkind => elems_eq_nil_dropElem (h id e he hkind)

end Store

/-! ### Instantiation -/

section

variable {m : Module} {env : Env} {elem : ElementId × Element}

lemma elementItemRefs_mayBe {items : ElementItems} (h : evalItems globals items = some refs)
    (hk : refs[k]? = some (.func f)) :
    ∃ r, (elementItemRefs items)[k]? = some r ∧ r.MayBe f := by
  cases items with
  | functions =>
    cases h
    rw [getElem?_map, Option.map_eq_some_iff] at hk
    obtain ⟨g, hg, heq⟩ := hk
    cases heq
    refine ⟨.func f, ?_, .inl rfl⟩
    simp [elementItemRefs, hg]
  | expressions =>
    obtain ⟨e, he, hf⟩ := getElem?_of_mapM h hk
    refine ⟨constExprRef e, ?_, constExprRef_mayBe hf⟩
    simp [elementItemRefs, he]

lemma admitsAll_of_initialTable (hlocal : ∀ t ∈ m.tables, t.imported = false)
    (hinit : InitsKnown m env) {id : TableId} {table : Table} (ht : m.tables[id]? = some table)
    (h : initialTable env id table = some refs)
    (hf : .func f ∈ refs) : (initialTargets m).AdmitsAll id f := by
  have hmem := mem_of_getElem? ht
  unfold initialTable at h
  rw [hlocal table hmem] at h
  simp only [Bool.false_eq_true, if_false] at h
  split at h
  · cases h
    exact absurd (eq_of_mem_replicate hf) (by simp)
  next e he =>
  rw [Option.map_eq_some_iff] at h
  obtain ⟨r, hr, rfl⟩ := h
  rw [← eq_of_mem_replicate hf] at hr
  have hreads : e.readsGlobal = false := by
    by_contra hreads
    exact hinit table hmem e he (Bool.not_eq_false _ ▸ hreads) f hr
  apply AdmitsAll.mono (le_foldl _ (le_addElement _) _)
  apply foldl_reaches _ (fun _ _ h => AdmitsAll.mono h) le_addInit (Slice.mem_enumerate.mpr ht)
  intro t
  simp only [he]
  exact t.admitsAll_addTableFuncs _ (mem_constExprFunctions_of_evalRef hr hreads)

lemma getElem?_getD {α : Type} {xss : List (List α)} {i k : Nat} {x : α}
    (h : (xss.getD i [])[k]? = some x) : ∃ xs, xss[i]? = some xs ∧ xs[k]? = some x := by
  rw [getD_eq_getElem?_getD] at h
  cases hi : xss[i]? with
  | none =>
    rw [hi] at h
    cases h
  | some xs =>
    rw [hi] at h
    exact ⟨xs, rfl, h⟩

lemma allocate_sound (hlocal : ∀ t ∈ m.tables, t.imported = false) (hinit : InitsKnown m env)
    (h : allocate m env = some st) : st.TablesSound (initialTargets m) ∧ st.ElemsSound m := by
  unfold allocate at h
  simp only [Option.bind_eq_bind, Option.bind_eq_some_iff] at h
  obtain ⟨tables, htables, elems, helems, h⟩ := h
  cases h
  constructor
  · intro id slot f hslot
    obtain ⟨refs, hrefs, hslot⟩ := getElem?_getD hslot
    obtain ⟨x, hx, hinitial⟩ := getElem?_of_mapM htables hrefs
    obtain ⟨hid, hx⟩ := getElem?_of_enumerate hx
    rw [← hid] at hx ⊢
    exact .inl (admitsAll_of_initialTable hlocal hinit hx hinitial (mem_of_getElem? hslot))
  · intro id k f hk
    obtain ⟨refs, hrefs, hk⟩ := getElem?_getD hk
    obtain ⟨elem, helem, hitems⟩ := getElem?_of_mapM helems hrefs
    exact ⟨elem, helem, elementItemRefs_mayBe hitems hk⟩

lemma initElement_sound (he : m.elements[elem.1]? = some elem.2)
    (h : initElement env st elem = some st') (ht : st.TablesSound (initialTargets m))
    (hes : st.ElemsSound m) : st'.TablesSound (initialTargets m) ∧ st'.ElemsSound m := by
  unfold initElement at h
  split at h
  · next table offset hkind =>
    simp only [Option.bind_eq_bind, Option.bind_eq_some_iff] at h
    obtain ⟨v, hv, i, hi, refs, hwrite, h⟩ := h
    cases h
    have hset : (st.setTable table refs).ElemsSound m := hes
    refine ⟨?_, hset.dropElem elem.1⟩
    apply ht.writeRange hwrite
    intro k f hk
    obtain ⟨elem', he', r, hr, hmay⟩ := hes elem.1 k f hk
    cases he.symm.trans he'
    apply foldl_reaches _ (fun _ _ h => Admits.mono h) (le_addElement _)
      (Slice.mem_enumerate.mpr he)
    intro t
    apply admits_addElement_active hkind hr hmay
    intro base hbase
    rw [evalConst_of_constExprI32 hbase] at hv
    cases hv
    cases hi
    rfl
  · cases h
    exact ⟨ht, hes⟩
  · cases h
    exact ⟨ht, hes.dropElem elem.1⟩

lemma initElement_onlyPassive (h : initElement env st elem = some st') :
    (st.elems id = [] → st'.elems id = []) ∧
      (id = elem.1 → elem.2.kind ≠ .passive → st'.elems id = []) := by
  unfold initElement at h
  split at h
  · simp only [Option.bind_eq_bind, Option.bind_eq_some_iff] at h
    obtain ⟨v, hv, i, hi, refs, hwrite, h⟩ := h
    cases h
    refine ⟨fun hnil => elems_eq_nil_dropElem hnil, ?_⟩
    rintro rfl -
    exact if_pos rfl
  · next hkind =>
    cases h
    exact ⟨fun hnil => hnil, fun _ hne => absurd hkind hne⟩
  · cases h
    refine ⟨fun hnil => elems_eq_nil_dropElem hnil, ?_⟩
    rintro rfl -
    exact if_pos rfl

/-- The invariant of the store. -/
structure Store.Sound (m : Module) (t : TableTargets) (st : Store) : Prop where
  tables : st.TablesSound t
  elems : st.ElemsSound m
  onlyPassive : st.OnlyPassive m

lemma instantiate_sound (hlocal : ∀ t ∈ m.tables, t.imported = false) (hinit : InitsKnown m env)
    (h : instantiate m env = some st) : st.Sound m (initialTargets m) := by
  unfold instantiate at h
  simp only [Option.bind_eq_bind, Option.bind_eq_some_iff] at h
  obtain ⟨st0, halloc, h⟩ := h
  have hsound := foldlM_keeps
    (I := fun st => st.TablesSound (initialTargets m) ∧ st.ElemsSound m)
    (fun s x s' hx hstep hs => initElement_sound (mem_enumerate.mp hx) hstep hs.1 hs.2) h
    (allocate_sound hlocal hinit halloc)
  refine ⟨hsound.1, hsound.2, fun id elem he hkind => ?_⟩
  exact foldlM_reaches (Q := fun st => st.elems id = [])
    (fun s x s' hstep hs => (initElement_onlyPassive hstep).1 hs) (mem_enumerate.mpr he)
    (fun s s' hstep => (initElement_onlyPassive hstep).2 rfl hkind) h

end

/-! ### Table instructions -/

/-- What the analysis has established when the run starts. -/
structure Analysed (m : Module) (t : TableTargets) : Prop where
  le : (initialTargets m).Le t
  linked : t.Linked
  copied : ∀ p ∈ tableCopies m, t.Copied p.1 p.2

namespace Store

lemma Sound.mono {m : Module} {t' : TableTargets} (h : st.Sound m t)
    (hle : t.Le t') : st.Sound m t' :=
  { h with tables := fun table slot f hslot => (h.tables table slot f hslot).mono hle }

lemma Sound.admitsAll_tableInit {m : Module} (ha : Analysed m t)
    (h : st.Sound m t) (hg : m.bodyOf g = some body)
    (hinit : (elem, table) ∈ (profile body).tableInits)
    (hf : .func f ∈ st.elems elem) : t.AdmitsAll table f := by
  obtain ⟨k, hk⟩ := mem_iff_getElem?.mp hf
  obtain ⟨e, he, r, hr, hmay⟩ := h.elems elem k f hk
  have hkind : e.kind = .passive := by
    by_contra hne
    rw [h.onlyPassive elem e he hne] at hf
    cases hf
  exact (initialTargets_passive he hkind hg hinit (mem_of_getElem? hr) hmay).mono ha.le

end Store

lemma mem_collect {α : Type} {visit : Instr → Option α}
    (ho : (past, i) ∈ seqOccurrences [] body) {a : α} (hi : visit i = some a) :
    a ∈ collect body visit :=
  mem_filterMap.mpr ⟨(past, i), ho, hi⟩

section

variable {m : Module}

lemma Analysed.admits_dynamic (ha : Analysed m t) (hg : m.bodyOf g = some body)
    (ho : (past, i) ∈ seqOccurrences [] body) (hw : visitTableWrite i = some table) (slot : Nat)
    (f : FunctionId) : t.Admits table slot f :=
  .inl (.inl (ha.le.unknownTables (initialTargets_dynamic hg (mem_collect ho hw))))

lemma Store.Sound.tableOp (ha : Analysed m t) (hg : m.bodyOf g = some body) (h : st.Sound m t)
    (ho : (past, i) ∈ seqOccurrences [] body)
    (hop : st.tableOp i stack = some st') : st'.Sound m t := by
  unfold Store.tableOp at hop
  split at hop <;> try simp only [Option.bind_eq_bind, Option.bind_eq_some_iff] at hop
  · next table r i _ =>
    obtain ⟨i, -, refs, hwrite, hop⟩ := hop
    cases hop
    exact { h with
      tables := h.tables.writeRange hwrite fun k f _ => ha.admits_dynamic hg ho rfl _ f }
  · next table n r i _ =>
    obtain ⟨i, -, n, -, refs, hwrite, hop⟩ := hop
    cases hop
    exact { h with
      tables := h.tables.writeRange hwrite fun k f _ => ha.admits_dynamic hg ho rfl _ f }
  · next table n r _ =>
    obtain ⟨n, -, hop⟩ := hop
    cases hop
    exact { h with tables := h.tables.setTable fun slot f _ => ha.admits_dynamic hg ho rfl slot f }
  · next elem table n s d _ =>
    obtain ⟨s, -, n, -, items, hread, d, -, refs, hwrite, hop⟩ := hop
    cases hop
    have hinit : (elem, table) ∈ (profile body).tableInits := mem_collect ho rfl
    refine { h with tables := h.tables.writeRange hwrite fun k f hk => ?_ }
    have hmem := mem_of_mem_readRange hread (mem_of_getElem? hk)
    exact .inl (h.admitsAll_tableInit ha hg hinit hmem)
  · next src dst n s d _ =>
    obtain ⟨s, -, n, -, items, hread, d, -, refs, hwrite, hop⟩ := hop
    cases hop
    have hcopy : (src, dst) ∈ (profile body).tableCopies := mem_collect ho rfl
    refine { h with tables := h.tables.writeRange hwrite fun k f hk => ?_ }
    have hmem := mem_of_mem_readRange hread (mem_of_getElem? hk)
    obtain ⟨slot, hslot⟩ := mem_iff_getElem?.mp hmem
    have hcopied := ha.copied _ (mem_flatMap.mpr
      ⟨(g, profile body), mem_map.mpr ⟨(g, body), Module.mem_localFuncs.mpr hg, rfl⟩, hcopy⟩)
    exact .inl (hcopied.admitsAll ha.linked (h.tables src slot f hslot))
  · next elem =>
    cases hop
    exact ⟨h.tables, h.elems.dropElem elem, h.onlyPassive.dropElem elem⟩
  · cases hop

end

/-! ### Control stays in the body -/

lemma seqOccurrences_append (xs ys : List Instr) :
    seqOccurrences past (xs ++ ys) =
      seqOccurrences past xs ++ seqOccurrences (xs.reverse ++ past) ys := by
  induction xs generalizing past with
  | nil => simp [seqOccurrences]
  | cons x xs ih => simp [seqOccurrences, ih]

lemma seqOccurrences_subset_seqs {seqs : List (List Instr)} (h : seq ∈ seqs) :
    seqOccurrences [] seq ⊆ seqsOccurrences seqs := by
  induction seqs with
  | nil => cases h
  | cons s seqs ih =>
    rcases mem_cons.mp h with rfl | h
    · exact subset_append_left _ _
    · exact subset_append_of_subset_right _ (ih h)

lemma bodies_subset (h : (seq, rs) ∈ i.bodies) (past : List Instr) :
    ∀ s ∈ seq :: rs, seqOccurrences [] s ⊆ instrOccurrences past i := by
  cases i <;> simp only [Instr.bodies, mem_cons, not_mem_nil, or_false] at h
  case block | loop | tryTable =>
    obtain ⟨rfl, rfl⟩ := h
    intro s hs
    simp only [mem_cons, not_mem_nil, or_false, or_self] at hs
    subst hs
    exact subset_cons_self _ _
  case ifElse =>
    intro s hs
    rcases h with ⟨rfl, rfl⟩ | ⟨rfl, rfl⟩
    · rw [mem_singleton.mp hs]
      exact subset_cons_of_subset _ (subset_append_left _ _)
    · rw [mem_singleton.mp hs]
      exact subset_cons_of_subset _ (subset_append_right _ _)
  case tryLegacy =>
    obtain ⟨rfl, rfl⟩ := h
    intro s hs
    rcases mem_cons.mp hs with rfl | hs
    · exact subset_cons_of_subset _ (subset_append_left _ _)
    · exact subset_cons_of_subset _
        (subset_append_of_subset_right _ (seqOccurrences_subset_seqs hs))

/-- The sequence, and those that can start in its place, are sequences of the body. -/
structure Ctl.InBody (body : List Instr) (c : Ctl) : Prop where
  seq : seqOccurrences [] (c.past.reverse ++ c.next) ⊆ seqOccurrences [] body
  resume : ∀ s ∈ c.resume, seqOccurrences [] s ⊆ seqOccurrences [] body

lemma Ctl.InBody.current (h : Ctl.InBody body ⟨past, i :: next, rs⟩) :
    instrOccurrences past i ⊆ seqOccurrences [] body := by
  refine List.Subset.trans ?_ h.seq
  rw [seqOccurrences_append, reverse_reverse, append_nil]
  exact subset_append_of_subset_right _ (subset_append_left _ _)

lemma Ctl.InBody.advance {body : List Instr}
    (h : Ctl.InBody body ⟨past, i :: next, rs⟩) : Ctl.InBody body ⟨i :: past, next, rs⟩ :=
  ⟨by simpa using h.seq, h.resume⟩

end Kandelo.ForkInstrument
