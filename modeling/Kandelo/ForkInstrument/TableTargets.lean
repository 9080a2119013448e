import Kandelo.Lib.Fold
import Kandelo.ForkInstrument.CallGraph

/-!
# What the table analysis establishes

The targets are ordered by inclusion; every step of the analysis
only adds. From that follow the facts the execution needs: a dynamic write makes its table
unknown, initialisers and segments are admitted where they can land, and the result is closed
under the copies of the module.
-/

namespace Kandelo.ForkInstrument

open Lib Finset Fold

variable {base : Nat}

namespace TableTargets

variable {α : Type} {t' t : TableTargets} {f : FunctionId} {slot : Nat} {table : TableId}

/-- Inclusion of every component. -/
structure Le (t t' : TableTargets) : Prop where
  knownSlots : t.knownSlots ⊆ t'.knownSlots
  knownSlotFuncs : t.knownSlotFuncs ⊆ t'.knownSlotFuncs
  unknownSlots : t.unknownSlots ⊆ t'.unknownSlots
  knownTableFuncs : t.knownTableFuncs ⊆ t'.knownTableFuncs
  unknownTables : t.unknownTables ⊆ t'.unknownTables

lemma Le.rfl : t.Le t :=
  ⟨Finset.Subset.rfl, Finset.Subset.rfl, Finset.Subset.rfl, Finset.Subset.rfl, Finset.Subset.rfl⟩

lemma Le.trans {t'' : TableTargets} (h : t.Le t') (h' : t'.Le t'') : t.Le t'' :=
  ⟨h.1.trans h'.1, h.2.trans h'.2, h.3.trans h'.3, h.4.trans h'.4, h.5.trans h'.5⟩

variable (t)

/-- Every slot of the table may hold the function. -/
def AdmitsAll (table : TableId) (f : FunctionId) : Prop :=
  table ∈ t.unknownTables ∨ (table, f) ∈ t.knownTableFuncs

/-- The slot may hold the function. -/
def Admits (table : TableId) (slot : Nat) (f : FunctionId) : Prop :=
  t.AdmitsAll table f ∨ (table, slot, f) ∈ t.knownSlots ∨ (table, slot) ∈ t.unknownSlots

/-- A known slot has its function among those of its table. -/
def Linked : Prop :=
  ∀ table slot f, (table, slot, f) ∈ t.knownSlots → (table, f) ∈ t.knownSlotFuncs

variable {t}

lemma AdmitsAll.mono (h : t.Le t') (ha : t.AdmitsAll table f) : t'.AdmitsAll table f :=
  ha.imp (fun hu => h.unknownTables hu) (fun hk => h.knownTableFuncs hk)

lemma Admits.mono (h : t.Le t') (ha : t.Admits table slot f) : t'.Admits table slot f :=
  ha.imp (·.mono h) (Or.imp (fun hk => h.knownSlots hk) (fun hu => h.unknownSlots hu))

lemma tableCanDispatch_of_admits (hl : t.Linked) {call : IndirectCall}
    (hindex : ∀ v, call.index = .const v → v.toNat = slot) (ha : t.Admits call.table slot f) :
    t.tableCanDispatch call f = true := by
  unfold tableCanDispatch
  split
  · rfl
  next hunknown =>
  cases hc : call.index with
  | const v =>
    have hv := hindex v hc
    rcases ha with (hu | hk) | hk | hu
    · exact absurd hu hunknown
    · simp [hk]
    · simp [hv, hk]
    · simp [hv, hu]
  | unknown =>
    rcases ha with (hu | hk) | hk | hu
    · exact absurd hu hunknown
    · simp [hk]
    · simp [hl _ _ _ hk]
    · have hex : ∃ s ∈ t.unknownSlots, s.1 = call.table := ⟨_, hu, rfl⟩
      simp [decide_eq_true hex]

/-! ### Additions -/

section

variable (t : TableTargets) (table : TableId)

lemma le_addTableFunc (f : FunctionId) : t.Le (t.addTableFunc table f) :=
  { Le.rfl with knownTableFuncs := subset_insert _ _ }

lemma le_addUnknownTable : t.Le (t.addUnknownTable table) :=
  { Le.rfl with unknownTables := subset_insert _ _ }

variable {step : TableTargets → α → TableTargets}

lemma le_foldl (h : ∀ (t : TableTargets) x, t.Le (step t x)) (xs : List α) :
    t.Le (xs.foldl step t) :=
  foldl_keeps (I := t.Le) (fun s x _ hs => hs.trans (h s x)) Le.rfl

lemma le_addTableFuncs (funcs : List FunctionId) : t.Le (t.addTableFuncs table funcs) :=
  t.le_foldl (fun t f => t.le_addTableFunc table f) funcs

lemma foldl_reaches {Q : TableTargets → Prop} (hQ : ∀ t t', TableTargets.Le t t' → Q t → Q t')
    (h : ∀ (t : TableTargets) x, t.Le (step t x)) {xs : List α} {x : α} (hx : x ∈ xs)
    (hit : ∀ t, Q (step t x)) : Q (xs.foldl step t) :=
  Fold.foldl_reaches (I := fun _ => True) (fun _ _ _ => trivial) (fun s x => hQ s _ (h s x)) hx
    (fun s _ => hit s) trivial

lemma admitsAll_addTableFuncs {funcs : List FunctionId} (hf : f ∈ funcs) :
    (t.addTableFuncs table funcs).AdmitsAll table f :=
  t.foldl_reaches (fun _ _ h => AdmitsAll.mono h) (fun t f => t.le_addTableFunc table f) hf
    (fun _ => .inr (mem_insert_self _ _))

end

end TableTargets

open TableTargets

variable (table : TableId)

lemma le_addActiveItem (t : TableTargets) (item : Nat × ElementItemRef) :
    t.Le (addActiveItem table base t item) := by
  unfold addActiveItem
  split
  · cases item.2 with
    | func f => exact ⟨subset_insert _ _, subset_insert _ _, subset_rfl, subset_rfl, subset_rfl⟩
    | null => exact Le.rfl
    | unknown => exact { Le.rfl with unknownSlots := subset_insert _ _ }
  · exact t.le_addUnknownTable table

lemma le_addPassiveItem (t : TableTargets) (item : ElementItemRef) :
    t.Le (addPassiveItem table t item) := by
  cases item with
  | func f => exact t.le_addTableFunc table f
  | null => exact Le.rfl
  | unknown => exact t.le_addUnknownTable table

lemma le_addElement (inits : List (ElementId × TableId)) (t : TableTargets)
    (elem : ElementId × Element) : t.Le (addElement inits t elem) := by
  unfold addElement
  cases elem.2.kind with
  | active table =>
    dsimp only
    split
    · have hle := t.le_addTableFuncs table (elementFunctions elem.2.items)
      split
      · exact hle.trans (le_addUnknownTable _ table)
      · exact hle
    · exact t.le_foldl (le_addActiveItem _) _
  | passive =>
    exact t.le_foldl
      (fun t (init : ElementId × TableId) => t.le_foldl (le_addPassiveItem init.2) _) _
  | declared => exact Le.rfl

/-! ### What segments add -/

/-- An item that can put the function into a slot. -/
def ElementItemRef.MayBe (f : FunctionId) (r : ElementItemRef) : Prop := r = .func f ∨ r = .unknown

lemma mem_constExprFunctions {e : ConstExpr} (h : constExprRef e = .func f) :
    f ∈ constExprFunctions e := by
  unfold constExprRef at h
  split at h <;> simp_all [constExprFunctions]

lemma mem_elementFunctions {items : ElementItems}
    (h : .func f ∈ elementItemRefs items) : f ∈ elementFunctions items := by
  cases items with
  | functions => simpa [elementItemRefs, elementFunctions] using h
  | expressions =>
    simp only [elementItemRefs, List.mem_map] at h
    obtain ⟨e, he, hf⟩ := h
    exact List.mem_flatMap.mpr ⟨e, he, mem_constExprFunctions hf⟩

variable {t : TableTargets} {table : TableId}

lemma admits_addActiveItem (hr : r.MayBe f) :
    (addActiveItem table base t (k, r)).Admits table (base + k) f := by
  unfold addActiveItem
  split
  · rcases hr with rfl | rfl
    · exact .inr (.inl (mem_insert_self _ _))
    · exact .inr (.inr (mem_insert_self _ _))
  · exact .inl (.inl (mem_insert_self _ _))

lemma admitsAll_addPassiveItem (hr : r.MayBe f) : (addPassiveItem table t r).AdmitsAll table f := by
  rcases hr with rfl | rfl
  · exact .inr (mem_insert_self _ _)
  · exact .inl (mem_insert_self _ _)

variable {id : ElementId} {copies : List (TableId × TableId)}

lemma admits_addElement_active (hkind : elem.kind = .active table offset)
    (hitem : (elementItemRefs elem.items)[k]? = some r) (hr : r.MayBe f)
    (hslot : ∀ base, constExprI32 offset = some base → slot = base.toNat + k) :
    (addElement inits t (id, elem)).Admits table slot f := by
  unfold addElement
  simp only [hkind]
  cases hbase : constExprI32 offset with
  | none =>
    have hmem := List.mem_of_getElem? hitem
    dsimp only
    rcases hr with rfl | rfl
    · have hall := t.admitsAll_addTableFuncs table (mem_elementFunctions hmem)
      split
      · exact .inl (hall.mono (le_addUnknownTable _ table))
      · exact .inl hall
    · rw [if_pos hmem]
      exact .inl (.inl (mem_insert_self _ _))
  | some base =>
    rw [hslot base hbase]
    exact t.foldl_reaches (fun _ _ h => Admits.mono h) (le_addActiveItem _)
      (Slice.mem_enumerate.mpr hitem) (fun _ => admits_addActiveItem hr)

lemma admitsAll_addElement_passive (hkind : elem.kind = .passive)
    (hinit : (id, table) ∈ inits) (hitem : r ∈ elementItemRefs elem.items) (hr : r.MayBe f) :
    (addElement inits t (id, elem)).AdmitsAll table f := by
  unfold addElement
  simp only [hkind]
  have hmem : (id, table) ∈ inits.filter (·.1 = id) := List.mem_filter.mpr ⟨hinit, by simp⟩
  apply t.foldl_reaches (fun _ _ h => AdmitsAll.mono h)
    (fun t (init : ElementId × TableId) => t.le_foldl (le_addPassiveItem init.2) _) hmem
  intro t
  exact t.foldl_reaches (fun _ _ h => AdmitsAll.mono h) (le_addPassiveItem table) hitem
    (fun _ => admitsAll_addPassiveItem hr)

/-! ### Before the copies -/

section

variable {m : Module} {table : TableId}

lemma le_addInit (t : TableTargets) (x : TableId × Table) :
    t.Le (match x.2.init with
      | some init => t.addTableFuncs x.1 (constExprFunctions init)
      | none => t) := by
  split
  · exact t.le_addTableFuncs _ _
  · exact Le.rfl

lemma initialTargets_dynamic (hf : m.bodyOf f = some body)
    (ht : table ∈ (profile body).dynamicTableWrites) :
    table ∈ (initialTargets m).unknownTables := by
  have hmem : table ∈ (profileFunctions m).flatMap (·.2.dynamicTableWrites) := by
    refine List.mem_flatMap.mpr ⟨(f, profile body), ?_, ht⟩
    exact List.mem_map.mpr ⟨(f, body), Module.mem_localFuncs.mpr hf, rfl⟩
  have hadd := TableTargets.empty.foldl_reaches (Q := fun t => table ∈ t.unknownTables)
    (fun _ _ h hu => h.unknownTables hu) le_addUnknownTable hmem
    (fun _ => mem_insert_self _ _)
  exact (Le.trans (le_foldl _ le_addInit _) (le_foldl _ (le_addElement _) _)).unknownTables hadd

lemma initialTargets_passive (he : m.elements[id]? = some elem) (hkind : elem.kind = .passive)
    {g : FunctionId} (hg : m.bodyOf g = some body) (hinit : (id, table) ∈ (profile body).tableInits)
    (hitem : r ∈ elementItemRefs elem.items) (hr : r.MayBe f) :
    (initialTargets m).AdmitsAll table f := by
  have hmem : (id, table) ∈ (profileFunctions m).flatMap (·.2.tableInits) := by
    refine List.mem_flatMap.mpr ⟨(g, profile body), ?_, hinit⟩
    exact List.mem_map.mpr ⟨(g, body), Module.mem_localFuncs.mpr hg, rfl⟩
  exact foldl_reaches _ (fun _ _ h => AdmitsAll.mono h) (le_addElement _)
    (Slice.mem_enumerate.mpr he)
    (fun _ => admitsAll_addElement_passive hkind hmem hitem hr)

end

/-! ### Functions of slots are functions of tables -/

namespace TableTargets

lemma Linked.addSlotFunc (h : t.Linked) (table : TableId) (slot : Nat) (f : FunctionId) :
    (t.addSlotFunc table slot f).Linked := by
  intro table' slot' f' hk
  rcases mem_insert.mp hk with heq | hk
  · cases heq
    exact mem_insert_self _ _
  · exact mem_insert_of_mem (h table' slot' f' hk)

lemma Linked.addTableFuncs (h : t.Linked) (table : TableId) (funcs : List FunctionId) :
    (t.addTableFuncs table funcs).Linked := by
  apply foldl_keeps (I := Linked) _ h
  exact fun _ _ _ hs => hs

end TableTargets

lemma linked_addElement {inits : List (ElementId × TableId)} (h : t.Linked)
    (elem : ElementId × Element) : (addElement inits t elem).Linked := by
  unfold addElement
  cases elem.2.kind with
  | active table =>
    dsimp only
    split
    · have hl := h.addTableFuncs table (elementFunctions elem.2.items)
      split
      · exact hl
      · exact hl
    refine foldl_keeps (I := Linked) (fun s item _ hs => ?_) h
    unfold addActiveItem
    split
    · cases item.2 with
      | func f => exact hs.addSlotFunc table _ f
      | null => exact hs
      | unknown => exact hs
    · exact hs
  | passive =>
    refine foldl_keeps (I := Linked) (fun s init _ hs => ?_) h
    refine foldl_keeps (I := Linked) (fun s item _ hs => ?_) hs
    cases item with
    | func => exact hs
    | null => exact hs
    | unknown => exact hs
  | declared => exact h

lemma linked_initialTargets (m : Module) : (initialTargets m).Linked := by
  have hempty : TableTargets.empty.Linked := fun _ _ _ h => absurd h (notMem_empty _)
  refine foldl_keeps (I := Linked) (fun s elem _ hs => linked_addElement hs elem) ?_
  refine foldl_keeps (I := Linked) (fun s x _ hs => ?_) ?_
  · dsimp only
    split
    · exact hs.addTableFuncs _ _
    · exact hs
  · apply foldl_keeps (I := Linked) _ hempty
    exact fun _ _ _ hs => hs

/-! ### Copies -/

namespace TableTargets

/-- What the source of a copy may hold, the destination may hold. -/
structure Copied (t : TableTargets) (src dst : TableId) : Prop where
  unknown : (src ∈ t.unknownTables ∨ ∃ s ∈ t.unknownSlots, s.1 = src) → dst ∈ t.unknownTables
  funcs : ∀ f, (src, f) ∈ t.knownTableFuncs ∪ t.knownSlotFuncs → (dst, f) ∈ t.knownTableFuncs

variable {t : TableTargets}

lemma Copied.admitsAll (h : t.Copied src dst) (hl : t.Linked) (ha : t.Admits src slot f) :
    t.AdmitsAll dst f := by
  rcases ha with (hu | hk) | hk | hu
  · exact .inl (h.unknown (.inl hu))
  · exact .inr (h.funcs f (mem_union_left _ hk))
  · exact .inr (h.funcs f (mem_union_right _ (hl _ _ _ hk)))
  · exact .inl (h.unknown (.inr ⟨_, hu, rfl⟩))

lemma mem_funcsOf : f ∈ t.funcsOf table ↔ (table, f) ∈ t.knownTableFuncs ∪ t.knownSlotFuncs := by
  simp only [funcsOf, mem_image, mem_filter]
  constructor
  · rintro ⟨⟨table', f'⟩, ⟨hmem, rfl⟩, rfl⟩
    exact hmem
  · intro hmem
    exact ⟨(table, f), ⟨hmem, rfl⟩, rfl⟩

/-- Tables and pairs that copies to `dsts` of functions among `fs` can still add. -/
def missing (dsts : Finset TableId) (fs : Finset FunctionId) (t : TableTargets) : Nat :=
  (dsts \ t.unknownTables).card + ((dsts ×ˢ fs) \ t.knownTableFuncs).card

lemma missing_le (h : t.Le t') : missing dsts fs t' ≤ missing dsts fs t :=
  Nat.add_le_add (card_le_card (sdiff_subset_sdiff subset_rfl h.unknownTables))
    (card_le_card (sdiff_subset_sdiff subset_rfl h.knownTableFuncs))

lemma card_sdiff_lt {α : Type} [DecidableEq α] {u a b : Finset α} (hab : a ⊆ b) {x : α}
    (hx : x ∈ u) (hb : x ∈ b) (ha : x ∉ a) : (u \ b).card < (u \ a).card := by
  apply card_lt_card
  rw [ssubset_iff_of_subset (sdiff_subset_sdiff subset_rfl hab)]
  exact ⟨x, mem_sdiff.mpr ⟨hx, ha⟩, fun h => (mem_sdiff.mp h).2 hb⟩

/-- Grown from `t0` by copies: slots as there, functions among `fs`. -/
structure Grown (t0 : TableTargets) (fs : Finset FunctionId) (t : TableTargets) : Prop where
  le : t0.Le t
  slots : t.knownSlots = t0.knownSlots
  slotFuncs : t.knownSlotFuncs = t0.knownSlotFuncs
  funcs : ∀ p ∈ t.knownTableFuncs ∪ t.knownSlotFuncs, p.2 ∈ fs

end TableTargets

lemma TableTargets.le_copy {src dst : TableId} : t.Le (t.copy src dst) where
  knownSlots := subset_rfl
  knownSlotFuncs := subset_rfl
  unknownSlots := subset_rfl
  knownTableFuncs := subset_union_left
  unknownTables := by
    unfold TableTargets.copy
    split
    · exact subset_insert _ _
    · exact subset_rfl

lemma TableTargets.Grown.copy (h : Grown t0 fs t) (src dst : TableId) :
    Grown t0 fs (t.copy src dst) where
  le := h.le.trans t.le_copy
  slots := h.slots
  slotFuncs := h.slotFuncs
  funcs p hp := by
    rcases mem_union.mp hp with hp | hp
    · rcases mem_union.mp hp with hp | hp
      · exact h.funcs p (mem_union_left _ hp)
      · obtain ⟨f, hf, rfl⟩ := mem_image.mp hp
        exact h.funcs (src, f) (mem_funcsOf.mp hf)
    · exact h.funcs p (mem_union_right _ hp)

lemma copyTargets_unchanged (h : (copyTargets (t, c) (src, dst)).2 = false) :
    c = false ∧ t.copy src dst = t ∧ t.Copied src dst := by
  simp only [copyTargets, Bool.or_eq_false_iff, decide_eq_false_iff_not, not_not] at h
  obtain ⟨⟨hc, hspread⟩, hcard⟩ := h
  have hfuncs : t.knownTableFuncs = (t.copy src dst).knownTableFuncs :=
    eq_of_subset_of_card_le t.le_copy.knownTableFuncs hcard.le
  refine ⟨hc, ?_, ?_, ?_⟩
  · have hsame : (t.copy src dst).unknownTables = t.unknownTables := if_neg hspread
    exact TableTargets.ext rfl rfl rfl hfuncs.symm hsame
  · intro hu
    by_contra hd
    exact hspread ⟨hu, hd⟩
  · intro f hf
    rw [hfuncs]
    exact mem_union_right _ (mem_image_of_mem _ (mem_funcsOf.mpr hf))

lemma missing_copyTargets_lt (hg : Grown t0 fs t) (hd : dst ∈ dsts)
    (h : (copyTargets (t, false) (src, dst)).2 = true) :
    missing dsts fs (t.copy src dst) < missing dsts fs t := by
  simp only [copyTargets, Bool.false_or, Bool.or_eq_true, decide_eq_true_eq] at h
  rcases h with hspread | hcard
  · refine Nat.add_lt_add_of_lt_of_le (card_sdiff_lt t.le_copy.unknownTables hd ?_ hspread.2)
      (card_le_card (sdiff_subset_sdiff subset_rfl t.le_copy.knownTableFuncs))
    unfold TableTargets.copy
    rw [if_pos hspread]
    exact mem_insert_self _ _
  · -- The sets differ, so some pair is new, and a copy only adds pairs to its destination.
    have hss : ¬ (t.copy src dst).knownTableFuncs ⊆ t.knownTableFuncs := fun hsub =>
      hcard (congrArg Finset.card (Finset.Subset.antisymm hsub t.le_copy.knownTableFuncs))
    obtain ⟨p, hnew, hold⟩ := not_subset.mp hss
    refine Nat.add_lt_add_of_le_of_lt
      (card_le_card (sdiff_subset_sdiff subset_rfl t.le_copy.unknownTables))
      (card_sdiff_lt t.le_copy.knownTableFuncs ?_ hnew hold)
    rcases mem_union.mp hnew with hp | hp
    · exact absurd hp hold
    · obtain ⟨f, hf, rfl⟩ := mem_image.mp hp
      exact mem_product.mpr ⟨hd, hg.funcs (src, f) (mem_funcsOf.mp hf)⟩

lemma copyScan_lt (hd : ∀ p ∈ copies, p.2 ∈ dsts) (hg : Grown t0 fs t) :
    Grown t0 fs (copyScan copies t).1 ∧
      ((copyScan copies t).2 = true → missing dsts fs (copyScan copies t).1 <
        missing dsts fs t) := by
  suffices hscan : Grown t0 fs (copyScan copies t).1 ∧
      missing dsts fs (copyScan copies t).1 ≤ missing dsts fs t ∧
      ((copyScan copies t).2 = true → missing dsts fs (copyScan copies t).1 <
        missing dsts fs t) from
    ⟨hscan.1, hscan.2.2⟩
  refine foldl_keeps
    (I := fun r : TableTargets × Bool => Grown t0 fs r.1 ∧ missing dsts fs r.1 ≤ missing dsts fs t ∧
      (r.2 = true → missing dsts fs r.1 < missing dsts fs t))
    (fun r p hp hr => ?_) ⟨hg, le_rfl, fun h => absurd h Bool.false_ne_true⟩
  · obtain ⟨hgr, hle, hlt⟩ := hr
    have hcopy : missing dsts fs (r.1.copy p.1 p.2) ≤ missing dsts fs r.1 := missing_le r.1.le_copy
    refine ⟨hgr.copy p.1 p.2, hcopy.trans hle, fun hchanged => ?_⟩
    by_cases hc : r.2 = true
    · exact lt_of_le_of_lt hcopy (hlt hc)
    have hfalse : r = (r.1, false) := Prod.ext rfl (Bool.eq_false_iff.mpr hc)
    rw [hfalse] at hchanged
    exact lt_of_lt_of_le (missing_copyTargets_lt hgr (hd p hp) hchanged) hle

lemma copyScan_unchanged (h : (copies.foldl copyTargets (t, c)).2 = false) :
    c = false ∧ (copies.foldl copyTargets (t, c)).1 = t ∧ ∀ p ∈ copies, t.Copied p.1 p.2 := by
  induction copies generalizing t c with
  | nil => exact ⟨h, rfl, fun p hp => absurd hp List.not_mem_nil⟩
  | cons p rest ih =>
    obtain ⟨hchanged, hsame, hrest⟩ := ih h
    obtain ⟨hc, hcopy, hp⟩ := copyTargets_unchanged hchanged
    refine ⟨hc, hsame.trans hcopy, fun q hq => ?_⟩
    rcases List.mem_cons.mp hq with rfl | hq
    · exact hp
    · exact hcopy ▸ hrest q hq

/-- The analysis stops. Its result holds everything found before the copies, respects every
copy of the module, and functions known for a slot are known for the table. -/
lemma tableTargets_spec (m : Module) :
    ∃ t, tableTargets m = some t ∧ (initialTargets m).Le t ∧ t.Linked ∧
      ∀ p ∈ tableCopies m, t.Copied p.1 p.2 := by
  let t0 := initialTargets m
  let dsts := ((tableCopies m).map (·.2)).toFinset
  let fs := (t0.knownTableFuncs ∪ t0.knownSlotFuncs).image (·.2)
  have hd : ∀ p ∈ tableCopies m, p.2 ∈ dsts := fun p hp =>
    List.mem_toFinset.mpr (List.mem_map_of_mem hp)
  have hg : Grown t0 fs t0 := ⟨Le.rfl, rfl, rfl, fun p hp => mem_image_of_mem _ hp⟩
  have hfuel : missing dsts fs t0 < copyFuel (tableCopies m) t0 :=
    Nat.lt_succ_of_le (Nat.add_le_add (card_le_card sdiff_subset) (card_le_card sdiff_subset))
  obtain ⟨t, hgrown, hstop, heq⟩ := saturate_eq_some (I := Grown t0 fs)
    (fun s hs => (copyScan_lt hd hs).1) (fun s hs => (copyScan_lt hd hs).2) hg hfuel
  obtain ⟨-, hsame, hcopies⟩ := copyScan_unchanged hstop
  refine ⟨t, heq.trans (congrArg some hsame), hgrown.le, ?_, hcopies⟩
  intro table slot f hk
  rw [hgrown.slotFuncs]
  rw [hgrown.slots] at hk
  exact linked_initialTargets m table slot f hk

end Kandelo.ForkInstrument
