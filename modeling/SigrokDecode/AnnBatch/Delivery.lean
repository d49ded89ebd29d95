import Mathlib.Algebra.Order.BigOperators.Group.List
import Mathlib.Algebra.Order.Group.Nat
import SigrokDecode.AnnBatch.Batch

/-!
# Delivery

The pending items point into granted regions that hold their texts.  A batch is
read while this still holds, so that the callback sees every annotation as it
was appended.
-/

namespace SigrokDecode

open Foundation List

namespace AnnArena

def StoredTexts (arena : AnnArena) (strv : Ptr) (texts : List CText) : Prop :=
  ∃ length strs, ⟨strv.block, strv.offset, length⟩ ∈ arena.granted ∧
      8 * (strs.length + 1) ≤ length ∧
      MemoryView.Holds arena.view strv (pointersCells strs) ∧
      List.Forall₂ (fun str (text : CText) => StoredString arena str text.bytes) strs texts

variable {strv : Ptr} {texts : List CText} {arena : AnnArena} {length i : Nat}

theorem StoredTexts.grows
    {before after : AnnArena}
    (stored : StoredTexts before strv texts) (grows : Grows before after) :
    StoredTexts after strv texts := by
  obtain ⟨length, strs, member, room, holds, strings⟩ := stored
  refine ⟨length, strs, grows.granted _ member, room, holds.congr ?_, ?_⟩
  · intro i inside
    rw [pointersCells_length] at inside
    exact grows.view _ member _ (Region.contains_add (Nat.lt_of_lt_of_le inside room))
  · apply strings.imp
    intro str text string
    exact string.grows grows

theorem Inv.length_lt_readLimit
    {region : Region} (inv : arena.Inv)
    (member : region ∈ arena.granted) : region.length < arena.readLimit := by
  obtain ⟨blk, inArena, _, below⟩ := inv.inChain region member
  have fits := inv.fits blk inArena
  have caps : blk.cap ≤ ((arena.arena ++ arena.pool).map Block.cap).sum := by
    apply le_sum_of_mem
    exact mem_map_of_mem (mem_append_left _ inArena)
  simp only [readLimit]
  omega

def StoredAnnText (arena : AnnArena) (annText : Option Ptr) (texts : List CText) : Prop :=
  match annText with
  | some strv => StoredTexts arena strv texts
  | none => texts = []

theorem StoredAnnText.grows
    {before after : AnnArena} {annText : Option Ptr}
    (stored : StoredAnnText before annText texts) (grows : Grows before after) :
    StoredAnnText after annText texts := by
  cases annText with
  | none => exact stored
  | some strv => exact StoredTexts.grows stored grows

theorem readTexts_eq (inv : arena.Inv) (stored : StoredTexts arena strv texts) :
    arena.readTexts strv = some (texts.map CText.bytes) := by
  obtain ⟨length, strs, member, room, holds, strings⟩ := stored
  have limit := inv.length_lt_readLimit member
  have array : arena.view.readPointers arena.readLimit strv = some strs := by
    apply MemoryView.readPointers_eq holds
    change length < _ at limit
    omega
  simp only [readTexts, array, Option.bind_some]
  clear holds array room
  induction strings with
  | nil => rfl
  | @cons str text strs texts string _ ih =>
      obtain ⟨size, granted, short, found⟩ := string
      have bound : text.bytes.length < arena.readLimit :=
        Nat.lt_trans short (inv.length_lt_readLimit granted)
      have first := MemoryView.readString_eq text.noZero found bound
      simp [mapM_cons, first, ih]

theorem readAnnText_eq
    {annText : Option Ptr} (inv : arena.Inv)
    (stored : StoredAnnText arena annText texts) :
    arena.readAnnText annText = some (texts.map CText.bytes) := by
  cases annText with
  | none =>
      obtain rfl : texts = [] := stored
      rfl
  | some strv => exact readTexts_eq inv stored

theorem write_entry_before
    {i j : Nat} {target : Option Ptr}
    (before : j < 8 * i) :
    (arena.write (strv.add (8 * i)) (pointerCells target)).view (strv.add j) =
      arena.view (strv.add j) := by
  rw [write_view]
  apply viewOf_writeCells_outside
  intro k _ same
  rw [Ptr.add_add] at same
  have position := Ptr.add_inj.mp same
  omega

/-- What the copy loop keeps and what it stores.  The array lies in a region of
`length` cells, and the loop writes its entries from `i` on. -/
structure TextsCopied (before after : AnnArena) (strv : Ptr) (length i : Nat)
    (texts : List CText) : Prop where
  inv : after.Inv
  granted : ∀ region ∈ before.granted, region ∈ after.granted
  outside : ∀ region ∈ before.granted, ∀ ptr, region.Contains ptr →
    ¬ Region.Contains ⟨strv.block, strv.offset, length⟩ ptr → after.view ptr = before.view ptr
  entries : ∀ j, j < 8 * i → after.view (strv.add j) = before.view (strv.add j)
  stored : ∃ strs, MemoryView.Holds after.view (strv.add (8 * i)) (pointersCells strs) ∧
      List.Forall₂ (fun str (text : CText) => StoredString after str text.bytes) strs texts

theorem array_contains_entry (room : 8 * (i + 1) ≤ length) (target : Option Ptr) :
    ∀ j, j < (pointerCells target).length → Region.Contains ⟨strv.block, strv.offset, length⟩
        ((strv.add (8 * i)).add j) := by
  intro j bound
  rw [pointerCells_length] at bound
  rw [Ptr.add_add]
  exact Region.contains_add (by omega)

structure Duplicated (before after : AnnArena) (str : Ptr) (bytes : List UInt8) : Prop where
  inv : after.Inv
  grows : Grows before after
  region : ∃ size, after.granted = ⟨str.block, str.offset, size⟩ :: before.granted ∧
    bytes.length < size ∧ MemoryView.Holds after.view str (stringCells bytes)

/-- Nothing older has been written to but entries of the array, from `i` on. -/
structure ArrayFilled (before after : AnnArena) (strv : Ptr) (length i : Nat) : Prop where
  inv : after.Inv
  granted : ∀ region ∈ before.granted, region ∈ after.granted
  outside : ∀ region ∈ before.granted, ∀ ptr, region.Contains ptr →
    ¬ Region.Contains ⟨strv.block, strv.offset, length⟩ ptr → after.view ptr = before.view ptr
  entries : ∀ j, j < 8 * i → after.view (strv.add j) = before.view (strv.add j)

theorem ArrayFilled.entry
    {arena copied after : AnnArena} {strv str : Ptr} {bytes : List UInt8}
    (member : ⟨strv.block, strv.offset, length⟩ ∈ arena.granted)
    (room : 8 * (i + 1) ≤ length) (duplicated : Duplicated arena copied str bytes)
    (rest : ArrayFilled (copied.write (strv.add (8 * i)) (pointerCells (some str))) after strv
      length (i + 1)) :
    ArrayFilled arena after strv length i ∧ StoredString after str bytes ∧
      MemoryView.Holds after.view (strv.add (8 * i)) (pointerCells (some str)) := by
  have copiedInv := duplicated.inv
  have grows := duplicated.grows
  obtain ⟨size, granted, short, holds⟩ := duplicated.region
  have copiedMember := grows.granted _ member
  have entry : ∀ j, j < (pointerCells (some str)).length →
      Region.Contains ⟨strv.block, strv.offset, length⟩ ((strv.add (8 * i)).add j) :=
    array_contains_entry room (some str)
  -- The new string lies apart from the array, so no store reaches it.
  have apart := copiedInv.disjoint
  rw [granted] at apart
  have apartFromArray := (pairwise_cons.mp apart).1 _ member
  have inString : ∀ k, k ≤ bytes.length →
      Region.Contains ⟨str.block, str.offset, size⟩ (str.add k) := by
    intro k bound
    exact Region.contains_add (Nat.lt_of_le_of_lt bound short)
  have stringMember : ⟨str.block, str.offset, size⟩ ∈ copied.granted := by
    rw [granted]
    exact mem_cons_self
  refine ⟨⟨rest.inv, ?_, ?_, ?_⟩, ?_, ?_⟩
  · intro region older
    exact rest.granted region (grows.granted region older)
  · intro region older ptr inRegion outside
    rw [rest.outside region (grows.granted region older) ptr inRegion outside,
      write_view_outside entry outside]
    exact grows.view region older ptr inRegion
  · intro j before
    rw [rest.entries j (by omega), write_entry_before before]
    exact grows.view _ member _ (Region.contains_add (by omega))
  · have string : StoredString copied str bytes := ⟨size, stringMember, short, holds⟩
    apply string.congr rest.granted
    intro k bound
    have outside := apartFromArray _ (inString k bound)
    exact (rest.outside _ stringMember _ (inString k bound) outside).trans
      (write_view_outside entry outside)
  · apply (write_holds copiedInv copiedMember entry).congr
    intro j bound
    rw [pointerCells_length] at bound
    rw [Ptr.add_add]
    exact rest.entries _ (by omega)

theorem ArrayFilled.last (inv : arena.Inv) (room : 8 * (i + 1) ≤ length) :
    ArrayFilled arena (arena.write (strv.add (8 * i)) (pointerCells none)) strv length i where
  inv := write_inv inv _ _
  granted := fun _ granted => granted
  outside := fun _ _ _ _ outside =>
    write_view_outside (array_contains_entry room none) outside
  entries := fun _ before => write_entry_before before

theorem srdAnnArenaStrdup_duplicated (inv : arena.Inv) (bytes : List UInt8) :
    Duplicated arena (arena.srdAnnArenaStrdup bytes).2 (arena.srdAnnArenaStrdup bytes).1
      bytes := by
  obtain ⟨copiedInv, grows, ⟨_, _, _, holds⟩, granted⟩ := srdAnnArenaStrdup_spec inv bytes
  exact ⟨copiedInv, grows, _, granted, alignedSize_ge (bytes.length + 1), holds⟩

theorem storeTexts_copied
    (inv : arena.Inv) (member : ⟨strv.block, strv.offset, length⟩ ∈ arena.granted)
    (room : 8 * (i + texts.length + 1) ≤ length) :
    TextsCopied arena (arena.storeTexts strv i texts) strv length i texts := by
  induction texts generalizing arena i with
  | nil =>
      have filled : ArrayFilled arena (arena.storeTexts strv i []) strv length i :=
        ArrayFilled.last inv room
      exact ⟨filled.inv, filled.granted, filled.outside, filled.entries, [],
        write_holds inv member (array_contains_entry room none), .nil⟩
  | cons text texts ih =>
      rw [length_cons] at room
      have duplicated := srdAnnArenaStrdup_duplicated inv text.bytes
      simp only [storeTexts]
      generalize arena.srdAnnArenaStrdup text.bytes = copied at *
      obtain ⟨str, copied⟩ := copied
      simp only at duplicated ⊢
      have rest := ih (write_inv duplicated.inv (strv.add (8 * i)) (pointerCells (some str)))
        (duplicated.grows.granted _ member) (i := i + 1) (by omega)
      obtain ⟨filled, stored, entry⟩ := ArrayFilled.entry member (by omega) duplicated
        { rest with }
      obtain ⟨strs, holds, strings⟩ := rest.stored
      refine ⟨filled.inv, filled.granted, filled.outside, filled.entries, str :: strs, ?_,
        .cons stored strings⟩
      rw [pointersCells_cons, MemoryView.holds_append, pointerCells_length, Ptr.add_add]
      exact ⟨entry, holds⟩

theorem ArrayFilled.grows
    {arena after : AnnArena} {n i : Nat} (inv : arena.Inv)
    (filled : ArrayFilled (arena.srdAnnArenaAlloc n).2 after (arena.srdAnnArenaAlloc n).1
      (alignedSize n) i) : Grows arena after := by
  have allocGrows := srdAnnArenaAlloc_grows inv n
  have apart := (srdAnnArenaAlloc_inv inv n).disjoint
  rw [srdAnnArenaAlloc_granted inv n] at apart
  constructor
  case granted =>
      intro region older
      exact filled.granted region (allocGrows.granted region older)
  case view =>
      intro region older ptr inRegion
      have outside : ¬ Region.Contains
            ⟨(arena.srdAnnArenaAlloc n).1.block, (arena.srdAnnArenaAlloc n).1.offset,
              alignedSize n⟩ ptr := by
        intro inArray
        exact (pairwise_cons.mp apart).1 region older ptr inArray inRegion
      rw [filled.outside region (allocGrows.granted region older) ptr inRegion outside]
      exact allocGrows.view region older ptr inRegion

theorem alloc_member (inv : arena.Inv) (n : Nat) :
    ⟨(arena.srdAnnArenaAlloc n).1.block, (arena.srdAnnArenaAlloc n).1.offset,
      alignedSize n⟩ ∈ (arena.srdAnnArenaAlloc n).2.granted := by
  rw [srdAnnArenaAlloc_granted inv n]
  exact mem_cons_self

theorem copyTexts_spec (inv : arena.Inv) (texts : List CText) : (arena.copyTexts texts).2.Inv ∧
      Grows arena (arena.copyTexts texts).2 ∧
      StoredTexts (arena.copyTexts texts).2 (arena.copyTexts texts).1 texts := by
  have enough := alignedSize_ge ((texts.length + 1) * 8)
  have member := alloc_member inv ((texts.length + 1) * 8)
  have copied := storeTexts_copied (srdAnnArenaAlloc_inv inv ((texts.length + 1) * 8))
    member (show 8 * (0 + texts.length + 1) ≤ _ by omega)
  have grows := ArrayFilled.grows inv { copied with }
  obtain ⟨strs, holds, strings⟩ := copied.stored
  have same := strings.length_eq
  exact ⟨copied.inv, grows, _, strs, copied.granted _ member, by omega, holds, strings⟩

end AnnArena

namespace SrdAnnBatchState

open AnnArena BatchOp

structure StoredItem (arena : AnnArena) (item : SrdAnnItem) (fields : AnnotationFields) : Prop where
  shape : item = itemOf fields item.annText
  texts : StoredAnnText arena item.annText fields.texts

variable {fields : AnnotationFields} {item : SrdAnnItem} {done : List AnnotationFields}
  {state : SrdAnnBatchState} {ops : List BatchOp}

theorem readItem_eq
    {arena : AnnArena}
    (inv : arena.Inv) (stored : StoredItem arena item fields) :
    readItem arena item = some fields.annotation := by
  rw [readItem, readAnnText_eq inv stored.texts, stored.shape]
  rfl

theorem StoredItem.grows
    {before after : AnnArena}
    (stored : StoredItem before item fields) (grows : Grows before after) :
    StoredItem after item fields where
  shape := stored.shape
  texts := stored.texts.grows grows

theorem map_readItem_eq
    {arena : AnnArena} {items : List SrdAnnItem} {fields : List AnnotationFields}
    (inv : arena.Inv) (stored : Forall₂ (StoredItem arena) items fields) :
    items.map (readItem arena) =
      fields.map (fun fields => some fields.annotation) := by
  induction stored with
  | nil => rfl
  | cons first _ ih =>
      rw [map_cons, map_cons, ih, readItem_eq inv first]

/-- What holds of a batch with fewer than `limit` items; `done` has been
appended. -/
structure Inv (limit : Nat) (state : SrdAnnBatchState) (done : List AnnotationFields) : Prop where
  arena : state.arena.Inv
  cb : state.cb = true
  split : ∃ before pending, before ++ pending = done ∧ state.delivered.flatten =
        before.map (fun fields => some fields.annotation) ∧
      List.Forall₂ (StoredItem state.arena) state.items pending
  room : state.items.length < limit
  batches : ∀ batch ∈ state.delivered, batch ≠ [] ∧ batch.length ≤ srdAnnBatchMax

theorem flush_inv (inv : Inv (srdAnnBatchMax + 1) state done) :
    Inv 1 state.srdAnnBatchFlushState done := by
  obtain ⟨before, pending, shape, delivered, stored⟩ := inv.split
  simp only [srdAnnBatchFlushState]
  by_cases empty : state.items.length = 0
  · rw [if_pos empty]
    exact { inv with room := by omega }
  · rw [if_neg empty]
    have read : state.pending = _ := map_readItem_eq inv.arena stored
    constructor
    case arena => exact recycle_inv inv.arena
    case cb => exact inv.cb
    case split =>
        refine ⟨done, [], List.append_nil _, ?_, .nil⟩
        simp only [inv.cb, if_true]
        rw [flatten_append, delivered, read, ← shape]
        simp
    case room => exact Nat.one_pos
    case batches =>
        simp only [inv.cb, if_true]
        intro batch member
        rcases mem_append.mp member with earlier | last
        · exact inv.batches batch earlier
        · rw [mem_singleton.mp last]
          have size : state.pending.length = state.items.length := length_map _
          constructor
          · intro none
            rw [none] at size
            exact empty size.symm
          · rw [size]
            exact Nat.le_of_lt_succ inv.room

theorem Inv.mono {small large : Nat} (inv : Inv small state done)
    (le : small ≤ large) : Inv large state done :=
  { inv with room := Nat.lt_of_lt_of_le inv.room le }

theorem appendItem_inv (inv : Inv srdAnnBatchMax state done)
    (stored : StoredItem state.arena item fields) :
    Inv srdAnnBatchMax (state.srdAnnBatchAppendItem item) (done ++ [fields]) := by
  have room := inv.room
  have joined : Inv (srdAnnBatchMax + 1) { state with items := state.items ++ [item] }
        (done ++ [fields]) := by
    obtain ⟨before, pending, shape, delivered, items⟩ := inv.split
    constructor
    case arena => exact inv.arena
    case cb => exact inv.cb
    case split =>
        refine ⟨before, pending ++ [fields], ?_, delivered, ?_⟩
        · rw [← List.append_assoc, shape]
        · exact rel_append items (.cons stored .nil)
    case room =>
        change (state.items ++ [item]).length < _
        rw [length_append, length_singleton]
        omega
    case batches => exact inv.batches
  simp only [srdAnnBatchAppendItem]
  rw [if_neg (Nat.not_le_of_lt room)]
  split
  · exact (flush_inv joined).mono (by decide)
  · rename_i notFull
    exact { joined with room := Nat.lt_of_not_le notFull }

theorem appendFields_inv
    {state next : SrdAnnBatchState}
    (inv : Inv srdAnnBatchMax state done)
    (appends : state.srdAnnBatchAppendFields fields = some next) :
    Inv srdAnnBatchMax next (done ++ [fields]) := by
  obtain ⟨arenaInv, grows, texts⟩ := copyTexts_spec inv.arena fields.texts
  simp only [srdAnnBatchAppendFields] at appends
  split at appends
  · rw [← Option.some.inj appends]
    apply appendItem_inv
    · obtain ⟨before, pending, shape, delivered, items⟩ := inv.split
      refine ⟨arenaInv, inv.cb, ⟨before, pending, shape, delivered, ?_⟩, inv.room, inv.batches⟩
      apply items.imp
      intro item fields stored
      exact stored.grows grows
    · exact ⟨rfl, texts⟩
  · cases appends

theorem destroy_inv (inv : Inv srdAnnBatchMax state done) :
    Inv srdAnnBatchMax state.srdAnnBatchDestroy done := by
  have flushed : Inv 1 (if state.items.length > 0 then state.srdAnnBatchFlushState else state)
        done := by
    split
    · exact flush_inv (inv.mono (Nat.le_succ _))
    · rename_i empty
      exact { inv with room := by omega }
  simp only [srdAnnBatchDestroy]
  generalize (if state.items.length > 0 then state.srdAnnBatchFlushState else state) =
    last at flushed
  obtain ⟨before, pending, shape, delivered, items⟩ := flushed.split
  have none : last.items = [] := length_eq_zero_iff.mp (Nat.lt_one_iff.mp flushed.room)
  rw [none] at items
  cases items
  constructor
  case arena => exact empty_inv flushed.arena.past
  case cb => exact flushed.cb
  case split => exact ⟨before, [], shape, delivered, .nil⟩
  case room =>
      change 0 < srdAnnBatchMax
      decide
  case batches => exact flushed.batches

theorem run_inv
    {state last : SrdAnnBatchState}
    (inv : Inv srdAnnBatchMax state done)
    (runs : BatchOp.run state ops = some last) :
    Inv srdAnnBatchMax last (done ++ appended ops) := by
  induction ops generalizing state done with
  | nil =>
      rw [← Option.some.inj runs]
      simpa [appended] using inv
  | cons op ops ih =>
      obtain ⟨next, step, later⟩ := Option.bind_eq_some_iff.mp runs
      cases op with
      | append fields =>
          have after := ih (appendFields_inv inv step) later
          simpa [appended] using after
      | flush =>
          rw [← Option.some.inj step] at later
          exact ih
            ((flush_inv (inv.mono (Nat.le_succ _))).mono (by decide)) later
      | destroy =>
          rw [← Option.some.inj step] at later
          exact ih (destroy_inv inv) later

theorem init_inv : Inv srdAnnBatchMax (srdAnnBatchInit true) [] := by
  constructor
  case arena =>
      apply empty_inv
      intro regions member
      cases member
  case cb => rfl
  case split => exact ⟨[], [], rfl, rfl, .nil⟩
  case room =>
      change 0 < srdAnnBatchMax
      decide
  case batches =>
      intro batch member
      cases member

theorem flushState_heap (state : SrdAnnBatchState) :
    state.srdAnnBatchFlushState.heap = state.heap := by
  simp only [srdAnnBatchFlushState]
  split
  · rfl
  · rfl

theorem appendItem_heap (state : SrdAnnBatchState) (item : SrdAnnItem) :
    (state.srdAnnBatchAppendItem item).heap = state.heap := by
  simp only [srdAnnBatchAppendItem]
  split
  · split
    · rw [flushState_heap]
      exact flushState_heap state
    · exact flushState_heap state
  · split
    · rw [flushState_heap]
    · rfl

theorem run_without_appends (state : SrdAnnBatchState) (none : appended ops = []) :
    (BatchOp.run state ops).isSome := by
  induction ops generalizing state with
  | nil => rfl
  | cons op ops ih =>
      cases op with
      | append fields => cases none
      | flush => exact ih _ none
      | destroy => exact ih _ none

theorem run_isSome (heap : state.heap = true)
    (ordered : Ordered ops) : (BatchOp.run state ops).isSome := by
  induction ops generalizing state with
  | nil => rfl
  | cons op ops ih =>
      cases op with
      | append fields =>
          simp only [BatchOp.run, BatchOp.apply, srdAnnBatchAppendFields, if_pos heap,
            Option.bind_some]
          exact ih ((appendItem_heap _ _).trans heap) ordered
      | flush => exact ih ((flushState_heap state).trans heap) ordered
      | destroy => exact run_without_appends _ ordered

structure Delivers (ops : List BatchOp) (state : SrdAnnBatchState) : Prop where
  /-- Nothing is lost, duplicated, reordered or changed. -/
  contents : state.delivered.flatten ++ state.pending =
    (appended ops).map (fun fields => some fields.annotation)
  batches : ∀ batch ∈ state.delivered, batch ≠ [] ∧ batch.length ≤ srdAnnBatchMax
  /-- Pending items point into regions granted since the last delivery. -/
  referenced : ∀ item ∈ state.items, ∃ texts, StoredAnnText state.arena item.annText texts
  /-- No such region has been handed out twice, now or in an earlier batch. -/
  handedOutOnce : state.arena.granted.Pairwise Region.Disjoint
  handedOutOnceBefore : ∀ regions ∈ state.arena.past, regions.Pairwise Region.Disjoint
  /-- Nor has its block been recycled. -/
  notRecycled : ∀ region ∈ state.arena.granted, InChain state.arena.arena region ∧
      ∀ blk ∈ state.arena.pool, blk.id ≠ region.block

theorem Inv.delivers
    (inv : Inv srdAnnBatchMax state (appended ops)) : Delivers ops state := by
  obtain ⟨before, pending, shape, delivered, items⟩ := inv.split
  constructor
  case contents =>
      have read : state.pending = _ := map_readItem_eq inv.arena items
      rw [delivered, read, ← map_append, shape]
  case batches => exact inv.batches
  case referenced =>
      intro item member
      obtain ⟨i, bound, rfl⟩ := mem_iff_getElem.mp member
      have stored := items.get bound (items.length_eq ▸ bound)
      exact ⟨_, stored.texts⟩
  case handedOutOnce => exact inv.arena.disjoint
  case handedOutOnceBefore => exact inv.arena.past
  case notRecycled =>
      intro region member
      have inChain := inv.arena.inChain region member
      refine ⟨inChain, ?_⟩
      intro blk inPool same
      obtain ⟨other, inArena, inBlock, _⟩ := inChain
      have distinct := inv.arena.distinct
      rw [map_append, nodup_append] at distinct
      exact distinct.2.2 other.id (mem_map_of_mem inArena) blk.id
        (mem_map_of_mem inPool) (inBlock.trans same.symm)

end SrdAnnBatchState

open SrdAnnBatchState BatchOp in
/-- Batched delivery hands on exactly what has been appended. -/
theorem annBatch_delivers (ops : List BatchOp) (ordered : Ordered ops) :
    ∃ state, BatchOp.run (srdAnnBatchInit true) ops = some state ∧
      Delivers ops state := by
  obtain ⟨state, runs⟩ :=
    Option.isSome_iff_exists.mp (@run_isSome (srdAnnBatchInit true) ops rfl ordered)
  refine ⟨state, runs, ?_⟩
  exact (run_inv init_inv runs).delivers

def bitAnnotation : AnnotationFields :=
  { start := 10
    stop := 20
    annClass := 1
    annType := 1
    decoder := some 0
    annText := some [⟨[66, 105, 116], by decide⟩, ⟨[66], by decide⟩]
    hex := none
    numeric := 0 }

open SrdAnnBatchState BatchOp in
theorem annBatch_delivers_twice : ∃ state, BatchOp.run (srdAnnBatchInit true)
          [.append bitAnnotation, .flush, .append bitAnnotation, .destroy] =
        some state ∧
      Delivers [.append bitAnnotation, .flush, .append bitAnnotation, .destroy] state :=
  annBatch_delivers _ rfl

end SigrokDecode
