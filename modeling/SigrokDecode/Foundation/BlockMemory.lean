import Mathlib.Data.List.Basic
import Mathlib.Data.List.Nodup
import Mathlib.Logic.Function.Basic

/-!
# Memory in blocks

Blocks of cells with a bump pointer each, and pointers into them.  A cell holds
a byte or one of the eight fragments of a stored pointer.  Strings and pointer
arrays are read through a view of the memory, so that a reader depends on the
cells it reads and on nothing else.
-/

namespace SigrokDecode.Foundation

open List

structure Ptr where
  block : Nat
  offset : Nat
  deriving DecidableEq

def Ptr.add (ptr : Ptr) (count : Nat) : Ptr :=
  { ptr with offset := ptr.offset + count }

@[simp]
theorem Ptr.add_zero (ptr : Ptr) : ptr.add 0 = ptr := rfl

theorem Ptr.add_add (ptr : Ptr) (first second : Nat) :
    (ptr.add first).add second = ptr.add (first + second) := by
  simp only [Ptr.add, Nat.add_assoc]

variable {ptr : Ptr}

theorem Ptr.add_inj {first second : Nat} : ptr.add first = ptr.add second ↔ first = second := by
  constructor
  · intro same
    have offsets := congrArg Ptr.offset same
    exact Nat.add_left_cancel offsets
  · exact congrArg ptr.add

/-- The contents of one byte of memory. -/
inductive Cell where
  | byte (value : UInt8)
  | pointer (target : Option Ptr) (fragment : Nat)
  deriving DecidableEq

/-- What a reader sees at each place; `none` outside of all blocks. -/
abbrev MemoryView := Ptr → Option Cell

def pointerCells (target : Option Ptr) : List Cell :=
  (List.range 8).map (Cell.pointer target)

def stringCells (bytes : List UInt8) : List Cell :=
  bytes.map Cell.byte ++ [Cell.byte 0]

def pointersCells (targets : List Ptr) : List Cell :=
  targets.flatMap (fun target => pointerCells (some target)) ++ pointerCells none

@[simp]
theorem pointerCells_length (target : Option Ptr) : (pointerCells target).length = 8 := by
  simp [pointerCells]

@[simp]
theorem stringCells_length (bytes : List UInt8) :
    (stringCells bytes).length = bytes.length + 1 := by
  simp [stringCells]

theorem pointersCells_length (targets : List Ptr) :
    (pointersCells targets).length = 8 * (targets.length + 1) := by
  simp [pointersCells]
  omega

theorem pointersCells_cons (target : Ptr) (targets : List Ptr) : pointersCells (target :: targets) =
      pointerCells (some target) ++ pointersCells targets := by
  simp [pointersCells]

namespace MemoryView

/-- The cells are found one behind the other from `ptr` on. -/
def Holds (view : MemoryView) (ptr : Ptr) (cells : List Cell) : Prop :=
  ∀ i, i < cells.length → view (ptr.add i) = cells[i]?

variable {ptr : Ptr} {view : MemoryView}

theorem Holds.congr {view other : MemoryView} {cells : List Cell} (holds : Holds view ptr cells)
    (same : ∀ i, i < cells.length → other (ptr.add i) = view (ptr.add i)) :
    Holds other ptr cells := by
  intro i inside
  exact (same i inside).trans (holds i inside)

theorem holds_append {first second : List Cell} : Holds view ptr (first ++ second) ↔
      Holds view ptr first ∧ Holds view (ptr.add first.length) second := by
  constructor
  · intro holds
    constructor
    · intro i inside
      have cell := holds i (by rw [length_append]; omega)
      rwa [getElem?_append_left inside] at cell
    · intro i inside
      have cell := holds (first.length + i) (by rw [length_append]; omega)
      rw [getElem?_append_right (by omega), Nat.add_sub_cancel_left] at cell
      rw [Ptr.add_add]
      exact cell
  · rintro ⟨left, right⟩ i inside
    rw [length_append] at inside
    by_cases before : i < first.length
    · rw [getElem?_append_left before]
      exact left i before
    · have cell := right (i - first.length) (by omega)
      rw [Ptr.add_add, Nat.add_sub_cancel' (by omega)] at cell
      rw [getElem?_append_right (by omega)]
      exact cell

theorem holds_cons {cell : Cell} {cells : List Cell} : Holds view ptr (cell :: cells) ↔
      view ptr = some cell ∧ Holds view (ptr.add 1) cells := by
  rw [show cell :: cells = [cell] ++ cells from rfl, holds_append]
  refine and_congr_left fun _ => ?_
  constructor
  · intro holds
    exact holds 0 Nat.one_pos
  · intro found i inside
    obtain rfl : i = 0 := by simpa using inside
    exact found

/-- The bytes from `ptr` up to the next zero. -/
def readString (view : MemoryView) : Nat → Ptr → Option (List UInt8)
  | 0, _ => none
  | fuel + 1, ptr =>
      match view ptr with
      | some (.byte value) =>
          if value = 0 then
            some []
          else
            (readString view fuel (ptr.add 1)).map (value :: ·)
      | _ => none

/-- The pointer that is stored at `ptr`. -/
def readPointer (view : MemoryView) (ptr : Ptr) : Option (Option Ptr) :=
  match view ptr with
  | some (.pointer target _) =>
      if (∀ i : Nat, i < 8 →
          view (ptr.add i) = some (.pointer target i) : Prop) then
        some target
      else
        none
  | _ => none

/-- The pointers from `ptr` up to the next null pointer. -/
def readPointers (view : MemoryView) : Nat → Ptr → Option (List Ptr)
  | 0, _ => none
  | fuel + 1, ptr =>
      match readPointer view ptr with
      | some (some target) =>
          (readPointers view fuel (ptr.add 8)).map (target :: ·)
      | some none => some []
      | none => none

theorem readString_eq {bytes : List UInt8}
    {fuel : Nat} (text : 0 ∉ bytes) (holds : Holds view ptr (stringCells bytes))
    (enough : bytes.length < fuel) : readString view fuel ptr = some bytes := by
  induction bytes generalizing ptr fuel with
  | nil =>
      obtain ⟨fuel, rfl⟩ := Nat.exists_eq_succ_of_ne_zero (by omega : fuel ≠ 0)
      have zero : view ptr = some (.byte 0) := (holds_cons.mp holds).1
      simp [readString, zero]
  | cons value rest ih =>
      obtain ⟨fuel, rfl⟩ := Nat.exists_eq_succ_of_ne_zero (by omega : fuel ≠ 0)
      have found := holds_cons.mp holds
      have nonzero : value ≠ 0 := by
        intro zero
        exact text (zero ▸ mem_cons_self)
      have later :=
        ih (fun member => text (mem_cons_of_mem _ member)) found.2 (Nat.lt_of_succ_lt_succ enough)
      simp [readString, found.1, nonzero, later]

theorem readPointer_eq {target : Option Ptr} (holds : Holds view ptr (pointerCells target)) :
    readPointer view ptr = some target := by
  have fragments : ∀ i, i < 8 → view (ptr.add i) = some (.pointer target i) := by
    intro i inside
    have cell := holds i (by simpa using inside)
    simpa [pointerCells, inside] using cell
  have first : view ptr = some (.pointer target 0) := fragments 0 (by omega)
  simp only [readPointer, first]
  rw [if_pos fragments]

theorem readPointers_eq {targets : List Ptr}
    {fuel : Nat} (holds : Holds view ptr (pointersCells targets))
    (enough : targets.length < fuel) :
    readPointers view fuel ptr = some targets := by
  induction targets generalizing ptr fuel with
  | nil =>
      obtain ⟨fuel, rfl⟩ := Nat.exists_eq_succ_of_ne_zero (by omega : fuel ≠ 0)
      have null : readPointer view ptr = some none := readPointer_eq holds
      simp [readPointers, null]
  | cons target rest ih =>
      obtain ⟨fuel, rfl⟩ := Nat.exists_eq_succ_of_ne_zero (by omega : fuel ≠ 0)
      rw [pointersCells_cons, holds_append, pointerCells_length] at holds
      have found : readPointer view ptr = some (some target) := readPointer_eq holds.1
      have later := ih holds.2 (Nat.lt_of_succ_lt_succ enough)
      simp [readPointers, found, later]

end MemoryView

/-- A block of memory; what lies below `used` has been given out. -/
structure Block where
  id : Nat
  used : Nat
  cap : Nat
  data : Nat → Cell

def viewOf (blocks : List Block) : MemoryView := fun ptr =>
  match blocks.find? (fun blk => blk.id = ptr.block) with
  | some blk => if ptr.offset < blk.cap then some (blk.data ptr.offset) else none
  | none => none

def writeCell (blocks : List Block) (ptr : Ptr) (cell : Cell) : List Block :=
  blocks.map fun blk =>
    if blk.id = ptr.block then
      { blk with data := Function.update blk.data ptr.offset cell }
    else
      blk

def writeCells : List Block → Ptr → List Cell → List Block
  | blocks, _, [] => blocks
  | blocks, ptr, cell :: cells =>
      writeCells (writeCell blocks ptr cell) (ptr.add 1) cells

variable {blocks : List Block} {cells : List Cell}

theorem viewOf_of_mem {blk : Block} (distinct : (blocks.map Block.id).Nodup) (member : blk ∈ blocks)
    (inBlock : ptr.block = blk.id) :
    viewOf blocks ptr =
      if ptr.offset < blk.cap then some (blk.data ptr.offset) else none := by
  have found : blocks.find? (fun other => other.id = ptr.block) = some blk := by
    induction blocks with
    | nil => cases member
    | cons head rest ih =>
        rw [map_cons, nodup_cons] at distinct
        rcases mem_cons.mp member with rfl | later
        · simp [inBlock]
        · have other : head.id ≠ ptr.block := by
            intro same
            apply distinct.1
            rw [same, inBlock]
            exact mem_map_of_mem later
          rw [find?_cons_of_neg (by simpa using other)]
          exact ih distinct.2 later
  simp only [viewOf, found]

theorem viewOf_writeCell (blocks : List Block) (ptr other : Ptr) (cell : Cell) :
    viewOf (writeCell blocks ptr cell) other =
      if other = ptr then
        (viewOf blocks other).map fun _ => cell
      else
        viewOf blocks other := by
  have sameIds : ((fun blk : Block => decide (blk.id = other.block)) ∘ fun blk : Block =>
          if blk.id = ptr.block then
            { blk with data := Function.update blk.data ptr.offset cell }
          else
            blk) =
        fun blk => decide (blk.id = other.block) := by
    funext blk
    by_cases here : blk.id = ptr.block
    · simp [here]
    · simp [here]
  simp only [viewOf, writeCell, find?_map, sameIds]
  cases found : blocks.find? (fun blk => decide (blk.id = other.block)) with
  | none => simp
  | some blk =>
      have id : blk.id = other.block := by simpa using find?_some found
      by_cases here : other = ptr
      · subst here
        by_cases inside : other.offset < blk.cap
        · simp [id, inside]
        · simp [id, inside]
      · by_cases sameBlock : blk.id = ptr.block
        · have elsewhere : other.offset ≠ ptr.offset := by
            intro same
            apply here
            cases other
            cases ptr
            simp_all
          simp [sameBlock, here, elsewhere]
        · simp [sameBlock, here]

theorem viewOf_writeCells_outside
    {other : Ptr}
    (outside : ∀ i, i < cells.length → other ≠ ptr.add i) :
    viewOf (writeCells blocks ptr cells) other = viewOf blocks other := by
  induction cells generalizing blocks ptr with
  | nil => rfl
  | cons cell cells ih =>
      have away : other ≠ ptr := outside 0 (Nat.succ_pos _)
      rw [writeCells, ih, viewOf_writeCell, if_neg away]
      intro i inside
      rw [Ptr.add_add, Nat.add_comm]
      exact outside (i + 1) (Nat.succ_lt_succ inside)

theorem holds_writeCells (inside : ∀ i, i < cells.length → (viewOf blocks (ptr.add i)).isSome) :
    MemoryView.Holds (viewOf (writeCells blocks ptr cells)) ptr cells := by
  induction cells generalizing blocks ptr with
  | nil =>
      intro i bound
      exact absurd bound (Nat.not_lt_zero i)
  | cons cell cells ih =>
      apply MemoryView.holds_cons.mpr
      constructor
      · have first := inside 0 (Nat.succ_pos _)
        rw [Ptr.add_zero, Option.isSome_iff_exists] at first
        obtain ⟨old, found⟩ := first
        rw [writeCells, viewOf_writeCells_outside, viewOf_writeCell, if_pos rfl, found]
        · rfl
        · intro i _ same
          rw [Ptr.add_add, ← Ptr.add_zero ptr, Ptr.add_add] at same
          have distance := Ptr.add_inj.mp same
          omega
      · apply ih
        intro i bound
        have later := inside (i + 1) (Nat.succ_lt_succ bound)
        rw [Ptr.add_add, Nat.add_comm, viewOf_writeCell]
        split
        · rw [Option.isSome_map]
          exact later
        · exact later

theorem writeCell_append (first second : List Block) (ptr : Ptr) (cell : Cell) :
    writeCell (first ++ second) ptr cell = writeCell first ptr cell ++ writeCell second ptr cell :=
  map_append

theorem writeCells_append (first second : List Block) (ptr : Ptr) (cells : List Cell) :
    writeCells (first ++ second) ptr cells =
      writeCells first ptr cells ++ writeCells second ptr cells := by
  induction cells generalizing first second ptr with
  | nil => rfl
  | cons cell cells ih =>
      rw [writeCells, writeCell_append, ih]
      rfl

/-- Stores change no id, no bump pointer and no capacity. -/
theorem writeCells_shape (blocks : List Block) (ptr : Ptr) (cells : List Cell) :
    (writeCells blocks ptr cells).map (fun blk => (blk.id, blk.used, blk.cap)) =
      blocks.map (fun blk => (blk.id, blk.used, blk.cap)) := by
  induction cells generalizing blocks ptr with
  | nil => rfl
  | cons cell cells ih =>
      refine (ih _ _).trans ?_
      simp only [writeCell, map_map]
      apply map_congr_left
      intro blk _
      simp only [Function.comp]
      split
      · rfl
      · rfl

theorem writeCells_ids (blocks : List Block) (ptr : Ptr) (cells : List Cell) :
    (writeCells blocks ptr cells).map Block.id = blocks.map Block.id := by
  have shape := congrArg (List.map Prod.fst) (writeCells_shape blocks ptr cells)
  rw [map_map, map_map] at shape
  exact shape

theorem exists_of_mem_writeCells {blk : Block} (member : blk ∈ writeCells blocks ptr cells) :
    ∃ old ∈ blocks, old.id = blk.id ∧ old.used = blk.used ∧ old.cap = blk.cap := by
  have inShape := mem_map_of_mem (f := fun blk => (blk.id, blk.used, blk.cap)) member
  rw [writeCells_shape] at inShape
  obtain ⟨old, inOld, same⟩ := mem_map.mp inShape
  simp only [Prod.mk.injEq] at same
  exact ⟨old, inOld, same⟩

theorem exists_mem_writeCells
    {old : Block} (ptr : Ptr) (cells : List Cell)
    (member : old ∈ blocks) :
    ∃ blk ∈ writeCells blocks ptr cells,
      blk.id = old.id ∧ blk.used = old.used ∧ blk.cap = old.cap := by
  have inShape := mem_map_of_mem (f := fun blk => (blk.id, blk.used, blk.cap)) member
  rw [← writeCells_shape blocks ptr cells] at inShape
  obtain ⟨blk, inNew, same⟩ := mem_map.mp inShape
  simp only [Prod.mk.injEq] at same
  exact ⟨blk, inNew, same⟩

/-- Consecutive cells of one block. -/
structure Region where
  block : Nat
  start : Nat
  length : Nat

namespace Region

def Contains (region : Region) (ptr : Ptr) : Prop :=
  ptr.block = region.block ∧ region.start ≤ ptr.offset ∧ ptr.offset < region.start + region.length

def Disjoint (first second : Region) : Prop :=
  ∀ ptr, first.Contains ptr → ¬ second.Contains ptr

theorem contains_add {ptr : Ptr} {length i : Nat} (inside : i < length) :
    Contains ⟨ptr.block, ptr.offset, length⟩ (ptr.add i) := by
  refine ⟨rfl, ?_, ?_⟩
  · exact Nat.le_add_right _ _
  · exact Nat.add_lt_add_left inside _

end Region

end SigrokDecode.Foundation
