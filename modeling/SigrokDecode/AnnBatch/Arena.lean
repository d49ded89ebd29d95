import SigrokDecode.Foundation.BlockMemory

/-!
# The arena of an annotation batch

Memory for the payload of pending annotations comes from bump-allocated blocks.
An exhausted block is replaced by one from the pool, or by a new one; delivering
a batch moves all blocks back to the pool.
-/

namespace SigrokDecode

open Foundation List

def srdAnnArenaBlockCap : Nat := 64 * 1024

def srdAnnArenaPoolCap : Nat := 256

/-- The two block chains of `struct srd_ann_batch_state` and the heap of the
session. -/
structure AnnArena where
  arena : List Block
  pool : List Block
  /-- The heap gives out blocks with ids from here on. -/
  nextId : Nat
  /-- History: the regions handed out since the last delivery, and those of the
  earlier deliveries. -/
  granted : List Region
  past : List (List Region)

namespace AnnArena

/-- All blocks that can be read. -/
def view (arena : AnnArena) : MemoryView :=
  viewOf (arena.arena ++ arena.pool)

/-- A store through a pointer. -/
def write (arena : AnnArena) (ptr : Ptr) (cells : List Cell) : AnnArena :=
  { arena with
    arena := writeCells arena.arena ptr cells
    pool := writeCells arena.pool ptr cells }

/-- `mi_heap_zalloc` for a block of capacity `cap`. -/
def miHeapZalloc (arena : AnnArena) (cap : Nat) : Block × AnnArena :=
  ({ id := arena.nextId
     used := 0
     cap
     data := fun _ => .byte 0 },
    { arena with nextId := arena.nextId + 1 })

/-- A new head block: the first one of the pool if it is large enough. -/
def takeBlock (arena : AnnArena) (aligned : Nat) : Block × AnnArena :=
  let cap :=
    if aligned > srdAnnArenaBlockCap then aligned else srdAnnArenaBlockCap
  match arena.pool with
  | blk :: pool =>
      if blk.cap < aligned then
        { arena with pool }.miHeapZalloc cap
      else
        ({ blk with used := 0 }, { arena with pool })
  | [] => arena.miHeapZalloc cap

def headBlock (arena : AnnArena) (aligned : Nat) : Block × AnnArena :=
  match arena.arena with
  | blk :: chain =>
      if blk.used + aligned > blk.cap then
        arena.takeBlock aligned
      else
        (blk, { arena with arena := chain })
  | [] => arena.takeBlock aligned

/-- The size of an allocation, rounded up to a multiple of eight. -/
def alignedSize (n : Nat) : Nat :=
  (n + 7) / 8 * 8

def srdAnnArenaAlloc (arena : AnnArena) (n : Nat) : Ptr × AnnArena :=
  let (blk, arena) := arena.headBlock (alignedSize n)
  (⟨blk.id, blk.used⟩,
    { arena with
      arena := { blk with used := blk.used + alignedSize n } :: arena.arena
      granted := ⟨blk.id, blk.used, alignedSize n⟩ :: arena.granted })

def srdAnnArenaStrdup (arena : AnnArena) (bytes : List UInt8) : Ptr × AnnArena :=
  let (dst, arena) := arena.srdAnnArenaAlloc (bytes.length + 1)
  (dst, arena.write dst (stringCells bytes))

def moveToPool : List Block → List Block → Nat → List Block
  | [], pool, _ => pool
  | blk :: chain, pool, poolCnt =>
      if poolCnt < srdAnnArenaPoolCap then
        moveToPool chain (blk :: pool) (poolCnt + 1)
      else
        moveToPool chain pool poolCnt

/-- The end of `srd_ann_batch_flush_state`. -/
def recycle (arena : AnnArena) : AnnArena :=
  { arena with
    arena := []
    pool := moveToPool arena.arena arena.pool arena.pool.length
    granted := []
    past := arena.past ++ [arena.granted] }

/-! ## The invariant -/

def InChain (chain : List Block) (region : Region) : Prop :=
  ∃ blk ∈ chain, blk.id = region.block ∧ region.start + region.length ≤ blk.used

/-- What holds of the arena between any two operations on it. -/
structure Inv (arena : AnnArena) : Prop where
  distinct : ((arena.arena ++ arena.pool).map Block.id).Nodup
  fresh : ∀ blk ∈ arena.arena ++ arena.pool, blk.id < arena.nextId
  fits : ∀ blk ∈ arena.arena, blk.used ≤ blk.cap
  inChain : ∀ region ∈ arena.granted, InChain arena.arena region
  disjoint : arena.granted.Pairwise Region.Disjoint
  past : ∀ regions ∈ arena.past, regions.Pairwise Region.Disjoint

theorem empty_inv
    {nextId : Nat} {past : List (List Region)}
    (disjoint : ∀ regions ∈ past, regions.Pairwise Region.Disjoint) :
    Inv { arena := [], pool := [], nextId, granted := [], past } where
  distinct := nodup_nil
  fresh := by
    intro blk member
    cases member
  fits := by
    intro blk member
    cases member
  inChain := by
    intro region member
    cases member
  disjoint := List.Pairwise.nil
  past := disjoint

theorem alignedSize_ge (n : Nat) : n ≤ alignedSize n := by
  simp only [alignedSize]
  omega

/-- A block that is about to be bumped: it has room, its id is its own, and no
region of the batch reaches what it has left. -/
structure Head (chain : List Block) (regions : List Region) (aligned : Nat)
    (blk : Block) (after : AnnArena) : Prop where
  room : blk.used + aligned ≤ blk.cap
  distinct : ((blk :: (after.arena ++ after.pool)).map Block.id).Nodup
  fresh : ∀ other ∈ blk :: (after.arena ++ after.pool), other.id < after.nextId
  fits : ∀ other ∈ after.arena, other.used ≤ other.cap
  granted : after.granted = regions
  past : ∀ earlier ∈ after.past, earlier.Pairwise Region.Disjoint
  below : ∀ region ∈ regions, (blk.id = region.block ∧ region.start + region.length ≤ blk.used) ∨
      InChain after.arena region
  contents : ∀ other ∈ chain, other = blk ∨ other ∈ after.arena

variable {arena : AnnArena} {ptr : Ptr}

theorem miHeapZalloc_head
    {aligned cap : Nat} (inv : arena.Inv)
    (enough : aligned ≤ cap) :
    Head arena.arena arena.granted aligned (arena.miHeapZalloc cap).1
      (arena.miHeapZalloc cap).2 where
  room := by
    change 0 + aligned ≤ cap
    omega
  distinct := by
    apply nodup_cons.mpr
    refine ⟨?_, inv.distinct⟩
    intro member
    obtain ⟨blk, inBlocks, same⟩ := mem_map.mp member
    have older := inv.fresh blk inBlocks
    rw [same] at older
    exact Nat.lt_irrefl _ older
  fresh := by
    intro other member
    rcases mem_cons.mp member with rfl | older
    · exact Nat.lt_succ_self _
    · exact Nat.lt_succ_of_lt (inv.fresh other older)
  fits := inv.fits
  granted := rfl
  past := inv.past
  below := by
    intro region member
    exact Or.inr (inv.inChain region member)
  contents := by
    intro other member
    exact Or.inr member

theorem Inv.of_pool
    {blk : Block} {pool : List Block} (inv : arena.Inv)
    (shape : arena.pool = blk :: pool) : { arena with pool }.Inv where
  distinct := by
    have distinct := inv.distinct
    rw [shape] at distinct
    have fewer := (sublist_cons_self blk pool).append_left arena.arena
    exact Nodup.sublist (fewer.map Block.id) distinct
  fresh := by
    intro other member
    apply inv.fresh other
    rw [shape]
    rcases mem_append.mp member with inArena | inPool
    · exact mem_append_left _ inArena
    · exact mem_append_right _ (mem_cons_of_mem _ inPool)
  fits := inv.fits
  inChain := inv.inChain
  disjoint := inv.disjoint
  past := inv.past

theorem takeBlock_head (inv : arena.Inv) (aligned : Nat) :
    Head arena.arena arena.granted aligned (arena.takeBlock aligned).1
      (arena.takeBlock aligned).2 := by
  have enough : aligned ≤
        if aligned > srdAnnArenaBlockCap then aligned else srdAnnArenaBlockCap := by
    split
    · exact Nat.le_refl _
    · omega
  simp only [takeBlock]
  split
  · rename_i blk pool shape
    by_cases small : blk.cap < aligned
    · rw [if_pos small]
      exact miHeapZalloc_head (inv.of_pool shape) enough
    · rw [if_neg small]
      have distinct := inv.distinct
      rw [shape] at distinct
      have member : blk ∈ arena.arena ++ arena.pool := by
        rw [shape]
        exact mem_append_right _ mem_cons_self
      constructor
      case room =>
          change 0 + aligned ≤ blk.cap
          omega
      case distinct =>
          have moved : ((blk :: (arena.arena ++ pool)).map Block.id).Nodup :=
            (perm_middle.map Block.id).nodup_iff.mp distinct
          exact moved
      case fresh =>
          intro other inBlocks
          rcases mem_cons.mp inBlocks with rfl | older
          · exact inv.fresh blk member
          · exact (inv.of_pool shape).fresh other older
      case fits => exact inv.fits
      case granted => rfl
      case past => exact inv.past
      case below =>
          intro region granted
          exact Or.inr (inv.inChain region granted)
      case contents =>
          intro other inArena
          exact Or.inr inArena
  · exact miHeapZalloc_head inv enough

theorem headBlock_head (inv : arena.Inv) (aligned : Nat) :
    Head arena.arena arena.granted aligned (arena.headBlock aligned).1
      (arena.headBlock aligned).2 := by
  simp only [headBlock]
  split
  · rename_i blk chain shape
    by_cases full : blk.used + aligned > blk.cap
    · rw [if_pos full]
      exact takeBlock_head inv aligned
    · rw [if_neg full]
      constructor
      case room =>
          change blk.used + aligned ≤ blk.cap
          omega
      case distinct =>
          have distinct := inv.distinct
          rw [shape] at distinct
          exact distinct
      case fresh =>
          have fresh := inv.fresh
          rw [shape] at fresh
          exact fresh
      case fits =>
          intro other member
          apply inv.fits other
          rw [shape]
          exact mem_cons_of_mem _ member
      case granted => rfl
      case past => exact inv.past
      case below =>
          intro region granted
          obtain ⟨other, member, inBlock, used⟩ := inv.inChain region granted
          rw [shape] at member
          rcases mem_cons.mp member with rfl | later
          · exact Or.inl ⟨inBlock, used⟩
          · exact Or.inr ⟨other, later, inBlock, used⟩
      case contents =>
          intro other member
          rw [shape] at member
          exact mem_cons.mp member
  · exact takeBlock_head inv aligned

/-- Everything handed out before is still there, with the same contents. -/
structure Grows (before after : AnnArena) : Prop where
  granted : ∀ region ∈ before.granted, region ∈ after.granted
  view : ∀ region ∈ before.granted, ∀ ptr, region.Contains ptr → after.view ptr = before.view ptr

theorem Inv.view_of_chain
    {blk : Block} (inv : arena.Inv)
    (member : blk ∈ arena.arena) (inBlock : ptr.block = blk.id) :
    arena.view ptr =
      if ptr.offset < blk.cap then some (blk.data ptr.offset) else none :=
  viewOf_of_mem inv.distinct (mem_append_left _ member) inBlock

variable {region : Region}

theorem Inv.isSome_of_granted (inv : arena.Inv)
    (member : region ∈ arena.granted) (inside : region.Contains ptr) :
    (arena.view ptr).isSome := by
  obtain ⟨blk, inArena, inBlock, below⟩ := inv.inChain region member
  obtain ⟨block, _, upper⟩ := inside
  have fits := inv.fits blk inArena
  rw [inv.view_of_chain inArena (block.trans inBlock.symm), if_pos (by omega)]
  rfl

theorem srdAnnArenaAlloc_inv (inv : arena.Inv) (n : Nat) : (arena.srdAnnArenaAlloc n).2.Inv := by
  have head := headBlock_head inv (alignedSize n)
  simp only [srdAnnArenaAlloc]
  constructor
  case distinct => exact head.distinct
  case fresh =>
      intro other member
      rcases mem_cons.mp member with rfl | older
      · exact head.fresh (arena.headBlock (alignedSize n)).1 mem_cons_self
      · exact head.fresh other (mem_cons_of_mem _ older)
  case fits =>
      intro other member
      rcases mem_cons.mp member with rfl | older
      · exact head.room
      · exact head.fits other older
  case inChain =>
      intro region member
      rcases mem_cons.mp member with rfl | older
      · exact ⟨_, mem_cons_self, rfl, Nat.le_refl _⟩
      · rw [head.granted] at older
        rcases head.below region older with ⟨inBlock, used⟩ | ⟨other, inRest, rest⟩
        · exact ⟨_, mem_cons_self, inBlock, Nat.le_add_right_of_le used⟩
        · exact ⟨other, mem_cons_of_mem _ inRest, rest⟩
  case disjoint =>
      rw [head.granted]
      refine pairwise_cons.mpr ⟨?_, inv.disjoint⟩
      rintro region member ptr ⟨inHead, lower, _⟩ ⟨inRegion, _, upper⟩
      rcases head.below region member with ⟨_, used⟩ | ⟨other, inRest, inBlock, _⟩
      · change (arena.headBlock (alignedSize n)).1.used ≤ ptr.offset at lower
        omega
      · have same : (arena.headBlock (alignedSize n)).1.id = other.id :=
          inHead.symm.trans (inRegion.trans inBlock.symm)
        apply (nodup_cons.mp head.distinct).1
        rw [same]
        exact mem_map_of_mem (mem_append_left _ inRest)
  case past => exact head.past

theorem srdAnnArenaAlloc_granted (inv : arena.Inv) (n : Nat) :
    (arena.srdAnnArenaAlloc n).2.granted =
      ⟨(arena.srdAnnArenaAlloc n).1.block, (arena.srdAnnArenaAlloc n).1.offset,
        alignedSize n⟩ :: arena.granted :=
  congrArg (List.cons _) (headBlock_head inv (alignedSize n)).granted

theorem srdAnnArenaAlloc_grows (inv : arena.Inv) (n : Nat) :
    Grows arena (arena.srdAnnArenaAlloc n).2 where
  granted := by
    intro region member
    rw [srdAnnArenaAlloc_granted inv]
    exact mem_cons_of_mem _ member
  view := by
    intro region member ptr inside
    have head := headBlock_head inv (alignedSize n)
    obtain ⟨blk, inArena, inBlock, _⟩ := inv.inChain region member
    have block : ptr.block = blk.id := inside.1.trans inBlock.symm
    rw [inv.view_of_chain inArena block]
    rcases head.contents blk inArena with same | later
    · have headMember : { (arena.headBlock (alignedSize n)).1 with
          used := (arena.headBlock (alignedSize n)).1.used + alignedSize n } ∈
            (arena.srdAnnArenaAlloc n).2.arena := mem_cons_self
      subst same
      have seen := (srdAnnArenaAlloc_inv inv n).view_of_chain headMember block
      exact seen
    · exact (srdAnnArenaAlloc_inv inv n).view_of_chain (mem_cons_of_mem _ later) block

theorem write_view (arena : AnnArena) (ptr : Ptr) (cells : List Cell) :
    (arena.write ptr cells).view =
      viewOf (writeCells (arena.arena ++ arena.pool) ptr cells) := by
  rw [writeCells_append]
  rfl

theorem write_inv (inv : arena.Inv) (ptr : Ptr) (cells : List Cell) :
    (arena.write ptr cells).Inv where
  distinct := by
    change ((writeCells arena.arena ptr cells ++
      writeCells arena.pool ptr cells).map Block.id).Nodup
    rw [← writeCells_append, writeCells_ids]
    exact inv.distinct
  fresh := by
    intro blk member
    change blk ∈ writeCells arena.arena ptr cells ++ writeCells arena.pool ptr cells at member
    rw [← writeCells_append] at member
    obtain ⟨old, inOld, id, _⟩ := exists_of_mem_writeCells member
    rw [← id]
    exact inv.fresh old inOld
  fits := by
    intro blk member
    obtain ⟨old, inOld, _, used, cap⟩ := exists_of_mem_writeCells member
    rw [← used, ← cap]
    exact inv.fits old inOld
  inChain := by
    intro region member
    obtain ⟨old, inOld, inBlock, below⟩ := inv.inChain region member
    obtain ⟨blk, inNew, id, used, _⟩ := exists_mem_writeCells ptr cells inOld
    exact ⟨blk, inNew, id.trans inBlock, by rw [used]; exact below⟩
  disjoint := inv.disjoint
  past := inv.past

theorem write_view_outside {ptr other : Ptr} {cells : List Cell}
    (inside : ∀ i, i < cells.length → region.Contains (ptr.add i))
    (outside : ¬ region.Contains other) :
    (arena.write ptr cells).view other = arena.view other := by
  rw [write_view]
  apply viewOf_writeCells_outside
  intro i bound same
  apply outside
  rw [same]
  exact inside i bound

theorem write_holds {cells : List Cell} (inv : arena.Inv) (member : region ∈ arena.granted)
    (inside : ∀ i, i < cells.length → region.Contains (ptr.add i)) :
    MemoryView.Holds (arena.write ptr cells).view ptr cells := by
  rw [write_view]
  apply holds_writeCells
  intro i bound
  exact inv.isSome_of_granted member (inside i bound)

/-- A region of the batch holds the string and its terminating zero. -/
def StoredString (arena : AnnArena) (ptr : Ptr) (bytes : List UInt8) : Prop :=
  ∃ length, ⟨ptr.block, ptr.offset, length⟩ ∈ arena.granted ∧ bytes.length < length ∧
    MemoryView.Holds arena.view ptr (stringCells bytes)

theorem StoredString.congr
    {before after : AnnArena} {bytes : List UInt8}
    (stored : StoredString before ptr bytes)
    (granted : ∀ region ∈ before.granted, region ∈ after.granted)
    (view : ∀ i, i ≤ bytes.length → after.view (ptr.add i) = before.view (ptr.add i)) :
    StoredString after ptr bytes := by
  obtain ⟨length, member, short, holds⟩ := stored
  refine ⟨length, granted _ member, short, holds.congr ?_⟩
  intro i inside
  rw [stringCells_length] at inside
  exact view i (Nat.le_of_lt_succ inside)

theorem StoredString.grows
    {before after : AnnArena} {bytes : List UInt8}
    (stored : StoredString before ptr bytes) (grows : Grows before after) :
    StoredString after ptr bytes := by
  obtain ⟨length, member, short, _⟩ := id stored
  apply stored.congr grows.granted
  intro i bound
  exact grows.view _ member _ (Region.contains_add (Nat.lt_of_le_of_lt bound short))

theorem srdAnnArenaStrdup_spec (inv : arena.Inv) (bytes : List UInt8) :
    (arena.srdAnnArenaStrdup bytes).2.Inv ∧ Grows arena (arena.srdAnnArenaStrdup bytes).2 ∧
      StoredString (arena.srdAnnArenaStrdup bytes).2 (arena.srdAnnArenaStrdup bytes).1 bytes ∧
      (arena.srdAnnArenaStrdup bytes).2.granted = ⟨(arena.srdAnnArenaStrdup bytes).1.block,
          (arena.srdAnnArenaStrdup bytes).1.offset,
          alignedSize (bytes.length + 1)⟩ :: arena.granted := by
  have allocInv := srdAnnArenaAlloc_inv inv (bytes.length + 1)
  have allocGrows := srdAnnArenaAlloc_grows inv (bytes.length + 1)
  have granted := srdAnnArenaAlloc_granted inv (bytes.length + 1)
  have enough := alignedSize_ge (bytes.length + 1)
  have disjoint := allocInv.disjoint
  have member : ⟨(arena.srdAnnArenaAlloc (bytes.length + 1)).1.block,
        (arena.srdAnnArenaAlloc (bytes.length + 1)).1.offset,
        alignedSize (bytes.length + 1)⟩ ∈
          (arena.srdAnnArenaAlloc (bytes.length + 1)).2.granted := by
    rw [granted]
    exact mem_cons_self
  have inside : ∀ i, i < (stringCells bytes).length → Region.Contains
        ⟨(arena.srdAnnArenaAlloc (bytes.length + 1)).1.block,
          (arena.srdAnnArenaAlloc (bytes.length + 1)).1.offset,
          alignedSize (bytes.length + 1)⟩
        ((arena.srdAnnArenaAlloc (bytes.length + 1)).1.add i) := by
    intro i bound
    rw [stringCells_length] at bound
    exact Region.contains_add (Nat.lt_of_lt_of_le bound enough)
  rw [granted] at disjoint
  refine ⟨write_inv allocInv _ _, ⟨allocGrows.granted, ?_⟩,
    ⟨alignedSize (bytes.length + 1), member, by omega,
      write_holds allocInv member inside⟩, granted⟩
  intro region older ptr inRegion
  refine Eq.trans ?_ (allocGrows.view region older ptr inRegion)
  apply write_view_outside inside
  intro inNew
  exact (pairwise_cons.mp disjoint).1 region older ptr inNew inRegion

theorem moveToPool_distinct
    {chain pool : List Block} {poolCnt : Nat}
    (distinct : ((chain ++ pool).map Block.id).Nodup) :
    ((moveToPool chain pool poolCnt).map Block.id).Nodup ∧
      ∀ blk ∈ moveToPool chain pool poolCnt, blk ∈ chain ++ pool := by
  induction chain generalizing pool poolCnt with
  | nil => exact ⟨distinct, fun _ member => member⟩
  | cons blk chain ih =>
      simp only [moveToPool]
      split
      · have moved : ((chain ++ blk :: pool).map Block.id).Nodup :=
          (perm_middle.map Block.id).nodup_iff.mpr distinct
        obtain ⟨kept, subset⟩ := @ih _ (poolCnt + 1) moved
        refine ⟨kept, ?_⟩
        intro other member
        exact perm_middle.mem_iff.mp (subset other member)
      · obtain ⟨kept, subset⟩ :=
          @ih _ poolCnt (nodup_cons.mp distinct).2
        refine ⟨kept, ?_⟩
        intro other member
        exact mem_cons_of_mem _ (subset other member)

theorem recycle_inv (inv : arena.Inv) : arena.recycle.Inv where
  distinct := (moveToPool_distinct inv.distinct).1
  fresh := by
    intro blk member
    exact inv.fresh blk ((moveToPool_distinct inv.distinct).2 blk member)
  fits := by
    intro blk member
    cases member
  inChain := by
    intro region member
    cases member
  disjoint := List.Pairwise.nil
  past := by
    intro regions member
    rcases mem_append.mp member with earlier | last
    · exact inv.past regions earlier
    · rw [mem_singleton.mp last]
      exact inv.disjoint

end AnnArena

end SigrokDecode
