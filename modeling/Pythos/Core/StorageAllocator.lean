import Mathlib.Order.Interval.Finset.Nat
import Pythos.Foundation.BitSet
import Pythos.Foundation.Checked

/-!
# The bitmap allocator

A block allocator hands out runs of blocks from a bitmap of at most 64 blocks, first fit. The facts below
read the bitmap as the finite set of the blocks that are taken: an allocation takes the blocks of its
extent, which were free, and freeing an extent gives its blocks back. The extent is the first free run of the
layout, and along every run from a fresh allocator the live extents partition the taken blocks
(`firstFit_and_live_exact`).
-/

namespace Pythos.Core

open Foundation

def maxAllocatorBlocks : ℕ := 64

inductive AllocatorError
  | invalidLayout
  | outOfSpace
  | invalidExtent
  | journalFull
  | missingCommitMarker
  | checksumMismatch
  deriving DecidableEq, Repr

structure BlockExtent where
  startBlock : UInt16
  blockCount : UInt16
  deriving DecidableEq, Repr

/-- The blocks of an extent. -/
def BlockExtent.blocks (extent : BlockExtent) : Finset ℕ :=
  Finset.Ico extent.startBlock.toNat (extent.startBlock.toNat + extent.blockCount.toNat)

structure BlockAllocator where
  baseSector : UInt64
  blockCount : UInt16
  bitmap : BitVec 64
  committedBitmap : BitVec 64
  deriving DecidableEq, Repr

/-- `count` blocks from `start` on are free, and inside the layout. -/
def BlockAllocator.FreeRun (allocator : BlockAllocator) (count start : ℕ) : Prop :=
  start + count ≤ allocator.blockCount.toNat ∧
    Disjoint (members allocator.bitmap) (Finset.Ico start (start + count))

instance (allocator : BlockAllocator) (count : ℕ) : DecidablePred (allocator.FreeRun count) :=
  fun _ ↦ inferInstanceAs (Decidable (_ ∧ _))

/-- `start_block.checked_add(block_count)`. -/
def BlockExtent.stop (extent : BlockExtent) : Except AllocatorError ℕ :=
  if extent.startBlock.toNat + extent.blockCount.toNat < 2 ^ 16 then
    .ok (extent.startBlock.toNat + extent.blockCount.toNat)
  else .error .invalidExtent

/-- The loop of `bitmap_with_extent`. -/
def markBlocks (bitmap : BitVec 64) (extent : BlockExtent) (used : Bool) : BitVec 64 :=
  (List.range extent.blockCount.toNat).foldl (fun bitmap offset ↦
    if used then bitmap ||| (1#64 <<< (extent.startBlock.toNat + offset))
    else bitmap &&& ~~~(1#64 <<< (extent.startBlock.toNat + offset))) bitmap

def bitmapWithExtent (bitmap : BitVec 64) (extent : BlockExtent) (used : Bool) :
    Except AllocatorError (BitVec 64) := do
  let stop ← extent.stop
  if stop > maxAllocatorBlocks then .error .invalidExtent
  else .ok (markBlocks bitmap extent used)

def bitmapOutsideBlockCount (bitmap : BitVec 64) (blockCount : UInt16) : Bool :=
  if blockCount.toNat = maxAllocatorBlocks then false
  else bitmap &&& ~~~(1#64 <<< blockCount.toNat - 1#64) ≠ 0#64

namespace BlockAllocator

def new (baseSector : UInt64) (blockCount : UInt16) : Except AllocatorError BlockAllocator :=
  if blockCount.toNat = 0 ∨ blockCount.toNat > maxAllocatorBlocks then .error .invalidLayout
  else if ¬ baseSector.toNat + blockCount.toNat < 2 ^ 64 then .error .invalidLayout
  else .ok { baseSector, blockCount, bitmap := 0#64, committedBitmap := 0#64 }

def restoreFromBitmap (baseSector : UInt64) (blockCount : UInt16) (committedBitmap : BitVec 64) :
    Except AllocatorError BlockAllocator := do
  let allocator ← new baseSector blockCount
  if bitmapOutsideBlockCount committedBitmap blockCount then .error .invalidExtent
  else .ok { allocator with bitmap := committedBitmap, committedBitmap := committedBitmap }

def validateExtent (allocator : BlockAllocator) (extent : BlockExtent) :
    Except AllocatorError Unit :=
  if extent.blockCount.toNat = 0 then .error .invalidExtent
  else do
    let stop ← extent.stop
    if stop > allocator.blockCount.toNat then .error .invalidExtent else .ok ()

/-- The loop of `extent_is_free` over the blocks of the extent. -/
def extentIsFree (allocator : BlockAllocator) (extent : BlockExtent) : Except AllocatorError Bool := do
  allocator.validateExtent extent
  .ok ((List.range extent.blockCount.toNat).all fun offset ↦
    allocator.bitmap &&& (1#64 <<< (extent.startBlock.toNat + offset)) = 0#64)

/-- The loop of `find_free_extent` over the remaining starts. -/
def searchFreeExtent (allocator : BlockAllocator) (requested : UInt16) :
    List ℕ → Except AllocatorError BlockExtent
  | [] => .error .outOfSpace
  | start :: rest => do
    if ← allocator.extentIsFree ⟨UInt16.ofNat start, requested⟩ then
      .ok ⟨UInt16.ofNat start, requested⟩
    else allocator.searchFreeExtent requested rest

def findFreeExtent (allocator : BlockAllocator) (requested : UInt16) :
    Except AllocatorError BlockExtent :=
  if requested.toNat = 0 ∨ requested.toNat > allocator.blockCount.toNat then .error .invalidExtent
  else
    allocator.searchFreeExtent requested
      (List.range (allocator.blockCount.toNat - requested.toNat + 1))

def allocate (allocator : BlockAllocator) (blockCount : UInt16) :
    Except AllocatorError (BlockExtent × BlockAllocator) := do
  let extent ← allocator.findFreeExtent blockCount
  let bitmap ← bitmapWithExtent allocator.bitmap extent true
  .ok (extent, { allocator with bitmap := bitmap, committedBitmap := bitmap })

def free (allocator : BlockAllocator) (extent : BlockExtent) :
    Except AllocatorError BlockAllocator := do
  allocator.validateExtent extent
  let bitmap ← bitmapWithExtent allocator.bitmap extent false
  .ok { allocator with bitmap := bitmap, committedBitmap := bitmap }

end BlockAllocator

/-! ### Blocks -/

variable {extent : BlockExtent}

theorem BlockExtent.stop_eq_ok {stop : ℕ} (h : extent.stop = .ok stop) :
    stop = extent.startBlock.toNat + extent.blockCount.toNat := by
  unfold BlockExtent.stop at h
  split_ifs at h
  exact (Except.ok.inj h).symm

theorem members_markBlocks {bitmap : BitVec 64}
    (h : extent.startBlock.toNat + extent.blockCount.toNat ≤ 64) (used : Bool) :
    members (markBlocks bitmap extent used) =
      if used then members bitmap ∪ extent.blocks else members bitmap \ extent.blocks := by
  unfold markBlocks BlockExtent.blocks
  generalize extent.startBlock.toNat = start at *
  generalize extent.blockCount.toNat = count at *
  -- the loop has marked the first `count` blocks
  induction count with
  | zero => cases used <;> simp
  | succ count ih =>
    have hlt : start + count < 64 := by omega
    rw [List.range_succ, List.foldl_append, List.foldl_cons, List.foldl_nil]
    have hstep := ih (by omega)
    have hico : Finset.Ico start (start + (count + 1)) =
        insert (start + count) (Finset.Ico start (start + count)) := by
      ext block
      simp only [Finset.mem_Ico, Finset.mem_insert]
      omega
    cases used with
    | true =>
      simp only [if_true] at hstep ⊢
      rw [members_or, hstep, members_single hlt, hico]
      ext block
      simp only [Finset.mem_union, Finset.mem_insert, Finset.mem_singleton]
      tauto
    | false =>
      simp only [Bool.false_eq_true, if_false] at hstep ⊢
      rw [members_and_not_single _ hlt, hstep, hico]
      ext block
      simp only [Finset.mem_erase, Finset.mem_sdiff, Finset.mem_insert]
      tauto

theorem bitmapWithExtent_of_le (bitmap : BitVec 64) (used : Bool)
    (h : extent.startBlock.toNat + extent.blockCount.toNat ≤ maxAllocatorBlocks) :
    bitmapWithExtent bitmap extent used = .ok (markBlocks bitmap extent used) := by
  have hstop : extent.stop = .ok (extent.startBlock.toNat + extent.blockCount.toNat) :=
    if_pos (h.trans_lt (by decide))
  rw [bitmapWithExtent, hstop]
  exact if_neg (Nat.not_lt.mpr h)

theorem bitmapWithExtent_eq_ok {bitmap bitmap' : BitVec 64} {used : Bool}
    (h : bitmapWithExtent bitmap extent used = .ok bitmap') :
    members bitmap' =
      if used then members bitmap ∪ extent.blocks else members bitmap \ extent.blocks := by
  unfold bitmapWithExtent at h
  obtain ⟨stop, hstop, h⟩ := bind_eq_ok_iff.mp h
  have hvalue := BlockExtent.stop_eq_ok hstop
  split_ifs at h with hlong
  obtain rfl := Except.ok.inj h
  exact members_markBlocks (hvalue ▸ Nat.not_lt.mp hlong) used

namespace BlockAllocator

/-- A bitmap of a layout with at most 64 blocks, all its bits inside the layout. -/
structure WellFormed (allocator : BlockAllocator) : Prop where
  blockCount_pos : 0 < allocator.blockCount.toNat
  blockCount_le : allocator.blockCount.toNat ≤ maxAllocatorBlocks
  sectors_lt : allocator.baseSector.toNat + allocator.blockCount.toNat < 2 ^ 64
  committed_eq : allocator.committedBitmap = allocator.bitmap
  inside : members allocator.bitmap ⊆ Finset.range allocator.blockCount.toNat

variable {allocator : BlockAllocator} {extent : BlockExtent} {blockCount : UInt16}

theorem validateExtent_eq_ok (h : allocator.validateExtent extent = .ok ()) :
    0 < extent.blockCount.toNat ∧
      extent.startBlock.toNat + extent.blockCount.toNat ≤ allocator.blockCount.toNat := by
  unfold validateExtent at h
  split_ifs at h with hzero
  obtain ⟨stop, hstop, h⟩ := bind_eq_ok_iff.mp h
  have hvalue := BlockExtent.stop_eq_ok hstop
  split_ifs at h with hlong
  exact ⟨by omega, by omega⟩

theorem validateExtent_of_le (hpos : 0 < extent.blockCount.toNat)
    (hle : extent.startBlock.toNat + extent.blockCount.toNat ≤ allocator.blockCount.toNat)
    (hcount : allocator.blockCount.toNat ≤ maxAllocatorBlocks) :
    allocator.validateExtent extent = .ok () := by
  have hstop : extent.stop = .ok (extent.startBlock.toNat + extent.blockCount.toNat) :=
    if_pos ((hle.trans hcount).trans_lt (by decide))
  rw [validateExtent, if_neg (by omega), hstop]
  exact if_neg (by omega)

section FirstFit

variable (hcount : allocator.blockCount.toNat ≤ maxAllocatorBlocks)

include hcount

theorem toNat_start {start count : ℕ} (h : start + count ≤ allocator.blockCount.toNat) :
    (UInt16.ofNat start).toNat = start :=
  UInt16.toNat_ofNat_of_lt' (by
    unfold maxAllocatorBlocks at hcount
    rw [UInt16.size]
    omega)

theorem extentIsFree_of_valid (hvalid : allocator.validateExtent extent = .ok ()) :
    allocator.extentIsFree extent = .ok (decide (Disjoint (members allocator.bitmap) extent.blocks)) := by
  have hbounds := validateExtent_eq_ok hvalid
  unfold maxAllocatorBlocks at hcount
  have hbit : ∀ offset < extent.blockCount.toNat,
      allocator.bitmap &&& (1#64 <<< (extent.startBlock.toNat + offset)) = 0#64 ↔
        extent.startBlock.toNat + offset ∉ members allocator.bitmap :=
    fun offset hoffset ↦ and_single_eq_zero_iff (by omega)
  rw [extentIsFree, hvalid, ok_bind, Except.ok.injEq, Bool.eq_iff_iff, List.all_eq_true,
    decide_eq_true_iff, Finset.disjoint_right, BlockExtent.blocks]
  constructor
  · intro hall block hblock
    obtain ⟨hlow, hhigh⟩ := Finset.mem_Ico.mp hblock
    obtain ⟨offset, rfl⟩ := Nat.exists_eq_add_of_le hlow
    have hoffset : offset < extent.blockCount.toNat := by omega
    exact (hbit offset hoffset).mp (of_decide_eq_true (hall offset (List.mem_range.mpr hoffset)))
  · intro hfree offset hoffset
    rw [List.mem_range] at hoffset
    exact decide_eq_true ((hbit offset hoffset).mpr
      fun hmem ↦ hfree (Finset.mem_Ico.mpr ⟨by omega, by omega⟩) hmem)

/-- The search stops at the first start of a free run. -/
theorem searchFreeExtent_eq (hpos : 0 < blockCount.toNat) {starts : List ℕ}
    (hstarts : ∀ start ∈ starts, start + blockCount.toNat ≤ allocator.blockCount.toNat) :
    allocator.searchFreeExtent blockCount starts =
      match starts.find? fun start ↦ allocator.FreeRun blockCount.toNat start with
      | some start => .ok ⟨UInt16.ofNat start, blockCount⟩
      | none => .error .outOfSpace := by
  induction starts with
  | nil => rfl
  | cons start rest ih =>
    have hle := hstarts start List.mem_cons_self
    have hstart := toNat_start hcount hle
    have hvalid : allocator.validateExtent ⟨UInt16.ofNat start, blockCount⟩ = .ok () :=
      validateExtent_of_le hpos (hstart.symm ▸ hle) hcount
    rw [searchFreeExtent, extentIsFree_of_valid hcount hvalid, ok_bind, BlockExtent.blocks, hstart]
    by_cases hfree : allocator.FreeRun blockCount.toNat start
    · rw [List.find?_cons, decide_eq_true hfree, if_pos (decide_eq_true hfree.2)]
    · rw [List.find?_cons, decide_eq_false hfree,
        if_neg fun hdisjoint ↦ hfree ⟨hle, of_decide_eq_true hdisjoint⟩]
      exact ih fun other hother ↦ hstarts other (List.mem_cons_of_mem _ hother)

/-- An extent is found exactly when there is a free run, and then it is the first one. -/
theorem findFreeExtent_cases (blockCount : UInt16) :
    match allocator.findFreeExtent blockCount with
    | .ok extent => 0 < blockCount.toNat ∧ extent.blockCount = blockCount ∧
        IsLeast {start | allocator.FreeRun blockCount.toNat start} extent.startBlock.toNat
    | .error _ => blockCount.toNat = 0 ∨ ∀ start, ¬ allocator.FreeRun blockCount.toNat start := by
  rw [findFreeExtent]
  split_ifs with hrefused
  · exact hrefused.imp_right fun hlong start hfree ↦ by
      have := hfree.1
      omega
  have hpos : 0 < blockCount.toNat := by omega
  have hinRange : ∀ start, start < allocator.blockCount.toNat - blockCount.toNat + 1 ↔
      start + blockCount.toNat ≤ allocator.blockCount.toNat := by omega
  rw [searchFreeExtent_eq hcount hpos fun start hmem ↦ (hinRange start).mp (List.mem_range.mp hmem)]
  cases hfind : (List.range (allocator.blockCount.toNat - blockCount.toNat + 1)).find?
      fun start ↦ allocator.FreeRun blockCount.toNat start with
  | none =>
    refine Or.inr fun start hfree ↦ ?_
    have hnone := List.find?_range_eq_none.mp hfind start ((hinRange start).mpr hfree.1)
    simp [hfree] at hnone
  | some start =>
    obtain ⟨hfree, -, hbefore⟩ := List.find?_range_eq_some.mp hfind
    have hfree : allocator.FreeRun blockCount.toNat start := of_decide_eq_true hfree
    have hstart := toNat_start hcount hfree.1
    refine ⟨hpos, rfl, hstart.symm ▸ hfree, fun other hother ↦ ?_⟩
    rw [hstart]
    by_contra hlt
    have hnot := hbefore other (Nat.not_le.mp hlt)
    exact absurd hother (by simpa using hnot)

theorem findFreeExtent_eq_ok (h : allocator.findFreeExtent blockCount = .ok extent) :
    allocator.validateExtent extent = .ok () ∧ Disjoint (members allocator.bitmap) extent.blocks := by
  have hcases := findFreeExtent_cases hcount blockCount
  rw [h] at hcases
  obtain ⟨hpos, rfl, hleast⟩ := hcases
  exact ⟨validateExtent_of_le hpos hleast.1.1 hcount, hleast.1.2⟩

/-- An allocation takes the first free run, and fails when there is none. -/
theorem allocate_cases (hpos : 1 ≤ blockCount.toNat) :
    match allocator.allocate blockCount with
    | .ok (extent, _) => extent.blockCount = blockCount ∧
        IsLeast {start | allocator.FreeRun blockCount.toNat start} extent.startBlock.toNat
    | .error _ => ∀ start, ¬ allocator.FreeRun blockCount.toNat start := by
  have hcases := findFreeExtent_cases hcount blockCount
  rw [allocate]
  cases hfind : allocator.findFreeExtent blockCount with
  | error error =>
    rw [hfind] at hcases
    exact hcases.resolve_left (by omega)
  | ok extent =>
    rw [hfind] at hcases
    obtain ⟨-, rfl, hleast⟩ := hcases
    rw [ok_bind, bitmapWithExtent_of_le _ _ (hleast.1.1.trans hcount)]
    exact ⟨rfl, hleast⟩

end FirstFit

/-- A bitmap inside the layout stays inside it when a valid extent is marked. -/
theorem subset_of_mark {bitmap : BitVec 64}
    (hinside : members allocator.bitmap ⊆ Finset.range allocator.blockCount.toNat)
    (hvalid : allocator.validateExtent extent = .ok ())
    (hmembers : members bitmap = members allocator.bitmap ∪ extent.blocks) :
    members bitmap ⊆ Finset.range allocator.blockCount.toNat := by
  have hbounds := validateExtent_eq_ok hvalid
  rw [hmembers]
  refine Finset.union_subset hinside fun block hblock ↦ ?_
  obtain ⟨-, hhigh⟩ := Finset.mem_Ico.mp hblock
  exact Finset.mem_range.mpr (by omega)

/-- An allocation takes free blocks inside the layout. -/
theorem allocate_eq_ok {allocator' : BlockAllocator} (hwell : allocator.WellFormed)
    (h : allocator.allocate blockCount = .ok (extent, allocator')) :
    allocator'.WellFormed ∧ Disjoint (members allocator.bitmap) extent.blocks ∧
      members allocator'.bitmap = members allocator.bitmap ∪ extent.blocks ∧
      allocator'.baseSector = allocator.baseSector ∧
      allocator'.blockCount = allocator.blockCount ∧
      allocator.validateExtent extent = .ok () := by
  unfold allocate at h
  obtain ⟨found, hfound, h⟩ := bind_eq_ok_iff.mp h
  obtain ⟨bitmap, hbitmap, h⟩ := bind_eq_ok_iff.mp h
  obtain ⟨rfl, rfl⟩ := Prod.mk.inj (Except.ok.inj h)
  obtain ⟨hvalid, hdisjoint⟩ := findFreeExtent_eq_ok hwell.blockCount_le hfound
  have hmembers : members bitmap = members allocator.bitmap ∪ found.blocks := by
    simpa using bitmapWithExtent_eq_ok hbitmap
  have hinside := subset_of_mark hwell.inside hvalid hmembers
  exact ⟨⟨hwell.blockCount_pos, hwell.blockCount_le, hwell.sectors_lt, rfl, hinside⟩, hdisjoint,
    hmembers, rfl, rfl, hvalid⟩

/-- Freeing an extent inside the layout gives its blocks back. -/
theorem free_of_valid (hwell : allocator.WellFormed)
    (hvalid : allocator.validateExtent extent = .ok ()) :
    ∃ allocator', allocator.free extent = .ok allocator' ∧ allocator'.WellFormed ∧
      members allocator'.bitmap = members allocator.bitmap \ extent.blocks ∧
      allocator'.baseSector = allocator.baseSector ∧
      allocator'.blockCount = allocator.blockCount := by
  have hbitmap := bitmapWithExtent_of_le allocator.bitmap false
    ((validateExtent_eq_ok hvalid).2.trans hwell.blockCount_le)
  have hmembers : members (markBlocks allocator.bitmap extent false) =
      members allocator.bitmap \ extent.blocks := by
    simpa using bitmapWithExtent_eq_ok hbitmap
  have hfree : allocator.free extent =
      .ok { allocator with
        bitmap := markBlocks allocator.bitmap extent false
        committedBitmap := markBlocks allocator.bitmap extent false } := by
    rw [free, hvalid, hbitmap]
    rfl
  refine ⟨_, hfree, ⟨hwell.blockCount_pos, hwell.blockCount_le, hwell.sectors_lt, rfl, ?_⟩,
    hmembers, rfl, rfl⟩
  show members (markBlocks allocator.bitmap extent false) ⊆ _
  rw [hmembers]
  exact Finset.sdiff_subset.trans hwell.inside

/-! ### Restoring -/

theorem new_eq_ok {baseSector : UInt64} (h : new baseSector blockCount = .ok allocator) :
    allocator.WellFormed ∧
      allocator = { baseSector, blockCount, bitmap := 0#64, committedBitmap := 0#64 } := by
  unfold new at h
  split_ifs at h with hcount hsectors
  obtain rfl := Except.ok.inj h
  push Not at hcount
  refine ⟨⟨Nat.pos_of_ne_zero hcount.1, hcount.2, hsectors, rfl, ?_⟩, rfl⟩
  simp

theorem bitmapOutsideBlockCount_of_subset {bitmap : BitVec 64}
    (hle : blockCount.toNat ≤ maxAllocatorBlocks)
    (hinside : members bitmap ⊆ Finset.range blockCount.toNat) :
    bitmapOutsideBlockCount bitmap blockCount = false := by
  unfold bitmapOutsideBlockCount
  split_ifs with hfull
  · rfl
  · have hlt : blockCount.toNat < 64 := by
      unfold maxAllocatorBlocks at hle hfull
      omega
    have hempty : members (bitmap &&& ~~~(1#64 <<< blockCount.toNat - 1#64)) = ∅ := by
      refine Finset.eq_empty_of_forall_notMem fun block hblock ↦ ?_
      rw [mem_members, BitVec.getLsbD_and, BitVec.getLsbD_not, Bool.and_eq_true, Bool.and_eq_true]
        at hblock
      have hmask : block ∈ members (1#64 <<< blockCount.toNat - 1#64) := by
        rw [members_mask hlt]
        exact hinside (mem_members.mpr hblock.1)
      rw [mem_members.mp hmask] at hblock
      simp at hblock
    simpa using members_eq_empty_iff.mp hempty

/-- An allocator is restored from its committed bitmap. -/
theorem restoreFromBitmap_of_wellFormed (h : allocator.WellFormed) :
    restoreFromBitmap allocator.baseSector allocator.blockCount allocator.committedBitmap =
      .ok allocator := by
  have hpos := h.blockCount_pos
  have hle := h.blockCount_le
  have hnew : new allocator.baseSector allocator.blockCount =
      .ok { allocator with bitmap := 0#64, committedBitmap := 0#64 } := by
    rw [new, if_neg (by omega), if_neg (not_not.mpr h.sectors_lt)]
  have hinside := h.inside
  rw [← h.committed_eq] at hinside
  rw [restoreFromBitmap, hnew, ok_bind,
    bitmapOutsideBlockCount_of_subset hle hinside, if_neg Bool.false_ne_true]
  congr
  exact h.committed_eq

/-! ### Live extents -/

/-- The extents do not overlap, lie inside the layout, and are together the taken blocks. -/
structure Covers (allocator : BlockAllocator) (extents : List BlockExtent) : Prop where
  wellFormed : allocator.WellFormed
  valid : ∀ extent ∈ extents, allocator.validateExtent extent = .ok ()
  disjoint : extents.Pairwise fun first second ↦ Disjoint first.blocks second.blocks
  taken : ∀ block, block ∈ members allocator.bitmap ↔ ∃ extent ∈ extents, block ∈ extent.blocks

/-- Two allocators over the same sectors. -/
def SameLayout (first second : BlockAllocator) : Prop :=
  first.baseSector = second.baseSector ∧ first.blockCount = second.blockCount

theorem SameLayout.validateExtent {first second : BlockAllocator} (h : first.SameLayout second)
    (extent : BlockExtent) : first.validateExtent extent = second.validateExtent extent := by
  unfold BlockAllocator.validateExtent
  rw [h.2]

namespace Covers

variable {allocator' : BlockAllocator} {extents rest : List BlockExtent}

theorem perm (h : allocator.Covers extents) (hperm : rest.Perm extents) : allocator.Covers rest where
  wellFormed := h.wellFormed
  valid := fun extent hextent ↦ h.valid extent (hperm.mem_iff.mp hextent)
  disjoint := (hperm.pairwise_iff fun hdisjoint ↦ hdisjoint.symm).mpr h.disjoint
  taken := fun block ↦ by simpa only [hperm.mem_iff] using h.taken block

theorem allocate (h : allocator.Covers extents)
    (hallocate : allocator.allocate blockCount = .ok (extent, allocator')) :
    allocator'.Covers (extent :: extents) ∧ allocator'.SameLayout allocator := by
  obtain ⟨hwell, hfree, htaken, hbase, hcount, hvalid⟩ := allocate_eq_ok h.wellFormed hallocate
  have hlayout : allocator'.SameLayout allocator := ⟨hbase, hcount⟩
  refine ⟨⟨hwell, ?_, ?_, ?_⟩, hlayout⟩
  · intro other hother
    rw [hlayout.validateExtent]
    rcases List.mem_cons.mp hother with rfl | hold
    · exact hvalid
    · exact h.valid other hold
  · refine List.pairwise_cons.mpr ⟨fun other hother ↦ ?_, h.disjoint⟩
    refine (hfree.mono_left fun block hblock ↦ ?_).symm
    exact (h.taken block).mpr ⟨other, hother, hblock⟩
  · intro block
    rw [htaken, Finset.mem_union, h.taken, List.exists_mem_cons_iff, or_comm]

theorem free (h : allocator.Covers (extent :: rest)) :
    ∃ allocator', allocator.free extent = .ok allocator' ∧ allocator'.Covers rest ∧
      allocator'.SameLayout allocator := by
  obtain ⟨allocator', hfree, hwell, htaken, hbase, hcount⟩ :=
    free_of_valid h.wellFormed (h.valid extent List.mem_cons_self)
  have hlayout : allocator'.SameLayout allocator := ⟨hbase, hcount⟩
  obtain ⟨hapart, hdisjoint⟩ := List.pairwise_cons.mp h.disjoint
  refine ⟨allocator', hfree, ⟨hwell, ?_, hdisjoint, ?_⟩, hlayout⟩
  · intro other hother
    rw [hlayout.validateExtent]
    exact h.valid other (List.mem_cons_of_mem _ hother)
  · intro block
    rw [htaken, Finset.mem_sdiff, h.taken, List.exists_mem_cons_iff]
    constructor
    · rintro ⟨hheld | hheld, hnot⟩
      · exact absurd hheld hnot
      · exact hheld
    · rintro ⟨other, hother, hblock⟩
      refine ⟨Or.inr ⟨other, hother, hblock⟩, fun hboth ↦ ?_⟩
      exact Finset.disjoint_left.mp (hapart other hother) hboth hblock

end Covers

/-- A call of a client that frees live extents only: the one at a position among the live extents. -/
inductive Call
  | allocate (blockCount : UInt16)
  | free (position : ℕ)

/-- An allocator with the extents that were allocated and not freed since. A call that fails changes
nothing, and without a live extent at the position there is no call. -/
def step : BlockAllocator × List BlockExtent → Call → BlockAllocator × List BlockExtent
  | (allocator, live), .allocate blockCount =>
    match allocator.allocate blockCount with
    | .ok (extent, allocator) => (allocator, extent :: live)
    | .error _ => (allocator, live)
  | (allocator, live), .free position =>
    match live[position]?.map allocator.free with
    | some (.ok allocator) => (allocator, live.eraseIdx position)
    | _ => (allocator, live)

theorem Covers.step {state : BlockAllocator × List BlockExtent} (h : state.1.Covers state.2) (call : Call) :
    (step state call).1.Covers (step state call).2 ∧ (step state call).1.SameLayout state.1 := by
  obtain ⟨allocator, live⟩ := state
  cases call with
  | allocate blockCount =>
    rw [BlockAllocator.step]
    split
    · next hallocate => exact h.allocate hallocate
    · exact ⟨h, rfl, rfl⟩
  | free position =>
    rw [BlockAllocator.step]
    split
    · next freed hfreed =>
      obtain ⟨extent, hextent, hfree⟩ := Option.map_eq_some_iff.mp hfreed
      obtain ⟨hlt, rfl⟩ := List.getElem?_eq_some_iff.mp hextent
      obtain ⟨_, hfree', hcovers, hlayout⟩ := (h.perm (List.getElem_cons_eraseIdx_perm hlt)).free
      obtain rfl := Except.ok.inj (hfree.symm.trans hfree')
      exact ⟨hcovers, hlayout⟩
    · exact ⟨h, rfl, rfl⟩

/-- An allocation returns the first free run of the layout, and fails exactly when there is none. From a
fresh allocator on, under any allocations and any frees of live extents, the live extents are disjoint, lie
inside the layout and are together the taken blocks. -/
theorem firstFit_and_live_exact :
    (∀ (allocator : BlockAllocator) (requested : UInt16),
      allocator.blockCount.toNat ≤ maxAllocatorBlocks → 1 ≤ requested.toNat →
      match allocator.allocate requested with
      | .ok (extent, _) => extent.blockCount = requested ∧
          IsLeast {start | allocator.FreeRun requested.toNat start} extent.startBlock.toNat
      | .error _ => ∀ start, ¬ allocator.FreeRun requested.toNat start) ∧
    ∀ (baseSector : UInt64) (blockCount : UInt16) (allocator : BlockAllocator) (calls : List Call),
      new baseSector blockCount = .ok allocator →
      let state := calls.foldl step (allocator, [])
      (state.2.Pairwise fun first second ↦ Disjoint first.blocks second.blocks) ∧
        (∀ extent ∈ state.2, extent.blocks ⊆ Finset.range blockCount.toNat) ∧
        ∀ block, block ∈ members state.1.bitmap ↔ ∃ extent ∈ state.2, block ∈ extent.blocks := by
  constructor
  · exact fun allocator requested hcount hpos ↦ allocate_cases hcount hpos
  · intro baseSector blockCount allocator calls hnew
    obtain ⟨hwell, rfl⟩ := new_eq_ok hnew
    have hfresh : Covers ⟨baseSector, blockCount, 0#64, 0#64⟩ [] := ⟨hwell, by simp, .nil, by simp⟩
    obtain ⟨hcovers, hlayout⟩ := List.foldlRecOn calls step (b := (⟨baseSector, blockCount, 0#64, 0#64⟩, []))
      (motive := fun state ↦ state.1.Covers state.2 ∧ state.1.blockCount = blockCount) ⟨hfresh, rfl⟩
      fun state h call _ ↦ ⟨(h.1.step call).1, (h.1.step call).2.2.trans h.2⟩
    refine ⟨hcovers.disjoint, fun extent hextent block hblock ↦ ?_, hcovers.taken⟩
    have hbounds := validateExtent_eq_ok (hcovers.valid extent hextent)
    rw [hlayout] at hbounds
    exact Finset.mem_range.mpr ((Finset.mem_Ico.mp hblock).2.trans_le hbounds.2)

/-- Eight blocks, of which blocks 2 and 5 are taken. -/
def eightBlocks : BlockAllocator := ⟨80, 8, 0x24#64, 0x24#64⟩

theorem firstFit_and_live_exact_eightBlocks :
    IsLeast {start | eightBlocks.FreeRun 2 start} 0 ∧ (∀ start, ¬ eightBlocks.FreeRun 3 start) ∧
      [Call.allocate 2, .allocate 2, .free 1, .allocate 1].foldl step (⟨80, 8, 0#64, 0#64⟩, []) =
        (⟨80, 8, 0xD#64, 0xD#64⟩, [⟨0, 1⟩, ⟨2, 2⟩]) ∧
      Disjoint (BlockExtent.mk 0 1).blocks (BlockExtent.mk 2 2).blocks := by
  have hfits := firstFit_and_live_exact.1 eightBlocks 2 (by decide) (by decide)
  rw [show eightBlocks.allocate 2 = .ok (⟨0, 2⟩, ⟨80, 8, 0x27#64, 0x27#64⟩) by decide +kernel] at hfits
  have hfails := firstFit_and_live_exact.1 eightBlocks 3 (by decide) (by decide)
  rw [show eightBlocks.allocate 3 = .error .outOfSpace by decide +kernel] at hfails
  have hlive := (firstFit_and_live_exact.2 80 8 _ [.allocate 2, .allocate 2, .free 1, .allocate 1] rfl).1
  have hrun : [Call.allocate 2, .allocate 2, .free 1, .allocate 1].foldl step (⟨80, 8, 0#64, 0#64⟩, []) =
      (⟨80, 8, 0xD#64, 0xD#64⟩, [⟨0, 1⟩, ⟨2, 2⟩]) := by decide +kernel
  rw [hrun] at hlive
  exact ⟨hfits.2, hfails, hrun, List.rel_of_pairwise_cons hlive List.mem_cons_self⟩

end BlockAllocator

end Pythos.Core
