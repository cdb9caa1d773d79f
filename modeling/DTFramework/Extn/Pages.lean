import DTFramework.Lib.Tiles
import DTFramework.Extn.Prop

/-!
# Memory of the table in the UEFI build

Built for UEFI, `__dtb_malloc` cuts small blocks off a page it keeps in two static
pointers, and asks `AllocatePages` for large blocks and for a new page. The blocks
are placed well (`Placed`) as long as no request for pages is refused; a refusal is
answered with `NULL` and success, and the next block is cut off page zero, behind
the bytes of the refused one (`pool_exact`).

Results:

* `uefiDtbMalloc_inv`: a request that is granted keeps the blocks placed;
* `uefiDtbMalloc_refused`: one that is refused is answered with `NULL`;
* `pool_exact`: the runs whose blocks are all placed well.
-/
namespace DTFramework.Extn

open DTFramework.Lib

abbrev EFI_PAGE_SIZE : Nat := 4096

abbrev MEMORY_ALLOC_ALIGN_MASK : Nat := 7

/-- `EFI_SIZE_TO_PAGES` -/
def efiSizeToPages (size : Nat) : Nat := size / EFI_PAGE_SIZE + (if size % EFI_PAGE_SIZE ≠ 0 then 1 else 0)

/-- A request for pages and its answer, `NULL` when it was refused. -/
structure PageRequest where
  pages : Nat
  addr : Nat
deriving DecidableEq, Repr

/-- Pages were granted, and the range from `a` on is in them. -/
def PageRequest.Holds (r : PageRequest) (a n : Nat) : Prop :=
  r.addr ≠ 0 ∧ r.addr ≤ a ∧ a + n ≤ r.addr + EFI_PAGE_SIZE * r.pages

/-- The firmware: what `AllocatePages` answers after the requests so far, newest
first, and whether `ASSERT` stops. -/
structure PageEnv where
  AllocatePages : List PageRequest → Nat → Nat
  asserts : Bool

/-- Pages that are granted are whole pages of the address space that were not
granted before. -/
def PageEnv.Lawful (e : PageEnv) : Prop :=
  ∀ requests n, e.AllocatePages requests n ≠ 0 →
    e.AllocatePages requests n % EFI_PAGE_SIZE = 0 ∧ e.AllocatePages requests n + EFI_PAGE_SIZE * n < 2 ^ 64 ∧
      ∀ r ∈ requests, r.addr ≠ 0 → e.AllocatePages requests n + EFI_PAGE_SIZE * n ≤ r.addr ∨
        r.addr + EFI_PAGE_SIZE * r.pages ≤ e.AllocatePages requests n

/-- The static pointers of `__dtb_malloc`, and the requests for pages so far. -/
structure PoolState where
  FreeBufferPtr : Nat
  EndPtr : Nat
  requests : List PageRequest
deriving DecidableEq, Repr

def PoolState.init : PoolState := ⟨0, 0, []⟩

/-- mirrors libs/DTBExtnLib/DTBExtnLib_node.c:185-198: the answer and the state. -/
def allocateZeroPoolNoFree (e : PageEnv) (AllocationSize : Nat) (s : PoolState) : Nat × PoolState :=
  let pages := efiSizeToPages AllocationSize
  let memory := e.AllocatePages s.requests pages
  (memory, { s with requests := ⟨pages, memory⟩ :: s.requests })

/-- A new page, refused or not. -/
def PoolState.refill (e : PageEnv) (s : PoolState) : PoolState :=
  let (memory, s) := allocateZeroPoolNoFree e EFI_PAGE_SIZE s
  { s with FreeBufferPtr := memory, EndPtr := memory + EFI_PAGE_SIZE }

/-- mirrors libs/DTBExtnLib/DTBExtnLib_node.c:210-252, built with `TARGET_UEFI`:
the status, `*ppMem` and the state, or nothing where `ASSERT` stops. What is
written to `*ppMem` before the end is overwritten there. -/
def uefiDtbMalloc (e : PageEnv) (dwSize : Nat) (s : PoolState) : Option (Int × Nat × PoolState) :=
  if EFI_PAGE_SIZE ≤ dwSize then
    some (FDT_ERR_QC_NOERROR, allocateZeroPoolNoFree e dwSize s)
  else
    let s := if s.FreeBufferPtr = 0 then s.refill e else s
    let dwSize := (dwSize + MEMORY_ALLOC_ALIGN_MASK) / (MEMORY_ALLOC_ALIGN_MASK + 1) * (MEMORY_ALLOC_ALIGN_MASK + 1)
    let take (s : PoolState) := (FDT_ERR_QC_NOERROR, s.FreeBufferPtr,
      { s with FreeBufferPtr := s.FreeBufferPtr + dwSize })
    if s.EndPtr < s.FreeBufferPtr + dwSize then
      let s := s.refill e
      if e.asserts ∧ s.FreeBufferPtr = 0 then none else some (take s)
    else some (take s)

/-- A run of requests: the blocks that were answered for sizes other than 0, in
order, and the state at the end. -/
def mallocs (e : PageEnv) : List Nat → PoolState → List Segment × PoolState
  | [], s => ([], s)
  | n :: sizes, s =>
    match uefiDtbMalloc e n s with
    | none => ([], s)
    | some (_, p, s) =>
      let r := mallocs e sizes s
      (if n = 0 then r.1 else ⟨p, n⟩ :: r.1, r.2)

def BlocksApart (b c : Segment) : Prop := b.addr + b.size ≤ c.addr ∨ c.addr + c.size ≤ b.addr

theorem BlocksApart.symm {b c : Segment} (h : BlocksApart b c) : BlocksApart c b := Or.symm h

/-- Every block is aligned and inside pages that were granted, and disjoint from
the blocks before it. -/
structure WellPlaced (requests : List PageRequest) (blocks : List Segment) : Prop where
  inside : ∀ b ∈ blocks, b.addr ≠ 0 ∧ b.addr % 8 = 0 ∧ ∃ r ∈ requests, r.Holds b.addr b.size
  apart : blocks.Pairwise BlocksApart

/-- The blocks of a run are placed well. -/
def Placed (e : PageEnv) (sizes : List Nat) : Prop :=
  WellPlaced (mallocs e sizes .init).2.requests (mallocs e sizes .init).1

/-- The pages a request of `n` bytes needs. -/
def PoolState.needs (s : PoolState) (n : Nat) : Option Nat :=
  if EFI_PAGE_SIZE ≤ n then some (efiSizeToPages n)
  else if s.FreeBufferPtr = 0 ∨ s.EndPtr < s.FreeBufferPtr + (n + 7) / 8 * 8 then some 1
  else none

/-- What a request needs is granted. -/
def Granted (e : PageEnv) (s : PoolState) (n : Nat) : Prop :=
  ∀ k, s.needs n = some k → e.AllocatePages s.requests k ≠ 0

/-- In a run, what the requests for sizes other than 0 need is granted. -/
def AllGranted (e : PageEnv) : List Nat → PoolState → Prop
  | [], _ => True
  | n :: sizes, s => ∀ r, uefiDtbMalloc e n s = some r → (n ≠ 0 → Granted e s n) ∧ AllGranted e sizes r.2.2

/-! ## One request -/

theorem efiSizeToPages_page : efiSizeToPages EFI_PAGE_SIZE = 1 := by decide

theorem efiSizeToPages_ge (n : Nat) : n ≤ EFI_PAGE_SIZE * efiSizeToPages n := by
  unfold efiSizeToPages
  simp only [EFI_PAGE_SIZE]
  split <;> omega

theorem refill_eq (e : PageEnv) (s : PoolState) :
    s.refill e = ⟨e.AllocatePages s.requests 1, e.AllocatePages s.requests 1 + EFI_PAGE_SIZE,
      ⟨1, e.AllocatePages s.requests 1⟩ :: s.requests⟩ := by
  unfold PoolState.refill allocateZeroPoolNoFree
  rw [efiSizeToPages_page]

/-- What a request does, by what it needs. -/
theorem uefiDtbMalloc_cases (e : PageEnv) {n : Nat} {s : PoolState} {r : Int × Nat × PoolState}
    (h : uefiDtbMalloc e n s = some r) :
    (EFI_PAGE_SIZE ≤ n ∧ r.2 = allocateZeroPoolNoFree e n s) ∨
    (n < EFI_PAGE_SIZE ∧ (s.FreeBufferPtr = 0 ∨ s.EndPtr < s.FreeBufferPtr + (n + 7) / 8 * 8) ∧
      r.2 = ((s.refill e).FreeBufferPtr, { s.refill e with FreeBufferPtr :=
        (s.refill e).FreeBufferPtr + (n + 7) / 8 * 8 })) ∨
    (n < EFI_PAGE_SIZE ∧ s.FreeBufferPtr ≠ 0 ∧ s.FreeBufferPtr + (n + 7) / 8 * 8 ≤ s.EndPtr ∧
      r.2 = (s.FreeBufferPtr, { s with FreeBufferPtr := s.FreeBufferPtr + (n + 7) / 8 * 8 })) := by
  unfold uefiDtbMalloc at h
  simp only [MEMORY_ALLOC_ALIGN_MASK, Nat.reduceAdd] at h
  by_cases hlarge : EFI_PAGE_SIZE ≤ n
  · rw [if_pos hlarge] at h
    exact Or.inl ⟨hlarge, (congrArg Prod.snd (Option.some.inj h)).symm⟩
  have hround : (n + 7) / 8 * 8 ≤ EFI_PAGE_SIZE := by
    simp only [EFI_PAGE_SIZE] at hlarge ⊢
    omega
  rw [if_neg hlarge] at h
  by_cases h0 : s.FreeBufferPtr = 0
  · have hfits : ¬(s.refill e).EndPtr < (s.refill e).FreeBufferPtr + (n + 7) / 8 * 8 := by
      rw [refill_eq]
      simp only
      omega
    rw [if_pos h0, if_neg hfits] at h
    exact Or.inr (Or.inl ⟨Nat.lt_of_not_le hlarge, Or.inl h0, (congrArg Prod.snd (Option.some.inj h)).symm⟩)
  · rw [if_neg h0] at h
    by_cases hend : s.EndPtr < s.FreeBufferPtr + (n + 7) / 8 * 8
    · rw [if_pos hend] at h
      split at h
      · cases h
      · exact Or.inr (Or.inl ⟨Nat.lt_of_not_le hlarge, Or.inr hend, (congrArg Prod.snd (Option.some.inj h)).symm⟩)
    · rw [if_neg hend] at h
      exact Or.inr (Or.inr ⟨Nat.lt_of_not_le hlarge, h0, Nat.le_of_not_lt hend,
        (congrArg Prod.snd (Option.some.inj h)).symm⟩)

/-- The blocks so far are placed well, and the window between the static pointers is
a part of a granted page that no block reaches into. -/
structure PoolInv (s : PoolState) (blocks : List Segment) : Prop where
  placed : WellPlaced s.requests blocks
  window : s.FreeBufferPtr ≠ 0 → s.FreeBufferPtr % 8 = 0 ∧ s.FreeBufferPtr ≤ s.EndPtr ∧
    (∃ r ∈ s.requests, r.Holds s.FreeBufferPtr (s.EndPtr - s.FreeBufferPtr)) ∧
      ∀ b ∈ blocks, BlocksApart ⟨s.FreeBufferPtr, s.EndPtr - s.FreeBufferPtr⟩ b

theorem WellPlaced.more {requests : List PageRequest} {blocks : List Segment} (h : WellPlaced requests blocks)
    (r : PageRequest) :
    WellPlaced (r :: requests) blocks := by
  refine ⟨fun b hb => ?_, h.apart⟩
  obtain ⟨hne, halign, q, hq, hin⟩ := h.inside b hb
  exact ⟨hne, halign, q, List.mem_cons_of_mem _ hq, hin⟩

/-- Pages that are granted are disjoint from every block. -/
theorem PageEnv.Lawful.apart {e : PageEnv} (hlaw : e.Lawful) {requests : List PageRequest} {blocks : List Segment}
    (h : WellPlaced requests blocks) {n : Nat} (hne : e.AllocatePages requests n ≠ 0) {b : Segment} (hb : b ∈ blocks) :
    e.AllocatePages requests n + EFI_PAGE_SIZE * n ≤ b.addr ∨ b.addr + b.size ≤ e.AllocatePages requests n := by
  obtain ⟨-, -, hfresh⟩ := hlaw requests n hne
  obtain ⟨-, -, r, hr, hrne, hge, hle⟩ := h.inside b hb
  rcases hfresh r hr hrne with h | h
  · exact Or.inl (Nat.le_trans h hge)
  · exact Or.inr (Nat.le_trans hle h)

/-- One request that is granted keeps the invariant. -/
theorem uefiDtbMalloc_inv {e : PageEnv} (hlaw : e.Lawful) {n : Nat} {s : PoolState} {blocks : List Segment}
    (hi : PoolInv s blocks)
    (hg : n ≠ 0 → Granted e s n) {r : Int × Nat × PoolState} (h : uefiDtbMalloc e n s = some r) :
    PoolInv r.2.2 (if n = 0 then blocks else ⟨r.2.1, n⟩ :: blocks) := by
  obtain ⟨status, p, s'⟩ := r
  obtain ⟨hplaced, hwindow⟩ := hi
  rcases uefiDtbMalloc_cases e h with ⟨hlarge, hr⟩ | ⟨hsmall, hneeds, hr⟩ | ⟨hsmall, h0, hfits, hr⟩
  · -- a block of its own pages: the window stays
    have hn : n ≠ 0 := fun hc => by simp only [EFI_PAGE_SIZE] at hlarge; omega
    have hne := hg hn (efiSizeToPages n) (if_pos hlarge)
    obtain ⟨rfl, rfl⟩ := Prod.mk.inj hr
    obtain ⟨halign, -, -⟩ := hlaw _ _ hne
    have hge := efiSizeToPages_ge n
    rw [if_neg hn]
    refine ⟨⟨List.forall_mem_cons.mpr ⟨⟨hne, ?_, _, List.mem_cons_self, hne, Nat.le_refl _, ?_⟩,
      (hplaced.more _).inside⟩,
      List.pairwise_cons.mpr ⟨fun b hb => ?_, hplaced.apart⟩⟩, fun hfree => ?_⟩
    · simp only [EFI_PAGE_SIZE] at halign
      show e.AllocatePages s.requests (efiSizeToPages n) % 8 = 0
      omega
    · exact Nat.add_le_add_left hge _
    · rcases hlaw.apart hplaced hne hb with h | h
      · exact Or.inl (Nat.le_trans (Nat.add_le_add_left hge _) h)
      · exact Or.inr h
    · obtain ⟨hfa, hle, ⟨q, hq, hin⟩, hapart⟩ := hwindow hfree
      refine ⟨hfa, hle, ⟨q, List.mem_cons_of_mem _ hq, hin⟩, List.forall_mem_cons.mpr ⟨?_, hapart⟩⟩
      obtain ⟨-, -, hfresh⟩ := hlaw _ _ hne
      obtain ⟨hqne, hqge, hqle⟩ := hin
      unfold BlocksApart
      simp only
      rcases hfresh q hq hqne with h | h
      · exact Or.inr (Nat.le_trans (Nat.add_le_add_left hge _) (Nat.le_trans h hqge))
      · exact Or.inl (Nat.le_trans hqle h)
  · -- a new page
    obtain ⟨rfl, rfl⟩ := Prod.mk.inj hr
    rw [refill_eq]
    by_cases hne : e.AllocatePages s.requests 1 = 0
    · have hn : n = 0 := by
        by_contra hn
        refine hg hn 1 ?_ hne
        unfold PoolState.needs
        rw [if_neg (Nat.not_le.mpr hsmall), if_pos hneeds]
      rw [if_pos hn, hne, hn]
      exact ⟨hplaced.more _, fun hc => absurd rfl hc⟩
    · obtain ⟨halign, -, -⟩ := hlaw _ _ hne
      have hround : n ≤ (n + 7) / 8 * 8 ∧ (n + 7) / 8 * 8 ≤ 4096 := by
        simp only [EFI_PAGE_SIZE] at hsmall
        omega
      have hapart {b : Segment} (hb : b ∈ blocks) := hlaw.apart hplaced hne hb
      generalize e.AllocatePages s.requests 1 = a at hne halign hapart ⊢
      simp only [EFI_PAGE_SIZE, Nat.mul_one] at halign hapart ⊢
      have hin : (⟨1, a⟩ : PageRequest).Holds (a + (n + 7) / 8 * 8) (a + 4096 - (a + (n + 7) / 8 * 8)) := by
        refine ⟨hne, Nat.le_add_right _ _, ?_⟩
        simp only [EFI_PAGE_SIZE]
        omega
      have hblocks (b : Segment) (hb : b ∈ blocks) :
          BlocksApart ⟨a + (n + 7) / 8 * 8, a + 4096 - (a + (n + 7) / 8 * 8)⟩ b := by
        unfold BlocksApart
        simp only
        rcases hapart hb with h | h <;> omega
      have hwhole : (⟨1, a⟩ : PageRequest) ∈ ⟨1, a⟩ :: s.requests := List.mem_cons_self
      by_cases hn : n = 0
      · rw [if_pos hn]
        exact ⟨hplaced.more _, fun _ => ⟨by simp only; omega, by simp only; omega, ⟨_, hwhole, hin⟩, hblocks⟩⟩
      · rw [if_neg hn]
        refine ⟨⟨List.forall_mem_cons.mpr ⟨⟨hne, by simp only; omega, _, hwhole, hne, Nat.le_refl _, ?_⟩,
          (hplaced.more _).inside⟩,
          List.pairwise_cons.mpr ⟨fun b hb => ?_, hplaced.apart⟩⟩,
          fun _ => ⟨by simp only; omega, by simp only; omega, ⟨_, hwhole, hin⟩,
            List.forall_mem_cons.mpr ⟨?_, hblocks⟩⟩⟩
        · simp only [EFI_PAGE_SIZE]
          omega
        · unfold BlocksApart
          simp only
          rcases hapart hb with h | h <;> omega
        · unfold BlocksApart
          simp only
          omega
  · -- a part of the window
    obtain ⟨rfl, rfl⟩ := Prod.mk.inj hr
    obtain ⟨halign, hle, ⟨q, hq, hqne, hqge, hqle⟩, hapart⟩ := hwindow h0
    have hround : n ≤ (n + 7) / 8 * 8 := by omega
    generalize s.FreeBufferPtr = a at h0 hfits halign hle hqge hqle hapart ⊢
    generalize s.EndPtr = b at hfits hle hqle hapart ⊢
    have hin : q.Holds (a + (n + 7) / 8 * 8) (b - (a + (n + 7) / 8 * 8)) := ⟨hqne, by omega, by omega⟩
    have hblocks (c : Segment) (hc : c ∈ blocks) : BlocksApart ⟨a + (n + 7) / 8 * 8, b - (a + (n + 7) / 8 * 8)⟩ c := by
      have := hapart c hc
      unfold BlocksApart at this ⊢
      simp only at this ⊢
      omega
    by_cases hn : n = 0
    · rw [if_pos hn]
      exact ⟨hplaced, fun _ => ⟨by simp only; omega, by simp only; omega, ⟨q, hq, hin⟩, hblocks⟩⟩
    · rw [if_neg hn]
      refine ⟨⟨List.forall_mem_cons.mpr ⟨⟨h0, halign, q, hq, hqne, hqge, ?_⟩, hplaced.inside⟩,
        List.pairwise_cons.mpr ⟨fun c hc => ?_, hplaced.apart⟩⟩,
        fun _ => ⟨by simp only; omega, by simp only; omega, ⟨q, hq, hin⟩, List.forall_mem_cons.mpr ⟨?_, hblocks⟩⟩⟩
      · simp only
        omega
      · have := hapart c hc
        unfold BlocksApart at this ⊢
        simp only at this ⊢
        omega
      · unfold BlocksApart
        simp only
        omega

/-- A request that is refused is answered with `NULL`. -/
theorem uefiDtbMalloc_refused {e : PageEnv} {n : Nat} {s : PoolState} {r : Int × Nat × PoolState}
    (h : uefiDtbMalloc e n s = some r) (hr : ¬Granted e s n) : r.2.1 = 0 := by
  have hrefused : ∃ k, s.needs n = some k ∧ e.AllocatePages s.requests k = 0 := by
    by_contra hc
    exact hr fun k hk h0 => hc ⟨k, hk, h0⟩
  obtain ⟨k, hk, h0⟩ := hrefused
  unfold PoolState.needs at hk
  rcases uefiDtbMalloc_cases e h with ⟨hlarge, hr⟩ | ⟨hsmall, hneeds, hr⟩ | ⟨hsmall, hfree, hfits, hr⟩
  · rw [if_pos hlarge] at hk
    rw [hr, ← h0, ← Option.some.inj hk]
    rfl
  · rw [if_neg (Nat.not_le.mpr hsmall), if_pos hneeds] at hk
    rw [hr, refill_eq, ← h0, ← Option.some.inj hk]
  · rw [if_neg (Nat.not_le.mpr hsmall), if_neg (not_or.mpr ⟨hfree, Nat.not_lt.mpr hfits⟩)] at hk
    cases hk

/-! ## A run -/

theorem mallocs_inv {e : PageEnv} (hlaw : e.Lawful) (sizes : List Nat) {s : PoolState} {blocks : List Segment}
    (hi : PoolInv s blocks) (hg : AllGranted e sizes s) :
    PoolInv (mallocs e sizes s).2 ((mallocs e sizes s).1.reverse ++ blocks) := by
  induction sizes generalizing s blocks with
  | nil => exact hi
  | cons n sizes ih =>
    unfold mallocs
    cases h : uefiDtbMalloc e n s with
    | none => exact hi
    | some r =>
      obtain ⟨hstep, hrest⟩ := hg r h
      have hrun := ih (uefiDtbMalloc_inv hlaw hi hstep h) hrest
      obtain ⟨status, p, s'⟩ := r
      simp only at hrun ⊢
      by_cases hn : n = 0
      · rw [if_pos hn] at hrun ⊢
        exact hrun
      · rw [if_neg hn] at hrun ⊢
        rw [List.reverse_cons, List.append_assoc]
        exact hrun

theorem mallocs_granted {e : PageEnv} (sizes : List Nat) {s : PoolState}
    (h : ∀ b ∈ (mallocs e sizes s).1, b.addr ≠ 0) :
    AllGranted e sizes s := by
  induction sizes generalizing s with
  | nil => trivial
  | cons n sizes ih =>
    intro r hr
    unfold mallocs at h
    rw [hr] at h
    obtain ⟨status, p, s'⟩ := r
    simp only at h
    constructor
    · intro hn
      rw [if_neg hn, List.forall_mem_cons] at h
      by_contra hc
      exact h.1 (uefiDtbMalloc_refused hr hc)
    · refine ih fun b hb => h b ?_
      split
      · exact hb
      · exact List.mem_cons_of_mem _ hb

/-- The blocks of a run are placed well exactly when every request for pages that
it makes for a size other than 0 is granted. -/
theorem pool_exact (e : PageEnv) (hlaw : e.Lawful) (sizes : List Nat) : Placed e sizes ↔ AllGranted e sizes .init := by
  constructor
  · exact fun h => mallocs_granted sizes fun b hb => (h.inside b hb).1
  · intro hg
    have hi : PoolInv .init [] := ⟨⟨fun b hb => (nomatch hb), List.Pairwise.nil⟩, fun h => absurd rfl h⟩
    obtain ⟨⟨hinside, hapart⟩, -⟩ := mallocs_inv hlaw sizes hi hg
    rw [List.append_nil] at hinside hapart
    refine ⟨fun b hb => hinside b (List.mem_reverse.mpr hb), ?_⟩
    exact (List.pairwise_reverse.mp hapart).imp BlocksApart.symm

/-- Where the pages that were requested end. -/
def pagesTop (requests : List PageRequest) : Nat :=
  requests.foldr (fun r top => max top (r.addr + EFI_PAGE_SIZE * r.pages)) EFI_PAGE_SIZE

theorem le_pagesTop {requests : List PageRequest} {r : PageRequest} (hr : r ∈ requests) :
    r.addr + EFI_PAGE_SIZE * r.pages ≤ pagesTop requests := by
  unfold pagesTop
  induction requests with
  | nil => cases hr
  | cons q requests ih =>
    rw [List.foldr_cons]
    rcases List.mem_cons.mp hr with rfl | hr
    · exact Nat.le_max_right _ _
    · exact Nat.le_trans (ih hr) (Nat.le_max_left _ _)

/-- A firmware that grants pages one after another. -/
def bumpPages (requests : List PageRequest) (n : Nat) : Nat :=
  let a := (pagesTop requests + 4095) / 4096 * 4096
  if a + EFI_PAGE_SIZE * n < 2 ^ 64 then a else 0

theorem bumpPages_lawful : (PageEnv.mk bumpPages false).Lawful := by
  intro requests n hne
  simp only [bumpPages] at hne ⊢
  by_cases hend : (pagesTop requests + 4095) / 4096 * 4096 + EFI_PAGE_SIZE * n < 2 ^ 64
  · rw [if_pos hend]
    refine ⟨Nat.mul_mod_left _ _, hend, fun r hr _ => Or.inr ?_⟩
    have := le_pagesTop hr
    omega
  · rw [if_neg hend] at hne
    exact absurd rfl hne

/-- Small blocks, a large one, and blocks that need new pages. -/
theorem pool_exact_bump : Placed ⟨bumpPages, false⟩ [40, 3, 5000, 4000, 4096, 100] :=
  (pool_exact _ bumpPages_lawful _).mpr (mallocs_granted _ (by decide +kernel))

/-- A first page that is refused is answered with `NULL` and success. -/
theorem refused_page_null : ¬∀ e : PageEnv, e.Lawful → ∀ sizes, Placed e sizes := by
  intro h
  have hlaw : (PageEnv.mk (fun _ _ => 0) false).Lawful := fun _ _ hne => absurd rfl hne
  have hplaced := (h _ hlaw [40]).inside ⟨0, 40⟩ List.mem_cons_self
  exact hplaced.1 rfl

end DTFramework.Extn
