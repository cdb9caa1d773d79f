import DTFramework.Get.Balance
import DTFramework.Get.Selected

/-!
# Pool and pages

In the `TARGET_UEFI` build `MALLOC_WRAPPER` and `FREE_WRAPPER` choose between
the pool and whole pages by the size they are given, each time anew. A run of
the library is turned into the calls of UEFI that it comes to (`uefiCalls`), and
these are booked in a ledger of their own, in which a block is owned by the pool
or by a number of pages.

As long as only small blocks are released, the two ledgers are images of each
other (`mirror`); the release of a large block spoils the second one
(`mirror_small`). So a run releases what it takes just when it takes nothing
large (`release_exact`).

Results:

* `mirror`, `mirror_small`: the two ledgers agree while no large block is released;
* `release_exact`: the runs that release what they took to where it came from;
* `page_freed_twice`: a page goes back to the pool as well.
-/
namespace DTFramework.Get

open DTFramework.Fdt DTFramework.Extn DTFramework.Lib DTFramework.Lib.Ledger DTFramework.Select

abbrev SIZE_4KB : Nat := 4096

/-- The calls of UEFI's MemoryAllocationLib. -/
inductive UefiCall
  | allocatePages (pages ptr : Nat)
  | allocatePool (size ptr : Nat)
  | freePages (ptr pages : Nat)
  | freePool (ptr : Nat)
deriving DecidableEq, Repr

def numOfPages (size : Nat) : Nat := if size % SIZE_4KB ≠ 0 then size / SIZE_4KB + 1 else size / SIZE_4KB

/-- What `MALLOC_WRAPPER` and `FREE_WRAPPER` call. The release of pages goes on to
`FreePool`.
mirrors libs/DTSelectLib/Environment/dt_select_env.c:112-149 -/
def uefiCalls : HeapEvent → List UefiCall
  | .malloc size ptr => if SIZE_4KB ≤ size then [.allocatePages (numOfPages size) ptr] else [.allocatePool size ptr]
  | .free ptr size => (if SIZE_4KB ≤ size then [.freePages ptr (numOfPages size)] else []) ++ [.freePool ptr]

def getCalls : GetEvent → List UefiCall
  | .heap ev => uefiCalls ev
  | .merge _ => []

/-- mirrors libs/DTSelectLib/get_dt.c:439-448; the size is an `unsigned int`. -/
def getDtFree (dtb_address dtb_size : Nat) : GetProg Unit :=
  if dtb_address ≠ 0 ∧ dtb_size % 2 ^ 32 ≠ 0 then getFree dtb_address (dtb_size % 2 ^ 32) else return ()

/-- A client: `get_dt`, and on success `get_dt_free` of what it answered. -/
def getAndFree (g : GetEnv) (a : GetArgs) : GetProg GetResult := do
  let r ← getDt g a
  match r.outputs with
  | none => return r
  | some (dtb_addr, dtb_size) => do
    getDtFree dtb_addr dtb_size
    return r

/-! ## The ledger of UEFI -/

/-- Who a block was taken from. -/
inductive Owner
  | pages (n : Nat)
  | pool
deriving DecidableEq, Repr

/-- What a call does to the blocks of UEFI. -/
def uefiMove : UefiCall → Move (Nat × Owner)
  | .allocatePages n ptr => if ptr = 0 then .stay else .take (ptr, .pages n)
  | .allocatePool _ ptr => if ptr = 0 then .stay else .take (ptr, .pool)
  | .freePages ptr n => .give (ptr, .pages n)
  | .freePool ptr => .give (ptr, .pool)

/-- Every block is released once, to where it was taken from, and nothing else is. -/
def Released (t : List GetEvent) : Prop := Ledger.run uefiMove (t.flatMap getCalls) 0 = some 0

/-- No two blocks that are allocated have the same address, in a run that starts
with the blocks `held`. -/
def DistinctFrom (held : Multiset Block) (t : List GetEvent) : Prop :=
  ∀ u v after, t = u ++ v → Ledger.run getMove u held = some after → (after.map Prod.fst).Nodup

/-- The block as UEFI has it. -/
def owner (b : Block) : Nat × Owner := (b.1, if SIZE_4KB ≤ b.2 then .pages (numOfPages b.2) else .pool)

/-- The blocks of a stock are smaller than a page. -/
abbrev AllSmall (held : Multiset Block) : Prop := ∀ b ∈ held, b.2 < SIZE_4KB

/-- Only blocks smaller than a page are released. -/
abbrev FreesSmall (t : List GetEvent) : Prop := ∀ ptr size, .heap (.free ptr size) ∈ t → size < SIZE_4KB

/-- Only requests for less than a page are granted. -/
abbrev GrantsSmall (t : List GetEvent) : Prop := ∀ size ptr, .heap (.malloc size ptr) ∈ t → ptr ≠ 0 → size < SIZE_4KB

/-- The stock after one event, and after the rest. -/
theorem run_cons_eq {E R : Type} [DecidableEq R] {mv : E → Move R} {ev : E} {t : List E} {held after : Multiset R} :
    Ledger.run mv (ev :: t) held = some after ↔ ∃ mid, Ledger.apply (mv ev) held = some mid ∧
        Ledger.run mv t mid = some after := by
  rw [Ledger.run]
  exact Option.bind_eq_some_iff

theorem apply_give {R : Type} [DecidableEq R] {r : R} {held mid : Multiset R} :
    Ledger.apply (.give r) held = some mid ↔ r ∈ held ∧ held.erase r = mid := by
  show (if r ∈ held then some (held.erase r) else none) = some mid ↔ _
  split
  · rename_i h
    exact ⟨fun he => ⟨h, Option.some.inj he⟩, fun he => congrArg some he.2⟩
  · rename_i h
    exact ⟨nofun, fun he => absurd he.1 h⟩

theorem owner_large {b : Block} (h : SIZE_4KB ≤ b.2) : owner b = (b.1, .pages (numOfPages b.2)) := by
  unfold owner
  rw [if_pos h]

theorem owner_small {b : Block} (h : b.2 < SIZE_4KB) : owner b = (b.1, .pool) := by
  unfold owner
  rw [if_neg (Nat.not_le.mpr h)]

/-- A request has the same effect in both ledgers. -/
theorem malloc_mirror {size ptr : Nat} {held mid : Multiset Block}
    (h : Ledger.apply (heapMove (.malloc size ptr)) held = some mid) :
    Ledger.run uefiMove (uefiCalls (.malloc size ptr)) (held.map owner) = some (mid.map owner) := by
  dsimp only [heapMove] at h
  dsimp only [uefiCalls]
  by_cases hp : ptr = 0
  · rw [if_pos hp] at h
    cases h
    split <;> simp [Ledger.run, uefiMove, hp, Ledger.apply]
  · rw [if_neg hp] at h
    cases h
    rw [Multiset.map_cons]
    split
    · rename_i hl
      rw [owner_large hl]
      simp [Ledger.run, uefiMove, hp, Ledger.apply]
    · rename_i hs
      rw [owner_small (Nat.not_le.mp hs)]
      simp [Ledger.run, uefiMove, hp, Ledger.apply]

/-- So has the release of a small block. -/
theorem free_mirror {ptr size : Nat} (hsmall : size < SIZE_4KB) {held mid : Multiset Block}
    (h : Ledger.apply (heapMove (.free ptr size)) held = some mid) :
    Ledger.run uefiMove (uefiCalls (.free ptr size)) (held.map owner) = some (mid.map owner) := by
  obtain ⟨hmem, rfl⟩ := apply_give.mp h
  dsimp only [uefiCalls]
  rw [if_neg (Nat.not_le.mpr hsmall), List.nil_append, run_cons_eq]
  refine ⟨_, apply_give.mpr ⟨?_, rfl⟩, ?_⟩
  · exact Multiset.mem_map.mpr ⟨_, hmem, owner_small hsmall⟩
  · rw [Ledger.run_nil, Multiset.map_erase_of_mem owner held hmem, owner_small (b := (ptr, size)) hsmall]

/-- The release of a large block is not in order: after the pages it frees a pool
block at the same address, and there is none. -/
theorem free_large {ptr size : Nat} (hlarge : SIZE_4KB ≤ size) {held mid : Multiset Block}
    (h : Ledger.apply (heapMove (.free ptr size)) held = some mid) (hd : (held.map Prod.fst).Nodup)
    (after : Multiset (Nat × Owner)) :
    Ledger.run uefiMove (uefiCalls (.free ptr size)) (held.map owner) ≠ some after := by
  obtain ⟨hmem, -⟩ := apply_give.mp h
  intro hrun
  dsimp only [uefiCalls] at hrun
  rw [if_pos hlarge, List.singleton_append, run_cons_eq] at hrun
  obtain ⟨m1, h1, hrun⟩ := hrun
  rw [run_cons_eq] at hrun
  obtain ⟨m2, h2, -⟩ := hrun
  obtain ⟨-, rfl⟩ := apply_give.mp h1
  obtain ⟨hpool, -⟩ := apply_give.mp h2
  rw [← owner_large (b := (ptr, size)) hlarge, ← Multiset.map_erase_of_mem owner held hmem] at hpool
  obtain ⟨b, hb, howner⟩ := Multiset.mem_map.mp hpool
  have hb1 : b.1 = ptr := congrArg Prod.fst howner
  rw [← Multiset.cons_erase hmem, Multiset.map_cons, Multiset.nodup_cons] at hd
  exact hd.1 (Multiset.mem_map.mpr ⟨b, hb, hb1⟩)

theorem flatMap_run {ev : GetEvent} {t : List GetEvent} {held : Multiset (Nat × Owner)} :
    Ledger.run uefiMove ((ev :: t).flatMap getCalls) held =
      (Ledger.run uefiMove (getCalls ev) held).bind (Ledger.run uefiMove (t.flatMap getCalls)) := by
  rw [List.flatMap_cons, Ledger.run_append]

/-- As long as only small blocks are released, UEFI's ledger is the image of the
library's. -/
theorem mirror (t : List GetEvent) : ∀ held after : Multiset Block, FreesSmall t →
    Ledger.run getMove t held = some after →
    Ledger.run uefiMove (t.flatMap getCalls) (held.map owner) = some (after.map owner) := by
  induction t with
  | nil =>
    intro held after _ h
    cases h
    rfl
  | cons ev t ih =>
    intro held after hf h
    obtain ⟨mid, hmid, hrest⟩ := run_cons_eq.mp h
    have hrest := ih mid after (fun p n hm => hf p n (List.mem_cons_of_mem _ hm)) hrest
    have hstep : Ledger.run uefiMove (getCalls ev) (held.map owner) = some (mid.map owner) := by
      cases ev with
      | merge c =>
        cases hmid
        rfl
      | heap ev =>
        cases ev with
        | malloc size ptr => exact malloc_mirror hmid
        | free ptr size => exact free_mirror (hf ptr size List.mem_cons_self) hmid
    rw [flatMap_run, hstep]
    exact hrest

/-- A run that is in order in UEFI's ledger releases small blocks only. -/
theorem mirror_small (t : List GetEvent) : ∀ (held after : Multiset Block) (final : Multiset (Nat × Owner)),
    DistinctFrom held t →
    Ledger.run getMove t held = some after → Ledger.run uefiMove (t.flatMap getCalls) (held.map owner) = some final →
    FreesSmall t := by
  induction t with
  | nil => exact fun _ _ _ _ _ _ _ _ hm => nomatch hm
  | cons ev t ih =>
    intro held after final hd h hu
    obtain ⟨mid, hmid, hrest⟩ := run_cons_eq.mp h
    rw [flatMap_run] at hu
    obtain ⟨umid, hstep, hu⟩ := Option.bind_eq_some_iff.mp hu
    have hd' : DistinctFrom mid t := fun u v s ht hs =>
      hd (ev :: u) v s (by rw [ht]; rfl) (run_cons_eq.mpr ⟨mid, hmid, hs⟩)
    have hsmall : ∀ p n, ev = .heap (.free p n) → n < SIZE_4KB := by
      rintro p n rfl
      refine Nat.not_le.mp fun hle => ?_
      exact free_large hle hmid (hd [] _ held rfl rfl) umid hstep
    have humid : umid = mid.map owner := by
      refine Option.some.inj (hstep.symm.trans ?_)
      cases ev with
      | merge c =>
        cases hmid
        rfl
      | heap ev =>
        cases ev with
        | malloc size ptr => exact malloc_mirror hmid
        | free ptr size => exact free_mirror (hsmall ptr size rfl) hmid
    rw [humid] at hu
    have hrec := ih mid after final hd' hrest hu
    intro p n hm
    rcases List.mem_cons.mp hm with he | hm
    · exact hsmall p n he.symm
    · exact hrec p n hm

/-- What is granted is released or left. -/
theorem grants_small (t : List GetEvent) : ∀ held after : Multiset Block, Ledger.run getMove t held = some after →
    (AllSmall held ∧ GrantsSmall t ↔ FreesSmall t ∧ AllSmall after) := by
  induction t with
  | nil =>
    intro held after h
    cases h
    exact ⟨fun h => ⟨nofun, h.1⟩, fun h => ⟨h.2, nofun⟩⟩
  | cons ev t ih =>
    intro held after h
    obtain ⟨mid, hmid, hrest⟩ := run_cons_eq.mp h
    have hrec := ih mid after hrest
    have hmem {ev' : GetEvent} : ev' ∈ ev :: t ↔ ev' = ev ∨ ev' ∈ t := List.mem_cons
    cases ev with
    | merge c =>
      cases hmid
      have hg : GrantsSmall (.merge c :: t) ↔ GrantsSmall t := by simp [GrantsSmall]
      have hf : FreesSmall (.merge c :: t) ↔ FreesSmall t := by simp [FreesSmall]
      rw [hg, hf, hrec]
    | heap ev =>
      cases ev with
      | malloc size ptr =>
        have hf : FreesSmall (.heap (.malloc size ptr) :: t) ↔ FreesSmall t := by simp [FreesSmall]
        have hg : GrantsSmall (.heap (.malloc size ptr) :: t) ↔ (ptr ≠ 0 → size < SIZE_4KB) ∧ GrantsSmall t := by
          simp only [GrantsSmall, hmem, GetEvent.heap.injEq, HeapEvent.malloc.injEq]
          exact ⟨fun h => ⟨h size ptr (Or.inl ⟨rfl, rfl⟩), fun n p hp => h n p (Or.inr hp)⟩,
            fun h n p hp => hp.elim (fun he => by rw [he.1, he.2]; exact h.1) (h.2 n p)⟩
        rw [hf, ← hrec, hg]
        change Ledger.apply (if ptr = 0 then .stay else .take (ptr, size)) held = some mid at hmid
        by_cases hp : ptr = 0
        · rw [if_pos hp] at hmid
          cases hmid
          exact ⟨fun h => ⟨h.1, h.2.2⟩, fun h => ⟨h.1, fun hne => absurd hp hne, h.2⟩⟩
        · rw [if_neg hp] at hmid
          cases hmid
          have hall : AllSmall ((ptr, size) ::ₘ held) ↔ size < SIZE_4KB ∧ AllSmall held := by simp [AllSmall]
          rw [hall]
          exact ⟨fun h => ⟨⟨h.2.1 hp, h.1⟩, h.2.2⟩, fun h => ⟨h.1.2, fun _ => h.1.1, h.2⟩⟩
      | free ptr size =>
        have hg : GrantsSmall (.heap (.free ptr size) :: t) ↔ GrantsSmall t := by simp [GrantsSmall]
        have hf : FreesSmall (.heap (.free ptr size) :: t) ↔ size < SIZE_4KB ∧ FreesSmall t := by
          simp only [FreesSmall, hmem, GetEvent.heap.injEq, HeapEvent.free.injEq]
          exact ⟨fun h => ⟨h ptr size (Or.inl ⟨rfl, rfl⟩), fun p n hp => h p n (Or.inr hp)⟩,
            fun h p n hp => hp.elim (fun he => by rw [he.2]; exact h.1) (h.2 p n)⟩
        obtain ⟨hin, rfl⟩ := apply_give.mp hmid
        have hall : AllSmall held ↔ size < SIZE_4KB ∧ AllSmall (held.erase (ptr, size)) := by
          conv_lhs => rw [← Multiset.cons_erase hin]
          simp [AllSmall]
        rw [hg, hf, hall, and_assoc, hrec, and_assoc]

/-- Addresses in a stock are not null. -/
theorem held_nonNull (t : List GetEvent) : ∀ held after : Multiset Block, Ledger.run getMove t held = some after →
    (∀ b ∈ held, b.1 ≠ 0) → ∀ b ∈ after, b.1 ≠ 0 := by
  induction t with
  | nil =>
    intro held after h hn
    cases h
    exact hn
  | cons ev t ih =>
    intro held after h hn
    obtain ⟨mid, hmid, hrest⟩ := run_cons_eq.mp h
    refine ih mid after hrest ?_
    cases ev with
    | merge c =>
      cases hmid
      exact hn
    | heap ev =>
      cases ev with
      | malloc size ptr =>
        change Ledger.apply (if ptr = 0 then .stay else .take (ptr, size)) held = some mid at hmid
        split at hmid
        · cases hmid
          exact hn
        · rename_i hp
          cases hmid
          exact Multiset.forall_mem_cons.mpr ⟨hp, hn⟩
      | free ptr size =>
        obtain ⟨-, rfl⟩ := apply_give.mp hmid
        exact fun b hb => hn b (Multiset.mem_of_mem_erase hb)

/-! ## The size that is answered -/

/-- What the stages keep, when they do not fail. -/
theorem thenStage_keeps {P : Locals → Prop} {x : GetProg (Int × Locals)} {f : Locals → GetProg (Int × Locals)}
    (hx : x.Ensures fun r => r.1 = 0 → P r.2) (hf : ∀ l, P l → (f l).Ensures fun r => r.1 = 0 → P r.2) :
    (thenStage x f).Ensures fun r => r.1 = 0 → P r.2 := by
  unfold thenStage
  rw [Traced.ensures_bind]
  intro r hr
  have hp := hx r hr
  obtain ⟨status, l⟩ := r
  dsimp only
  rw [Traced.ensures_ite, Traced.ensures_pure]
  exact ⟨fun h0 h => absurd h h0, fun h0 => hf l (hp (not_not.mp h0))⟩

section
variable (g : GetEnv) (h : Handle) (l : Locals)

/-- The size of the working buffer is taken once. -/
abbrev KeepsSize (x : GetProg (Int × Locals)) : Prop := x.Ensures fun r => r.2.total_blob_size = l.total_blob_size

theorem allocBase_size : KeepsSize l (allocBase g l) := by
  unfold allocBase
  simp only [KeepsSize, Traced.ensures_bind, Traced.ensures_ite, Traced.ensures_pure]
  exact fun _ _ => ⟨fun _ => trivial, fun _ => trivial⟩

theorem loadSoc_size : KeepsSize l (loadSoc g h l) := by
  unfold loadSoc
  simp only [KeepsSize, Traced.ensures_bind, Traced.ensures_ite, Traced.ensures_pure]
  exact ⟨fun _ => trivial, fun _ _ _ => ⟨fun _ => trivial, fun _ => trivial⟩⟩

theorem loadPlat_size : KeepsSize l (loadPlat g h l) := by
  unfold loadPlat
  simp only [KeepsSize, Traced.ensures_bind, Traced.ensures_ite, Traced.ensures_pure]
  exact ⟨fun _ => trivial, fun _ _ _ => ⟨fun _ => trivial, fun _ => trivial⟩⟩

theorem mergeSoc_size : KeepsSize l (mergeSoc g l) := by
  unfold mergeSoc
  simp only [KeepsSize, Traced.ensures_bind, Traced.ensures_ite, Traced.ensures_pure]
  exact ⟨fun _ => trivial, fun _ _ _ => ⟨fun _ => trivial, fun _ => ⟨fun _ => trivial, fun _ _ _ => trivial⟩⟩⟩

theorem mergePlat_size : KeepsSize l (mergePlat g l) := by
  unfold mergePlat
  simp only [KeepsSize, Traced.ensures_bind, Traced.ensures_ite, Traced.ensures_pure]
  exact ⟨fun _ => trivial, fun _ _ _ => ⟨fun _ => trivial, fun _ _ _ => trivial⟩⟩

end

theorem sizeStage_pos {g : GetEnv} {a : OpenArgs} {o : Opened} (hsel : Selected g.sel a o) :
    (sizeStage o (initLocals g.sel.mem)).1 = 0 → (sizeStage o (initLocals g.sel.mem)).2.total_blob_size ≠ 0 := by
  have hb := (hsel.blob .BASE_DTB).size_lt
  have hs := (hsel.blob .SOC_DTBO).size_lt
  have hp := (hsel.blob .PLATFORM_DTBO).size_lt
  simp only [HandleData.blob, ← hsel.base_size, ← hsel.soc_size, ← hsel.plat_size] at hb hs hp
  unfold sizeStage
  dsimp only
  split
  · exact fun h => absurd (show GET_DT_ERR_INVALID_BASE_DTB_SIZE = 0 from h) (by decide)
  · split
    · exact fun h => absurd (show GET_DT_ERR_SIZE_OVERFLOW = 0 from h) (by decide)
    · intro _
      dsimp only
      omega

/-- `get_dt` does not answer with an empty block. -/
theorem getDt_size (g : GetEnv) (a : GetArgs) :
    (getDt g a).Ensures fun r => ∀ ptr size, r.outputs = some (ptr, size) → size ≠ 0 := by
  have hexit (status : Int) (l : Locals) (hl : status = 0 → l.total_blob_size ≠ 0) :
      (exitBlock status l).Ensures fun r => ∀ ptr size, r.outputs = some (ptr, size) → size ≠ 0 := by
    unfold exitBlock
    simp only [Traced.ensures_ite, Traced.ensures_bind, Traced.ensures_pure]
    refine ⟨fun _ _ _ _ _ _ _ _ _ h => (nomatch h), fun h0 ptr size h => ?_⟩
    cases h
    exact hl (not_not.mp h0)
  have hkeep {l : Locals} {x : GetProg (Int × Locals)} (hx : KeepsSize l x) (hl : l.total_blob_size ≠ 0) :
      x.Ensures fun r => r.1 = 0 → r.2.total_blob_size ≠ 0 := hx.mono fun r hr _ => by rw [hr]; exact hl
  unfold getDt getDtWith
  rw [Traced.ensures_ite]
  refine ⟨fun _ => hexit _ _ fun h => absurd h (by decide), fun _ => ?_⟩
  rw [Traced.ensures_bind]
  intro r hr
  rw [val_select] at hr
  have hsel := dtSelectOpen_selected g.sel a.toOpenArgs r hr
  obtain ⟨status, opened⟩ := r
  dsimp only at hsel ⊢
  rw [Traced.ensures_ite]
  refine ⟨fun hne => hexit _ _ fun h => absurd h hne, fun _ => ?_⟩
  cases opened with
  | none => exact hexit _ _ fun h => absurd h (by decide)
  | some o =>
    have hstages := thenStage_keeps (P := fun l => l.total_blob_size ≠ 0)
      (Traced.ensures_pure.mpr (sizeStage_pos (hsel o rfl)))
      fun l hl => thenStage_keeps (hkeep (allocBase_size g l) hl) fun l hl =>
        thenStage_keeps (x := return readBase g o.block l) (Traced.ensures_pure.mpr fun _ => hl) fun l hl =>
        thenStage_keeps (hkeep (loadSoc_size g o.block l) hl) fun l hl =>
        thenStage_keeps (hkeep (mergeSoc_size g l) hl) fun l hl =>
        thenStage_keeps (hkeep (loadPlat_size g o.block l) hl) fun l hl => hkeep (mergePlat_size g l) hl
    simp only [Traced.ensures_bind, Traced.ensures_pure]
    exact fun r hr result hres _ _ => hexit _ _ (hstages r hr) _ hres

/-! ## Runs -/

/-- The events of a client's run: those of `get_dt`, and the release of what it
answered. -/
theorem getAndFree_ok {g : GetEnv} {a : GetArgs} {r : GetResult} {t : List GetEvent}
    (h : getAndFree g a = .ok (r, t)) :
    ∃ u, getDt g a = .ok (r, u) ∧ t = u ++ match r.outputs with
      | none => []
      | some (addr, size) => if addr ≠ 0 ∧ size % 2 ^ 32 ≠ 0 then [.heap (.free addr (size % 2 ^ 32))] else [] := by
  obtain ⟨r', u, v, hu, hv, rfl⟩ := Traced.bind_eq_ok h
  cases hout : r'.outputs with
  | none =>
    rw [hout] at hv
    cases hv
    exact ⟨u, hu, by rw [hout]⟩
  | some p =>
    obtain ⟨addr, size⟩ := p
    rw [hout] at hv
    dsimp only at hv
    unfold getDtFree at hv
    split at hv
    · rename_i hp
      cases hv
      exact ⟨u, hu, by rw [hout]; dsimp only; rw [if_pos hp]; rfl⟩
    · rename_i hp
      cases hv
      exact ⟨u, hu, by rw [hout]; dsimp only; rw [if_neg hp]; rfl⟩

/-- A block of whole pages is not released by `get_dt_free`. -/
theorem answer_small {addr size : Nat} (h : Ledger.run uefiMove
    ((if addr ≠ 0 ∧ size % 2 ^ 32 ≠ 0 then [GetEvent.heap (.free addr (size % 2 ^ 32))] else []).flatMap getCalls)
      {owner (addr, size)} = some 0) : size < SIZE_4KB := by
  refine Nat.not_le.mp fun hlarge => ?_
  rw [owner_large (b := (addr, size)) hlarge] at h
  have hpool {held : Multiset (Nat × Owner)} (hheld : held ≤ {(addr, .pages (numOfPages size))}) :
      Ledger.run uefiMove [.freePool addr] held ≠ some 0 := by
    intro hrun
    obtain ⟨mid, hmid, -⟩ := run_cons_eq.mp hrun
    have hmem := Multiset.mem_of_le hheld (apply_give.mp hmid).1
    exact absurd (Multiset.mem_singleton.mp hmem) (by simp)
  split at h
  · rw [List.flatMap_singleton] at h
    dsimp only [getCalls, uefiCalls] at h
    rw [Ledger.run_append] at h
    obtain ⟨mid, hmid, h⟩ := Option.bind_eq_some_iff.mp h
    refine hpool ?_ h
    split at hmid
    · obtain ⟨mid', hmid', hend⟩ := run_cons_eq.mp hmid
      cases hend
      obtain ⟨-, rfl⟩ := apply_give.mp hmid'
      exact Multiset.erase_le _ _
    · cases hmid
      exact le_refl _
  · simp at h

/-- With an allocator that never gives an address twice, a client releases every
block once and to where it came from just when no request for a page or more is
granted. -/
theorem release_exact (g : GetEnv) (a : GetArgs) (r : GetResult) (t : List GetEvent)
    (hs : g.sel.Sane) (hc : g.sel.CheckedFail) (hrun : getAndFree g a = .ok (r, t)) (hd : DistinctFrom 0 t) :
    Released t ↔ GrantsSmall t := by
  obtain ⟨u, hu, rfl⟩ := getAndFree_ok hrun
  have hstock := (getDt_moves hs hc a).run hu
  have hsize := getDt_size g a r (by rw [hu]; rfl)
  have hdu : DistinctFrom 0 u := fun v w s hv hs => hd v (w ++ _) s (by rw [hv, List.append_assoc]) hs
  unfold answered at hstock
  cases hout : r.outputs with
  | none =>
    rw [hout] at hstock
    rw [List.append_nil]
    have hiff := grants_small u 0 0 hstock
    constructor
    · intro h
      exact (hiff.mpr ⟨mirror_small u 0 0 0 hdu hstock h, nofun⟩).2
    · exact fun h => mirror u 0 0 (hiff.mp ⟨nofun, h⟩).1 hstock
  | some p =>
    obtain ⟨addr, size⟩ := p
    rw [hout] at hstock
    dsimp only at hstock ⊢
    have hiff := grants_small u 0 {(addr, size)} hstock
    constructor
    · intro h
      unfold Released at h
      rw [List.flatMap_append, Ledger.run_append] at h
      obtain ⟨mid, hmid, h⟩ := Option.bind_eq_some_iff.mp h
      have hfrees := mirror_small u 0 _ mid hdu hstock hmid
      have hown := mirror u 0 _ hfrees hstock
      rw [Multiset.map_zero, hmid] at hown
      rw [Option.some.inj hown, Multiset.map_singleton] at h
      have hsmall := answer_small h
      have hgrants := (hiff.mpr ⟨hfrees, fun b hb => by rw [Multiset.mem_singleton.mp hb]; exact hsmall⟩).2
      intro n p hm
      rcases List.mem_append.mp hm with hm | hm
      · exact hgrants n p hm
      · split at hm
        · exact absurd (List.mem_singleton.mp hm) (by simp)
        · cases hm
    · intro h
      obtain ⟨hfrees, hleft⟩ := hiff.mp ⟨nofun, fun n p hm => h n p (List.mem_append_left _ hm)⟩
      have hsmall : size < SIZE_4KB := hleft _ (Multiset.mem_singleton_self _)
      have haddr : addr ≠ 0 := held_nonNull u 0 _ hstock nofun _ (Multiset.mem_singleton_self _)
      have hmod : size % 2 ^ 32 = size := Nat.mod_eq_of_lt (by simp only [SIZE_4KB] at hsmall; omega)
      rw [hmod, if_pos ⟨haddr, hsize addr size hout⟩]
      refine mirror _ 0 0 (fun p n hm => ?_) ?_
      · rcases List.mem_append.mp hm with hm | hm
        · exact hfrees p n hm
        · have he := List.mem_singleton.mp hm
          simp only [GetEvent.heap.injEq, HeapEvent.free.injEq] at he
          rw [he.2]
          exact hsmall
      · rw [Ledger.run_append, hstock, Option.bind_some, run_cons_eq]
        exact ⟨0, apply_give.mpr ⟨Multiset.mem_singleton_self _, by simp⟩, rfl⟩

/-! ## Two runs -/

/-- No two live blocks have one address, step by step. -/
def distinctRun : List GetEvent → Multiset Block → Bool
  | [], held => decide (held.map Prod.fst).Nodup
  | ev :: t, held => decide (held.map Prod.fst).Nodup && match Ledger.apply (getMove ev) held with
    | none => true
    | some mid => distinctRun t mid

theorem distinctFrom_of_run (t : List GetEvent) : ∀ held, distinctRun t held = true → DistinctFrom held t := by
  induction t with
  | nil =>
    intro held h u v after ht hu
    obtain ⟨rfl, rfl⟩ := List.append_eq_nil_iff.mp ht.symm
    cases hu
    exact of_decide_eq_true h
  | cons ev t ih =>
    intro held h u v after ht hu
    obtain ⟨hnodup, hrest⟩ := Bool.and_eq_true_iff.mp h
    cases u with
    | nil =>
      cases hu
      exact of_decide_eq_true hnodup
    | cons ev' u =>
      obtain ⟨rfl, rfl⟩ := List.cons.inj ht
      obtain ⟨mid, hmid, hu⟩ := run_cons_eq.mp hu
      rw [hmid] at hrest
      exact ih mid hrest u v after rfl hu

/-- An address for every kind of request. -/
def siteAddress : Site → Nat
  | .handle => 0x10000
  | .inputBuffer => 0x11000
  | .chipinfo _ => 0x12000
  | .platforminfo _ => 0x13000
  | .compatible _ => 0x14000
  | .property _ _ => 0x15000
  | .oemVar _ => 0x16000
  | .printNames _ _ => 0x17000
  | .printBuffer _ _ => 0x18000
  | .printValue _ _ _ => 0x19000

theorem siteAddress_le (site : Site) : siteAddress site ≤ 0x19000 := by
  cases site <;> simp [siteAddress]

/-- One base tree, and an allocator with these addresses. -/
def uefiGet (slack : Nat) : GetEnv where
  sel := { imageEnv 0x1000 [baseBlob [] slack] false with alloc := fun site _ => siteAddress site }
  alloc := imageBuffers
  lib := noSpace

theorem uefiGet_sane (slack : Nat) : (uefiGet slack).sel.Sane := by
  intro site size h _
  have hle : (uefiGet slack).sel.alloc site size ≤ 0x19000 := siteAddress_le site
  omega

theorem uefiGet_checkedFail (slack : Nat) : (uefiGet slack).sel.CheckedFail :=
  ⟨(by decide : (0x11000 : Nat) ≠ 0), fun _ _ => (by decide : (0x18000 : Nat) ≠ 0),
    fun _ _ _ _ _ => (by decide : (0x19000 : Nat) ≠ 0)⟩

theorem uefiGet_run (slack : Nat) (h : (getAndFree (uefiGet slack) (imageArgs 0)).val.isOk = true) :
    ∃ r, getAndFree (uefiGet slack) (imageArgs 0) = .ok (r, (getAndFree (uefiGet slack) (imageArgs 0)).events) := by
  cases hx : getAndFree (uefiGet slack) (imageArgs 0) with
  | error e =>
    rw [hx] at h
    cases h
  | ok p => exact ⟨p.1, rfl⟩

/-- A tree of 128 bytes is released. -/
theorem release_exact_image : ∃ r t, getAndFree (uefiGet 6) (imageArgs 0) = .ok (r, t) ∧ DistinctFrom 0 t ∧
    (Released t ↔ GrantsSmall t) := by
  obtain ⟨r, hrun⟩ := uefiGet_run 6 (by decide +kernel)
  have hd := distinctFrom_of_run (getAndFree (uefiGet 6) (imageArgs 0)).events 0 (by decide +kernel)
  exact ⟨r, _, hrun, hd, release_exact _ _ r _ (uefiGet_sane 6) (uefiGet_checkedFail 6) hrun hd⟩

/-- A tree of a page is freed to the pool as well. -/
theorem page_freed_twice : ¬∀ (g : GetEnv) (a : GetArgs) (r : GetResult) (t : List GetEvent), g.sel.Sane →
    g.sel.CheckedFail →
    getAndFree g a = .ok (r, t) → DistinctFrom 0 t → Released t := by
  intro h
  obtain ⟨r, hrun⟩ := uefiGet_run 3974 (by decide +kernel)
  have hd := distinctFrom_of_run (getAndFree (uefiGet 3974) (imageArgs 0)).events 0 (by decide +kernel)
  have hreleased := h _ _ r _ (uefiGet_sane _) (uefiGet_checkedFail _) hrun hd
  unfold Released at hreleased
  exact absurd hreleased (by decide +kernel)

end DTFramework.Get
