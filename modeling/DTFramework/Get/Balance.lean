import DTFramework.Select.Balance
import DTFramework.Select.Image
import DTFramework.Get.GetDt

/-!
# What getting the device tree leaves allocated

The three pointers of `get_dt` own their blocks (`owned`). Every stage keeps
that so, whether it fails or not (`Stage`), and the exit block releases what is
owned: `get_dt` leaves the block it answers with, and nothing on an error.

Results:

* `getDtWith_moves`: whatever the stages do, what the locals own is released or
  answered with, and the handle is closed;
* `getDtWith_outputs`: the outputs are written on success only;
* `memory_balance`: what an opened selection and a call of `get_dt` leave allocated.
-/
namespace DTFramework.Get

open DTFramework.Fdt DTFramework.Extn DTFramework.Lib DTFramework.Lib.Ledger DTFramework.Select

/-- What an event does to the blocks that are allocated. -/
def getMove : GetEvent → Move Block
  | .heap ev => heapMove ev
  | .merge _ => .stay

/-! ## The allocator and the library -/

theorem moves_select {α : Type} {A : Multiset Block} {x : Prog α} {B : α → Multiset Block}
    (h : Moves heapMove A x B) : Moves getMove A (select x) B := moves_mapEvents (fun _ => rfl) h

theorem val_select {α : Type} (x : Prog α) : (select x).val = x.val := Traced.val_mapEvents _ x

@[simp] theorem val_getMalloc (g : GetEnv) (type : BlobType) (size : Nat) :
    (getMalloc g type size).val = .ok (g.alloc type size) := rfl
@[simp] theorem val_getFree (ptr size : Nat) : (getFree ptr size).val = .ok () := rfl
@[simp] theorem val_getFreeIf (ptr size : Nat) : (getFreeIf ptr size).val = .ok () := by
  unfold getFreeIf; split <;> rfl
@[simp] theorem val_merge (g : GetEnv) (c : MergeCall) :
    (merge g c).val = .ok (fdtMergeOverlay g.sel.defs g.lib c) := rfl

/-- The block of a pointer that may be null. -/
def block (ptr size : Nat) : Multiset Block := if ptr = 0 then 0 else {(ptr, size)}

theorem block_zero (size : Nat) : block 0 size = 0 := rfl

theorem moves_getMalloc (g : GetEnv) (type : BlobType) (size : Nat) :
    Moves getMove 0 (getMalloc g type size) fun p => block p size := by
  unfold getMalloc
  by_cases h : g.alloc type size = 0
  · refine moves_neutral_bind (moves_stay (by simp [getMove, heapMove, h])) fun _ _ => ?_
    rw [h]
    exact moves_pure (B := fun p => block p size) 0
  · refine moves_bind (moves_take (r := (g.alloc type size, size)) (by simp [getMove, heapMove, h])) fun _ _ => ?_
    have hend : Moves getMove _ (pure (g.alloc type size) : GetProg Nat) fun p => block p size := moves_pure _
    rwa [block, if_neg h] at hend

theorem moves_getFree (ptr size : Nat) : Moves getMove {(ptr, size)} (getFree ptr size) fun _ => 0 := moves_give rfl

theorem moves_getFreeIf (ptr size : Nat) : Moves getMove (block ptr size) (getFreeIf ptr size) fun _ => 0 := by
  unfold getFreeIf block
  by_cases h : ptr = 0
  · rw [if_pos h, if_neg (not_not.mpr h)]
    exact moves_pure_zero
  · rw [if_neg h, if_pos h]
    exact moves_getFree ptr size

theorem moves_merge (g : GetEnv) (c : MergeCall) : Neutral getMove (merge g c) :=
  moves_neutral_bind (moves_stay rfl) fun _ _ => moves_pure_zero

/-! ## Stages -/

/-- The blocks the local variables own. -/
def owned (l : Locals) : Multiset Block :=
  block l.base_dtb_ptr l.total_blob_size + block l.soc_dtbo_ptr l.soc_dtbo_size +
    block l.plat_dtbo_ptr l.plat_dtbo_size

/-- From locals with `P`, what is owned stays accounted for, and a stage that
does not fail leaves locals with `Q`. -/
structure Stage (P : Locals → Prop) (f : Locals → GetProg (Int × Locals)) (Q : Locals → Prop) : Prop where
  moves : ∀ l, P l → Moves getMove (owned l) (f l) fun r => owned r.2
  post : ∀ l, P l → (f l).Ensures fun r => r.1 = 0 → Q r.2

theorem Stage.andThen {P Q R : Locals → Prop} {f h : Locals → GetProg (Int × Locals)} (hf : Stage P f Q)
    (hh : Stage Q h R) : Stage P (fun l => thenStage (f l) h) R where
  moves l hl := by
    refine moves_bind (hf.moves l hl) fun r hr => ?_
    have hq := hf.post l hl r hr
    obtain ⟨status, l'⟩ := r
    refine moves_ite (fun _ => moves_pure (B := fun r : Int × Locals => owned r.2) (status, l')) fun h0 => ?_
    exact hh.moves l' (hq (not_not.mp h0))
  post l hl := by
    unfold thenStage
    rw [Traced.ensures_bind]
    intro r hr
    have hq := hf.post l hl r hr
    obtain ⟨status, l'⟩ := r
    dsimp only
    rw [Traced.ensures_ite, Traced.ensures_pure]
    exact ⟨fun h0 h => absurd h h0, fun h0 => hh.post l' (hq (not_not.mp h0))⟩

/-- The pointers at a stage: `base`, and for each overlay whether it is loaded. -/
structure Ptrs (base soc plat : Bool) (l : Locals) : Prop where
  base : l.base_dtb_ptr ≠ 0 ↔ base = true
  soc : l.soc_dtbo_ptr ≠ 0 ↔ soc = true ∧ l.soc_dtbo_size ≠ 0
  plat : l.plat_dtbo_ptr ≠ 0 ↔ plat = true ∧ l.plat_dtbo_size ≠ 0

/-- Reading into a buffer does not change its address. -/
theorem dtSelectReadBlob_ptr (d : DTBDefs) (m : Mem) (h : Option Handle) (type : Option BlobType) {ptr : Nat}
    (hne : ptr ≠ 0) (size : Nat) : (dtSelectReadBlob d m h type (some ptr) size).2.1.getD 0 = ptr := by
  cases h with
  | none => rfl
  | some b =>
    unfold dtSelectReadBlob
    dsimp only
    repeat' split
    all_goals rfl

theorem allocBase_stage (g : GetEnv) : Stage (Ptrs false false false) (allocBase g) (Ptrs true false false) where
  moves l hl := by
    have hb : l.base_dtb_ptr = 0 := by
      by_contra h
      exact absurd (hl.base.mp h) (by decide)
    have ho : owned l = 0 + (block l.soc_dtbo_ptr l.soc_dtbo_size + block l.plat_dtbo_ptr l.plat_dtbo_size) := by
      unfold owned
      rw [hb, block_zero, add_assoc]
    rw [ho]
    refine moves_bind (moves_frame (moves_getMalloc g _ _) _) fun p _ => ?_
    rw [← add_assoc]
    have hend (status : Int) : Moves getMove _ (pure (status, { l with base_dtb_ptr := p }) : GetProg (Int × Locals))
        fun r => owned r.2 := moves_pure _
    exact moves_ite (fun _ => hend _) fun _ => hend _
  post l hl := by
    unfold allocBase
    simp only [Traced.ensures_bind, Traced.ensures_ite, Traced.ensures_pure]
    intro p _
    exact ⟨fun _ h => absurd h (by decide), fun hp _ => ⟨by simp [hp], hl.soc, hl.plat⟩⟩

theorem readBase_stage (g : GetEnv) (h : Handle) :
    Stage (Ptrs true false false) (fun l => return readBase g h l) (Ptrs true false false) := by
  have hptr {l : Locals} (hl : Ptrs true false false l) : (readBase g h l).2.base_dtb_ptr = l.base_dtb_ptr :=
    dtSelectReadBlob_ptr _ _ _ _ (hl.base.mpr rfl) _
  constructor
  · intro l hl
    have ho : owned l = owned (readBase g h l).2 := by
      unfold owned
      rw [hptr hl]
      rfl
    rw [ho]
    exact moves_pure (B := fun r : Int × Locals => owned r.2) (readBase g h l)
  · intro l hl
    exact Traced.ensures_pure.mpr fun _ => ⟨by rw [hptr hl]; exact hl.base, hl.soc, hl.plat⟩

theorem loadSoc_stage (g : GetEnv) (h : Handle) :
    Stage (Ptrs true false false) (loadSoc g h) (Ptrs true true false) where
  moves l hl := by
    have hsoc : l.soc_dtbo_ptr = 0 := by
      by_contra hne
      exact absurd (hl.soc.mp hne).1 (by decide)
    unfold loadSoc
    refine moves_ite (fun _ => moves_pure (B := fun r : Int × Locals => owned r.2) (0, l)) fun hsize => ?_
    have ho : owned l = 0 + (block l.base_dtb_ptr l.total_blob_size + block l.plat_dtbo_ptr l.plat_dtbo_size) := by
      unfold owned
      rw [hsoc, block_zero, add_zero, zero_add]
    rw [ho]
    refine moves_bind (moves_frame (moves_getMalloc g _ _) _) fun p _ => ?_
    have hown (m : Mem) : block p l.soc_dtbo_size +
        (block l.base_dtb_ptr l.total_blob_size + block l.plat_dtbo_ptr l.plat_dtbo_size) =
          owned { l with soc_dtbo_ptr := p, mem := m } := by
      unfold owned
      rw [← add_assoc, add_comm (block p _)]
    refine moves_ite (fun _ => ?_) fun hp => ?_
    · rw [hown l.mem]
      exact moves_pure (B := fun r : Int × Locals => owned r.2) (GET_DT_ERR_MALLOC_FAIL, _)
    · dsimp only
      rw [dtSelectReadBlob_ptr _ _ _ _ hp, hown]
      exact moves_pure (B := fun r : Int × Locals => owned r.2) (_, _)
  post l hl := by
    unfold loadSoc
    simp only [Traced.ensures_bind, Traced.ensures_ite, Traced.ensures_pure]
    refine ⟨fun hsize _ => ⟨hl.base, ?_, hl.plat⟩, fun hsize p _ =>
      ⟨fun _ hc => absurd hc (by decide), fun hp _ => ?_⟩⟩
    · exact hl.soc.trans (by simp [hsize])
    · refine ⟨hl.base, ?_, hl.plat⟩
      dsimp only
      rw [dtSelectReadBlob_ptr _ _ _ _ hp]
      simp [hp, hsize]

theorem loadPlat_stage (g : GetEnv) (h : Handle) :
    Stage (Ptrs true false false) (loadPlat g h) (Ptrs true false true) where
  moves l hl := by
    have hplat : l.plat_dtbo_ptr = 0 := by
      by_contra hne
      exact absurd (hl.plat.mp hne).1 (by decide)
    unfold loadPlat
    refine moves_ite (fun _ => moves_pure (B := fun r : Int × Locals => owned r.2) (0, l)) fun hsize => ?_
    have ho : owned l = 0 + (block l.base_dtb_ptr l.total_blob_size + block l.soc_dtbo_ptr l.soc_dtbo_size) := by
      unfold owned
      rw [hplat, block_zero, add_zero, zero_add]
    rw [ho]
    refine moves_bind (moves_frame (moves_getMalloc g _ _) _) fun p _ => ?_
    have hown (m : Mem) : block p l.plat_dtbo_size +
        (block l.base_dtb_ptr l.total_blob_size + block l.soc_dtbo_ptr l.soc_dtbo_size) =
          owned { l with plat_dtbo_ptr := p, mem := m } := by
      unfold owned
      rw [add_comm]
    refine moves_ite (fun _ => ?_) fun hp => ?_
    · rw [hown l.mem]
      exact moves_pure (B := fun r : Int × Locals => owned r.2) (GET_DT_ERR_MALLOC_FAIL, _)
    · dsimp only
      rw [dtSelectReadBlob_ptr _ _ _ _ hp, hown]
      exact moves_pure (B := fun r : Int × Locals => owned r.2) (_, _)
  post l hl := by
    unfold loadPlat
    simp only [Traced.ensures_bind, Traced.ensures_ite, Traced.ensures_pure]
    refine ⟨fun hsize _ => ⟨hl.base, hl.soc, ?_⟩, fun hsize p _ => ⟨fun _ hc => absurd hc (by decide), fun hp _ => ?_⟩⟩
    · exact hl.plat.trans (by simp [hsize])
    · refine ⟨hl.base, hl.soc, ?_⟩
      dsimp only
      rw [dtSelectReadBlob_ptr _ _ _ _ hp]
      simp [hp, hsize]

theorem mergeSoc_stage (g : GetEnv) : Stage (Ptrs true true false) (mergeSoc g) (Ptrs true false false) where
  moves l hl := by
    unfold mergeSoc
    refine moves_ite (fun _ => moves_pure (B := fun r : Int × Locals => owned r.2) (0, l)) fun hsize => ?_
    refine moves_neutral_bind (moves_merge g _) fun r _ => ?_
    obtain ⟨status, mem⟩ := r
    have hend (status : Int) : Moves getMove _ (pure (status, { l with mem := mem }) : GetProg (Int × Locals))
        fun r => owned r.2 := moves_pure _
    refine moves_ite (fun _ => hend _) fun _ => moves_ite (fun _ => hend _) fun _ => ?_
    have hne : l.soc_dtbo_ptr ≠ 0 := hl.soc.mpr ⟨rfl, hsize⟩
    have ho : owned l = {(l.soc_dtbo_ptr, l.soc_dtbo_size)} +
        (block l.base_dtb_ptr l.total_blob_size + block l.plat_dtbo_ptr l.plat_dtbo_size) := by
      unfold owned
      rw [block.eq_def l.soc_dtbo_ptr, if_neg hne, ← add_assoc, add_comm {(l.soc_dtbo_ptr, _)}]
    rw [ho]
    refine moves_bind (moves_frame (moves_getFree _ _) _) fun _ _ => ?_
    have hown (size : Nat) : 0 + (block l.base_dtb_ptr l.total_blob_size + block l.plat_dtbo_ptr l.plat_dtbo_size) =
        owned { l with mem := mem, base_dtb_size := size, soc_dtbo_ptr := 0 } := by
      unfold owned
      rw [block_zero, add_zero, zero_add]
    rw [hown]
    exact moves_pure (B := fun r : Int × Locals => owned r.2) (_, _)
  post l hl := by
    unfold mergeSoc
    simp only [Traced.ensures_bind, Traced.ensures_ite, Traced.ensures_pure]
    refine ⟨fun hsize _ => ⟨hl.base, ?_, hl.plat⟩, fun hsize r _ => ⟨fun hne hc => absurd hc hne, fun _ =>
      ⟨fun hne hc => absurd hc hne, fun _ _ _ _ => ⟨hl.base, by simp, hl.plat⟩⟩⟩⟩
    exact hl.soc.trans (by simp [hsize])

theorem mergePlat_stage (g : GetEnv) : Stage (Ptrs true false true) (mergePlat g) (Ptrs true false false) where
  moves l hl := by
    unfold mergePlat
    refine moves_ite (fun _ => moves_pure (B := fun r : Int × Locals => owned r.2) (0, l)) fun hsize => ?_
    refine moves_neutral_bind (moves_merge g _) fun r _ => ?_
    obtain ⟨status, mem⟩ := r
    refine moves_ite (fun _ => moves_pure (B := fun r : Int × Locals => owned r.2) (status, _)) fun _ => ?_
    have hne : l.plat_dtbo_ptr ≠ 0 := hl.plat.mpr ⟨rfl, hsize⟩
    have ho : owned l = {(l.plat_dtbo_ptr, l.plat_dtbo_size)} +
        (block l.base_dtb_ptr l.total_blob_size + block l.soc_dtbo_ptr l.soc_dtbo_size) := by
      unfold owned
      rw [add_comm, block.eq_def l.plat_dtbo_ptr, if_neg hne]
    rw [ho]
    refine moves_bind (moves_frame (moves_getFree _ _) _) fun _ _ => ?_
    have hown : 0 + (block l.base_dtb_ptr l.total_blob_size + block l.soc_dtbo_ptr l.soc_dtbo_size) =
        owned { l with mem := mem, plat_dtbo_ptr := 0 } := by
      unfold owned
      rw [block_zero, add_zero, zero_add]
    rw [hown]
    exact moves_pure (B := fun r : Int × Locals => owned r.2) (_, _)
  post l hl := by
    unfold mergePlat
    simp only [Traced.ensures_bind, Traced.ensures_ite, Traced.ensures_pure]
    refine ⟨fun hsize _ => ⟨hl.base, hl.soc, ?_⟩, fun hsize r _ => ⟨fun hne hc => absurd hc hne, fun _ _ _ _ =>
      ⟨hl.base, hl.soc, by simp⟩⟩⟩
    exact hl.plat.trans (by simp [hsize])

theorem sizeStage_ptrs (o : Opened) {l : Locals} (hl : Ptrs false false false l) :
    Ptrs false false false (sizeStage o l).2 := by
  have hsoc : l.soc_dtbo_ptr = 0 := by
    by_contra h
    exact absurd (hl.soc.mp h).1 (by decide)
  have hplat : l.plat_dtbo_ptr = 0 := by
    by_contra h
    exact absurd (hl.plat.mp h).1 (by decide)
  unfold sizeStage
  dsimp only
  split
  · exact ⟨hl.base, by simp [hsoc], by simp [hplat]⟩
  · split
    · exact ⟨hl.base, by simp [hsoc], by simp [hplat]⟩
    · exact ⟨hl.base, by simp [hsoc], by simp [hplat]⟩

/-! ## The whole call -/

/-- What is left of a result. -/
def answered (r : GetResult) : Multiset Block :=
  match r.outputs with
  | none => 0
  | some p => {p}

theorem exitBlock_moves {status : Int} {l : Locals} (h : status = 0 → Ptrs true false false l) :
    Moves getMove (owned l) (exitBlock status l) answered := by
  unfold exitBlock
  refine moves_ite (fun hne => ?_) fun h0 => ?_
  · have hrest : owned l = block l.base_dtb_ptr l.total_blob_size +
        (block l.soc_dtbo_ptr l.soc_dtbo_size + block l.plat_dtbo_ptr l.plat_dtbo_size) := add_assoc _ _ _
    rw [hrest]
    refine moves_bind (moves_frame (moves_getFreeIf _ _) _) fun _ _ => ?_
    rw [zero_add]
    refine moves_bind (moves_frame (moves_getFreeIf _ _) _) fun _ _ => ?_
    rw [zero_add]
    exact moves_bind (moves_getFreeIf _ _) fun _ _ => moves_pure (B := answered) ⟨status, none, l.mem⟩
  · have hp := h (not_not.mp h0)
    have hsoc : l.soc_dtbo_ptr = 0 := by
      by_contra hne
      exact absurd (hp.soc.mp hne).1 (by decide)
    have hplat : l.plat_dtbo_ptr = 0 := by
      by_contra hne
      exact absurd (hp.plat.mp hne).1 (by decide)
    have ho : owned l = {(l.base_dtb_ptr, l.total_blob_size)} := by
      unfold owned
      rw [hsoc, hplat, block_zero, block_zero, add_zero, add_zero, block, if_neg (hp.base.mpr rfl)]
    rw [ho]
    exact moves_pure (B := answered) ⟨status, some (l.base_dtb_ptr, l.total_blob_size), l.mem⟩

theorem dtSelectClose_moves {ptr : Nat} (hp : ptr ≠ 0) (o : Opened) :
    Moves heapMove {(ptr, HANDLE_SIZE)} (dtSelectClose ptr o.block) fun _ => 0 := by
  unfold dtSelectClose
  rw [if_neg (by rw [handleCheck_opened]; simp [hp])]
  exact moves_free_bind moves_pure_zero

section
variable {g : GetEnv} {a : GetArgs} {stages : Handle → Locals → GetProg (Int × Locals)}

/-- Whatever the stages do, the blocks of the locals are released or answered
with, and the handle is closed. -/
theorem getDtWith_moves (hs : g.sel.Sane) (hc : g.sel.CheckedFail)
    (hstages : ∀ h, Stage (Ptrs false false false) (stages h) (Ptrs true false false)) :
    Moves getMove 0 (getDtWith g a stages) answered := by
  have hinit : Ptrs false false false (initLocals g.sel.mem) :=
    ⟨by simp [initLocals], by simp [initLocals], by simp [initLocals]⟩
  have hexit {status : Int} (hne : status ≠ 0) : Moves getMove 0 (exitBlock status (initLocals g.sel.mem)) answered :=
    exitBlock_moves (l := initLocals g.sel.mem) fun h => absurd h hne
  unfold getDtWith
  refine moves_ite (fun _ => hexit (by decide)) fun _ => ?_
  refine moves_bind (moves_select (dtSelectOpen_moves hs hc _)) fun r hr => ?_
  rw [val_select] at hr
  have hstatus := dtSelectOpen_status _ _ r hr
  have hptr := dtSelectOpen_ptr _ _ r hr
  obtain ⟨status, opened⟩ := r
  dsimp only at hstatus hptr ⊢
  cases opened with
  | none =>
    refine moves_ite (fun hne => hexit hne) fun _ => hexit (by decide)
  | some o =>
    have h0 : status = 0 := hstatus.mpr rfl
    have hp := hptr rfl
    have hsize := sizeStage_ptrs o hinit
    have hown : owned (sizeStage o (initLocals g.sel.mem)).2 = 0 := by
      unfold sizeStage owned
      dsimp only
      split
      · rfl
      · split <;> rfl
    have hframe : ({handleBlock g.sel} : Multiset Block) =
        owned (sizeStage o (initLocals g.sel.mem)).2 + {handleBlock g.sel} := by
      rw [hown, zero_add]
    show Moves getMove {handleBlock g.sel} _ answered
    rw [if_neg (not_not.mpr h0), hframe]
    have hpre : Stage (fun l => l = initLocals g.sel.mem) (fun l => return sizeStage o l)
        (Ptrs false false false) := by
      constructor
      · rintro l rfl
        have h0 : owned (initLocals g.sel.mem) = owned (sizeStage o (initLocals g.sel.mem)).2 := hown.symm
        rw [h0]
        exact moves_pure (B := fun r : Int × Locals => owned r.2) (sizeStage o (initLocals g.sel.mem))
      · rintro l rfl
        exact Traced.ensures_pure.mpr fun _ => hsize
    have hall := hpre.andThen (hstages o.block)
    have hmoves := hall.moves _ rfl
    rw [show owned (initLocals g.sel.mem) = owned (sizeStage o (initLocals g.sel.mem)).2 from hown.symm] at hmoves
    refine moves_bind (moves_frame hmoves _) fun r hr => ?_
    have hpost := hall.post _ rfl r hr
    obtain ⟨s, l⟩ := r
    refine moves_bind (moves_frame (exitBlock_moves hpost) _) fun result _ => ?_
    have hclose := moves_frame (moves_select (dtSelectClose_moves hp o)) (answered result)
    rw [add_comm] at hclose
    refine moves_bind hclose fun _ _ => ?_
    rw [zero_add]
    exact moves_pure (B := answered) result

/-- The outputs are written on success only. -/
theorem getDtWith_outputs : (getDtWith g a stages).Ensures fun r => r.outputs.isSome ↔ r.status = 0 := by
  have hexit (status : Int) (l : Locals) : (exitBlock status l).Ensures fun r => r.outputs.isSome ↔ r.status = 0 := by
    unfold exitBlock
    simp only [Traced.ensures_ite, Traced.ensures_bind, Traced.ensures_pure]
    exact ⟨fun hne _ _ _ _ _ _ => by simpa using hne, fun h0 => by simpa using not_not.mp h0⟩
  unfold getDtWith
  rw [Traced.ensures_ite]
  refine ⟨fun _ => hexit _ _, fun _ => ?_⟩
  rw [Traced.ensures_bind]
  rintro ⟨status, opened⟩ -
  dsimp only
  rw [Traced.ensures_ite]
  refine ⟨fun _ => hexit _ _, fun _ => ?_⟩
  cases opened with
  | none => exact hexit _ _
  | some o =>
    simp only [Traced.ensures_bind, Traced.ensures_pure]
    exact fun r _ result hr _ _ => hexit _ _ _ hr

end

theorem getDt_moves {g : GetEnv} (hs : g.sel.Sane) (hc : g.sel.CheckedFail) (a : GetArgs) :
    Moves getMove 0 (getDt g a) answered :=
  getDtWith_moves hs hc fun h => (allocBase_stage g).andThen ((readBase_stage g h).andThen
    ((loadSoc_stage g h).andThen ((mergeSoc_stage g).andThen ((loadPlat_stage g h).andThen (mergePlat_stage g)))))

/-- Memory balance: what `dt_select_open` and `get_dt` leave allocated is the
handle, and the block they answer with, on success, and nothing on an error;
the blocks on the way are released once, with their sizes; and on an error no
output is written. -/
theorem memory_balance (g : GetEnv) (a : GetArgs) (hs : g.sel.Sane) (hc : g.sel.CheckedFail) :
    (∀ r t, dtSelectOpen g.sel a.toOpenArgs = .ok (r, t) →
      Ledger.run heapMove t 0 = some (if r.1 = SUCCESS then {handleBlock g.sel} else 0) ∧
      (r.1 ≠ SUCCESS → r.2 = none)) ∧
    (∀ r t, getDt g a = .ok (r, t) →
      (r.status = 0 → ∃ p, r.outputs = some p ∧ Ledger.run getMove t 0 = some {p}) ∧
      (r.status ≠ 0 → r.outputs = none ∧ Ledger.run getMove t 0 = some 0)) := by
  constructor
  · intro r t h
    have hrun := (dtSelectOpen_moves hs hc a.toOpenArgs).run h
    have hstatus := dtSelectOpen_status g.sel a.toOpenArgs r (by rw [h]; rfl)
    refine ⟨?_, fun hne => ?_⟩
    · rw [hrun]
      simp only [hstatus]
    · cases hr : r.2 with
      | none => rfl
      | some o => exact absurd (hstatus.mpr (by rw [hr]; rfl)) hne
  · intro r t h
    have hrun := (getDt_moves hs hc a).run h
    have hout : r.outputs.isSome ↔ r.status = 0 :=
      getDtWith_outputs r (by rw [show getDtWith g a _ = _ from h]; rfl)
    unfold answered at hrun
    cases hr : r.outputs with
    | none =>
      rw [hr] at hrun hout
      exact ⟨fun h0 => absurd (hout.mpr h0) (by decide), fun _ => ⟨rfl, hrun⟩⟩
    | some p =>
      rw [hr] at hrun hout
      exact ⟨fun _ => ⟨p, rfl, hrun⟩, fun hne => absurd (hout.mp rfl) hne⟩

/-- A libfdt that has no room for anything. -/
def noSpace : Libfdt := ⟨fun m _ _ _ => (-FDT_ERR_NOSPACE, m), fun m _ _ => (-FDT_ERR_NOSPACE, m)⟩

/-- Buffers apart from the image and from each other. -/
def imageBuffers : BlobType → Nat → Nat
  | .BASE_DTB, _ => 0x20000
  | .SOC_DTBO, _ => 0x30000
  | .PLATFORM_DTBO, _ => 0x40000

def imageGet (lib : Libfdt) (blobs : List (List UInt8)) : GetEnv := ⟨imageEnv 0x1000 blobs false, imageBuffers, lib⟩

def imageArgs (size : Nat) : GetArgs := ⟨⟨0x1000, size, some imageProp, none, 0⟩, false, false⟩

theorem imageEnv_checkedFail (start : Nat) (blobs : List (List UInt8)) (logging : Bool) :
    (imageEnv start blobs logging).CheckedFail :=
  ⟨(by decide : (0x10000 : Nat) ≠ 0), fun _ _ => (by decide : (0x10000 : Nat) ≠ 0), fun _ _ _ _ _ =>
    (by decide : (0x10000 : Nat) ≠ 0)⟩

theorem memory_balance_image :
    let g := imageGet noSpace [baseBlob [] 6]
    let a := imageArgs 0
    (getDt g a).val.map (fun r => (r.status, r.outputs)) = .ok (0, some (0x20000, 128)) ∧
    (∀ r t, dtSelectOpen g.sel a.toOpenArgs = .ok (r, t) →
      Ledger.run heapMove t 0 = some (if r.1 = SUCCESS then {handleBlock g.sel} else 0) ∧
      (r.1 ≠ SUCCESS → r.2 = none)) ∧
    (∀ r t, getDt g a = .ok (r, t) →
      (r.status = 0 → ∃ p, r.outputs = some p ∧ Ledger.run getMove t 0 = some {p}) ∧
      (r.status ≠ 0 → r.outputs = none ∧ Ledger.run getMove t 0 = some 0)) :=
  ⟨by decide +kernel, memory_balance _ _ (imageEnv_sane _ _ _) (imageEnv_checkedFail _ _ _)⟩

end DTFramework.Get
