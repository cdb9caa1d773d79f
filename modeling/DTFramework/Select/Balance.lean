import DTFramework.Lib.Ledger
import DTFramework.Select.Filter
import DTFramework.Select.Open

/-!
# What an opened selection leaves allocated

The ledger of the blocks that are allocated: `MALLOC_WRAPPER` takes a block,
`FREE_WRAPPER` gives back one of that address and size. Every check of the walk
and every print gives back what it took (`Neutral`), so all that
`dt_select_open` leaves is the handle, and only on success.

The early returns between an allocation and its release are the overflow
checks; they are not taken when no block ends at the top of the address space
(`Env.Sane`). Some requests are made without looking at the answer; those are
taken to succeed (`Env.CheckedFail`).

Results:

* `moves_malloc_bind`, `moves_free_bind_cons`: requests and releases, as rules;
* `printNames_stays`, `fillNames_whole`: the loops of the printers give back their
  buffer;
* `dtSelectOpen_moves`: opening leaves the handle, and only on success.
-/
namespace DTFramework.Select

open DTFramework.Fdt DTFramework.Extn DTFramework.Lib DTFramework.Lib.Ledger

/-- A block: its address and its size. -/
abbrev Block := Nat × Nat

/-- What an event does to the blocks that are allocated. -/
def heapMove : HeapEvent → Move Block
  | .malloc size ptr => if ptr = 0 then .stay else .take (ptr, size)
  | .free ptr size => .give (ptr, size)

/-- Only requests whose answer is looked at fail. -/
structure Env.CheckedFail (env : Env) : Prop where
  inputBuffer : env.alloc .inputBuffer BUFFER_SIZE ≠ 0
  printBuffer : ∀ phase blob, env.alloc (.printBuffer phase blob) BUFFER_SIZE ≠ 0
  printValue : ∀ phase blob index size, size < 2 ^ 32 → env.alloc (.printValue phase blob index) size ≠ 0

/-! ## The allocator -/

theorem moves_malloc (env : Env) (site : Site) (size : Nat) :
    Moves heapMove 0 (malloc env site size) fun p => if p = 0 then 0 else {(p, size)} := by
  unfold malloc
  by_cases h : env.alloc site size = 0
  · refine moves_neutral_bind (moves_stay (by simp [heapMove, h])) fun _ _ => ?_
    rw [h]
    exact moves_pure (B := fun p => if p = 0 then 0 else {(p, size)}) 0
  · refine moves_bind (moves_take (r := (env.alloc site size, size)) (by simp [heapMove, h])) fun _ _ => ?_
    have hend : Moves heapMove _ (pure (env.alloc site size) : Prog Nat) fun p => if p = 0 then 0 else {(p, size)} :=
      moves_pure _
    rwa [if_neg h] at hend

/-- A request with `A` in hand: the block comes on top when there is one. -/
theorem moves_malloc_bind_cons {β : Type} {env : Env} {site : Site} {size : Nat} {A : Multiset Block}
    {f : Nat → Prog β} {B : β → Multiset Block} (h0 : env.alloc site size = 0 → Moves heapMove A (f 0) B)
    (h : env.alloc site size ≠ 0 → Moves heapMove ({(env.alloc site size, size)} + A) (f (env.alloc site size)) B) :
    Moves heapMove A (malloc env site size >>= f) B := by
  have hm := moves_frame (moves_malloc env site size) A
  rw [zero_add] at hm
  refine moves_bind hm fun p hp => ?_
  rw [val_malloc] at hp
  cases hp
  by_cases hz : env.alloc site size = 0
  · rw [if_pos hz, hz, zero_add]
    exact h0 hz
  · rw [if_neg hz]
    exact h hz

/-- A request with nothing in hand. -/
theorem moves_malloc_bind {β : Type} {env : Env} {site : Site} {size : Nat} {f : Nat → Prog β}
    {B : β → Multiset Block} (h0 : env.alloc site size = 0 → Moves heapMove 0 (f 0) B)
    (h : env.alloc site size ≠ 0 → Moves heapMove {(env.alloc site size, size)} (f (env.alloc site size)) B) :
    Moves heapMove 0 (malloc env site size >>= f) B :=
  moves_malloc_bind_cons h0 fun hne => by rw [add_zero]; exact h hne

theorem moves_free (ptr size : Nat) : Moves heapMove {(ptr, size)} (free ptr size) fun _ => 0 := moves_give rfl

theorem moves_free_bind {β : Type} {ptr size : Nat} {f : Unit → Prog β} {B : β → Multiset Block}
    (h : Moves heapMove 0 (f ()) B) : Moves heapMove {(ptr, size)} (free ptr size >>= f) B :=
  moves_bind (moves_free ptr size) fun _ _ => h

/-- A release in the middle of others. -/
theorem moves_free_bind_cons {β : Type} {ptr size : Nat} {A : Multiset Block} {f : Unit → Prog β}
    {B : β → Multiset Block} (h : Moves heapMove A (f ()) B) :
    Moves heapMove ({(ptr, size)} + A) (free ptr size >>= f) B := by
  refine moves_bind (B := fun _ => 0 + A) (moves_frame (moves_free ptr size) A) fun _ _ => ?_
  rwa [zero_add]

theorem neutral_ofExcept {α : Type} (x : Except Fault α) : Neutral heapMove (ofExcept x) := by
  cases x with
  | error e => exact moves_fault e
  | ok a => exact moves_pure_zero

/-! ## The filter -/

/-- A block of the allocator can be walked over. -/
theorem safe_of_sane {env : Env} (hs : env.Sane) {site : Site} {size : Nat} (hlt : size < 2 ^ 32)
    (hne : env.alloc site size ≠ 0) : isSafeToAddPointer (env.alloc site size) size = true :=
  isSafeToAddPointer_of_lt (hs site size hlt hne)

section
variable {env : Env} {inp : HandleInput}

theorem isChipinfoFamilyMatch_neutral (hs : env.Sane) (e : HandleEntry) :
    Neutral heapMove (isChipinfoFamilyMatch env inp e) := by
  have hlt := getPropSize_lt env.defs (e.fdt env) (INVALID_CANDIDATE e).node.offset CHIPINFO_PROP_NAME
  unfold isChipinfoFamilyMatch
  refine moves_ite (fun _ => moves_pure_zero) fun _ => moves_ite (fun _ => moves_pure_zero) fun _ => ?_
  refine moves_malloc_bind (fun _ => moves_pure_zero) fun hne => ?_
  rw [if_neg hne]
  refine moves_neutral_bind (neutral_ofExcept _) fun r _ => ?_
  obtain ⟨status, values⟩ := r
  refine moves_ite (fun _ => moves_free_bind moves_pure_zero) fun _ => ?_
  rw [safe_of_sane hs hlt hne]
  exact moves_free_bind moves_pure_zero

theorem identifyBlobType_neutral (hs : env.Sane) (e : HandleEntry) :
    Neutral heapMove (identifyBlobTypeAndGetPlatforminfo env inp e) := by
  unfold identifyBlobTypeAndGetPlatforminfo
  refine moves_neutral_bind (neutral_ofExcept _) fun status _ => ?_
  refine moves_ite (fun _ => moves_ite (fun _ => moves_pure_zero) fun _ => moves_pure_zero) fun _ => ?_
  refine moves_ite (fun _ => moves_pure_zero) fun _ => moves_ite (fun _ => moves_pure_zero) fun _ =>
    moves_ite (fun _ => moves_pure_zero) fun _ => ?_
  refine moves_malloc_bind (fun _ => moves_pure_zero) fun hne => ?_
  have hlt := getPropSize_lt env.defs (e.fdt env) (INVALID_CANDIDATE e).node.offset PLATFORMINFO_PROP_NAME
  rw [if_neg hne]
  refine moves_neutral_bind (neutral_ofExcept _) fun r _ => ?_
  obtain ⟨status, values⟩ := r
  refine moves_ite (fun _ => moves_free_bind moves_pure_zero) fun _ => ?_
  rw [safe_of_sane hs hlt hne]
  exact moves_free_bind moves_pure_zero

/-- The list of names a getter copies has the size the lookup gave. -/
theorem getStringPropList_length {d : DTBDefs} {f : Blob} {o : Int} {name : Str}
    (hsize : (getPropSize d f o name 0).1 = FDT_ERR_QC_NOERROR)
    (hlist : (getStringPropList d f o name (getPropSize d f o name 0).2).1 = FDT_ERR_QC_NOERROR) :
    ∃ v, (getStringPropList d f o name (getPropSize d f o name 0).2).2 = terminated v ∧
      v.length = (getPropSize d f o name 0).2 := by
  have hlen {len : Int} : lenError d len ≠ FDT_ERR_QC_NOERROR := lenError_ne d len
  cases hs : getPropertyNamelen f o name with
  | error c =>
    have : getPropSize d f o name 0 = (lenError d c, 0) := by simp only [getPropSize, getprop, hs]
    rw [this] at hsize
    exact absurd hsize hlen
  | ok p =>
    have hb := int32_bounds (propLen f p)
    have hprop : getprop f o name = .ok (propValue f p, int32 (propLen f p)) := by simp only [getprop, hs]
    have hraw (hv : ¬version f < 0x10) : getProperty f o name = .ok (propData f p, int32 (propLen f p)) := by
      simp only [getProperty, if_neg hv, hs]
    generalize int32 (propLen f p) = len at hb hprop hraw
    by_cases hneg : len < 0
    · have : getPropSize d f o name 0 = (lenError d len, 0) := by
        simp only [getPropSize, hprop, if_pos hneg]
      rw [this] at hsize
      exact absurd hsize hlen
    · have hval : getPropSize d f o name 0 = (FDT_ERR_QC_NOERROR, u32 len) := by
        simp only [getPropSize, hprop, if_neg hneg]
      rw [hval] at hlist ⊢
      by_cases hv : version f < 0x10
      · have : getStringPropList d f o name (u32 len) = (lenError d (-FDT_ERR_BADVERSION), []) := by
          simp only [getStringPropList, getProperty, if_pos hv]
        rw [this] at hlist
        exact absurd hlist (hlen : lenError d (-FDT_ERR_BADVERSION) ≠ FDT_ERR_QC_NOERROR)
      · have : getStringPropList d f o name (u32 len) =
            (FDT_ERR_QC_NOERROR, terminated ((List.range len.toNat).map fun i => f.rd (propData f p + i))) := by
          simp only [getStringPropList, hraw hv, if_neg hneg]
          rw [if_neg (Nat.lt_irrefl _)]
        rw [this]
        refine ⟨_, rfl, ?_⟩
        simp only [List.length_map, List.length_range, u32]
        omega

theorem validateCompatibleString_neutral (hs : env.Sane) (e : HandleEntry) :
    Neutral heapMove (validateCompatibleString env inp e) := by
  unfold validateCompatibleString
  dsimp only
  split
  · exact moves_pure_zero
  · rename_i start _
    refine moves_ite (fun _ => moves_pure_zero) fun hsize => moves_ite (fun _ => moves_pure_zero) fun _ => ?_
    have hlt := getPropSize_lt env.defs (e.fdt env) (INVALID_CANDIDATE e).node.offset COMPATIBLE_PROP_NAME
    rw [not_or, not_not] at hsize
    refine moves_malloc_bind (fun _ => moves_pure_zero) fun hne => ?_
    rw [if_neg hne]
    refine moves_ite (fun _ => moves_free_bind moves_pure_zero) fun hlist => ?_
    rw [not_not] at hlist
    obtain ⟨v, hv, hl⟩ := getStringPropList_length hsize.1 hlist
    have hend := hs _ _ hlt hne
    have hscan := compatibleScan_exact start _ (terminated v) (env.alloc (.compatible (INVALID_CANDIDATE e).node.blob)
      (getPropSize env.defs (e.fdt env) (INVALID_CANDIDATE e).node.offset COMPATIBLE_PROP_NAME 0).2) rfl
      terminated_last (by rw [terminated_length, hl]; exact hend)
    rw [terminated_length, hl] at hscan
    rw [hv, hscan, if_neg (not_not.mpr rfl)]
    exact moves_free_bind moves_pure_zero

theorem isCompatibleStringMatch_neutral (hs : env.Sane) (e : HandleEntry) :
    Neutral heapMove (isCompatibleStringMatch env inp e) := by
  unfold isCompatibleStringMatch
  refine moves_neutral_bind (identifyBlobType_neutral hs _) fun r _ => ?_
  obtain ⟨status, e'⟩ := r
  exact moves_ite (fun _ => moves_pure_zero) fun _ => validateCompatibleString_neutral hs _

theorem propertyLoop_neutral (hs : env.Sane) (ps : List PropertyEntry) : ∀ (e : HandleEntry) (index : Nat),
    Neutral heapMove (propertyLoop env e index ps) := by
  induction ps with
  | nil => exact fun e index => moves_pure_zero
  | cons p ps ih =>
    intro e index
    have hlt := getPropSize_lt env.defs ((INVALID_CANDIDATE e).fdt env) (INVALID_CANDIDATE e).node.offset p.prop_name
    unfold propertyLoop
    refine moves_ite (fun _ => moves_pure_zero) fun _ => moves_ite (fun _ => moves_pure_zero) fun _ =>
      moves_ite (fun _ => moves_pure_zero) fun _ => ?_
    refine moves_malloc_bind (fun _ => moves_pure_zero) fun hne => ?_
    rw [if_neg hne]
    refine moves_neutral_bind (neutral_ofExcept _) fun r _ => ?_
    obtain ⟨status, values⟩ := r
    refine moves_ite (fun _ => moves_free_bind moves_pure_zero) fun _ => ?_
    rw [safe_of_sane hs hlt hne]
    exact moves_free_bind (moves_ite (fun _ => ih _ _) fun _ => moves_pure_zero)

theorem isItDtbDtboCandidate_neutral (hs : env.Sane) (e : HandleEntry) :
    Neutral heapMove (isItDtbDtboCandidate env inp e) := by
  unfold isItDtbDtboCandidate isPropertyListValid
  refine moves_neutral_bind (isChipinfoFamilyMatch_neutral hs e) fun r _ => ?_
  obtain ⟨s1, e1⟩ := r
  refine moves_ite (fun _ => moves_pure_zero) fun _ => ?_
  refine moves_neutral_bind (isCompatibleStringMatch_neutral hs e1) fun r _ => ?_
  obtain ⟨s2, e2⟩ := r
  refine moves_ite (fun _ => moves_pure_zero) fun _ => moves_ite (fun _ => moves_pure_zero) fun _ => ?_
  exact propertyLoop_neutral hs _ _ _

/-! ## The selectors -/

theorem validateOemVariant_neutral (e : HandleEntry) : Neutral heapMove (validateOemVariant env inp e) := by
  unfold validateOemVariant
  refine moves_ite (fun _ => moves_ite (fun _ => moves_pure_zero) fun _ => moves_pure_zero) fun _ =>
    moves_ite (fun _ => moves_pure_zero) fun _ => ?_
  refine moves_malloc_bind (fun _ => moves_pure_zero) fun hne => ?_
  rw [if_neg hne]
  refine moves_neutral_bind (neutral_ofExcept _) fun r _ => moves_free_bind ?_
  obtain ⟨status, values⟩ := r
  exact moves_ite (fun _ => moves_pure_zero) fun _ => moves_ite (fun _ => moves_pure_zero) fun _ => moves_pure_zero

theorem selectEntry_neutral (w : WalkState) (e : HandleEntry) : Neutral heapMove (selectEntry env inp w e) := by
  unfold selectEntry
  split
  · exact moves_pure_zero
  · exact moves_pure_zero
  · refine moves_neutral_bind ?_ fun _ _ => moves_pure_zero
    unfold validateAndSelectPlatformDtbo
    refine moves_ite (fun _ => moves_pure_zero) fun _ => ?_
    refine moves_neutral_bind (validateOemVariant_neutral _) fun r _ => ?_
    obtain ⟨status, e'⟩ := r
    exact moves_ite (fun _ => moves_pure_zero) fun _ => moves_ite (fun _ => moves_pure_zero) fun _ => moves_pure_zero

/-! ## Printing -/

theorem printProperty_neutral (hc : env.CheckedFail) (props : List PropertyEntry) (f : Blob) (o : Int)
    (phase : Phase) (blob index : Nat) (name : Str) :
    Neutral heapMove (printProperty env props f o (.printValue phase blob index) name) := by
  have hlt := getPropSize_lt env.defs f o name
  unfold printProperty
  refine moves_ite (fun _ => moves_pure_zero) fun _ => moves_ite (fun _ => moves_pure_zero) fun _ => ?_
  have hne := hc.printValue phase blob index _ hlt
  refine moves_malloc_bind (fun h => absurd h hne) fun _ => ?_
  refine moves_neutral_bind (neutral_ofExcept _) fun status _ => moves_ite (fun _ => ?_) fun _ => ?_
  · unfold freeIf
    rw [if_pos hne]
    exact moves_free_bind moves_pure_zero
  · exact moves_free_bind moves_pure_zero

theorem printNames_neutral (hc : env.CheckedFail) (props : List PropertyEntry) (phase : Phase) (f : Blob) (o : Int)
    (remaining : Nat) : ∀ (ptr index : Nat) (bytes : List UInt8),
    Neutral heapMove (printNames env props phase f o ptr index bytes remaining) := by
  induction remaining using Nat.strongRecOn with
  | _ remaining ih =>
    intro ptr index bytes
    unfold printNames
    refine moves_ite (fun _ => moves_pure_zero) fun _ => moves_ite (fun _ => moves_pure_zero) fun _ => ?_
    refine moves_neutral_bind (printProperty_neutral hc props f o phase _ _ _) fun status _ => ?_
    refine moves_ite (fun _ => moves_pure_zero) fun _ => moves_ite (fun _ => moves_pure_zero) fun _ => ?_
    exact ih _ (by omega) _ _ _

/-- The loop over a buffer of whole strings ends at its end: it does not return
from the inside. -/
theorem printNames_stays (props : List PropertyEntry) (phase : Phase) (f : Blob) (o : Int) (remaining : Nat) :
    ∀ (ptr index : Nat) (bytes : List UInt8), bytes.length = remaining →
      (bytes ≠ [] → bytes.getLast? = some 0) → ptr + remaining < 2 ^ 64 →
      (printNames env props phase f o ptr index bytes remaining).Ensures fun r => r.2 = false := by
  induction remaining using Nat.strongRecOn with
  | _ remaining ih =>
    intro ptr index bytes hl hlast hend
    unfold printNames
    rw [Traced.ensures_ite]
    refine ⟨fun _ => Traced.ensures_pure.mpr rfl, fun h0 => ?_⟩
    have hne : bytes ≠ [] := fun hc => h0 (by rw [← hl, hc]; rfl)
    have hlt : (bytes.takeWhile (· ≠ 0)).length < bytes.length := bufferString_lt (hlast hne)
    have hsub : isSafeToSubtractUint32 remaining ((bytes.takeWhile (· ≠ 0)).length + 1) = true := by
      unfold isSafeToSubtractUint32
      simp only [Bool.not_eq_true', decide_eq_false_iff_not]
      omega
    have hadd := isSafeToAddPointer_of_lt (p := ptr) (n := (bytes.takeWhile (· ≠ 0)).length + 1) (by omega)
    simp only [hsub, hadd, Bool.not_true, Bool.false_eq_true, if_false, Traced.ensures_bind, Traced.ensures_ite,
      Traced.ensures_pure]
    intro status _
    refine ⟨fun _ => trivial, fun _ => ?_⟩
    refine ih _ (by omega) _ _ _ (by rw [List.length_drop, hl]) (fun hd => ?_) (by omega)
    rw [List.getLast?_drop, if_neg (fun hle => hd (List.drop_eq_nil_of_le hle))]
    exact hlast hne

/-- Names that were copied without an error fill the buffer, and end in a NUL. -/
theorem fillNames_whole {d : DTBDefs} {size status : Int} {names : List Str} {bytes : List UInt8}
    (h : fillNames d size status names = .ok (FDT_ERR_QC_NOERROR, bytes)) :
    bytes.length = namesLength names ∧ (bytes.length = 0 ∨ (bytes.length : Int) ≤ size) ∧
      (bytes ≠ [] → bytes.getLast? = some 0) := by
  induction names generalizing size bytes with
  | nil =>
    cases h
    exact ⟨rfl, Or.inl rfl, fun hc => absurd rfl hc⟩
  | cons pname names ih =>
    unfold fillNames at h
    split at h
    · simp only [Except.ok.injEq, Prod.mk.injEq] at h
      exact absurd h.1 (libraryCode_ne (d.extends_std _ (by simp))).2
    · split at h
      · simp only [Except.ok.injEq, Prod.mk.injEq] at h
        exact absurd h.1 (libraryCode_ne (d.extends_std _ (by simp))).1
      · split at h
        · cases h
        · rename_i hsize _
          cases hf : fillNames d (size - (pname.length + 1)) status names with
          | error e => rw [hf] at h; cases h
          | ok r =>
            obtain ⟨r, rest⟩ := r
            rw [hf] at h
            cases h
            obtain ⟨hl, hle, hlast⟩ := ih hf
            refine ⟨?_, Or.inr ?_, fun _ => ?_⟩
            · simp only [List.length_append, List.length_cons, namesLength, List.map_cons, List.sum_cons] at hl ⊢
              omega
            · simp only [List.length_append, List.length_cons] at hle ⊢
              omega
            · by_cases hr : rest = []
              · subst hr
                simp
              · rw [List.getLast?_append, List.getLast?_cons, hlast hr]
                simp

theorem getPropNames_whole {d : DTBDefs} {f : Blob} {o : Int} {bytes : List UInt8}
    (h : getPropNames d f o (getPropNamesSize d f o).2 = .ok (FDT_ERR_QC_NOERROR, bytes)) :
    bytes.length = (getPropNamesSize d f o).2 ∧ (bytes ≠ [] → bytes.getLast? = some 0) := by
  unfold getPropNames at h
  obtain ⟨hl, hle, hlast⟩ := fillNames_whole h
  refine ⟨?_, hlast⟩
  unfold getPropNamesSize at hle ⊢
  dsimp only at hle ⊢
  omega

theorem printBoardId_neutral (hs : env.Sane) (hc : env.CheckedFail) (props : List PropertyEntry) (phase : Phase)
    (fdtheader : Nat) : Neutral heapMove (printBoardId env props phase fdtheader) := by
  unfold printBoardId
  refine moves_ite (fun _ => moves_pure_zero) fun _ => moves_ite (fun _ => moves_pure_zero) fun _ =>
    moves_ite (fun _ => moves_pure_zero) fun _ => ?_
  have hlt : (getPropNamesSize env.defs (blobAt env.mem fdtheader)
      (pathOffset (blobAt env.mem fdtheader) ROOT_NODE)).2 < 2 ^ 32 := by
    unfold getPropNamesSize
    dsimp only
    omega
  refine moves_malloc_bind (fun _ => moves_pure_zero) fun hne => ?_
  rw [if_neg hne]
  have hend := hs _ _ hlt hne
  refine moves_neutral_bind (neutral_ofExcept _) fun r hr => ?_
  obtain ⟨status, bytes⟩ := r
  refine moves_ite (fun _ => moves_free_bind moves_pure_zero) fun hok => ?_
  rw [not_not] at hok
  subst hok
  rw [val_ofExcept] at hr
  obtain ⟨hl, hlast⟩ := getPropNames_whole hr
  have hbuf := hc.printBuffer phase fdtheader
  refine moves_malloc_bind_cons (fun h => absurd h hbuf) fun _ => ?_
  rw [if_neg fun h => hbuf h.1, add_comm]
  refine moves_neutral_bind (printNames_neutral hc _ _ _ _ _ _ _ _) fun r hr => ?_
  have hstay := printNames_stays _ _ _ _ _ _ _ _ hl hlast hend _ hr
  obtain ⟨status, leaves⟩ := r
  dsimp only at hstay
  subst hstay
  refine moves_free_bind_cons ?_
  unfold freeIf
  rw [if_pos hbuf]
  exact moves_free_bind moves_pure_zero

theorem printSelected_neutral (hs : env.Sane) (hc : env.CheckedFail) (type : BlobType) (ptr size : Nat)
    (status : Int) :
    Neutral heapMove (printSelected env inp type ptr size status) :=
  moves_ite (fun _ => printBoardId_neutral hs hc _ _ _) fun _ => moves_pure_zero

theorem printSelectedDtbDtbos_neutral (hs : env.Sane) (hc : env.CheckedFail) (h : HandleData) :
    Neutral heapMove (printSelectedDtbDtbos env inp h) := by
  unfold printSelectedDtbDtbos
  refine moves_neutral_bind (printSelected_neutral hs hc _ _ _ _) fun s1 _ =>
    moves_ite (fun _ => moves_pure_zero) fun _ => ?_
  refine moves_neutral_bind (printSelected_neutral hs hc _ _ _ _) fun s2 _ =>
    moves_ite (fun _ => moves_pure_zero) fun _ => ?_
  exact printSelected_neutral hs hc _ _ _ _

/-! ## The walk -/

theorem examineBlob_neutral (hs : env.Sane) (hc : env.CheckedFail) (w : WalkState) (e : HandleEntry) :
    Neutral heapMove (examineBlob env inp w e) := by
  unfold examineBlob logEntry examineEntry
  refine moves_ite (fun _ => moves_pure_zero) fun _ => ?_
  refine moves_neutral_bind (moves_ite (fun _ => printBoardId_neutral hs hc _ _ _) fun _ => moves_pure_zero)
    fun status _ => ?_
  refine moves_ite (fun _ => moves_pure_zero) fun _ => ?_
  refine moves_neutral_bind (isItDtbDtboCandidate_neutral hs _) fun r _ => ?_
  obtain ⟨s, e'⟩ := r
  refine moves_ite (fun _ => moves_pure_zero) fun _ => moves_ite (fun _ => moves_pure_zero) fun _ => ?_
  exact moves_neutral_bind (selectEntry_neutral _ _) fun _ _ => moves_pure_zero

theorem walkStep_neutral (hs : env.Sane) (hc : env.CheckedFail) (w : WalkState) :
    Neutral heapMove (walkStep env inp w) := by
  unfold walkStep
  split
  refine moves_ite (fun _ => moves_pure_zero) fun _ => moves_ite (fun _ => moves_pure_zero) fun _ => ?_
  refine moves_neutral_bind (examineBlob_neutral hs hc _ _) fun r _ => ?_
  obtain ⟨s, w'⟩ := r
  exact moves_ite (fun _ => moves_pure_zero) fun _ => moves_pure_zero

theorem selectDtbAndDtbos_neutral (hs : env.Sane) (hc : env.CheckedFail) (h : HandleData) :
    Neutral heapMove (selectDtbAndDtbos env inp h) :=
  moves_ite (fun _ => moves_pure_zero) fun _ => moves_loop (walkStep_neutral hs hc) _

/-! ## Opening -/

theorem openHandle_neutral (hs : env.Sane) (hc : env.CheckedFail) (start : Nat) :
    Neutral heapMove (openHandle env inp start) := by
  unfold openHandle printInputParameters
  refine moves_neutral_bind (moves_ite (fun _ => moves_pure_zero) fun _ => ?_) fun status _ => ?_
  · refine moves_malloc_bind (fun h => absurd h hc.inputBuffer) fun hne => ?_
    rw [if_neg hne]
    exact moves_free_bind moves_pure_zero
  · refine moves_ite (fun _ => moves_pure_zero) fun _ => ?_
    refine moves_neutral_bind (selectDtbAndDtbos_neutral hs hc _) fun r _ => ?_
    obtain ⟨s, w⟩ := r
    refine moves_ite (fun _ => moves_pure_zero) fun _ => ?_
    exact moves_neutral_bind (printSelectedDtbDtbos_neutral hs hc _) fun _ _ => moves_pure_zero

end

/-- The block of the handle. -/
def handleBlock (env : Env) : Block := (env.alloc .handle HANDLE_SIZE, HANDLE_SIZE)

/-- Opening leaves the handle when it gives one back, and nothing otherwise. -/
theorem dtSelectOpen_moves {env : Env} (hs : env.Sane) (hc : env.CheckedFail) (a : OpenArgs) :
    Moves heapMove 0 (dtSelectOpen env a) fun r => if r.2.isSome then {handleBlock env} else 0 := by
  unfold dtSelectOpen
  have hnone (status : Int) : Moves heapMove 0 (return (status, none) : Prog (Int × Option Opened))
      fun r => if r.2.isSome then {handleBlock env} else 0 :=
    moves_pure (B := fun r => if r.2.isSome then {handleBlock env} else 0) (status, none)
  split
  · exact hnone _
  · refine moves_ite (fun _ => hnone _) fun _ => ?_
    refine moves_malloc_bind (fun _ => hnone _) fun hne => ?_
    rw [if_neg hne]
    refine moves_neutral_bind (openHandle_neutral hs hc _) fun r _ => ?_
    obtain ⟨status, h⟩ := r
    refine moves_ite (fun _ => moves_free_bind (hnone _)) fun _ => ?_
    exact moves_pure (B := fun r : Int × Option Opened => if r.2.isSome then ({handleBlock env} : Multiset Block)
      else 0)
      (SUCCESS, some ⟨h, h.base_dtb_size, h.soc_dtbo_size, h.plat_dtbo_size⟩)

/-- A handle is given back exactly on success. -/
theorem dtSelectOpen_status (env : Env) (a : OpenArgs) :
    (dtSelectOpen env a).Ensures fun r => r.1 = SUCCESS ↔ r.2.isSome := by
  unfold dtSelectOpen
  split
  · exact Traced.ensures_pure.mpr (by decide)
  · simp only [Traced.ensures_ite, Traced.ensures_pure, Traced.ensures_bind]
    refine ⟨fun _ => by decide, fun _ p _ => ⟨fun _ => by decide, fun _ r _ => ⟨fun h _ _ => ?_, fun _ => by simp⟩⟩⟩
    simpa using h

/-- A handle that was opened has a block. -/
theorem dtSelectOpen_ptr (env : Env) (a : OpenArgs) :
    (dtSelectOpen env a).Ensures fun r => r.2.isSome → env.alloc .handle HANDLE_SIZE ≠ 0 := by
  unfold dtSelectOpen
  split
  · exact Traced.ensures_pure.mpr (by simp)
  · simp only [Traced.ensures_ite, Traced.ensures_pure, Traced.ensures_bind, ensures_malloc]
    exact ⟨by simp, fun _ => ⟨by simp, fun hp r _ => ⟨fun _ _ _ => by simp, fun _ _ => hp⟩⟩⟩

end DTFramework.Select
