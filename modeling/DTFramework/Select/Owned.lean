import DTFramework.Lib.Policy
import DTFramework.Select.Open

/-!
# What an opened selection releases

Every address `dt_select_open` passes to `FREE_WRAPPER` is one that
`MALLOC_WRAPPER` answered with before, whatever fails on the way. Nothing is
said of how often a block is released, so nothing is asked of the allocator.

Results:

* `dtSelectOpen_owned`: opening a selection obeys the heap's policy;
* `dtSelectOpen_handle`: an open that gives back a handle asked for its block.
-/
namespace DTFramework.Select

open DTFramework.Fdt DTFramework.Extn DTFramework.Lib DTFramework.Lib.Policy

/-- A request gives its answer, which is one of the allocator; a release needs
an answer that was given. -/
def heapPolicy (env : Env) : Policy HeapEvent Nat where
  allowed
    | .malloc size ptr => ∃ site, ptr = env.alloc site size
    | .free _ _ => True
  needs
    | .malloc _ _ => ∅
    | .free ptr _ => {ptr}
  gives
    | .malloc _ ptr => {ptr}
    | .free _ _ => ∅

section
variable {env : Env} {inp : HandleInput} {A : Set Nat}

theorem within_malloc_bind {β : Type} {site : Site} {size : Nat} {f : Nat → Prog β}
    (hf : Within (heapPolicy env) (A ∪ {env.alloc site size}) (f (env.alloc site size))) :
    Within (heapPolicy env) A (malloc env site size >>= f) := by
  have hallowed : (heapPolicy env).allowed (.malloc size (env.alloc site size)) := ⟨site, rfl⟩
  exact within_emit_bind (f := fun _ => f (env.alloc site size)) hallowed (Set.empty_subset _) hf

theorem within_free_bind {β : Type} {ptr size : Nat} {f : Unit → Prog β} (hp : ptr ∈ A)
    (hf : Within (heapPolicy env) A (f ())) : Within (heapPolicy env) A (free ptr size >>= f) := by
  refine within_emit_bind trivial (Set.singleton_subset_iff.mpr hp) ?_
  rw [show A ∪ (heapPolicy env).gives (.free ptr size) = A from Set.union_empty A]
  exact hf

theorem within_freeIf_bind {β : Type} {ptr size : Nat} {f : Unit → Prog β} (hp : ptr ∈ A)
    (hf : Within (heapPolicy env) A (f ())) : Within (heapPolicy env) A (freeIf ptr size >>= f) := by
  unfold freeIf
  split
  · exact within_free_bind hp hf
  · exact within_bind within_pure fun _ => hf

theorem within_ofExcept {α : Type} (x : Except Fault α) : Within (heapPolicy env) A (ofExcept x) := by
  cases x with
  | error e => exact within_fault e
  | ok a => exact within_pure

theorem mem_given (p : Nat) : p ∈ A ∪ {p} := Or.inr rfl

/-! ## The filter -/

theorem isChipinfoFamilyMatch_owned (e : HandleEntry) : Within (heapPolicy env) A
    (isChipinfoFamilyMatch env inp e) := by
  unfold isChipinfoFamilyMatch
  refine within_ite (fun _ => within_pure) fun _ => within_ite (fun _ => within_pure) fun _ => within_malloc_bind ?_
  refine within_ite (fun _ => within_pure) fun _ => within_bind (within_ofExcept _) fun r => ?_
  obtain ⟨status, values⟩ := r
  exact within_ite (fun _ => within_free_bind (mem_given _) within_pure) fun _ =>
    within_ite (fun _ => within_pure) fun _ => within_free_bind (mem_given _) within_pure

theorem identifyBlobType_owned (e : HandleEntry) :
    Within (heapPolicy env) A (identifyBlobTypeAndGetPlatforminfo env inp e) := by
  unfold identifyBlobTypeAndGetPlatforminfo
  refine within_bind (within_ofExcept _) fun status => ?_
  refine within_ite (fun _ => within_ite (fun _ => within_pure) fun _ => within_pure) fun _ => ?_
  refine within_ite (fun _ => within_pure) fun _ => within_ite (fun _ => within_pure) fun _ =>
    within_ite (fun _ => within_pure) fun _ => within_malloc_bind ?_
  refine within_ite (fun _ => within_pure) fun _ => within_bind (within_ofExcept _) fun r => ?_
  obtain ⟨status, values⟩ := r
  exact within_ite (fun _ => within_free_bind (mem_given _) within_pure) fun _ =>
    within_ite (fun _ => within_pure) fun _ => within_free_bind (mem_given _) within_pure

theorem validateCompatibleString_owned (e : HandleEntry) :
    Within (heapPolicy env) A (validateCompatibleString env inp e) := by
  unfold validateCompatibleString
  dsimp only
  split
  · exact within_pure
  · refine within_ite (fun _ => within_pure) fun _ => within_ite (fun _ => within_pure) fun _ => within_malloc_bind ?_
    refine within_ite (fun _ => within_pure) fun _ => within_ite (fun _ => within_free_bind (mem_given _) within_pure)
      fun _ => ?_
    exact within_ite (fun _ => within_pure) fun _ => within_free_bind (mem_given _) within_pure

theorem isCompatibleStringMatch_owned (e : HandleEntry) :
    Within (heapPolicy env) A (isCompatibleStringMatch env inp e) := by
  unfold isCompatibleStringMatch
  refine within_bind (identifyBlobType_owned _) fun r => ?_
  obtain ⟨status, e'⟩ := r
  exact within_ite (fun _ => within_pure) fun _ => validateCompatibleString_owned _

theorem propertyLoop_owned (ps : List PropertyEntry) : ∀ (A : Set Nat) (e : HandleEntry) (index : Nat),
    Within (heapPolicy env) A (propertyLoop env e index ps) := by
  induction ps with
  | nil => exact fun A e index => within_pure
  | cons p ps ih =>
    intro A e index
    unfold propertyLoop
    refine within_ite (fun _ => within_pure) fun _ => within_ite (fun _ => within_pure) fun _ =>
      within_ite (fun _ => within_pure) fun _ => within_malloc_bind ?_
    refine within_ite (fun _ => within_pure) fun _ => within_bind (within_ofExcept _) fun r => ?_
    obtain ⟨status, values⟩ := r
    refine within_ite (fun _ => within_free_bind (mem_given _) within_pure) fun _ =>
      within_ite (fun _ => within_pure) fun _ => within_free_bind (mem_given _) ?_
    exact within_ite (fun _ => ih _ _ _) fun _ => within_pure

theorem isItDtbDtboCandidate_owned (e : HandleEntry) :
    Within (heapPolicy env) A (isItDtbDtboCandidate env inp e) := by
  unfold isItDtbDtboCandidate isPropertyListValid
  refine within_bind (isChipinfoFamilyMatch_owned e) fun r => ?_
  obtain ⟨s1, e1⟩ := r
  refine within_ite (fun _ => within_pure) fun _ => within_bind (isCompatibleStringMatch_owned e1) fun r => ?_
  obtain ⟨s2, e2⟩ := r
  exact within_ite (fun _ => within_pure) fun _ => within_ite (fun _ => within_pure) fun _ =>
    propertyLoop_owned _ _ _ _

/-! ## The selectors -/

theorem validateOemVariant_owned (e : HandleEntry) : Within (heapPolicy env) A (validateOemVariant env inp e) := by
  unfold validateOemVariant
  refine within_ite (fun _ => within_ite (fun _ => within_pure) fun _ => within_pure) fun _ =>
    within_ite (fun _ => within_pure) fun _ => within_malloc_bind ?_
  refine within_ite (fun _ => within_pure) fun _ => within_bind (within_ofExcept _) fun r => ?_
  obtain ⟨status, values⟩ := r
  exact within_free_bind (mem_given _) (within_ite (fun _ => within_pure) fun _ =>
    within_ite (fun _ => within_pure) fun _ => within_pure)

theorem selectEntry_owned (w : WalkState) (e : HandleEntry) : Within (heapPolicy env) A (selectEntry env inp w e) := by
  unfold selectEntry
  split
  · exact within_pure
  · exact within_pure
  · refine within_bind ?_ fun _ => within_pure
    unfold validateAndSelectPlatformDtbo
    refine within_ite (fun _ => within_pure) fun _ => within_bind (validateOemVariant_owned _) fun r => ?_
    obtain ⟨status, e'⟩ := r
    exact within_ite (fun _ => within_pure) fun _ => within_ite (fun _ => within_pure) fun _ => within_pure

/-! ## Printing -/

theorem printProperty_owned (props : List PropertyEntry) (f : Blob) (o : Int) (site : Site) (name : Str) :
    Within (heapPolicy env) A (printProperty env props f o site name) := by
  unfold printProperty
  refine within_ite (fun _ => within_pure) fun _ => within_ite (fun _ => within_pure) fun _ => within_malloc_bind ?_
  exact within_bind (within_ofExcept _) fun status => within_ite
    (fun _ => within_freeIf_bind (mem_given _) within_pure) fun _ => within_free_bind (mem_given _) within_pure

theorem printNames_owned (props : List PropertyEntry) (phase : Phase) (f : Blob) (o : Int) (remaining : Nat) :
    ∀ (ptr index : Nat) (bytes : List UInt8),
      Within (heapPolicy env) A (printNames env props phase f o ptr index bytes remaining) := by
  induction remaining using Nat.strongRecOn with
  | _ remaining ih =>
    intro ptr index bytes
    unfold printNames
    refine within_ite (fun _ => within_pure) fun _ => within_ite (fun _ => within_pure) fun _ => ?_
    refine within_bind (printProperty_owned props f o _ _) fun status => ?_
    refine within_ite (fun _ => within_pure) fun _ => within_ite (fun _ => within_pure) fun _ => ?_
    exact ih _ (by omega) _ _ _

theorem printBoardId_owned (props : List PropertyEntry) (phase : Phase) (fdtheader : Nat) :
    Within (heapPolicy env) A (printBoardId env props phase fdtheader) := by
  unfold printBoardId
  refine within_ite (fun _ => within_pure) fun _ => within_ite (fun _ => within_pure) fun _ =>
    within_ite (fun _ => within_pure) fun _ => within_malloc_bind ?_
  refine within_ite (fun _ => within_pure) fun _ => within_bind (within_ofExcept _) fun r => ?_
  obtain ⟨status, bytes⟩ := r
  refine within_ite (fun _ => within_free_bind (mem_given _) within_pure) fun _ => within_malloc_bind ?_
  refine within_ite (fun _ => within_fault _) fun _ => within_bind (printNames_owned _ _ _ _ _ _ _ _) fun r => ?_
  obtain ⟨status, leaves⟩ := r
  exact within_ite (fun _ => within_pure) fun _ => within_free_bind (Or.inl (mem_given _))
    (within_freeIf_bind (mem_given _) within_pure)

theorem printSelectedDtbDtbos_owned (h : HandleData) :
    Within (heapPolicy env) A (printSelectedDtbDtbos env inp h) := by
  have hone (type : BlobType) (ptr size : Nat) (status : Int) :
      Within (heapPolicy env) A (printSelected env inp type ptr size status) :=
    within_ite (fun _ => printBoardId_owned _ _ _) fun _ => within_pure
  unfold printSelectedDtbDtbos
  exact within_bind (hone _ _ _ _) fun s1 => within_ite (fun _ => within_pure) fun _ =>
    within_bind (hone _ _ _ _) fun s2 => within_ite (fun _ => within_pure) fun _ => hone _ _ _ _

/-! ## The walk -/

theorem examineBlob_owned (w : WalkState) (e : HandleEntry) : Within (heapPolicy env) A (examineBlob env inp w e) := by
  unfold examineBlob logEntry examineEntry
  refine within_ite (fun _ => within_pure) fun _ => ?_
  refine within_bind (within_ite (fun _ => printBoardId_owned _ _ _) fun _ => within_pure) fun status => ?_
  refine within_ite (fun _ => within_pure) fun _ => within_bind (isItDtbDtboCandidate_owned _) fun r => ?_
  obtain ⟨s, e'⟩ := r
  exact within_ite (fun _ => within_pure) fun _ => within_ite (fun _ => within_pure) fun _ =>
    within_bind (selectEntry_owned _ _) fun _ => within_pure

theorem walkStep_owned (w : WalkState) : Within (heapPolicy env) A (walkStep env inp w) := by
  unfold walkStep
  split
  refine within_ite (fun _ => within_pure) fun _ => within_ite (fun _ => within_pure) fun _ => ?_
  refine within_bind (examineBlob_owned _ _) fun r => ?_
  obtain ⟨s, w'⟩ := r
  exact within_ite (fun _ => within_pure) fun _ => within_pure

/-! ## Opening -/

theorem openHandle_owned (start : Nat) : Within (heapPolicy env) A (openHandle env inp start) := by
  unfold openHandle printInputParameters selectDtbAndDtbos
  refine within_bind (within_ite (fun _ => within_pure) fun _ => within_malloc_bind ?_) fun status => ?_
  · exact within_ite (fun _ => within_fault _) fun _ => within_free_bind (mem_given _) within_pure
  · refine within_ite (fun _ => within_pure) fun _ => ?_
    refine within_bind (within_ite (fun _ => within_pure) fun _ => within_loop walkStep_owned _) fun r => ?_
    obtain ⟨s, w⟩ := r
    exact within_ite (fun _ => within_pure) fun _ => within_bind (printSelectedDtbDtbos_owned _) fun _ => within_pure

end

theorem dtSelectOpen_owned (env : Env) (a : OpenArgs) : Within (heapPolicy env) ∅ (dtSelectOpen env a) := by
  unfold dtSelectOpen
  split
  · exact within_pure
  · refine within_ite (fun _ => within_pure) fun _ =>
      within_malloc_bind (within_ite (fun _ => within_pure) fun _ => ?_)
    refine within_bind (openHandle_owned _) fun r => ?_
    obtain ⟨status, h⟩ := r
    exact within_ite (fun _ => within_free_bind (mem_given _) within_pure) fun _ => within_pure

/-- An open that gives back a handle asked for its block. -/
theorem dtSelectOpen_handle {env : Env} {a : OpenArgs} {o : Opened} {t : List HeapEvent}
    (h : dtSelectOpen env a = .ok ((SUCCESS, some o), t)) :
      .malloc HANDLE_SIZE (env.alloc .handle HANDLE_SIZE) ∈ t := by
  unfold dtSelectOpen at h
  split at h
  · cases h
  · split at h
    · cases h
    · obtain ⟨p, t1, t2, h1, -, rfl⟩ := Traced.bind_eq_ok h
      cases h1
      simp

end DTFramework.Select
