import DTFramework.Fdt.Copy
import DTFramework.Extn.Blob

/-!
# Merging an overlay

`fdt_merge_overlay` validates both trees, checks that the buffer has room for
them, opens the primary tree into the buffer and applies the overlay to it.
libfdt's `fdt_open_into` and `fdt_overlay_apply` are parameters (`Libfdt`).

What is relied on is about the calls a merge makes (`MergeCall.Keeps`), as
neither function keeps to its buffers for every input: they answer 0 or one of
libfdt's codes, and when they answer 0 the tree takes the whole buffer, and
nothing is written but the buffer and, by the second, the overlay.

Results:

* `MergeCall.not_tooSmall`: a buffer with room for both trees passes the checks;
* `merge_not_small`: what a merge with such a buffer answers is not their code;
* `merge_ok`: what a merge in place leaves when it succeeds.
-/
namespace DTFramework.Get

open DTFramework.Fdt DTFramework.Extn

/-- The writing functions of libfdt, on the memory. -/
structure Libfdt where
  /-- `fdt_open_into (fdt, buf, bufsize)` -/
  fdt_open_into : Mem → Nat → Nat → Int → Int × Mem
  /-- `fdt_overlay_apply (fdt, fdto)` -/
  fdt_overlay_apply : Mem → Nat → Nat → Int × Mem

/-- The arguments of a call of `fdt_merge_overlay`, with the memory it is made in. -/
structure MergeCall where
  mem : Mem
  primary_blob : Nat
  pb_size : Nat
  overlay_blob : Nat
  ob_size : Nat
  merge_blob : Nat
  mb_size : Nat

/-- The two checks of the size of the merge buffer; the subtraction is that of `size_t`.
mirrors libs/DTBExtnLib/DTBExtnLib_overlay.c:67-84 -/
def MergeCall.tooSmall (c : MergeCall) : Prop :=
  (c.mb_size ≤ totalsize (blobAt c.mem c.overlay_blob) ∨ c.mb_size ≤ totalsize (blobAt c.mem c.primary_blob)) ∨
    (c.mb_size - totalsize (blobAt c.mem c.overlay_blob) : Int) % 2 ^ 64 < totalsize (blobAt c.mem c.primary_blob)

instance (c : MergeCall) : Decidable c.tooSmall := by unfold MergeCall.tooSmall; infer_instance

/-- The validation of the two trees. mirrors libs/DTBExtnLib/DTBExtnLib_overlay.c:57-66 -/
def MergeCall.valid (d : DTBDefs) (c : MergeCall) : Int :=
  if c.primary_blob = 0 then -d.FDT_ERR_QC_NULLPTR
  else if c.overlay_blob = 0 then -d.FDT_ERR_QC_NULLPTR
  else if c.merge_blob = 0 then -d.FDT_ERR_QC_NULLPTR
  else if checkForValidBlob d c.mem c.primary_blob c.pb_size ≠ FDT_ERR_QC_NOERROR then
    checkForValidBlob d c.mem c.primary_blob c.pb_size
  else checkForValidBlob d c.mem c.overlay_blob c.ob_size

/-- The primary tree is opened into the buffer. mirrors libs/DTBExtnLib/DTBExtnLib_overlay.c:86-91 -/
def MergeCall.opened (lib : Libfdt) (c : MergeCall) : Int × Mem :=
  lib.fdt_open_into c.mem c.primary_blob c.merge_blob (int32 c.mb_size)

/-- The overlay is applied to the tree in the buffer.
mirrors libs/DTBExtnLib/DTBExtnLib_overlay.c:92-99 -/
def MergeCall.applied (lib : Libfdt) (c : MergeCall) : Int × Mem :=
  lib.fdt_overlay_apply (c.opened lib).2 c.merge_blob c.overlay_blob

/-- Opening the primary tree into the buffer, applying the overlay and looking
at the result. mirrors libs/DTBExtnLib/DTBExtnLib_overlay.c:86-113 -/
def MergeCall.apply (lib : Libfdt) (c : MergeCall) : Int × Mem :=
  if (c.opened lib).1 ≠ FDT_ERR_QC_NOERROR then c.opened lib
  else if (c.applied lib).1 ≠ FDT_ERR_QC_NOERROR then c.applied lib
  else if checkHeader (blobAt (c.applied lib).2 c.merge_blob) ≠ FDT_ERR_QC_NOERROR then
    (-FDT_ERR_BADMAGIC, (c.applied lib).2)
  else (FDT_ERR_QC_NOERROR, (c.applied lib).2)

/-- mirrors libs/DTBExtnLib/DTBExtnLib_overlay.c:49-122: the status and the memory. -/
def fdtMergeOverlay (d : DTBDefs) (lib : Libfdt) (c : MergeCall) : Int × Mem :=
  if c.valid d ≠ FDT_ERR_QC_NOERROR then (c.valid d, c.mem)
  else if c.tooSmall then (-d.FDT_ERR_QC_BUF2SMALL, c.mem)
  else c.apply lib

/-! ## The calls of libfdt a merge makes -/

/-- What is relied on of the two calls of libfdt that a merge makes: their
answers are libfdt's, and where they succeed, the total size of the tree in the
buffer and what was written. -/
structure MergeCall.Keeps (lib : Libfdt) (c : MergeCall) : Prop where
  open_code : -FDT_ERR_MAX ≤ (c.opened lib).1
  open_totalsize : (c.opened lib).1 = 0 → totalsize (blobAt (c.opened lib).2 c.merge_blob) = c.mb_size
  open_frame : (c.opened lib).1 = 0 → ∀ a, (a < c.merge_blob ∨ c.merge_blob + c.mb_size ≤ a) →
    (c.opened lib).2 a = c.mem a
  apply_code : (c.opened lib).1 = 0 → -FDT_ERR_MAX ≤ (c.applied lib).1
  apply_totalsize : (c.opened lib).1 = 0 → (c.applied lib).1 = 0 →
    totalsize (blobAt (c.applied lib).2 c.merge_blob) = totalsize (blobAt (c.opened lib).2 c.merge_blob)
  apply_frame : (c.opened lib).1 = 0 → (c.applied lib).1 = 0 → ∀ a,
    (a < c.merge_blob ∨ c.merge_blob + totalsize (blobAt (c.opened lib).2 c.merge_blob) ≤ a) →
    (a < c.overlay_blob ∨ c.overlay_blob + totalsize (blobAt (c.opened lib).2 c.overlay_blob) ≤ a) →
    (c.applied lib).2 a = (c.opened lib).2 a

/-! ## What a merge does -/

theorem nullptr_ne (d : DTBDefs) : -d.FDT_ERR_QC_NULLPTR ≠ FDT_ERR_QC_NOERROR :=
  (libraryCode_ne (d.extends_std _ (by simp))).2

theorem checkForValidBlob_ok {d : DTBDefs} {m : Mem} {blob bsize : Nat}
    (h : checkForValidBlob d m blob bsize = FDT_ERR_QC_NOERROR) :
    HeaderOk (blobAt m blob) ∧ totalsize (blobAt m blob) ≤ bsize ∧ FDT_V17_SIZE ≤ bsize := by
  unfold checkForValidBlob at h
  dsimp only at h
  split at h
  · exact absurd h (nullptr_ne d)
  · split at h
    · exact absurd h (by decide)
    · rename_i hroom
      split at h
      · exact absurd h (by decide)
      · rename_i hc
        split at h
        · exact absurd h (by decide)
        · rename_i hle
          exact ⟨(checkHeader_eq_zero _).mp (not_not.mp hc), Nat.le_of_not_lt hle, Nat.le_of_not_lt hroom⟩

theorem MergeCall.valid_ok {d : DTBDefs} {c : MergeCall} (h : c.valid d = FDT_ERR_QC_NOERROR) :
    (HeaderOk (blobAt c.mem c.primary_blob) ∧ totalsize (blobAt c.mem c.primary_blob) ≤ c.pb_size ∧
      FDT_V17_SIZE ≤ c.pb_size) ∧
    (HeaderOk (blobAt c.mem c.overlay_blob) ∧ totalsize (blobAt c.mem c.overlay_blob) ≤ c.ob_size ∧
      FDT_V17_SIZE ≤ c.ob_size) := by
  unfold MergeCall.valid at h
  split at h
  · exact absurd h (nullptr_ne d)
  · split at h
    · exact absurd h (nullptr_ne d)
    · split at h
      · exact absurd h (nullptr_ne d)
      · split at h
        · rename_i hne
          exact absurd h hne
        · rename_i hp
          exact ⟨checkForValidBlob_ok (not_not.mp hp), checkForValidBlob_ok h⟩

/-- A buffer with room for both trees is big enough for the checks. -/
theorem MergeCall.not_tooSmall {d : DTBDefs} {c : MergeCall} (hv : c.valid d = FDT_ERR_QC_NOERROR)
    (hsum : totalsize (blobAt c.mem c.primary_blob) + totalsize (blobAt c.mem c.overlay_blob) ≤ c.mb_size)
    (hlt : c.mb_size < 2 ^ 64) : ¬c.tooSmall := by
  obtain ⟨⟨hp, -⟩, ho, -⟩ := MergeCall.valid_ok hv
  have h1 := hp.size_ge
  have h2 := ho.size_ge
  have h3 := headerSize_ge (version (blobAt c.mem c.primary_blob))
  have h4 := headerSize_ge (version (blobAt c.mem c.overlay_blob))
  simp only [FDT_V1_SIZE] at h3 h4
  unfold MergeCall.tooSmall
  omega

/-- Validating a blob answers with a code of libfdt, unless there is none. -/
theorem checkForValidBlob_code {d : DTBDefs} {m : Mem} {blob bsize : Nat} (h : blob ≠ 0) :
    -FDT_ERR_MAX ≤ checkForValidBlob d m blob bsize := by
  unfold checkForValidBlob
  dsimp only
  rw [if_neg h]
  repeat' split
  all_goals decide

theorem MergeCall.valid_code {d : DTBDefs} {c : MergeCall} (hp : c.primary_blob ≠ 0) (ho : c.overlay_blob ≠ 0)
    (hm : c.merge_blob ≠ 0) : -FDT_ERR_MAX ≤ c.valid d := by
  unfold MergeCall.valid
  rw [if_neg hp, if_neg ho, if_neg hm]
  split
  · exact checkForValidBlob_code hp
  · exact checkForValidBlob_code ho

theorem MergeCall.Keeps.apply_answer {lib : Libfdt} {c : MergeCall} (h : c.Keeps lib) :
    -FDT_ERR_MAX ≤ (c.apply lib).1 := by
  unfold MergeCall.apply
  split
  · exact h.open_code
  · rename_i h0
    split
    · exact h.apply_code (not_not.mp h0)
    · split
      · exact (by decide : -FDT_ERR_MAX ≤ -FDT_ERR_BADMAGIC)
      · exact (by decide : -FDT_ERR_MAX ≤ FDT_ERR_QC_NOERROR)

/-- A merge whose buffer passes the checks of its size does not answer with their code. -/
theorem merge_not_small {d : DTBDefs} {lib : Libfdt} {c : MergeCall} (hlib : c.Keeps lib) (hp : c.primary_blob ≠ 0)
    (ho : c.overlay_blob ≠ 0) (hm : c.merge_blob ≠ 0) (hroom : c.valid d = FDT_ERR_QC_NOERROR → ¬c.tooSmall) :
    (fdtMergeOverlay d lib c).1 ≠ -d.FDT_ERR_QC_BUF2SMALL := by
  have hcode : -FDT_ERR_MAX ≤ (fdtMergeOverlay d lib c).1 := by
    unfold fdtMergeOverlay
    by_cases hv : c.valid d = FDT_ERR_QC_NOERROR
    · rw [if_neg (not_not.mpr hv), if_neg (hroom hv)]
      exact hlib.apply_answer
    · rw [if_pos hv]
      exact MergeCall.valid_code hp ho hm
  have := d.extends_std d.FDT_ERR_QC_BUF2SMALL (by simp)
  omega

theorem MergeCall.opened_in_place {lib : Libfdt} {c : MergeCall} (hin : c.primary_blob = c.merge_blob)
    (hmax : c.mb_size ≤ INT_MAX) :
    c.opened lib = lib.fdt_open_into c.mem c.merge_blob c.merge_blob (c.mb_size : Int) := by
  have hint : int32 (c.mb_size : Int) = c.mb_size := by
    simp only [INT_MAX] at hmax
    exact int32_of_lt (by omega) (by omega)
  unfold MergeCall.opened
  rw [hint, hin]

/-- A merge that succeeds made both calls, and both succeeded. -/
theorem merge_calls {d : DTBDefs} {lib : Libfdt} {c : MergeCall} (h : (fdtMergeOverlay d lib c).1 = 0) :
    (c.opened lib).1 = 0 ∧ (c.applied lib).1 = 0 ∧ (fdtMergeOverlay d lib c).2 = (c.applied lib).2 := by
  unfold fdtMergeOverlay at h ⊢
  split at h
  · exact absurd h ‹_›
  rename_i hv
  split at h
  · have := d.extends_std d.FDT_ERR_QC_BUF2SMALL (by simp)
    simp only [FDT_ERR_MAX] at this
    dsimp only at h
    omega
  rename_i hroom
  rw [if_neg hv, if_neg hroom]
  unfold MergeCall.apply at h ⊢
  split at h
  · exact absurd h ‹_›
  rename_i h1
  split at h
  · exact absurd h ‹_›
  rename_i h2
  split at h
  · exact absurd (show -FDT_ERR_BADMAGIC = 0 from h) (by decide)
  rename_i h3
  rw [if_neg h1, if_neg h2, if_neg h3]
  exact ⟨not_not.mp h1, not_not.mp h2, rfl⟩

/-- The overlay is still there when the primary tree was opened. -/
theorem MergeCall.Keeps.overlay {lib : Libfdt} {c : MergeCall} (h : c.Keeps lib) (h0 : (c.opened lib).1 = 0) {k : Nat}
    (hapart : Apart c.merge_blob c.mb_size c.overlay_blob k) :
    SameBytes (c.opened lib).2 c.overlay_blob c.mem c.overlay_blob k := by
  intro i hi
  refine h.open_frame h0 _ ?_
  unfold Apart at hapart
  omega

/-- A merge in place that succeeds: the primary tree is opened in its own
buffer and the overlay applied, the buffer's tree takes the whole buffer, and
nothing but the buffer and the overlay is written. -/
theorem merge_ok {d : DTBDefs} {lib : Libfdt} {c : MergeCall} (hlib : c.Keeps lib) {m' : Mem}
    (h : fdtMergeOverlay d lib c = (0, m')) (hin : c.primary_blob = c.merge_blob) (hmax : c.mb_size ≤ INT_MAX)
    (hapart : Apart c.merge_blob c.mb_size c.overlay_blob (totalsize (blobAt c.mem c.overlay_blob)))
    (hsize : 8 ≤ totalsize (blobAt c.mem c.overlay_blob)) :
    ∃ m1, lib.fdt_open_into c.mem c.merge_blob c.merge_blob (c.mb_size : Int) = (0, m1) ∧
      lib.fdt_overlay_apply m1 c.merge_blob c.overlay_blob = (0, m') ∧
      totalsize (blobAt m' c.merge_blob) = c.mb_size ∧
      ∀ a, (a < c.merge_blob ∨ c.merge_blob + c.mb_size ≤ a) →
        (a < c.overlay_blob ∨ c.overlay_blob + totalsize (blobAt c.mem c.overlay_blob) ≤ a) → m' a = c.mem a := by
  obtain ⟨h1, h2, hmem⟩ := merge_calls (d := d) (by rw [h])
  rw [h] at hmem
  dsimp only at hmem
  subst hmem
  have hover : totalsize (blobAt (c.opened lib).2 c.overlay_blob) = totalsize (blobAt c.mem c.overlay_blob) :=
    (hlib.overlay h1 hapart).totalsize hsize
  have hopen := hlib.open_totalsize h1
  refine ⟨(c.opened lib).2, ?_, ?_, (hlib.apply_totalsize h1 h2).trans hopen, fun a ha ho => ?_⟩
  · rw [← MergeCall.opened_in_place hin hmax, ← h1]
  · rw [← h2]
    rfl
  · rw [hlib.apply_frame h1 h2 a (by rw [hopen]; exact ha) (by rw [hover]; exact ho)]
    exact hlib.open_frame h1 a ha

end DTFramework.Get
