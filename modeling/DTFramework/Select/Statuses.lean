import DTFramework.Select.Handle
import DTFramework.Fdt.PropArea

/-!
# Statuses of the printers

What libfdt answers is passed on by the printers as it is. For a blob at an aligned
address it is never `-FDT_ERR_ALIGNMENT`: offsets of tags are multiples of 4, and
everything else is another error.

Results:

* `printSelectedDtbDtbos_status`: printing the selected blobs never answers
  `-FDT_ERR_ALIGNMENT`.
-/
namespace DTFramework.Select

open DTFramework.Fdt DTFramework.Extn DTFramework.Lib

section
variable {f : Blob} {o : Int} {name : Str}

theorem nextTag_status (f : Blob) (o : Int) : (nextTag f o).2 ≠ -FDT_ERR_ALIGNMENT := by
  have halign (n : Nat) : int32 (tagAlign n) ≠ -FDT_ERR_ALIGNMENT := by
    unfold int32 tagAlign
    simp only [FDT_ERR_ALIGNMENT]
    omega
  unfold nextTag
  cases offsetPtr f o FDT_TAGSIZE with
  | none => exact (by decide : -FDT_ERR_TRUNCATED ≠ -FDT_ERR_ALIGNMENT)
  | some tagp =>
    simp only [orEnd]
    cases tagEnd f (be32 f tagp) (o + FDT_TAGSIZE) with
    | none => exact (by decide : -FDT_ERR_BADSTRUCTURE ≠ -FDT_ERR_ALIGNMENT)
    | some e =>
      simp only
      cases offsetPtr f o (e - o).toNat with
      | none => exact (by decide : -FDT_ERR_BADSTRUCTURE ≠ -FDT_ERR_ALIGNMENT)
      | some q => exact halign _

theorem nextprop_status (f : Blob) (o : Int) : nextprop f o ≠ -FDT_ERR_ALIGNMENT := by
  fun_induction nextprop f o with
  | case1 => decide
  | case2 o tag next ht hneg => exact nextTag_status f o
  | case3 o tag ht hprop =>
    have := nextTag_bounds ht
    simp only [FDT_ERR_ALIGNMENT]
    omega
  | case4 o tag next ht hprop hnop ih => exact ih
  | case5 => decide

theorem firstPropertyOffset_status (f : Blob) (o : Int) : firstPropertyOffset f o ≠ -FDT_ERR_ALIGNMENT := by
  have hcheck : checkNodeOffset f o ≠ -FDT_ERR_ALIGNMENT := by
    unfold checkNodeOffset
    split
    · decide
    · split
      · decide
      · exact nextTag_status f o
  unfold firstPropertyOffset
  split
  · exact hcheck
  · exact nextprop_status _ _

theorem checkPropOffset_status (f : Blob) (o : Int) : checkPropOffset f o ≠ -FDT_ERR_ALIGNMENT := by
  unfold checkPropOffset
  split
  · decide
  · split
    · decide
    · exact nextTag_status f o

theorem nextPropertyOffset_status (f : Blob) (o : Int) : nextPropertyOffset f o ≠ -FDT_ERR_ALIGNMENT := by
  unfold nextPropertyOffset
  split
  · exact checkPropOffset_status f o
  · exact nextprop_status _ _

theorem roProbe_status (h : f.addr % 8 = 0) : roProbe f ≠ -FDT_ERR_ALIGNMENT := by
  have hsize : probeSize f ≠ -FDT_ERR_ALIGNMENT := by
    unfold probeSize
    split
    · simp only [FDT_ERR_ALIGNMENT]
      omega
    · decide
  unfold roProbe
  rw [if_neg (not_not.mpr h)]
  repeat' split
  all_goals first
    | exact hsize
    | decide

theorem getString_status (h : f.addr % 8 = 0) {e : Int} (he : getString f o = .error e) : e ≠ -FDT_ERR_ALIGNMENT := by
  unfold getString at he
  simp only at he
  repeat' split at he
  all_goals cases he
  all_goals first
    | exact roProbe_status h
    | decide

/-- The length of a property that is there. -/
theorem getPropertyByOffset_len {len : Int} (h : getPropertyByOffset f o = .ok len) : 0 ≤ len := by
  unfold getPropertyByOffset at h
  split at h
  · cases h
  · rename_i hneg
    obtain ⟨-, -, ht, -⟩ := checkPropOffset_nonneg (Int.not_lt.mp hneg)
    have hlen : int32 (propLen f o) = len := Except.ok.inj h
    have hlt := propLen_lt ht
    generalize propLen f o = n at hlen hlt
    simp only [INT_MAX] at hlt
    rw [int32_of_lt (by omega) (by omega)] at hlen
    omega

theorem lenError_status (d : DTBDefs) {len : Int} (h : len ≠ -FDT_ERR_ALIGNMENT) :
    lenError d len ≠ -FDT_ERR_ALIGNMENT := by
  have hc := d.extends_std d.FDT_ERR_QC_FDTLIB_ERROR (by simp)
  unfold lenError
  split
  · exact h
  · simp only [FDT_ERR_MAX, FDT_ERR_ALIGNMENT] at hc ⊢
    omega

theorem propNameScan_status (d : DTBDefs) (h : f.addr % 8 = 0) (o : Int) :
    (propNameScan d f o).1 ≠ -FDT_ERR_ALIGNMENT := by
  have herror {o len : Int} (hget : getpropByOffset f o = .error len) : len ≠ -FDT_ERR_ALIGNMENT := by
    unfold getpropByOffset getPropertyByOffset at hget
    split at hget
    · rename_i hprop
      cases hget
      split at hprop
      · cases hprop
        exact checkPropOffset_status f o
      · cases hprop
    · split at hget
      · cases hget
        exact getString_status h ‹_›
      · cases hget
  have hok {o len : Int} {name : Str} (hget : getpropByOffset f o = .ok (name, len)) : 0 ≤ len := by
    unfold getpropByOffset at hget
    split at hget
    · cases hget
    · split at hget
      · cases hget
      · cases hget
        exact getPropertyByOffset_len ‹_›
  fun_induction propNameScan d f o with
  | case1 => decide
  | case2 o hneg len hget => exact lenError_status d (herror hget)
  | case3 o hneg name len hget hlen => exact absurd (hok hget) (Int.not_le.mpr hlen)
  | case4 => exact (by decide : FDT_ERR_QC_NOERROR ≠ -FDT_ERR_ALIGNMENT)
  | case5 o hneg name len hget hlen hnext rest ih => exact ih

theorem propertyScan_status (f : Blob) (name : Str) (o : Int) (h : o ≠ -FDT_ERR_ALIGNMENT) :
    (∀ e, propertyScan f name o = .error e → e ≠ -FDT_ERR_ALIGNMENT) ∧
      ∀ p, propertyScan f name o = .ok p → 0 ≤ int32 (propLen f p) := by
  fun_induction propertyScan f name o with
  | case1 o hneg => exact ⟨fun e he => by cases he; exact h, nofun⟩
  | case2 o hneg err hget => exact ⟨fun e he => by cases he; decide, nofun⟩
  | case3 o hneg len hget heq =>
    refine ⟨nofun, fun p hp => ?_⟩
    cases hp
    have hlen := getPropertyByOffset_len hget
    unfold getPropertyByOffset at hget
    split at hget
    · cases hget
    · have hint : int32 (propLen f o) = len := Except.ok.inj hget
      rw [hint]
      exact hlen
  | case4 o hneg len hget heq hnext => exact ⟨fun e he => by cases he; exact nextPropertyOffset_status f o, nofun⟩
  | case5 o hneg len hget heq hnext ih => exact ih (nextPropertyOffset_status f o)

theorem getPropSize_status (d : DTBDefs) (f : Blob) (o : Int) (name : Str) (n : Nat) :
    (getPropSize d f o name n).1 ≠ -FDT_ERR_ALIGNMENT := by
  have hscan := propertyScan_status f name _ (firstPropertyOffset_status f o)
  unfold getPropSize getprop getPropertyNamelen
  cases hs : propertyScan f name (firstPropertyOffset f o) with
  | error e => exact lenError_status d (hscan.1 e hs)
  | ok p =>
    simp only
    rw [if_neg (Int.not_lt.mpr (hscan.2 p hs))]
    exact (by decide : FDT_ERR_QC_NOERROR ≠ -FDT_ERR_ALIGNMENT)

theorem fillNames_status (d : DTBDefs) {status : Int} (h : status ≠ -FDT_ERR_ALIGNMENT) (names : List Str) :
    ∀ (size r : Int)
    (bytes : List UInt8), fillNames d size status names = .ok (r, bytes) → r ≠ -FDT_ERR_ALIGNMENT := by
  have hstd {c : Int} (hc : FDT_ERR_MAX < c) : c ≠ -FDT_ERR_ALIGNMENT ∧ -c ≠ -FDT_ERR_ALIGNMENT := by
    simp only [FDT_ERR_MAX, FDT_ERR_ALIGNMENT] at hc ⊢
    omega
  induction names with
  | nil =>
    intro size r bytes hf
    cases hf
    exact h
  | cons name names ih =>
    intro size r bytes hf
    rw [fillNames] at hf
    split at hf
    · cases hf
      exact (hstd (d.extends_std _ (by simp))).2
    · split at hf
      · cases hf
        exact (hstd (d.extends_std _ (by simp))).1
      · split at hf
        · cases hf
        · cases hrest : fillNames d (size - (name.length + 1)) status names with
          | error e => rw [hrest] at hf; cases hf
          | ok r' =>
            rw [hrest] at hf
            cases hf
            exact ih _ _ _ hrest

end

/-! ## The printers -/

theorem printStrings_status (f : Blob) (ptr pos n : Nat) : printStrings f ptr pos n ≠ -FDT_ERR_ALIGNMENT := by
  fun_induction printStrings f ptr pos n with
  | case1 => decide
  | case2 => decide
  | case3 => decide
  | case4 ptr pos n hn s hs hsafe ih => exact ih

theorem printElements_status (size n : Nat) {r : Int} (h : printElements size n = .ok r) : r ≠ -FDT_ERR_ALIGNMENT := by
  fun_induction printElements size n with
  | case1 => cases h; decide
  | case2 => cases h; decide
  | case3 => cases h
  | case4 n hn hsub hz ih => exact ih h

theorem printProperty_status (env : Env) (props : List PropertyEntry) (f : Blob) (o : Int) (site : Site) (name : Str) :
    (printProperty env props f o site name).Ensures fun r => r ≠ -FDT_ERR_ALIGNMENT := by
  have hvalue {r : Int} (h : printPropertyValue f o name (datatypeSize props name) = .ok r) :
      r ≠ -FDT_ERR_ALIGNMENT := by
    unfold printPropertyValue at h
    split at h
    · cases h
      decide
    · split at h
      · cases h
        exact printStrings_status _ _ _ _
      · exact printElements_status _ _ h
  unfold printProperty
  simp only [Traced.ensures_ite, Traced.ensures_pure, Traced.ensures_bind, ensures_ofExcept]
  refine ⟨fun _ => getPropSize_status _ _ _ _ _, fun _ => ⟨fun _ => by decide, fun _ _ _ status hst => ?_⟩⟩
  exact ⟨fun _ _ _ => hvalue hst, fun _ _ _ => (by decide : SUCCESS ≠ -FDT_ERR_ALIGNMENT)⟩

theorem printNames_status (env : Env) (props : List PropertyEntry) (phase : Phase) (f : Blob) (o : Int) (n : Nat) :
    ∀ (ptr index : Nat) (bytes : List UInt8),
      (printNames env props phase f o ptr index bytes n).Ensures fun r => r.1 ≠ -FDT_ERR_ALIGNMENT := by
  induction n using Nat.strongRecOn with
  | _ n ih =>
    intro ptr index bytes
    unfold printNames
    simp only [Traced.ensures_ite, Traced.ensures_pure, Traced.ensures_bind]
    refine ⟨fun _ => by decide, fun hn => ⟨fun _ => by decide, fun _ status hst => ⟨fun _ => ?_,
      fun _ => ⟨fun _ => by decide, fun _ => ?_⟩⟩⟩⟩
    · exact printProperty_status _ _ _ _ _ _ _ hst
    · exact ih _ (by omega) _ _ _

theorem printBoardId_status (env : Env) (props : List PropertyEntry) (phase : Phase) {p : Nat}
    (h : (blobAt env.mem p).addr % 8 = 0) : (printBoardId env props phase p).Ensures fun r =>
      r ≠ -FDT_ERR_ALIGNMENT := by
  unfold printBoardId
  simp only [Traced.ensures_ite, Traced.ensures_pure, Traced.ensures_bind, ensures_ofExcept]
  have hscan := propNameScan_status env.defs h
    (firstPropertyOffset (blobAt env.mem p) (pathOffset (blobAt env.mem p) ROOT_NODE))
  refine ⟨fun _ => by decide, fun _ => ⟨fun _ => by decide, fun _ => ⟨fun _ => hscan,
    fun _ names _ => ⟨fun _ => by decide, fun _ r hr => ?_⟩⟩⟩⟩
  refine ⟨fun _ _ _ => fillNames_status _ hscan _ _ _ _ hr, fun _ buffer _ =>
    ⟨?_, fun _ r2 hr2 => ⟨fun _ => ?_, fun _ _ _ _ _ => ?_⟩⟩⟩
  · exact fun _ a ha => nomatch ha
  · exact printNames_status _ _ _ _ _ _ _ _ _ _ hr2
  · exact printNames_status _ _ _ _ _ _ _ _ _ _ hr2

/-- The selected blobs stand at aligned addresses. -/
theorem printSelectedDtbDtbos_status (env : Env) (inp : HandleInput) {h : HandleData}
    (haligned : ∀ type, (blobAt env.mem (h.blob type).1).addr % 8 = 0) :
    (printSelectedDtbDtbos env inp h).Ensures fun r => r ≠ -FDT_ERR_ALIGNMENT := by
  have hprint (type : BlobType) (ptr size : Nat) (hptr : (blobAt env.mem ptr).addr % 8 = 0) {status : Int}
      (hst : status ≠ -FDT_ERR_ALIGNMENT) : (printSelected env inp type ptr size status).Ensures fun r =>
        r ≠ -FDT_ERR_ALIGNMENT := by
    unfold printSelected
    rw [Traced.ensures_ite]
    exact ⟨fun _ => printBoardId_status _ _ _ hptr, fun _ => Traced.ensures_pure.mpr hst⟩
  unfold printSelectedDtbDtbos
  simp only [Traced.ensures_bind, Traced.ensures_ite, Traced.ensures_pure]
  intro r hr
  have h1 := hprint .BASE_DTB _ _ (haligned .BASE_DTB) (by decide) r hr
  refine ⟨fun _ => h1, fun _ r2 hr2 => ?_⟩
  have h2 := hprint .SOC_DTBO _ _ (haligned .SOC_DTBO) h1 r2 hr2
  exact ⟨fun _ => h2, fun _ => hprint .PLATFORM_DTBO _ _ (haligned .PLATFORM_DTBO) h2⟩

end DTFramework.Select
