import DTFramework.Select.Rank

/-!
# What the candidate filter leaves

Whatever the filter decides, the entry stays the entry of its blob, and the
tuples it records hold 16-bit and 8-bit values.

Results:

* `isItDtbDtboCandidate_frame`, `validateOemVariant_frame`: the checks of a blob answer
  an entry of that blob;
* `getUintXPropList_lt`: what is recorded fits the width it is read with.
-/
namespace DTFramework.Select

open DTFramework.Fdt DTFramework.Extn DTFramework.Lib

/-- The recorded versions fit their types. -/
structure HandleEntry.Fits (e : HandleEntry) : Prop where
  chip_major : e.chipinfo.major < 0x10000
  chip_minor : e.chipinfo.minor < 0x10000
  plat_major : e.platforminfo.major < 0x100
  plat_minor : e.platforminfo.minor < 0x100

/-- `e'` is an entry of the same blob. -/
structure HandleEntry.Frame (e e' : HandleEntry) : Prop where
  node : e'.node = e.node
  size : e'.device_tree_blob_size = e.device_tree_blob_size
  fits : e.Fits → e'.Fits

theorem HandleEntry.Frame.refl (e : HandleEntry) : e.Frame e := ⟨rfl, rfl, id⟩

theorem HandleEntry.Frame.trans {e₁ e₂ e₃ : HandleEntry} (h : e₁.Frame e₂) (h' : e₂.Frame e₃) : e₁.Frame e₃ :=
  ⟨h'.node.trans h.node, h'.size.trans h.size, h'.fits ∘ h.fits⟩

theorem INVALID_CANDIDATE_frame (e : HandleEntry) : e.Frame (INVALID_CANDIDATE e) :=
  ⟨rfl, rfl, fun h => ⟨h.1, h.2, h.3, h.4⟩⟩
theorem VALID_CANDIDATE_frame (e : HandleEntry) : e.Frame (VALID_CANDIDATE e) :=
  ⟨rfl, rfl, fun h => ⟨h.1, h.2, h.3, h.4⟩⟩

theorem beValue_lt (f : Blob) (p n : Nat) : beValue f p n < 256 ^ n := by
  induction n with
  | zero => simp [beValue]
  | succ n ih =>
    have := (f.rd (p + n)).toNat_lt
    unfold beValue
    rw [Nat.pow_succ]
    omega

/-- The elements a getter writes fit their width. -/
theorem getUintXPropList_lt {d : DTBDefs} {f : Blob} {o : Int} {name : Str} {size i c : Nat} {t : DataType}
    {s : Int} {l : List Nat} (h : getUintXPropList d f o name size i c t = .ok (s, l)) :
    ∀ v ∈ l, v < 256 ^ t.width := by
  unfold getUintXPropList at h
  simp only at h
  repeat' split at h
  all_goals cases h
  all_goals simp only [List.not_mem_nil, false_implies, implies_true, List.mem_map, List.mem_range]
  rintro v ⟨j, -, rfl⟩
  exact beValue_lt _ _ _

theorem chipinfoEntries_mem {l : List Nat} {b : Nat} (h : ∀ v ∈ l, v < b) :
    ∀ c ∈ chipinfoEntries l, c.major < b ∧ c.minor < b := by
  fun_induction chipinfoEntries l with
  | case1 family id major minor rest ih =>
    intro c hc
    cases hc with
    | head => exact ⟨h _ (by simp), h _ (by simp)⟩
    | tail _ hc => exact ih (fun v hv => h v (by simp [hv])) c hc
  | case2 => simp

theorem platforminfoEntries_mem {l : List Nat} {b : Nat} (h : ∀ v ∈ l, v < b) :
    ∀ c ∈ platforminfoEntries l, c.major < b ∧ c.minor < b := by
  fun_induction platforminfoEntries l with
  | case1 type subtype major minor rest ih =>
    intro c hc
    cases hc with
    | head => exact ⟨h _ (by simp), h _ (by simp)⟩
    | tail _ hc => exact ih (fun v hv => h v (by simp [hv])) c hc
  | case2 => simp

theorem matchChipinfo_frame {inp : HandleInput} {l : List Nat} (e : HandleEntry) (h : ∀ v ∈ l, v < 0x10000) :
    e.Frame (matchChipinfo inp l e) := by
  unfold matchChipinfo
  split
  · exact .refl e
  · rename_i c hc
    have := chipinfoEntries_mem h c (List.mem_of_find?_eq_some hc)
    exact ⟨rfl, rfl, fun he => ⟨this.1, this.2, he.3, he.4⟩⟩

theorem matchPlatforminfo_frame {inp : HandleInput} {l : List Nat} (e : HandleEntry) (h : ∀ v ∈ l, v < 0x100) :
    e.Frame (matchPlatforminfo inp l e) := by
  unfold matchPlatforminfo
  split
  · exact .refl e
  · rename_i c hc
    have := platforminfoEntries_mem h c (List.mem_of_find?_eq_some hc)
    exact ⟨rfl, rfl, fun he => ⟨he.1, he.2, this.1, this.2⟩⟩

theorem isChipinfoFamilyMatch_frame (env : Env) (inp : HandleInput) (e : HandleEntry) :
    (isChipinfoFamilyMatch env inp e).Ensures fun r => e.Frame r.2 := by
  unfold isChipinfoFamilyMatch
  simp only [Traced.ensures_ite, Traced.ensures_pure, Traced.ensures_bind, ensures_malloc,
    ensures_ofExcept, ensures_free, INVALID_CANDIDATE_frame, implies_true, true_and]
  intro _ _ _ r hr _ _
  have hb : ∀ v ∈ r.2, v < 256 ^ 2 := getUintXPropList_lt hr
  exact (INVALID_CANDIDATE_frame e).trans (matchChipinfo_frame _ hb)

theorem identifyBlobType_frame (env : Env) (inp : HandleInput) (e : HandleEntry) :
    (identifyBlobTypeAndGetPlatforminfo env inp e).Ensures fun r => e.Frame r.2 := by
  have typed (t : BlobType) (e : HandleEntry) : e.Frame { e with device_tree_type := t } :=
    ⟨rfl, rfl, fun h => ⟨h.1, h.2, h.3, h.4⟩⟩
  unfold identifyBlobTypeAndGetPlatforminfo
  simp only [Traced.ensures_ite, Traced.ensures_pure, Traced.ensures_bind, ensures_malloc,
    ensures_ofExcept, ensures_free]
  have h0 := (INVALID_CANDIDATE_frame e).trans (typed .BASE_DTB _)
  have h1 := h0.trans (typed .SOC_DTBO _)
  have h2 := h1.trans (typed .PLATFORM_DTBO _)
  refine fun _ _ => ⟨fun _ => ⟨fun _ => h0.trans (VALID_CANDIDATE_frame _), fun _ => h0⟩,
    fun _ => ⟨fun _ => h1, fun _ => ⟨fun _ => h1.trans (VALID_CANDIDATE_frame _), fun _ =>
      ⟨fun _ => h1, fun _ => ⟨fun _ => h2, fun _ r hr => ⟨fun _ => h2, fun _ => ⟨fun _ => h2, fun _ => ?_⟩⟩⟩⟩⟩⟩⟩
  have hb : ∀ v ∈ r.2, v < 256 ^ 1 := getUintXPropList_lt hr
  exact h2.trans (matchPlatforminfo_frame _ hb)

theorem validateCompatibleString_frame (env : Env) (inp : HandleInput) (e : HandleEntry) :
    (validateCompatibleString env inp e).Ensures fun r => e.Frame r.2 := by
  have h0 := INVALID_CANDIDATE_frame e
  have h1 := h0.trans (VALID_CANDIDATE_frame _)
  unfold validateCompatibleString
  simp only
  split
  · exact Traced.ensures_pure.mpr h1
  · simp only [Traced.ensures_ite, Traced.ensures_pure, Traced.ensures_bind, ensures_malloc, ensures_free]
    refine ⟨fun _ => h0, fun _ => ⟨fun _ => h1, fun _ => ⟨fun _ => h0, fun _ => ⟨fun _ => h0, fun _ =>
      ⟨fun _ => h0, fun _ => ?_⟩⟩⟩⟩⟩
    split
    · exact h1
    · exact h0

theorem isCompatibleStringMatch_frame (env : Env) (inp : HandleInput) (e : HandleEntry) :
    (isCompatibleStringMatch env inp e).Ensures fun r => e.Frame r.2 := by
  unfold isCompatibleStringMatch
  rw [Traced.ensures_bind]
  refine (identifyBlobType_frame env inp _).mono fun r hr => ?_
  have h := (INVALID_CANDIDATE_frame e).trans hr
  rw [Traced.ensures_ite, Traced.ensures_pure]
  refine ⟨fun _ => h, fun _ => (validateCompatibleString_frame env inp _).mono fun r' hr' => ?_⟩
  exact (h.trans (INVALID_CANDIDATE_frame _)).trans hr'

theorem propertyLoop_frame (env : Env) (e : HandleEntry) (index : Nat) (ps : List PropertyEntry) :
    (propertyLoop env e index ps).Ensures fun r => e.Frame r.2 := by
  induction ps generalizing e index with
  | nil => exact Traced.ensures_pure.mpr (.refl e)
  | cons p ps ih =>
    have h0 := INVALID_CANDIDATE_frame e
    unfold propertyLoop
    simp only [Traced.ensures_ite, Traced.ensures_pure, Traced.ensures_bind, ensures_malloc,
      ensures_ofExcept, ensures_free]
    refine ⟨fun _ => h0, fun _ => ⟨fun _ => h0, fun _ => ⟨fun _ => h0, fun _ => ⟨fun _ => h0, fun _ r _ =>
      ⟨fun _ => h0, fun _ => ⟨fun _ => h0, fun _ => ⟨fun _ => ?_, fun _ => h0⟩⟩⟩⟩⟩⟩⟩
    exact (ih _ _).mono fun r hr => (h0.trans (VALID_CANDIDATE_frame _)).trans hr

theorem isPropertyListValid_frame (env : Env) (inp : HandleInput) (e : HandleEntry) :
    (isPropertyListValid env inp e).Ensures fun r => e.Frame r.2 := by
  unfold isPropertyListValid
  rw [Traced.ensures_ite]
  exact ⟨fun _ => Traced.ensures_pure.mpr (VALID_CANDIDATE_frame e), fun _ => propertyLoop_frame env e 0 _⟩

/-- The filter returns an entry of the blob it was given. -/
theorem isItDtbDtboCandidate_frame (env : Env) (inp : HandleInput) (e : HandleEntry) :
    (isItDtbDtboCandidate env inp e).Ensures fun r => e.Frame r.2 := by
  unfold isItDtbDtboCandidate
  rw [Traced.ensures_bind]
  refine (isChipinfoFamilyMatch_frame env inp e).mono fun r hr => ?_
  rw [Traced.ensures_ite, Traced.ensures_pure, Traced.ensures_bind]
  refine ⟨fun _ => hr, fun _ => (isCompatibleStringMatch_frame env inp _).mono fun r' hr' => ?_⟩
  rw [Traced.ensures_ite, Traced.ensures_pure]
  exact ⟨fun _ => hr.trans hr', fun _ =>
    (isPropertyListValid_frame env inp _).mono fun r'' hr'' => (hr.trans hr').trans hr''⟩

/-- So does the OEM variant check. -/
theorem validateOemVariant_frame (env : Env) (inp : HandleInput) (e : HandleEntry) :
    (validateOemVariant env inp e).Ensures fun r => e.Frame r.2 := by
  have h0 := INVALID_CANDIDATE_frame e
  have h1 := h0.trans (VALID_CANDIDATE_frame _)
  unfold validateOemVariant
  simp only [Traced.ensures_ite, Traced.ensures_pure, Traced.ensures_bind, ensures_malloc,
    ensures_ofExcept, ensures_free]
  exact ⟨fun _ => ⟨fun _ => h1, fun _ => h0⟩, fun _ => ⟨fun _ => h0, fun _ => ⟨fun _ => h0, fun _ r _ =>
    ⟨fun _ => h0, fun _ => ⟨fun _ => h1, fun _ => h0⟩⟩⟩⟩⟩

end DTFramework.Select
