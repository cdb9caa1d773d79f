import Mathlib.Data.List.TakeWhile
import DTFramework.Extn.Value
import DTFramework.Select.Image

/-!
# What the candidate filter accepts

The filter in terms of the values of the board-id node: four conditions, each
on the bytes of one property, instead of four checks that set and reset one
flag. `Candidate` is their conjunction; `candidate_filter_exact` says that on a
well-formed node the filter succeeds and accepts exactly the candidates.

Results:

* `compatibleScan_exact`, `getPropertyValues_exact`, `propertyLoop_exact`: the checks of
  the filter, each on the bytes of its property;
* `candidate_filter_exact`: on a well-formed node the filter accepts the candidates;
* `candidate_filter_version3`: why the version of libfdt is in the conditions.
-/
namespace DTFramework.Select

open DTFramework.Fdt DTFramework.Extn DTFramework.Lib

/-! ## The conditions -/

/-- The strings of a list of strings. -/
def nulStrings (v : List UInt8) : List Str :=
  if _h : v = [] then []
  else bufferString v :: nulStrings (v.drop ((bufferString v).length + 1))
termination_by v.length
decreasing_by
  have := List.length_pos_iff.mpr _h
  simp only [List.length_drop]
  omega

/-- Some tuple of chip-info has the family. -/
def ChipinfoFits (f : Blob) (o : Int) (inp : HandleInput) : Prop :=
  ∃ v, propertyBytes f o CHIPINFO_PROP_NAME = some v ∧ v.length % SINGLE_CHIPINFO_SIZE_IN_BYTES = 0 ∧
    ∃ c ∈ chipinfoEntries (elements 2 v), c.family = inp.prop.chip_family

/-- The type of a blob: not an overlay, an overlay without board-info, an
overlay with it. -/
def blobType (f : Blob) (o : Int) : BlobType :=
  match propertyBytes f o IS_OVERLAY_PROP_NAME, propertyBytes f o PLATFORMINFO_PROP_NAME with
  | none, _ => .BASE_DTB
  | some _, none => .SOC_DTBO
  | some _, some _ => .PLATFORM_DTBO

/-- Some tuple of the board-info of a platform overlay has the platform type. -/
def PlatforminfoFits (f : Blob) (o : Int) (inp : HandleInput) : Prop :=
  propertyBytes f o IS_OVERLAY_PROP_NAME = none ∨ propertyBytes f o PLATFORMINFO_PROP_NAME = none ∨
    ∃ v, propertyBytes f o PLATFORMINFO_PROP_NAME = some v ∧ v.length % SINGLE_PLATFORMINFO_SIZE_IN_BYTES = 0 ∧
      ∃ p ∈ platforminfoEntries (elements 1 v), p.type = inp.prop.platform_type

/-- The client has no name for the type, or the blob's processor name fits it. -/
def NameFits (f : Blob) (o : Int) (inp : HandleInput) (type : BlobType) : Prop :=
  match compatibleStringStartsWith inp type with
  | none => True
  | some start => ∃ v, propertyBytes f o COMPATIBLE_PROP_NAME = some v ∧ v ≠ [] ∧
    (start = [] ∨ ∃ s ∈ nulStrings (terminated v), start <+: s)

/-- libfdt reads lists of strings from version 16 on. -/
def NameReadable (f : Blob) (inp : HandleInput) (type : BlobType) : Prop :=
  ∀ start, compatibleStringStartsWith inp type = some start → start = [] ∨ 0x10 ≤ version f

/-- A property of the client's list has the client's value. -/
def PropertyFits (f : Blob) (o : Int) (p : PropertyEntry) : Prop :=
  ∃ v, propertyBytes f o p.prop_name = some v ∧ v ≠ [] ∧ p.prop_size_bytes ∈ [1, 2, 4, 8] ∧
    v.length % p.prop_size_bytes = 0 ∧ p.value ∈ elements p.prop_size_bytes v

/-- The node of a candidate. -/
structure Candidate (f : Blob) (o : Int) (inp : HandleInput) : Prop where
  chipinfo : ChipinfoFits f o inp
  platforminfo : PlatforminfoFits f o inp
  name : NameFits f o inp (blobType f o)
  properties : ∀ p ∈ inp.prop_list, PropertyFits f o p

/-! ## Chip family -/

section
variable {env : Env} {inp : HandleInput} {e : HandleEntry}

theorem matchChipinfo_status (l : List Nat) : (matchChipinfo inp l (INVALID_CANDIDATE e)).candidacy_status = true ↔
    ∃ c ∈ chipinfoEntries l, c.family = inp.prop.chip_family := by
  unfold matchChipinfo
  cases h : (chipinfoEntries l).find? (·.family == inp.prop.chip_family) with
  | none =>
    rw [List.find?_eq_none] at h
    exact ⟨fun hc => (nomatch hc), fun ⟨c, hc, hf⟩ => absurd (beq_iff_eq.mpr hf) (h c hc)⟩
  | some c =>
    exact ⟨fun _ => ⟨c, List.mem_of_find?_eq_some h, by simpa using List.find?_some h⟩, fun _ => rfl⟩

theorem matchPlatforminfo_status (l : List Nat) {e : HandleEntry} (he : e.candidacy_status = false) :
    (matchPlatforminfo inp l e).candidacy_status = true ↔
      ∃ p ∈ platforminfoEntries l, p.type = inp.prop.platform_type := by
  unfold matchPlatforminfo
  cases h : (platforminfoEntries l).find? (·.type == inp.prop.platform_type) with
  | none =>
    rw [List.find?_eq_none] at h
    exact ⟨fun hc => absurd (he.symm.trans hc) (by decide), fun ⟨c, hc, hf⟩ => absurd (beq_iff_eq.mpr hf) (h c hc)⟩
  | some c =>
    exact ⟨fun _ => ⟨c, List.mem_of_find?_eq_some h, by simpa using List.find?_some h⟩, fun _ => rfl⟩

/-- A value is read into a block that ends below the top of the address space. -/
theorem alloc_value (hn : env.NoFail) (hs : env.Sane) {f : Blob} {o : Int} {name : Str} {v : List UInt8}
    (hw : NodeOk f o) (hv : propertyBytes f o name = some v) (site : Site) :
    env.alloc site v.length ≠ 0 ∧ env.alloc site v.length + v.length < 2 ^ 64 := by
  have hlt := propertyBytes_length hw hv
  simp only [INT_MAX] at hlt
  have hptr := hn site v.length (by omega)
  exact ⟨hptr, hs site v.length (by omega) hptr⟩

theorem isChipinfoFamilyMatch_exact (hn : env.NoFail) (hs : env.Sane) (hw : NodeOk (e.fdt env) e.node.offset) :
    ∃ e', (isChipinfoFamilyMatch env inp e).val = .ok (SUCCESS, e') ∧ e'.node = e.node ∧
      (e'.candidacy_status = true ↔ ChipinfoFits (e.fdt env) e.node.offset inp) := by
  unfold isChipinfoFamilyMatch ChipinfoFits
  dsimp only
  cases hv : propertyBytes (e.fdt env) e.node.offset CHIPINFO_PROP_NAME with
  | none =>
    have hsize : getPropSize env.defs (e.fdt env) (INVALID_CANDIDATE e).node.offset CHIPINFO_PROP_NAME 0 =
        (-FDT_ERR_NOTFOUND, 0) := getPropSize_none hw hv
    rw [hsize]
    exact ⟨INVALID_CANDIDATE e, rfl, rfl, by simp⟩
  | some v =>
    obtain ⟨hptr, hend⟩ := alloc_value hn hs hw hv (.chipinfo (INVALID_CANDIDATE e).node.blob)
    have hsize : getPropSize env.defs (e.fdt env) (INVALID_CANDIDATE e).node.offset CHIPINFO_PROP_NAME 0 =
        (FDT_ERR_QC_NOERROR, v.length) := getPropSize_some hw hv
    have hget : getUint16PropList env.defs (e.fdt env) (INVALID_CANDIDATE e).node.offset CHIPINFO_PROP_NAME
        v.length = .ok (FDT_ERR_QC_NOERROR, elements 2 v) :=
      getUintXPropList_some hw hv (t := .uint16) (by decide)
    rw [hsize]
    dsimp only
    by_cases h8 : v.length % SINGLE_CHIPINFO_SIZE_IN_BYTES = 0
    · refine ⟨matchChipinfo inp (elements 2 v) (INVALID_CANDIDATE e), ?_, ?_, ?_⟩
      · rw [if_neg (by decide), if_neg (not_not.mpr h8), Traced.val_bind, val_malloc, hget]
        simp only [if_neg hptr, Traced.val_bind, val_ofExcept, isSafeToAddPointer_of_lt hend]
        rfl
      · unfold matchChipinfo
        split <;> rfl
      · rw [matchChipinfo_status]
        simp [h8]
    · refine ⟨INVALID_CANDIDATE e, ?_, rfl, ?_⟩
      · rw [if_neg (by decide), if_pos h8]
        rfl
      · simp [h8]

/-! ## Type of the blob -/

theorem identifyBlobType_exact (hn : env.NoFail) (hs : env.Sane) (hw : NodeOk (e.fdt env) e.node.offset)
    (ho : ∀ v, propertyBytes (e.fdt env) e.node.offset IS_OVERLAY_PROP_NAME = some v → v = []) :
    ∃ e', (identifyBlobTypeAndGetPlatforminfo env inp e).val = .ok (SUCCESS, e') ∧ e'.node = e.node ∧
      (e'.candidacy_status = true ↔ PlatforminfoFits (e.fdt env) e.node.offset inp) ∧
      (e'.candidacy_status = true → e'.device_tree_type = blobType (e.fdt env) e.node.offset) := by
  unfold identifyBlobTypeAndGetPlatforminfo PlatforminfoFits blobType
  dsimp only
  cases hover : propertyBytes (e.fdt env) e.node.offset IS_OVERLAY_PROP_NAME with
  | none =>
    have hbool : getBoolProp env.defs (e.fdt env) (INVALID_CANDIDATE e).node.offset IS_OVERLAY_PROP_NAME =
        .ok (-FDT_ERR_NOTFOUND) := getBoolProp_none hw hover
    rw [hbool]
    exact ⟨_, rfl, rfl, by simp, fun _ => rfl⟩
  | some w =>
    have hw0 := ho w hover
    subst hw0
    have hbool : getBoolProp env.defs (e.fdt env) (INVALID_CANDIDATE e).node.offset IS_OVERLAY_PROP_NAME =
        .ok FDT_ERR_QC_NOERROR := getBoolProp_nil hw hover
    rw [hbool, Traced.val_bind, val_ofExcept]
    cases hv : propertyBytes (e.fdt env) e.node.offset PLATFORMINFO_PROP_NAME with
    | none =>
      have hsize : getPropSize env.defs (e.fdt env) (INVALID_CANDIDATE e).node.offset PLATFORMINFO_PROP_NAME 0 =
          (-FDT_ERR_NOTFOUND, 0) := getPropSize_none hw hv
      rw [hsize]
      exact ⟨_, rfl, rfl, by simp, fun _ => rfl⟩
    | some v =>
      obtain ⟨hptr, hend⟩ := alloc_value hn hs hw hv (.platforminfo (INVALID_CANDIDATE e).node.blob)
      have hsize : getPropSize env.defs (e.fdt env) (INVALID_CANDIDATE e).node.offset PLATFORMINFO_PROP_NAME 0 =
          (FDT_ERR_QC_NOERROR, v.length) := getPropSize_some hw hv
      have hget : getUint8PropList env.defs (e.fdt env) (INVALID_CANDIDATE e).node.offset PLATFORMINFO_PROP_NAME
          v.length = .ok (FDT_ERR_QC_NOERROR, elements 1 v) :=
        getUintXPropList_some hw hv (t := .uint8) (by decide)
      rw [hsize]
      dsimp only
      rw [if_neg (by decide), if_neg (by decide), if_neg (by decide)]
      by_cases h4 : v.length % SINGLE_PLATFORMINFO_SIZE_IN_BYTES = 0
      · rw [if_neg (not_not.mpr h4), Traced.val_bind, val_malloc]
        simp only [if_neg hptr, Traced.val_bind, hget, val_ofExcept, isSafeToAddPointer_of_lt hend]
        refine ⟨_, rfl, ?_, ?_, fun _ => ?_⟩
        · unfold matchPlatforminfo
          split <;> rfl
        · rw [matchPlatforminfo_status _ rfl]
          simp [h4]
        · unfold matchPlatforminfo
          split <;> rfl
      · rw [if_pos h4]
        exact ⟨_, rfl, rfl, by simp [h4, INVALID_CANDIDATE], fun hc => (nomatch hc)⟩

/-! ## Processor name -/

theorem bufferString_lt {v : List UInt8} (h : v.getLast? = some 0) : (bufferString v).length < v.length := by
  unfold bufferString
  have hmem : (0 : UInt8) ∈ v := List.mem_of_getLast? h
  have hle := (List.takeWhile_sublist (· ≠ (0 : UInt8)) (l := v)).length_le
  rcases Nat.lt_or_eq_of_le hle with hlt | heq
  · exact hlt
  · have hall : v.takeWhile (· ≠ 0) = v := (List.takeWhile_sublist _).eq_of_length heq
    rw [← hall] at hmem
    simpa using List.mem_takeWhile_imp hmem

/-- The scan over a list of strings whose last byte is NUL. -/
theorem compatibleScan_exact (start : Str) (n : Nat) : ∀ (v : List UInt8) (ptr : Nat), v.length = n →
    (v ≠ [] → v.getLast? = some 0) → ptr + v.length < 2 ^ 64 →
    compatibleScan start ptr v v.length = (SUCCESS, (nulStrings v).any fun s => start.isPrefixOf s) := by
  induction n using Nat.strongRecOn with
  | _ n ih =>
    intro v ptr hn hlast hend
    rw [compatibleScan, nulStrings]
    by_cases h0 : v = []
    · subst h0
      rfl
    · have hlt := bufferString_lt (hlast h0)
      have hpos := List.length_pos_iff.mpr h0
      rw [if_neg (by omega), dif_neg h0, List.any_cons]
      by_cases hp : start.isPrefixOf (bufferString v) = true
      · simp only [hp, if_true, Bool.true_or]
      · have hsafe := isSafeToAddPointer_of_lt (p := ptr) (n := (bufferString v).length + 1) (by omega)
        have hsub : isSafeToSubtractUint32 v.length ((bufferString v).length + 1) = true := by
          unfold isSafeToSubtractUint32
          simp only [Bool.not_eq_true', decide_eq_false_iff_not]
          omega
        have hdrop : (v.drop ((bufferString v).length + 1)).length = v.length - ((bufferString v).length + 1) :=
          List.length_drop
        have := ih _ (by omega) (v.drop ((bufferString v).length + 1)) (ptr + ((bufferString v).length + 1)) rfl
          (fun hne => ?_) (by omega)
        · rw [hdrop] at this
          simp only [hp, hsafe, hsub, Bool.not_true, Bool.false_eq_true, if_false, Bool.false_or]
          exact this
        · rw [List.getLast?_drop, if_neg (fun hle => hne (List.drop_eq_nil_of_le hle))]
          exact hlast h0

theorem terminated_last {v : List UInt8} (h : terminated v ≠ []) : (terminated v).getLast? = some 0 := by
  unfold terminated at h ⊢
  cases hl : v.getLast? with
  | none =>
    rw [List.getLast?_eq_none_iff] at hl
    subst hl
    exact absurd rfl h
  | some b => simp

theorem terminated_length (v : List UInt8) : (terminated v).length = v.length := by
  unfold terminated
  cases hl : v.getLast? with
  | none =>
    rw [List.getLast?_eq_none_iff] at hl
    subst hl
    rfl
  | some b =>
    have hne : v ≠ [] := fun h0 => by rw [h0] at hl; cases hl
    have := List.length_pos_iff.mpr hne
    simp
    omega

theorem validateCompatibleString_exact (hn : env.NoFail) (hs : env.Sane)
    (hw : NodeOk (e.fdt env) e.node.offset) :
    ∃ e', (validateCompatibleString env inp e).val = .ok (SUCCESS, e') ∧ e'.node = e.node ∧
      (e'.candidacy_status = true ↔ NameFits (e.fdt env) e.node.offset inp e.device_tree_type ∧
        NameReadable (e.fdt env) inp e.device_tree_type) := by
  unfold validateCompatibleString NameFits NameReadable
  dsimp only
  have htype : compatibleStringStartsWith inp (INVALID_CANDIDATE e).device_tree_type =
      compatibleStringStartsWith inp e.device_tree_type := rfl
  rw [htype]
  cases compatibleStringStartsWith inp e.device_tree_type with
  | none => exact ⟨_, rfl, rfl, by simp⟩
  | some start =>
    simp only
    cases hv : propertyBytes (e.fdt env) e.node.offset COMPATIBLE_PROP_NAME with
    | none =>
      have hsize : getPropSize env.defs (e.fdt env) (INVALID_CANDIDATE e).node.offset COMPATIBLE_PROP_NAME 0 =
          (-FDT_ERR_NOTFOUND, 0) := getPropSize_none hw hv
      rw [hsize]
      exact ⟨_, rfl, rfl, by simp⟩
    | some v =>
      obtain ⟨hptr, hend⟩ := alloc_value hn hs hw hv (.compatible (INVALID_CANDIDATE e).node.blob)
      have hsize : getPropSize env.defs (e.fdt env) (INVALID_CANDIDATE e).node.offset COMPATIBLE_PROP_NAME 0 =
          (FDT_ERR_QC_NOERROR, v.length) := getPropSize_some hw hv
      have hget : getStringPropList env.defs (e.fdt env) (INVALID_CANDIDATE e).node.offset COMPATIBLE_PROP_NAME
          v.length = if version (e.fdt env) < 0x10 then (-FDT_ERR_BADVERSION, [])
            else (FDT_ERR_QC_NOERROR, terminated v) := getStringPropList_some hw hv
      rw [hsize]
      dsimp only
      by_cases h0 : v = []
      · subst h0
        exact ⟨_, rfl, rfl, by simp⟩
      · have hpos := List.length_pos_iff.mpr h0
        rw [if_neg (by simp [h0])]
        by_cases hst : start = []
        · subst hst
          exact ⟨_, rfl, rfl, by simp [h0]⟩
        · have hlen : ¬start.length = 0 := fun hc => hst (List.eq_nil_of_length_eq_zero hc)
          rw [if_neg hlen, Traced.val_bind, val_malloc]
          simp only [if_neg hptr]
          rw [hget]
          by_cases hver : version (e.fdt env) < 0x10
          · rw [if_pos hver]
            refine ⟨_, rfl, rfl, ?_⟩
            have : ¬16 ≤ version (e.fdt env) := by omega
            simp [hst, this]
          · rw [if_neg hver]
            have hscan := compatibleScan_exact start _ (terminated v)
              (env.alloc (.compatible (INVALID_CANDIDATE e).node.blob) v.length) rfl terminated_last
              (by rw [terminated_length]; exact hend)
            rw [terminated_length] at hscan
            dsimp only
            rw [if_neg (by decide), hscan]
            refine ⟨_, rfl, ?_, ?_⟩
            · dsimp only
              split <;> rfl
            · have hver : 16 ≤ version (e.fdt env) := by omega
              have hany : ((nulStrings (terminated v)).any fun s => start.isPrefixOf s) = true ↔
                  ∃ s ∈ nulStrings (terminated v), start <+: s := by simp
              dsimp only
              by_cases ha : ((nulStrings (terminated v)).any fun s => start.isPrefixOf s) = true
              · rw [if_pos ha]
                exact ⟨fun _ => ⟨⟨v, rfl, h0, Or.inr (hany.mp ha)⟩, fun _ _ => Or.inr hver⟩, fun _ => rfl⟩
              · rw [if_neg ha]
                refine ⟨fun hc => (nomatch hc), fun ⟨⟨w, hw, _, hor⟩, _⟩ => ?_⟩
                cases hw
                exact absurd (hany.mpr (hor.resolve_left hst)) ha

theorem isCompatibleStringMatch_exact (hn : env.NoFail) (hs : env.Sane) (hw : NodeOk (e.fdt env) e.node.offset)
    (ho : ∀ v, propertyBytes (e.fdt env) e.node.offset IS_OVERLAY_PROP_NAME = some v → v = []) :
    ∃ e', (isCompatibleStringMatch env inp e).val = .ok (SUCCESS, e') ∧ e'.node = e.node ∧
      (e'.candidacy_status = true ↔ PlatforminfoFits (e.fdt env) e.node.offset inp ∧
        NameFits (e.fdt env) e.node.offset inp (blobType (e.fdt env) e.node.offset) ∧
        NameReadable (e.fdt env) inp (blobType (e.fdt env) e.node.offset)) := by
  obtain ⟨e1, h1, hnode, hfit, htype⟩ := identifyBlobType_exact (e := INVALID_CANDIDATE e) hn hs hw ho
  unfold isCompatibleStringMatch
  rw [Traced.val_bind, h1]
  dsimp only
  by_cases hc : e1.candidacy_status = true
  · have hw1 : NodeOk ((INVALID_CANDIDATE e1).fdt env) (INVALID_CANDIDATE e1).node.offset := by
      unfold HandleEntry.fdt
      rw [INVALID_CANDIDATE_node, hnode]
      exact hw
    obtain ⟨e2, h2, hnode2, hfit2⟩ := @validateCompatibleString_exact env inp (INVALID_CANDIDATE e1) hn hs hw1
    rw [if_neg (by simp [hc])]
    refine ⟨e2, h2, hnode2.trans hnode, hfit2.trans ?_⟩
    have ht : (INVALID_CANDIDATE e1).device_tree_type = _ := htype hc
    unfold HandleEntry.fdt at ht ⊢
    rw [ht, INVALID_CANDIDATE_node, hnode]
    exact ⟨fun h => ⟨hfit.mp hc, h⟩, fun h => h.2⟩
  · rw [if_pos (Or.inr (by simpa using hc))]
    exact ⟨e1, rfl, hnode, ⟨fun h => absurd h hc, fun h => absurd (hfit.mpr h.1) hc⟩⟩

/-! ## The client's properties -/

/-- The getter of a supported size reads the elements of that size. -/
theorem getPropertyValues_exact {p : PropertyEntry} {v : List UInt8} (hw : NodeOk (e.fdt env) e.node.offset)
    (hv : propertyBytes (e.fdt env) e.node.offset p.prop_name = some v) :
    getPropertyValues env e p v.length = if p.prop_size_bytes ∈ [1, 2, 4, 8]
      then .ok (FDT_ERR_QC_NOERROR, elements p.prop_size_bytes v) else .ok (-1, []) := by
  unfold getPropertyValues
  dsimp only
  split
  · rename_i h
    rw [h]
    exact getUintXPropList_some hw hv (t := .uint8) (by decide)
  · rename_i h
    rw [h]
    exact getUintXPropList_some hw hv (t := .uint16) (by decide)
  · rename_i h
    rw [h]
    exact getUintXPropList_some hw hv (t := .uint32) (by decide)
  · rename_i h
    rw [h]
    exact getUintXPropList_some hw hv (t := .uint64) (by decide)
  · rename_i h1 h2 h4 h8
    rw [if_neg]
    simp only [List.mem_cons, List.not_mem_nil, or_false, not_or]
    exact ⟨h1, h2, h4, h8⟩

/-- The loop rejects at the first property that does not fit. -/
theorem propertyLoop_exact (hn : env.NoFail) (hs : env.Sane) (ps : List PropertyEntry) :
    ∀ (e : HandleEntry) (index : Nat),
    NodeOk (e.fdt env) e.node.offset →
    ∃ e', (propertyLoop env e index ps).val = .ok (SUCCESS, e') ∧ e'.node = e.node ∧
      (e'.candidacy_status = true ↔ (ps = [] → e.candidacy_status = true) ∧
        ∀ p ∈ ps, PropertyFits (e.fdt env) e.node.offset p) := by
  induction ps with
  | nil => exact fun e index _ => ⟨e, rfl, rfl, by simp⟩
  | cons p ps ih =>
    intro e index hw
    have reject (h : ¬PropertyFits (e.fdt env) e.node.offset p) :
        (INVALID_CANDIDATE e).candidacy_status = true ↔ (p :: ps = [] → e.candidacy_status = true) ∧
          ∀ q ∈ p :: ps, PropertyFits (e.fdt env) e.node.offset q :=
      ⟨fun hc => (nomatch hc), fun hc => absurd (hc.2 p (.head ps)) h⟩
    rw [propertyLoop]
    dsimp only
    cases hv : propertyBytes (e.fdt env) e.node.offset p.prop_name with
    | none =>
      have hsize : getPropSize env.defs ((INVALID_CANDIDATE e).fdt env) (INVALID_CANDIDATE e).node.offset
          p.prop_name 0 = (-FDT_ERR_NOTFOUND, 0) := getPropSize_none hw hv
      rw [hsize]
      refine ⟨_, rfl, rfl, reject fun ⟨v, hv', _⟩ => ?_⟩
      rw [hv] at hv'
      cases hv'
    | some v =>
      obtain ⟨hptr, hend⟩ := alloc_value hn hs hw hv (.property (INVALID_CANDIDATE e).node.blob index)
      have hsize : getPropSize env.defs ((INVALID_CANDIDATE e).fdt env) (INVALID_CANDIDATE e).node.offset
          p.prop_name 0 = (FDT_ERR_QC_NOERROR, v.length) := getPropSize_some hw hv
      have hget : getPropertyValues env (INVALID_CANDIDATE e) p v.length = if p.prop_size_bytes ∈ [1, 2, 4, 8]
          then .ok (FDT_ERR_QC_NOERROR, elements p.prop_size_bytes v) else .ok (-1, []) :=
        getPropertyValues_exact hw hv
      rw [hsize]
      dsimp only
      rw [if_neg (by decide)]
      by_cases h0 : v.length = 0
      · rw [if_pos h0]
        refine ⟨_, rfl, rfl, reject fun ⟨w, hv', hne, _⟩ => ?_⟩
        rw [hv] at hv'
        cases hv'
        exact hne (List.eq_nil_of_length_eq_zero h0)
      · rw [if_neg h0]
        by_cases hm : p.prop_size_bytes = 0 ∨ v.length % p.prop_size_bytes ≠ 0
        · rw [if_pos hm]
          refine ⟨_, rfl, rfl, reject fun ⟨w, hv', _, hsz, hmod, _⟩ => ?_⟩
          rw [hv] at hv'
          cases hv'
          rcases hm with hm | hm
          · rw [hm] at hsz
            simp at hsz
          · exact hm hmod
        · rw [if_neg hm, Traced.val_bind, val_malloc]
          rw [not_or, not_not] at hm
          simp only [if_neg hptr]
          rw [hget]
          by_cases hsz : p.prop_size_bytes ∈ [1, 2, 4, 8]
          · rw [if_pos hsz]
            have hlen : (elements p.prop_size_bytes v).length = v.length / p.prop_size_bytes := by
              simp [elements]
            simp only [Traced.val_bind, val_ofExcept, isSafeToAddPointer_of_lt hend]
            have htake : (elements p.prop_size_bytes v).take (v.length / p.prop_size_bytes) =
                elements p.prop_size_bytes v := List.take_of_length_le (Nat.le_of_eq hlen)
            rw [if_neg (by decide), if_neg (by decide), Traced.val_bind, val_free, htake]
            dsimp only
            by_cases hmem : (elements p.prop_size_bytes v).contains p.value = true
            · have hfit : PropertyFits (e.fdt env) e.node.offset p :=
                ⟨v, hv, fun hc => h0 (by rw [hc]; rfl), hsz, hm.2, by simpa using hmem⟩
              obtain ⟨e', h1, h2, h3⟩ := ih (VALID_CANDIDATE (INVALID_CANDIDATE e)) (index + 1) hw
              rw [if_pos hmem]
              refine ⟨e', h1, h2, h3.trans ⟨fun h => ⟨fun hc => (nomatch hc), fun q hq => ?_⟩,
                fun h => ⟨fun _ => rfl, fun q hq => h.2 q (List.mem_cons_of_mem p hq)⟩⟩⟩
              rcases List.mem_cons.mp hq with rfl | hq
              · exact hfit
              · exact h.2 q hq
            · rw [if_neg hmem]
              refine ⟨_, rfl, rfl, reject fun ⟨w, hv', _, _, _, hval⟩ => ?_⟩
              rw [hv] at hv'
              cases hv'
              exact hmem (by simpa using hval)
          · rw [if_neg hsz]
            refine ⟨_, rfl, rfl, reject fun ⟨w, _, _, hsz', _⟩ => hsz hsz'⟩

theorem isPropertyListValid_exact (hn : env.NoFail) (hs : env.Sane) (hw : NodeOk (e.fdt env) e.node.offset) :
    ∃ e', (isPropertyListValid env inp e).val = .ok (SUCCESS, e') ∧ e'.node = e.node ∧
      (e'.candidacy_status = true ↔ ∀ p ∈ inp.prop_list, PropertyFits (e.fdt env) e.node.offset p) := by
  unfold isPropertyListValid
  by_cases hl : inp.prop_list = []
  · rw [if_pos hl]
    exact ⟨_, rfl, rfl, by simp [hl]⟩
  · rw [if_neg hl]
    obtain ⟨e', h1, h2, h3⟩ := propertyLoop_exact hn hs inp.prop_list e 0 hw
    exact ⟨e', h1, h2, h3.trans ⟨fun h => h.2, fun h => ⟨fun hc => absurd hc hl, h⟩⟩⟩

end

/-- On a well-formed board-id node the filter succeeds, and accepts the blob
exactly when it is a candidate. -/
theorem candidate_filter_exact (env : Env) (inp : HandleInput) (e : HandleEntry) (hn : env.NoFail) (hs : env.Sane)
    (hw : NodeOk (blobAt env.mem e.node.blob) e.node.offset)
    (ho : ∀ v, propertyBytes (blobAt env.mem e.node.blob) e.node.offset IS_OVERLAY_PROP_NAME = some v → v = []) :
    ∃ e', (isItDtbDtboCandidate env inp e).val = .ok (SUCCESS, e') ∧
      (e'.candidacy_status = true ↔ Candidate (blobAt env.mem e.node.blob) e.node.offset inp ∧
        NameReadable (blobAt env.mem e.node.blob) inp (blobType (blobAt env.mem e.node.blob) e.node.offset)) := by
  obtain ⟨e1, h1, n1, f1⟩ := @isChipinfoFamilyMatch_exact env inp e hn hs hw
  have at1 {e' : HandleEntry} (h : e'.node = e.node) : e'.fdt env = blobAt env.mem e.node.blob := by
    unfold HandleEntry.fdt
    rw [h]
  unfold isItDtbDtboCandidate
  rw [Traced.val_bind, h1]
  dsimp only
  by_cases c1 : e1.candidacy_status = true
  · rw [if_neg (by simp [c1])]
    have hw1 : NodeOk (e1.fdt env) e1.node.offset := by rw [at1 n1, n1]; exact hw
    obtain ⟨e2, h2, n2, f2⟩ := @isCompatibleStringMatch_exact env inp e1 hn hs hw1
      (by rw [at1 n1, n1]; exact ho)
    rw [Traced.val_bind, h2]
    dsimp only
    rw [at1 n1, n1] at f2
    by_cases c2 : e2.candidacy_status = true
    · rw [if_neg (by simp [c2])]
      have n2' := n2.trans n1
      have hw2 : NodeOk (e2.fdt env) e2.node.offset := by rw [at1 n2', n2']; exact hw
      obtain ⟨e3, h3, -, f3⟩ := @isPropertyListValid_exact env inp e2 hn hs hw2
      rw [at1 n2', n2'] at f3
      exact ⟨e3, h3, f3.trans ⟨fun h => ⟨⟨f1.mp c1, (f2.mp c2).1, (f2.mp c2).2.1, h⟩, (f2.mp c2).2.2⟩,
        fun h => h.1.properties⟩⟩
    · rw [if_pos (Or.inr (by simpa using c2))]
      exact ⟨e2, rfl, ⟨fun h => absurd h c2, fun h => absurd (f2.mpr ⟨h.1.platforminfo, h.1.name, h.2⟩) c2⟩⟩
  · rw [if_pos (Or.inr (by simpa using c1))]
    exact ⟨e1, rfl, ⟨fun h => absurd h c1, fun h => absurd (f1.mpr h.1.chipinfo) c1⟩⟩

/-- A blob of version 3, with a processor name. -/
def version3Blob : List UInt8 :=
  ((assemble [.beginNode [], .beginNode (SLASH :: BOARD_ID), .nop,
    .prop CHIPINFO_PROP_NAME [0, 1, 0, 0, 0, 1, 0, 0], .prop COMPATIBLE_PROP_NAME [97, 0],
    .endNode, .endNode] 0).set 23 3).set 27 2

def version3Env : Env := imageEnv 0x1000 [version3Blob] false

/-- A client that asks for the processor names beginning with "a". -/
def version3Input : HandleInput where
  dtbs_image_size := 0
  prop := { imageProp with dtb_compatible_string_starts_with := some [97] }
  prop_list := []
  chipinfo_version_calc := 0
  platforminfo_version_calc := 0

def version3Entry : HandleEntry := { initHandleEntry with node := ⟨0x1000, 8⟩ }

theorem version3_nodeOk : NodeOk (blobAt version3Env.mem version3Entry.node.blob) version3Entry.node.offset where
  node := by decide +kernel
  props := .nop (by decide +kernel)
    (.prop (by decide +kernel) (.prop (by decide +kernel) (.stop (by decide +kernel))))

/-- The conditions alone do not decide it: the blob is a candidate, and the
filter rejects it since libfdt does not read its list of names. -/
theorem candidate_filter_version3 :
    ¬∀ (env : Env) (inp : HandleInput) (e : HandleEntry), env.NoFail → env.Sane →
      NodeOk (blobAt env.mem e.node.blob) e.node.offset →
      (∀ v, propertyBytes (blobAt env.mem e.node.blob) e.node.offset IS_OVERLAY_PROP_NAME = some v → v = []) →
      ∃ e', (isItDtbDtboCandidate env inp e).val = .ok (SUCCESS, e') ∧
        (e'.candidacy_status = true ↔ Candidate (blobAt env.mem e.node.blob) e.node.offset inp) := by
  intro h
  have hnone : propertyBytes (blobAt version3Env.mem version3Entry.node.blob) version3Entry.node.offset
      IS_OVERLAY_PROP_NAME = none := by decide +kernel
  have hchip : propertyBytes (blobAt version3Env.mem version3Entry.node.blob) version3Entry.node.offset
      CHIPINFO_PROP_NAME = some [0, 1, 0, 0, 0, 1, 0, 0] := by decide +kernel
  have hname : propertyBytes (blobAt version3Env.mem version3Entry.node.blob) version3Entry.node.offset
      COMPATIBLE_PROP_NAME = some [97, 0] := by decide +kernel
  obtain ⟨e', hr, hs⟩ := h version3Env version3Input version3Entry (imageEnv_noFail _ _ _) (imageEnv_sane _ _ _)
    version3_nodeOk (by rw [hnone]; intro v hv; cases hv)
  have hrun : (isItDtbDtboCandidate version3Env version3Input version3Entry).val.map
      (fun r => r.2.candidacy_status) = .ok false := by decide +kernel
  rw [hr] at hrun
  have hf : e'.candidacy_status = false := Except.ok.inj hrun
  have hc : Candidate (blobAt version3Env.mem version3Entry.node.blob) version3Entry.node.offset version3Input := by
    refine ⟨⟨_, hchip, by decide, ?_⟩, Or.inl hnone, ?_, fun p hp => (nomatch hp)⟩
    · decide +kernel
    · have htype : blobType (blobAt version3Env.mem version3Entry.node.blob) version3Entry.node.offset =
          .BASE_DTB := by
        unfold blobType
        rw [hnone]
      rw [htype]
      exact ⟨_, hname, by decide, Or.inr ⟨[97], by decide +kernel, by decide⟩⟩
  rw [hs.mpr hc] at hf
  cases hf

theorem candidate_filter_exact_version3 :
    ∃ e', (isItDtbDtboCandidate version3Env version3Input version3Entry).val = .ok (SUCCESS, e') ∧
      (e'.candidacy_status = true ↔
        Candidate (blobAt version3Env.mem version3Entry.node.blob) version3Entry.node.offset version3Input ∧
        NameReadable (blobAt version3Env.mem version3Entry.node.blob) version3Input
          (blobType (blobAt version3Env.mem version3Entry.node.blob) version3Entry.node.offset)) :=
  candidate_filter_exact version3Env version3Input version3Entry (imageEnv_noFail _ _ _) (imageEnv_sane _ _ _)
    version3_nodeOk (fun v hv => by
      have hnone : propertyBytes (blobAt version3Env.mem version3Entry.node.blob) version3Entry.node.offset
          IS_OVERLAY_PROP_NAME = none := by decide +kernel
      rw [hnone] at hv
      cases hv)

end DTFramework.Select
