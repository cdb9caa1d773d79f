import DTFramework.Extn.Visit
import DTFramework.Select.Image

/-!
# Registering a blob

`fdt_set_blob_handle` replaces the status of the validation by the one of
`CreatDtbHashTable`, which it calls for a blob that is refused too: a refused
blob is never reported with its error (`registration_exact`).

Results:

* `checkForValidBlob_status`, `creatDtbHashTable_returns`: the statuses of the two
  parts;
* `registration_exact`: the calls that register a blob as a whole or not at all;
* `refused_blob_succeeds`: bytes that are no blob are registered with success.
-/
namespace DTFramework.Extn

open DTFramework.Fdt

/-- The registry and the tables are the same. -/
structure LibState.SameTables (s s' : LibState) : Prop where
  dtb_blob : s'.dtb_blob = s.dtb_blob
  phead_hash_node_table : s'.phead_hash_node_table = s.phead_hash_node_table
  phandle_cache : s'.phandle_cache = s.phandle_cache

/-- Success only for a valid blob, which is then the one of the id; and the error
of the validation, with nothing changed, for another. -/
structure AllOrNothing (e : LibEnv) (blob bsize : Nat) (blob_id : Int) (s : LibState) : Prop where
  success : ∀ s', setBlobHandle e blob bsize blob_id s = .ok (FDT_ERR_QC_NOERROR, s') →
    checkForValidBlob e.d e.m blob bsize = FDT_ERR_QC_NOERROR ∧
      getBlobHandle e.d s' blob_id = (FDT_ERR_QC_NOERROR, some blob)
  failure : checkForValidBlob e.d e.m blob bsize ≠ FDT_ERR_QC_NOERROR →
    ∃ s', setBlobHandle e blob bsize blob_id s = .ok (checkForValidBlob e.d e.m blob bsize, s') ∧ s.SameTables s'

/-! ## What building the tables leaves alone -/

section
variable {e : LibEnv} {blob : Nat} {s s' : LibState}

theorem dtbMalloc_registry (e : LibEnv) (s : LibState) : (dtbMalloc e s).2.dtb_blob = s.dtb_blob := rfl

theorem fillPhandle_registry {phandle_value offset : Int} (h : fillPhandle s phandle_value offset = .ok s') :
    s'.dtb_blob = s.dtb_blob := by
  unfold fillPhandle at h
  split at h
  · split at h
    · cases h
    · split at h
      · cases h; rfl
      · cases h; rfl
  · cases h; rfl

theorem addHashNode_registry {p : HashNode} {level : Nat} (h : addHashNode s p level = .ok s') :
    s'.dtb_blob = s.dtb_blob := by
  unfold addHashNode at h
  split at h
  · cases h; rfl
  · cases h

theorem addHash_registry {offset : Int} {fullname : Str} {depth : Nat} {p : Option HashNode}
    (h : addHash e offset blob fullname depth s = .ok (p, s')) : s'.dtb_blob = s.dtb_blob := by
  unfold addHash at h
  split at h
  · cases h; rfl
  split at h
  · cases h; rfl
  obtain ⟨s1, hadd, h⟩ := except_bind_ok h
  cases h
  exact (addHashNode_registry hadd).trans (dtbMalloc_registry e s)

theorem enterNode_registry {offset : Int} {fullname : Str} {depth : Nat} {b : Bool}
    (h : enterNode e blob offset depth fullname s = .ok (b, s')) : s'.dtb_blob = s.dtb_blob := by
  unfold enterNode at h
  obtain ⟨s1, hfill, h⟩ := except_bind_ok h
  obtain ⟨⟨p, s2⟩, hadd, h⟩ := except_bind_ok h
  cases h
  exact (addHash_registry hadd).trans (fillPhandle_registry hfill)

theorem initLevels_registry (e : LibEnv) (blob i : Nat) (s : LibState) :
    (initLevels e blob i s).2.dtb_blob = s.dtb_blob := by
  fun_induction initLevels e blob i s with
  | case1 => rfl
  | case2 _ _ _ _ ih => exact ih
  | case3 => rfl

theorem initRoot_registry {name : Str} {p : Option HashNode} (h : initRoot e blob name s = .ok (p, s')) :
    s'.dtb_blob = s.dtb_blob := by
  have hlists := initLevels_registry e blob 0 s
  unfold initRoot at h
  simp only at h
  split at h
  · cases h; exact hlists
  split at h
  · split at h
    · cases h; exact hlists
    · obtain ⟨s1, hadd, h⟩ := except_bind_ok h
      cases h
      exact ((addHashNode_registry hadd).trans (dtbMalloc_registry e _)).trans hlists
  · cases h; exact hlists

theorem allocCache_registry {ret : Int} (h : allocPhandleToNodeCacheSpace e blob s = .ok (ret, s')) :
    s'.dtb_blob = s.dtb_blob := by
  unfold allocPhandleToNodeCacheSpace at h
  simp only at h
  repeat' split at h
  all_goals cases h
  all_goals rfl

/-- Building the tables leaves the registry, and its errors are none of the
validation's. -/
theorem creatDtbHashTable_returns {ret : Int} (h : creatDtbHashTable e blob s = .ok (ret, s')) :
    s'.dtb_blob = s.dtb_blob ∧ -1 ≤ ret := by
  have hmem := e.d.extends_std e.d.FDT_ERR_QC_MEMALLOC (by simp)
  have harg := e.d.extends_std e.d.FDT_ERR_QC_INPUT_ARG_ERR (by simp)
  simp only [FDT_ERR_MAX] at hmem harg
  unfold creatDtbHashTable at h
  split at h
  · cases h; exact ⟨rfl, by decide⟩
  split at h
  · cases h; exact ⟨rfl, by decide⟩
  obtain ⟨⟨ret_value, s1⟩, hspace, h⟩ := except_bind_ok h
  have halloc := allocCache_registry hspace
  simp only at h
  split at h
  · cases h
    exact ⟨halloc, by decide⟩
  unfold recursiveFindRoot at h
  split at h
  · cases h
    exact ⟨halloc, by omega⟩
  obtain ⟨⟨root, s2⟩, hinit, h⟩ := except_bind_ok h
  have hroot := (initRoot_registry hinit).trans halloc
  simp only at h
  split at h
  · cases h
    exact ⟨hroot, by omega⟩
  · rw [recursiveFindSubnode, visitSubnodes_eq (by simp only [FDT_ERR_QC_NOERROR]; omega)] at h
    obtain ⟨hkept, hret⟩ := enterAll_keeps (I := fun t => t.dtb_blob = s2.dtb_blob) _
      (fun _ _ _ _ _ ht h => (enterNode_registry h).trans ht) rfl h
    refine ⟨hkept.trans hroot, ?_⟩
    rcases hret with rfl | rfl
    · decide
    · omega

end

/-- The statuses of the validation. -/
theorem checkForValidBlob_status (d : DTBDefs) (m : Mem) {blob : Nat} (bsize : Nat) (h0 : blob ≠ 0) :
    checkForValidBlob d m blob bsize = FDT_ERR_QC_NOERROR ∨ checkForValidBlob d m blob bsize < -1 := by
  unfold checkForValidBlob
  simp only
  rw [if_neg h0]
  repeat' split
  all_goals first | exact Or.inl rfl | exact Or.inr (by decide)

theorem valid_ne_null {d : DTBDefs} {m : Mem} {blob bsize : Nat}
    (h : checkForValidBlob d m blob bsize = FDT_ERR_QC_NOERROR) :
    blob ≠ 0 := by
  rintro rfl
  have hnull := d.extends_std d.FDT_ERR_QC_NULLPTR (by simp)
  unfold checkForValidBlob at h
  simp only [if_true, FDT_ERR_MAX, FDT_ERR_QC_NOERROR] at hnull h
  omega

/-- A blob is registered as a whole or not at all exactly when it is valid, or
null. -/
theorem registration_exact (e : LibEnv) (blob bsize : Nat) (blob_id : Int) (s : LibState)
    (h : 0 ≤ blob_id ∧ blob_id < e.d.MAX_BLOB_ID) :
    AllOrNothing e blob bsize blob_id s ↔
      blob = 0 ∨ checkForValidBlob e.d e.m blob bsize = FDT_ERR_QC_NOERROR := by
  have hid : ¬(blob_id < 0 ∨ (e.d.MAX_BLOB_ID : Int) ≤ blob_id) := by omega
  constructor
  · intro hall
    by_contra hc
    obtain ⟨h0, hinvalid⟩ := not_or.mp hc
    obtain ⟨s', hs', -⟩ := hall.failure hinvalid
    unfold setBlobHandle at hs'
    rw [if_neg h0, if_neg hid, if_neg hinvalid] at hs'
    have hret := (creatDtbHashTable_returns hs').2
    rcases checkForValidBlob_status e.d e.m bsize h0 with h | h
    · exact hinvalid h
    · omega
  · rintro (rfl | hvalid)
    · have hnull := e.d.extends_std e.d.FDT_ERR_QC_NULLPTR (by simp)
      have hset : setBlobHandle e 0 bsize blob_id s = .ok (-e.d.FDT_ERR_QC_NULLPTR, s) := if_pos rfl
      refine ⟨fun s' hs' => ?_, fun _ => ⟨s, hset, rfl, rfl, rfl⟩⟩
      rw [hset, Except.ok.injEq, Prod.mk.injEq] at hs'
      simp only [FDT_ERR_MAX, FDT_ERR_QC_NOERROR] at hnull hs'
      omega
    · refine ⟨fun s' hs' => ⟨hvalid, ?_⟩, fun hc => absurd hvalid hc⟩
      have h0 := valid_ne_null hvalid
      unfold setBlobHandle at hs'
      rw [if_neg h0, if_neg hid, if_pos hvalid] at hs'
      obtain ⟨⟨_, _, s1⟩, _, hcreat⟩ := except_bind_ok hs'
      have hkept := congrFun (creatDtbHashTable_returns hcreat).1 blob_id
      simp only [Function.update_self] at hkept
      unfold getBlobHandle
      rw [if_neg hid, hkept, if_neg h0]

/-- One blob in a memory that is empty otherwise. -/
def registerEnv (ENABLE_HASH_FOR_DTB : Bool) : LibEnv where
  d := Select.imageDefs
  ENABLE_HASH_FOR_DTB := ENABLE_HASH_FOR_DTB
  m := memOf 0x1000 (Select.baseBlob [] 6)
  malloc_fails := fun _ => false

theorem registration_exact_base : AllOrNothing (registerEnv true) 0x1000 128 0 .init :=
  (registration_exact (registerEnv true) 0x1000 128 0 .init (by decide)).mpr (Or.inr (by decide +kernel))

/-- Memory that is no blob is registered with success: the registry stays empty. -/
theorem refused_blob_succeeds : ¬∀ (e : LibEnv) (blob bsize : Nat) (blob_id : Int) (s : LibState),
    0 ≤ blob_id ∧ blob_id < e.d.MAX_BLOB_ID → AllOrNothing e blob bsize blob_id s := by
  intro h
  have hinvalid : checkForValidBlob (registerEnv false).d (registerEnv false).m 0x2000 64 ≠ FDT_ERR_QC_NOERROR := by
    decide +kernel
  have hset : setBlobHandle (registerEnv false) 0x2000 64 0 .init = .ok (FDT_ERR_QC_NOERROR, .init) := by
    unfold setBlobHandle
    rw [if_neg (by decide), if_neg (by decide), if_neg hinvalid]
    rfl
  exact hinvalid ((h (registerEnv false) 0x2000 64 0 .init (by decide)).success _ hset).1

end DTFramework.Extn
