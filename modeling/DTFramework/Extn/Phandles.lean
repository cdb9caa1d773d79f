import DTFramework.Extn.Bounds

/-!
# The phandle cache and the scan

Whatever blobs are registered, in whatever order and however often, an offset in
the cache is the one node of its blob with the phandle (`SoundCache`), so that the
lookup answers what the scan of `fdt_node_offset_by_phandle` does
(`phandle_lookup`). A cache is filled while it is the newest: that of a blob that
is in no table yet.

Results:

* `recursiveFindRoot_sound`, `setBlobHandle_sound`: a registration keeps the caches;
* `WellFormed.scan_finds`: the scan finds the node that has the phandle;
* `phandle_lookup`: after any registrations, the lookup answers what the scan does.
-/
namespace DTFramework.Extn

open DTFramework.Fdt

/-- A node that libfdt has a name for. -/
def named (f : Blob) (offset : Int) : Bool := (getName f offset).toOption.isSome

/-- A call of `fdt_set_blob_handle`. -/
structure SetCall where
  blob : Nat
  bsize : Nat
  blob_id : Int

/-- A blob that is accepted, no deeper than the table, whose nodes have names and
distinct phandles below 2^31. -/
structure WellFormed (e : LibEnv) (c : SetCall) : Prop where
  valid : checkForValidBlob e.d e.m c.blob c.bsize = FDT_ERR_QC_NOERROR
  probe : 0 ≤ roProbe (blobAt e.m c.blob)
  named : ∀ n ∈ scan (blobAt e.m c.blob) 0 0, Extn.named (blobAt e.m c.blob) n.1 = true
  shallow : ∀ n ∈ scan (blobAt e.m c.blob) 0 0, n.2 < hash_table_level
  whole : ∃ max, findMaxPhandle (blobAt e.m c.blob) = .ok max
  below : ∀ n ∈ nodes (blobAt e.m c.blob), getPhandle (blobAt e.m c.blob) n < 0x80000000
  distinct : ∀ n ∈ nodes (blobAt e.m c.blob), ∀ n' ∈ nodes (blobAt e.m c.blob),
    getPhandle (blobAt e.m c.blob) n ≠ 0 → getPhandle (blobAt e.m c.blob) n' = getPhandle (blobAt e.m c.blob) n →
    n' = n

/-- The library after a sequence of registrations. -/
def register (e : LibEnv) : List SetCall → LibState → Except HashFault LibState
  | [], s => .ok s
  | c :: l, s => do
    let (_, s) ← setBlobHandle e c.blob c.bsize c.blob_id s
    register e l s

/-- What `fdt_node_offset_by_phandle` answers, as the node of a blob. -/
def scanAnswer (e : LibEnv) (blob phandle : Nat) : Int × Option NodeHandle :=
  let offset := nodeOffsetByPhandle (blobAt e.m blob) phandle
  if offset < 0 then (offset, none) else (FDT_ERR_QC_NOERROR, some ⟨blob, offset⟩)

/-- The offsets in a cache are those of the nodes with the phandles. -/
def SoundCache (m : Mem) (c : PhandleCache) : Prop :=
  ∀ p, 0 < int32 (c.array.getD p 0) → p ≠ 0 ∧ int32 (c.array.getD p 0) ∈ nodes (blobAt m c.blob) ∧
    getPhandle (blobAt m c.blob) (int32 (c.array.getD p 0)) = p

/-! ## The blobs in the table -/

section
variable {e : LibEnv} {blob : Nat} {s s' : LibState}

/-- The blob has a list in the table. -/
def InTable (s : LibState) (b : Nat) : Prop := ∃ i, ∃ l ∈ s.phead_hash_node_table i, l.blob = b

theorem isMergeDtb_iff {b : Nat} : isMergeDtb s b = true ↔ InTable s b := decide_eq_true_iff

theorem insertUnder_blobs (p : HashNode) (l : List BlobListNode) :
    (insertUnder p l).map BlobListNode.blob = l.map BlobListNode.blob := by
  induction l with
  | nil => rfl
  | cons b l ih =>
    unfold insertUnder
    split
    · rfl
    · rw [List.map_cons, List.map_cons, ih]

theorem inTable_setLevel {level : Fin hash_table_level} {list : List BlobListNode}
    (h : ∀ l ∈ s.phead_hash_node_table level, ∃ l' ∈ list, l'.blob = l.blob) {b : Nat} (hb : InTable s b) :
    InTable (s.setLevel level list) b := by
  obtain ⟨i, l, hl, rfl⟩ := hb
  unfold LibState.setLevel
  by_cases hi : i = level
  · subst hi
    obtain ⟨l', hl', hblob⟩ := h l hl
    exact ⟨i, l', by simpa using hl', hblob⟩
  · exact ⟨i, l, by simpa [Function.update_of_ne hi] using hl, rfl⟩

theorem addHashNode_table {p : HashNode} {level : Nat} (h : addHashNode s p level = .ok s') {b : Nat}
    (hb : InTable s b) : InTable s' b := by
  unfold addHashNode at h
  split at h
  · cases h
    refine inTable_setLevel (fun l hl => ?_) hb
    have hmem := List.mem_map_of_mem (f := BlobListNode.blob) hl
    rw [← insertUnder_blobs p] at hmem
    obtain ⟨l', hl', hblob⟩ := List.mem_map.mp hmem
    exact ⟨l', hl', hblob⟩
  · cases h

theorem initLevels_table (e : LibEnv) (blob i : Nat) (s : LibState) {b : Nat} (hb : InTable s b) :
    InTable (initLevels e blob i s).2 b := by
  fun_induction initLevels e blob i s with
  | case1 => exact hb
  | case2 i s h _ ih => exact ih (inTable_setLevel (fun l hl => ⟨l, List.mem_cons_of_mem _ hl, rfl⟩) hb)
  | case3 => exact hb

/-- Once the lists are made, the blob has one. -/
theorem initLevels_made (e : LibEnv) (blob : Nat) (s : LibState) (h : (initLevels e blob 0 s).1 = true) :
    InTable (initLevels e blob 0 s).2 blob := by
  rw [initLevels, dif_pos (by decide)] at h ⊢
  split at h
  · cases h
  · rename_i hmade
    rw [if_neg hmade]
    exact initLevels_table e blob 1 _ ⟨0, ⟨blob, []⟩, by simp [LibState.setLevel], rfl⟩

theorem initRoot_table {p : Option HashNode} (hnever : ∀ n, e.malloc_fails n = false)
    (h : initRoot e blob ROOT s = .ok (p, s')) :
    s'.phandle_cache = s.phandle_cache ∧ (∀ b, InTable s b → InTable s' b) ∧ InTable s' blob := by
  have hcache := initLevels_cache e blob 0 s
  have htable (b : Nat) (hb : InTable s b) := initLevels_table e blob 0 s hb
  have hmade := initLevels_made e blob s (initLevels_never hnever blob 0 s)
  unfold initRoot at h
  generalize initLevels e blob 0 s = lists at h hcache htable hmade
  simp only at h
  split at h
  · cases h
    exact ⟨hcache, htable, hmade⟩
  split at h
  · split at h
    · cases h
      exact ⟨hcache, htable, hmade⟩
    · obtain ⟨s2, hadd, h⟩ := except_bind_ok h
      cases h
      refine ⟨?_, fun b hb => addHashNode_table hadd (htable b hb), addHashNode_table hadd hmade⟩
      unfold addHashNode at hadd
      rw [dif_pos (by decide)] at hadd
      cases hadd
      exact hcache
  · cases h
    exact ⟨hcache, htable, hmade⟩

/-! ## Filling a cache -/

theorem getD_replicate (n p : Nat) : (List.replicate n 0).getD p 0 = 0 := by
  rw [List.getD_eq_getElem?_getD, List.getElem?_replicate]
  split <;> rfl

theorem soundCache_new (m : Mem) (b n : Nat) : SoundCache m ⟨b, List.replicate n 0⟩ := by
  intro p hp
  rw [getD_replicate] at hp
  exact absurd hp (by decide)

theorem int32_u32 {o : Int} (h0 : 0 ≤ o) (h1 : o < 0x80000000) : int32 (u32 o) = o := by
  unfold int32 u32
  omega

/-- A node's offset is put where its phandle is. -/
theorem soundCache_set {m : Mem} {c : PhandleCache} {o : Int} (hc : SoundCache m c) (h0 : 0 ≤ o) (h1 : o < 0x80000000)
    (hnode : o ∈ nodes (blobAt m c.blob)) (hne : getPhandle (blobAt m c.blob) o ≠ 0) :
    SoundCache m { c with array := c.array.set (getPhandle (blobAt m c.blob) o) (u32 o) } := by
  intro p hp
  simp only at hp ⊢
  by_cases hset : getPhandle (blobAt m c.blob) o = p ∧ p < c.array.length
  · obtain ⟨rfl, hlt⟩ := hset
    have hgot : (c.array.set (getPhandle (blobAt m c.blob) o) (u32 o)).getD (getPhandle (blobAt m c.blob) o) 0 =
        u32 o := by
      rw [List.getD_eq_getElem?_getD, List.getElem?_set_self hlt]
      rfl
    rw [hgot, int32_u32 h0 h1]
    exact ⟨hne, hnode, rfl⟩
  · have hkept : (c.array.set (getPhandle (blobAt m c.blob) o) (u32 o)).getD p 0 = c.array.getD p 0 := by
      rw [List.getD_eq_getElem?_getD, List.getD_eq_getElem?_getD, List.getElem?_set]
      split
      · rename_i heq
        have hlt : ¬p < c.array.length := fun hlt => hset ⟨heq, hlt⟩
        subst heq
        rw [if_neg hlt, List.getElem?_eq_none (Nat.not_lt.mp hlt)]
      · rfl
    rw [hkept] at hp ⊢
    exact hc p hp

/-- The caches hold what they should; their blobs are those of `blobs`. -/
structure SoundCaches (m : Mem) (blobs : List Nat) (s : LibState) : Prop where
  sound : ∀ c ∈ s.phandle_cache, SoundCache m c
  blobs : s.phandle_cache.map PhandleCache.blob = blobs

theorem fillPhandle_sound {m : Mem} {blobs : List Nat} {o : Int} (hs : SoundCaches m blobs s)
    (hnew : 0 < int32 (getPhandle (blobAt m blob) o) → blobs.head? = some blob) (h0 : 0 ≤ o) (h1 : o < 0x80000000)
    (hnode : o ∈ nodes (blobAt m blob)) (h : fillPhandle s (int32 (getPhandle (blobAt m blob) o)) o = .ok s') :
    SoundCaches m blobs s' ∧ s'.phead_hash_node_table = s.phead_hash_node_table := by
  have hlt := getPhandle_lt (f := blobAt m blob) o
  obtain ⟨hsound, hblobs⟩ := hs
  unfold fillPhandle at h
  split at h
  · rename_i hpos
    have hphandle : int32 (getPhandle (blobAt m blob) o) = getPhandle (blobAt m blob) o := by
      generalize getPhandle (blobAt m blob) o = p at hpos hlt
      unfold int32 at hpos ⊢
      omega
    split at h
    · cases h
    · rename_i c l hcache
      rw [hcache] at hsound hblobs
      have hblob : c.blob = blob := by
        have := hnew hpos
        rw [← hblobs] at this
        exact Option.some.inj this
      split at h
      · rw [← Except.ok.inj h]
        refine ⟨⟨?_, ?_⟩, rfl⟩
        · rintro c' (_ | ⟨_, hc'⟩)
          · subst hblob
            rw [hphandle, Int.toNat_natCast]
            refine soundCache_set (hsound c List.mem_cons_self) h0 h1 hnode fun hzero => ?_
            rw [hphandle, hzero] at hpos
            exact absurd hpos (by decide)
          · exact hsound c' (List.mem_cons_of_mem _ hc')
        · exact hblobs
      · rw [← Except.ok.inj h]
        exact ⟨⟨by rw [hcache]; exact hsound, by rw [hcache]; exact hblobs⟩, rfl⟩
  · rw [← Except.ok.inj h]
    exact ⟨⟨hsound, hblobs⟩, rfl⟩

theorem addHash_table {o : Int} {fullname : Str} {depth : Nat} {p : Option HashNode}
    (h : addHash e o blob fullname depth s = .ok (p, s')) :
    s'.phandle_cache = s.phandle_cache ∧ ∀ b, InTable s b → InTable s' b := by
  unfold addHash at h
  split at h
  · cases h
    exact ⟨rfl, fun _ hb => hb⟩
  split at h
  · cases h
    exact ⟨rfl, fun _ hb => hb⟩
  obtain ⟨s1, hadd, h⟩ := except_bind_ok h
  cases h
  refine ⟨?_, fun b hb => addHashNode_table hadd hb⟩
  unfold addHashNode at hadd
  split at hadd
  · cases hadd
    rfl
  · cases hadd

theorem inTable_congr (h : s'.phead_hash_node_table = s.phead_hash_node_table) {b : Nat} (hb : InTable s b) :
    InTable s' b := by
  unfold InTable
  rw [h]
  exact hb

theorem enterNode_sound {blobs : List Nat} {o : Int} {depth : Nat} {fullname : Str} {b : Bool}
    (hs : SoundCaches e.m blobs s) (hnew : 0 < int32 (getPhandle (blobAt e.m blob) o) → blobs.head? = some blob)
    (h0 : 0 ≤ o) (h1 : o < 0x80000000) (hnode : o ∈ nodes (blobAt e.m blob))
    (h : enterNode e blob o depth fullname s = .ok (b, s')) :
    SoundCaches e.m blobs s' ∧ ∀ b, InTable s b → InTable s' b := by
  unfold enterNode at h
  obtain ⟨s1, hfill, h⟩ := except_bind_ok h
  obtain ⟨hsound, htable⟩ := fillPhandle_sound hs hnew h0 h1 hnode hfill
  obtain ⟨⟨p, s2⟩, hadd, h⟩ := except_bind_ok h
  cases h
  obtain ⟨hcache, htable2⟩ := addHash_table hadd
  exact ⟨⟨by rw [hcache]; exact hsound.sound, by rw [hcache]; exact hsound.blobs⟩,
    fun b hb => htable2 b (inTable_congr htable hb)⟩

/-! ## Building the tables of a blob -/

/-- The blob of a well-formed call. -/
def Good (e : LibEnv) (b : Nat) : Prop := ∃ c : SetCall, c.blob = b ∧ WellFormed e c

/-- Every cache is that of a well-formed blob in the table, and sound. -/
structure Caches (e : LibEnv) (s : LibState) : Prop where
  entered : ∀ c ∈ s.phandle_cache, InTable s c.blob
  sound : ∀ c ∈ s.phandle_cache, SoundCache e.m c
  good : ∀ c ∈ s.phandle_cache, Good e c.blob

/-- A new cache, or none for a blob without phandles. -/
theorem allocCache_new (hany : s.phandle_cache.any (fun c => c.blob = blob) = false)
    (h : allocPhandleToNodeCacheSpace e blob s = .ok (0, s')) :
    s'.phead_hash_node_table = s.phead_hash_node_table ∧
      (s'.phandle_cache = s.phandle_cache ∧ maxPhandle (blobAt e.m blob) = 0 ∨
        ∃ n, s'.phandle_cache = ⟨blob, List.replicate n 0⟩ :: s.phandle_cache) := by
  unfold allocPhandleToNodeCacheSpace at h
  simp only [hany, Bool.false_eq_true, if_false] at h
  split at h
  · rename_i hmax
    cases h
    exact ⟨rfl, Or.inl ⟨rfl, hmax⟩⟩
  split at h
  · cases h
  split at h
  · cases h
  split at h
  · cases h
  · rw [← (Prod.mk.inj (Except.ok.inj h)).2]
    exact ⟨rfl, Or.inr ⟨_, rfl⟩⟩

/-- A node with a name starts before 2^31. -/
theorem named_bounds {f : Blob} {o : Int} (h : named f o = true) : 0 ≤ o ∧ o < 0x80000000 := by
  unfold named getName at h
  split at h
  · cases h
  split at h
  · cases h
  · rename_i hc
    obtain ⟨h0, -, ht, -⟩ := checkNodeOffset_nonneg (Int.not_lt.mp hc)
    exact ⟨h0, (nextTag_bounds (by rw [ht]; decide)).2.1⟩

/-- Entering every node of a well-formed tree. -/
theorem enterAll_made {l : List Visit} (code : Int) (hblob : blob ≠ 0) (hnever : ∀ n, e.malloc_fails n = false)
    (h0 : ∀ v ∈ l, 0 ≤ v.offset) (hfits : ∀ v ∈ l, v.depth < hash_table_level)
    (hcache : s.phandle_cache = [] → ∀ v ∈ l, ¬0 < int32 (getPhandle (blobAt e.m blob) v.offset)) :
    ∃ s', enterAll (enterNode e blob) code l s = .ok (FDT_ERR_QC_NOERROR, s') := by
  induction l generalizing s with
  | nil => exact ⟨s, rfl⟩
  | cons v l ih =>
    obtain ⟨n, s1, s2, hkept, hv⟩ := enterNode_eq hblob (h0 v List.mem_cons_self)
      (fun hnil => hcache hnil v List.mem_cons_self) v.depth v.fullname
    rw [enterAll_cons, hv, hnever, if_pos (hfits v List.mem_cons_self), if_neg (by simp)]
    exact ih (fun w hw => h0 w (List.mem_cons_of_mem _ hw)) (fun w hw => hfits w (List.mem_cons_of_mem _ hw))
      fun hnil w hw => hcache (hkept hnil) w (List.mem_cons_of_mem _ hw)

theorem maxPhandle_nonneg {c : SetCall} (h : WellFormed e c) : 0 ≤ maxPhandle (blobAt e.m c.blob) := by
  obtain ⟨max, hmax⟩ := h.whole
  obtain ⟨-, -, hr⟩ := maxPhandleScan_ok hmax
  have hlt : max < 0x80000000 := by
    rcases hr with rfl | ⟨n, hn, rfl⟩
    · decide
    · exact h.below n hn
  unfold maxPhandle getMaxPhandle
  rw [hmax]
  simp only [MAX_PHANDLE_CACHE_SIZE, int32]
  omega

/-- The recursion over a well-formed tree keeps the caches. -/
theorem recursiveFindRoot_sound {blobs : List Nat} {ret : Int} {c : SetCall} (hwell : WellFormed e c)
    (hnever : ∀ n, e.malloc_fails n = false) (hs : SoundCaches e.m blobs s)
    (hnew : maxPhandle (blobAt e.m c.blob) = 0 ∨ blobs.head? = some c.blob)
    (h : recursiveFindRoot e c.blob ROOT s = .ok (ret, s')) :
    SoundCaches e.m blobs s' ∧ (∀ b, InTable s b → InTable s' b) ∧ InTable s' c.blob := by
  unfold recursiveFindRoot at h
  rw [if_neg (by decide)] at h
  obtain ⟨⟨p, s1⟩, hinit, h⟩ := except_bind_ok h
  obtain ⟨hcache, htable, hmade⟩ := initRoot_table hnever hinit
  have hsound : SoundCaches e.m blobs s1 := ⟨by rw [hcache]; exact hs.sound, by rw [hcache]; exact hs.blobs⟩
  cases p with
  | none =>
    cases h
    exact ⟨hsound, htable, hmade⟩
  | some root =>
    obtain ⟨p', s2, hinit', -, hoffset, -⟩ := initRoot_ok e c.blob s
    obtain ⟨rfl, -⟩ := Prod.mk.inj (Except.ok.inj (hinit.symm.trans hinit'))
    obtain ⟨hroot, h0⟩ := hoffset root rfl
    have hzero := (pathOffset_root (blobAt e.m c.blob)).resolve_left (Int.not_lt.mpr h0)
    have h : recursiveFindSubnode e c.blob ROOT 0 (firstSubnode (blobAt e.m c.blob) root.node.offset) s1 =
      .ok (ret, s') := h
    rw [hroot, hzero, recursiveFindSubnode, visitSubnodes_eq (memalloc_ne e.d)] at h
    have hstep (v : Visit) (hv : v ∈ pathVisits (blobAt e.m c.blob) ROOT 0 (firstSubnode (blobAt e.m c.blob) 0))
        (t : LibState) (b : Bool) (t' : LibState) (ht : SoundCaches e.m blobs t ∧ ∀ b, InTable s1 b → InTable t b)
        (hentered : enterNode e c.blob v.offset v.depth v.fullname t = .ok (b, t')) :
        SoundCaches e.m blobs t' ∧ ∀ b, InTable s1 b → InTable t' b := by
      have hscan := pathVisits_scan hv
      obtain ⟨h0, h1⟩ := named_bounds (hwell.named _ hscan)
      have hhead (hpos : 0 < int32 (getPhandle (blobAt e.m c.blob) v.offset)) : blobs.head? = some c.blob :=
        hnew.resolve_left fun hmax => maxPhandle_zero hmax hscan hpos
      obtain ⟨hs', ht'⟩ := enterNode_sound ht.1 hhead h0 h1 (scan_mem_nodes hscan) hentered
      exact ⟨hs', fun b hb => ht' b (ht.2 b hb)⟩
    obtain ⟨⟨hsound', htable'⟩, -⟩ := enterAll_keeps _ hstep ⟨hsound, fun b hb => hb⟩ h
    exact ⟨hsound', fun b hb => htable' b (htable b hb), htable' _ hmade⟩

theorem WellFormed.fits {c : SetCall} (h : WellFormed e c) {v : Visit}
    (hv : v ∈ pathVisits (blobAt e.m c.blob) ROOT 0 (firstSubnode (blobAt e.m c.blob) 0)) :
    v.depth < hash_table_level := h.shallow (v.offset, v.depth) (pathVisits_scan hv)

/-- The tables of a well-formed tree are made. -/
theorem recursiveFindRoot_made {c : SetCall} (hwell : WellFormed e c) (hnever : ∀ n, e.malloc_fails n = false)
    (hcache : s.phandle_cache = [] → maxPhandle (blobAt e.m c.blob) = 0) :
    ∃ ret s', recursiveFindRoot e c.blob ROOT s = .ok (ret, s') := by
  obtain ⟨p, s2, hcache2, -, -, hroot⟩ := recursiveFindRoot_eq e c.blob s
  rw [hroot]
  cases p with
  | false => exact ⟨_, s2, rfl⟩
  | true =>
    obtain ⟨s', hmade⟩ := enterAll_made e.d.FDT_ERR_QC_MEMALLOC (valid_ne_null hwell.valid) hnever
      (pathVisits_nonneg _ _ _ _) (fun v hv => hwell.fits hv)
      (fun hnil => visits_without_phandle (hcache (hcache2.symm.trans hnil)))
    exact ⟨_, s', hmade⟩

theorem creatDtbHashTable_sound {c : SetCall} (hwell : WellFormed e c) (henable : e.ENABLE_HASH_FOR_DTB = true)
    (hnever : ∀ n, e.malloc_fails n = false) (hs : Caches e s) :
    ∃ ret s', creatDtbHashTable e c.blob s = .ok (ret, s') ∧ Caches e s' := by
  cases hmerge : isMergeDtb s c.blob with
  | true =>
    refine ⟨FDT_ERR_QC_NOERROR, s.freeTables, ?_, fun c hc => (nomatch hc), fun c hc => (nomatch hc), fun c hc =>
      (nomatch hc)⟩
    unfold creatDtbHashTable
    rw [henable, hmerge]
    rfl
  | false =>
    rw [creatDtbHashTable_eq henable hmerge]
    have hfresh : ¬InTable s c.blob := fun hc => absurd (hmerge.symm.trans (isMergeDtb_iff.mpr hc)) (by decide)
    have hany : s.phandle_cache.any (fun c' => c'.blob = c.blob) = false := by
      rw [List.any_eq_false]
      intro c' hc' heq
      exact hfresh (of_decide_eq_true heq ▸ hs.entered c' hc')
    rcases allocCache_never hnever c.blob s with ⟨s1, halloc⟩ | ⟨-, hwraps⟩
    · obtain ⟨htable, hnew⟩ := allocCache_new hany halloc
      have hsound1 : SoundCaches e.m (s1.phandle_cache.map PhandleCache.blob) s1 := by
        refine ⟨?_, rfl⟩
        rcases hnew with ⟨hcache, -⟩ | ⟨n, hcache⟩
        · rw [hcache]
          exact hs.sound
        · rw [hcache]
          rintro c' (_ | ⟨_, hc'⟩)
          · exact soundCache_new _ _ _
          · exact hs.sound c' hc'
      have hhead : maxPhandle (blobAt e.m c.blob) = 0 ∨
          (s1.phandle_cache.map PhandleCache.blob).head? = some c.blob := by
        rcases hnew with ⟨-, hmax⟩ | ⟨n, hcache⟩
        · exact Or.inl hmax
        · exact Or.inr (by rw [hcache]; rfl)
      obtain ⟨ret, s', hmade⟩ := recursiveFindRoot_made hwell hnever (allocCache_empty halloc)
      obtain ⟨hsound, htable', hin⟩ := recursiveFindRoot_sound hwell hnever hsound1 hhead hmade
      -- a cache is the new one or one of those before
      have hblobs (c' : PhandleCache) (hc' : c' ∈ s'.phandle_cache) :
          c'.blob = c.blob ∨ ∃ c'' ∈ s.phandle_cache, c''.blob = c'.blob := by
        have hmem := List.mem_map_of_mem (f := PhandleCache.blob) hc'
        rw [hsound.blobs] at hmem
        obtain ⟨c'', hc'', hblob⟩ := List.mem_map.mp hmem
        rcases hnew with ⟨hcache, -⟩ | ⟨n, hcache⟩
        · rw [hcache] at hc''
          exact Or.inr ⟨c'', hc'', hblob⟩
        · rw [hcache] at hc''
          rcases List.mem_cons.mp hc'' with rfl | hc''
          · exact Or.inl hblob.symm
          · exact Or.inr ⟨c'', hc'', hblob⟩
      refine ⟨ret, s', ?_, fun c' hc' => ?_, hsound.sound, fun c' hc' => ?_⟩
      · rw [halloc]
        exact hmade
      · rcases hblobs c' hc' with h | ⟨c'', hc'', h⟩
        · rw [h]
          exact hin
        · rw [← h]
          exact htable' _ (inTable_congr htable (hs.entered c'' hc''))
      · rcases hblobs c' hc' with h | ⟨c'', hc'', h⟩
        · exact ⟨c, h.symm, hwell⟩
        · rw [← h]
          exact hs.good c'' hc''
    · have := maxPhandle_nonneg hwell
      omega

theorem Caches.congr (hs : Caches e s) (htable : s'.phead_hash_node_table = s.phead_hash_node_table)
    (hcache : s'.phandle_cache = s.phandle_cache) : Caches e s' :=
  ⟨fun c hc => inTable_congr htable (hs.entered c (hcache ▸ hc)), fun c hc => hs.sound c (hcache ▸ hc),
    fun c hc => hs.good c (hcache ▸ hc)⟩

end

theorem setBlobHandle_sound {e : LibEnv} {c : SetCall} (hwell : WellFormed e c)
    (henable : e.ENABLE_HASH_FOR_DTB = true)
    (hnever : ∀ n, e.malloc_fails n = false) {s : LibState} (hs : Caches e s) :
    ∃ ret s', setBlobHandle e c.blob c.bsize c.blob_id s = .ok (ret, s') ∧ Caches e s' := by
  have h0 := valid_ne_null hwell.valid
  unfold setBlobHandle
  rw [if_neg h0]
  split
  · exact ⟨_, s, rfl, hs⟩
  rw [if_pos hwell.valid]
  have hfits : LookupFits s c.blob SW_BOOT := ⟨by decide, Or.inl (by decide)⟩
  obtain ⟨status, node, s1, hget, hsame⟩ := getNodeHandle_returns henable h0 hfits
  rw [hget]
  exact creatDtbHashTable_sound hwell henable hnever (hs.congr hsame.phead_hash_node_table hsame.phandle_cache)

theorem register_sound {e : LibEnv} {calls : List SetCall} (hwell : ∀ c ∈ calls, WellFormed e c)
    (henable : e.ENABLE_HASH_FOR_DTB = true) (hnever : ∀ n, e.malloc_fails n = false) {s : LibState}
    (hs : Caches e s) :
    ∃ s', register e calls s = .ok s' ∧ Caches e s' := by
  induction calls generalizing s with
  | nil => exact ⟨s, rfl, hs⟩
  | cons c calls ih =>
    obtain ⟨ret, s1, hset, hs1⟩ := setBlobHandle_sound (hwell c List.mem_cons_self) henable hnever hs
    obtain ⟨s2, hrun, hs2⟩ := ih (fun c' hc' => hwell c' (List.mem_cons_of_mem _ hc')) hs1
    refine ⟨s2, ?_, hs2⟩
    unfold register
    rw [hset]
    exact hrun

/-- The scan finds the node with a phandle. -/
theorem WellFormed.scan_finds {e : LibEnv} {c : SetCall} (h : WellFormed e c) {o : Int}
    (hnode : o ∈ nodes (blobAt e.m c.blob))
    (hne : getPhandle (blobAt e.m c.blob) o ≠ 0) :
    nodeOffsetByPhandle (blobAt e.m c.blob) (getPhandle (blobAt e.m c.blob) o) = o := by
  have hlt := h.below o hnode
  unfold nodeOffsetByPhandle
  rw [if_neg (not_or.mpr ⟨hne, by omega⟩), if_neg (Int.not_lt.mpr h.probe)]
  exact phandleScan_unique hnode rfl fun n' hn' heq => h.distinct o hnode n' hn' hne heq

/-- What the caches hold is what the scan finds. -/
theorem getPhandleNode_eq {e : LibEnv} {s : LibState} (hs : Caches e s) (blob phandle : Nat) :
    getPhandleNode e s blob phandle = scanAnswer e blob phandle := by
  unfold getPhandleNode scanAnswer
  by_cases hcached : e.ENABLE_HASH_FOR_DTB = true ∧ 0 < cachedOffset s blob phandle
  · rw [if_pos hcached]
    have hpos := hcached.2
    unfold cachedOffset at hpos ⊢
    split at hpos
    · exact absurd hpos (by decide)
    · rename_i c hfind
      have hc := List.mem_of_find?_eq_some hfind
      have hblob := List.find?_some hfind
      simp only [Bool.and_eq_true, decide_eq_true_eq] at hblob
      obtain ⟨rfl, -⟩ := hblob
      obtain ⟨hne, hnode, hphandle⟩ := hs.sound c hc phandle hpos
      obtain ⟨c', hblob, hwell⟩ := hs.good c hc
      have hscan := hwell.scan_finds (hblob ▸ hnode) (by rw [hblob, hphandle]; exact hne)
      rw [hblob, hphandle] at hscan
      rw [hscan, if_neg (by omega)]
  · rw [if_neg hcached]

/-- After any sequence of registrations, a phandle is looked up as the scan of
the blob does, cached or not. -/
theorem phandle_lookup (e : LibEnv) (calls : List SetCall)
    (h : e.ENABLE_HASH_FOR_DTB = true ∧ (∀ n, e.malloc_fails n = false) ∧ ∀ c ∈ calls, WellFormed e c) :
    ∃ s, register e calls .init = .ok s ∧
      ∀ blob phandle, getPhandleNode e s blob phandle = scanAnswer e blob phandle := by
  have hinit : Caches e .init := ⟨fun c hc => (nomatch hc), fun c hc => (nomatch hc), fun c hc => (nomatch hc)⟩
  obtain ⟨s, hrun, hs⟩ := register_sound h.2.2 h.1 h.2.1 hinit
  exact ⟨s, hrun, fun blob phandle => getPhandleNode_eq hs blob phandle⟩

/-- A tree whose board-id node has the phandle 5. -/
def phandleEnv : LibEnv where
  d := Select.imageDefs
  ENABLE_HASH_FOR_DTB := true
  m := memOf 0x1000 (Select.baseBlob [(PHANDLE, [0, 0, 0, 5])] 6)
  malloc_fails := fun _ => false

/-- The tree is registered twice, which throws its tables away. -/
theorem phandle_lookup_twice : ∃ s, register phandleEnv [⟨0x1000, 152, 0⟩, ⟨0x1000, 152, 1⟩] .init = .ok s ∧
    ∀ blob phandle, getPhandleNode phandleEnv s blob phandle = scanAnswer phandleEnv blob phandle := by
  have hwell : WellFormed phandleEnv ⟨0x1000, 152, 0⟩ :=
    ⟨by decide +kernel, by decide +kernel, by decide +kernel, by decide +kernel, ⟨5, by decide +kernel⟩,
      by decide +kernel,
      by decide +kernel⟩
  refine phandle_lookup phandleEnv _ ⟨rfl, fun _ => rfl, fun c hc => ?_⟩
  rcases List.mem_cons.mp hc with rfl | hc
  · exact hwell
  · rw [List.mem_singleton.mp hc]
    exact ⟨hwell.valid, hwell.probe, hwell.named, hwell.shallow, hwell.whole, hwell.below, hwell.distinct⟩

end DTFramework.Extn
