import DTFramework.Extn.Phandles

/-!
# What the table holds

After registering different blobs, every level of the table has one list for
each of them, newest first, with one entry for each node at that depth
(`table_exact`): unless the largest phandle of one is 2^31 or more, whose cache
cannot be made.

Results:

* `recursiveFindRoot_table`, `setBlobHandle_table`: what one call leaves in the table;
* `register_table`: what a run of calls leaves, and when one faults;
* `table_exact`: the runs that leave the table exact; `table_wraps` shows another.
-/
namespace DTFramework.Extn

open DTFramework.Fdt

/-- A name under the path of a node. -/
def childPath (path name : Str) : Str := if path = ROOT then path ++ name else path ++ SLASH :: name

/-- The nodes from a subnode of the node at `path` on, with their full paths. -/
def treeVisits (f : Blob) (path : Str) (depth : Nat) (sub_node_offset : Int) : List Visit :=
  if _h : sub_node_offset < 0 then []
  else
    ⟨sub_node_offset, depth + 1, childPath path (subName f sub_node_offset)⟩ ::
      (treeVisits f (childPath path (subName f sub_node_offset)) (depth + 1) (firstSubnode f sub_node_offset) ++
        treeVisits f path depth (nextSubnode f sub_node_offset))
termination_by subRoom sub_node_offset
decreasing_by
  · exact firstSubnode_room (Int.not_lt.mp _h)
  · exact nextSubnode_room (Int.not_lt.mp _h)

/-- The nodes of a tree below the root, in the order of the walk over all nodes. -/
abbrev treeNodes (f : Blob) : List Visit := treeVisits f ROOT 0 (firstSubnode f 0)

/-- The entry of a node. -/
def nodeEntry (blob : Nat) (v : Visit) : HashNode := ⟨⟨blob, v.offset⟩, Hash v.fullname⟩

/-- The entries of a blob on a level: its nodes at that depth, last first, and the
root on level 1. -/
def levelEntries (m : Mem) (blob : Nat) (level : Fin hash_table_level) : List HashNode :=
  (((treeNodes (blobAt m blob)).filter fun v => v.depth = level.val).map (nodeEntry blob)).reverse ++
    if level.val = 1 then [⟨⟨blob, 0⟩, Hash ROOT⟩] else []

/-- The id is one of the registry's. -/
def SetCall.InRange (e : LibEnv) (c : SetCall) : Prop := 0 ≤ c.blob_id ∧ c.blob_id < e.d.MAX_BLOB_ID

instance (e : LibEnv) (c : SetCall) : Decidable (c.InRange e) := inferInstanceAs (Decidable (_ ∧ _))

/-- The blobs of the calls with an id in range. -/
def accepted (e : LibEnv) (calls : List SetCall) : List Nat := (calls.filter fun c => c.InRange e).map SetCall.blob

/-- One list for each accepted blob on every level, with its nodes there. -/
def TableHolds (e : LibEnv) (calls : List SetCall) (s : LibState) : Prop :=
  ∀ level, s.phead_hash_node_table level = (accepted e calls).reverse.map fun b => ⟨b, levelEntries e.m b level⟩

/-- A blob that is accepted, no deeper than the table, whose nodes have names and
full paths shorter than the buffer. -/
structure Shaped (e : LibEnv) (c : SetCall) : Prop where
  valid : checkForValidBlob e.d e.m c.blob c.bsize = FDT_ERR_QC_NOERROR
  probe : 0 ≤ roProbe (blobAt e.m c.blob)
  named : ∀ n ∈ scan (blobAt e.m c.blob) 0 0, Extn.named (blobAt e.m c.blob) n.1 = true
  shallow : ∀ n ∈ scan (blobAt e.m c.blob) 0 0, n.2 < hash_table_level
  short : ∀ v ∈ treeNodes (blobAt e.m c.blob), v.fullname.length < PATH_SIZE

theorem fullName_short {path name : Str} (h : (childPath path name).length < PATH_SIZE) :
    fullName path name = childPath path name := by
  have heq : (if path ≠ [SLASH] then path ++ SLASH :: name else path ++ name) = childPath path name := by
    unfold childPath
    by_cases hp : path = ROOT
    · rw [if_neg (not_not.mpr hp), if_pos hp]
    · rw [if_pos hp, if_neg hp]
  unfold fullName
  rw [heq]
  exact List.take_of_length_le (by omega)

/-- Short paths are not cut. -/
theorem pathVisits_tree {f : Blob} {path : Str} {depth : Nat} {sub_node_offset : Int}
    (h : ∀ v ∈ treeVisits f path depth sub_node_offset, v.fullname.length < PATH_SIZE) :
    pathVisits f path depth sub_node_offset = treeVisits f path depth sub_node_offset := by
  fun_induction treeVisits f path depth sub_node_offset with
  | case1 path depth sub hneg => rw [pathVisits, dif_pos hneg]
  | case2 path depth sub hneg ih1 ih2 =>
    have hfull := fullName_short (h _ List.mem_cons_self)
    rw [pathVisits, dif_neg hneg]
    simp only [hfull]
    rw [ih1 fun v hv => h v (List.mem_cons_of_mem _ (List.mem_append_left _ hv)),
      ih2 fun v hv => h v (List.mem_cons_of_mem _ (List.mem_append_right _ hv))]

/-! ## What one call enters -/

section
variable {e : LibEnv} {blob : Nat} {s s' : LibState}

theorem fillPhandle_frame {phandle_value o : Int} (h : fillPhandle s phandle_value o = .ok s') :
    s'.phead_hash_node_table = s.phead_hash_node_table ∧
      s'.phandle_cache.map PhandleCache.blob = s.phandle_cache.map PhandleCache.blob := by
  unfold fillPhandle at h
  split at h
  · split at h
    · cases h
    · rename_i hcache
      split at h
      · rw [← Except.ok.inj h, hcache]
        exact ⟨rfl, rfl⟩
      · rw [← Except.ok.inj h]
        exact ⟨rfl, rfl⟩
  · rw [← Except.ok.inj h]
    exact ⟨rfl, rfl⟩

/-- A node that is made is in its blob's list on its level. -/
theorem enterNode_table {o : Int} {depth : Nat} {fullname : Str} (hblob : blob ≠ 0) (h0 : 0 ≤ o)
    (h : enterNode e blob o depth fullname s = .ok (true, s')) :
    s'.phandle_cache.map PhandleCache.blob = s.phandle_cache.map PhandleCache.blob ∧
    ∃ hdepth : depth < hash_table_level,
      s'.phead_hash_node_table = Function.update s.phead_hash_node_table ⟨depth, hdepth⟩
        (insertUnder ⟨⟨blob, o⟩, Hash fullname⟩ (s.phead_hash_node_table ⟨depth, hdepth⟩)) := by
  unfold enterNode at h
  obtain ⟨s1, hfill, h⟩ := except_bind_ok h
  obtain ⟨htable, hblobs⟩ := fillPhandle_frame hfill
  obtain ⟨⟨p, s2⟩, hadd, h⟩ := except_bind_ok h
  obtain ⟨hmade, rfl⟩ := Prod.mk.inj (Except.ok.inj h)
  unfold addHash at hadd
  rw [if_neg (not_or.mpr ⟨Int.not_lt.mpr h0, hblob⟩)] at hadd
  split at hadd
  · cases hadd
    cases hmade
  obtain ⟨s3, hnode, hadd⟩ := except_bind_ok hadd
  cases hadd
  unfold addHashNode at hnode
  split at hnode
  · rename_i hdepth
    rw [← Except.ok.inj hnode]
    refine ⟨hblobs, hdepth, ?_⟩
    rw [← htable]
    rfl
  · cases hnode

/-- The list of a blob at the head of every level. -/
def Heads (blob : Nat) (heads : Fin hash_table_level → List HashNode) (rest : Fin hash_table_level → List BlobListNode)
    (s : LibState) : Prop := ∀ level, s.phead_hash_node_table level = ⟨blob, heads level⟩ :: rest level

theorem heads_update {heads : Fin hash_table_level → List HashNode} {rest : Fin hash_table_level → List BlobListNode}
    {level : Fin hash_table_level} {p : HashNode} (hs : Heads blob heads rest s) (hp : p.node.blob = blob)
    (h : s'.phead_hash_node_table = Function.update s.phead_hash_node_table level
    (insertUnder p (s.phead_hash_node_table level))) :
    Heads blob (Function.update heads level (p :: heads level)) rest s' := by
  intro l
  rw [h]
  by_cases hl : l = level
  · subst hl
    rw [Function.update_self, Function.update_self, hs l]
    unfold insertUnder
    rw [if_pos hp]
  · rw [Function.update_of_ne hl, Function.update_of_ne hl, hs l]

/-- The nodes of a list are entered last first. -/
theorem enterAll_table {code : Int} (hcode : code ≠ FDT_ERR_QC_NOERROR) (hblob : blob ≠ 0) {l : List Visit}
    (h0 : ∀ v ∈ l, 0 ≤ v.offset) {heads : Fin hash_table_level → List HashNode}
    {rest : Fin hash_table_level → List BlobListNode} (hs : Heads blob heads rest s)
    (h : enterAll (enterNode e blob) code l s = .ok (FDT_ERR_QC_NOERROR, s')) :
    s'.phandle_cache.map PhandleCache.blob = s.phandle_cache.map PhandleCache.blob ∧
      Heads blob (fun level => ((l.filter fun v => v.depth = level.val).map (nodeEntry blob)).reverse ++ heads level)
          rest s' := by
  induction l generalizing s heads with
  | nil =>
    cases h
    exact ⟨rfl, hs⟩
  | cons v l ih =>
    rw [enterAll_cons] at h
    obtain ⟨⟨made, s1⟩, hentered, h⟩ := except_bind_ok h
    cases made with
    | false => exact absurd (Prod.mk.inj (Except.ok.inj h)).1 hcode
    | true =>
      obtain ⟨hblobs, hdepth, htable⟩ := enterNode_table hblob (h0 v List.mem_cons_self) hentered
      obtain ⟨hblobs', hheads⟩ := ih (fun w hw => h0 w (List.mem_cons_of_mem _ hw)) (heads_update hs rfl htable) h
      refine ⟨hblobs'.trans hblobs, fun level => ?_⟩
      rw [hheads level]
      refine congrArg (fun entries => BlobListNode.mk blob entries :: rest level) ?_
      beta_reduce
      by_cases hl : level = ⟨v.depth, hdepth⟩
      · subst hl
        rw [Function.update_self, List.filter_cons_of_pos (by simp)]
        simp [nodeEntry]
      · have hne : v.depth ≠ level.val := fun h => hl (Fin.ext h.symm)
        rw [Function.update_of_ne hl, List.filter_cons_of_neg (by simpa using hne)]

/-- With all the memory every level gets an empty list for the blob. -/
theorem initLevels_heads (hnever : ∀ n, e.malloc_fails n = false) (blob i : Nat) (s : LibState)
    (level : Fin hash_table_level) :
    (initLevels e blob i s).2.phead_hash_node_table level =
      if i ≤ level.val then ⟨blob, []⟩ :: s.phead_hash_node_table level else s.phead_hash_node_table level := by
  fun_induction initLevels e blob i s with
  | case1 i s h hfails =>
    unfold dtbMalloc at hfails
    rw [hnever] at hfails
    cases hfails
  | case2 i s h _ ih =>
    rw [ih]
    unfold LibState.setLevel dtbMalloc
    by_cases hi : level.val = i
    · have hlevel : level = ⟨i, h⟩ := Fin.ext hi
      rw [if_neg (by omega), if_pos (by omega), hlevel]
      exact Function.update_self _ _ _
    · have hlevel : level ≠ ⟨i, h⟩ := fun h => hi (congrArg Fin.val h)
      simp only [Function.update_of_ne hlevel]
      by_cases hlt : i ≤ level.val
      · rw [if_pos hlt, if_pos (by omega)]
      · rw [if_neg hlt, if_neg (by omega)]
  | case3 i s h => rw [if_neg (by have := level.isLt; omega)]

/-- The root is entered on level 1. -/
theorem initRoot_heads {p : Option HashNode} (hnever : ∀ n, e.malloc_fails n = false)
    (hroot : pathOffset (blobAt e.m blob) ROOT = 0) (h : initRoot e blob ROOT s = .ok (p, s')) :
    s'.phandle_cache = s.phandle_cache ∧
      Heads blob (fun level => if level.val = 1 then [⟨⟨blob, 0⟩, Hash ROOT⟩] else []) s.phead_hash_node_table s' := by
  have hcache := initLevels_cache e blob 0 s
  have hlevels := initLevels_heads hnever blob 0 s
  have hmade := initLevels_never hnever blob 0 s
  unfold initRoot at h
  generalize initLevels e blob 0 s = lists at h hcache hlevels hmade
  rw [hroot] at h
  simp only [hmade, Bool.not_true, Bool.false_eq_true, if_false] at h
  rw [if_pos ⟨Int.le_refl 0, rfl⟩] at h
  unfold dtbMalloc at h
  simp only [hnever, Bool.false_eq_true, if_false] at h
  obtain ⟨s2, hadd, h⟩ := except_bind_ok h
  cases h
  unfold addHashNode at hadd
  rw [dif_pos (by decide)] at hadd
  rw [← Except.ok.inj hadd]
  have hheads : Heads blob (fun _ => []) s.phead_hash_node_table { lists.2 with mallocs := lists.2.mallocs + 1 } :=
    fun level => (hlevels level).trans (if_pos (Nat.zero_le _))
  refine ⟨hcache, fun level => ?_⟩
  rw [heads_update hheads rfl rfl level]
  refine congrArg (fun entries => BlobListNode.mk blob entries :: s.phead_hash_node_table level) ?_
  beta_reduce
  by_cases hl : level.val = 1
  · have hlevel : level = ⟨1, by decide⟩ := Fin.ext hl
    rw [if_pos hl, hlevel, Function.update_self]
  · have hlevel : level ≠ ⟨1, by decide⟩ := fun h => hl (congrArg Fin.val h)
    rw [if_neg hl, Function.update_of_ne hlevel]

theorem pathOffset_zero {f : Blob} (h : 0 ≤ roProbe f) : pathOffset f ROOT = 0 := by
  rw [pathOffset_slash]
  unfold absPathOffset
  rw [if_neg (Int.not_lt.mpr h), if_neg (by decide), pathWalk]
  rfl

/-- The table after a tree has been entered. -/
theorem recursiveFindRoot_table {c : SetCall} (hshaped : Shaped e c) (hnever : ∀ n, e.malloc_fails n = false)
    (hcache : s.phandle_cache = [] → maxPhandle (blobAt e.m c.blob) = 0) :
    ∃ s', recursiveFindRoot e c.blob ROOT s = .ok (FDT_ERR_QC_NOERROR, s') ∧
      s'.phandle_cache.map PhandleCache.blob = s.phandle_cache.map PhandleCache.blob ∧
        ∀ level, s'.phead_hash_node_table level =
            ⟨c.blob, levelEntries e.m c.blob level⟩ :: s.phead_hash_node_table level := by
  have hroot := pathOffset_zero hshaped.probe
  have hblob := valid_ne_null hshaped.valid
  have htree := pathVisits_tree hshaped.short
  obtain ⟨p, s1, hinit, hkept, hoffset, hmade⟩ := initRoot_ok e c.blob s
  obtain ⟨root, rfl⟩ := Option.ne_none_iff_exists'.mp (hmade hnever (Int.le_of_eq hroot.symm))
  obtain ⟨-, hheads⟩ := initRoot_heads hnever hroot hinit
  have hfits (v : Visit) (hv : v ∈ pathVisits (blobAt e.m c.blob) ROOT 0 (firstSubnode (blobAt e.m c.blob) 0)) :
      v.depth < hash_table_level := hshaped.shallow (v.offset, v.depth) (pathVisits_scan hv)
  obtain ⟨s', hentered⟩ := enterAll_made e.d.FDT_ERR_QC_MEMALLOC hblob hnever (pathVisits_nonneg _ _ _ _) hfits
    (fun hnil => visits_without_phandle (hcache (hkept.symm.trans hnil)))
  obtain ⟨hblobs, htable⟩ := enterAll_table (memalloc_ne e.d) hblob (pathVisits_nonneg _ _ _ _) hheads hentered
  refine ⟨s', ?_, hblobs.trans (congrArg _ hkept), fun level => ?_⟩
  · unfold recursiveFindRoot
    rw [if_neg (by decide), hinit]
    show recursiveFindSubnode e c.blob ROOT 0 (firstSubnode (blobAt e.m c.blob) root.node.offset) s1 = _
    rw [(hoffset root rfl).1, hroot, recursiveFindSubnode, visitSubnodes_eq (memalloc_ne e.d)]
    exact hentered
  · rw [htable level, htree]
    rfl

/-- A blob that is new is entered, or its cache cannot be made. -/
theorem creatDtbHashTable_table {c : SetCall} (hshaped : Shaped e c) (henable : e.ENABLE_HASH_FOR_DTB = true)
    (hnever : ∀ n, e.malloc_fails n = false) (hfresh : ¬InTable s c.blob)
    (hany : s.phandle_cache.any (fun c' => c'.blob = c.blob) = false) :
    (maxPhandle (blobAt e.m c.blob) + 1 < 0 ∧ creatDtbHashTable e c.blob s = .error .cacheArray) ∨
      0 ≤ maxPhandle (blobAt e.m c.blob) + 1 ∧ ∃ s', creatDtbHashTable e c.blob s = .ok (FDT_ERR_QC_NOERROR, s') ∧
        (∀ c' ∈ s'.phandle_cache, c'.blob = c.blob ∨ c'.blob ∈ s.phandle_cache.map PhandleCache.blob) ∧
          ∀ level, s'.phead_hash_node_table level =
              ⟨c.blob, levelEntries e.m c.blob level⟩ :: s.phead_hash_node_table level := by
  have hmerge : isMergeDtb s c.blob = false := Bool.eq_false_iff.mpr fun h => hfresh (isMergeDtb_iff.mp h)
  rw [creatDtbHashTable_eq henable hmerge]
  rcases allocCache_never hnever c.blob s with ⟨s1, halloc⟩ | ⟨-, hwraps⟩
  · obtain ⟨htable, hnew⟩ := allocCache_new hany halloc
    obtain ⟨s', hmade, hblobs, hlevels⟩ := recursiveFindRoot_table hshaped hnever (allocCache_empty halloc)
    refine Or.inr ⟨Int.not_lt.mp fun hwraps => allocCache_wraps hany hwraps halloc, s', ?_, fun c' hc' => ?_,
      fun level => ?_⟩
    · rw [halloc]
      exact hmade
    · have hmem := List.mem_map_of_mem (f := PhandleCache.blob) hc'
      rw [hblobs] at hmem
      rcases hnew with ⟨hcache, -⟩ | ⟨n, hcache⟩
      · rw [hcache] at hmem
        exact Or.inr hmem
      · rw [hcache] at hmem
        exact List.mem_cons.mp hmem
    · rw [hlevels level, htable]
  · refine Or.inl ⟨hwraps, ?_⟩
    have hne : maxPhandle (blobAt e.m c.blob) ≠ 0 := by omega
    have halloc : allocPhandleToNodeCacheSpace e c.blob s = .error .cacheArray := by
      unfold allocPhandleToNodeCacheSpace dtbMalloc
      simp only [hany, hnever, Bool.false_eq_true, if_false, if_neg hne, if_pos hwraps]
    rw [halloc]
    rfl

end

/-! ## Runs -/

/-- After these calls: the table, and caches of registered blobs only. -/
structure TableInv (e : LibEnv) (calls : List SetCall) (s : LibState) : Prop where
  table : TableHolds e calls s
  caches : ∀ c ∈ s.phandle_cache, c.blob ∈ calls.map SetCall.blob

section
variable {e : LibEnv} {s : LibState}

theorem accepted_mem {calls : List SetCall} {b : Nat} (h : b ∈ accepted e calls) : b ∈ calls.map SetCall.blob := by
  obtain ⟨c, hc, rfl⟩ := List.mem_map.mp h
  exact List.mem_map_of_mem (List.mem_filter.mp hc).1

theorem TableInv.fresh {calls : List SetCall} (h : TableInv e calls s) {b : Nat} (hb : b ∉ calls.map SetCall.blob) :
    ¬InTable s b ∧ s.phandle_cache.any (fun c => c.blob = b) = false := by
  refine ⟨?_, ?_⟩
  · rintro ⟨level, l, hl, rfl⟩
    rw [h.table level] at hl
    obtain ⟨b, hb', rfl⟩ := List.mem_map.mp hl
    exact hb (accepted_mem (List.mem_reverse.mp hb'))
  · rw [List.any_eq_false]
    intro c hc heq
    exact hb (of_decide_eq_true heq ▸ h.caches c hc)

/-- One call: nothing for an id out of range, a fault for a cache that cannot be
made, and else the blob's lists at the head of every level. -/
theorem setBlobHandle_table {calls : List SetCall} {c : SetCall} (hshaped : Shaped e c)
    (henable : e.ENABLE_HASH_FOR_DTB = true) (hnever : ∀ n, e.malloc_fails n = false) (hs : TableInv e calls s)
    (hnew : c.blob ∉ calls.map SetCall.blob) :
    (c.InRange e ∧ maxPhandle (blobAt e.m c.blob) + 1 < 0 ∧
      setBlobHandle e c.blob c.bsize c.blob_id s = .error .cacheArray) ∨
      (c.InRange e → 0 ≤ maxPhandle (blobAt e.m c.blob) + 1) ∧
        ∃ ret s', setBlobHandle e c.blob c.bsize c.blob_id s = .ok (ret, s') ∧ TableInv e (calls ++ [c]) s' := by
  have h0 := valid_ne_null hshaped.valid
  unfold setBlobHandle
  rw [if_neg h0]
  by_cases hrange : c.InRange e
  · have hid : ¬(c.blob_id < 0 ∨ (e.d.MAX_BLOB_ID : Int) ≤ c.blob_id) := by
      obtain ⟨h1, h2⟩ := hrange
      omega
    have haccepted : accepted e (calls ++ [c]) = accepted e calls ++ [c.blob] := by
      unfold accepted
      rw [List.filter_append, List.map_append, List.filter_cons_of_pos (by simpa using hrange)]
      rfl
    have hfits : LookupFits s c.blob SW_BOOT := ⟨by decide, Or.inl (by decide)⟩
    obtain ⟨status, node, s1, hget, hsame⟩ := getNodeHandle_returns henable h0 hfits
    rw [if_neg hid, if_pos hshaped.valid, hget]
    obtain ⟨hfresh, hany⟩ := hs.fresh hnew
    have hfresh1 : ¬InTable { s1 with dtb_blob := Function.update s1.dtb_blob c.blob_id c.blob } c.blob :=
      fun h => hfresh (inTable_congr hsame.phead_hash_node_table.symm h)
    have hany1 := hsame.phandle_cache.symm ▸ hany
    rcases creatDtbHashTable_table (s := { s1 with dtb_blob := Function.update s1.dtb_blob c.blob_id c.blob }) hshaped
      henable
      hnever hfresh1 hany1 with ⟨hwraps, hcreat⟩ | ⟨hmax, s', hcreat, hcaches, hlevels⟩
    · exact Or.inl ⟨hrange, hwraps, hcreat⟩
    · refine Or.inr ⟨fun _ => hmax, _, s', hcreat, fun level => ?_, fun c' hc' => ?_⟩
      · rw [hlevels level, haccepted, List.reverse_append, List.reverse_singleton, List.singleton_append,
          List.map_cons,
          ← hs.table level, ← hsame.phead_hash_node_table]
      · rw [List.map_append]
        rcases hcaches c' hc' with h | h
        · exact List.mem_append_right _ (List.mem_singleton.mpr h)
        · obtain ⟨c'', hc'', h⟩ := List.mem_map.mp h
          rw [← h]
          exact List.mem_append_left _ (hs.caches c'' (hsame.phandle_cache ▸ hc''))
  · have hid : c.blob_id < 0 ∨ (e.d.MAX_BLOB_ID : Int) ≤ c.blob_id := by
      unfold SetCall.InRange at hrange
      omega
    have haccepted : accepted e (calls ++ [c]) = accepted e calls := by
      unfold accepted
      rw [List.filter_append, List.filter_cons_of_neg (by simpa using hrange), List.filter_nil, List.append_nil]
    rw [if_pos hid]
    refine Or.inr ⟨fun h => absurd h hrange, _, s, rfl, fun level => ?_, fun c' hc' => ?_⟩
    · rw [haccepted]
      exact hs.table level
    · rw [List.map_append]
      exact List.mem_append_left _ (hs.caches c' hc')

/-- A run goes through exactly when every cache can be made. -/
theorem register_table (henable : e.ENABLE_HASH_FOR_DTB = true) (hnever : ∀ n, e.malloc_fails n = false)
    (calls : List SetCall) (hshaped : ∀ c ∈ calls, Shaped e c) {done : List SetCall} (hs : TableInv e done s)
    (hnew : ((done ++ calls).map SetCall.blob).Nodup) :
    ((∀ c ∈ calls, c.InRange e → 0 ≤ maxPhandle (blobAt e.m c.blob) + 1) →
      ∃ s', register e calls s = .ok s' ∧ TableInv e (done ++ calls) s') ∧
      ((∃ s', register e calls s = .ok s') → ∀ c ∈ calls, c.InRange e → 0 ≤ maxPhandle (blobAt e.m c.blob) + 1) := by
  induction calls generalizing done s with
  | nil => exact ⟨fun _ => ⟨s, rfl, by rw [List.append_nil]; exact hs⟩, fun _ c hc => (nomatch hc)⟩
  | cons c calls ih =>
    have hsplit : done ++ c :: calls = (done ++ [c]) ++ calls := by simp
    have hfresh : c.blob ∉ done.map SetCall.blob := by
      rw [List.map_append, List.map_cons] at hnew
      exact fun hmem => (List.nodup_append.mp hnew).2.2 _ hmem _ List.mem_cons_self rfl
    unfold register
    rcases setBlobHandle_table (hshaped c List.mem_cons_self) henable hnever hs hfresh with
      ⟨hrange, hwraps, hset⟩ | ⟨hmax, ret, s1, hset, hs1⟩
    · rw [hset]
      refine ⟨fun h => absurd (h c List.mem_cons_self hrange) (by omega), ?_⟩
      rintro ⟨s', hrun⟩
      cases hrun
    · rw [hset]
      obtain ⟨hgo, hback⟩ := ih (fun c' hc' => hshaped c' (List.mem_cons_of_mem _ hc')) hs1 (hsplit ▸ hnew)
      refine ⟨fun h => ?_, ?_⟩
      · rw [hsplit]
        exact hgo fun c' hc' => h c' (List.mem_cons_of_mem _ hc')
      · rintro hrun c' (_ | ⟨_, hc'⟩)
        · exact hmax
        · exact hback hrun c' hc'

end

/-- After every call of a sequence the table holds what it should. -/
def TableAlways (e : LibEnv) (calls : List SetCall) : Prop :=
  ∀ done, done <+: calls → ∃ s, register e done .init = .ok s ∧ TableHolds e done s

/-- The table is exact in a run of registrations of different blobs exactly when no
cache has a size that wraps. -/
theorem table_exact (e : LibEnv) (calls : List SetCall)
    (h : e.ENABLE_HASH_FOR_DTB = true ∧ (∀ n, e.malloc_fails n = false) ∧ (∀ c ∈ calls, Shaped e c) ∧
      (calls.map SetCall.blob).Nodup) :
    TableAlways e calls ↔ ∀ c ∈ calls, c.InRange e → 0 ≤ maxPhandle (blobAt e.m c.blob) + 1 := by
  obtain ⟨henable, hnever, hshaped, hnodup⟩ := h
  have hinit : TableInv e [] .init := ⟨fun _ => rfl, fun c hc => (nomatch hc)⟩
  constructor
  · intro halways
    obtain ⟨s, hrun, -⟩ := halways calls List.prefix_rfl
    exact (register_table henable hnever calls hshaped hinit hnodup).2 ⟨s, hrun⟩
  · rintro hmax done ⟨rest, rfl⟩
    have hdone : ((([] : List SetCall) ++ done).map SetCall.blob).Nodup := by
      rw [List.map_append] at hnodup
      exact (List.nodup_append.mp hnodup).1
    obtain ⟨s, hrun, hs⟩ := (register_table henable hnever done
      (fun c hc => hshaped c (List.mem_append_left _ hc)) hinit hdone).1
      fun c hc => hmax c (List.mem_append_left _ hc)
    exact ⟨s, hrun, hs.table⟩

/-- A tree with a phandle, and one with a phandle of 2^31. -/
def wrapEnv (high : UInt8) : LibEnv where
  d := Select.imageDefs
  ENABLE_HASH_FOR_DTB := true
  m := memOf 0x1000 (Select.baseBlob [(PHANDLE, [high, 0, 0, 5])] 6)
  malloc_fails := fun _ => false

theorem table_exact_phandle : TableAlways (wrapEnv 0) [⟨0x1000, 152, 0⟩] :=
  (table_exact (wrapEnv 0) _ ⟨rfl, fun _ => rfl, fun c hc => by
    rw [List.mem_singleton.mp hc]
    exact ⟨by decide +kernel, by decide +kernel, by decide +kernel, by decide +kernel,
      by decide +kernel⟩, by decide⟩).mpr
    (by decide +kernel)

/-- The cache of a tree whose phandle is above 2^31 is cleared beyond its end. -/
theorem table_wraps : ¬∀ (e : LibEnv) (calls : List SetCall), e.ENABLE_HASH_FOR_DTB = true →
    (∀ n, e.malloc_fails n = false) → (∀ c ∈ calls, Shaped e c) → (calls.map SetCall.blob).Nodup →
    TableAlways e calls := by
  intro h
  have hshaped : ∀ c ∈ [(⟨0x1000, 152, 0⟩ : SetCall)], Shaped (wrapEnv 0x80) c := by
    intro c hc
    rw [List.mem_singleton.mp hc]
    exact ⟨by decide +kernel, by decide +kernel, by decide +kernel, by decide +kernel, by decide +kernel⟩
  have hinit : TableInv (wrapEnv 0x80) [] .init := ⟨fun _ => rfl, fun c hc => (nomatch hc)⟩
  obtain ⟨s, hrun, -⟩ := h (wrapEnv 0x80) _ rfl (fun _ => rfl) hshaped (by decide) _ List.prefix_rfl
  have hmax := (register_table rfl (fun _ => rfl) _ hshaped hinit (by decide)).2 ⟨s, hrun⟩ _ List.mem_cons_self
    (by decide)
  exact absurd hmax (by decide +kernel)

end DTFramework.Extn
