import DTFramework.Extn.Register

/-!
# Inside the table and the path buffers

The table has ten levels and the path buffers 256 bytes. Neither a deep tree nor
a long path is checked against them: `bounds_exact` says which blobs and which
names stay inside.

Results:

* `build_deep`: with all the memory every node is entered, however deep it is;
* `bounds_exact`: the trees and the names that stay inside;
* `path_beyond_table`: a path with ten slashes does not.
-/
namespace DTFramework.Extn

open DTFramework.Fdt

/-- The call stays inside `phead_hash_node_table`, `parent_path` and `basename`. -/
def InBounds {α : Type} (x : Except HashFault α) : Prop := x ≠ .error .tableIndex ∧ x ≠ .error .pathBuffer

theorem inBounds_ok {α : Type} (a : α) : InBounds (.ok a) := ⟨nofun, nofun⟩

/-- The environment with other answers of the allocator. -/
def LibEnv.answers (e : LibEnv) (fails : Nat → Bool) : LibEnv := { e with malloc_fails := fails }

/-- The tree is not entered into the table, or it is no deeper than the table. -/
def BuildFits (e : LibEnv) (blob : Nat) (s : LibState) : Prop :=
  let f := blobAt e.m blob
  isMergeDtb s blob = true ∨ (s.phandle_cache.any (fun c => c.blob = blob) = false ∧ maxPhandle f + 1 < 0) ∨
    pathOffset f ROOT < 0 ∨ ∀ n ∈ scan f 0 0, n.2 < hash_table_level

/-- The path is no deeper than the table, and shorter than the buffers unless the
table has it. -/
def LookupFits (s : LibState) (blob : Nat) (name : Str) : Prop :=
  pathDepth name < hash_table_level ∧ (name.length < PATH_SIZE ∨ ∃ p, findNode s name blob = .ok (some p))

/-! ## A lookup -/

theorem findNode_deep {s : LibState} {name : Str} {blob : Nat} (h : ¬pathDepth name < hash_table_level) :
    findNode s name blob = .error .tableIndex := dif_neg h

theorem findNode_ok (s : LibState) (blob : Nat) {name : Str} (h : pathDepth name < hash_table_level) :
    ∃ p, findNode s name blob = .ok p := ⟨_, dif_pos h⟩

theorem pathDepth_dir (dir base : Str) : pathDepth dir ≤ pathDepth (dir ++ SLASH :: base) := by
  unfold pathDepth
  rw [List.count_append]
  exact Nat.le_add_right _ _

/-- The directory is no deeper than the path, or the root, and the rest no longer. -/
theorem dirname_bounds (path : Str) :
    pathDepth (dirname path).1 ≤ max 1 (pathDepth path) ∧ ∀ base ∈ (dirname path).2, base.length ≤ path.length := by
  fun_induction dirname path with
  | case1 => exact ⟨Nat.zero_le _, nofun⟩
  | case2 path base h =>
    obtain ⟨rfl, -⟩ := splitLast_eq h
    refine ⟨Nat.le_max_left _ _, fun b hb => ?_⟩
    by_cases hbase : base = []
    · rw [if_pos hbase] at hb
      cases hb
    · rw [if_neg hbase] at hb
      cases hb
      simp
  | case3 path base h hne =>
    obtain ⟨rfl, -⟩ := splitLast_eq h
    refine ⟨Nat.le_max_left _ _, fun b hb => ?_⟩
    cases hb
    simp
    omega
  | case4 path dir h1 h2 h ih =>
    obtain ⟨rfl, -⟩ := splitLast_eq h
    have hdir := (pathDepth_dir dir []).trans (Nat.le_max_right 1 _)
    exact ⟨ih.1.trans (Nat.max_le.mpr ⟨Nat.le_max_left _ _, hdir⟩), fun b hb => (ih.2 b hb).trans (by simp)⟩
  | case5 path dir base h h1 h2 h3 =>
    obtain ⟨rfl, -⟩ := splitLast_eq h
    refine ⟨(pathDepth_dir dir base).trans (Nat.le_max_right _ _), fun b hb => ?_⟩
    cases hb
    simp
    omega

/-- The name is split inside the buffers when it is shorter. -/
theorem splitName_bounds (name : Str) (s : LibState) :
    (PATH_SIZE ≤ name.length ∧ splitName name s = .error .pathBuffer) ∨
      (name.length < PATH_SIZE ∧ ∃ dir s', splitName name s = .ok (dir, s') ∧ pathDepth dir ≤ max 1 (pathDepth name) ∧
        s.SameTables s') := by
  unfold splitName
  split
  · exact Or.inl ⟨‹_›, rfl⟩
  rename_i hlen
  have hlen := Nat.lt_of_not_le hlen
  obtain ⟨hdepth, hbase⟩ := dirname_bounds name
  refine Or.inr ⟨hlen, ?_⟩
  generalize dirname name = r at hdepth hbase
  obtain ⟨dir, base⟩ := r
  cases base with
  | none => exact ⟨dir, s, rfl, hdepth, rfl, rfl, rfl⟩
  | some base =>
    have hfits : ¬PATH_SIZE ≤ base.length := Nat.not_le.mpr ((hbase base rfl).trans_lt hlen)
    exact ⟨dir, _, if_neg hfits, hdepth, rfl, rfl, rfl⟩

/-- A path that fits is answered, with the tables as they were. -/
theorem tableAnswer_returns {s : LibState} {blob : Nat} {name : Str} (e : LibEnv) (h : LookupFits s blob name) :
    ∃ status node s', tableAnswer e blob name s = .ok (status, node, s') ∧ s.SameTables s' := by
  obtain ⟨hdepth, hshort⟩ := h
  obtain ⟨p, hp⟩ := findNode_ok s blob hdepth
  unfold tableAnswer
  rw [hp]
  cases p with
  | some p => exact ⟨_, _, s, rfl, rfl, rfl, rfl⟩
  | none =>
    have hlen : name.length < PATH_SIZE := hshort.resolve_right fun ⟨q, hq⟩ => by cases hp.symm.trans hq
    rcases splitName_bounds name s with ⟨hlong, -⟩ | ⟨-, dir, s', hsplit, hdir, hsame⟩
    · exact absurd hlen (Nat.not_lt.mpr hlong)
    · have hlevel : pathDepth dir < hash_table_level := hdir.trans_lt (max_lt (by decide) hdepth)
      obtain ⟨q, hq⟩ := findNode_ok s' blob hlevel
      have hpath : ∃ status node s'', Except.ok (ε := HashFault) (pathAnswer e blob name s') =
        .ok (status, node, s'') ∧
          s.SameTables s'' := by
        unfold pathAnswer
        simp only
        split
        · exact ⟨_, _, s', rfl, hsame⟩
        · exact ⟨_, _, s', rfl, hsame⟩
      show ∃ status node s'', (splitName name s >>= _) = _ ∧ _
      rw [hsplit]
      show ∃ status node s'', (findNode s' dir blob >>= _) = _ ∧ _
      rw [hq]
      cases q with
      | none => exact hpath
      | some q =>
        by_cases hfound : 0 ≤ subnodeOffset (blobAt e.m q.node.blob) q.node.offset s'.basename
        · exact ⟨_, _, s', if_pos hfound, hsame⟩
        · obtain ⟨status, node, s'', hanswer, hsame⟩ := hpath
          exact ⟨status, node, s'', (if_neg hfound).trans hanswer, hsame⟩

theorem getNodeHandle_returns {s : LibState} {blob : Nat} {name : Str} {e : LibEnv}
    (henable : e.ENABLE_HASH_FOR_DTB = true)
    (hblob : blob ≠ 0) (h : LookupFits s blob name) :
    ∃ status node s', getNodeHandle e blob name s = .ok (status, node, s') ∧ s.SameTables s' := by
  unfold getNodeHandle
  rw [if_neg hblob]
  simp only [henable, if_true]
  exact tableAnswer_returns e h

theorem tableAnswer_bounds (e : LibEnv) (blob : Nat) (name : Str) (s : LibState) :
    InBounds (tableAnswer e blob name s) ↔ LookupFits s blob name := by
  refine ⟨fun h => ?_, fun h => ?_⟩
  · by_cases hdepth : pathDepth name < hash_table_level
    · refine ⟨hdepth, ?_⟩
      obtain ⟨p, hp⟩ := findNode_ok s blob hdepth
      cases p with
      | some p => exact Or.inr ⟨p, hp⟩
      | none =>
        rcases splitName_bounds name s with ⟨-, hsplit⟩ | ⟨hshort, -⟩
        · unfold tableAnswer at h
          rw [hp] at h
          have h : InBounds (splitName name s >>= _) := h
          rw [hsplit] at h
          exact absurd rfl h.2
        · exact Or.inl hshort
    · unfold tableAnswer at h
      rw [findNode_deep hdepth] at h
      exact absurd rfl h.1
  · obtain ⟨status, node, s', hanswer, -⟩ := tableAnswer_returns e h
    rw [hanswer]
    exact inBounds_ok _

/-! ## Building the table -/

section
variable {e : LibEnv} {blob : Nat}

/-- A phandle is entered when a cache was made for it. -/
theorem fillPhandle_cached {s : LibState} {phandle_value : Int} (offset : Int)
    (h : s.phandle_cache = [] → ¬0 < phandle_value) :
    ∃ s1, fillPhandle s phandle_value offset = .ok s1 ∧ (s1.phandle_cache = [] → s.phandle_cache = []) := by
  unfold fillPhandle
  split
  · rename_i hpos
    split
    · rename_i hnil
      exact absurd hpos (h hnil)
    · split
      · exact ⟨_, rfl, nofun⟩
      · exact ⟨s, rfl, id⟩
  · exact ⟨s, rfl, id⟩

/-- A node that is made is entered on its level. -/
theorem addHash_eq {s : LibState} {offset : Int} (hblob : blob ≠ 0) (h0 : 0 ≤ offset) (depth : Nat) (fullname : Str) :
    ∃ s2 p, s2.phandle_cache = s.phandle_cache ∧ addHash e offset blob fullname depth s =
      if e.malloc_fails s.mallocs then .ok (none, (dtbMalloc e s).2)
      else if depth < hash_table_level then .ok (some p, s2) else .error .tableIndex := by
  unfold addHash
  rw [if_neg (not_or.mpr ⟨Int.not_lt.mpr h0, hblob⟩)]
  by_cases hdepth : depth < hash_table_level
  · have hadd (p : HashNode) : addHashNode (dtbMalloc e s).2 p depth =
        .ok ((dtbMalloc e s).2.setLevel ⟨depth, hdepth⟩ (insertUnder p (s.phead_hash_node_table ⟨depth, hdepth⟩))) :=
          dif_pos hdepth
    refine ⟨(dtbMalloc e s).2.setLevel ⟨depth, hdepth⟩ (insertUnder ⟨⟨blob, offset⟩, Hash fullname⟩
      (s.phead_hash_node_table ⟨depth, hdepth⟩)), ⟨⟨blob, offset⟩, Hash fullname⟩, rfl, ?_⟩
    rw [hadd, if_pos hdepth]
    rfl
  · have hadd (p : HashNode) : addHashNode (dtbMalloc e s).2 p depth = .error .tableIndex := dif_neg hdepth
    refine ⟨s, ⟨⟨blob, offset⟩, Hash fullname⟩, rfl, ?_⟩
    rw [hadd, if_neg hdepth]
    rfl

/-- What entering a node comes to. -/
theorem enterNode_eq {s : LibState} {offset : Int} (hblob : blob ≠ 0) (h0 : 0 ≤ offset)
    (hcache : s.phandle_cache = [] → ¬0 < int32 (getPhandle (blobAt e.m blob) offset)) (depth : Nat) (fullname : Str) :
    ∃ n s1 s2, (s2.phandle_cache = [] → s.phandle_cache = []) ∧ enterNode e blob offset depth fullname s =
      if e.malloc_fails n then .ok (false, s1)
      else if depth < hash_table_level then .ok (true, s2) else .error .tableIndex := by
  obtain ⟨s1, hfill, hkept⟩ := fillPhandle_cached offset hcache
  obtain ⟨s2, p, hcache2, hadd⟩ := addHash_eq (e := e) (s := s1) hblob h0 depth fullname
  refine ⟨s1.mallocs, (dtbMalloc e s1).2, s2, fun h => hkept (hcache2.symm.trans h), ?_⟩
  unfold enterNode
  rw [hfill]
  show (addHash e offset blob fullname depth s1 >>= _) = _
  rw [hadd]
  cases e.malloc_fails s1.mallocs with
  | true => rfl
  | false =>
    by_cases hdepth : depth < hash_table_level
    · rw [if_pos hdepth, if_pos hdepth]
      rfl
    · rw [if_neg hdepth, if_neg hdepth]
      rfl

theorem enterAll_inside {code : Int} {l : List Visit} (hblob : blob ≠ 0) (h0 : ∀ v ∈ l, 0 ≤ v.offset) {s : LibState}
    (hcache : s.phandle_cache = [] → ∀ v ∈ l, ¬0 < int32 (getPhandle (blobAt e.m blob) v.offset))
    (h : ∀ v ∈ l, v.depth < hash_table_level) : InBounds (enterAll (enterNode e blob) code l s) := by
  induction l generalizing s with
  | nil => exact inBounds_ok _
  | cons v l ih =>
    obtain ⟨n, s1, s2, hkept, hv⟩ := enterNode_eq hblob (h0 v List.mem_cons_self)
      (fun hnil => hcache hnil v List.mem_cons_self) v.depth v.fullname
    rw [enterAll_cons, hv]
    split
    · exact inBounds_ok _
    · rw [if_pos (h v List.mem_cons_self)]
      exact ih (fun w hw => h0 w (List.mem_cons_of_mem _ hw))
        (fun hnil w hw => hcache (hkept hnil) w (List.mem_cons_of_mem _ hw)) fun w hw =>
          h w (List.mem_cons_of_mem _ hw)

theorem enterAll_deep {code : Int} {l : List Visit} (hblob : blob ≠ 0) (hnever : ∀ n, e.malloc_fails n = false)
    (h0 : ∀ v ∈ l, 0 ≤ v.offset) {s : LibState}
    (hcache : s.phandle_cache = [] → ∀ v ∈ l, ¬0 < int32 (getPhandle (blobAt e.m blob) v.offset))
    (h : InBounds (enterAll (enterNode e blob) code l s)) : ∀ v ∈ l, v.depth < hash_table_level := by
  induction l generalizing s with
  | nil => exact fun v hv => (nomatch hv)
  | cons v l ih =>
    obtain ⟨n, s1, s2, hkept, hv⟩ := enterNode_eq hblob (h0 v List.mem_cons_self)
      (fun hnil => hcache hnil v List.mem_cons_self) v.depth v.fullname
    rw [enterAll_cons, hv, hnever, if_neg (by simp)] at h
    by_cases hdepth : v.depth < hash_table_level
    · rw [if_pos hdepth] at h
      have hrest := ih (fun w hw => h0 w (List.mem_cons_of_mem _ hw))
        (fun hnil w hw => hcache (hkept hnil) w (List.mem_cons_of_mem _ hw)) h
      rintro w (_ | ⟨_, hw⟩)
      · exact hdepth
      · exact hrest w hw
    · rw [if_neg hdepth] at h
      exact absurd rfl h.1

/-! ## Around the recursion -/

theorem allocCache_inBounds (e : LibEnv) (blob : Nat) (s : LibState) :
    InBounds (allocPhandleToNodeCacheSpace e blob s) := by
  unfold allocPhandleToNodeCacheSpace
  simp only
  repeat' split
  all_goals exact ⟨nofun, nofun⟩

/-- No cache is only where no node has a phandle. -/
theorem allocCache_empty {s s1 : LibState} (h : allocPhandleToNodeCacheSpace e blob s = .ok (0, s1))
    (hnil : s1.phandle_cache = []) : maxPhandle (blobAt e.m blob) = 0 := by
  unfold allocPhandleToNodeCacheSpace at h
  simp only at h
  split at h
  · rename_i hany
    cases h
    rw [hnil] at hany
    cases hany
  split at h
  · rename_i hmax
    exact hmax
  split at h
  · cases h
  split at h
  · cases h
  split at h
  · cases h
  · rw [← (Prod.mk.inj (Except.ok.inj h)).2] at hnil
    exact absurd hnil (List.cons_ne_nil _ _)

/-- With all the memory the cache is there, unless its size wraps. -/
theorem allocCache_never (hnever : ∀ n, e.malloc_fails n = false) (blob : Nat) (s : LibState) :
    (∃ s1, allocPhandleToNodeCacheSpace e blob s = .ok (0, s1)) ∨
      s.phandle_cache.any (fun c => c.blob = blob) = false ∧ maxPhandle (blobAt e.m blob) + 1 < 0 := by
  unfold allocPhandleToNodeCacheSpace dtbMalloc
  simp only [hnever, Bool.false_eq_true, if_false]
  split
  · exact Or.inl ⟨_, rfl⟩
  rename_i hany
  split
  · exact Or.inl ⟨_, rfl⟩
  split
  · exact Or.inr ⟨Bool.not_eq_true _ ▸ hany, ‹_›⟩
  · exact Or.inl ⟨_, rfl⟩

theorem allocCache_wraps {s s1 : LibState} (hany : s.phandle_cache.any (fun c => c.blob = blob) = false)
    (hmax : maxPhandle (blobAt e.m blob) + 1 < 0) : allocPhandleToNodeCacheSpace e blob s ≠ .ok (0, s1) := by
  intro h
  have hne : maxPhandle (blobAt e.m blob) ≠ 0 := by omega
  unfold allocPhandleToNodeCacheSpace at h
  simp only [hany, Bool.false_eq_true, if_false, if_neg hne, if_pos hmax] at h
  split at h
  · cases h
  split at h
  · cases h
  · cases h

theorem initLevels_cache (e : LibEnv) (blob i : Nat) (s : LibState) :
    (initLevels e blob i s).2.phandle_cache = s.phandle_cache := by
  fun_induction initLevels e blob i s with
  | case1 => rfl
  | case2 _ _ _ _ ih => exact ih
  | case3 => rfl

theorem initLevels_never (hnever : ∀ n, e.malloc_fails n = false) (blob i : Nat) (s : LibState) :
    (initLevels e blob i s).1 = true := by
  fun_induction initLevels e blob i s with
  | case1 i s h hfails =>
    unfold dtbMalloc at hfails
    rw [hnever] at hfails
    cases hfails
  | case2 _ _ _ _ ih => exact ih
  | case3 => rfl

/-- The root is made on level 1. -/
theorem initRoot_ok (e : LibEnv) (blob : Nat) (s : LibState) : ∃ p s2, initRoot e blob ROOT s = .ok (p, s2) ∧
    s2.phandle_cache = s.phandle_cache ∧ (∀ q, p = some q → q.node.offset = pathOffset (blobAt e.m blob) ROOT ∧
      0 ≤ pathOffset (blobAt e.m blob) ROOT) ∧
      ((∀ n, e.malloc_fails n = false) → 0 ≤ pathOffset (blobAt e.m blob) ROOT → p ≠ none) := by
  have hcache := initLevels_cache e blob 0 s
  have hnever (h : ∀ n, e.malloc_fails n = false) := initLevels_never h blob 0 s
  unfold initRoot
  generalize initLevels e blob 0 s = lists at hcache hnever
  simp only
  split
  · rename_i hlists
    exact ⟨none, _, rfl, hcache, nofun, fun h => absurd (hnever h) (by simpa using hlists)⟩
  split
  · rename_i hoffset
    split
    · rename_i hfails
      refine ⟨none, _, rfl, hcache, nofun, fun h => ?_⟩
      unfold dtbMalloc at hfails
      rw [h] at hfails
      cases hfails
    · refine ⟨some ⟨⟨blob, pathOffset (blobAt e.m blob) ROOT⟩, Hash ROOT⟩, _, rfl, hcache, ?_, fun _ _ => nofun⟩
      intro q hq
      rw [← Option.some.inj hq]
      exact ⟨rfl, hoffset.1⟩
  · rename_i hoffset
    exact ⟨none, _, rfl, hcache, nofun, fun _ h0 => absurd ⟨h0, rfl⟩ hoffset⟩

theorem pathOffset_root (f : Blob) : pathOffset f ROOT < 0 ∨ pathOffset f ROOT = 0 := by
  rw [pathOffset_slash]
  unfold absPathOffset
  split
  · exact Or.inl ‹_›
  · right
    rw [if_neg (by decide), pathWalk]
    rfl

theorem getCell_lt {f : Blob} {o : Int} {name : Str} {v : Nat} (h : getCell f o name = some v) : v < 0x100000000 := by
  unfold getCell at h
  split at h
  · cases h
  · split at h
    · rw [← Option.some.inj h]
      exact be32_lt _ _
    · cases h

theorem getPhandle_lt {f : Blob} (o : Int) : getPhandle f o < 0x100000000 := by
  unfold getPhandle
  split
  · exact getCell_lt ‹_›
  · split
    · exact getCell_lt ‹_›
    · decide

/-- Where the largest phandle is 0, no node has one. -/
theorem maxPhandle_zero {f : Blob} (h : maxPhandle f = 0) {o : Int} {d : Nat} (hv : (o, d) ∈ scan f 0 0) :
    ¬0 < int32 (getPhandle f o) := by
  unfold maxPhandle getMaxPhandle at h
  cases hmax : findMaxPhandle f with
  | error err =>
    rw [hmax] at h
    simp only [MAX_PHANDLE_CACHE_SIZE, int32] at h
    omega
  | ok r =>
    obtain ⟨-, hle, hr⟩ := maxPhandleScan_ok hmax
    rw [hmax] at h
    have hv := hle o (scan_mem_nodes hv)
    have hr : r < 0x100000000 := by
      rcases hr with rfl | ⟨n, -, rfl⟩
      · decide
      · exact getPhandle_lt n
    simp only [MAX_PHANDLE_CACHE_SIZE, int32] at h ⊢
    omega

theorem visits_without_phandle {f : Blob} {name : Str} (h : maxPhandle f = 0) :
    ∀ v ∈ pathVisits f name 0 (firstSubnode f 0), ¬0 < int32 (getPhandle f v.offset) :=
  fun _ hv => maxPhandle_zero h (pathVisits_scan hv)

/-! ## Both -/

theorem creatDtbHashTable_eq {s : LibState} (henable : e.ENABLE_HASH_FOR_DTB = true)
    (hnew : isMergeDtb s blob = false) :
    creatDtbHashTable e blob s = (do
      let (ret_value, s) ← allocPhandleToNodeCacheSpace e blob s
      if ret_value ≠ 0 then return (-1, s) else recursiveFindRoot e blob ROOT s) := by
  unfold creatDtbHashTable
  rw [henable, hnew]
  rfl

theorem memalloc_ne (d : DTBDefs) : d.FDT_ERR_QC_MEMALLOC ≠ FDT_ERR_QC_NOERROR := by
  have hmem := d.extends_std d.FDT_ERR_QC_MEMALLOC (by simp)
  simp only [FDT_ERR_MAX, FDT_ERR_QC_NOERROR] at hmem ⊢
  omega

/-- The nodes below the root are entered in the order of the walk. -/
theorem recursiveFindRoot_eq (e : LibEnv) (blob : Nat) (s : LibState) : ∃ p s2, s2.phandle_cache = s.phandle_cache ∧
    (p = true → pathOffset (blobAt e.m blob) ROOT = 0) ∧
      ((∀ n, e.malloc_fails n = false) → 0 ≤ pathOffset (blobAt e.m blob) ROOT → p = true) ∧
        recursiveFindRoot e blob ROOT s =
          if p then enterAll (enterNode e blob) e.d.FDT_ERR_QC_MEMALLOC
            (pathVisits (blobAt e.m blob) ROOT 0 (firstSubnode (blobAt e.m blob) 0)) s2
          else .ok (e.d.FDT_ERR_QC_MEMALLOC, s2) := by
  obtain ⟨p, s2, hinit, hcache, hoffset, hnever⟩ := initRoot_ok e blob s
  unfold recursiveFindRoot
  rw [if_neg (by decide), hinit]
  cases p with
  | none => exact ⟨false, s2, hcache, fun h => absurd h (by decide), fun h h0 => absurd rfl (hnever h h0), rfl⟩
  | some q =>
    obtain ⟨hq, h0⟩ := hoffset q rfl
    have hzero : pathOffset (blobAt e.m blob) ROOT = 0 := (pathOffset_root _).resolve_left (Int.not_lt.mpr h0)
    refine ⟨true, s2, hcache, fun _ => hzero, fun _ _ => rfl, ?_⟩
    show recursiveFindSubnode e blob ROOT 0 (firstSubnode (blobAt e.m blob) q.node.offset) s2 = _
    rw [hq, hzero, recursiveFindSubnode, visitSubnodes_eq (memalloc_ne e.d), if_pos rfl]

theorem visits_scan (f : Blob) : (∀ n ∈ scan f 0 0, n.2 < hash_table_level) ↔
    ∀ v ∈ pathVisits f ROOT 0 (firstSubnode f 0), v.depth < hash_table_level := by
  rw [← pathVisits_root f ROOT]
  simp only [List.forall_mem_map]

theorem pathVisits_nonneg (f : Blob) (name : Str) (depth : Nat) (sub_node_offset : Int) :
    ∀ v ∈ pathVisits f name depth sub_node_offset, 0 ≤ v.offset := by
  fun_induction pathVisits f name depth sub_node_offset with
  | case1 => exact fun v hv => absurd hv List.not_mem_nil
  | case2 name depth sub h fullname ih1 ih2 =>
    rintro v (_ | ⟨_, hv⟩)
    · exact Int.not_lt.mp h
    · rcases List.mem_append.mp hv with hv | hv
      · exact ih1 v hv
      · exact ih2 v hv

/-- The nodes that are entered have no phandle where no cache was made. -/
theorem entered_cached {s s1 : LibState} (halloc : allocPhandleToNodeCacheSpace e blob s = .ok (0, s1))
    (hnil : s1.phandle_cache = []) : ∀ v ∈ pathVisits (blobAt e.m blob) ROOT 0 (firstSubnode (blobAt e.m blob) 0),
      ¬0 < int32 (getPhandle (blobAt e.m blob) v.offset) :=
  visits_without_phandle (allocCache_empty halloc hnil)

theorem build_inside {s : LibState} (henable : e.ENABLE_HASH_FOR_DTB = true) (hblob : blob ≠ 0)
    (h : BuildFits e blob s) :
    InBounds (creatDtbHashTable e blob s) := by
  cases hnew : isMergeDtb s blob with
  | true =>
    unfold creatDtbHashTable
    rw [henable, hnew]
    exact inBounds_ok _
  | false =>
    rw [creatDtbHashTable_eq henable hnew]
    have hbounds := allocCache_inBounds e blob s
    rcases halloc : allocPhandleToNodeCacheSpace e blob s with fault | ⟨ret_value, s1⟩
    · rw [halloc] at hbounds
      exact ⟨fun hc => hbounds.1 (congrArg Except.error (Except.error.inj hc)),
        fun hc => hbounds.2 (congrArg Except.error (Except.error.inj hc))⟩
    · show InBounds (if ret_value ≠ 0 then pure (-1, s1) else recursiveFindRoot e blob ROOT s1)
      split
      · exact inBounds_ok _
      rename_i hret
      rw [not_not] at hret
      subst hret
      obtain ⟨p, s2, hcache, hzero, -, hroot⟩ := recursiveFindRoot_eq e blob s1
      rw [hroot]
      cases p with
      | false => exact inBounds_ok _
      | true =>
        rw [if_pos rfl]
        refine enterAll_inside hblob (pathVisits_nonneg _ _ _ _)
          (fun hnil => entered_cached halloc (hcache.symm.trans hnil)) ?_
        rw [← visits_scan]
        rcases h with h | ⟨hany, hmax⟩ | h | h
        · exact absurd (hnew.symm.trans h) (by decide)
        · exact absurd halloc (allocCache_wraps hany hmax)
        · exact absurd (hzero rfl) (Int.ne_of_lt h)
        · exact h

/-- With all the memory every node is entered. -/
theorem build_deep {s : LibState} (henable : e.ENABLE_HASH_FOR_DTB = true) (hblob : blob ≠ 0)
    (hnever : ∀ n, e.malloc_fails n = false) (h : InBounds (creatDtbHashTable e blob s)) : BuildFits e blob s := by
  by_cases hnew : isMergeDtb s blob = true
  · exact Or.inl hnew
  rw [creatDtbHashTable_eq henable (Bool.eq_false_iff.mpr hnew)] at h
  rcases allocCache_never hnever blob s with ⟨s1, halloc⟩ | hwraps
  · rw [halloc] at h
    obtain ⟨p, s2, hcache, -, hmade, hroot⟩ := recursiveFindRoot_eq e blob s1
    by_cases hoffset : pathOffset (blobAt e.m blob) ROOT < 0
    · exact Or.inr (Or.inr (Or.inl hoffset))
    have h : InBounds (recursiveFindRoot e blob ROOT s1) := h
    rw [hroot, hmade hnever (Int.not_lt.mp hoffset), if_pos rfl] at h
    refine Or.inr (Or.inr (Or.inr ((visits_scan _).mpr ?_)))
    exact enterAll_deep hblob hnever (pathVisits_nonneg _ _ _ _)
      (fun hnil => entered_cached halloc (hcache.symm.trans hnil)) h
  · exact Or.inr (Or.inl hwraps)

theorem build_bounds (henable : e.ENABLE_HASH_FOR_DTB = true) (hblob : blob ≠ 0) (s : LibState) :
    (∀ fails, InBounds (creatDtbHashTable (e.answers fails) blob s)) ↔ BuildFits e blob s :=
  ⟨fun h => build_deep (e := e.answers fun _ => false) henable hblob (fun _ => rfl) (h _),
    fun h fails => build_inside (e := e.answers fails) henable hblob h⟩

end

/-- The blob a call of `fdt_get_node_handle` is about. -/
def handleBlob (e : LibEnv) (s : LibState) (blob : Nat) : Option Nat :=
  if blob = 0 then (getBlobHandle e.d s e.d.DEFAULT_BLOB_ID).2 else some blob

theorem lookup_bounds {e : LibEnv} (henable : e.ENABLE_HASH_FOR_DTB = true) (s : LibState) (blob : Nat) (name : Str) :
    InBounds (getNodeHandle e blob name s) ↔ ∀ b ∈ handleBlob e s blob, LookupFits s b name := by
  unfold getNodeHandle handleBlob
  by_cases hblob : blob = 0
  · rw [if_pos hblob, if_pos hblob]
    rcases getBlobHandle e.d s e.d.DEFAULT_BLOB_ID with ⟨status, _ | b⟩
    · exact ⟨fun _ b hb => (nomatch hb), fun _ => inBounds_ok _⟩
    · simp only [henable, if_true, Option.mem_some, forall_eq']
      exact tableAnswer_bounds e b name s
  · rw [if_neg hblob, if_neg hblob]
    simp only [henable, if_true, Option.mem_some, forall_eq']
    exact tableAnswer_bounds e blob name s

/-- What stays inside: exactly the trees no deeper than the table, and the paths
no deeper than it and shorter than the buffers. -/
theorem bounds_exact (e : LibEnv) (blob bsize : Nat) (s : LibState)
    (h : e.ENABLE_HASH_FOR_DTB = true ∧ checkForValidBlob e.d e.m blob bsize = FDT_ERR_QC_NOERROR) :
    ((∀ fails, InBounds (creatDtbHashTable (e.answers fails) blob s)) ↔ BuildFits e blob s) ∧
      ∀ (b : Nat) (name : Str), InBounds (getNodeHandle e b name s) ↔ ∀ b' ∈ handleBlob e s b, LookupFits s b' name :=
  ⟨build_bounds h.1 (valid_ne_null h.2) s, fun b name => lookup_bounds h.1 s b name⟩

/-- A flat tree fits, and a path of ten slashes does not. -/
theorem bounds_exact_base :
    (∀ fails, InBounds (creatDtbHashTable ((registerEnv true).answers fails) 0x1000 .init)) ∧
      ¬InBounds (getNodeHandle (registerEnv true) 0x1000 (List.replicate 10 SLASH) .init) := by
  obtain ⟨hbuild, hlookup⟩ := bounds_exact (registerEnv true) 0x1000 128 .init ⟨rfl, by decide +kernel⟩
  refine ⟨hbuild.mpr (Or.inr (Or.inr (Or.inr (by decide +kernel)))), fun h => ?_⟩
  exact absurd ((hlookup _ _).mp h 0x1000 rfl).1 (by decide)

/-- `find_node` indexes the table with the number of slashes. -/
theorem path_beyond_table : ¬∀ (e : LibEnv) (blob bsize : Nat) (s : LibState) (name : Str),
    e.ENABLE_HASH_FOR_DTB = true ∧ checkForValidBlob e.d e.m blob bsize = FDT_ERR_QC_NOERROR →
      (∀ fails, InBounds (creatDtbHashTable (e.answers fails) blob s)) ∧ InBounds (getNodeHandle e blob name s) := by
  intro h
  have hbounds := (h (registerEnv true) 0x1000 128 .init (List.replicate 10 SLASH) ⟨rfl, by decide +kernel⟩).2
  exact hbounds.1 rfl

end DTFramework.Extn
