import DTFramework.Extn.Table
import DTFramework.Extn.Value

/-!
# The size of a phandle cache

The largest phandle of a blob is limited to 1000 after it was stored in an `int`, and
the sizes of the cache are computed from it in three types. They agree exactly when
the phandle is below 2^31 (`cache_size_exact`): a larger one is negative, passes the
limit, and becomes a size near 2^64.

Results:

* `cache_made`: a cache has one entry for each phandle up to the limit;
* `cache_size_exact`: when its three sizes agree; `cache_size_wraps` shows when not.
-/
namespace DTFramework.Extn

open DTFramework.Fdt

/-- `sizeof (uint32_t) * (max_phandle + 1)`, a `size_t`: what `memset` clears.
mirrors libs/DTBExtnLib/DTBExtnLib_node.c:642 -/
def arrayCleared (max_phandle : Int) : Nat := 4 * ((max_phandle + 1) % 2 ^ 64).toNat % 2 ^ 64

/-- The same as the `uint32_t` parameter of `__dtb_malloc`.
mirrors libs/DTBExtnLib/DTBExtnLib_node.c:633 -/
def arrayRequest (max_phandle : Int) : Nat := arrayCleared max_phandle % 2 ^ 32

/-- `current_phandle_cache->size`. mirrors libs/DTBExtnLib/DTBExtnLib_node.c:643 -/
def arraySize (max_phandle : Int) : Nat := u32 (max_phandle + 1)

/-- `L` is the largest phandle of the blob, 0 when it has none. -/
def LargestPhandle (f : Blob) (L : Nat) : Prop :=
  (∀ o ∈ nodes f, getPhandle f o ≤ L) ∧ (L = 0 ∨ ∃ o ∈ nodes f, getPhandle f o = L)

/-- The sizes of the cache of a blob whose largest phandle is `L`, and the indices
below `size` inside the array. -/
structure CacheSizes (f : Blob) (L : Nat) : Prop where
  request : arrayRequest (maxPhandle f) = 4 * (min L 1000 + 1)
  cleared : arrayCleared (maxPhandle f) = 4 * (min L 1000 + 1)
  size : 4 * arraySize (maxPhandle f) = 4 * (min L 1000 + 1)
  inside : ∀ index < arraySize (maxPhandle f), 4 * index + 4 ≤ arrayRequest (maxPhandle f)
  made : ∀ (e : LibEnv) (blob : Nat) (s s' : LibState) (c : PhandleCache), blobAt e.m blob = f →
    allocPhandleToNodeCacheSpace e blob s = .ok (0, s') → s'.phandle_cache = c :: s.phandle_cache →
      c.array.length = arraySize (maxPhandle f)

theorem getMaxPhandle_largest {f : Blob} {r L : Nat} (h : findMaxPhandle f = .ok r) (hL : LargestPhandle f L) :
    getMaxPhandle f = L := by
  obtain ⟨-, hle, hr⟩ := maxPhandleScan_ok h
  obtain ⟨hmax, hmem⟩ := hL
  have hrL : r = L := by
    refine Nat.le_antisymm ?_ ?_
    · rcases hr with rfl | ⟨n, hn, rfl⟩
      · exact Nat.zero_le L
      · exact hmax n hn
    · rcases hmem with rfl | ⟨n, hn, rfl⟩
      · exact Nat.zero_le r
      · exact hle n hn
  unfold getMaxPhandle
  rw [h]
  exact hrL

theorem largest_of_found {f : Blob} {r : Nat} (h : findMaxPhandle f = .ok r) : LargestPhandle f r := by
  obtain ⟨-, hle, hr⟩ := maxPhandleScan_ok h
  exact ⟨hle, hr⟩

/-- A cache that is made has one entry for each phandle up to the limit. -/
theorem cache_made {e : LibEnv} {blob : Nat} {s s' : LibState} {c : PhandleCache}
    (h : allocPhandleToNodeCacheSpace e blob s = .ok (0, s')) (hc : s'.phandle_cache = c :: s.phandle_cache) :
    c.array.length = (maxPhandle (blobAt e.m blob) + 1).toNat := by
  unfold allocPhandleToNodeCacheSpace at h
  have hself : ¬s.phandle_cache = c :: s.phandle_cache := fun h => List.cons_ne_self _ _ h.symm
  simp only at h
  split at h
  · cases h
    exact absurd hc hself
  split at h
  · cases h
    exact absurd hc hself
  split at h
  · cases h
  split at h
  · cases h
  split at h
  · cases h
  · rw [← (Prod.mk.inj (Except.ok.inj h)).2] at hc
    rw [← (List.cons.inj hc).1, List.length_replicate]

/-- When a cache is made, its sizes agree exactly when the largest phandle of the
blob is below 2^31. -/
theorem cache_size_exact (f : Blob) (L : Nat) (h : (∃ r, findMaxPhandle f = .ok r) ∧ LargestPhandle f L) :
    (maxPhandle f ≠ 0 → CacheSizes f L) ↔ L < 2 ^ 31 := by
  obtain ⟨⟨r, hr⟩, hL⟩ := h
  have hget := getMaxPhandle_largest hr hL
  have hmax : maxPhandle f = min (int32 L) 1000 := by
    unfold maxPhandle
    rw [hget]
  have hlt : L < 2 ^ 32 := by
    rcases hL.2 with rfl | ⟨o, -, rfl⟩
    · exact Nat.two_pow_pos 32
    · exact getPhandle_lt o
  constructor
  · intro h
    by_contra hge
    have hneg : maxPhandle f = (L : Int) - 2 ^ 32 := by
      rw [hmax]
      unfold int32
      omega
    have hcleared := (h (by omega)).cleared
    rw [hneg] at hcleared
    unfold arrayCleared at hcleared
    omega
  · intro hsmall hne
    have hpos : maxPhandle f = (min L 1000 : Nat) := by
      rw [hmax, int32_ofNat (by omega)]
      omega
    have hcleared : arrayCleared (maxPhandle f) = 4 * (min L 1000 + 1) := by
      rw [hpos]
      unfold arrayCleared
      omega
    have hrequest : arrayRequest (maxPhandle f) = 4 * (min L 1000 + 1) := by
      unfold arrayRequest
      rw [hcleared]
      omega
    have hsize : arraySize (maxPhandle f) = min L 1000 + 1 := by
      rw [hpos]
      unfold arraySize u32
      omega
    refine ⟨hrequest, hcleared, congrArg (4 * ·) hsize, fun index hi => ?_, fun e blob s s' c hf hmade hc => ?_⟩
    · rw [hsize] at hi
      rw [hrequest]
      omega
    · rw [cache_made hmade hc, hf, hsize, hpos]
      omega

/-- A tree whose largest phandle is 5. -/
theorem cache_size_exact_five :
    (maxPhandle (blobAt (wrapEnv 0).m 0x1000) ≠ 0 → CacheSizes (blobAt (wrapEnv 0).m 0x1000) 5) ↔ 5 < 2 ^ 31 :=
  have hfound : findMaxPhandle (blobAt (wrapEnv 0).m 0x1000) = .ok 5 := by decide +kernel
  cache_size_exact _ 5 ⟨⟨5, hfound⟩, largest_of_found hfound⟩

/-- The phandle 0x80000005 makes `memset` clear almost all memory. -/
theorem cache_size_wraps : ¬∀ (f : Blob) (L : Nat), (∃ r, findMaxPhandle f = .ok r) → LargestPhandle f L →
    L ≤ 2 ^ 32 - 2 →
    maxPhandle f ≠ 0 → CacheSizes f L := by
  intro h
  have hfound : findMaxPhandle (blobAt (wrapEnv 0x80).m 0x1000) = .ok 0x80000005 := by decide +kernel
  have hsizes := h _ _ ⟨_, hfound⟩ (largest_of_found hfound) (by decide) (by decide +kernel)
  exact absurd hsizes.cleared (by decide +kernel)

end DTFramework.Extn
