import DTFramework.Fdt.Assemble
import DTFramework.Fdt.Scan
import DTFramework.Extn.Prop
import DTFramework.Select.Image

/-!
# Arrays of subnodes

`fdt_get_cache_of_subnodes` and `fdt_get_size_of_subnode_names` fill an array of
the caller with one element for each subnode. Both write an element first and
compare the index with the array's size afterwards; the second one's index has
16 bits. An array is its elements from the caller's pointer on, without an end.

`arrays_exact` says for which sizes the array is kept to.

Results:

* `sizesLoop_fits`, `sizesLoop_beyond`, `sizesLoop_wraps`: the loop over the names, by
  the size of the array;
* `arrays_exact`: the arrays that are kept to; `empty_array_overrun` shows another.
-/
namespace DTFramework.Extn

open DTFramework.Fdt

/-- The constants of `DTBDefs.h` that the subnode getters need besides. -/
structure SubnodeDefs extends DTBDefs where
  FDT_ERR_QC_NILVALUE : Int
  /-- The library extends the standard error codes. -/
  subnode_extends_std : FDT_ERR_MAX < FDT_ERR_QC_NILVALUE

/-- The offsets `fdt_for_each_subnode` comes to, from `subnode` on. -/
def subnodesFrom (f : Blob) (subnode : Int) : List Int :=
  if _h : subnode < 0 then [] else subnode :: subnodesFrom f (nextSubnode f subnode)
termination_by subRoom subnode
decreasing_by exact nextSubnode_room (Int.not_lt.mp _h)

/-- The direct subnodes of the node at `offset`, in document order. -/
def subnodes (f : Blob) (offset : Int) : List Int := subnodesFrom f (firstSubnode f offset)

/-- An array with one element written. -/
def put {α : Type} (array : Nat → α) (i : Nat) (x : α) : Nat → α := fun j => if j = i then x else array j

/-- mirrors libs/DTBExtnLib/DTBExtnLib_node.c:1484-1520: `*count`; the status is
always `FDT_ERR_QC_NOERROR` -/
def getCountOfSubnodes (f : Blob) (offset : Int) : Nat := (subnodes f offset).length % 0x100000000

/-- The loop of `fdt_get_cache_of_subnodes` over the subnodes. -/
def cacheLoop (f : Blob) (count : Nat) : List Int → Nat → (Nat → NodeHandle) → Nat → NodeHandle
  | [], _, cache => cache
  | subnode :: rest, i, cache =>
    if count ≤ (i + 1) % 0x100000000 then put cache i ⟨f.addr, subnode⟩
    else cacheLoop f count rest ((i + 1) % 0x100000000) (put cache i ⟨f.addr, subnode⟩)

/-- mirrors libs/DTBExtnLib/DTBExtnLib_node.c:1539-1603: the array after the call;
the status is always `FDT_ERR_QC_NOERROR` -/
def getCacheOfSubnodes (f : Blob) (offset : Int) (count : Nat) (cache : Nat → NodeHandle) : Nat → NodeHandle :=
  cacheLoop f count (subnodes f offset) 0 cache

/-- The loop of `fdt_get_size_of_subnode_names` over the subnodes. Its index is a
`uint16_t`. -/
def sizesLoop (d : SubnodeDefs) (f : Blob) (count : Nat) : List Int → Nat → (Nat → Nat) → Int × (Nat → Nat)
  | [], _, names => (FDT_ERR_QC_NOERROR, names)
  | subnode :: rest, i, names =>
    match getName f subnode with
    | .error len => (lenError d.toDTBDefs len, names)
    | .ok name =>
      if count ≤ i then (d.FDT_ERR_QC_TRUNCATED, put names i (name.length + 1))
      else sizesLoop d f count rest ((i + 1) % 0x10000) (put names i (name.length + 1))

/-- mirrors libs/DTBExtnLib/DTBExtnLib_node.c:1617-1670: the status and the array
after the call -/
def getSizeOfSubnodeNames (d : SubnodeDefs) (f : Blob) (offset : Int) (count : Nat) (names : Nat → Nat) :
    Int × (Nat → Nat) :=
  if count = 0 then (-d.FDT_ERR_QC_NILVALUE, names) else sizesLoop d f count (subnodes f offset) 0 names

/-! ## Loops -/

theorem subnodesFrom_length (f : Blob) (s : Int) : (subnodesFrom f s).length ≤ subRoom s := by
  fun_induction subnodesFrom f s with
  | case1 => exact Nat.zero_le _
  | case2 s h ih =>
    have := nextSubnode_room (f := f) (Int.not_lt.mp h)
    rw [List.length_cons]
    omega

/-- A node has fewer subnodes than a `uint32_t` counts. -/
theorem subnodes_length (f : Blob) (o : Int) : (subnodes f o).length < 0x100000000 := by
  have h := subnodesFrom_length f (firstSubnode f o)
  unfold subRoom room at h
  unfold subnodes
  split at h
  · omega
  · omega

/-- The elements of `xs` in an array, from index `i` on. -/
def laidIn {α : Type} (array : Nat → α) (i : Nat) (xs : List α) : Nat → α := fun j =>
  if i ≤ j then xs[j - i]?.getD (array j) else array j

theorem laidIn_nil {α : Type} (array : Nat → α) (i : Nat) : laidIn array i [] = array := by
  funext j
  simp [laidIn]

theorem laidIn_cons {α : Type} (array : Nat → α) (i : Nat) (x : α) (xs : List α) :
    laidIn (put array i x) (i + 1) xs = laidIn array i (x :: xs) := by
  funext j
  unfold laidIn put
  rcases Nat.lt_trichotomy j i with h | rfl | h
  · rw [if_neg (by omega), if_neg (by omega), if_neg (by omega)]
  · rw [if_neg (by omega), if_pos rfl, if_pos (Nat.le_refl j)]
    simp
  · rw [if_pos (by omega), if_neg (by omega), if_pos (by omega), show j - i = j - (i + 1) + 1 by omega]
    simp

theorem laidIn_at {α : Type} (array : Nat → α) {xs : List α} {j : Nat} (h : j < xs.length) :
    laidIn array 0 xs j = xs[j] := by
  simp [laidIn, h]

theorem laidIn_out {α : Type} (array : Nat → α) {xs : List α} {j : Nat} (h : xs.length ≤ j) :
    laidIn array 0 xs j = array j := by
  simp [laidIn, h]

/-- The handles of subnodes. -/
def handles (f : Blob) (ss : List Int) : List NodeHandle := ss.map fun s => ⟨f.addr, s⟩

/-- The loop writes as many handles as there is room for. -/
theorem cacheLoop_eq (f : Blob) (count : Nat) (ss : List Int) : ∀ (i : Nat) (cache : Nat → NodeHandle), i < count →
    i + ss.length < 0x100000000 → cacheLoop f count ss i cache = laidIn cache i (handles f (ss.take (count - i))) := by
  induction ss with
  | nil =>
    intro i cache _ _
    rw [cacheLoop, List.take_nil]
    exact (laidIn_nil cache i).symm
  | cons s ss ih =>
    intro i cache hi h32
    rw [List.length_cons] at h32
    rw [cacheLoop, Nat.mod_eq_of_lt (by omega), show count - i = count - (i + 1) + 1 by omega, List.take_succ_cons]
    show _ = laidIn cache i (_ :: handles f (ss.take (count - (i + 1))))
    rw [← laidIn_cons]
    split
    · rw [show count - (i + 1) = 0 by omega, List.take_zero]
      exact (laidIn_nil _ _).symm
    · exact ih (i + 1) _ (by omega) (by omega)

/-- Every subnode has a name. -/
def Named (f : Blob) (ss : List Int) : Prop := ∀ s ∈ ss, ∃ name, getName f s = .ok name

/-- The size of a subnode's name with its NUL. -/
def nameSize (f : Blob) (s : Int) : Nat :=
  match getName f s with
  | .error _ => 0
  | .ok name => name.length + 1

theorem nameSize_ok {f : Blob} {s : Int} {name : Str} (h : getName f s = .ok name) :
    nameSize f s = name.length + 1 := by
  unfold nameSize
  rw [h]

section
variable {d : SubnodeDefs} {f : Blob} {count : Nat}

/-- All sizes are written when there is room, and no index wraps. -/
theorem sizesLoop_fits (ss : List Int) : ∀ (i : Nat) (names : Nat → Nat), Named f ss → i + ss.length ≤ count →
    i + ss.length ≤ 0x10000 → sizesLoop d f count ss i names =
        (FDT_ERR_QC_NOERROR, laidIn names i (ss.map (nameSize f))) := by
  induction ss with
  | nil =>
    intro i names _ _ _
    rw [sizesLoop, List.map_nil, laidIn_nil]
  | cons s ss ih =>
    intro i names hn hc h16
    rw [List.length_cons] at hc h16
    obtain ⟨name, hs⟩ := hn s List.mem_cons_self
    have hrest := fun x hx => hn x (List.mem_cons_of_mem s hx)
    rw [sizesLoop, hs, List.map_cons, ← laidIn_cons, nameSize_ok hs]
    dsimp only
    rw [if_neg (by omega)]
    by_cases h : i + 1 < 0x10000
    · rw [Nat.mod_eq_of_lt h, ih (i + 1) _ hrest (by omega) (by omega)]
    · -- the last subnode: the index is not used again
      obtain rfl : ss = [] := List.length_eq_zero_iff.mp (by omega)
      rw [sizesLoop, List.map_nil, laidIn_nil]

/-- With more subnodes than elements, one element too many is written. -/
theorem sizesLoop_beyond (ss : List Int) : ∀ (i : Nat) (names : Nat → Nat), Named f ss → i ≤ count → count < 0x10000 →
    count < i + ss.length → (sizesLoop d f count ss i names).2 count ≠ 0 := by
  induction ss with
  | nil =>
    intro i names _ hi _ hlt
    rw [List.length_nil] at hlt
    omega
  | cons s ss ih =>
    intro i names hn hi h16 hlt
    rw [List.length_cons] at hlt
    obtain ⟨name, hs⟩ := hn s List.mem_cons_self
    rw [sizesLoop, hs]
    dsimp only
    split
    · obtain rfl : i = count := by omega
      simp [put]
    · rw [Nat.mod_eq_of_lt (by omega)]
      exact ih (i + 1) _ (fun x hx => hn x (List.mem_cons_of_mem s hx)) (by omega) h16 (by omega)

/-- From 65536 elements on the index never comes to the end of the array. -/
theorem sizesLoop_wraps (hc : 0x10000 ≤ count) (ss : List Int) :
    ∀ (i : Nat) (names : Nat → Nat), Named f ss → i < 0x10000 →
    (sizesLoop d f count ss i names).1 = FDT_ERR_QC_NOERROR ∧
    (sizesLoop d f count ss i names).2 0x10000 = names 0x10000 := by
  induction ss with
  | nil => exact fun _ _ _ _ => ⟨rfl, rfl⟩
  | cons s ss ih =>
    intro i names hn hi
    obtain ⟨name, hs⟩ := hn s List.mem_cons_self
    rw [sizesLoop, hs]
    dsimp only
    rw [if_neg (by omega)]
    obtain ⟨h1, h2⟩ := ih ((i + 1) % 0x10000) (put names i (name.length + 1))
      (fun x hx => hn x (List.mem_cons_of_mem s hx)) (Nat.mod_lt _ (by decide))
    exact ⟨h1, h2.trans (if_neg (by omega))⟩

end

/-! ## Arrays of the caller -/

/-- What a filled array of `count` elements looks like: the first elements are
those of the subnodes, and nothing else is written. -/
def Filled {α : Type} (xs : List α) (count : Nat) (before after : Nat → α) : Prop :=
  (∀ j (h : j < xs.length), j < count → after j = xs[j]) ∧ ∀ j, min count xs.length ≤ j → after j = before j

/-- Both getters keep to an array of `count` elements. -/
structure KeepsToArray (d : SubnodeDefs) (f : Blob) (o : Int) (count : Nat) : Prop where
  sizes : ∀ names, Filled ((subnodes f o).map (nameSize f)) count names (getSizeOfSubnodeNames d f o count names).2
  status : ∀ names, (getSizeOfSubnodeNames d f o count names).1 = FDT_ERR_QC_NOERROR ↔
    1 ≤ count ∧ (subnodes f o).length ≤ count
  cache : ∀ cache, Filled (handles f (subnodes f o)) count cache (getCacheOfSubnodes f o count cache)

theorem filled_take {α : Type} (xs : List α) (count : Nat) (before : Nat → α) :
    Filled xs count before (laidIn before 0 (xs.take count)) := by
  refine ⟨fun j h hc => ?_, fun j hj => laidIn_out before (by rw [List.length_take]; exact hj)⟩
  rw [laidIn_at before (by rw [List.length_take]; omega), List.getElem_take]

theorem cache_filled {f : Blob} {o : Int} {count : Nat} (h : 1 ≤ count) (cache : Nat → NodeHandle) :
    Filled (handles f (subnodes f o)) count cache (getCacheOfSubnodes f o count cache) := by
  unfold getCacheOfSubnodes
  rw [cacheLoop_eq f count _ 0 cache h (by rw [Nat.zero_add]; exact subnodes_length f o), Nat.sub_zero]
  have := filled_take (handles f (subnodes f o)) count cache
  unfold handles at this ⊢
  rw [List.map_take]
  exact this

theorem status_nilvalue (d : SubnodeDefs) : -d.FDT_ERR_QC_NILVALUE ≠ FDT_ERR_QC_NOERROR :=
  (libraryCode_ne d.subnode_extends_std).2

/-- The getters count all subnodes, and keep to the caller's array just when
there are no subnodes, or all of them fit the array and a 16-bit index. -/
theorem arrays_exact (d : SubnodeDefs) (f : Blob) (o : Int) (count : Nat) (h : Named f (subnodes f o)) :
    getCountOfSubnodes f o = (subnodes f o).length ∧
    (KeepsToArray d f o count ↔ ((subnodes f o).length = 0 ∨ 1 ≤ count ∧ (subnodes f o).length ≤ count) ∧
      (subnodes f o).length ≤ 0x10000) := by
  refine ⟨Nat.mod_eq_of_lt (subnodes_length f o), ?_⟩
  have hdef (names : Nat → Nat) (hc : count ≠ 0) : getSizeOfSubnodeNames d f o count names = sizesLoop d f count
      (subnodes f o) 0 names :=
    if_neg hc
  constructor
  · rintro ⟨hsizes, hstatus, hcache⟩
    by_cases hc : count = 0
    · subst hc
      suffices hnil : subnodes f o = [] by rw [hnil]; exact ⟨Or.inl rfl, Nat.zero_le _⟩
      cases hss : subnodes f o with
      | nil => rfl
      | cons s ss =>
        -- the first handle is written before the size is looked at
        have hout := (hcache fun _ => ⟨f.addr + 1, 0⟩).2 0 (by simp)
        unfold getCacheOfSubnodes at hout
        rw [hss, cacheLoop, if_pos (Nat.zero_le _)] at hout
        have haddr : f.addr = f.addr + 1 := congrArg NodeHandle.blob hout
        omega
    · by_cases h16 : count < 0x10000
      · suffices hle : (subnodes f o).length ≤ count from ⟨Or.inr ⟨by omega, hle⟩, by omega⟩
        refine Nat.not_lt.mp fun hlt => ?_
        have hout := (hsizes fun _ => 0).2 count (Nat.min_le_left _ _)
        rw [hdef _ hc] at hout
        exact sizesLoop_beyond _ 0 _ h (Nat.zero_le _) h16 (by omega) hout
      · obtain ⟨hok, hend⟩ := sizesLoop_wraps (d := d) (Nat.not_lt.mp h16) (subnodes f o) 0 (fun _ => 0) h (by decide)
        rw [← hdef _ hc] at hok hend
        refine ⟨Or.inr ((hstatus _).mp hok), Nat.not_lt.mp fun hlt => ?_⟩
        -- the index has come back to the start of the array
        have hat := (hsizes fun _ => 0).1 0x10000 (by rw [List.length_map]; exact hlt)
          (Nat.lt_of_lt_of_le hlt ((hstatus _).mp hok).2)
        rw [hend, List.getElem_map] at hat
        obtain ⟨name, hname⟩ := h _ (List.getElem_mem hlt)
        rw [nameSize_ok hname] at hat
        omega
  · rintro ⟨hroom, h16⟩
    by_cases hc : count = 0
    · subst hc
      have hnil : subnodes f o = [] := List.length_eq_zero_iff.mp (hroom.resolve_right (by omega))
      have hrun (names : Nat → Nat) : getSizeOfSubnodeNames d f o 0 names = (-d.FDT_ERR_QC_NILVALUE, names) :=
        if_pos rfl
      refine ⟨fun names => ?_, fun names => ?_, fun cache => ?_⟩
      · rw [hrun, hnil]
        exact ⟨fun j hj => absurd hj (by simp), fun j _ => rfl⟩
      · rw [hrun]
        exact iff_of_false (status_nilvalue d) (by omega)
      · unfold getCacheOfSubnodes
        rw [hnil]
        exact ⟨fun j hj => absurd hj (by simp [handles]), fun j _ => rfl⟩
    · have hle : (subnodes f o).length ≤ count := by omega
      have hrun (names : Nat → Nat) := (hdef names hc).trans
        (sizesLoop_fits (d := d) (subnodes f o) 0 names h (by omega) (by omega))
      refine ⟨fun names => ?_, fun names => ?_, cache_filled (by omega)⟩
      · have hfilled := filled_take ((subnodes f o).map (nameSize f)) count names
        rw [List.take_of_length_le (by rw [List.length_map]; exact hle)] at hfilled
        rw [hrun]
        exact hfilled
      · rw [hrun]
        exact iff_of_true rfl ⟨by omega, hle⟩

def subnodeDefs : SubnodeDefs :=
  { Select.imageDefs with FDT_ERR_QC_NILVALUE := 1010, subnode_extends_std := eleventh_extends_std }

/-- A root with the subnode "a". -/
def nestBlob : Blob := ⟨0, memOf 0 (assemble [.beginNode [], .beginNode [97], .endNode, .endNode] 0)⟩

theorem nestBlob_named : Named nestBlob (subnodes nestBlob 0) := by
  have hsub : subnodes nestBlob 0 = [8] := by decide +kernel
  rw [hsub]
  intro s hs
  rw [List.mem_singleton.mp hs]
  exact ⟨[97], by decide +kernel⟩

theorem arrays_exact_one : getCountOfSubnodes nestBlob 0 = (subnodes nestBlob 0).length ∧
    (KeepsToArray subnodeDefs nestBlob 0 1 ↔
      ((subnodes nestBlob 0).length = 0 ∨ 1 ≤ 1 ∧ (subnodes nestBlob 0).length ≤ 1) ∧
      (subnodes nestBlob 0).length ≤ 0x10000) :=
  arrays_exact subnodeDefs nestBlob 0 1 nestBlob_named

/-- An array of no element gets one. -/
theorem empty_array_overrun : ¬∀ (d : SubnodeDefs) (f : Blob) (o : Int) (count : Nat), Named f (subnodes f o) →
    KeepsToArray d f o count := by
  intro h
  have hout := ((h subnodeDefs nestBlob 0 0 nestBlob_named).cache fun _ => ⟨1, 0⟩).2 0 (by simp)
  exact absurd hout (by decide +kernel)

end DTFramework.Extn
