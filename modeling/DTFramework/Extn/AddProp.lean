import DTFramework.Extn.Slice

/-!
# Adding lists of integers

`fdt_add_prop_list_uX` brings the caller's array into big-endian order in place
and hands it to `fdt_setprop`. The getters undo one such call; but the array
stays swapped, so the next call stores other values. Only an array of values
that read the same both ways goes through a run of calls unchanged
(`add_get_exact`).

`fdt_setprop` is a parameter: of the trees it edits is known what a call that
succeeds stores, and that it leaves the other values alone (`Editor.Stores`).

Results:

* `AddRun.keeps`, `AddRun.fixed`: what a run of calls leaves alone;
* `read_back`: reading a stored array back;
* `add_get_exact`: the arrays that a run gives back; `add_swaps_array` shows another.
-/
namespace DTFramework.Extn

open DTFramework.Fdt

/-! ## The calls -/

/-- `fdt_setprop` on the trees of a type: the blob of a tree, the offset of a
node in it, and the status and the tree after a call with the bytes at `val` and
an `int` length. -/
structure Editor (Tree Node : Type) where
  blob : Tree → Blob
  offset : Tree → Node → Int
  setprop : Tree → Node → Str → List UInt8 → Int → Int × Tree

/-- The bytes of a value of `w` bytes in the host's memory. -/
def hostBytes (w v : Nat) : List UInt8 := (List.range w).map fun i => UInt8.ofNat (extractByte v i)

/-- `cpu_to_fdtN` of a value of `w` bytes.
mirrors libs/libfdt/libfdt_env.h:28-37 -/
def cpuToFdt (w x : Nat) : Nat := bigEndian (hostBytes w x)

section
variable {Tree Node : Type} (e : Editor Tree Node)

/-- mirrors libs/DTBExtnLib/DTBExtnLib_create-dtb.c:132-205: the status, the
tree, and the caller's array after the call. Past `INT_MAX` the loop's `int`
index is a negative one. -/
def addPropList (w : Nat) (t : Tree) (node : Node) (prop_name : Str) (val : List Nat) :
    Except Fault (Int × Tree × List Nat) :=
  if 0x80000000 < val.length then .error .outOfBounds
  else
    let swapped := val.map (cpuToFdt w)
    let r := e.setprop t node prop_name (swapped.flatMap (hostBytes w)) (int32 (val.length * w : Nat))
    .ok (r.1, r.2, swapped)

def addPropListU16 (t : Tree) (node : Node) (prop_name : Str) (val : List Nat) := addPropList e 2 t node prop_name val
def addPropListU32 (t : Tree) (node : Node) (prop_name : Str) (val : List Nat) := addPropList e 4 t node prop_name val
def addPropListU64 (t : Tree) (node : Node) (prop_name : Str) (val : List Nat) := addPropList e 8 t node prop_name val

/-- The call for the elements of a type. -/
def addList (t : Tree) (node : Node) (prop_name : Str) (val : List Nat) :
    DataType → Option (Except Fault (Int × Tree × List Nat))
  | .uint16 => some (addPropListU16 e t node prop_name val)
  | .uint32 => some (addPropListU32 e t node prop_name val)
  | .uint64 => some (addPropListU64 e t node prop_name val)
  | _ => none

/-- Calls that succeed, one after the other, with one array: the tree at the end,
and the array after each call. -/
inductive AddRun (type : DataType) : Tree → List Nat → List (Node × Str) → Tree → List (List Nat) → Prop
  | done (t : Tree) (val : List Nat) : AddRun type t val [] t []
  | call {t t' t'' : Tree} {val val' : List Nat} {node : Node} {prop_name : Str} {calls : List (Node × Str)}
      {arrays : List (List Nat)} (hadd : addList e t node prop_name val type = some (.ok (0, t', val')))
      (hrest : AddRun type t' val' calls t'' arrays) :
      AddRun type t val ((node, prop_name) :: calls) t'' (val' :: arrays)

/-- The value of a node's property. -/
def Holds (t : Tree) (c : Node × Str) (bytes : List UInt8) : Prop :=
  ∃ p, PropertyAt (e.blob t) (e.offset t c.1) c.2 p bytes.length ∧ bytesAt (e.blob t) p bytes.length = bytes

/-- What `fdt_setprop` is relied on for: a call that succeeds stores the bytes it
is given, as many as its length says, and leaves the values of the other
properties. -/
structure Editor.Stores : Prop where
  stores : ∀ {t t' node prop_name bytes len}, e.setprop t node prop_name bytes len = (0, t') →
    0 ≤ len ∧ Holds e t' (node, prop_name) (bytes.take len.toNat)
  keeps : ∀ {t t' node prop_name bytes len}, e.setprop t node prop_name bytes len = (0, t') →
    ∀ c v, c ≠ (node, prop_name) → Holds e t c v → Holds e t' c v

/-- Each property reads back as the array did before the first call, and the
array is the same after every call. -/
def AddGet (d : DTBDefs) (type : DataType) (val : List Nat) (calls : List (Node × Str)) (t : Tree)
    (arrays : List (List Nat)) :
    Prop :=
  (∀ array ∈ arrays, array = val) ∧ ∀ c ∈ calls, getUintXPropList d (e.blob t) (e.offset t c.1) c.2
    (val.length * type.width % 0x100000000) 0 0 type = .ok (FDT_ERR_QC_NOERROR, val)

end

/-! ## Bytes of an array -/

@[simp] theorem hostBytes_length (w v : Nat) : (hostBytes w v).length = w := by simp [hostBytes]

theorem flatMap_hostBytes_length (w : Nat) (val : List Nat) : (val.flatMap (hostBytes w)).length = val.length * w := by
  induction val with
  | nil => simp
  | cons v val ih =>
    rw [List.flatMap_cons, List.length_append, ih, hostBytes_length, List.length_cons, Nat.add_mul, Nat.one_mul,
      Nat.add_comm]

/-- The getters read an array's bytes as the swapped values. -/
theorem elements_hostBytes {w : Nat} (hw : 0 < w) (val : List Nat) :
    elements w (val.flatMap (hostBytes w)) = val.map (cpuToFdt w) := by
  induction val with
  | nil => simp [elements, Nat.div_eq_of_lt hw]
  | cons v val ih =>
    rw [List.flatMap_cons, elements_append hw (by simp), elements_single hw (hostBytes_length w v), ih]
    rfl

/-! ## Runs of calls -/

section
variable {Tree Node : Type} {e : Editor Tree Node} {d : DTBDefs} {type : DataType} {t t' t'' : Tree}
  {val val' : List Nat} {node : Node} {prop_name : Str} {calls : List (Node × Str)} {arrays : List (List Nat)}

/-- What a call that succeeds does: it swaps the array, and stores its bytes as
far as the `int` length goes. -/
theorem addList_ok (he : e.Stores) (h : addList e t node prop_name val type = some (.ok (0, t', val'))) :
    type ≠ .boolean ∧ 0 < type.width ∧ val' = val.map (cpuToFdt type.width) ∧
      0 ≤ int32 (val.length * type.width : Nat) ∧
      Holds e t' (node, prop_name)
        ((val'.flatMap (hostBytes type.width)).take (int32 (val.length * type.width : Nat)).toNat) ∧
      ∀ c v, c ≠ (node, prop_name) → Holds e t c v → Holds e t' c v := by
  have hadd : type ≠ .boolean ∧ 0 < type.width ∧
      addPropList e type.width t node prop_name val = .ok (0, t', val') := by
    cases type with
    | boolean | uint8 => cases h
    | uint16 | uint32 | uint64 => exact ⟨DataType.noConfusion, by decide, Option.some.inj h⟩
  obtain ⟨hne, hw, hadd⟩ := hadd
  unfold addPropList at hadd
  split at hadd
  · cases hadd
  · simp only [Except.ok.injEq, Prod.mk.injEq] at hadd
    obtain ⟨hstatus, htree, harray⟩ := hadd
    subst harray
    have hset : e.setprop t node prop_name ((val.map (cpuToFdt type.width)).flatMap (hostBytes type.width))
        (int32 (val.length * type.width : Nat)) = (0, t') := Prod.ext hstatus htree
    obtain ⟨hlen, hstored⟩ := he.stores hset
    exact ⟨hne, hw, rfl, hlen, hstored, he.keeps hset⟩

/-- A property that no call of the run stores keeps its value. -/
theorem AddRun.keeps (he : e.Stores) (hrun : AddRun e type t val calls t'' arrays) {c : Node × Str} {v : List UInt8}
    (hc : c ∉ calls) (hv : Holds e t c v) : Holds e t'' c v := by
  induction hrun with
  | done => exact hv
  | call hadd _ ih =>
    rw [List.mem_cons, not_or] at hc
    obtain ⟨-, -, -, -, -, hkeeps⟩ := addList_ok he hadd
    exact ih hc.2 (hkeeps c v hc.1 hv)

/-- An array of values that swapping leaves alone goes through a run unchanged,
and all its calls store the same bytes. -/
theorem AddRun.fixed (he : e.Stores) (hrun : AddRun e type t val calls t'' arrays)
    (hfix : ∀ v ∈ val, cpuToFdt type.width v = v) :
    (∀ array ∈ arrays, array = val) ∧ ∀ c ∈ calls, Holds e t'' c
      ((val.flatMap (hostBytes type.width)).take (int32 (val.length * type.width : Nat)).toNat) := by
  induction hrun with
  | done => exact ⟨fun _ h => absurd h List.not_mem_nil, fun _ h => absurd h List.not_mem_nil⟩
  | @call t t' t'' val val' node prop_name calls arrays hadd hrest ih =>
    obtain ⟨-, -, hswap, -, hstored, -⟩ := addList_ok he hadd
    have hsame : val' = val := by
      rw [hswap]
      exact (List.map_congr_left hfix).trans (List.map_id val)
    subst hsame
    obtain ⟨harrays, hcalls⟩ := ih hfix
    refine ⟨List.forall_mem_cons.mpr ⟨rfl, harrays⟩, List.forall_mem_cons.mpr ⟨?_, hcalls⟩⟩
    -- a later call that names the property stores the same bytes
    by_cases hmem : (node, prop_name) ∈ calls
    · exact hcalls _ hmem
    · exact hrest.keeps he hmem hstored

/-- Reading a stored array back. -/
theorem read_back {c : Node × Str} (ht : type ≠ .boolean) (hw : 0 < type.width)
    (hlen : val.length * type.width < 0x80000000)
    (h : Holds e t c (val.flatMap (hostBytes type.width))) :
    getUintXPropList d (e.blob t) (e.offset t c.1) c.2 (val.length * type.width % 0x100000000) 0 0 type =
      .ok (FDT_ERR_QC_NOERROR, val.map (cpuToFdt type.width)) := by
  obtain ⟨p, hprop, hbytes⟩ := h
  rw [flatMap_hostBytes_length] at hprop hbytes
  have hcount : val.length * type.width / type.width = val.length := Nat.mul_div_cancel _ hw
  have hle : val.length ≤ val.length * type.width := Nat.le_mul_of_pos_right _ hw
  have helements := elements_bytesAt (e.blob t) p (val.length * type.width) type.width
  rw [hbytes, elements_hostBytes hw, hcount] at helements
  rw [Nat.mod_eq_of_lt (by omega), getUintXPropList_whole hprop ht (by omega)
    (by rw [Int.toNat_natCast]; exact Nat.lt_irrefl _), hcount, int32_ofNat (by omega), Int.toNat_natCast, helements]

theorem int32_toNat_le (n : Nat) : (int32 n).toNat ≤ n := by
  unfold int32
  omega

/-- A list that is read back has no more elements than the size counts. -/
theorem read_length {c : Node × Str} {v : List UInt8} (ht : type ≠ .boolean) {size : Nat} (hsize : size < 0x100000000)
    (h : Holds e t c v)
    (hread : getUintXPropList d (e.blob t) (e.offset t c.1) c.2 size 0 0 type = .ok (FDT_ERR_QC_NOERROR, val)) :
    val.length ≤ size / type.width := by
  obtain ⟨p, hprop, -⟩ := h
  by_cases hfit : size / type.width < (v.length : Int).toNat / type.width
  · rw [getUintXPropList_eq hprop ht hsize, if_neg (Nat.not_lt_zero _), if_neg (Nat.not_lt_zero _),
      if_neg (Nat.not_lt_zero _), if_pos ⟨rfl, by rwa [Nat.sub_zero]⟩] at hread
    rw [← (Prod.mk.inj (Except.ok.inj hread)).2]
    exact Nat.zero_le _
  · rw [getUintXPropList_whole hprop ht hsize hfit] at hread
    rw [← (Prod.mk.inj (Except.ok.inj hread)).2, List.length_map, List.length_range]
    exact int32_toNat_le _

/-- A run of calls with one array gives the array back, and leaves it alone, just
when there is no call, or the bytes of the array are counted by an `int` and each
value reads the same in both orders. -/
theorem add_get_exact (he : e.Stores) (hrun : AddRun e type t val calls t'' arrays) :
    AddGet e d type val calls t'' arrays ↔
      calls = [] ∨ (val.length * type.width < 0x80000000 ∧ ∀ v ∈ val, cpuToFdt type.width v = v) := by
  constructor
  · rintro ⟨harrays, hcalls⟩
    cases hrun with
    | done => exact Or.inl rfl
    | @call _ _ _ _ val' node prop_name calls arrays hadd hrest =>
      obtain ⟨hne, hw, hswap, hlen, hstored, -⟩ := addList_ok he hadd
      have hsame : val.map (cpuToFdt type.width) = val := hswap ▸ harrays val' List.mem_cons_self
      have hfix : ∀ v ∈ val, cpuToFdt type.width v = v := List.map_inj_left.mp (hsame.trans (List.map_id val).symm)
      refine Or.inr ⟨?_, hfix⟩
      have hheld := (AddRun.call hadd hrest).fixed he hfix |>.2 (node, prop_name) List.mem_cons_self
      have hread := read_length hne (Nat.mod_lt _ (by decide)) hheld (hcalls (node, prop_name) List.mem_cons_self)
      have hsize := (Nat.le_div_iff_mul_le hw).mp hread
      unfold int32 at hlen
      omega
  · rintro (rfl | ⟨hlen, hfix⟩)
    · cases hrun
      exact ⟨fun _ h => absurd h List.not_mem_nil, fun _ h => absurd h List.not_mem_nil⟩
    · obtain ⟨harrays, hheld⟩ := hrun.fixed he hfix
      refine ⟨harrays, fun c hc => ?_⟩
      have hsame : val.map (cpuToFdt type.width) = val := (List.map_congr_left hfix).trans (List.map_id val)
      cases hrun with
      | done => cases hc
      | call hadd _ =>
        obtain ⟨hne, hw, -⟩ := addList_ok he hadd
        have hc := hheld c hc
        rw [int32_ofNat hlen, Int.toNat_natCast, ← flatMap_hostBytes_length, List.take_length] at hc
        rw [read_back hne hw hlen hc, hsame]

end

/-! ## A call on an empty node -/

/-- A tree of one node without properties, and with a list of one cell. -/
def cellTree : Bool → Blob
  | false => blobAt (memOf 0x1000 (assemble [.beginNode [], .endNode] 64)) 0x1000
  | true => blobAt (memOf 0x1000 (assemble [.beginNode [], .prop REG (cell 1), .endNode] 64)) 0x1000

/-- `fdt_setprop` of the cell in the tree without properties; no other call has
room. -/
def cellEditor : Editor Bool Unit where
  blob := cellTree
  offset _ _ := 0
  setprop t _ prop_name val len :=
    if t = false ∧ prop_name = REG ∧ val = cell 1 ∧ len = 4 then (0, true) else (-3, t)

theorem cellTree_reg : Holds cellEditor true ((), REG) (cell 1) :=
  ⟨76, ⟨by decide +kernel, by decide, by decide⟩, by decide +kernel⟩

/-- The first tree has no properties. -/
theorem cellTree_empty (c : Unit × Str) (v : List UInt8) : ¬Holds cellEditor false c v := by
  rintro ⟨p, hprop, -⟩
  have hget := hprop.getprop
  have hfirst : firstPropertyOffset (cellTree false) 0 = -FDT_ERR_NOTFOUND := by decide +kernel
  unfold getprop getPropertyNamelen at hget
  simp only [cellEditor] at hget
  rw [hfirst, propertyScan, if_pos (by decide)] at hget
  cases hget

theorem cellEditor_stores : cellEditor.Stores where
  stores := by
    intro t t' node prop_name bytes len h
    simp only [cellEditor] at h
    split at h
    · rename_i hc
      cases h
      obtain ⟨-, rfl, rfl, rfl⟩ := hc
      exact ⟨by decide, cellTree_reg⟩
    · cases h
  keeps := by
    intro t t' node prop_name bytes len h c v _ hv
    simp only [cellEditor] at h
    split at h
    · rename_i hc
      rw [hc.1] at hv
      exact absurd hv (cellTree_empty c v)
    · cases h

/-- The call that adds the value 1. -/
theorem cellRun : AddRun cellEditor .uint32 false [1] [((), REG)] true [[0x1000000]] :=
  .call (by decide +kernel) (.done _ _)

theorem add_get_exact_cell :
    AddGet cellEditor cellsDefs .uint32 [1] [((), REG)] true [[0x1000000]] ↔
      [((), REG)] = [] ∨ (1 * 4 < 0x80000000 ∧ ∀ v ∈ [1], cpuToFdt 4 v = v) :=
  add_get_exact cellEditor_stores cellRun

/-- After one call the caller's array holds another value. -/
theorem add_swaps_array : ¬∀ (Tree Node : Type) (e : Editor Tree Node) (d : DTBDefs) (type : DataType) (t t' : Tree)
    (val : List Nat) (calls : List (Node × Str)) (arrays : List (List Nat)), e.Stores →
      AddRun e type t val calls t' arrays → AddGet e d type val calls t' arrays := by
  intro h
  obtain ⟨harrays, -⟩ := h _ _ cellEditor cellsDefs _ _ _ _ _ _ cellEditor_stores cellRun
  exact absurd (harrays [0x1000000] List.mem_cons_self) (by decide)

end DTFramework.Extn
