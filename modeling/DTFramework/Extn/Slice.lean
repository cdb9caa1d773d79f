import DTFramework.Extn.Value
import DTFramework.Fdt.Assemble

/-!
# Lists and slices of integers

One loop serves the getters of whole lists and those of slices: it fills as many
elements as the caller's buffer has. For a slice the buffer is the slice, and
the checks before the loop are enough (`slice_exact`). For a whole list the
buffer may be larger than the property: then the loop goes on past the end of
the value (`whole_list_exact`).

Results:

* `whole_list_exact`: the buffers into which a whole list is read;
* `slice_exact`: a slice, or which of its numbers is too large;
* `slice_agrees`: slices are parts of whole lists, 64-bit elements included;
* `boolean_reads_on`: an empty property has the cell behind it read.
-/
namespace DTFramework.Extn

open DTFramework.Fdt

/-! ## The getters -/

/-- mirrors libs/DTBExtnLib/DTBExtnLib_prop.c:357-371, 429-443, 547-561, 621-635:
the buffer is as long as the slice, with the product in 32 bits. -/
def getUintXPropListSlice (d : DTBDefs) (f : Blob) (offset : Int) (name : Str) (index count : Nat)
    (selector : DataType) :=
  getUintXPropList d f offset name (count * selector.width % 0x100000000) index count selector

def getUint8PropListSlice (d : DTBDefs) (f : Blob) (offset : Int) (name : Str) (index count : Nat) :=
  getUintXPropListSlice d f offset name index count .uint8

def getUint16PropListSlice (d : DTBDefs) (f : Blob) (offset : Int) (name : Str) (index count : Nat) :=
  getUintXPropListSlice d f offset name index count .uint16

def getUint32PropListSlice (d : DTBDefs) (f : Blob) (offset : Int) (name : Str) (index count : Nat) :=
  getUintXPropListSlice d f offset name index count .uint32

def getUint64PropListSlice (d : DTBDefs) (f : Blob) (offset : Int) (name : Str) (index count : Nat) :=
  getUintXPropListSlice d f offset name index count .uint64

/-- A call of a getter of a whole list, of a single value, or of
`fdt_get_boolean_prop`. -/
inductive ListGetter
  | uint8PropList (size : Nat)
  | uint16PropList (size : Nat)
  | uint32PropList (size : Nat)
  | uint64PropList (size : Nat)
  | uint8Prop
  | uint16Prop
  | uint32Prop
  | uint64Prop
  | booleanProp
deriving DecidableEq, Repr

/-- The size of the caller's buffer, in bytes. -/
def ListGetter.size : ListGetter → Nat
  | uint8PropList size | uint16PropList size | uint32PropList size | uint64PropList size => size
  | uint8Prop => 1
  | uint16Prop => 2
  | uint32Prop | booleanProp => 4
  | uint64Prop => 8

def ListGetter.type : ListGetter → DataType
  | uint8PropList _ | uint8Prop => .uint8
  | uint16PropList _ | uint16Prop => .uint16
  | uint32PropList _ | uint32Prop | booleanProp => .uint32
  | uint64PropList _ | uint64Prop => .uint64

/-- mirrors libs/DTBExtnLib/DTBExtnLib_prop.c:310-345, 382-417, 454-535, 572-584 -/
def ListGetter.run (d : DTBDefs) (f : Blob) (offset : Int) (name : Str) (g : ListGetter) :
    Except Fault (Int × List Nat) :=
  match g with
  | uint8PropList size => getUint8PropList d f offset name size
  | uint16PropList size => getUint16PropList d f offset name size
  | uint32PropList size => getUint32PropList d f offset name size
  | uint64PropList size => getUint64PropList d f offset name size
  | uint8Prop => getUint8PropList d f offset name 1
  | uint16Prop => getUint16PropList d f offset name 2
  | uint32Prop => getUint32PropList d f offset name 4
  | uint64Prop => getUint64PropList d f offset name 8
  | booleanProp => getUint32PropList d f offset name 4

theorem ListGetter.run_eq (d : DTBDefs) (f : Blob) (offset : Int) (name : Str) (g : ListGetter) :
    g.run d f offset name = getUintXPropList d f offset name g.size 0 0 g.type := by
  cases g <;> rfl

theorem ListGetter.type_ne (g : ListGetter) : g.type ≠ .boolean := by
  cases g <;> exact DataType.noConfusion

/-- The source elements a call reads: the loop reads one for each it writes. -/
def sourceReads (index : Nat) : Except Fault (Int × List Nat) → List Nat
  | .ok (_, list) => (List.range list.length).map fun i => (i + index) % 0x100000000
  | .error _ => []

/-! ## 64-bit loads -/

/-- `EXTRACT_BYTE` on a little-endian host. -/
def extractByte (x n : Nat) : Nat := x / 256 ^ n % 256

/-- mirrors libs/libfdt/libfdt_env.h:30-37 -/
def fdt64ToCpu (x : Nat) : Nat :=
  ((((((extractByte x 0 * 256 + extractByte x 1) * 256 + extractByte x 2) * 256 + extractByte x 3) * 256 +
    extractByte x 4) * 256 + extractByte x 5) * 256 + extractByte x 6) * 256 + extractByte x 7

/-- What a `uint32_t` load finds at `p`. -/
def load32 (f : Blob) (p : Nat) : Nat :=
  (f.rd p).toNat + (f.rd (p + 1)).toNat * 256 + (f.rd (p + 2)).toNat * 256 ^ 2 + (f.rd (p + 3)).toNat * 256 ^ 3

theorem load32_lt (f : Blob) (p : Nat) : load32 f p < 2 ^ 32 := by
  have h0 := (f.rd p).toNat_lt
  have h1 := (f.rd (p + 1)).toNat_lt
  have h2 := (f.rd (p + 2)).toNat_lt
  have h3 := (f.rd (p + 3)).toNat_lt
  unfold load32
  omega

theorem load32_bytes (f : Blob) (p : Nat) : extractByte (load32 f p) 0 = (f.rd p).toNat ∧
    extractByte (load32 f p) 1 = (f.rd (p + 1)).toNat ∧ extractByte (load32 f p) 2 = (f.rd (p + 2)).toNat ∧
    extractByte (load32 f p) 3 = (f.rd (p + 3)).toNat := by
  have h0 := (f.rd p).toNat_lt
  have h1 := (f.rd (p + 1)).toNat_lt
  have h2 := (f.rd (p + 2)).toNat_lt
  have h3 := (f.rd (p + 3)).toNat_lt
  unfold load32 extractByte
  omega

/-- The bytes of two words side by side. -/
theorem extractByte_pair {a b : Nat} (ha : a < 2 ^ 32) :
    (extractByte (a ||| b <<< 32) 0 = extractByte a 0 ∧ extractByte (a ||| b <<< 32) 1 = extractByte a 1 ∧
      extractByte (a ||| b <<< 32) 2 = extractByte a 2 ∧ extractByte (a ||| b <<< 32) 3 = extractByte a 3) ∧
    extractByte (a ||| b <<< 32) 4 = extractByte b 0 ∧ extractByte (a ||| b <<< 32) 5 = extractByte b 1 ∧
      extractByte (a ||| b <<< 32) 6 = extractByte b 2 ∧ extractByte (a ||| b <<< 32) 7 = extractByte b 3 := by
  rw [Nat.or_comm, ← Nat.shiftLeft_add_eq_or_of_lt ha, Nat.shiftLeft_eq]
  unfold extractByte
  omega

/-- The two 32-bit loads of a 64-bit element give its big-endian value. -/
theorem fdt64ToCpu_loads (f : Blob) (p : Nat) :
    fdt64ToCpu (load32 f p ||| load32 f (p + 4) <<< 32) = beValue f p 8 := by
  obtain ⟨⟨h0, h1, h2, h3⟩, h4, h5, h6, h7⟩ := extractByte_pair (b := load32 f (p + 4)) (load32_lt f p)
  obtain ⟨l0, l1, l2, l3⟩ := load32_bytes f p
  obtain ⟨m0, m1, m2, m3⟩ := load32_bytes f (p + 4)
  unfold fdt64ToCpu
  rw [h0, h1, h2, h3, h4, h5, h6, h7, l0, l1, l2, l3, m0, m1, m2, m3]
  simp [beValue, Nat.add_assoc]

/-! ## Groups of elements -/

/-- Whole elements come before those of the rest. -/
theorem elements_append {w : Nat} (hw : 0 < w) {g : List UInt8} (hg : w ∣ g.length) (v : List UInt8) :
    elements w (g ++ v) = elements w g ++ elements w v := by
  obtain ⟨k, hk⟩ := hg
  have hcount : (g ++ v).length / w = k + v.length / w := by
    rw [List.length_append, hk, Nat.mul_add_div hw]
  unfold elements
  rw [hcount, hk, Nat.mul_div_cancel_left _ hw, List.range_add, List.map_append, List.map_map]
  refine congrArg₂ (· ++ ·) (List.map_congr_left fun i hi => ?_) (List.map_congr_left fun i _ => ?_)
  · have hi := List.mem_range.mp hi
    have hle : i * w + w ≤ g.length := by
      rw [hk, Nat.mul_comm w, ← Nat.succ_mul]
      exact Nat.mul_le_mul_right w hi
    rw [List.drop_append_of_le_length (by omega), List.take_append_of_le_length (by rw [List.length_drop]; omega)]
  · simp only [Function.comp]
    rw [Nat.add_mul, ← List.drop_drop, Nat.mul_comm k, ← hk, List.drop_left]

theorem elements_single {w : Nat} (hw : 0 < w) {g : List UInt8} (hg : g.length = w) :
    elements w g = [bigEndian g] := by
  unfold elements
  rw [hg, Nat.div_self hw]
  simp [← hg]

/-! ## What the loop does -/

section
variable {d : DTBDefs} {f : Blob} {o : Int} {name : Str} {p : Nat} {len : Int}

/-- A property `fdt_getprop` finds: where its value is, and how long. -/
structure PropertyAt (f : Blob) (o : Int) (name : Str) (p : Nat) (len : Int) : Prop where
  getprop : getprop f o name = .ok (p, len)
  len_nonneg : 0 ≤ len
  len_le : len ≤ INT_MAX

theorem getprop_len_le (h : getprop f o name = .ok (p, len)) : len ≤ INT_MAX := by
  unfold getprop at h
  split at h
  · cases h
  · cases h
    have := (int32_bounds (propLen f ‹_›)).2
    simp only [INT_MAX]
    omega

/-- The number of elements of a value. -/
theorem PropertyAt.data_count (h : PropertyAt f o name p len) (w : Nat) :
    int32 (u32 len / w) = (len.toNat / w : Nat) ∧ len.toNat / w < 0x80000000 := by
  have h0 := h.len_nonneg
  have h1 := h.len_le
  simp only [INT_MAX] at h1
  have hu : u32 len = len.toNat := by
    unfold u32
    omega
  have hlt : len.toNat / w < 0x80000000 := Nat.lt_of_le_of_lt (Nat.div_le_self _ _) (by omega)
  rw [hu, ← Int.natCast_ediv]
  exact ⟨int32_ofNat hlt, hlt⟩

theorem u32_int32 {n : Nat} (h : n < 0x100000000) : u32 (int32 n) = n := by
  unfold u32 int32
  omega

/-- The checks before the loop, on the natural numbers they stand for. -/
theorem getUintXPropList_eq (h : PropertyAt f o name p len) {t : DataType} (ht : t ≠ .boolean) {size index count : Nat}
    (hsize : size < 0x100000000) :
    getUintXPropList d f o name size index count t =
      if len.toNat / t.width < index then .ok (-d.FDT_ERR_QC_SLICE_RANGE, [])
      else if len.toNat / t.width - index < count then .ok (-d.FDT_ERR_QC_SLICE_COUNT, [])
      else if size / t.width < count then .ok (-d.FDT_ERR_QC_BUF2SMALL, [])
      else if count = 0 ∧ size / t.width < len.toNat / t.width - index then .ok (-d.FDT_ERR_QC_BUF2SMALL, [])
      else .ok (FDT_ERR_QC_NOERROR, (List.range (int32 (size / t.width : Nat)).toNat).map fun i =>
        beValue f (p + (i + index) % 0x100000000 * t.width) t.width) := by
  obtain ⟨hdata, hlt⟩ := h.data_count t.width
  have helem : size / t.width < 0x100000000 := Nat.lt_of_le_of_lt (Nat.div_le_self _ _) hsize
  have hdiv : ((size : Int) / (t.width : Int)) = (size / t.width : Nat) := by simp
  unfold getUintXPropList
  rw [h.getprop]
  simp only
  rw [if_neg (Int.not_lt.mpr h.len_nonneg), if_neg (fun hc => ht hc.2), if_neg ht, hdata, hdiv, u32_int32 helem,
    u32_ofNat (by omega)]

/-! ## Whole lists -/

/-- What a getter of a whole list promises for a buffer of `size` bytes: an error
and nothing written when the elements do not fit; else the elements, nothing
after them, and no read past the value. -/
def ListExact (d : DTBDefs) (size w : Nat) (v : List UInt8) (r : Except Fault (Int × List Nat)) : Prop :=
  if size / w < v.length / w then r = .ok (-d.FDT_ERR_QC_BUF2SMALL, [])
  else r = .ok (FDT_ERR_QC_NOERROR, elements w v) ∧ ∀ i ∈ sourceReads 0 r, i < v.length / w

theorem getUintXPropList_whole (h : PropertyAt f o name p len) {t : DataType} (ht : t ≠ .boolean) {size : Nat}
    (hsize : size < 0x100000000) (hfit : ¬size / t.width < len.toNat / t.width) :
    getUintXPropList d f o name size 0 0 t =
      .ok (FDT_ERR_QC_NOERROR, (List.range (int32 (size / t.width : Nat)).toNat).map fun i =>
        beValue f (p + i * t.width) t.width) := by
  rw [getUintXPropList_eq h ht hsize, if_neg (Nat.not_lt_zero _), Nat.sub_zero, if_neg (Nat.not_lt_zero _),
    if_neg (Nat.not_lt_zero _), if_neg (fun hc => hfit hc.2)]
  refine congrArg (fun l => Except.ok (FDT_ERR_QC_NOERROR, l)) (List.map_congr_left fun i hi => ?_)
  have hi := List.mem_range.mp hi
  have := (int32_bounds (size / t.width : Nat)).2
  rw [Nat.add_zero, Nat.mod_eq_of_lt (by omega)]

/-- A whole list is read exactly when the buffer has no more elements than the
value; or the value has none, and the buffer so many bytes that their number is
a negative `int`. -/
theorem whole_list_exact (g : ListGetter) (h : PropertyAt f o name p len) (hsize : g.size < 0x100000000) :
    ListExact d g.size g.type.width (bytesAt f p len.toNat) (g.run d f o name) ↔
      g.size / g.type.width ≤ len.toNat / g.type.width ∨
        (len.toNat / g.type.width = 0 ∧ 0x80000000 ≤ g.size / g.type.width) := by
  have hlt := (h.data_count g.type.width).2
  have helem : g.size / g.type.width < 0x100000000 := Nat.lt_of_le_of_lt (Nat.div_le_self _ _) hsize
  unfold ListExact
  rw [g.run_eq, bytesAt_length]
  by_cases hfit : g.size / g.type.width < len.toNat / g.type.width
  · rw [if_pos hfit, getUintXPropList_eq h g.type_ne hsize, if_neg (Nat.not_lt_zero _), Nat.sub_zero,
      if_neg (Nat.not_lt_zero _), if_neg (Nat.not_lt_zero _), if_pos ⟨rfl, hfit⟩]
    exact ⟨fun _ => Or.inl (Nat.le_of_lt hfit), fun _ => rfl⟩
  · rw [if_neg hfit, getUintXPropList_whole h g.type_ne hsize hfit, elements_bytesAt]
    generalize g.size / g.type.width = elem, len.toNat / g.type.width = data at *
    constructor
    · rintro ⟨heq, -⟩
      -- as many elements are written as the loop has turns
      have hcount : (int32 elem).toNat = data := by
        have hl := congrArg List.length (Prod.mk.inj (Except.ok.inj heq)).2
        rwa [List.length_map, List.length_range, List.length_map, List.length_range] at hl
      unfold int32 at hcount
      omega
    · intro hc
      have hcount : (int32 elem).toNat = data := by
        unfold int32
        omega
      rw [hcount]
      refine ⟨rfl, fun i hi => ?_⟩
      obtain ⟨j, hj, rfl⟩ := List.mem_map.mp hi
      simp only [List.length_map, List.length_range, List.mem_range] at hj
      rw [Nat.add_zero, Nat.mod_eq_of_lt (by omega)]
      exact hj

/-! ## Slices -/

/-- A slice is the elements from `index` on, if there are as many; else an error
says which of the two numbers is too large, and nothing is written. -/
theorem slice_exact (h : PropertyAt f o name p len) {t : DataType} (ht : t ≠ .boolean) {index count : Nat}
    (hindex : index < 0x100000000) (hcount : count < 0x100000000) (hpos : 1 ≤ count) :
    getUintXPropListSlice d f o name index count t =
      if index + count ≤ len.toNat / t.width then
        .ok (FDT_ERR_QC_NOERROR, ((elements t.width (bytesAt f p len.toNat)).drop index).take count)
      else if len.toNat / t.width < index then .ok (-d.FDT_ERR_QC_SLICE_RANGE, [])
      else .ok (-d.FDT_ERR_QC_SLICE_COUNT, []) := by
  have hw : 1 ≤ t.width ∧ t.width ≤ 8 := by cases t <;> simp [DataType.width] at ht ⊢
  have hlt := (h.data_count t.width).2
  have hlen : len.toNat ≤ INT_MAX := by
    have := h.len_le
    omega
  unfold getUintXPropListSlice
  rw [getUintXPropList_eq h ht (Nat.mod_lt _ (by decide))]
  by_cases hrange : len.toNat / t.width < index
  · rw [if_pos hrange, if_neg (by omega), if_pos hrange]
  · rw [if_neg hrange]
    by_cases hcnt : len.toNat / t.width - index < count
    · rw [if_pos hcnt, if_neg (by omega), if_neg hrange]
    · -- the product does not wrap, since the slice is in the value
      have hfit : index + count ≤ len.toNat / t.width := by omega
      have hmul : count * t.width ≤ len.toNat :=
        Nat.le_trans (Nat.mul_le_mul_right _ (by omega)) (Nat.div_mul_le_self len.toNat t.width)
      have hsize : count * t.width % 0x100000000 / t.width = count := by
        rw [Nat.mod_eq_of_lt (by simp only [INT_MAX] at hlen; omega), Nat.mul_div_cancel _ (by omega)]
      rw [if_neg hcnt, if_pos hfit, hsize, if_neg (Nat.lt_irrefl _), if_neg (by omega), elements_bytesAt,
        int32_ofNat (by omega), Int.toNat_natCast]
      refine congrArg (fun l => Except.ok (FDT_ERR_QC_NOERROR, l)) (List.ext_getElem ?_ fun i h1 h2 => ?_)
      · rw [List.length_map, List.length_range, List.length_take, List.length_drop, List.length_map, List.length_range]
        omega
      · have hi : i < count := by simpa using h1
        simp only [List.getElem_map, List.getElem_range, List.getElem_take, List.getElem_drop]
        rw [Nat.mod_eq_of_lt (by omega), Nat.add_comm i index]

theorem DTBDefs.code_ne (d : DTBDefs) : -d.FDT_ERR_QC_SLICE_RANGE ≠ FDT_ERR_QC_NOERROR ∧
    -d.FDT_ERR_QC_SLICE_COUNT ≠ FDT_ERR_QC_NOERROR := by
  have h1 := d.extends_std d.FDT_ERR_QC_SLICE_RANGE (by simp)
  have h2 := d.extends_std d.FDT_ERR_QC_SLICE_COUNT (by simp)
  simp only [FDT_ERR_MAX, FDT_ERR_QC_NOERROR] at *
  omega

/-- Slices agree with whole lists: a slice succeeds when it lies in the list, and
is that part of it; 64-bit elements are put together from two 32-bit loads. -/
theorem slice_agrees (h : PropertyAt f o name p len) {t : DataType} (ht : t ≠ .boolean) {index count : Nat}
    (hindex : index < 0x100000000) (hcount : count < 0x100000000) (hpos : 1 ≤ count) :
    ((∃ l, getUintXPropListSlice d f o name index count t = .ok (FDT_ERR_QC_NOERROR, l)) ↔
      index + count ≤ len.toNat / t.width) ∧
    (index + count ≤ len.toNat / t.width → getUintXPropListSlice d f o name index count t =
      .ok (FDT_ERR_QC_NOERROR, ((elements t.width (bytesAt f p len.toNat)).drop index).take count)) ∧
    (¬index + count ≤ len.toNat / t.width → getUintXPropListSlice d f o name index count t =
      .ok (if len.toNat / t.width < index then -d.FDT_ERR_QC_SLICE_RANGE else -d.FDT_ERR_QC_SLICE_COUNT, [])) ∧
    ∀ q, fdt64ToCpu (load32 f q ||| load32 f (q + 4) <<< 32) = beValue f q 8 := by
  have hslice := slice_exact (d := d) h ht hindex hcount hpos
  refine ⟨⟨?_, fun hin => ⟨_, by rw [hslice, if_pos hin]⟩⟩, fun hin => by rw [hslice, if_pos hin], fun hout => ?_,
    fdt64ToCpu_loads f⟩
  · rintro ⟨l, hl⟩
    by_contra hout
    rw [hslice, if_neg hout] at hl
    split at hl
    · exact d.code_ne.1 (Prod.mk.inj (Except.ok.inj hl)).1
    · exact d.code_ne.2 (Prod.mk.inj (Except.ok.inj hl)).1
  · rw [hslice, if_neg hout]
    split <;> rfl

end

/-! ## A small tree -/

/-- "reg" -/
abbrev REG : Str := [114, 101, 103]

/-- A tree of one node with a list of three cells and an empty property "e". -/
def cellsBlob : Blob := blobAt (memOf 0x1000 (assemble
  [.beginNode [], .prop REG (cell 1 ++ cell 2 ++ cell 0x80000003), .prop [101] [], .endNode] 0)) 0x1000

def cellsDefs : DTBDefs := ⟨1000, 1001, 1002, 1003, 1004, 1005, 1006, 1007, 1008, 1009, 5, 0, ten_extends_std⟩

theorem cellsBlob_reg : PropertyAt cellsBlob 0 REG 76 12 where
  getprop := by decide +kernel
  len_nonneg := by decide
  len_le := by decide

theorem cellsBlob_empty : PropertyAt cellsBlob 0 [101] 100 0 where
  getprop := by decide +kernel
  len_nonneg := by decide
  len_le := by decide

theorem slice_agrees_cells :
    ((∃ l, getUintXPropListSlice cellsDefs cellsBlob 0 REG 1 2 .uint32 = .ok (FDT_ERR_QC_NOERROR, l)) ↔
      1 + 2 ≤ 12 / 4) ∧
    (1 + 2 ≤ 12 / 4 → getUintXPropListSlice cellsDefs cellsBlob 0 REG 1 2 .uint32 =
      .ok (FDT_ERR_QC_NOERROR, ((elements 4 (bytesAt cellsBlob 76 12)).drop 1).take 2)) ∧
    (¬1 + 2 ≤ 12 / 4 → getUintXPropListSlice cellsDefs cellsBlob 0 REG 1 2 .uint32 =
      .ok (if 12 / 4 < 1 then -cellsDefs.FDT_ERR_QC_SLICE_RANGE else -cellsDefs.FDT_ERR_QC_SLICE_COUNT, [])) ∧
    ∀ q, fdt64ToCpu (load32 cellsBlob q ||| load32 cellsBlob (q + 4) <<< 32) = beValue cellsBlob q 8 :=
  slice_agrees (t := .uint32) cellsBlob_reg DataType.noConfusion (by decide) (by decide) (by decide)

/-- `fdt_get_boolean_prop` of an empty property does not leave the buffer alone:
it reads the cell after the value. -/
theorem boolean_reads_on : ¬∀ (d : DTBDefs) (f : Blob) (o : Int) (name : Str) (p : Nat) (len : Int) (g : ListGetter),
    PropertyAt f o name p len → g.size < 0x100000000 →
      ListExact d g.size g.type.width (bytesAt f p len.toNat) (g.run d f o name) := by
  intro h
  have hexact := h cellsDefs cellsBlob 0 [101] 100 0 .booleanProp cellsBlob_empty (by decide)
  have hrun : (ListGetter.booleanProp.run cellsDefs cellsBlob 0 [101]).map (fun r => r.2.length) = .ok 1 := by
    decide +kernel
  unfold ListExact at hexact
  rw [if_neg (by decide)] at hexact
  rw [hexact.1] at hrun
  exact absurd (Except.ok.inj hrun) (by decide)

theorem whole_list_exact_cells :
    ListExact cellsDefs 12 4 (bytesAt cellsBlob 76 12) ((ListGetter.uint32PropList 12).run cellsDefs cellsBlob 0 REG) ↔
      12 / 4 ≤ 12 / 4 ∨ (12 / 4 = 0 ∧ 0x80000000 ≤ 12 / 4) :=
  whole_list_exact (.uint32PropList 12) cellsBlob_reg (by decide)

end DTFramework.Extn
