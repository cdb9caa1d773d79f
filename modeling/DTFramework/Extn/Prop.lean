import DTFramework.Fdt.Read

/-!
# Property getters of DTBExtnLib

The getters over `fdt_getprop`: sizes, lists of integers, lists of strings, and
the names of a node's properties. A getter returns its status and what it wrote
to the caller's buffer, from the start of the buffer on.

`DTBDefs.h`, which is generated by the build, holds the error codes of the
library: they are parameters (`DTBDefs`), of which only is known that they
extend the standard codes. Integers are read on a little-endian host, so the
`fdtN_to_cpu` of a load is the big-endian value of the bytes.

Results:

* `libraryCode_ne`: a code of the library is no success, with either sign, which is
  all that callers need to know of `DTBDefs.h`;
* `getPropSize_lt`: sizes are `uint32_t`.
-/
namespace DTFramework.Extn

open DTFramework.Fdt

/-- What a call does instead of returning when it leaves the defined part of C. -/
inductive Fault
  | divZero
  | outOfBounds
  | nullDeref
  /-- The call does not return. -/
  | diverge
deriving DecidableEq, Repr

abbrev FDT_ERR_QC_NOERROR : Int := 0

/-- The constants of `DTBDefs.h`. -/
structure DTBDefs where
  FDT_ERR_QC_NULLPTR : Int
  FDT_ERR_QC_BLOBID : Int
  FDT_ERR_QC_FDTLIB_ERROR : Int
  FDT_ERR_QC_SLICE_RANGE : Int
  FDT_ERR_QC_SLICE_COUNT : Int
  FDT_ERR_QC_BUF2SMALL : Int
  FDT_ERR_QC_OVERFLOW : Int
  FDT_ERR_QC_TRUNCATED : Int
  FDT_ERR_QC_INPUT_ARG_ERR : Int
  FDT_ERR_QC_MEMALLOC : Int
  MAX_BLOB_ID : Nat
  DEFAULT_BLOB_ID : Nat
  /-- The library extends the standard error codes. -/
  extends_std : ∀ c ∈ [FDT_ERR_QC_NULLPTR, FDT_ERR_QC_BLOBID, FDT_ERR_QC_FDTLIB_ERROR,
    FDT_ERR_QC_SLICE_RANGE, FDT_ERR_QC_SLICE_COUNT, FDT_ERR_QC_BUF2SMALL, FDT_ERR_QC_OVERFLOW,
    FDT_ERR_QC_TRUNCATED, FDT_ERR_QC_INPUT_ARG_ERR, FDT_ERR_QC_MEMALLOC], FDT_ERR_MAX < c

/-- Codes from 1000 on extend the standard ones. -/
theorem from_1000_extends_std {c : Int} (h : 1000 ≤ c) : FDT_ERR_MAX < c := Int.lt_of_lt_of_le (by decide) h

theorem ten_extends_std : ∀ c ∈ [(1000 : Int), 1001, 1002, 1003, 1004, 1005, 1006, 1007, 1008, 1009],
    FDT_ERR_MAX < c :=
  fun _ h => from_1000_extends_std (by simp at h; omega)

theorem eleventh_extends_std : FDT_ERR_MAX < 1010 := from_1000_extends_std (by decide)

/-- `fdt_node_handle`: the address of a blob and the offset of a node in it. -/
structure NodeHandle where
  blob : Nat
  offset : Int
deriving DecidableEq, Repr

/-- An `int` converted to `uint32_t`. -/
def u32 (x : Int) : Nat := (x % 0x100000000).toNat

/-- `LEN_ERROR_CHECK`. mirrors libs/DTBExtnLib/DTBInternals.h:31-36 -/
def lenError (d : DTBDefs) (len : Int) : Int := if len < 0 then len else -d.FDT_ERR_QC_FDTLIB_ERROR

/-- A code of the library is no success, with either sign. -/
theorem libraryCode_ne {c : Int} (h : FDT_ERR_MAX < c) : c ≠ FDT_ERR_QC_NOERROR ∧ -c ≠ FDT_ERR_QC_NOERROR := by
  simp only [FDT_ERR_MAX, FDT_ERR_QC_NOERROR] at h ⊢
  omega

theorem lenError_ne (d : DTBDefs) (len : Int) : lenError d len ≠ FDT_ERR_QC_NOERROR := by
  unfold lenError
  split
  · rename_i hlen
    exact Int.ne_of_lt hlen
  · exact (libraryCode_ne (d.extends_std _ (by simp))).2

/-- mirrors libs/DTBExtnLib/DTBExtnLib_prop.c:61-104: the status and `*size`,
which stays as it was on an error. -/
def getPropSize (d : DTBDefs) (f : Blob) (offset : Int) (name : Str) (size : Nat) : Int × Nat :=
  match getprop f offset name with
  | .error len => (lenError d len, size)
  | .ok (_, len) => if len < 0 then (lenError d len, size) else (FDT_ERR_QC_NOERROR, u32 len)

/-- Sizes are `uint32_t`. -/
theorem getPropSize_lt (d : DTBDefs) (f : Blob) (offset : Int) (name : Str) :
    (getPropSize d f offset name 0).2 < 2 ^ 32 := by
  unfold getPropSize u32
  split
  · exact Nat.two_pow_pos 32
  · split
    · exact Nat.two_pow_pos 32
    · dsimp only
      omega

/-- `dt_data_type`, whose values are the widths of the elements. -/
inductive DataType
  | boolean
  | uint8
  | uint16
  | uint32
  | uint64
deriving DecidableEq, Repr

def DataType.width : DataType → Nat
  | .boolean => 0
  | .uint8 => 1
  | .uint16 => 2
  | .uint32 => 4
  | .uint64 => 8

/-- The big-endian value of `n` bytes at `p`. -/
def beValue (f : Blob) (p : Nat) : Nat → Nat
  | 0 => 0
  | n + 1 => beValue f p n * 256 + (f.rd (p + n)).toNat

/-- mirrors libs/DTBExtnLib/DTBExtnLib_prop.c:124-291
(`_fdt_get_uintX_prop_list`) for a non-null `prop_list`, or none at all for
`dt_boolean`. With `dt_boolean` and a value that is not empty, both counts are
divided by zero. -/
def getUintXPropList (d : DTBDefs) (f : Blob) (offset : Int) (name : Str) (size index count : Nat)
    (selector : DataType) : Except Fault (Int × List Nat) :=
  match getprop f offset name with
  | .error len => .ok (lenError d len, [])
  | .ok (vptr, len) =>
    if len < 0 then .ok (lenError d len, [])
    else if len = 0 ∧ selector = .boolean then .ok (FDT_ERR_QC_NOERROR, [])
    else if selector = .boolean then .error .divZero
    else
      let w := selector.width
      let elem_count := int32 (size / w)
      let data_count := int32 (u32 len / w)
      if index > u32 data_count then .ok (-d.FDT_ERR_QC_SLICE_RANGE, [])
      else if count > u32 data_count - index then .ok (-d.FDT_ERR_QC_SLICE_COUNT, [])
      else if count > u32 elem_count then .ok (-d.FDT_ERR_QC_BUF2SMALL, [])
      else if count = 0 ∧ u32 elem_count < u32 data_count - index then
        .ok (-d.FDT_ERR_QC_BUF2SMALL, [])
      else .ok (FDT_ERR_QC_NOERROR, (List.range elem_count.toNat).map fun i =>
        beValue f (vptr + (i + index) % 0x100000000 * w) w)

/-- mirrors libs/DTBExtnLib/DTBExtnLib_prop.c:310-323 -/
def getUint8PropList (d : DTBDefs) (f : Blob) (offset : Int) (name : Str) (size : Nat) :=
  getUintXPropList d f offset name size 0 0 .uint8

def getUint16PropList (d : DTBDefs) (f : Blob) (offset : Int) (name : Str) (size : Nat) :=
  getUintXPropList d f offset name size 0 0 .uint16

def getUint32PropList (d : DTBDefs) (f : Blob) (offset : Int) (name : Str) (size : Nat) :=
  getUintXPropList d f offset name size 0 0 .uint32

def getUint64PropList (d : DTBDefs) (f : Blob) (offset : Int) (name : Str) (size : Nat) :=
  getUintXPropList d f offset name size 0 0 .uint64

/-- mirrors libs/DTBExtnLib/DTBExtnLib_prop.c:595-606: the status alone. -/
def getBoolProp (d : DTBDefs) (f : Blob) (offset : Int) (name : Str) : Except Fault Int :=
  (getUintXPropList d f offset name 0 0 0 .boolean).map Prod.fst

/-- The bytes of a string list in the caller's buffer: the last one is made NUL. -/
def terminated (bytes : List UInt8) : List UInt8 := bytes.dropLast ++ (bytes.getLast?.map fun _ => 0).toList

/-- mirrors libs/DTBExtnLib/DTBExtnLib_prop.c:649-716 -/
def getStringPropList (d : DTBDefs) (f : Blob) (offset : Int) (name : Str) (size : Nat) :
    Int × List UInt8 :=
  match getProperty f offset name with
  | .error len => (lenError d len, [])
  | .ok (data, len) =>
    if len < 0 then (lenError d len, [])
    else if u32 len > size then (-d.FDT_ERR_QC_BUF2SMALL, [])
    else (FDT_ERR_QC_NOERROR, terminated ((List.range len.toNat).map fun i => f.rd (data + i)))

/-! ## Names of properties -/

/-- `fdt_for_each_property_offset` with `fdt_getprop_by_offset`, from the
property at `offset` on: the status and the names up to the first error. The
iteration ends without an error at every negative offset. -/
def propNameScan (d : DTBDefs) (f : Blob) (offset : Int) : Int × List Str :=
  if offset < 0 then (FDT_ERR_QC_NOERROR, [])
  else match getpropByOffset f offset with
  | .error len => (lenError d len, [])
  | .ok (pname, len) =>
    if len < 0 then (lenError d len, [])
    else if _h : nextPropertyOffset f offset < 0 then (FDT_ERR_QC_NOERROR, [pname])
    else
      let rest := propNameScan d f (nextPropertyOffset f offset)
      (rest.1, pname :: rest.2)
termination_by room offset
decreasing_by exact nextProperty_room (Int.not_lt.mp _h)

/-- Bytes the names take, each with its NUL. -/
def namesLength (names : List Str) : Nat := (names.map fun s => s.length + 1).sum

/-- mirrors libs/DTBExtnLib/DTBExtnLib_node.c:1350-1392
(`fdt_get_prop_names_size_of_node`): the status and `*size`. -/
def getPropNamesSize (d : DTBDefs) (f : Blob) (offset : Int) : Int × Nat :=
  let names := propNameScan d f (firstPropertyOffset f offset)
  (names.1, namesLength names.2 % 0x100000000)

/-- The copy loop of `fdt_get_prop_names_of_node` over the names it visits:
the status and the bytes written. The index of the inner loop is a `uint16_t`,
so a name of 65535 characters or more is copied for ever. -/
def fillNames (d : DTBDefs) (size status : Int) : List Str → Except Fault (Int × List UInt8)
  | [] => .ok (status, [])
  | pname :: names =>
    if INT_MAX ≤ pname.length then .ok (-d.FDT_ERR_QC_OVERFLOW, [])
    else if size < pname.length + 1 then .ok (d.FDT_ERR_QC_TRUNCATED, [])
    else if 0xffff < pname.length + 1 then .error .diverge
    else match fillNames d (size - (pname.length + 1)) status names with
    | .error e => .error e
    | .ok (r, bytes) => .ok (r, pname ++ 0 :: bytes)

/-- mirrors libs/DTBExtnLib/DTBExtnLib_node.c:1406-1471
(`fdt_get_prop_names_of_node`): the status and the bytes written. The NUL that
is put at the end of the buffer is there already when the names fill it. -/
def getPropNames (d : DTBDefs) (f : Blob) (offset : Int) (size : Nat) :
    Except Fault (Int × List UInt8) :=
  let names := propNameScan d f (firstPropertyOffset f offset)
  fillNames d size names.1 names.2

end DTFramework.Extn
