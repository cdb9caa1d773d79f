import DTFramework.Fdt.Copy
import DTFramework.Select.Open

/-!
# Reading blobs with a handle

`dt_select_read_blob` copies the selected blob of a type to the caller's
buffer, or answers its address when the caller has none; `dt_select_close`
gives the handle back. Both look at the guard word first.

Results:

* `dtSelectReadBlob_ok`: reading a blob whose header still says the size selected;
* `dtSelectReadBlob_guard`: without the guard word nothing is read.
-/
namespace DTFramework.Select

open DTFramework.Fdt DTFramework.Extn DTFramework.Lib

abbrev READ_BLOB_TYPE_MISMATCH : Int := -10
abbrev MEMCOPY_FAIL : Int := -11
abbrev READ_BLOB_SIZE_MISMATCH : Int := -12

abbrev DT_SELECT_LIBRARY_ID : Nat := 0x445453454c454354

/-- The block a handle points to: `handle_data` with its guard.
mirrors libs/DTSelectLib/dt_select_internal.h:132-148 -/
structure Handle where
  data_guard : Nat
  data : HandleData
deriving DecidableEq, Repr

/-- The block `dt_select_open` leaves on success. -/
def Opened.block (o : Opened) : Handle := ⟨DT_SELECT_LIBRARY_ID, o.handle⟩

/-- mirrors libs/DTSelectLib/dt_select.c:836-847, for a handle that is not null -/
def handleCheck (h : Handle) : Int := if DT_SELECT_LIBRARY_ID ≠ h.data_guard then FAIL else SUCCESS

/-- A `size_t` after a `uint32_t` was written through its address, on a
little-endian host. -/
def writeLow32 (size value : Nat) : Nat := size / 0x100000000 * 0x100000000 + value

/-- `MEMCPY_WRAPPER`: how many bytes were copied, and the memory.
mirrors libs/DTSelectLib/Environment/dt_select_env.c:75-89 -/
def memcpyWrapper (m : Mem) (dst dst_size src src_size : Nat) : Nat × Mem :=
  let source_size := if src_size > dst_size then dst_size else src_size
  (source_size, copy m dst src source_size)

/-- The address and size of the selected blob of a type. -/
def HandleData.blob (h : HandleData) : BlobType → Nat × Nat
  | .BASE_DTB => (h.base_dtb_ptr, h.base_dtb_size)
  | .SOC_DTBO => (h.soc_dtbo_ptr, h.soc_dtbo_size)
  | .PLATFORM_DTBO => (h.plat_dtbo_ptr, h.plat_dtbo_size)

/-- mirrors libs/DTSelectLib/dt_select.c:2520-2593: the status, `*blob_ptr` and
the memory. A null pointer is `none`, and so is a type that is not one of the
enumeration. -/
def dtSelectReadBlob (d : DTBDefs) (m : Mem) (handle : Option Handle) (read_blob_type : Option BlobType)
    (blob_ptr : Option Nat) (blob_size : Nat) : Int × Option Nat × Mem :=
  match handle, blob_ptr with
  | some h, some ptr =>
    if SUCCESS ≠ handleCheck h then (INVALID_PARAMETER, blob_ptr, m)
    else match read_blob_type with
    | none => (READ_BLOB_TYPE_MISMATCH, blob_ptr, m)
    | some type =>
      let address := (h.data.blob type).1
      let size := (h.data.blob type).2
      if size ≠ 0 ∧ blob_size = size then
        let read := getBlobSize d m ⟨address, 0⟩
        if read.1 ≠ 0 then (read.1, blob_ptr, m)
        else
          let size := writeLow32 size read.2
          if size = blob_size then
            if ptr = 0 then (SUCCESS, some address, m)
            else
              let copied := memcpyWrapper m ptr blob_size address size
              if copied.1 ≠ size then (MEMCOPY_FAIL, blob_ptr, copied.2) else (SUCCESS, blob_ptr, copied.2)
          else (READ_BLOB_SIZE_MISMATCH, blob_ptr, m)
      else (READ_BLOB_SIZE_MISMATCH, blob_ptr, m)
  | _, _ => (INVALID_PARAMETER, blob_ptr, m)

/-- mirrors libs/DTSelectLib/dt_select.c:2601-2613; `handle` is the pointer and
`block` what it points to. -/
def dtSelectClose (handle : Nat) (block : Handle) : Prog Int :=
  if handle = 0 ∨ SUCCESS ≠ handleCheck block then return INVALID_PARAMETER
  else do
    free handle HANDLE_SIZE
    return SUCCESS

theorem handleCheck_opened (o : Opened) : handleCheck o.block = SUCCESS := if_neg (not_not.mpr rfl)

/-- Reading a blob whose header still says the size that was selected. -/
theorem dtSelectReadBlob_ok {d : DTBDefs} {m : Mem} {h : Handle} {type : BlobType} {address size : Nat} (ptr : Nat)
    (hg : handleCheck h = SUCCESS) (hb : h.data.blob type = (address, size)) (haddr : address ≠ 0) (hne : size ≠ 0)
    (hlt : size < 2 ^ 32) (hsize : totalsize (blobAt m address) = size) :
    dtSelectReadBlob d m (some h) (some type) (some ptr) size =
      if ptr = 0 then (SUCCESS, some address, m) else (SUCCESS, some ptr, copy m ptr address size) := by
  have hblob : getBlobSize d m ⟨address, 0⟩ = (FDT_ERR_QC_NOERROR, size) := by
    unfold getBlobSize
    dsimp only
    rw [if_neg haddr, hsize]
  have hlow : writeLow32 size size = size := by
    unfold writeLow32
    omega
  have hcopy : memcpyWrapper m ptr size address size = (size, copy m ptr address size) := by
    unfold memcpyWrapper
    rw [if_neg (Nat.lt_irrefl _)]
  simp only [dtSelectReadBlob, hg, hb, hblob, hlow, hcopy, hne, ne_eq, not_true_eq_false, if_false, if_true,
    not_false_eq_true, and_self]

/-- Without the guard word nothing is read. -/
theorem dtSelectReadBlob_guard {d : DTBDefs} {m : Mem} {h : Handle} (hg : h.data_guard ≠ DT_SELECT_LIBRARY_ID)
    (type : Option BlobType) (ptr : Option Nat) (size : Nat) :
    dtSelectReadBlob d m (some h) type ptr size = (INVALID_PARAMETER, ptr, m) := by
  have hc : SUCCESS ≠ handleCheck h := by
    unfold handleCheck
    rw [if_pos fun he => hg he.symm]
    decide
  unfold dtSelectReadBlob
  cases ptr with
  | none => rfl
  | some p =>
    dsimp only
    rw [if_pos hc]

end DTFramework.Select
