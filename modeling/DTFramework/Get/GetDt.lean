import DTFramework.Select.Handle
import DTFramework.Get.Merge

/-!
# Getting the device tree

`get_dt` in its two builds. It opens a selection, takes a working buffer, reads
the base tree into it, applies the overlays, and closes the selection; a single
exit block releases everything when anything failed. Without `TARGET_XBL` the
buffer is allocated, and each overlay is read and applied in turn. With it,
`PRE` works in the caller's image instead, and both overlays are read before
the first is applied.

The stages take and return the local variables (`Locals`) with a status; a
non-zero status leaves for the exit block. The events are those of the heap and
the calls of `fdt_merge_overlay`, with the memory they are made in.
-/
namespace DTFramework.Get

open DTFramework.Fdt DTFramework.Extn DTFramework.Lib DTFramework.Select

abbrev GET_DT_ERR_NONE : Int := 0x0
abbrev GET_DT_ERR_INVALID_PARAMETER : Int := 0x1
abbrev GET_DT_ERR_HANDLE_RETURN_ERROR : Int := 0x2
abbrev GET_DT_ERR_INVALID_BASE_DTB_SIZE : Int := 0x3
abbrev GET_DT_ERR_MALLOC_FAIL : Int := 0x4
abbrev GET_DT_ERR_SIZE_OVERFLOW : Int := 0x5
abbrev GET_DT_ERR_INVALID_BASE_DTB_PTR : Int := 0x6

/-- What `get_dt` does that can be seen from outside. -/
inductive GetEvent
  | heap (ev : HeapEvent)
  | merge (call : MergeCall)

abbrev GetProg := Traced GetEvent Fault

/-- The environment of `get_dt`: that of the selection, the answers to its own
requests (one for each blob), and libfdt. -/
structure GetEnv where
  sel : Env
  alloc : BlobType → Nat → Nat
  lib : Libfdt

/-- What the client passes; of the two output pointers, whether they are null. -/
structure GetArgs extends OpenArgs where
  dtb_addr_null : Bool
  dtb_size_null : Bool

/-- The local variables, with the memory. -/
structure Locals where
  mem : Mem
  base_dtb_ptr : Nat
  base_dtb_size : Nat
  soc_dtbo_ptr : Nat
  soc_dtbo_size : Nat
  plat_dtbo_ptr : Nat
  plat_dtbo_size : Nat
  total_blob_size : Nat

/-- What `get_dt` leaves: the status, `*dtb_addr` and `*dtb_size` where it
wrote them, and the memory. -/
structure GetResult where
  status : Int
  outputs : Option (Nat × Nat)
  mem : Mem

/-- `MALLOC_WRAPPER` -/
def getMalloc (g : GetEnv) (type : BlobType) (size : Nat) : GetProg Nat := do
  Traced.emit (.heap (.malloc size (g.alloc type size)))
  return g.alloc type size

/-- `FREE_WRAPPER` -/
def getFree (ptr size : Nat) : GetProg Unit := Traced.emit (.heap (.free ptr size))

/-- `if (p) FREE_WRAPPER (p, size)` -/
def getFreeIf (ptr size : Nat) : GetProg Unit := if ptr ≠ 0 then getFree ptr size else return ()

/-- A call of the selection library. -/
def select {α : Type} (x : Prog α) : GetProg α := x.mapEvents .heap

/-- A call of `fdt_merge_overlay`. -/
def merge (g : GetEnv) (c : MergeCall) : GetProg (Int × Mem) := do
  Traced.emit (.merge c)
  return fdtMergeOverlay g.sel.defs g.lib c

/-- A stage after another one, unless that one left for the exit block. -/
def thenStage (x : GetProg (Int × Locals)) (f : Locals → GetProg (Int × Locals)) : GetProg (Int × Locals) := do
  let (status, l) ← x
  if status ≠ 0 then return (status, l) else f l

/-- The locals before anything was selected. -/
def initLocals (m : Mem) : Locals := ⟨m, 0, 0, 0, 0, 0, 0, 0⟩

/-- The sizes `dt_select_open` gives back, and their sum.
mirrors libs/DTSelectLib/get_dt.c:302-314 -/
def sizeStage (o : Opened) (l : Locals) : Int × Locals :=
  let l := { l with
    base_dtb_size := o.base_dtb_size, soc_dtbo_size := o.soc_dtbo_size, plat_dtbo_size := o.plat_dtbo_size }
  if l.base_dtb_size = 0 then (GET_DT_ERR_INVALID_BASE_DTB_SIZE, l)
  else
    let l := { l with total_blob_size := (l.base_dtb_size + l.soc_dtbo_size) % 2 ^ 64 }
    if l.total_blob_size < l.soc_dtbo_size ∨ (l.total_blob_size + l.plat_dtbo_size) % 2 ^ 64 < l.plat_dtbo_size then
      (GET_DT_ERR_SIZE_OVERFLOW, l)
    else (GET_DT_ERR_NONE, { l with total_blob_size := (l.total_blob_size + l.plat_dtbo_size) % 2 ^ 64 })

/-- Allocate the working buffer. mirrors libs/DTSelectLib/get_dt.c:315-321 -/
def allocBase (g : GetEnv) (l : Locals) : GetProg (Int × Locals) := do
  let ptr ← getMalloc g .BASE_DTB l.total_blob_size
  let l := { l with base_dtb_ptr := ptr }
  if ptr = 0 then return (GET_DT_ERR_MALLOC_FAIL, l) else return (GET_DT_ERR_NONE, l)

/-- Read the base tree: into the buffer, or its address where there is none.
mirrors libs/DTSelectLib/get_dt.c:323-333 -/
def readBase (g : GetEnv) (h : Handle) (l : Locals) : Int × Locals :=
  let r := dtSelectReadBlob g.sel.defs l.mem (some h) (some .BASE_DTB) (some l.base_dtb_ptr) l.base_dtb_size
  (r.1, { l with base_dtb_ptr := r.2.1.getD 0, mem := r.2.2 })

/-- Allocate a buffer for the SOC overlay and read it, if there is one.
mirrors libs/DTSelectLib/get_dt.c:335-355, 132-153 -/
def loadSoc (g : GetEnv) (h : Handle) (l : Locals) : GetProg (Int × Locals) :=
  if l.soc_dtbo_size = 0 then return (GET_DT_ERR_NONE, l)
  else do
    let ptr ← getMalloc g .SOC_DTBO l.soc_dtbo_size
    let l := { l with soc_dtbo_ptr := ptr }
    if ptr = 0 then return (GET_DT_ERR_MALLOC_FAIL, l)
    else
      let r := dtSelectReadBlob g.sel.defs l.mem (some h) (some .SOC_DTBO) (some l.soc_dtbo_ptr) l.soc_dtbo_size
      return (r.1, { l with soc_dtbo_ptr := r.2.1.getD 0, mem := r.2.2 })

/-- The same for the platform overlay. mirrors libs/DTSelectLib/get_dt.c:375-395, 155-176 -/
def loadPlat (g : GetEnv) (h : Handle) (l : Locals) : GetProg (Int × Locals) :=
  if l.plat_dtbo_size = 0 then return (GET_DT_ERR_NONE, l)
  else do
    let ptr ← getMalloc g .PLATFORM_DTBO l.plat_dtbo_size
    let l := { l with plat_dtbo_ptr := ptr }
    if ptr = 0 then return (GET_DT_ERR_MALLOC_FAIL, l)
    else
      let r := dtSelectReadBlob g.sel.defs l.mem (some h) (some .PLATFORM_DTBO) (some l.plat_dtbo_ptr) l.plat_dtbo_size
      return (r.1, { l with plat_dtbo_ptr := r.2.1.getD 0, mem := r.2.2 })

/-- The call that applies the SOC overlay. -/
def socCall (l : Locals) : MergeCall :=
  ⟨l.mem, l.base_dtb_ptr, l.base_dtb_size, l.soc_dtbo_ptr, l.soc_dtbo_size, l.base_dtb_ptr,
    (l.base_dtb_size + l.soc_dtbo_size) % 2 ^ 64⟩

/-- The call that applies the platform overlay. -/
def platCall (l : Locals) : MergeCall :=
  ⟨l.mem, l.base_dtb_ptr, l.base_dtb_size, l.plat_dtbo_ptr, l.plat_dtbo_size, l.base_dtb_ptr, l.total_blob_size⟩

/-- Apply the SOC overlay, take the new size and release the copy.
mirrors libs/DTSelectLib/get_dt.c:357-373, 186-203 -/
def mergeSoc (g : GetEnv) (l : Locals) : GetProg (Int × Locals) :=
  if l.soc_dtbo_size = 0 then return (GET_DT_ERR_NONE, l)
  else do
    let (status, mem) ← merge g (socCall l)
    let l := { l with mem := mem }
    if status ≠ 0 then return (status, l)
    else
      let size := getBlobSize g.sel.defs l.mem ⟨l.base_dtb_ptr, 0⟩
      if size.1 ≠ 0 then return (size.1, l)
      else do
        getFree l.soc_dtbo_ptr l.soc_dtbo_size
        return (GET_DT_ERR_NONE,
          { l with base_dtb_size := writeLow32 l.base_dtb_size size.2, soc_dtbo_ptr := 0 })

/-- Apply the platform overlay and release the copy.
mirrors libs/DTSelectLib/get_dt.c:397-406, 205-215 -/
def mergePlat (g : GetEnv) (l : Locals) : GetProg (Int × Locals) :=
  if l.plat_dtbo_size = 0 then return (GET_DT_ERR_NONE, l)
  else do
    let (status, mem) ← merge g (platCall l)
    let l := { l with mem := mem }
    if status ≠ 0 then return (status, l)
    else do
      getFree l.plat_dtbo_ptr l.plat_dtbo_size
      return (GET_DT_ERR_NONE, { l with plat_dtbo_ptr := 0 })

/-- The exit block, without closing the handle: release everything on an error,
write the outputs otherwise. mirrors libs/DTSelectLib/get_dt.c:408-430, 217-239 -/
def exitBlock (status : Int) (l : Locals) : GetProg GetResult :=
  if status ≠ 0 then do
    getFreeIf l.base_dtb_ptr l.total_blob_size
    getFreeIf l.soc_dtbo_ptr l.soc_dtbo_size
    getFreeIf l.plat_dtbo_ptr l.plat_dtbo_size
    return ⟨status, none, l.mem⟩
  else return ⟨status, some (l.base_dtb_ptr, l.total_blob_size), l.mem⟩

/-- `get_dt` around the stages that have a handle: the check of the arguments,
`dt_select_open`, the exit block and `dt_select_close`.
mirrors libs/DTSelectLib/get_dt.c:258-314, 408-436 -/
def getDtWith (g : GetEnv) (a : GetArgs) (stages : Handle → Locals → GetProg (Int × Locals)) : GetProg GetResult :=
  let l := initLocals g.sel.mem
  if a.dtbs_image_start_address = 0 ∨ a.Input_chip_plat_info_prop.isNone ∨ a.dtb_addr_null ∨ a.dtb_size_null ∨
      (a.Input_prop_list.isNone ∧ a.prop_num_entries ≠ 0) then exitBlock GET_DT_ERR_INVALID_PARAMETER l
  else do
    let (status, opened) ← select (dtSelectOpen g.sel a.toOpenArgs)
    if status ≠ 0 then exitBlock status l
    else match opened with
    | none => exitBlock GET_DT_ERR_HANDLE_RETURN_ERROR l
    | some o => do
      let (status, l) ← thenStage (return sizeStage o l) (stages o.block)
      let result ← exitBlock status l
      let _ ← select (dtSelectClose (g.sel.alloc .handle HANDLE_SIZE) o.block)
      return result

/-- `get_dt` without `TARGET_XBL`. mirrors libs/DTSelectLib/get_dt.c:247-436 -/
def getDt (g : GetEnv) (a : GetArgs) : GetProg GetResult :=
  getDtWith g a fun h l =>
    thenStage (allocBase g l) fun l =>
    thenStage (return readBase g h l) fun l =>
    thenStage (loadSoc g h l) fun l =>
    thenStage (mergeSoc g l) fun l =>
    thenStage (loadPlat g h l) (mergePlat g)

/-! ## With `TARGET_XBL` -/

inductive Mode
  | PRE
  | POST
deriving DecidableEq, Repr

/-- The working buffer: allocated by `POST`, none yet in `PRE`.
mirrors libs/DTSelectLib/get_dt.c:108-118 -/
def placeBase (g : GetEnv) (mode : Mode) (l : Locals) : GetProg (Int × Locals) :=
  match mode with
  | .POST => allocBase g l
  | .PRE => return (GET_DT_ERR_NONE, { l with base_dtb_ptr := 0 })

/-- `PRE` copies the base tree to the start of the image.
mirrors libs/DTSelectLib/get_dt.c:178-184 -/
def moveBase (a : GetArgs) (mode : Mode) (l : Locals) : Int × Locals :=
  if mode = .PRE ∧ a.dtbs_image_start_address ≠ l.base_dtb_ptr then
    if l.base_dtb_ptr < a.dtbs_image_start_address then (GET_DT_ERR_INVALID_BASE_DTB_PTR, l)
    else
      let copied := memcpyWrapper l.mem a.dtbs_image_start_address a.dtbs_image_size l.base_dtb_ptr l.base_dtb_size
      (GET_DT_ERR_NONE, { l with base_dtb_size := copied.1, mem := copied.2 })
  else (GET_DT_ERR_NONE, l)

/-- `get_dt` with `TARGET_XBL`. mirrors libs/DTSelectLib/get_dt.c:37-245 -/
def getDtXbl (g : GetEnv) (a : GetArgs) (mode : Mode) : GetProg GetResult :=
  getDtWith g a fun h l =>
    thenStage (placeBase g mode l) fun l =>
    thenStage (return readBase g h l) fun l =>
    thenStage (loadSoc g h l) fun l =>
    thenStage (loadPlat g h l) fun l =>
    thenStage (return moveBase a mode l) fun l =>
    thenStage (mergeSoc g l) (mergePlat g)

end DTFramework.Get
