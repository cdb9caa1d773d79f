import DTFramework.Select.Walk

/-!
# Opening a selection

`dt_select_open`: allocate the handle, take the client's input, walk the image,
print what was selected. The handle is released when anything fails.
-/
namespace DTFramework.Select

open DTFramework.Fdt DTFramework.Extn DTFramework.Lib

/-- The heap side of `_print_input_parameters`: a buffer for the properties,
written to without a check.
mirrors libs/DTSelectLib/dt_select.c:457-487 -/
def printInputParameters (env : Env) (props : List PropertyEntry) : Prog Int :=
  if props = [] then return SUCCESS
  else do
    let buffer ← malloc env .inputBuffer BUFFER_SIZE
    if buffer = 0 then Traced.fault .nullDeref
    else do
      free buffer BUFFER_SIZE
      return SUCCESS

/-- `_init_handle_input_data` up to printing.
mirrors libs/DTSelectLib/dt_select.c:325-367 -/
def initHandleInput (dtbs_image_size : Nat) (prop : ChipPlatInfo) (props : List PropertyEntry) : HandleInput where
  dtbs_image_size := dtbs_image_size
  prop := prop
  prop_list := props
  chipinfo_version_calc := chipVersion prop.chip_maj_version prop.chip_min_version
  platforminfo_version_calc := platVersion prop.platform_maj_version prop.platform_min_version

/-- What the client of `dt_select_open` passes. `Input_prop_list` points to
`prop_num_entries` entries. -/
structure OpenArgs where
  dtbs_image_start_address : Nat
  dtbs_image_size : Nat
  Input_chip_plat_info_prop : Option ChipPlatInfo
  Input_prop_list : Option (List PropertyEntry)
  prop_num_entries : Nat

/-- What `dt_select_open` gives back: the handle and the three sizes. -/
structure Opened where
  handle : HandleData
  base_dtb_size : Nat
  soc_dtbo_size : Nat
  plat_dtbo_size : Nat
deriving DecidableEq, Repr

/-- The input of an accepted call. -/
def OpenArgs.input (a : OpenArgs) (prop : ChipPlatInfo) : HandleInput :=
  initHandleInput a.dtbs_image_size prop ((a.Input_prop_list.getD []).take a.prop_num_entries)

/-- The part of `dt_select_open` that has the handle: a non-zero status, or
the handle data.
mirrors libs/DTSelectLib/dt_select.c:2459-2490 -/
def openHandle (env : Env) (inp : HandleInput) (start : Nat) : Prog (Int × HandleData) := do
  let h := initHandleData start
  let status ← printInputParameters env inp.prop_list
  if status ≠ SUCCESS then return (status, h)
  else do
    let (status, w) ← selectDtbAndDtbos env inp h
    if status ≠ SUCCESS then return (status, w.handle)
    else do
      let status ← printSelectedDtbDtbos env inp w.handle
      return (status, w.handle)

/-- mirrors libs/DTSelectLib/dt_select.c:2426-2506: the status, and the outputs
when it is `SUCCESS`. -/
def dtSelectOpen (env : Env) (a : OpenArgs) : Prog (Int × Option Opened) :=
  match a.Input_chip_plat_info_prop with
  | none => return (INVALID_PARAMETER, none)
  | some prop =>
    if a.dtbs_image_start_address = 0 ∨ (a.Input_prop_list.isSome ∧ a.prop_num_entries = 0) ∨
        (a.Input_prop_list.isNone ∧ a.prop_num_entries ≠ 0) then return (INVALID_PARAMETER, none)
    else do
      let ptr ← malloc env .handle HANDLE_SIZE
      if ptr = 0 then return (MALLOC_FAIL, none)
      else do
        let (status, h) ← openHandle env (a.input prop) a.dtbs_image_start_address
        if status ≠ SUCCESS then do
          free ptr HANDLE_SIZE
          return (status, none)
        else return (SUCCESS, some ⟨h, h.base_dtb_size, h.soc_dtbo_size, h.plat_dtbo_size⟩)

end DTFramework.Select
