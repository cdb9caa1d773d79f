import DTFramework.Select.Types

/-!
# Printing board-id nodes

`_print_board_id` lists the names of the properties, reads every property back
by its name and prints its value with an element size it guesses from the name.
Modelled here is what decides the status. The calls that write the text of a line
are `propertyCalls` in `Select.Cursor`, and where they write is in `Select.Printout`.
-/
namespace DTFramework.Select

open DTFramework.Fdt DTFramework.Extn DTFramework.Lib

/-- `property_datatype_size` of a property that is printed as strings: -1. -/
abbrev STRING_DATATYPE : Nat := 0xffffffff

/-- The element size for a property, by the start of its name.
mirrors libs/DTSelectLib/dt_select.c:663-684 -/
def datatypeSize (props : List PropertyEntry) (name : Str) : Nat :=
  if CHIPINFO_PROP_NAME.isPrefixOf name then 2
  else if PLATFORMINFO_PROP_NAME.isPrefixOf name then 1
  else if COMPATIBLE_PROP_NAME.isPrefixOf name then STRING_DATATYPE
  else if OEM_VAR_PROP_NAME.isPrefixOf name then 4
  else match props.find? (·.prop_name.isPrefixOf name) with
  | some p => p.prop_size_bytes
  | none => 1

/-- The loop over the strings of a value of which `remaining` bytes are left at
`ptr` (an address) and `pos` (in the blob). A string that does not end in them
is longer than they are.
mirrors libs/DTSelectLib/dt_select.c:525-549 -/
def printStrings (f : Blob) (ptr pos remaining : Nat) : Int :=
  if remaining = 0 then SUCCESS
  else match cstrWithin f.rd pos remaining with
  | none => UINT32_ARITHMETIC_OVERFLOW
  | some s =>
    if !isSafeToAddPointer ptr (s.length + 1) then POINTER_ARITHMETIC_OVERFLOW
    else printStrings f (ptr + (s.length + 1)) (pos + (s.length + 1)) (remaining - (s.length + 1))
termination_by remaining

/-- The loop over the elements of a value of which `remaining` bytes are left.
An element of no bytes leaves them all.
mirrors libs/DTSelectLib/dt_select.c:553-568 -/
def printElements (size remaining : Nat) : Except Fault Int :=
  if remaining = 0 then .ok SUCCESS
  else if !isSafeToSubtractUint32 remaining size then .ok UINT32_ARITHMETIC_OVERFLOW
  else if _h : size = 0 then .error .diverge
  else printElements size (remaining - size)
termination_by remaining

/-- The status of a value; its text is `valueCalls`.
mirrors libs/DTSelectLib/dt_select.c:495-574 -/
def printPropertyValue (f : Blob) (offset : Int) (name : Str) (size : Nat) : Except Fault Int :=
  match getprop f offset name with
  | .error _ => .ok INVALID_RETURN_PTR
  | .ok (pos, len) =>
    if size = STRING_DATATYPE then .ok (printStrings f (f.addr + pos) pos (u32 len))
    else printElements size (u32 len)

/-- One turn of the loop over the names: the property is read back by its name.
mirrors libs/DTSelectLib/dt_select.c:635-716 -/
def printProperty (env : Env) (props : List PropertyEntry) (f : Blob) (offset : Int) (site : Site)
    (name : Str) : Prog Int := do
  let prop := getPropSize env.defs f offset name 0
  let size := prop.2
  if prop.1 ≠ FDT_ERR_QC_NOERROR then return prop.1
  else if size = 0 then return SUCCESS
  else do
    let value ← malloc env site size
    let status ← ofExcept (printPropertyValue f offset name (datatypeSize props name))
    if status ≠ SUCCESS then do
      freeIf value size
      return status
    else do
      free value size
      return SUCCESS

/-- The loop over the buffer of names, of which `remaining` bytes are left at
`ptr` and `index` names are done: the status, and whether the function returns
from inside the loop, without freeing anything.
mirrors libs/DTSelectLib/dt_select.c:631-727 -/
def printNames (env : Env) (props : List PropertyEntry) (phase : Phase) (f : Blob) (offset : Int)
    (ptr index : Nat) (bytes : List UInt8) (remaining : Nat) : Prog (Int × Bool) :=
  if remaining = 0 then return (SUCCESS, false)
  else
    let name := bytes.takeWhile (· ≠ 0)
    let size := name.length + 1
    if !isSafeToSubtractUint32 remaining size then return (UINT32_ARITHMETIC_OVERFLOW, true)
    else do
      let status ← printProperty env props f offset (.printValue phase f.addr index) name
      if status ≠ SUCCESS then return (status, false)
      else if !isSafeToAddPointer ptr size then return (POINTER_ARITHMETIC_OVERFLOW, true)
      else printNames env props phase f offset (ptr + size) (index + 1) (bytes.drop size) (remaining - size)
termination_by remaining

/-- The status of a node; the text of each of its lines is `propertyCalls`.
mirrors libs/DTSelectLib/dt_select.c:576-743 -/
def printBoardId (env : Env) (props : List PropertyEntry) (phase : Phase) (fdtheader : Nat) : Prog Int := do
  let f := blobAt env.mem fdtheader
  let offset := pathOffset f ROOT_NODE
  if fdtheader = 0 then return INVALID_PARAMETER
  else if offset < 0 then return SUCCESS
  else do
    let total := getPropNamesSize env.defs f offset
    let size := total.2
    if total.1 ≠ FDT_ERR_QC_NOERROR then return total.1
    else do
      let names ← malloc env (.printNames phase fdtheader) size
      if names = 0 then return MALLOC_FAIL
      else do
        let (status, bytes) ← ofExcept (getPropNames env.defs f offset size)
        if status ≠ FDT_ERR_QC_NOERROR then do
          free names size
          return status
        else do
          let buffer ← malloc env (.printBuffer phase fdtheader) BUFFER_SIZE
          -- the buffer is written to without a check
          if buffer = 0 ∧ size ≠ 0 then Traced.fault .nullDeref
          else do
            let (status, leaves) ← printNames env props phase f offset names 0 bytes size
            if leaves then return status
            else do
              free names size
              freeIf buffer BUFFER_SIZE
              return status

/-- Print the board-id node of a selected blob, if one was selected. -/
def printSelected (env : Env) (inp : HandleInput) (type : BlobType) (ptr size : Nat) (status : Int) : Prog Int :=
  if ptr ≠ 0 ∧ size ≠ 0 then printBoardId env inp.prop_list (.selected type) ptr
  else return status

/-- mirrors libs/DTSelectLib/dt_select.c:745-811 -/
def printSelectedDtbDtbos (env : Env) (inp : HandleInput) (h : HandleData) : Prog Int := do
  let status ← printSelected env inp .BASE_DTB h.base_dtb_ptr h.base_dtb_size INVALID_PARAMETER
  if (h.base_dtb_ptr ≠ 0 ∧ h.base_dtb_size ≠ 0) ∧ status ≠ SUCCESS then return status
  else do
    let status ← printSelected env inp .SOC_DTBO h.soc_dtbo_ptr h.soc_dtbo_size status
    if (h.soc_dtbo_ptr ≠ 0 ∧ h.soc_dtbo_size ≠ 0) ∧ status ≠ SUCCESS then return status
    else printSelected env inp .PLATFORM_DTBO h.plat_dtbo_ptr h.plat_dtbo_size status

end DTFramework.Select
