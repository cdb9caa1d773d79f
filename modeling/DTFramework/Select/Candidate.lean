import DTFramework.Select.Types

/-!
# The candidate filter

`_is_it_dtb_dtbo_candidate` and what it calls: an entry is a candidate when its
board-id node names the chip family, when it is a base tree or an overlay of
the device's platform type, when its processor name starts as the client asks,
and when every property of the client's list has the client's value. A
function takes the entry and returns its status with the entry it leaves.
-/
namespace DTFramework.Select

open DTFramework.Fdt DTFramework.Extn DTFramework.Lib

def INVALID_CANDIDATE (e : HandleEntry) : HandleEntry := { e with candidacy_status := false }
def VALID_CANDIDATE (e : HandleEntry) : HandleEntry := { e with candidacy_status := true }

@[simp] theorem INVALID_CANDIDATE_node (e : HandleEntry) : (INVALID_CANDIDATE e).node = e.node := rfl
@[simp] theorem INVALID_CANDIDATE_status (e : HandleEntry) : (INVALID_CANDIDATE e).candidacy_status = false := rfl
@[simp] theorem VALID_CANDIDATE_status (e : HandleEntry) : (VALID_CANDIDATE e).candidacy_status = true := rfl

/-! ## Chip family -/

/-- The chip-info list, four values an entry. -/
def chipinfoEntries : List Nat → List ChipInfo
  | family :: id :: major :: minor :: rest => ⟨family, id, major, minor⟩ :: chipinfoEntries rest
  | _ => []

/-- The loop over the chip-info entries: the first one of the family is kept.
mirrors libs/DTSelectLib/dt_select.c:915-933 -/
def matchChipinfo (inp : HandleInput) (values : List Nat) (e : HandleEntry) : HandleEntry :=
  match (chipinfoEntries values).find? (·.family == inp.prop.chip_family) with
  | none => e
  | some c => { e with chipinfo := c, candidacy_status := true }

/-- mirrors libs/DTSelectLib/dt_select.c:862-948 -/
def isChipinfoFamilyMatch (env : Env) (inp : HandleInput) (e : HandleEntry) : Prog (Int × HandleEntry) := do
  let f := e.fdt env
  let e := INVALID_CANDIDATE e
  let prop := getPropSize env.defs f e.node.offset CHIPINFO_PROP_NAME 0
  let size := prop.2
  if prop.1 ≠ FDT_ERR_QC_NOERROR then return (SUCCESS, e)
  else if size % SINGLE_CHIPINFO_SIZE_IN_BYTES ≠ 0 then return (SUCCESS, e)
  else do
    let ptr ← malloc env (.chipinfo e.node.blob) size
    if ptr = 0 then return (MALLOC_FAIL, e)
    else do
      let (status, values) ← ofExcept (getUint16PropList env.defs f e.node.offset CHIPINFO_PROP_NAME size)
      if status ≠ FDT_ERR_QC_NOERROR then do
        free ptr size
        return (SUCCESS, e)
      else if !isSafeToAddPointer ptr size then return (POINTER_ARITHMETIC_OVERFLOW, e)
      else do
        free ptr size
        return (SUCCESS, matchChipinfo inp values e)

/-! ## Type of the blob -/

def platforminfoEntries : List Nat → List PlatformInfo
  | type :: subtype :: major :: minor :: rest => ⟨type, subtype, major, minor⟩ :: platforminfoEntries rest
  | _ => []

/-- The loop over the board-info entries: the first one of the type is kept.
mirrors libs/DTSelectLib/dt_select.c:1066-1086 -/
def matchPlatforminfo (inp : HandleInput) (values : List Nat) (e : HandleEntry) : HandleEntry :=
  match (platforminfoEntries values).find? (·.type == inp.prop.platform_type) with
  | none => e
  | some p => { e with platforminfo := p, candidacy_status := true }

/-- mirrors libs/DTSelectLib/dt_select.c:966-1103 -/
def identifyBlobTypeAndGetPlatforminfo (env : Env) (inp : HandleInput) (e : HandleEntry) :
    Prog (Int × HandleEntry) := do
  let f := e.fdt env
  let e := { INVALID_CANDIDATE e with device_tree_type := .BASE_DTB }
  let status ← ofExcept (getBoolProp env.defs f e.node.offset IS_OVERLAY_PROP_NAME)
  if status ≠ 0 then
    if status = -FDT_ERR_NOTFOUND then return (SUCCESS, VALID_CANDIDATE e)
    else return (SUCCESS, e)
  else do
    let e := { e with device_tree_type := .SOC_DTBO }
    let prop := getPropSize env.defs f e.node.offset PLATFORMINFO_PROP_NAME 0
    let size := prop.2
    if prop.1 ≠ FDT_ERR_QC_NOERROR ∧ prop.1 ≠ -FDT_ERR_NOTFOUND then return (SUCCESS, e)
    else if prop.1 = -FDT_ERR_NOTFOUND then return (SUCCESS, VALID_CANDIDATE e)
    else if size % SINGLE_PLATFORMINFO_SIZE_IN_BYTES ≠ 0 then return (SUCCESS, e)
    else do
      let e := { e with device_tree_type := .PLATFORM_DTBO }
      let ptr ← malloc env (.platforminfo e.node.blob) size
      if ptr = 0 then return (MALLOC_FAIL, e)
      else do
        let (status, values) ← ofExcept (getUint8PropList env.defs f e.node.offset PLATFORMINFO_PROP_NAME size)
        if status ≠ FDT_ERR_QC_NOERROR then do
          free ptr size
          return (SUCCESS, e)
        else if !isSafeToAddPointer ptr size then return (POINTER_ARITHMETIC_OVERFLOW, e)
        else do
          free ptr size
          return (SUCCESS, matchPlatforminfo inp values e)

/-! ## Processor name -/

/-- The client's prefix for the type of the blob. -/
def compatibleStringStartsWith (inp : HandleInput) : BlobType → Option Str
  | .BASE_DTB => inp.prop.dtb_compatible_string_starts_with
  | .SOC_DTBO => inp.prop.soc_dtbo_compatible_string_starts_with
  | .PLATFORM_DTBO => inp.prop.plat_dtbo_compatible_string_starts_with

/-- The string at the start of a buffer. -/
def bufferString (bytes : List UInt8) : Str := bytes.takeWhile (· ≠ 0)

/-- The loop over the strings of the property: the status, and whether one of
them starts with the client's. `ptr` is the address of the rest of the buffer.
mirrors libs/DTSelectLib/dt_select.c:1206-1237 -/
def compatibleScan (start : Str) (ptr : Nat) (bytes : List UInt8) (remaining : Nat) : Int × Bool :=
  if remaining = 0 then (SUCCESS, false)
  else
    let size := (bufferString bytes).length + 1
    if start.isPrefixOf (bufferString bytes) then (SUCCESS, true)
    else if !isSafeToAddPointer ptr size then (POINTER_ARITHMETIC_OVERFLOW, false)
    else if !isSafeToSubtractUint32 remaining size then (UINT32_ARITHMETIC_OVERFLOW, false)
    else compatibleScan start (ptr + size) (bytes.drop size) (remaining - size)
termination_by remaining

/-- mirrors libs/DTSelectLib/dt_select.c:1121-1260 -/
def validateCompatibleString (env : Env) (inp : HandleInput) (e : HandleEntry) : Prog (Int × HandleEntry) := do
  let f := e.fdt env
  let e := INVALID_CANDIDATE e
  match compatibleStringStartsWith inp e.device_tree_type with
  | none => return (SUCCESS, VALID_CANDIDATE e)
  | some start => do
    let prop := getPropSize env.defs f e.node.offset COMPATIBLE_PROP_NAME 0
    let size := prop.2
    if prop.1 ≠ FDT_ERR_QC_NOERROR ∨ size = 0 then return (SUCCESS, e)
    else if start.length = 0 then return (SUCCESS, VALID_CANDIDATE e)
    else do
      let ptr ← malloc env (.compatible e.node.blob) size
      if ptr = 0 then return (MALLOC_FAIL, e)
      else do
        let list := getStringPropList env.defs f e.node.offset COMPATIBLE_PROP_NAME size
        if list.1 ≠ FDT_ERR_QC_NOERROR then do
          free ptr size
          return (SUCCESS, e)
        else do
          let scan := compatibleScan start ptr list.2 size
          if scan.1 ≠ SUCCESS then return (scan.1, e)
          else do
            free ptr size
            return (SUCCESS, if scan.2 then VALID_CANDIDATE e else e)

/-- mirrors libs/DTSelectLib/dt_select.c:1279-1308 -/
def isCompatibleStringMatch (env : Env) (inp : HandleInput) (e : HandleEntry) : Prog (Int × HandleEntry) := do
  let (status, e) ← identifyBlobTypeAndGetPlatforminfo env inp (INVALID_CANDIDATE e)
  if status ≠ FDT_ERR_QC_NOERROR ∨ !e.candidacy_status then return (status, e)
  else validateCompatibleString env inp (INVALID_CANDIDATE e)

/-! ## The client's properties -/

/-- The getter for the size of a client property; another size is not supported. -/
def getPropertyValues (env : Env) (e : HandleEntry) (p : PropertyEntry) (size : Nat) :
    Except Fault (Int × List Nat) :=
  let f := e.fdt env
  match p.prop_size_bytes with
  | 1 => getUint8PropList env.defs f e.node.offset p.prop_name size
  | 2 => getUint16PropList env.defs f e.node.offset p.prop_name size
  | 4 => getUint32PropList env.defs f e.node.offset p.prop_name size
  | 8 => getUint64PropList env.defs f e.node.offset p.prop_name size
  | _ => .ok (-1, [])

/-- The loop over the client's properties, of which `index` are done.
mirrors libs/DTSelectLib/dt_select.c:1344-1494 -/
def propertyLoop (env : Env) (e : HandleEntry) (index : Nat) : List PropertyEntry → Prog (Int × HandleEntry)
  | [] => return (SUCCESS, e)
  | p :: ps => do
    let e := INVALID_CANDIDATE e
    let prop := getPropSize env.defs (e.fdt env) e.node.offset p.prop_name 0
    let size := prop.2
    if prop.1 ≠ FDT_ERR_QC_NOERROR then return (SUCCESS, e)
    else if size = 0 then return (SUCCESS, e)
    else if p.prop_size_bytes = 0 ∨ size % p.prop_size_bytes ≠ 0 then return (SUCCESS, e)
    else do
      let ptr ← malloc env (.property e.node.blob index) size
      if ptr = 0 then return (MALLOC_FAIL, e)
      else do
        let (status, values) ← ofExcept (getPropertyValues env e p size)
        if status ≠ FDT_ERR_QC_NOERROR then do
          free ptr size
          return (SUCCESS, e)
        else if !isSafeToAddPointer ptr size then return (POINTER_ARITHMETIC_OVERFLOW, e)
        else do
          free ptr size
          if (values.take (size / p.prop_size_bytes)).contains p.value then
            propertyLoop env (VALID_CANDIDATE e) (index + 1) ps
          else return (SUCCESS, e)

/-- mirrors libs/DTSelectLib/dt_select.c:1321-1500 -/
def isPropertyListValid (env : Env) (inp : HandleInput) (e : HandleEntry) : Prog (Int × HandleEntry) :=
  if inp.prop_list = [] then return (SUCCESS, VALID_CANDIDATE e)
  else propertyLoop env e 0 inp.prop_list

/-- mirrors libs/DTSelectLib/dt_select.c:1531-1561 -/
def isItDtbDtboCandidate (env : Env) (inp : HandleInput) (e : HandleEntry) : Prog (Int × HandleEntry) := do
  let (status, e) ← isChipinfoFamilyMatch env inp e
  if status ≠ SUCCESS ∨ !e.candidacy_status then return (status, e)
  else do
    let (status, e) ← isCompatibleStringMatch env inp e
    if status ≠ SUCCESS ∨ !e.candidacy_status then return (status, e)
    else isPropertyListValid env inp e

end DTFramework.Select
