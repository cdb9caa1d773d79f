import DTFramework.Lib.Traced
import DTFramework.Extn.Prop

/-!
# Data of the device tree selection

The structures of `dt_select_internal.h` and the environment of
`dt_select.c`: the memory that holds the image, the allocator behind
`MALLOC_WRAPPER`, and whether the build defines `DT_SELECT_LOGGING_ENABLE`.

The allocator answers a request by the place it is made from (`Site`): every
request of one `dt_select_open` has a site of its own, so a function of the
site says as much as the sequence of the answers, and two runs that make the
same request are answered alike. What a run does to the heap is the list of
its events. The blocks themselves hold what the getters wrote to them, which is
a Lean list, and formatted printing writes nothing that is read again.

The library is modelled without `ENABLE_HASH_FOR_DTB`: `fdt_get_node_handle`
is `fdt_path_offset`.
-/
namespace DTFramework.Select

open DTFramework.Fdt DTFramework.Extn DTFramework.Lib

abbrev SUCCESS : Int := 0
abbrev FAIL : Int := -1
abbrev MALLOC_FAIL : Int := -2
abbrev INVALID_PARAMETER : Int := -3
abbrev INVALID_BLOB_ENTRY : Int := -5
abbrev GET_ROOT_NODE_FAILED : Int := -6
abbrev POINTER_ARITHMETIC_OVERFLOW : Int := -8
abbrev UINT32_ARITHMETIC_OVERFLOW : Int := -9
abbrev INVALID_RETURN_PTR : Int := -13

abbrev BUFFER_SIZE : Nat := 200
/-- `sizeof (handle_data)` -/
abbrev HANDLE_SIZE : Nat := 64

abbrev SINGLE_CHIPINFO_SIZE_IN_BYTES : Nat := 8
abbrev SINGLE_PLATFORMINFO_SIZE_IN_BYTES : Nat := 4
abbrev SINGLE_OEM_VARIANT_ELEMENT_SIZE_BYTES : Nat := 4

/-- "/board-id/" -/
abbrev ROOT_NODE : Str := [47, 98, 111, 97, 114, 100, 45, 105, 100, 47]
/-- "is-overlay" -/
abbrev IS_OVERLAY_PROP_NAME : Str := [105, 115, 45, 111, 118, 101, 114, 108, 97, 121]
/-- "chip-info" -/
abbrev CHIPINFO_PROP_NAME : Str := [99, 104, 105, 112, 45, 105, 110, 102, 111]
/-- "board-info" -/
abbrev PLATFORMINFO_PROP_NAME : Str := [98, 111, 97, 114, 100, 45, 105, 110, 102, 111]
/-- "proc-name" -/
abbrev COMPATIBLE_PROP_NAME : Str := [112, 114, 111, 99, 45, 110, 97, 109, 101]
/-- "oem-var" -/
abbrev OEM_VAR_PROP_NAME : Str := [111, 101, 109, 45, 118, 97, 114]

/-! ## The client's input -/

/-- `chip_plat_info_property`. mirrors inc/dt_select.h:7-20 -/
structure ChipPlatInfo where
  chip_family : Nat
  chip_id : Nat
  chip_maj_version : Nat
  chip_min_version : Nat
  platform_type : Nat
  platform_subtype : Nat
  platform_maj_version : Nat
  platform_min_version : Nat
  oem_var : Nat
  dtb_compatible_string_starts_with : Option Str
  soc_dtbo_compatible_string_starts_with : Option Str
  plat_dtbo_compatible_string_starts_with : Option Str
  /-- The versions are `uint16_t` and `uint8_t`. -/
  chip_version_lt : chip_maj_version < 0x10000 ∧ chip_min_version < 0x10000
  platform_version_lt : platform_maj_version < 0x100 ∧ platform_min_version < 0x100

/-- An entry of `property_list`; `value` is the integer of `prop_size_bytes`
bytes at `value_buffer`. -/
structure PropertyEntry where
  prop_name : Str
  prop_size_bytes : Nat
  value : Nat
deriving DecidableEq, Repr

/-- `CALCULATE_CHIP_PLAT_INFO_VERSION` for `uint16_t` arguments. -/
def chipVersion (major minor : Nat) : Nat := major * 0x10000 + minor

/-- `CALCULATE_CHIP_PLAT_INFO_VERSION` for `uint8_t` arguments. -/
def platVersion (major minor : Nat) : Nat := major * 0x100 + minor

/-- `handle_input_data`; a null property list is the empty one.
mirrors libs/DTSelectLib/dt_select_internal.h:150-160 -/
structure HandleInput where
  dtbs_image_size : Nat
  prop : ChipPlatInfo
  prop_list : List PropertyEntry
  chipinfo_version_calc : Nat
  platforminfo_version_calc : Nat

/-! ## The state of a selection -/

/-- `handle_data`, without its guard.
mirrors libs/DTSelectLib/dt_select_internal.h:132-148 -/
structure HandleData where
  dtbs_image_start_address : Nat
  base_dtb_ptr : Nat
  base_dtb_size : Nat
  soc_dtbo_ptr : Nat
  soc_dtbo_size : Nat
  plat_dtbo_ptr : Nat
  plat_dtbo_size : Nat
deriving DecidableEq, Repr

/-- mirrors libs/DTSelectLib/dt_select.c:201-221 -/
def initHandleData (dtbs_image_start_address : Nat) : HandleData :=
  ⟨dtbs_image_start_address, 0, 0, 0, 0, 0, 0⟩

inductive BlobType
  | BASE_DTB
  | SOC_DTBO
  | PLATFORM_DTBO
deriving DecidableEq, Repr

/-- `DT_chipinfo_selected` -/
structure ChipInfo where
  family : Nat
  id : Nat
  major : Nat
  minor : Nat
deriving DecidableEq, Repr

/-- `DT_platforminfo_selected` -/
structure PlatformInfo where
  type : Nat
  subtype : Nat
  major : Nat
  minor : Nat
deriving DecidableEq, Repr

/-- `handle_entry_data`; `candidacy_status` is true for `VALID_CANDIDATE`.
mirrors libs/DTSelectLib/dt_select_internal.h:162-189 -/
structure HandleEntry where
  node : NodeHandle
  device_tree_blob_size : Nat
  device_tree_type : BlobType
  chipinfo : ChipInfo
  platforminfo : PlatformInfo
  rank : Int
  candidacy_status : Bool
  chipinfo_version_calc : Nat
  platforminfo_version_calc : Nat
deriving DecidableEq, Repr

/-- mirrors libs/DTSelectLib/dt_select.c:285-318 -/
def initHandleEntry : HandleEntry :=
  ⟨⟨0, 0⟩, 0, .BASE_DTB, ⟨0, 0, 0, 0⟩, ⟨0, 0, 0, 0⟩, -1, false, 0, 0⟩

/-- `handle_selected_dtbo`. mirrors libs/DTSelectLib/dt_select_internal.h:191-200 -/
structure SelectedDtbo where
  rank : Int
  device_tree_blob_size : Nat
  chipinfo_version_calc : Nat
  platforminfo_version_calc : Nat
deriving DecidableEq, Repr

/-- mirrors libs/DTSelectLib/dt_select.c:813-830 -/
def initSelectedDtbo : SelectedDtbo := ⟨-1, 0, 0, 0⟩

/-! ## The environment -/

/-- Where a printing call comes from. -/
inductive Phase
  /-- `_select_dtb_and_dtbos`, when logging is built in. -/
  | walk
  /-- `_print_selected_dtb_dtbos` -/
  | selected (type : BlobType)
deriving DecidableEq, Repr

/-- A call of `MALLOC_WRAPPER`, with the address of the blob it is made for. -/
inductive Site
  | handle
  | inputBuffer
  | chipinfo (blob : Nat)
  | platforminfo (blob : Nat)
  | compatible (blob : Nat)
  | property (blob index : Nat)
  | oemVar (blob : Nat)
  | printNames (phase : Phase) (blob : Nat)
  | printBuffer (phase : Phase) (blob : Nat)
  | printValue (phase : Phase) (blob index : Nat)
deriving DecidableEq, Repr

/-- What is done to the heap. -/
inductive HeapEvent
  | malloc (size ptr : Nat)
  | free (ptr size : Nat)
deriving DecidableEq, Repr

structure Env where
  mem : Mem
  defs : DTBDefs
  /-- The address a request is answered with, 0 when it fails. -/
  alloc : Site → Nat → Nat
  /-- `DT_SELECT_LOGGING_ENABLE` -/
  logging : Bool

/-- No block ends at the top of the address space; a request is for a
`uint32_t` of bytes. -/
def Env.Sane (env : Env) : Prop :=
  ∀ site size, size < 2 ^ 32 → env.alloc site size ≠ 0 → env.alloc site size + size < 2 ^ 64

/-- Every request succeeds. -/
def Env.NoFail (env : Env) : Prop := ∀ site size, size < 2 ^ 32 → env.alloc site size ≠ 0

/-- A computation of the library. -/
abbrev Prog := Traced HeapEvent Fault

/-- `MALLOC_WRAPPER` -/
def malloc (env : Env) (site : Site) (size : Nat) : Prog Nat := do
  Traced.emit (.malloc size (env.alloc site size))
  return env.alloc site size

/-- `FREE_WRAPPER` -/
def free (ptr size : Nat) : Prog Unit := Traced.emit (.free ptr size)

/-- `if (p) FREE_WRAPPER (p, size)` -/
def freeIf (ptr size : Nat) : Prog Unit := if ptr ≠ 0 then free ptr size else return ()

/-- A getter that may fault. -/
def ofExcept {α : Type} : Except Fault α → Prog α
  | .error e => Traced.fault e
  | .ok a => return a

@[simp] theorem val_malloc (env : Env) (site : Site) (size : Nat) :
    (malloc env site size).val = .ok (env.alloc site size) := rfl
@[simp] theorem val_free (ptr size : Nat) : (free ptr size).val = .ok () := rfl
@[simp] theorem val_freeIf (ptr size : Nat) : (freeIf ptr size).val = .ok () := by
  unfold freeIf; split <;> rfl
@[simp] theorem val_ofExcept {α : Type} (x : Except Fault α) : (ofExcept x).val = x := by
  cases x <;> rfl

theorem ensures_malloc {env : Env} {site : Site} {size : Nat} {P : Nat → Prop} :
    (malloc env site size).Ensures P ↔ P (env.alloc site size) := by
  simp [Traced.Ensures]

theorem ensures_free {ptr size : Nat} {P : Unit → Prop} : (free ptr size).Ensures P ↔ P () :=
  ⟨fun h => h () rfl, fun h _ _ => h⟩

theorem ensures_ofExcept {α : Type} {x : Except Fault α} {P : α → Prop} :
    (ofExcept x).Ensures P ↔ ∀ a, x = .ok a → P a := by
  simp [Traced.Ensures]

theorem faults_malloc {env : Env} {site : Site} {size : Nat} {P : Fault → Prop} :
    (malloc env site size).Faults P ↔ True := by
  simp [Traced.Faults]

theorem faults_free {ptr size : Nat} {P : Fault → Prop} : (free ptr size).Faults P ↔ True := by
  simp [Traced.Faults]

theorem faults_ofExcept {α : Type} {x : Except Fault α} {P : Fault → Prop} :
    (ofExcept x).Faults P ↔ ∀ e, x = .error e → P e := by
  simp [Traced.Faults]

/-- mirrors libs/DTSelectLib/dt_select.c:193-200 (`_is_safe_to_add_pointer`);
`offset` is a `uint32_t`. -/
def isSafeToAddPointer (pointer offset : Nat) : Bool :=
  !decide ((pointer + offset % 0x100000000) % 2 ^ 64 < pointer)

theorem isSafeToAddPointer_of_lt {p n : Nat} (h : p + n < 2 ^ 64) : isSafeToAddPointer p n = true := by
  unfold isSafeToAddPointer
  simp only [Bool.not_eq_true', decide_eq_false_iff_not]
  omega

/-- mirrors libs/DTSelectLib/dt_select.c:202-210 (`_is_safe_to_subtract_uint32`) -/
def isSafeToSubtractUint32 (a b : Nat) : Bool := !decide (a < b)

/-- The blob an entry's node is in. -/
def HandleEntry.fdt (env : Env) (e : HandleEntry) : Blob := blobAt env.mem e.node.blob

end DTFramework.Select
