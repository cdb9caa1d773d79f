import DTFramework.Fdt.Assemble
import DTFramework.Select.Walk

/-!
# Concrete images

How an image is given to the model: blobs with one board-id node, one after
another in an otherwise empty memory, for a device of family 1 and chip 2 with
an allocator that answers every request.
-/
namespace DTFramework.Select

open DTFramework.Fdt DTFramework.Extn DTFramework.Lib

/-- "board-id" -/
abbrev BOARD_ID : Str := [98, 111, 97, 114, 100, 45, 105, 100]

/-- A blob whose root has one node, the board-id node. -/
def boardIdBlob (props : List (Str × List UInt8)) (slack : Nat) : List UInt8 :=
  assemble ([.beginNode [], .beginNode BOARD_ID] ++ props.map (fun p => .prop p.1 p.2) ++ [.endNode, .endNode])
    slack

/-- A base tree for every chip of family 1. -/
def baseBlob (props : List (Str × List UInt8)) (slack : Nat) : List UInt8 :=
  boardIdBlob ((CHIPINFO_PROP_NAME, [0, 1, 0, 0, 0, 1, 0, 0]) :: props) slack

/-- An overlay for every chip of family 1. -/
def socBlob (props : List (Str × List UInt8)) (slack : Nat) : List UInt8 :=
  baseBlob ((IS_OVERLAY_PROP_NAME, []) :: props) slack

/-- An overlay for every chip of family 1 and every platform of type 3. -/
def platBlob (props : List (Str × List UInt8)) (slack : Nat) : List UInt8 :=
  socBlob ((PLATFORMINFO_PROP_NAME, [3, 0, 1, 0]) :: props) slack

def imageDefs : DTBDefs := ⟨1000, 1001, 1002, 1003, 1004, 1005, 1006, 1007, 1008, 1009, 5, 0, ten_extends_std⟩

def imageEnv (start : Nat) (blobs : List (List UInt8)) (logging : Bool) : Env where
  mem := memOf start blobs.flatten
  defs := imageDefs
  alloc := fun _ _ => 0x10000
  logging := logging

/-- Chip 2 of family 1, in version 2.0, on a platform of type 3. -/
def imageProp : ChipPlatInfo where
  chip_family := 1
  chip_id := 2
  chip_maj_version := 2
  chip_min_version := 0
  platform_type := 3
  platform_subtype := 4
  platform_maj_version := 2
  platform_min_version := 0
  oem_var := 0
  dtb_compatible_string_starts_with := none
  soc_dtbo_compatible_string_starts_with := none
  plat_dtbo_compatible_string_starts_with := none
  chip_version_lt := by decide
  platform_version_lt := by decide

theorem imageEnv_noFail (start : Nat) (blobs : List (List UInt8)) (logging : Bool) :
    (imageEnv start blobs logging).NoFail := fun _ _ _ => (by decide : (0x10000 : Nat) ≠ 0)

theorem imageEnv_sane (start : Nat) (blobs : List (List UInt8)) (logging : Bool) :
    (imageEnv start blobs logging).Sane := fun _ size h _ => by
  show 0x10000 + size < 2 ^ 64
  omega

end DTFramework.Select
