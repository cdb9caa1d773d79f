import DTFramework.Fdt.Read

/-!
# Assembling blobs

A blob written from the tokens of its structure block, in the layout of version
17: header, empty reservation map, structure block, strings block. Every
property has its own copy of its name. This is how concrete blobs are given to
the model; nothing else depends on it.
-/
namespace DTFramework.Fdt

inductive Token
  | beginNode (name : Str)
  | prop (name : Str) (value : List UInt8)
  | endNode
  | nop
deriving DecidableEq, Repr

/-- A big-endian cell. -/
def cell (n : Nat) : List UInt8 :=
  [UInt8.ofNat (n / 0x1000000), UInt8.ofNat (n / 0x10000), UInt8.ofNat (n / 0x100), UInt8.ofNat n]

/-- Zero bytes up to the next multiple of 4. -/
def pad (bytes : List UInt8) : List UInt8 := bytes ++ List.replicate ((4 - bytes.length % 4) % 4) 0

/-- The strings block. -/
def stringsBlock : List Token → List UInt8
  | [] => []
  | .prop name _ :: ts => name ++ 0 :: stringsBlock ts
  | _ :: ts => stringsBlock ts

/-- The structure block; `off` is where the next name goes in the strings block. -/
def structBlock (off : Nat) : List Token → List UInt8
  | [] => cell FDT_END
  | .beginNode name :: ts => cell FDT_BEGIN_NODE ++ pad (name ++ [0]) ++ structBlock off ts
  | .prop name value :: ts =>
    cell FDT_PROP ++ cell value.length ++ cell off ++ pad value ++ structBlock (off + name.length + 1) ts
  | .endNode :: ts => cell FDT_END_NODE ++ structBlock off ts
  | .nop :: ts => cell FDT_NOP ++ structBlock off ts

/-- The whole blob, with `slack` bytes after the strings block. -/
def assemble (ts : List Token) (slack : Nat) : List UInt8 :=
  let struct := structBlock 0 ts
  let strings := stringsBlock ts
  let total := 56 + struct.length + strings.length + slack
  cell FDT_MAGIC ++ cell total ++ cell 56 ++ cell (56 + struct.length) ++ cell 40 ++ cell 17 ++ cell 16 ++
    cell 0 ++ cell strings.length ++ cell struct.length ++ List.replicate 16 0 ++ struct ++ strings ++
    List.replicate slack 0

/-- A memory that holds `bytes` from `start` on, and zeros elsewhere. -/
def memOf (start : Nat) (bytes : List UInt8) : Mem := fun a => if a < start then 0 else bytes.getD (a - start) 0

end DTFramework.Fdt
