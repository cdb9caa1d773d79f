import Mathlib.Algebra.Order.Ring.Int
import Mathlib.Algebra.Order.Ring.Nat
import Mathlib.Order.Lattice
import Mathlib.Tactic.Common

/-!
# The flattened device tree header

A blob is read through `Blob`: the address it sits at and its bytes relative
to that address. libfdt reads nothing else of the memory around it, and of
the address only the alignment. Header fields are big-endian 32-bit words
(`fdt32_to_cpu`); C `unsigned` arithmetic on them is `Nat` arithmetic reduced
by `% 2 ^ 32` at the places where the code can wrap.

libfdt is built with `FDT_ASSUME_MASK` 0, so no `can_assume` check is skipped.

Results:

* `checkHeader_eq_zero`: what an accepted header says, field by field;
* `checkHeader_eq_badmagic`, `checkHeader_unaligned`: the two refusals that end a
  walk over an image;
* `HeaderOk.roProbe`: an accepted header is one the read-only functions accept.
-/
namespace DTFramework.Fdt

/-- Memory, a byte for each address. -/
abbrev Mem := Nat → UInt8

/-- A device tree blob: its address, and its bytes from that address on. -/
structure Blob where
  addr : Nat
  rd : Nat → UInt8

/-- The blob at address `a` of a memory. -/
def blobAt (m : Mem) (a : Nat) : Blob := ⟨a, fun i => m (a + i)⟩

@[simp] theorem blobAt_addr (m : Mem) (a : Nat) : (blobAt m a).addr = a := rfl
@[simp] theorem blobAt_rd (m : Mem) (a i : Nat) : (blobAt m a).rd i = m (a + i) := rfl

/-- `fdt32_to_cpu` of the word at offset `o`.
mirrors libs/libfdt/libfdt_env.h:27-60 -/
def be32 (f : Blob) (o : Nat) : Nat :=
  (((f.rd o).toNat * 256 + (f.rd (o + 1)).toNat) * 256 + (f.rd (o + 2)).toNat) * 256 +
    (f.rd (o + 3)).toNat

theorem be32_lt (f : Blob) (o : Nat) : be32 f o < 2 ^ 32 := by
  have h0 := (f.rd o).toNat_lt
  have h1 := (f.rd (o + 1)).toNat_lt
  have h2 := (f.rd (o + 2)).toNat_lt
  have h3 := (f.rd (o + 3)).toNat_lt
  unfold be32; omega

/-! ## Error codes (`libs/libfdt/libfdt.h:14-92`) -/

abbrev FDT_ERR_NOTFOUND : Int := 1
abbrev FDT_ERR_EXISTS : Int := 2
abbrev FDT_ERR_NOSPACE : Int := 3
abbrev FDT_ERR_BADOFFSET : Int := 4
abbrev FDT_ERR_BADPATH : Int := 5
abbrev FDT_ERR_BADPHANDLE : Int := 6
abbrev FDT_ERR_BADSTATE : Int := 7
abbrev FDT_ERR_TRUNCATED : Int := 8
abbrev FDT_ERR_BADMAGIC : Int := 9
abbrev FDT_ERR_BADVERSION : Int := 10
abbrev FDT_ERR_BADSTRUCTURE : Int := 11
abbrev FDT_ERR_BADLAYOUT : Int := 12
abbrev FDT_ERR_INTERNAL : Int := 13
abbrev FDT_ERR_ALIGNMENT : Int := 19
abbrev FDT_ERR_MAX : Int := 19

abbrev INT_MAX : Nat := 2147483647
abbrev FDT_MAGIC : Nat := 0xd00dfeed
/-- `~FDT_MAGIC` -/
abbrev FDT_SW_MAGIC : Nat := 0x2ff20112
abbrev FDT_FIRST_SUPPORTED_VERSION : Nat := 0x02
abbrev FDT_LAST_SUPPORTED_VERSION : Nat := 0x11

abbrev FDT_V1_SIZE : Nat := 28
abbrev FDT_V2_SIZE : Nat := FDT_V1_SIZE + 4
abbrev FDT_V3_SIZE : Nat := FDT_V2_SIZE + 4
abbrev FDT_V16_SIZE : Nat := FDT_V3_SIZE
abbrev FDT_V17_SIZE : Nat := FDT_V16_SIZE + 4

/-! ## Header fields (`struct fdt_header`, libs/libfdt/fdt.h) -/

def magic (f : Blob) : Nat := be32 f 0
def totalsize (f : Blob) : Nat := be32 f 4
def offDtStruct (f : Blob) : Nat := be32 f 8
def offDtStrings (f : Blob) : Nat := be32 f 12
def offMemRsvmap (f : Blob) : Nat := be32 f 16
def version (f : Blob) : Nat := be32 f 20
def lastCompVersion (f : Blob) : Nat := be32 f 24
def sizeDtStrings (f : Blob) : Nat := be32 f 32
def sizeDtStruct (f : Blob) : Nat := be32 f 36

/-- The last test of `fdt_ro_probe_`. -/
def probeSize (f : Blob) : Int :=
  if totalsize f < INT_MAX then (totalsize f : Int) else -FDT_ERR_TRUNCATED

/-- mirrors libs/libfdt/fdt.c:19-52 (`fdt_ro_probe_`): the total size, or a
negative error. -/
def roProbe (f : Blob) : Int :=
  if f.addr % 8 ≠ 0 then -FDT_ERR_ALIGNMENT
  else if magic f = FDT_MAGIC then
    if version f < FDT_FIRST_SUPPORTED_VERSION then -FDT_ERR_BADVERSION
    else if lastCompVersion f > FDT_LAST_SUPPORTED_VERSION then -FDT_ERR_BADVERSION
    else probeSize f
  else if magic f = FDT_SW_MAGIC then
    if sizeDtStruct f = 0 then -FDT_ERR_BADSTATE else probeSize f
  else -FDT_ERR_BADMAGIC

/-- mirrors libs/libfdt/fdt.c:54-57 -/
def checkOff (hdrsize total off : Nat) : Bool := decide (hdrsize ≤ off ∧ off ≤ total)

/-- mirrors libs/libfdt/fdt.c:59-69 -/
def checkBlock (hdrsize total base size : Nat) : Bool :=
  if !checkOff hdrsize total base then false
  else if (base + size) % 2 ^ 32 < base then false
  else checkOff hdrsize total ((base + size) % 2 ^ 32)

/-- mirrors libs/libfdt/fdt.c:71-83 (`fdt_header_size_`) -/
def headerSize (v : Nat) : Nat :=
  if v ≤ 1 then FDT_V1_SIZE
  else if v ≤ 2 then FDT_V2_SIZE
  else if v ≤ 3 then FDT_V3_SIZE
  else if v ≤ 16 then FDT_V16_SIZE
  else FDT_V17_SIZE

/-- The bounds check of the structure block: before version 17 the header
does not carry its size. -/
def checkStruct (f : Blob) : Bool :=
  if version f < 17 then checkOff (headerSize (version f)) (totalsize f) (offDtStruct f)
  else checkBlock (headerSize (version f)) (totalsize f) (offDtStruct f) (sizeDtStruct f)

/-- mirrors libs/libfdt/fdt.c:91-139 -/
def checkHeader (f : Blob) : Int :=
  if f.addr % 8 ≠ 0 then -FDT_ERR_ALIGNMENT
  else if magic f ≠ FDT_MAGIC then -FDT_ERR_BADMAGIC
  else if version f < FDT_FIRST_SUPPORTED_VERSION ∨ lastCompVersion f > FDT_LAST_SUPPORTED_VERSION then
    -FDT_ERR_BADVERSION
  else if version f < lastCompVersion f then -FDT_ERR_BADVERSION
  else if totalsize f < headerSize (version f) ∨ totalsize f > INT_MAX then -FDT_ERR_TRUNCATED
  else if !checkOff (headerSize (version f)) (totalsize f) (offMemRsvmap f) then -FDT_ERR_TRUNCATED
  else if !checkStruct f then -FDT_ERR_TRUNCATED
  else if !checkBlock (headerSize (version f)) (totalsize f) (offDtStrings f) (sizeDtStrings f) then
    -FDT_ERR_TRUNCATED
  else 0

/-- What an accepted header says of itself. -/
structure HeaderOk (f : Blob) : Prop where
  aligned : f.addr % 8 = 0
  magic : magic f = FDT_MAGIC
  first : FDT_FIRST_SUPPORTED_VERSION ≤ version f
  last : lastCompVersion f ≤ FDT_LAST_SUPPORTED_VERSION
  comp : lastCompVersion f ≤ version f
  size_ge : headerSize (version f) ≤ totalsize f
  size_le : totalsize f ≤ INT_MAX
  rsvmap : checkOff (headerSize (version f)) (totalsize f) (offMemRsvmap f) = true
  struct : checkStruct f = true
  strings : checkBlock (headerSize (version f)) (totalsize f) (offDtStrings f) (sizeDtStrings f) = true

theorem checkHeader_eq_zero (f : Blob) : checkHeader f = 0 ↔ HeaderOk f := by
  constructor
  · intro h
    unfold checkHeader at h
    repeat' split at h
    case isFalse.isFalse.isFalse.isFalse.isFalse.isFalse.isFalse.isFalse h1 h2 h3 h4 h5 h6 h7 h8 =>
      rw [not_or] at h3 h5
      exact ⟨by omega, not_not.mp h2, Nat.le_of_not_lt h3.1, Nat.le_of_not_lt h3.2, by omega,
        by omega, Nat.le_of_not_lt h5.2, by simpa using h6, by simpa using h7, by simpa using h8⟩
    all_goals exact absurd h (by decide)
  · rintro ⟨h1, h2, h3, h4, h5, h6, h7, h8, h9, h10⟩
    unfold checkHeader
    rw [if_neg (by omega), if_neg (not_not.mpr h2),
      if_neg (not_or.mpr ⟨Nat.not_lt.mpr h3, Nat.not_lt.mpr h4⟩), if_neg (by omega),
      if_neg (not_or.mpr ⟨by omega, Nat.not_lt.mpr h7⟩)]
    simp [h8, h9, h10]

theorem headerSize_ge (v : Nat) : FDT_V1_SIZE ≤ headerSize v := by
  unfold headerSize; repeat' split
  all_goals decide

theorem HeaderOk.totalsize_pos {f : Blob} (h : HeaderOk f) : 0 < totalsize f :=
  Nat.lt_of_lt_of_le (Nat.lt_of_lt_of_le (by decide) (headerSize_ge (version f))) h.size_ge

/-- Bad magic is the one answer that says nothing is wrong with the placement
and everything with the contents: the address is aligned. -/
theorem checkHeader_eq_badmagic (f : Blob) :
    checkHeader f = -FDT_ERR_BADMAGIC ↔ f.addr % 8 = 0 ∧ magic f ≠ FDT_MAGIC := by
  constructor
  · intro h
    unfold checkHeader at h
    split at h
    · exfalso; revert h; decide
    · split at h
      · rename_i h1 h2; exact ⟨by omega, h2⟩
      · exfalso; revert h; repeat' split
        all_goals decide
  · rintro ⟨h1, h2⟩
    unfold checkHeader
    rw [if_neg (by omega), if_pos h2]

theorem checkHeader_unaligned (f : Blob) (h : f.addr % 8 ≠ 0) :
    checkHeader f = -FDT_ERR_ALIGNMENT := by
  unfold checkHeader; rw [if_pos h]

/-- An accepted header is one the read-only functions accept too, unless the
size is exactly `INT_MAX`. -/
theorem HeaderOk.roProbe {f : Blob} (h : HeaderOk f) (hs : totalsize f < INT_MAX) :
    roProbe f = totalsize f := by
  unfold Fdt.roProbe probeSize
  rw [if_neg (not_not.mpr h.aligned), if_pos h.magic, if_neg (Nat.not_lt.mpr h.first),
    if_neg (Nat.not_lt.mpr h.last), if_pos hs]

end DTFramework.Fdt
