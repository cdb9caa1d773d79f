import DTFramework.Fdt.Tag

/-!
# The read-only interface of libfdt

Names, properties, paths and phandles, as `fdt_ro.c` looks them up: every
lookup is a scan of tokens. C strings are the byte lists before their NUL. A
result that the C code returns through a pointer and an error through `*lenp`
is an `Except`; functions that return an `int` offset or a negative error stay
`Int`.

Results:

* `nextProperty_room`: the measure of the loops over properties goes down; the
  lookups below are functions by it.
-/
namespace DTFramework.Fdt

/-- A C string, without its NUL. -/
abbrev Str := List UInt8

abbrev SLASH : UInt8 := 47
abbrev AT : UInt8 := 64

/-- The bytes from `p` up to a NUL, at most `n` of them. -/
def cstr (rd : Nat → UInt8) (p : Nat) : Nat → Str
  | 0 => []
  | n + 1 => if rd p = 0 then [] else rd p :: cstr rd (p + 1) n

/-- The string at `p` when `memchr` finds its NUL within `n` bytes. -/
def cstrWithin (rd : Nat → UInt8) (p n : Nat) : Option Str :=
  if (cstr rd p n).length < n then some (cstr rd p n) else none

/-- The part of a string after its last `c` (`strrchr`). -/
def afterLast (c : UInt8) : Str → Option Str
  | [] => none
  | x :: s => (afterLast c s).or (if x = c then some s else none)

/-! ## Node names -/

/-- mirrors libs/libfdt/fdt_ro.c:303-340 -/
def getName (f : Blob) (nodeoffset : Int) : Except Int Str :=
  if roProbe f < 0 then .error (roProbe f)
  else if checkNodeOffset f nodeoffset < 0 then .error (checkNodeOffset f nodeoffset)
  else
    -- the token's check found the NUL inside the block
    let nameptr := cstr f.rd (offDtStruct f + nodeoffset.toNat + FDT_TAGSIZE) (totalsize f)
    if version f < 0x10 then
      match afterLast SLASH nameptr with
      | none => .error (-FDT_ERR_BADSTRUCTURE)
      | some leaf => .ok leaf
    else .ok nameptr

/-- A node called `p` answers to the name `s`: the same, or the same up to a
unit address that `s` leaves out.
mirrors libs/libfdt/fdt_ro.c:13-33 -/
def nameMatches (p s : Str) : Bool :=
  if p.take s.length ≠ s then false
  else match p.drop s.length with
  | [] => true
  | c :: _ => !s.contains AT && c == AT

/-- mirrors libs/libfdt/fdt_ro.c:13-33 (`fdt_nodename_eq_`) -/
def nodenameEq (f : Blob) (offset : Int) (s : Str) : Bool :=
  match getName f offset with
  | .error _ => false
  | .ok p => nameMatches p s

/-- The call `fdt_next_node(fdt, offset, &depth)`. -/
def nextNodeDepth (f : Blob) (offset depth : Int) : Int × Int :=
  ((nextNode f offset (some depth)).1, (nextNode f offset (some depth)).2.getD 0)

/-- The loop of `fdt_subnode_offset_namelen`, at a node of the given depth
below the parent. -/
def subnodeScan (f : Blob) (name : Str) (offset depth : Int) : Int :=
  if depth = 1 ∧ nodenameEq f offset name then offset
  else
    let next := nextNodeDepth f offset depth
    if next.2 < 0 then -FDT_ERR_NOTFOUND
    else if _h : next.1 < 0 then next.1
    else subnodeScan f name next.1 next.2
termination_by nodeRoom offset
decreasing_by exact nextNode_room (Int.not_lt.mp _h)

/-- mirrors libs/libfdt/fdt_ro.c:225-243 -/
def subnodeOffset (f : Blob) (offset : Int) (name : Str) : Int :=
  if roProbe f < 0 then roProbe f
  else if offset < 0 then offset
  else subnodeScan f name offset 0

/-! ## Strings and properties -/

/-- mirrors libs/libfdt/fdt_ro.c:35-98 -/
def getString (f : Blob) (stroffset : Int) : Except Int Str :=
  if roProbe f < 0 then .error (roProbe f)
  else
    let total := totalsize f
    let absoffset := ((stroffset + offDtStrings f) % 0x100000000).toNat
    if total ≤ absoffset then .error (-FDT_ERR_BADOFFSET)
    else
      let found (len : Nat) : Except Int Str :=
        match cstrWithin f.rd absoffset len with
        | none => .error (-FDT_ERR_TRUNCATED)
        | some s => .ok s
      if magic f = FDT_MAGIC then
        if stroffset < 0 then .error (-FDT_ERR_BADOFFSET)
        else if 17 ≤ version f then
          if (sizeDtStrings f : Int) ≤ stroffset then .error (-FDT_ERR_BADOFFSET)
          else found (min (total - absoffset) (sizeDtStrings f - stroffset.toNat))
        else found (total - absoffset)
      else if magic f = FDT_SW_MAGIC then
        if 0 ≤ stroffset ∨ (sizeDtStrings f : Int) < -stroffset then .error (-FDT_ERR_BADOFFSET)
        else found (min (total - absoffset) (-stroffset).toNat)
      else .error (-FDT_ERR_INTERNAL)

/-- `prop->len`, `prop->nameoff` and the address of `prop->data` in the blob. -/
def propLen (f : Blob) (offset : Int) : Nat := be32 f (offDtStruct f + offset.toNat + 4)
def propNameoff (f : Blob) (offset : Int) : Int := int32 (be32 f (offDtStruct f + offset.toNat + 8))
def propData (f : Blob) (offset : Int) : Nat := offDtStruct f + offset.toNat + 12

/-- mirrors libs/libfdt/fdt_ro.c:200-223 (`nextprop_`) -/
def nextprop (f : Blob) (offset : Int) : Int :=
  let tag := (nextTag f offset).1
  let nextoffset := (nextTag f offset).2
  if _h : tag = FDT_END then if 0 ≤ nextoffset then -FDT_ERR_BADSTRUCTURE else nextoffset
  else if tag = FDT_PROP then offset
  else if tag = FDT_NOP then nextprop f nextoffset
  else -FDT_ERR_NOTFOUND
termination_by room offset
decreasing_by exact nextTag_room _h

/-- mirrors libs/libfdt/fdt_ro.c:342-350 -/
def firstPropertyOffset (f : Blob) (nodeoffset : Int) : Int :=
  if checkNodeOffset f nodeoffset < 0 then checkNodeOffset f nodeoffset
  else nextprop f (checkNodeOffset f nodeoffset)

/-- mirrors libs/libfdt/fdt_ro.c:352-358 -/
def nextPropertyOffset (f : Blob) (offset : Int) : Int :=
  if checkPropOffset f offset < 0 then checkPropOffset f offset
  else nextprop f (checkPropOffset f offset)

theorem nextprop_ge (f : Blob) (o : Int) (h : 0 ≤ nextprop f o) : 0 ≤ o ∧ o ≤ nextprop f o := by
  fun_induction nextprop f o with
  | case1 | case5 => exact absurd h (by decide)
  | case2 => omega
  | case3 => exact ⟨h, Int.le_refl _⟩
  | case4 o tag next ht _ _ ih =>
    have := nextTag_bounds ht
    have := ih h
    omega

/-- The measure of the loops over properties goes down at every property. -/
theorem nextProperty_room {f : Blob} {o : Int} (h : 0 ≤ nextPropertyOffset f o) :
    room (nextPropertyOffset f o) < room o := by
  unfold nextPropertyOffset at h ⊢
  split at h
  · omega
  · rename_i hc
    rw [if_neg hc]
    obtain ⟨h0, -, ht, he⟩ := checkPropOffset_nonneg (Int.not_lt.mp hc)
    have h1 := nextTag_bounds (f := f) (o := o) (by rw [ht]; decide)
    have h2 := nextprop_ge f _ h
    exact room_lt h0 h1.2.1 (by omega)

/-- mirrors libs/libfdt/fdt_ro.c:105-112 (`fdt_string_eq_`) -/
def stringEq (f : Blob) (stroffset : Int) (s : Str) : Bool :=
  match getString f stroffset with
  | .error _ => false
  | .ok p => p == s

/-- mirrors libs/libfdt/fdt_ro.c:360-380 (`fdt_get_property_by_offset_`): the
length of the property. -/
def getPropertyByOffset (f : Blob) (offset : Int) : Except Int Int :=
  if checkPropOffset f offset < 0 then .error (checkPropOffset f offset)
  else .ok (int32 (propLen f offset))

/-- The loop of `fdt_get_property_namelen_`: the offset of the first property
called `name`. -/
def propertyScan (f : Blob) (name : Str) (offset : Int) : Except Int Int :=
  if offset < 0 then .error offset
  else match getPropertyByOffset f offset with
  | .error _ => .error (-FDT_ERR_INTERNAL)
  | .ok _ =>
    if stringEq f (propNameoff f offset) name then .ok offset
    else if _h : nextPropertyOffset f offset < 0 then .error (nextPropertyOffset f offset)
    else propertyScan f name (nextPropertyOffset f offset)
termination_by room offset
decreasing_by exact nextProperty_room (Int.not_lt.mp _h)

/-- mirrors libs/libfdt/fdt_ro.c:397-426 (`fdt_get_property_namelen_`) -/
def getPropertyNamelen (f : Blob) (nodeoffset : Int) (name : Str) : Except Int Int :=
  propertyScan f name (firstPropertyOffset f nodeoffset)

/-- Where the value of the property at `offset` starts: before version 16 a
value of 8 bytes or more is aligned to 8. -/
def propValue (f : Blob) (offset : Int) : Nat :=
  if version f < 0x10 ∧ (offset + 12) % 8 ≠ 0 ∧ 8 ≤ propLen f offset then propData f offset + 4
  else propData f offset

/-- mirrors libs/libfdt/fdt_ro.c:455-472, 501-505: the position of the value in
the blob, and its length. -/
def getprop (f : Blob) (nodeoffset : Int) (name : Str) : Except Int (Nat × Int) :=
  match getPropertyNamelen f nodeoffset name with
  | .error e => .error e
  | .ok offset => .ok (propValue f offset, int32 (propLen f offset))

/-- mirrors libs/libfdt/fdt_ro.c:428-453 (`fdt_get_property`): position and
length of the raw value. -/
def getProperty (f : Blob) (nodeoffset : Int) (name : Str) : Except Int (Nat × Int) :=
  if version f < 0x10 then .error (-FDT_ERR_BADVERSION)
  else match getPropertyNamelen f nodeoffset name with
  | .error e => .error e
  | .ok offset => .ok (propData f offset, int32 (propLen f offset))

/-- mirrors libs/libfdt/fdt_ro.c:474-505 (`fdt_getprop_by_offset`): name and
length of the property at `offset`. -/
def getpropByOffset (f : Blob) (offset : Int) : Except Int (Str × Int) :=
  match getPropertyByOffset f offset with
  | .error e => .error e
  | .ok len =>
    match getString f (propNameoff f offset) with
    | .error e => .error e
    | .ok name => .ok (name, len)

/-! ## Paths -/

/-- The walk of `fdt_path_offset_namelen` over the components of `path`, from
the node at `offset`.
mirrors libs/libfdt/fdt_ro.c:276-296 -/
def pathWalk (f : Blob) (offset : Int) (path : Str) : Int :=
  match _h : path.dropWhile (· == SLASH) with
  | [] => offset
  | c :: p =>
    let next := subnodeOffset f offset (c :: p.takeWhile (· != SLASH))
    if next < 0 then next else pathWalk f next (p.dropWhile (· != SLASH))
termination_by path.length
decreasing_by
  have h1 := (List.dropWhile_sublist (· == SLASH) (l := path)).length_le
  have h2 := (List.dropWhile_sublist (· != SLASH) (l := p)).length_le
  rw [_h] at h1
  simp only [List.length_cons] at h1
  omega

/-- `fdt_path_offset` of a path that does not start with an alias. -/
def absPathOffset (f : Blob) (path : Str) : Int :=
  if roProbe f < 0 then roProbe f
  else if path = [] then -FDT_ERR_BADPATH
  else pathWalk f 0 path

/-- "/aliases" -/
abbrev ALIASES : Str := [47, 97, 108, 105, 97, 115, 101, 115]

/-- mirrors libs/libfdt/fdt_ro.c:542-556: the path an alias stands for. It
starts with a slash. -/
def getAlias (f : Blob) (name : Str) : Option Str :=
  let node := absPathOffset f ALIASES
  if node < 0 then none
  else match getprop f node name with
  | .error _ => none
  | .ok (p, len) =>
    if 0 < len ∧ f.rd (p + len.toNat - 1) = 0 ∧ f.rd p = SLASH then some (cstr f.rd p len.toNat)
    else none

/-- mirrors libs/libfdt/fdt_ro.c:251-301. The path of an alias is absolute, so
the recursive call for it is `absPathOffset`. -/
def pathOffset (f : Blob) (path : Str) : Int :=
  if roProbe f < 0 then roProbe f
  else if path = [] then -FDT_ERR_BADPATH
  else if path.head? = some SLASH then pathWalk f 0 path
  else match getAlias f (path.takeWhile (· != SLASH)) with
  | none => -FDT_ERR_BADPATH
  | some p => pathWalk f (absPathOffset f p) (path.dropWhile (· != SLASH))

theorem pathOffset_slash {f : Blob} {p : Str} : pathOffset f (SLASH :: p) = absPathOffset f (SLASH :: p) := by
  unfold pathOffset absPathOffset
  simp

/-! ## Phandles -/

/-- "phandle" -/
abbrev PHANDLE : Str := [112, 104, 97, 110, 100, 108, 101]
/-- "linux,phandle" -/
abbrev LINUX_PHANDLE : Str := [108, 105, 110, 117, 120, 44, 112, 104, 97, 110, 100, 108, 101]

/-- The value of a property that is one cell. -/
def getCell (f : Blob) (nodeoffset : Int) (name : Str) : Option Nat :=
  match getprop f nodeoffset name with
  | .error _ => none
  | .ok (p, len) => if len = 4 then some (be32 f p) else none

/-- mirrors libs/libfdt/fdt_ro.c:507-523 -/
def getPhandle (f : Blob) (nodeoffset : Int) : Nat :=
  match getCell f nodeoffset PHANDLE with
  | some v => v
  | none =>
    match getCell f nodeoffset LINUX_PHANDLE with
    | some v => v
    | none => 0

/-- The loop of `fdt_find_max_phandle` after the node at `offset`. -/
def maxPhandleScan (f : Blob) (max : Nat) (offset : Int) : Except Int Nat :=
  let next := (nextNode f offset none).1
  if _h : next < 0 then if next = -FDT_ERR_NOTFOUND then .ok max else .error next
  else maxPhandleScan f (Nat.max max (getPhandle f next)) next
termination_by nodeRoom offset
decreasing_by exact nextNode_room (Int.not_lt.mp _h)

/-- mirrors libs/libfdt/fdt_ro.c:114-141 -/
def findMaxPhandle (f : Blob) : Except Int Nat := maxPhandleScan f 0 (-1)

/-- The loop of `fdt_node_offset_by_phandle` after the node at `offset`. -/
def phandleScan (f : Blob) (phandle : Nat) (offset : Int) : Int :=
  let next := (nextNode f offset none).1
  if _h : next < 0 then next
  else if getPhandle f next = phandle then next
  else phandleScan f phandle next
termination_by nodeRoom offset
decreasing_by exact nextNode_room (Int.not_lt.mp _h)

/-- mirrors libs/libfdt/fdt_ro.c:710-733 -/
def nodeOffsetByPhandle (f : Blob) (phandle : Nat) : Int :=
  if phandle = 0 ∨ phandle = 0xffffffff then -FDT_ERR_BADPHANDLE
  else if roProbe f < 0 then roProbe f
  else phandleScan f phandle (-1)

end DTFramework.Fdt
