import DTFramework.Fdt.Header
import Mathlib.Data.Int.Cast.Basic

/-!
# Tags of the structure block

`fdt_next_tag` reads one token of the structure block and says where the next
one starts; `fdt_next_node` runs over tokens to the next `FDT_BEGIN_NODE`.
Offsets are C `int`s: a non-negative value is an offset, a negative one an
error code. `fdt_offset_ptr` refuses every offset that is not in the block,
so the loops are bounded by the room left (`room`), whatever the bytes are.

`nextTag_advance` is the fact behind every termination argument here: a token
other than `FDT_END` ends strictly after it starts.

Results:

* `nextTag_eq`: everything there is to know about a token other than `FDT_END`;
* `nextTag_room`, `nextNode_room`: the measures of the loops over tokens and nodes go
  down;
* `nextNode_gt`: the node after a node is further on.
-/
namespace DTFramework.Fdt

abbrev FDT_TAGSIZE : Nat := 4
abbrev FDT_BEGIN_NODE : Nat := 0x1
abbrev FDT_END_NODE : Nat := 0x2
abbrev FDT_PROP : Nat := 0x3
abbrev FDT_NOP : Nat := 0x4
abbrev FDT_END : Nat := 0x9

/-- The value a C `int` holds after a computation with result `x`. -/
def int32 (x : Int) : Int := (x + 0x80000000) % 0x100000000 - 0x80000000

theorem int32_bounds (x : Int) : -0x80000000 ≤ int32 x ∧ int32 x < 0x80000000 := by
  unfold int32
  omega

theorem int32_of_lt {x : Int} (h0 : 0 ≤ x) (h1 : x < 0x80000000) : int32 x = x := by
  unfold int32; omega

/-- `FDT_TAGALIGN`. mirrors libs/libfdt/libfdt_internal.h:11-12 -/
def tagAlign (x : Nat) : Nat := (x + 3) / 4 * 4

/-- mirrors libs/libfdt/fdt.c:141-162 (`fdt_offset_ptr`): the position in the
blob that `offset` points at, when `len` bytes from it are in the structure
block. An `offset` past `INT_MAX` is negative as an `int`. -/
def offsetPtr (f : Blob) (offset : Int) (len : Nat) : Option Nat :=
  if offset < 0 ∨ 0x80000000 ≤ offset then none
  else
    let uoffset := offset.toNat
    let absoffset := (uoffset + offDtStruct f) % 0x100000000
    if absoffset < uoffset ∨ (absoffset + len) % 0x100000000 < absoffset ∨
        (absoffset + len) % 0x100000000 > totalsize f then none
    else if 17 ≤ version f ∧ ((uoffset + len) % 0x100000000 < uoffset ∨
        (uoffset + len) % 0x100000000 > sizeDtStruct f) then none
    else some (offDtStruct f + uoffset)

theorem offsetPtr_some {f : Blob} {o : Int} {len p : Nat} (h : offsetPtr f o len = some p) :
    0 ≤ o ∧ o < 0x80000000 ∧ p = offDtStruct f + o.toNat := by
  unfold offsetPtr at h
  split at h
  · cases h
  · rename_i h0
    rw [not_or] at h0
    simp only at h
    split at h
    · cases h
    · split at h
      · cases h
      · cases h
        exact ⟨by omega, by omega, rfl⟩

/-- Room left for offsets: the measure of the loops over the block. -/
def room (offset : Int) : Nat := if offset < 0 then 0 else (0x80000000 - offset).toNat

theorem room_lt {o n : Int} (h0 : 0 ≤ o) (h1 : o < 0x80000000) (h : n < 0 ∨ o < n) : room n < room o := by
  have hn : ¬o < 0 := by omega
  unfold room
  rw [if_neg hn]
  split
  · omega
  · rcases h with h | h <;> omega

theorem room_zero {o : Int} (h : room o = 0) : o < 0 ∨ 0x80000000 ≤ o := by
  unfold room at h
  split at h <;> omega

/-- The loop of `fdt_next_tag` over a node's name: the offset just past its
terminating NUL, `none` if the block ends first.
mirrors libs/libfdt/fdt.c:181-185 -/
def skipName (f : Blob) (offset : Int) : Option Int :=
  match h : offsetPtr f offset 1 with
  | none => none
  | some p => if f.rd p = 0 then some (offset + 1) else skipName f (offset + 1)
termination_by room offset
decreasing_by
  have := offsetPtr_some h
  exact room_lt this.1 this.2.1 (by omega)

/-- One turn of the name loop. -/
theorem skipName_eq (f : Blob) (o : Int) :
    skipName f o = match offsetPtr f o 1 with
      | none => none
      | some p => if f.rd p = 0 then some (o + 1) else skipName f (o + 1) := by
  rw [skipName]; split <;> simp_all

theorem skipName_bounds (f : Blob) {e : Int} :
    ∀ n o, room o ≤ n → skipName f o = some e → 0 ≤ o ∧ o < e ∧ e ≤ 0x80000000 := by
  intro n
  induction n with
  | zero =>
    intro o hn h
    rw [skipName_eq] at h
    split at h
    · cases h
    · have hp := offsetPtr_some ‹_›
      have := room_zero (o := o) (by omega)
      omega
  | succ n ih =>
    intro o hn h
    rw [skipName_eq] at h
    split at h
    · cases h
    · have hp := offsetPtr_some ‹_›
      have hr := room_lt hp.1 hp.2.1 (n := o + 1) (by omega)
      split at h
      · cases h; omega
      · have := ih (o + 1) (by omega) h
        omega

/-- The body of `fdt_next_tag` for the tag read at `startoffset`: the offset
just past the token, `none` on a premature end, and whether the tag is known.
mirrors libs/libfdt/fdt.c:178-218 -/
def tagEnd (f : Blob) (tag : Nat) (offset : Int) : Option Int :=
  if tag = FDT_BEGIN_NODE then skipName f offset
  else if tag = FDT_PROP then
    match offsetPtr f offset 4 with
    | none => none
    | some lenp =>
      let len := be32 f lenp
      let sum := (len + offset.toNat) % 2 ^ 32
      if INT_MAX ≤ sum ∨ sum < offset.toNat then none
      else
        let offset' := offset + 8 + len
        if version f < 0x10 ∧ len ≥ 8 ∧ (offset' - len) % 8 ≠ 0 then some (offset' + 4)
        else some offset'
  else if tag = FDT_END ∨ tag = FDT_END_NODE ∨ tag = FDT_NOP then some offset
  else none

/-- Go on with a value that was found; without one the answer is `FDT_END`
and the error. -/
def orEnd {α : Type} (x : Option α) (err : Int) (k : α → Nat × Int) : Nat × Int :=
  match x with
  | none => (FDT_END, -err)
  | some a => k a

/-- mirrors libs/libfdt/fdt.c:162-221: the tag at `startoffset` and the offset
of the next one. -/
def nextTag (f : Blob) (startoffset : Int) : Nat × Int :=
  orEnd (offsetPtr f startoffset FDT_TAGSIZE) FDT_ERR_TRUNCATED fun tagp =>
  orEnd (tagEnd f (be32 f tagp) (startoffset + FDT_TAGSIZE)) FDT_ERR_BADSTRUCTURE fun offset =>
  orEnd (offsetPtr f startoffset (offset - startoffset).toNat) FDT_ERR_BADSTRUCTURE fun _ =>
  (be32 f tagp, int32 (tagAlign offset.toNat))

theorem orEnd_ne_end {α : Type} {x : Option α} {err n : Int} {k : α → Nat × Int} {t : Nat}
    (h : orEnd x err k = (t, n)) (ht : t ≠ FDT_END) : ∃ a, x = some a ∧ k a = (t, n) := by
  cases x with
  | none => exact absurd (congrArg Prod.fst h).symm ht
  | some a => exact ⟨a, rfl, h⟩

theorem tagEnd_bounds {f : Blob} {tag : Nat} {o e : Int} (h0 : 0 ≤ o) (h1 : o ≤ 0x80000004)
    (h : tagEnd f tag o = some e) : o ≤ e ∧ e ≤ 0x80000010 := by
  unfold tagEnd at h
  split at h
  · have := skipName_bounds f _ o (Nat.le_refl _) h; omega
  · split at h
    · split at h
      · cases h
      · rename_i lenp _
        have hlen := be32_lt f lenp
        simp only [INT_MAX] at h
        split at h
        · cases h
        · split at h <;> cases h <;> omega
    · split at h
      · cases h; omega
      · cases h

/-- The next offset an aligned token end leaves in an `int`. -/
theorem int32_tagAlign {o e : Int} (h0 : 0 ≤ o) (h2 : o + 4 ≤ e) (h3 : e ≤ 0x80000010) :
    (int32 (tagAlign e.toNat) < 0 ∨ o + 4 ≤ int32 (tagAlign e.toNat)) ∧
      int32 (tagAlign e.toNat) < 0x80000000 := by
  unfold int32 tagAlign
  omega

/-- Everything there is to know about a token other than `FDT_END`. -/
theorem nextTag_eq {f : Blob} {o n : Int} {t : Nat} (h : nextTag f o = (t, n)) (ht : t ≠ FDT_END) :
    ∃ p q e, offsetPtr f o FDT_TAGSIZE = some p ∧ be32 f p = t ∧
      tagEnd f t (o + FDT_TAGSIZE) = some e ∧ offsetPtr f o (e - o).toNat = some q ∧
      int32 (tagAlign e.toNat) = n := by
  obtain ⟨p, hp, h⟩ := orEnd_ne_end h ht
  obtain ⟨e, he, h⟩ := orEnd_ne_end h ht
  obtain ⟨q, hq, h⟩ := orEnd_ne_end h ht
  rw [Prod.mk.injEq] at h
  obtain ⟨ht', hn⟩ := h
  exact ⟨p, q, e, hp, ht', ht' ▸ he, hq, hn⟩

/-- A token other than `FDT_END` starts in the block, and the next offset is
further on (or wrapped to a negative value, which no function follows). -/
theorem nextTag_advance {f : Blob} {o n : Int} {t : Nat} (h : nextTag f o = (t, n)) (ht : t ≠ FDT_END) :
    0 ≤ o ∧ o < 0x80000000 ∧ (n < 0 ∨ o + 4 ≤ n) ∧ n < 0x80000000 := by
  obtain ⟨p, q, e, hp, -, he, -, rfl⟩ := nextTag_eq h ht
  obtain ⟨h0, h1, -⟩ := offsetPtr_some hp
  rw [show ((FDT_TAGSIZE : Nat) : Int) = 4 from rfl] at he
  have hb := tagEnd_bounds (by omega) (by omega) he
  exact ⟨h0, h1, int32_tagAlign h0 hb.1 hb.2⟩

theorem nextTag_bounds {f : Blob} {o : Int} (h : (nextTag f o).1 ≠ FDT_END) :
    0 ≤ o ∧ o < 0x80000000 ∧ ((nextTag f o).2 < 0 ∨ o + 4 ≤ (nextTag f o).2) ∧
      (nextTag f o).2 < 0x80000000 :=
  nextTag_advance (t := (nextTag f o).1) (n := (nextTag f o).2) rfl h

/-- The measure of the loops over tokens goes down at every token. -/
theorem nextTag_room {f : Blob} {o : Int} (h : (nextTag f o).1 ≠ FDT_END) :
    room (nextTag f o).2 < room o := by
  obtain ⟨h0, h1, h2, -⟩ := nextTag_bounds h
  exact room_lt h0 h1 (by omega)

/-! ## Nodes -/

/-- mirrors libs/libfdt/fdt.c:223-233 (`fdt_check_node_offset_`) -/
def checkNodeOffset (f : Blob) (offset : Int) : Int :=
  if offset < 0 ∨ offset % FDT_TAGSIZE ≠ 0 then -FDT_ERR_BADOFFSET
  else if (nextTag f offset).1 ≠ FDT_BEGIN_NODE then -FDT_ERR_BADOFFSET
  else (nextTag f offset).2

/-- mirrors libs/libfdt/fdt.c:235-245 (`fdt_check_prop_offset_`) -/
def checkPropOffset (f : Blob) (offset : Int) : Int :=
  if offset < 0 ∨ offset % FDT_TAGSIZE ≠ 0 then -FDT_ERR_BADOFFSET
  else if (nextTag f offset).1 ≠ FDT_PROP then -FDT_ERR_BADOFFSET
  else (nextTag f offset).2

theorem checkNodeOffset_nonneg {f : Blob} {o : Int} (h : 0 ≤ checkNodeOffset f o) :
    0 ≤ o ∧ o % 4 = 0 ∧ (nextTag f o).1 = FDT_BEGIN_NODE ∧ checkNodeOffset f o = (nextTag f o).2 := by
  unfold checkNodeOffset at h ⊢
  simp only [FDT_TAGSIZE, FDT_ERR_BADOFFSET, Nat.cast_ofNat] at h ⊢
  split at h
  · omega
  · split at h
    · omega
    · rename_i h0 h1
      rw [if_neg h0, if_neg h1]
      exact ⟨by omega, by omega, not_not.mp h1, rfl⟩

theorem checkPropOffset_nonneg {f : Blob} {o : Int} (h : 0 ≤ checkPropOffset f o) :
    0 ≤ o ∧ o % 4 = 0 ∧ (nextTag f o).1 = FDT_PROP ∧ checkPropOffset f o = (nextTag f o).2 := by
  unfold checkPropOffset at h ⊢
  simp only [FDT_TAGSIZE, FDT_ERR_BADOFFSET, Nat.cast_ofNat] at h ⊢
  split at h
  · omega
  · split at h
    · omega
    · rename_i h0 h1
      rw [if_neg h0, if_neg h1]
      exact ⟨by omega, by omega, not_not.mp h1, rfl⟩

/-- The loop of `fdt_next_node`: on to the next `FDT_BEGIN_NODE`, counting the
levels when the caller asked for them.
mirrors libs/libfdt/fdt.c:256-285 -/
def nextNodeFrom (f : Blob) (offset : Int) (depth : Option Int) : Int × Option Int :=
  let tag := (nextTag f offset).1
  let nextoffset := (nextTag f offset).2
  if _h : tag = FDT_END then
    if 0 ≤ nextoffset ∨ (nextoffset = -FDT_ERR_TRUNCATED ∧ depth = none) then (-FDT_ERR_NOTFOUND, depth)
    else (nextoffset, depth)
  else if tag = FDT_BEGIN_NODE then (offset, depth.map (· + 1))
  else if tag = FDT_END_NODE then
    match depth with
    | none => nextNodeFrom f nextoffset none
    | some d =>
      if d - 1 < 0 then (nextoffset, some (d - 1)) else nextNodeFrom f nextoffset (some (d - 1))
  else nextNodeFrom f nextoffset depth
termination_by room offset
decreasing_by
  all_goals
    exact nextTag_room _h

/-- mirrors libs/libfdt/fdt.c:247-285 -/
def nextNode (f : Blob) (offset : Int) (depth : Option Int) : Int × Option Int :=
  if 0 ≤ offset then
    if checkNodeOffset f offset < 0 then (checkNodeOffset f offset, depth)
    else nextNodeFrom f (checkNodeOffset f offset) depth
  else nextNodeFrom f 0 depth

/-- The offset found is at or after the start of the search. -/
theorem nextNodeFrom_ge (f : Blob) (o : Int) (d : Option Int) (h : 0 ≤ (nextNodeFrom f o d).1) :
    0 ≤ o ∧ o ≤ (nextNodeFrom f o d).1 := by
  fun_induction nextNodeFrom f o d with
  | case1 => exact absurd h (by simp [FDT_ERR_NOTFOUND])
  | case2 => simp_all
  | case3 o d tag ht =>
    have := nextTag_bounds ht
    exact ⟨this.1, Int.le_refl _⟩
  | case5 o tag next ht =>
    have := nextTag_bounds ht
    simp only at h ⊢
    omega
  | case4 o tag next ht _ _ ih | case6 o tag next ht _ _ d _ ih | case7 o d tag next ht _ _ ih =>
    have := nextTag_bounds ht
    have := ih h
    omega

/-- The node after a node is further on. -/
theorem nextNode_gt (f : Blob) (o : Int) (d : Option Int) (h0 : 0 ≤ o) (h : 0 ≤ (nextNode f o d).1) :
    o < 0x80000000 ∧ o < (nextNode f o d).1 := by
  unfold nextNode at h ⊢
  rw [if_pos h0] at h ⊢
  split at h
  · simp only at h; omega
  · rename_i hc
    rw [if_neg hc]
    have h1 := nextNodeFrom_ge f _ d h
    obtain ⟨-, -, ht, he⟩ := checkNodeOffset_nonneg h1.1
    have h2 := nextTag_bounds (f := f) (o := o) (by rw [ht]; decide)
    omega

/-- The measure of the loops over nodes; a search that has not begun is at -1. -/
def nodeRoom (offset : Int) : Nat := if offset < 0 then 0x80000001 else room offset

/-- The measure goes down at every node. -/
theorem nextNode_room {f : Blob} {o : Int} {d : Option Int} (h : 0 ≤ (nextNode f o d).1) :
    nodeRoom (nextNode f o d).1 < nodeRoom o := by
  have hn : ¬(nextNode f o d).1 < 0 := by omega
  unfold nodeRoom
  rw [if_neg hn]
  split
  · unfold room; rw [if_neg hn]; omega
  · have := nextNode_gt f o d (by omega) h
    exact room_lt (by omega) this.1 (Or.inr this.2)

/-- mirrors libs/libfdt/fdt.c:287-296 -/
def firstSubnode (f : Blob) (offset : Int) : Int :=
  let r := nextNode f offset (some 0)
  if r.1 < 0 ∨ r.2 ≠ some 1 then -FDT_ERR_NOTFOUND else r.1

/-- The loop of `fdt_next_subnode`, entered with the depth of the last turn. -/
def nextSubnodeFrom (f : Blob) (offset : Int) (depth : Int) : Int :=
  let r := nextNode f offset (some depth)
  if _h : r.1 < 0 then -FDT_ERR_NOTFOUND
  else match r.2 with
  | none => -FDT_ERR_NOTFOUND
  | some d =>
    if d < 1 then -FDT_ERR_NOTFOUND
    else if 1 < d then nextSubnodeFrom f r.1 d
    else r.1
termination_by nodeRoom offset
decreasing_by
  exact nextNode_room (Int.not_lt.mp _h)

/-- mirrors libs/libfdt/fdt.c:298-313 -/
def nextSubnode (f : Blob) (offset : Int) : Int := nextSubnodeFrom f offset 1

end DTFramework.Fdt
