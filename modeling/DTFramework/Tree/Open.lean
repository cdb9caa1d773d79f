import DTFramework.Extn.Prop
import DTFramework.Fdt.NodeAt

/-!
# Opening a tree into a buffer

`fdt_open_into` brings a tree into a buffer of its own size, from where it can
grow. A tree whose blocks are in order is moved as it is; any other is laid out
anew, at the buffer or, when the old tree is in the way there, after the old tree,
and then moved. The buffer stands for the tree of the old blob, wherever the two
overlap (`openInto_keeps`).

Results:

* `packblocks_text`: the blocks, written one after the other;
* `moved_laid`, `packed_laid`: the tree is moved as it is, or laid out anew;
* `sameReserved_of`: a reserve map is counted alike wherever its bytes are;
* `openInto_laid`, `openInto_keeps`: the buffer has the same tree and reserve map just
  when they fit there.

A blob whose blocks stand in another order, and one of version 16, is no `Image`: of
these nothing is said.
-/
namespace DTFramework.Fdt

open DTFramework.Lib

/-! ## The code -/

/-- mirrors libs/libfdt/fdt_ro.c:160-173 (`fdt_mem_rsv`): the position of the entry. -/
def memRsv (f : Blob) (n : Nat) : Option Nat :=
  let absoffset := (offMemRsvmap f + n * 16) % 0x100000000
  if absoffset < offMemRsvmap f then none
  else if 16 ≤ totalsize f ∧ totalsize f - 16 < absoffset then none
  else some (offMemRsvmap f + n * 16)

/-- From an entry on. The offset of entry `2 ^ 28` has wrapped. -/
def numMemRsvFrom (f : Blob) (i : Nat) : Int :=
  if _h : 0x10000000 ≤ i then -FDT_ERR_TRUNCATED
  else
    match memRsv f i with
    | none => -FDT_ERR_TRUNCATED
    | some re => if be32 f (re + 8) = 0 ∧ be32 f (re + 12) = 0 then i else numMemRsvFrom f (i + 1)
termination_by 0x10000000 - i

/-- mirrors libs/libfdt/fdt_ro.c:189-199 -/
def numMemRsv (f : Blob) : Int := numMemRsvFrom f 0

/-- mirrors libs/libfdt/fdt.c:327-339 (`fdt_move`) -/
def move (m : Mem) (fdt buf : Nat) (bufsize : Int) : Int × Mem :=
  if bufsize < 0 then (-FDT_ERR_NOSPACE, m)
  else if roProbe (blobAt m fdt) < 0 then (roProbe (blobAt m fdt), m)
  else if bufsize < totalsize (blobAt m fdt) then (-FDT_ERR_NOSPACE, m)
  else (0, copy m buf fdt (totalsize (blobAt m fdt)))

/-- The end of a structure block whose size is not in the header. -/
def structEnd (f : Blob) (offset : Int) : Int :=
  if _h : (nextTag f offset).1 = FDT_END then (nextTag f offset).2 else structEnd f (nextTag f offset).2
termination_by room offset
decreasing_by exact nextTag_room _h

/-- mirrors libs/libfdt/fdt_rw.c:442-452 -/
def structSizeOf (f : Blob) : Except Int Int :=
  if 17 ≤ version f then .ok (int32 (sizeDtStruct f))
  else if version f = 16 then if structEnd f 0 < 0 then .error (structEnd f 0) else .ok (structEnd f 0)
  else .error (-FDT_ERR_BADVERSION)

/-- mirrors libs/libfdt/fdt_rw.c:403-424 (`fdt_packblocks_`) -/
def packblocks (m : Mem) (old new memRsvSize structSize stringsSize : Nat) : Mem :=
  let structOff := 40 + memRsvSize
  let stringsOff := structOff + structSize
  let m1 := setCell (copy m (new + 40) (old + offMemRsvmap (blobAt m old)) memRsvSize) new 16 40
  let m2 := setCell (copy m1 (new + structOff) (old + offDtStruct (blobAt m1 old)) structSize) new 8 structOff
  let m3 := setCell m2 new 36 structSize
  let m4 := setCell (copy m3 (new + stringsOff) (old + offDtStrings (blobAt m3 old)) stringsSize) new 12 stringsOff
  setCell m4 new 32 (sizeDtStrings (blobAt m4 old))

/-- Where the tree is built: at the buffer, or right after the old tree where that
is in the way.
mirrors libs/libfdt/fdt_rw.c:472-480 -/
def packAt (fdt buf fdtend : Nat) (bufsize newsize : Int) : Option Nat :=
  if (fdt : Int) < buf + newsize ∧ buf < fdtend then
    if (buf : Int) + bufsize < fdtend + newsize then none else some fdtend
  else some buf

/-- Blocks that are in order are moved as they are.
mirrors libs/libfdt/fdt_rw.c:456-464 -/
def openMoved (m : Mem) (fdt buf : Nat) (bufsize structSize : Int) : Int × Mem :=
  if (move m fdt buf bufsize).1 ≠ 0 then move m fdt buf bufsize
  else (0, setCell (setCell (setCell (move m fdt buf bufsize).2 buf 20 17) buf 36 structSize.toNat) buf 4
    bufsize.toNat)

/-- The tree is built at `tmp` and moved to the buffer.
mirrors libs/libfdt/fdt_rw.c:482-490 -/
def packInto (m : Mem) (fdt buf tmp bufsize newsize memRsvSize structSize : Nat) : Mem :=
  let packed := packblocks m fdt tmp memRsvSize structSize (sizeDtStrings (blobAt m fdt))
  let m1 := setCell (copy packed buf tmp newsize) buf 0 FDT_MAGIC
  let m2 := setCell (setCell (setCell m1 buf 4 bufsize) buf 20 17) buf 24 16
  setCell m2 buf 28 (be32 (blobAt m2 fdt) 28)

/-- A size that is negative as an `int` goes to `memmove` as a `size_t`.
mirrors libs/libfdt/fdt_rw.c:466-491 -/
def openPacked (m : Mem) (fdt buf : Nat) (bufsize memRsvSize structSize newsize : Int) :
    Except Extn.Fault (Int × Mem) :=
  if bufsize < newsize then .ok (-FDT_ERR_NOSPACE, m)
  else
    match packAt fdt buf (fdt + totalsize (blobAt m fdt)) bufsize newsize with
    | none => .ok (-FDT_ERR_NOSPACE, m)
    | some tmp =>
      if newsize < 0 ∨ memRsvSize < 0 ∨ structSize < 0 ∨ INT_MAX < sizeDtStrings (blobAt m fdt) then
        .error .outOfBounds
      else .ok (0, packInto m fdt buf tmp bufsize.toNat newsize.toNat memRsvSize.toNat structSize.toNat)

/-- With the sizes of the blocks known. -/
def openSized (m : Mem) (fdt buf : Nat) (bufsize memRsvSize structSize : Int) : Except Extn.Fault (Int × Mem) :=
  if blocksMisordered (blobAt m fdt) (memRsvSize % 0x100000000).toNat (structSize % 0x100000000).toNat then
    openPacked m fdt buf bufsize memRsvSize structSize
      (int32 (40 + memRsvSize + structSize + sizeDtStrings (blobAt m fdt)))
  else .ok (openMoved m fdt buf bufsize structSize)

/-- mirrors libs/libfdt/fdt_rw.c:426-492 -/
def openInto (m : Mem) (fdt buf : Nat) (bufsize : Int) : Except Extn.Fault (Int × Mem) :=
  let f := blobAt m fdt
  if roProbe f < 0 then .ok (roProbe f, m)
  else
    match structSizeOf f with
    | .error err => .ok (err, m)
    | .ok structSize => openSized m fdt buf bufsize ((numMemRsv f + 1) * 16) structSize

/-- An entry of the reserve map, as it stands there. -/
def rsvEntry (f : Blob) (k : Nat) : Str := (List.range 16).map fun j => f.rd (offMemRsvmap f + (16 * k + j))

/-- The reserve map is the same: as many entries, each of them and the one that ends
it as it was. -/
structure SameReserved (f f' : Blob) : Prop where
  count : numMemRsv f' = numMemRsv f
  entries : ∀ k : Nat, k ≤ numMemRsv f → rsvEntry f' k = rsvEntry f k

/-! ## Texts in memory -/

section
variable {m m' : Mem} {p q n : Nat}

theorem at_blob {l : Str} : At (blobAt m p).rd 0 l ↔ At m p l := by
  constructor
  · intro h
    exact h.move fun k _ => by rw [blobAt_rd, Nat.zero_add]
  · intro h
    exact h.move fun k _ => by rw [blobAt_rd, Nat.zero_add]

/-- A text is copied behind another. -/
theorem at_copy_behind {a b : Str} {o : Nat} (ha : At m p a) (hb : At m q b) (ho : o = p + a.length) :
    At (copy m o q b.length) p (a ++ b) := by
  subst ho
  rw [at_append]
  exact ⟨ha.congr fun x _ hx => copy_out m (Or.inl hx), hb.move fun x hx => copy_in m hx⟩

/-- A text is copied somewhere. -/
theorem at_copied {l : Str} (h : At m q l) (hn : l.length ≤ n) : At (copy m p q n) p l :=
  h.move fun _ hx => copy_in m (Nat.lt_of_lt_of_le hx hn)

theorem Kept.mono {n n' : Nat} (h : Kept p n m m') (hn : n ≤ n') : Kept p n' m m' := fun a ha => h a (by omega)

/-- Four bytes are a cell. -/
theorem exists_cell (b0 b1 b2 b3 : UInt8) : ∃ v, cell v = [b0, b1, b2, b3] := by
  have h0 := b0.toNat_lt
  have h1 := b1.toNat_lt
  have h2 := b2.toNat_lt
  have h3 := b3.toNat_lt
  refine ⟨((b0.toNat * 256 + b1.toNat) * 256 + b2.toNat) * 256 + b3.toNat, ?_⟩
  unfold cell
  have hb {v : Nat} {b : UInt8} (h : v % 256 = b.toNat) : UInt8.ofNat v = b := by
    apply UInt8.toNat_inj.mp
    rw [UInt8.toNat_ofNat', h]
  rw [hb (b := b0) (by omega), hb (b := b1) (by omega), hb (b := b2) (by omega), hb (b := b3) (by omega)]

/-- What stands anywhere is cells. -/
theorem exists_cells (m : Mem) (p n : Nat) : ∃ v : Nat → Nat, At m p (((List.range n).map v).flatMap cell) := by
  have hcell : ∀ k, ∃ v, cell v = [m (p + 4 * k), m (p + 4 * k + 1), m (p + 4 * k + 2), m (p + 4 * k + 3)] :=
    fun k => exists_cell _ _ _ _
  choose v hv using hcell
  refine ⟨v, ?_⟩
  induction n with
  | zero => trivial
  | succ n ih =>
    rw [List.range_succ, List.map_append, List.flatMap_append, at_append]
    refine ⟨ih, ?_⟩
    rw [flatMap_cell_length, List.length_map, List.length_range, List.map_singleton, List.flatMap_singleton, hv]
    exact ⟨rfl, rfl, rfl, rfl, trivial⟩

/-- A field is set in a header that stands at `p`. -/
theorem at_setField {l : List Nat} {rest : Str} {o k v : Nat} (h : At m p (l.flatMap cell ++ rest)) (ho : o = 4 * k)
    (hk : k < l.length) : At (setCell m p o v) p ((l.set k v).flatMap cell ++ rest) := by
  subst ho
  exact at_setCell v h hk

theorem kept_copyTo {n k src len : Nat} (h : k + len ≤ n) : Kept p n m (copy m (p + k) src len) :=
  fun _ _ => copy_out m (by omega)

theorem kept_setCell {n o v : Nat} (h : o + 4 ≤ n) : Kept p n m (setCell m p o v) := kept_store h

end

/-! ## The reserve map -/

section
variable {f : Blob} {k n : Nat}

theorem numMemRsvFrom_ends (h : numMemRsvFrom f k = n) : n < 0x10000000 ∧ ∃ re, memRsv f n = some re := by
  fun_induction numMemRsvFrom f k with
  | case1 | case2 =>
    simp only [FDT_ERR_TRUNCATED] at h
    omega
  | case3 k hk re hre hzero =>
    obtain rfl : k = n := by omega
    exact ⟨Nat.lt_of_not_le hk, re, hre⟩
  | case4 k hk re hre hzero ih => exact ih h

theorem numMemRsvFrom_ge (h : numMemRsvFrom f k = n) : k ≤ n := by
  fun_induction numMemRsvFrom f k with
  | case1 | case2 =>
    simp only [FDT_ERR_TRUNCATED] at h
    omega
  | case3 => omega
  | case4 k hk re hre hzero ih => exact Nat.le_of_succ_le (ih h)

/-- A map is counted alike wherever its bytes are. -/
theorem numMemRsvFrom_same {f' : Blob} (hrd : ∀ x < (n + 1) * 16,
    f'.rd (offMemRsvmap f' + x) = f.rd (offMemRsvmap f + x))
    (hroom : offMemRsvmap f' + (n + 1) * 16 ≤ totalsize f') (h : numMemRsvFrom f k = n) : numMemRsvFrom f' k = n := by
  have htotal : totalsize f' < 2 ^ 32 := be32_lt f' 4
  have hcell {k o : Nat} (hk : k ≤ n) (ho : o + 4 ≤ 16) :
      be32 f' (offMemRsvmap f' + k * 16 + o) = be32 f (offMemRsvmap f + k * 16 + o) := by
    unfold be32
    simp only [Nat.add_assoc]
    rw [hrd _ (by omega), hrd _ (by omega), hrd _ (by omega), hrd _ (by omega)]
  have hentry {k : Nat} (hk : k ≤ n) : memRsv f' k = some (offMemRsvmap f' + k * 16) := by
    unfold memRsv
    dsimp only
    rw [Nat.mod_eq_of_lt (by omega), if_neg (by omega), if_neg (by omega)]
  have hold {k re : Nat} (hre : memRsv f k = some re) : re = offMemRsvmap f + k * 16 := by
    unfold memRsv at hre
    dsimp only at hre
    split at hre
    · cases hre
    · split at hre
      · cases hre
      · exact (Option.some.inj hre).symm
  fun_induction numMemRsvFrom f k with
  | case1 | case2 =>
    simp only [FDT_ERR_TRUNCATED] at h
    omega
  | case3 k hk re hre hzero =>
    obtain rfl : k = n := by omega
    rw [hold hre] at hzero
    rw [numMemRsvFrom, dif_neg hk, hentry (Nat.le_refl _)]
    dsimp only
    rw [hcell (Nat.le_refl _) (by decide), hcell (Nat.le_refl _) (by decide), if_pos hzero]
  | case4 k hk re hre hzero ih =>
    have hle : k ≤ n := Nat.le_of_succ_le (numMemRsvFrom_ge h)
    rw [hold hre] at hzero
    rw [numMemRsvFrom, dif_neg hk, hentry hle]
    dsimp only
    rw [hcell hle (by decide), hcell hle (by decide), if_neg hzero]
    exact ih h

/-- The reserve map is the same where its bytes are. -/
theorem sameReserved_of {f' : Blob} (h : numMemRsv f = n)
    (hrd : ∀ x < (n + 1) * 16, f'.rd (offMemRsvmap f' + x) = f.rd (offMemRsvmap f + x))
    (hroom : offMemRsvmap f' + (n + 1) * 16 ≤ totalsize f') : SameReserved f f' := by
  refine ⟨(numMemRsvFrom_same hrd hroom h).trans h.symm, fun k hk => List.map_congr_left fun j hj => hrd _ ?_⟩
  rw [h] at hk
  have hj := List.mem_range.mp hj
  omega

/-- The map with its last entry is in the blob. -/
theorem numMemRsv_inside (h : numMemRsv f = n) (htotal : 16 ≤ totalsize f) :
    offMemRsvmap f + (n + 1) * 16 ≤ totalsize f := by
  obtain ⟨hn, re, hre⟩ := numMemRsvFrom_ends h
  have hoff : offMemRsvmap f < 2 ^ 32 := be32_lt f 16
  unfold memRsv at hre
  dsimp only at hre
  split at hre
  · cases hre
  · split at hre
    · cases hre
    · omega

end

/-! ## The buffer -/

section
variable {m m' : Mem} {p buf new R : Nat} {i : Image} {t : Forest FlatNode}

theorem Holds.text (h : Holds m p i) : At m p i.bytes := at_blob.mp h.stands

theorem Holds.structText (h : Holds m p i) : At m (p + i.offStruct) i.struct :=
  (at_append.mp h.struct).1.move fun k _ => by rw [blobAt_rd, Nat.add_assoc]

theorem Holds.stringsText (h : Holds m p i) : At m (p + i.offStrings) i.strs := by
  have hat := h.strings.stands
  rw [h.reads.offStrings] at hat
  exact hat.move fun k _ => by rw [blobAt_rd, Nat.add_assoc]

/-- What is read of the old blob while the blocks are built at `new`: each block is
still there when it is copied, and the header says where. -/
structure BlocksRead (m : Mem) (p new R : Nat) (i : Image) (hdr : List Nat) : Prop where
  struct : ∀ m1, Kept new (40 + R) m m1 → (∃ rest, At m1 new ((hdr.set 4 40).flatMap cell ++ rest)) →
    offDtStruct (blobAt m1 p) = i.offStruct ∧ At m1 (p + i.offStruct) i.struct
  strings : ∀ m1, Kept new (40 + R + i.struct.length) m m1 →
    (∃ rest, At m1 new ((((hdr.set 4 40).set 2 (40 + R)).set 9 i.struct.length).flatMap cell ++ rest)) →
    offDtStrings (blobAt m1 p) = i.offStrings ∧ At m1 (p + i.offStrings) i.strs
  size : ∀ m1, Kept new (40 + R + i.struct.length + i.strs.length) m m1 →
    (∃ rest, At m1 new (((((hdr.set 4 40).set 2 (40 + R)).set 9 i.struct.length).set 3
    (40 + R + i.struct.length)).flatMap
      cell ++ rest)) → sizeDtStrings (blobAt m1 p) = i.strs.length

/-- The blocks, one after the other, with the header fields that say where they are. -/
theorem packblocks_text (h : Holds m p i) {hdr : List Nat} {r : Str} (hhdr : At m new (hdr.flatMap cell))
    (hten : hdr.length = 10) (hr : r.length = R) (hrsv : At m (p + i.offRsv) r) (hread : BlocksRead m p new R i hdr) :
    At (packblocks m p new R i.struct.length i.strs.length) new
        ((((((hdr.set 4 40).set 2 (40 + R)).set 9 i.struct.length).set 3 (40 + R + i.struct.length)).set 8
          i.strs.length).flatMap cell ++ (r ++ (i.struct ++ i.strs))) ∧
      Kept new (40 + R + i.struct.length + i.strs.length) m (packblocks m p new R i.struct.length i.strs.length) := by
  have hcells : ∀ l : List Nat, l.length = 10 → (l.flatMap cell).length = 40 := fun l hl => by
    rw [flatMap_cell_length, hl]
  unfold packblocks
  dsimp only
  rw [h.reads.offRsv]
  -- the reservations
  have h1 := at_copy_behind (o := new + 40) hhdr hrsv (by rw [hcells _ hten])
  rw [hr] at h1
  have h2 := at_setField (v := 40) h1 (show 16 = 4 * 4 from rfl) (by omega)
  have k2 : Kept new (40 + R) m (setCell (copy m (new + 40) (p + i.offRsv) R) new 16 40) :=
    (kept_copyTo (by omega)).trans (kept_setCell (by omega))
  have hten2 : (hdr.set 4 40).length = 10 := by rw [List.length_set, hten]
  generalize setCell (copy m (new + 40) (p + i.offRsv) R) new 16 40 = m1 at h2 k2 ⊢
  -- the structure block
  obtain ⟨hoff, hstruct⟩ := hread.struct m1 k2 ⟨_, h2⟩
  have h3 := at_copy_behind (o := new + (40 + R)) h2 hstruct (by rw [List.length_append, hr, hcells _ hten2])
  rw [List.append_assoc] at h3
  have h4 := at_setField (v := 40 + R) h3 (show 8 = 4 * 2 from rfl) (by omega)
  have h5 := at_setField (v := i.struct.length) h4 (show 36 = 4 * 9 from rfl) (by rw [List.length_set]; omega)
  rw [hoff]
  have k5 : Kept new (40 + R + i.struct.length) m (setCell (setCell (copy m1 (new + (40 + R)) (p + i.offStruct)
      i.struct.length) new 8 (40 + R)) new 36 i.struct.length) :=
    (((k2.mono (by omega)).trans (kept_copyTo (by omega))).trans (kept_setCell (by omega))).trans
    (kept_setCell (by omega))
  have hten5 : (((hdr.set 4 40).set 2 (40 + R)).set 9 i.struct.length).length = 10 := by
    rw [List.length_set, List.length_set, hten2]
  generalize setCell (setCell (copy m1 (new + (40 + R)) (p + i.offStruct) i.struct.length) new 8 (40 + R)) new 36
    i.struct.length = m3 at h5 k5 ⊢
  -- the strings block
  obtain ⟨hoff, hstrs⟩ := hread.strings m3 k5 ⟨_, h5⟩
  have h6 := at_copy_behind (o := new + (40 + R + i.struct.length)) h5 hstrs (by
    rw [List.length_append, List.length_append, hr, hcells _ hten5, Nat.add_assoc 40])
  rw [List.append_assoc, List.append_assoc] at h6
  have h7 := at_setField (v := 40 + R + i.struct.length) h6 (show 12 = 4 * 3 from rfl) (by omega)
  rw [hoff]
  have k7 : Kept new (40 + R + i.struct.length + i.strs.length) m (setCell (copy m3 (new + (40 + R + i.struct.length))
      (p + i.offStrings) i.strs.length) new 12 (40 + R + i.struct.length)) :=
    ((k5.mono (by omega)).trans (kept_copyTo (by omega))).trans (kept_setCell (by omega))
  generalize setCell (copy m3 (new + (40 + R + i.struct.length)) (p + i.offStrings) i.strs.length) new 12
    (40 + R + i.struct.length) = m4 at h7 k7 ⊢
  rw [hread.size m4 k7 ⟨_, h7⟩]
  exact ⟨at_setField (v := i.strs.length) h7 (show 32 = 4 * 8 from rfl) (by rw [List.length_set]; omega),
    k7.trans (kept_setCell (by omega))⟩

/-- The blocks are built apart from the old blob, which stays as it is. -/
theorem packblocks_at (h : Laid m p i t) (hap : Apart new (40 + R + i.struct.length + i.strs.length) p i.total) :
    ∃ (a b c d e : Nat) (r : Str), r.length = R ∧ At m (p + i.offRsv) r ∧
      At (packblocks m p new R i.struct.length i.strs.length) new
        ([a, b, 40 + R, 40 + R + i.struct.length, 40, c, d, e, i.strs.length, i.struct.length].flatMap cell ++
          (r ++ (i.struct ++ i.strs))) ∧
      Kept new (40 + R + i.struct.length + i.strs.length) m (packblocks m p new R i.struct.length i.strs.length) := by
  obtain ⟨v, hv⟩ := exists_cells m new 10
  obtain ⟨r, hr, hrsv⟩ := exists_at m (p + i.offRsv) R
  have hread : BlocksRead m p new R i [v 0, v 1, v 2, v 3, v 4, v 5, v 6, v 7, v 8, v 9] := by
    refine ⟨fun m1 hkept _ => ?_, fun m1 hkept _ => ?_, fun m1 hkept _ => ?_⟩
    · have hlaid := h.apart (hkept.mono (by omega)) hap
      exact ⟨hlaid.holds.reads.offStruct, hlaid.holds.structText⟩
    · have hlaid := h.apart (hkept.mono (by omega)) hap
      exact ⟨hlaid.holds.reads.offStrings, hlaid.holds.stringsText⟩
    · exact (h.apart hkept hap).holds.reads.sizeStrings
  exact ⟨v 0, v 1, v 5, v 6, v 7, r, hr, hrsv, packblocks_text h.holds hv rfl hr hrsv hread⟩

/-- The bytes of a reserve map stand in another blob. -/
def RsvMoved (m m' : Mem) (p buf off off' R : Nat) : Prop := ∀ x < R, m' (buf + off' + x) = m (p + off + x)

theorem Holds.sameReserved {i' : Image} {n : Nat} (h : Holds m p i) (h' : Holds m' buf i')
    (hrsv : numMemRsv (blobAt m p) = n) (hroom : i'.offRsv + (n + 1) * 16 ≤ i'.total)
    (hmoved : RsvMoved m m' p buf i.offRsv i'.offRsv ((n + 1) * 16)) : SameReserved (blobAt m p) (blobAt m' buf) := by
  refine sameReserved_of hrsv (fun x hx => ?_) (by rw [h'.reads.offRsv, h'.reads.total]; exact hroom)
  rw [blobAt_rd, blobAt_rd, h.reads.offRsv, h'.reads.offRsv, ← Nat.add_assoc, ← Nat.add_assoc]
  exact hmoved x hx

/-- A tree that is moved as it is. -/
theorem moved_laid (h : Laid m p i t) {size : Nat} (hbuf : buf % 8 = 0) (hsize : size < INT_MAX)
    (hfits : i.total ≤ size) :
    Laid (setCell (setCell (setCell (copy m buf p i.total) buf 20 17) buf 36 i.struct.length) buf 4 size) buf
        { i with total := size, version := 17 } t ∧
      (∀ R, i.offRsv + R ≤ i.size → RsvMoved m (setCell (setCell (setCell (copy m buf p i.total) buf 20 17) buf 36
        i.struct.length) buf 4 size) p buf i.offRsv i.offRsv R) ∧
      Kept buf size m (setCell (setCell (setCell (copy m buf p i.total) buf 20 17) buf 36 i.struct.length) buf 4
          size) := by
  obtain ⟨hle, hstr, hsz, htot⟩ := h.holds.sizes
  have hroom : 40 ≤ i.total := by
    have hoff : i.offStruct = 40 + i.reserved.length := rfl
    omega
  have h0 := at_copied (p := buf) (n := i.total) h.holds.text (by rw [bytes_length]; exact hsz)
  have h1 := at_setField (v := 17) h0 (show 20 = 4 * 5 from rfl) (show 5 < 10 by decide)
  have h2 := at_setField (v := i.struct.length) h1 (show 36 = 4 * 9 from rfl) (show 9 < 10 by decide)
  have h3 := at_setField (v := size) h2 (show 4 = 4 * 1 from rfl) (show 1 < 10 by decide)
  refine ⟨⟨holds_of_at ⟨hsize, Nat.le_trans hsz hfits, Nat.le_refl 17, (by decide : 17 < 2 ^ 32), h.holds.ok.lastComp,
    h.holds.ok.rsv_ge, h.holds.ok.rsv_le⟩ hbuf h3, h.struct, h.ok⟩, fun R hR x hx => ?_, ?_⟩
  · have hblocks : i.blocks.length + 40 = i.size := by
      have hbytes := bytes_length i
      unfold Image.bytes at hbytes
      rw [List.length_append] at hbytes
      rw [← hbytes]
      exact Nat.add_comm _ _
    have hge := h.holds.ok.rsv_ge
    have hagree := (at_append.mp h3).2.agree (at_append.mp h.holds.text).2 (i.offRsv - 40 + x) (by omega)
    have hstart (q : Nat) : q + 40 + (i.offRsv - 40 + x) = q + i.offRsv + x := by omega
    have h40 : (i.fields.flatMap cell).length = 40 := rfl
    rw [h40, hstart] at hagree
    exact hagree.symm ▸ (hstart buf ▸ rfl)
  exact (((kept_copyTo (k := 0) (by omega)).trans (kept_setCell (by omega))).trans (kept_setCell (by omega))).trans
    (kept_setCell (by omega))

/-- A tree that is laid out anew. -/
theorem packed_laid (h : Laid m p i t) {size tmp N : Nat} (hN : N = 40 + R + i.struct.length + i.strs.length)
    (hbuf : buf % 8 = 0) (hsize : size < INT_MAX) (hR : 16 ≤ R) (hap : Apart tmp N p i.total) (hge : buf ≤ tmp)
    (hle : tmp + N ≤ buf + size) :
    ∃ i', Laid (packInto m p buf tmp size N R i.struct.length) buf i' t ∧ i'.strs = i.strs ∧ i'.total = size ∧
      i'.offRsv + R ≤ i'.total ∧ RsvMoved m (packInto m p buf tmp size N R i.struct.length) p buf i.offRsv i'.offRsv
        R ∧
      Kept buf size m (packInto m p buf tmp size N R i.struct.length) := by
  subst hN
  obtain ⟨a, b, c, d, e, r, hr, hrsv, hat, hkept⟩ := packblocks_at h hap
  have hlen : ([a, b, 40 + R, 40 + R + i.struct.length, 40, c, d, e, i.strs.length, i.struct.length].flatMap cell ++
      (r ++ (i.struct ++ i.strs))).length = 40 + R + i.struct.length + i.strs.length := by
    rw [List.length_append, List.length_append, List.length_append, hr, ← Nat.add_assoc, ← Nat.add_assoc]
    rfl
  have h0 := at_copied (p := buf) (n := 40 + R + i.struct.length + i.strs.length) hat (Nat.le_of_eq hlen)
  have h1 := at_setField (v := FDT_MAGIC) h0 (show 0 = 4 * 0 from rfl) (show 0 < 10 by decide)
  have h2 := at_setField (v := size) h1 (show 4 = 4 * 1 from rfl) (show 1 < 10 by decide)
  have h3 := at_setField (v := 17) h2 (show 20 = 4 * 5 from rfl) (show 5 < 10 by decide)
  have h4 := at_setField (v := 16) h3 (show 24 = 4 * 6 from rfl) (show 6 < 10 by decide)
  unfold packInto
  rw [h.holds.reads.sizeStrings]
  dsimp only
  generalize be32 (blobAt _ p) 28 = boot
  have h5 := at_setField (v := boot) h4 (show 28 = 4 * 7 from rfl) (show 7 < 10 by decide)
  have hnew : 40 + R ≤ size := by omega
  refine ⟨⟨size, 40, 17, 16, boot, r, i.struct, [], i.strs⟩, ⟨holds_of_at ⟨hsize, ?_, Nat.le_refl 17,
    (by decide : 17 < 2 ^ 32), (by decide : 16 ≤ 17), Nat.le_refl 40, ?_⟩ hbuf ?_, h.struct, h.ok⟩, rfl, rfl, hnew, ?_,
    ?_⟩
  · change 40 + r.length + i.struct.length + 0 + i.strs.length ≤ size
    omega
  · change 40 + 16 ≤ 40 + r.length
    omega
  · have hbytes : Image.bytes ⟨size, 40, 17, 16, boot, r, i.struct, [], i.strs⟩ =
        [FDT_MAGIC, size, 40 + r.length, 40 + r.length + i.struct.length, 40, 17, 16, boot, i.strs.length,
          i.struct.length].flatMap cell ++ (r ++ (i.struct ++ i.strs)) := rfl
    rw [hbytes, hr]
    exact h5
  · have hmoved := (at_append.mp (at_append.mp h5).2).1.agree hrsv
    rw [hr] at hmoved
    exact fun x hx => hmoved x hx
  · have hpacked : Kept buf size m (packblocks m p tmp R i.struct.length i.strs.length) :=
      fun x hx => hkept x (by omega)
    refine hpacked.trans ?_
    exact (((((kept_copyTo (k := 0) (by omega)).trans (kept_setCell (by omega))).trans (kept_setCell (by omega))).trans
      (kept_setCell (by omega))).trans (kept_setCell (by omega))).trans (kept_setCell (by omega))

/-- The bytes of a tree that is laid out anew. -/
def packedSize (f : Blob) : Int := 40 + (numMemRsv f + 1) * 16 + sizeDtStruct f + sizeDtStrings f

/-- The blocks follow each other, with the whole reserve map before the structure block. -/
def InOrder (f : Blob) : Prop :=
  blocksMisordered f ((numMemRsv f + 1) * 16 % 0x100000000).toNat ((sizeDtStruct f : Int) % 0x100000000).toNat = false

instance (f : Blob) : Decidable (InOrder f) := by unfold InOrder; infer_instance

/-- The reserve map of a blob in order ends before the structure block. -/
theorem InOrder.rsv_le (hin : InOrder (blobAt m p)) (h : Holds m p i) {n : Nat} (hrsv : numMemRsv (blobAt m p) = n) :
    i.offRsv + (n + 1) * 16 ≤ i.offStruct := by
  obtain ⟨hle, hstr, hsz, htot⟩ := h.sizes
  have hrsv16 := h.ok.rsv_le
  have hinside := numMemRsv_inside hrsv (by rw [h.reads.total]; omega)
  rw [h.reads.offRsv, h.reads.total] at hinside
  unfold InOrder blocksMisordered at hin
  rw [hrsv, h.reads.offRsv, h.reads.offStruct] at hin
  have hno := of_decide_eq_false hin
  omega

/-- There is room for the tree at `buf`: as it is, or laid out anew at one end of
the buffer where it does not meet the old tree. -/
def Fits (f : Blob) (p buf : Nat) (size : Nat) : Prop :=
  if InOrder f then totalsize f ≤ size
  else packedSize f ≤ size ∧ ((buf : Int) + packedSize f ≤ p ∨ p + totalsize f ≤ buf ∨
    (p : Int) + totalsize f + packedSize f ≤ buf + size)

instance (f : Blob) (p buf size : Nat) : Decidable (Fits f p buf size) := by unfold Fits; infer_instance

/-- What is answered for a tree that is laid out anew. -/
theorem openPacked_eq {size n R S : Nat} (hS : sizeDtStrings (blobAt m p) ≤ INT_MAX) : openPacked m p buf size R S n =
    if n ≤ size ∧ (buf + n ≤ p ∨ p + totalsize (blobAt m p) ≤ buf ∨ p + totalsize (blobAt m p) + n ≤ buf + size) then
      .ok (0, packInto m p buf (if p < buf + n ∧ buf < p + totalsize (blobAt m p) then p + totalsize (blobAt m p)
        else buf)
        size n R S)
    else .ok (-FDT_ERR_NOSPACE, m) := by
  unfold openPacked
  by_cases hbig : n ≤ size
  · rw [if_neg (show ¬(size : Int) < n by omega)]
    unfold packAt
    by_cases hmeet : p < buf + n ∧ buf < p + totalsize (blobAt m p)
    · rw [if_pos hmeet, if_pos (show (p : Int) < buf + n ∧ buf < p + totalsize (blobAt m p) by omega)]
      by_cases hroom : p + totalsize (blobAt m p) + n ≤ buf + size
      · rw [if_neg (show ¬(buf : Int) + size < (p + totalsize (blobAt m p) : Nat) + n by omega), if_pos (by omega)]
        exact if_neg (by omega)
      · rw [if_pos (show (buf : Int) + size < (p + totalsize (blobAt m p) : Nat) + n by omega), if_neg (by omega)]
    · rw [if_neg hmeet, if_neg (show ¬((p : Int) < buf + n ∧ buf < p + totalsize (blobAt m p)) by omega),
        if_pos (by omega)]
      exact if_neg (by omega)
  · rw [if_pos (show (size : Int) < n by omega), if_neg (by omega)]

/-- What is answered for a tree that is moved as it is. -/
theorem openMoved_eq (h : Laid m p i t) (size S : Nat) : openMoved m p buf size S =
    if i.total ≤ size then (0, setCell (setCell (setCell (copy m buf p i.total) buf 20 17) buf 36 S) buf 4 size)
    else (-FDT_ERR_NOSPACE, m) := by
  have hprobe := h.holds.probe
  have hmove : move m p buf size = if i.total ≤ size then (0, copy m buf p i.total) else (-FDT_ERR_NOSPACE, m) := by
    unfold move
    rw [if_neg (by omega), if_neg (by rw [hprobe]; omega), h.holds.reads.total]
    by_cases hroom : i.total ≤ size
    · rw [if_neg (by omega), if_pos hroom]
    · rw [if_pos (by omega), if_neg hroom]
  unfold openMoved
  rw [hmove]
  by_cases hroom : i.total ≤ size
  · rw [if_pos hroom, if_pos hroom]
    exact if_neg (not_not.mpr rfl)
  · rw [if_neg hroom, if_neg hroom]
    exact if_pos (show (-FDT_ERR_NOSPACE : Int) ≠ 0 by decide)

/-- What is answered, as a question about the old blob. -/
theorem openInto_eq (h : Laid m p i t) {size n N : Nat} (hrsv : numMemRsv (blobAt m p) = n)
    (hN : N = 40 + (n + 1) * 16 + i.struct.length + i.strs.length) (hint : N ≤ INT_MAX) : openInto m p buf size =
      if InOrder (blobAt m p) then .ok (openMoved m p buf size i.struct.length)
      else openPacked m p buf size ((n + 1) * 16 : Nat) i.struct.length N := by
  have hr := h.holds.reads
  have hprobe := h.holds.probe
  have hversion := h.holds.ok.version
  obtain ⟨hle, hstr, hsz, htot⟩ := h.holds.sizes
  have hsizeOf : structSizeOf (blobAt m p) = .ok (i.struct.length : Int) := by
    unfold structSizeOf
    rw [if_pos (by rw [hr.version]; exact hversion), hr.sizeStruct, int32_nat (by omega)]
  have hmap : ((n : Int) + 1) * 16 = (((n + 1) * 16 : Nat) : Int) := by omega
  simp only [INT_MAX] at hint
  have hsum : int32 (40 + (((n + 1) * 16 : Nat) : Int) + (i.struct.length : Int) + (i.strs.length : Int)) =
      (N : Int) := by
    rw [int32_of_lt (by omega) (by omega)]
    omega
  unfold openInto
  rw [if_neg (show ¬roProbe (blobAt m p) < 0 by rw [hprobe]; omega), hsizeOf, hrsv, hmap]
  unfold openSized
  rw [hr.sizeStrings]
  dsimp only
  rw [hsum]
  by_cases hin : InOrder (blobAt m p)
  · rw [if_pos hin]
    unfold InOrder at hin
    rw [hrsv, hr.sizeStruct, hmap] at hin
    rw [hin]
    rfl
  · rw [if_neg hin]
    unfold InOrder at hin
    rw [hrsv, hr.sizeStruct, hmap, Bool.not_eq_false] at hin
    rw [hin]
    rfl

/-- Opened into a buffer, a tree is the same tree, or the buffer is too small. -/
theorem openInto_laid (h : Laid m p i t) {size n : Nat} (hrsv : numMemRsv (blobAt m p) = n) (hbuf : buf % 8 = 0)
    (hsize : size < INT_MAX) (hint : packedSize (blobAt m p) ≤ INT_MAX) :
    (Fits (blobAt m p) p buf size ∧ ∃ m' i', openInto m p buf size = .ok (0, m') ∧ Laid m' buf i' t ∧
      i'.strs = i.strs ∧
        i'.total = size ∧ (InOrder (blobAt m p) → i'.size = i.size) ∧ SameReserved (blobAt m p) (blobAt m' buf) ∧
        Kept buf size m m') ∨
      (¬Fits (blobAt m p) p buf size ∧ openInto m p buf size = .ok (-FDT_ERR_NOSPACE, m)) := by
  have hr := h.holds.reads
  obtain ⟨hle, hstr, hsz, htot⟩ := h.holds.sizes
  obtain ⟨N, hN⟩ : ∃ N, N = 40 + (n + 1) * 16 + i.struct.length + i.strs.length := ⟨_, rfl⟩
  have hpacked : packedSize (blobAt m p) = N := by
    unfold packedSize
    rw [hrsv, hr.sizeStruct, hr.sizeStrings]
    omega
  rw [hpacked] at hint
  have hcode : openInto m p buf size = _ := openInto_eq h hrsv hN (by omega)
  have hstrs : sizeDtStrings (blobAt m p) ≤ INT_MAX := by
    rw [hr.sizeStrings]
    simp only [INT_MAX]
    omega
  by_cases hin : InOrder (blobAt m p)
  · have hfits : Fits (blobAt m p) p buf size ↔ i.total ≤ size := by
      unfold Fits
      rw [if_pos hin, hr.total]
    rw [hcode, if_pos hin, openMoved_eq h, hfits]
    by_cases hroom : i.total ≤ size
    · obtain ⟨hlaid, hmoved, hkept⟩ := moved_laid h hbuf hsize hroom
      have hend := hin.rsv_le h.holds hrsv
      have hsame := h.holds.sameReserved hlaid.holds hrsv (show i.offRsv + (n + 1) * 16 ≤ size by omega)
        (hmoved _ (by omega))
      rw [if_pos hroom]
      exact Or.inl ⟨hroom, _, _, rfl, hlaid, rfl, rfl, fun _ => rfl, hsame, hkept⟩
    · rw [if_neg hroom]
      exact Or.inr ⟨hroom, rfl⟩
  · have hfits : Fits (blobAt m p) p buf size ↔ (N ≤ size ∧
        (buf + N ≤ p ∨ p + totalsize (blobAt m p) ≤ buf ∨ p + totalsize (blobAt m p) + N ≤ buf + size)) := by
      unfold Fits
      rw [if_neg hin, hpacked]
      omega
    rw [hcode, if_neg hin, openPacked_eq hstrs, hfits]
    by_cases hroom : N ≤ size ∧
        (buf + N ≤ p ∨ p + totalsize (blobAt m p) ≤ buf ∨ p + totalsize (blobAt m p) + N ≤ buf + size)
    · rw [if_pos hroom]
      obtain ⟨tmp, htmp⟩ : ∃ tmp, tmp = if p < buf + N ∧ buf < p + totalsize (blobAt m p) then
        p + totalsize (blobAt m p) else buf := ⟨_, rfl⟩
      have hat : Apart tmp N p i.total ∧ buf ≤ tmp ∧ tmp + N ≤ buf + size := by
        unfold Apart
        rw [htmp, hr.total]
        rw [hr.total] at hroom
        split <;> omega
      obtain ⟨i', hlaid, hstrs', htotal, hend, hmoved, hkept⟩ :=
        packed_laid h hN hbuf hsize (by omega) hat.1 hat.2.1 hat.2.2
      have hsame := h.holds.sameReserved hlaid.holds hrsv hend hmoved
      rw [← htmp]
      exact Or.inl ⟨hroom, _, i', rfl, hlaid, hstrs', htotal, fun hno => absurd hno hin, hsame, hkept⟩
    · rw [if_neg hroom]
      exact Or.inr ⟨hroom, rfl⟩

/-- `fdt_open_into` answers with the same tree and the same reserve map in the buffer,
exactly when they fit there; it writes nothing outside the buffer, and nothing at all
when it fails. -/
theorem openInto_keeps {t : Forest NodeData} (h : Carries m p t) {size : Nat} (hrsv : 0 ≤ numMemRsv (blobAt m p))
    (hbuf : buf % 8 = 0) (hsize : size < INT_MAX) (hint : packedSize (blobAt m p) ≤ INT_MAX) :
    if Fits (blobAt m p) p buf size then
      ∃ m', openInto m p buf size = .ok (0, m') ∧ Carries m' buf t ∧ SameReserved (blobAt m p) (blobAt m' buf) ∧
        totalsize (blobAt m' buf) = size ∧ Kept buf size m m'
    else openInto m p buf size = .ok (-FDT_ERR_NOSPACE, m) := by
  obtain ⟨i, ft, hlaid, rfl⟩ := h
  rcases openInto_laid hlaid (Int.toNat_of_nonneg hrsv).symm hbuf hsize hint with
    ⟨hfits, m', i', hcode, hlaid', hstrs, htotal, -, hsame, hkept⟩ | ⟨hno, hcode⟩
  · rw [if_pos hfits]
    refine ⟨m', hcode, ⟨i', ft, hlaid', by rw [hstrs]⟩, hsame, ?_, hkept⟩
    rw [hlaid'.holds.reads.total, htotal]
  · rw [if_neg hno]
    exact hcode

end

/-- The reserve map of the small tree has no entry. -/
theorem small_rsv : numMemRsv (blobAt smallMem 0) = 0 := by
  have hentry : memRsv (blobAt smallMem 0) 0 = some 40 := by decide +kernel
  unfold numMemRsv
  rw [numMemRsvFrom]
  rw [dif_neg (by decide), hentry]
  exact if_pos (by decide +kernel)

/-- Moved by eight bytes, over itself. -/
theorem openInto_small : ∃ m', openInto smallMem 0 8 500 = .ok (0, m') ∧ Carries m' 8 smallNode.forest ∧
    SameReserved (blobAt smallMem 0) (blobAt m' 8) ∧ totalsize (blobAt m' 8) = 500 ∧ Kept 8 500 smallMem m' := by
  have hin : InOrder (blobAt smallMem 0) := by
    unfold InOrder
    rw [small_rsv]
    decide +kernel
  have hfits : Fits (blobAt smallMem 0) 0 8 500 := by
    unfold Fits
    rw [if_pos hin]
    decide +kernel
  have hsize : packedSize (blobAt smallMem 0) ≤ INT_MAX := by
    unfold packedSize
    rw [small_rsv]
    decide +kernel
  have hopen : if Fits (blobAt smallMem 0) 0 8 500 then _ else _ :=
    openInto_keeps small_nodeAt.carries (by rw [small_rsv]) rfl (by decide) hsize
  rwa [if_pos hfits] at hopen

end DTFramework.Fdt
