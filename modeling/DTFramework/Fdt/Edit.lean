import DTFramework.Fdt.Image

/-!
# Editing blobs

The functions of `fdt_rw.c` that put properties and nodes into a blob. The tail
of the blob is moved to make room (`splice`), the header is brought up to date,
and the gap is written. On a text (`Holds`) each of these is an edit of one of
its parts, or answers `-FDT_ERR_NOSPACE` and leaves the text.

C `unsigned` arithmetic is reduced by `% 2 ^ 32`. Lengths are those of lists, so
negative `int` lengths are left out.

Results:

* `Holds.splice`, `Holds.spliceStruct`: a part of the text is replaced by a gap, or
  there is no room;
* `Holds.findAddString`, `Holds.delLastString`: a string is found or added, and taken
  back.
-/
namespace DTFramework.Fdt

open DTFramework.Lib

/-! ## The code -/

/-- A header field or another cell is set. -/
def setCell (m : Mem) (p off v : Nat) : Mem := store m (p + off) (cell v)

/-- mirrors libs/libfdt/fdt_rw.c:13-23 (`fdt_blocks_misordered_`) -/
def blocksMisordered (f : Blob) (memRsvSize structSize : Nat) : Bool :=
  decide (offMemRsvmap f < 40 ∨ offDtStruct f < (offMemRsvmap f + memRsvSize) % 0x100000000 ∨
    offDtStrings f < (offDtStruct f + structSize) % 0x100000000 ∨
    totalsize f < (offDtStrings f + sizeDtStrings f) % 0x100000000)

/-- mirrors libs/libfdt/fdt_rw.c:25-40 (`fdt_rw_probe_`) -/
def rwProbe (m : Mem) (p : Nat) : Int × Mem :=
  let f := blobAt m p
  if roProbe f < 0 then (roProbe f, m)
  else if version f < 17 then (-FDT_ERR_BADVERSION, m)
  else if blocksMisordered f 16 (sizeDtStruct f) then (-FDT_ERR_BADLAYOUT, m)
  else if 17 < version f then (0, setCell m p 20 17)
  else (0, m)

/-- mirrors libs/libfdt/fdt_rw.c:49-52 (`fdt_data_size_`) -/
def dataSize (f : Blob) : Nat := (offDtStrings f + sizeDtStrings f) % 0x100000000

/-- mirrors libs/libfdt/fdt_rw.c:54-68 (`fdt_splice_`), at `soff` of the blob -/
def splice (m : Mem) (p soff oldlen newlen : Nat) : Int × Mem :=
  let dsize := dataSize (blobAt m p)
  if dsize < soff + oldlen then (-FDT_ERR_BADOFFSET, m)
  else if (dsize + newlen) % 0x100000000 < oldlen then (-FDT_ERR_BADOFFSET, m)
  else if totalsize (blobAt m p) < (dsize - oldlen + newlen) % 0x100000000 then (-FDT_ERR_NOSPACE, m)
  else (0, copy m (p + (soff + newlen)) (p + (soff + oldlen)) (dsize - (soff + oldlen)))

/-- mirrors libs/libfdt/fdt_rw.c:83-95 (`fdt_splice_struct_`) -/
def spliceStruct (m : Mem) (p soff oldlen newlen : Nat) : Int × Mem :=
  let r := splice m p soff oldlen newlen
  if r.1 ≠ 0 then r
  else
    let m1 := setCell r.2 p 36 ((sizeDtStruct (blobAt r.2 p) + newlen + 0x100000000 - oldlen) % 0x100000000)
    (0, setCell m1 p 12 ((offDtStrings (blobAt m1 p) + newlen + 0x100000000 - oldlen) % 0x100000000))

/-- mirrors libs/libfdt/fdt_rw.c:98-103 (`fdt_del_last_string_`) -/
def delLastString (m : Mem) (p : Nat) (s : Str) : Mem :=
  setCell m p 32 ((sizeDtStrings (blobAt m p) + 0x100000000 - (s.length + 1)) % 0x100000000)

/-- mirrors libs/libfdt/fdt_rw.c:105-116 (`fdt_splice_string_`) -/
def spliceString (m : Mem) (p newlen : Nat) : Int × Mem :=
  let f := blobAt m p
  let r := splice m p (offDtStrings f + sizeDtStrings f) 0 newlen
  if r.1 ≠ 0 then r
  else (0, setCell r.2 p 32 ((sizeDtStrings (blobAt r.2 p) + newlen) % 0x100000000))

/-- The bytes of `s` and a NUL are at `p`. -/
def stringAt (rd : Nat → UInt8) (p : Nat) : Str → Bool
  | [] => rd p == 0
  | c :: s => rd p == c && stringAt rd (p + 1) s

/-- mirrors libs/libfdt/fdt.c:315-325 (`fdt_find_string_len_`): the offset in the
table. -/
def findString (rd : Nat → UInt8) (strtab tabsize : Nat) (s : Str) : Option Nat :=
  (List.range (tabsize - s.length)).find? fun i => stringAt rd (strtab + i) s

/-- mirrors libs/libfdt/fdt_rw.c:127-155 (`fdt_find_add_string_`): the offset of the
string, and whether it was allocated. -/
def findAddString (m : Mem) (p : Nat) (s : Str) : Except Int (Nat × Bool) × Mem :=
  let f := blobAt m p
  match findString f.rd (offDtStrings f) (sizeDtStrings f) s with
  | some i => (.ok (i, false), m)
  | none =>
    let r := spliceString m p (s.length + 1)
    if r.1 ≠ 0 then (.error r.1, r.2)
    else (.ok (sizeDtStrings f, true), store r.2 (p + (offDtStrings f + sizeDtStrings f)) (s ++ [0]))

/-- mirrors libs/libfdt/fdt_rw.c:186-204 (`fdt_resize_property_`): the position of
the value in the blob. -/
def resizeProperty (m : Mem) (p : Nat) (nodeoffset : Int) (name : Str) (len : Nat) : Except Int Nat × Mem :=
  match getProperty (blobAt m p) nodeoffset name with
  | .error oldlen => (.error oldlen, m)
  | .ok (data, oldlen) =>
    let r := spliceStruct m p data (tagAlign oldlen.toNat) (tagAlign len)
    if r.1 ≠ 0 then (.error r.1, r.2)
    else (.ok data, setCell r.2 p (data - 8) len)

/-- mirrors libs/libfdt/fdt_rw.c:206-237 (`fdt_add_property_`): the position of the
value in the blob. -/
def addProperty (m : Mem) (p : Nat) (nodeoffset : Int) (name : Str) (len : Nat) : Except Int Nat × Mem :=
  let nextoffset := checkNodeOffset (blobAt m p) nodeoffset
  if nextoffset < 0 then (.error nextoffset, m)
  else
    match findAddString m p name with
    | (.error namestroff, m1) => (.error namestroff, m1)
    | (.ok (namestroff, allocated), m1) =>
      let prop := offDtStruct (blobAt m1 p) + nextoffset.toNat
      let r := spliceStruct m1 p prop 0 (12 + tagAlign len)
      if r.1 ≠ 0 then (.error r.1, if allocated then delLastString r.2 p name else r.2)
      else (.ok (prop + 12), setCell (setCell (setCell r.2 p prop FDT_PROP) p (prop + 8) namestroff) p (prop + 4) len)

/-- mirrors libs/libfdt/fdt_rw.c:262-279 -/
def setpropPlaceholder (m : Mem) (p : Nat) (nodeoffset : Int) (name : Str) (len : Nat) : Except Int Nat × Mem :=
  let probe := rwProbe m p
  if probe.1 ≠ 0 then (.error probe.1, probe.2)
  else
    match resizeProperty probe.2 p nodeoffset name len with
    | (.ok data, m1) => (.ok data, m1)
    | (.error err, m1) => if err = -FDT_ERR_NOTFOUND then addProperty m1 p nodeoffset name len else (.error err, m1)

/-- mirrors libs/libfdt/fdt_rw.c:281-295 -/
def setprop (m : Mem) (p : Nat) (nodeoffset : Int) (name val : Str) : Int × Mem :=
  match setpropPlaceholder m p nodeoffset name val.length with
  | (.error err, m1) => (err, m1)
  | (.ok data, m1) => (0, store m1 (p + data) val)

/-- The end of the properties, where `fdt_add_subnode_namelen` puts the node. -/
def propsEnd (f : Blob) (offset : Int) : Int :=
  if _h : (nextTag f offset).1 = FDT_PROP ∨ (nextTag f offset).1 = FDT_NOP then propsEnd f (nextTag f offset).2
    else offset
termination_by room offset
decreasing_by exact nextTag_room (by rcases _h with h | h <;> rw [h] <;> decide)

/-- mirrors libs/libfdt/fdt_rw.c:340-382 -/
def addSubnode (m : Mem) (p : Nat) (parentoffset : Int) (name : Str) : Int × Mem :=
  let probe := rwProbe m p
  if probe.1 ≠ 0 then probe
  else
    let f := blobAt probe.2 p
    let found := subnodeOffset f parentoffset name
    if 0 ≤ found then (-FDT_ERR_EXISTS, probe.2)
    else if found ≠ -FDT_ERR_NOTFOUND then (found, probe.2)
    else if (nextTag f parentoffset).1 ≠ FDT_BEGIN_NODE then (-FDT_ERR_INTERNAL, probe.2)
    else
      let offset := propsEnd f (nextTag f parentoffset).2
      let nh := offDtStruct f + offset.toNat
      let namesize := tagAlign (name.length + 1)
      let r := spliceStruct probe.2 p nh 0 (4 + namesize + 4)
      if r.1 ≠ 0 then r
      else
        let m1 := setCell r.2 p nh FDT_BEGIN_NODE
        let m2 := store (store m1 (p + (nh + 4)) (List.replicate namesize 0)) (p + (nh + 4)) name
        (offset, setCell m2 p (nh + (4 + namesize)) FDT_END_NODE)

/-! ## What an edit keeps -/

/-- Nothing outside `n` bytes at `p` is written. -/
def Kept (p n : Nat) (m m' : Mem) : Prop := ∀ a, a < p ∨ p + n ≤ a → m' a = m a

theorem Kept.refl {p n : Nat} (m : Mem) : Kept p n m m := fun _ _ => rfl

theorem Kept.trans {p n : Nat} {m m' m'' : Mem} (h : Kept p n m m') (h' : Kept p n m' m'') : Kept p n m m'' :=
  fun a ha => (h' a ha).trans (h a ha)

section
variable {m m' : Mem} {p : Nat} {i : Image} {a b c : Str}

theorem kept_store {o n : Nat} {l : Str} (h : o + l.length ≤ n) : Kept p n m (store m (p + o) l) :=
  fun _ _ => store_out (by omega)

theorem kept_copy {dst src k n : Nat} (h : dst + k ≤ n) : Kept p n m (copy m (p + dst) (p + src) k) :=
  fun _ _ => copy_out m (by omega)

theorem setField {l : List Nat} {rest : Str} {k : Nat} (v : Nat) (h : At (blobAt m p).rd 0 (l.flatMap cell ++ rest))
    (hk : k < l.length) : At (blobAt (setCell m p (4 * k) v) p).rd 0 ((l.set k v).flatMap cell ++ rest) := by
  have hset := at_setCell v h hk
  rw [Nat.zero_add] at hset
  unfold setCell
  rwa [blobAt_store]

/-- A text is written over a part of the structure block. -/
theorem Holds.overwrite (h : Holds m p i) (hs : i.struct = a ++ (b ++ c)) {d : Str} (hlen : d.length = b.length) :
    Holds (store m (p + (i.offStruct + a.length)) d) p { i with struct := a ++ (d ++ c) } ∧
      Kept p i.total m (store m (p + (i.offStruct + a.length)) d) := by
  have hlength : (a ++ (d ++ c)).length = i.struct.length := by
    rw [hs]
    simp only [List.length_append, hlen]
  have hsize : ({ i with struct := a ++ (d ++ c) } : Image).size = i.size := by
    unfold Image.size Image.offStrings Image.offStruct
    simp only [hlength]
  have hfields : ({ i with struct := a ++ (d ++ c) } : Image).fields = i.fields := by
    unfold Image.fields Image.offStrings Image.offStruct
    simp only [hlength]
  have hbytes : i.bytes = (i.fields.flatMap cell ++ (i.reserved ++ a)) ++ (b ++ (c ++ (i.gap ++ i.strs))) := by
    unfold Image.bytes Image.blocks
    rw [hs]
    simp only [List.append_assoc]
  have hat := h.stands
  rw [hbytes] at hat
  have hover := at_overwrite hat hlen
  have hoff : 0 + (i.fields.flatMap cell ++ (i.reserved ++ a)).length = i.offStruct + a.length := by
    unfold Image.offStruct
    simp only [List.length_append, flatMap_cell_length, fields_length]
    omega
  rw [hoff] at hover
  obtain ⟨hle, hstr, hsz, htot⟩ := h.sizes
  rw [hs] at hle
  simp only [List.length_append] at hle
  refine ⟨⟨h.aligned, ⟨h.ok.total, by rw [hsize]; exact h.ok.size, h.ok.version, h.ok.version_lt, h.ok.lastComp,
    h.ok.rsv_ge,
    h.ok.rsv_le⟩, ?_⟩, kept_store (by omega)⟩
  rw [blobAt_store]
  unfold Image.bytes Image.blocks
  rw [hfields]
  simpa only [List.append_assoc] using hover

/-! ## Splices -/

theorem Holds.dataSize (h : Holds m p i) : dataSize (blobAt m p) = i.size := by
  have hr := h.reads
  obtain ⟨-, hstr, hsz, htot⟩ := h.sizes
  unfold Fdt.dataSize
  rw [hr.offStrings, hr.sizeStrings]
  omega

/-- The tail of a text is moved when there is room. -/
theorem Holds.splice (h : Holds m p i) {pre post : Str} (hb : i.bytes = pre ++ (b ++ post)) {n : Nat}
    (hn : n ≤ INT_MAX)
    (hroom : i.size + n ≤ i.total + b.length) :
    ∃ g m', splice m p pre.length b.length n = (0, m') ∧ g.length = n ∧ At (blobAt m' p).rd 0 (pre ++ (g ++ post)) ∧
      Kept p i.total m m' := by
  obtain ⟨-, -, hsz, htot⟩ := h.sizes
  have hlen := bytes_length i
  rw [hb] at hlen
  simp only [List.length_append] at hlen
  simp only [INT_MAX] at hn
  have hat := h.stands
  rw [hb] at hat
  obtain ⟨g, hg, hmove⟩ := at_move hat n
  rw [Nat.zero_add] at hmove
  refine ⟨g, copy m (p + (pre.length + n)) (p + (pre.length + b.length)) (i.size - (pre.length + b.length)), ?_, hg,
    ?_, ?_⟩
  · unfold Fdt.splice
    rw [h.dataSize, h.reads.total]
    rw [if_neg (by omega), if_neg (by omega), if_neg (by omega)]
  · rw [blobAt_copy]
    rwa [show i.size - (pre.length + b.length) = post.length by omega]
  · exact kept_copy (by omega)

theorem Holds.splice_full (h : Holds m p i) {pre post : Str} (hb : i.bytes = pre ++ (b ++ post)) {n : Nat}
    (hn : n ≤ INT_MAX)
    (hroom : i.total + b.length < i.size + n) : Fdt.splice m p pre.length b.length n = (-FDT_ERR_NOSPACE, m) := by
  obtain ⟨-, -, hsz, htot⟩ := h.sizes
  have hlen := bytes_length i
  rw [hb] at hlen
  simp only [List.length_append] at hlen
  simp only [INT_MAX] at hn
  unfold Fdt.splice
  rw [h.dataSize, h.reads.total]
  rw [if_neg (by omega), if_neg (by omega), if_pos (by omega)]

theorem struct_split (hs : i.struct = a ++ (b ++ c)) :
    i.bytes = (i.fields.flatMap cell ++ (i.reserved ++ a)) ++ (b ++ (c ++ (i.gap ++ i.strs))) ∧
      (i.fields.flatMap cell ++ (i.reserved ++ a)).length = i.offStruct + a.length := by
  constructor
  · unfold Image.bytes Image.blocks
    rw [hs]
    simp only [List.append_assoc]
  · unfold Image.offStruct
    simp only [List.length_append, flatMap_cell_length, fields_length]
    omega

/-- A part of the structure block is replaced by a gap. -/
theorem Holds.spliceStruct (h : Holds m p i) (hs : i.struct = a ++ (b ++ c)) {n : Nat} (hn : n ≤ INT_MAX)
    (hroom : i.size + n ≤ i.total + b.length) :
    ∃ g m', spliceStruct m p (i.offStruct + a.length) b.length n = (0, m') ∧ g.length = n ∧
      Holds m' p { i with struct := a ++ (g ++ c) } ∧ Kept p i.total m m' := by
  obtain ⟨hb, hlen⟩ := struct_split hs
  obtain ⟨g, m1, hsplice, hg, hat, hkept⟩ := h.splice hb hn hroom
  obtain ⟨hle, hstr, hsz, htot⟩ := h.sizes
  have hsl : i.struct.length = a.length + (b.length + c.length) := by
    rw [hs]
    simp only [List.length_append]
  simp only [INT_MAX] at hn
  rw [hlen] at hsplice
  rw [List.append_assoc] at hat
  have hrsv := h.ok.rsv_le
  have hsize36 : sizeDtStruct (blobAt m1 p) = i.struct.length := be32_cell (o := 36)
    (at_cells (k := 9) (o := 0) (at_append.mp hat).1 rfl) (by omega)
  have hat1 := setField (k := 9) (i.struct.length + n - b.length) hat (Nat.lt_succ_self 9)
  have hoff12 : offDtStrings (blobAt (setCell m1 p (4 * 9) (i.struct.length + n - b.length)) p) = i.offStrings :=
    be32_cell (o := 12) (at_cells (k := 3) (o := 0) (at_append.mp hat1).1 rfl) (by omega)
  have hat2 := setField (k := 3) (i.offStrings + n - b.length) hat1
    (Nat.lt_of_lt_of_le (by decide : 3 < 10) (Nat.le_refl 10))
  refine ⟨g, setCell (setCell m1 p (4 * 9) (i.struct.length + n - b.length)) p (4 * 3) (i.offStrings + n - b.length),
    ?_, hg,
    ⟨h.aligned, ?_, ?_⟩, (hkept.trans (kept_store ?_)).trans (kept_store ?_)⟩
  · unfold Fdt.spliceStruct
    rw [hsplice]
    simp only [ne_eq, not_true_eq_false, if_false]
    rw [hsize36, show (i.struct.length + n + 4294967296 - b.length) % 4294967296 =
      i.struct.length + n - b.length by omega,
      hoff12, show (i.offStrings + n + 4294967296 - b.length) % 4294967296 = i.offStrings + n - b.length by omega]
  · refine ⟨h.ok.total, ?_, h.ok.version, h.ok.version_lt, h.ok.lastComp, h.ok.rsv_ge, h.ok.rsv_le⟩
    unfold Image.size Image.offStrings Image.offStruct at *
    simp only [List.length_append]
    omega
  · have hfields : ({ i with struct := a ++ (g ++ c) } : Image).fields =
        (i.fields.set 9 (i.struct.length + n - b.length)).set 3 (i.offStrings + n - b.length) := by
      unfold Image.fields Image.offStrings Image.offStruct
      simp only [List.length_append, hsl, hg, List.set_cons_succ, List.set_cons_zero]
      rw [show a.length + (b.length + c.length) + n - b.length = a.length + (n + c.length) by omega,
        show 40 + i.reserved.length + (a.length + (b.length + c.length)) + i.gap.length + n - b.length =
          40 + i.reserved.length + (a.length + (n + c.length)) + i.gap.length by omega]
    unfold Image.bytes Image.blocks
    rw [hfields]
    simpa only [List.append_assoc] using hat2
  · rw [cell_length]
    unfold Image.offStrings Image.offStruct at *
    omega
  · rw [cell_length]
    unfold Image.offStrings Image.offStruct at *
    omega

theorem Holds.spliceStruct_full (h : Holds m p i) (hs : i.struct = a ++ (b ++ c)) {n : Nat} (hn : n ≤ INT_MAX)
    (hroom : i.total + b.length < i.size + n) :
    Fdt.spliceStruct m p (i.offStruct + a.length) b.length n = (-FDT_ERR_NOSPACE, m) := by
  obtain ⟨hb, hlen⟩ := struct_split hs
  have hfull := h.splice_full hb hn hroom
  rw [hlen] at hfull
  unfold Fdt.spliceStruct
  rw [hfull]
  exact if_pos (show (-FDT_ERR_NOSPACE : Int) ≠ 0 by decide)

/-! ## The version -/

/-- The text with the version that is written. -/
def Image.probed (i : Image) : Image := { i with version := 17 }

theorem Image.Ok.probed (h : i.Ok) : i.probed.Ok :=
  ⟨h.total, h.size, Nat.le_refl 17, (by decide : 17 < 2 ^ 32), h.lastComp, h.rsv_ge, h.rsv_le⟩

theorem Holds.rwProbe (h : Holds m p i) : ∃ m', rwProbe m p = (0, m') ∧ Holds m' p i.probed ∧ Kept p i.total m m' := by
  have hr := h.reads
  obtain ⟨hle, hstr, hsz, htot⟩ := h.sizes
  have hversion := h.ok.version
  have hge := h.ok.rsv_ge
  have hrsv := h.ok.rsv_le
  have horder : blocksMisordered (blobAt m p) 16 (sizeDtStruct (blobAt m p)) = false := by
    unfold blocksMisordered
    rw [hr.offRsv, hr.offStruct, hr.offStrings, hr.sizeStrings, hr.sizeStruct, hr.total]
    exact decide_eq_false (by omega)
  have hprobe : Fdt.rwProbe m p = if 17 < version (blobAt m p) then (0, setCell m p 20 17) else (0, m) := by
    unfold Fdt.rwProbe
    rw [if_neg (by rw [h.probe]; omega), if_neg (by rw [hr.version]; omega), if_neg
      (by rw [horder]; exact Bool.false_ne_true)]
  rw [hprobe, hr.version]
  by_cases hlt : 17 < i.version
  · have hat := setField (k := 5) 17 h.stands (by rw [fields_length]; decide)
    rw [if_pos hlt]
    refine ⟨_, rfl, ⟨h.aligned, h.ok.probed, hat⟩, kept_store ?_⟩
    rw [cell_length]
    omega
  · have hsame : i.probed = i := by
      unfold Image.probed
      rw [show 17 = i.version by omega]
    rw [if_neg hlt, hsame]
    exact ⟨m, rfl, h, Kept.refl m⟩

/-! ## Strings -/

theorem stringAt_iff {rd : Nat → UInt8} {o : Nat} {s : Str} : stringAt rd o s = true ↔ At rd o (s ++ [0]) := by
  induction s generalizing o with
  | nil =>
    rw [List.nil_append, at_cons, at_nil, and_true, stringAt]
    exact beq_iff_eq
  | cons c s ih => rw [List.cons_append, at_cons, stringAt, Bool.and_eq_true, ih, beq_iff_eq]

/-- What stands at an offset of the strings block up to a NUL is a name. -/
theorem nameIn_of_at {rd : Nat → UInt8} {o k : Nat} {s strs : Str} (hs : At rd o strs) (h : At rd (o + k) (s ++ [0]))
    (hz : 0 ∉ s) (hle : k + s.length < strs.length) : NameIn strs k ∧ nameAt strs k = s := by
  have hdrop : At rd (o + k) (strs.drop k) := by
    rw [← List.take_append_drop k strs, at_append, List.length_take, Nat.min_eq_left (by omega)] at hs
    exact hs.2
  have hname : nameAt strs k = s := by
    have hcstr := cstr_takeWhile hdrop
    rw [cstr_ends h hz (by rw [List.length_drop]; omega)] at hcstr
    exact hcstr.symm
  refine ⟨?_, hname⟩
  unfold NameIn
  rwa [hname]

theorem Holds.findString (h : Holds m p i) {s : Str} (hz : 0 ∉ s) {k : Nat}
    (hfind : findString (blobAt m p).rd (offDtStrings (blobAt m p)) (sizeDtStrings (blobAt m p)) s = some k) :
    NameIn i.strs k ∧ nameAt i.strs k = s := by
  have hs := h.strings
  unfold Fdt.findString at hfind
  have hat := List.find?_some hfind
  have hmem := List.mem_range.mp (List.mem_of_find?_eq_some hfind)
  rw [hs.size] at hmem
  exact nameIn_of_at hs.stands (stringAt_iff.mp hat) hz (by omega)

/-- The strings block grows at its end. -/
theorem Holds.spliceString (h : Holds m p i) {n : Nat} (hn : n ≤ INT_MAX) (hroom : i.size + n ≤ i.total) :
    ∃ g m', spliceString m p n = (0, m') ∧ g.length = n ∧ Holds m' p { i with strs := i.strs ++ g } ∧
      Kept p i.total m m' := by
  have hr := h.reads
  have hlen := bytes_length i
  obtain ⟨g, m1, hsplice, hg, hat, hkept⟩ := h.splice (show i.bytes = i.bytes ++ ([] ++ []) by simp) hn
    (by simpa using hroom)
  obtain ⟨hle, hstr, hsz, htot⟩ := h.sizes
  simp only [INT_MAX] at hn
  rw [hlen, List.length_nil] at hsplice
  have hbytes : i.bytes ++ (g ++ []) = i.fields.flatMap cell ++
      (i.reserved ++ (i.struct ++ (i.gap ++ (i.strs ++ g)))) := by
    unfold Image.bytes Image.blocks
    simp only [List.append_assoc, List.append_nil]
  rw [hbytes] at hat
  have hsize32 : sizeDtStrings (blobAt m1 p) = i.strs.length :=
    be32_cell (o := 32) (at_cells (k := 8) (o := 0) (at_append.mp hat).1 rfl) (by omega)
  have hat1 := setField (k := 8) (i.strs.length + n) hat (by rw [fields_length]; decide)
  refine ⟨g, setCell m1 p (4 * 8) (i.strs.length + n), ?_, hg, ⟨h.aligned, ?_, ?_⟩, hkept.trans (kept_store ?_)⟩
  · unfold Fdt.spliceString
    dsimp only
    rw [hr.offStrings, hr.sizeStrings, hstr, hsplice, if_neg (not_not.mpr rfl), hsize32, Nat.mod_eq_of_lt (by omega)]
  · refine ⟨h.ok.total, ?_, h.ok.version, h.ok.version_lt, h.ok.lastComp, h.ok.rsv_ge, h.ok.rsv_le⟩
    unfold Image.size Image.offStrings Image.offStruct at *
    simp only [List.length_append]
    omega
  · have hfields : ({ i with strs := i.strs ++ g } : Image).fields = i.fields.set 8 (i.strs.length + n) := by
      unfold Image.fields Image.offStrings Image.offStruct
      simp only [List.length_append, hg, List.set_cons_succ, List.set_cons_zero]
    unfold Image.bytes Image.blocks
    rw [hfields]
    exact hat1
  · rw [cell_length]
    unfold Image.offStrings Image.offStruct at *
    omega

theorem Holds.spliceString_full (h : Holds m p i) {n : Nat} (hn : n ≤ INT_MAX) (hroom : i.total < i.size + n) :
    Fdt.spliceString m p n = (-FDT_ERR_NOSPACE, m) := by
  have hr := h.reads
  have hfull := h.splice_full (show i.bytes = i.bytes ++ ([] ++ []) by simp) hn (by simpa using hroom)
  rw [bytes_length, List.length_nil] at hfull
  unfold Fdt.spliceString
  dsimp only
  rw [hr.offStrings, hr.sizeStrings, h.sizes.2.1, hfull]
  exact if_pos (show (-FDT_ERR_NOSPACE : Int) ≠ 0 by decide)

/-- The string that was added last is taken back. -/
theorem Holds.delLastString {strs s : Str} (h : Holds m p { i with strs := strs ++ (s ++ [0]) }) :
    Holds (delLastString m p s) p { i with strs := strs } ∧ Kept p i.total m (delLastString m p s) := by
  have hr := h.reads
  obtain ⟨hle, hstr, hsz, htot⟩ := h.sizes
  have hstrs : strs.length + (s.length + 1) + i.offStrings ≤ i.total := by
    unfold Image.size Image.offStrings Image.offStruct at *
    simp only [List.length_append, List.length_singleton] at *
    omega
  have hsize : (sizeDtStrings (blobAt m p) + 0x100000000 - (s.length + 1)) % 0x100000000 = strs.length := by
    rw [hr.sizeStrings]
    simp only [List.length_append, List.length_singleton]
    simp only at htot
    omega
  have hat := setField (k := 8) strs.length h.stands (by rw [fields_length]; decide)
  have hcell : Fdt.delLastString m p s = setCell m p (4 * 8) strs.length := by
    unfold Fdt.delLastString
    rw [hsize]
  rw [hcell]
  refine ⟨⟨h.aligned, ?_, ?_⟩, kept_store ?_⟩
  · refine ⟨h.ok.total, ?_, h.ok.version, h.ok.version_lt, h.ok.lastComp, h.ok.rsv_ge, h.ok.rsv_le⟩
    unfold Image.size Image.offStrings Image.offStruct at *
    simp only at *
    omega
  · have hblocks : ({ i with strs := strs ++ (s ++ [0]) } : Image).blocks = ({ i with strs := strs } : Image).blocks ++
      (s ++ [0]) := by
      unfold Image.blocks
      simp only [List.append_assoc]
    rw [hblocks, ← List.append_assoc] at hat
    exact (at_append.mp hat).1
  · rw [cell_length]
    unfold Image.offStrings Image.offStruct at *
    omega

/-- A string is found, or added at the end when there is room. -/
theorem Holds.findAddString (h : Holds m p i) {s : Str} (hz : 0 ∉ s) (hlen : s.length < INT_MAX) :
    (∃ k, findAddString m p s = (.ok (k, false), m) ∧ NameIn i.strs k ∧ nameAt i.strs k = s) ∨
    (∃ m', findAddString m p s = (.ok (i.strs.length, true), m') ∧ Holds m' p { i with strs := i.strs ++ (s ++ [0]) } ∧
      Kept p i.total m m') ∨
    (findAddString m p s = (.error (-FDT_ERR_NOSPACE), m) ∧ i.total < i.size + (s.length + 1)) := by
  have hr := h.reads
  cases hfind : Fdt.findString (blobAt m p).rd (offDtStrings (blobAt m p)) (sizeDtStrings (blobAt m p)) s with
  | some k =>
    refine Or.inl ⟨k, ?_, h.findString hz hfind⟩
    unfold Fdt.findAddString
    simp only [hfind]
  | none =>
    by_cases hroom : i.size + (s.length + 1) ≤ i.total
    · obtain ⟨g, m1, hsplice, hg, hholds, hkept⟩ := h.spliceString hlen hroom
      refine Or.inr (Or.inl ⟨store m1 (p + i.size) (s ++ [0]), ?_, ⟨h.aligned, ?_, ?_⟩, hkept.trans (kept_store ?_)⟩)
      · unfold Fdt.findAddString
        dsimp only
        rw [hfind]
        dsimp only
        rw [hsplice, if_neg (not_not.mpr rfl), hr.sizeStrings, hr.offStrings, h.sizes.2.1]
      · have hok := hholds.ok
        refine ⟨hok.total, ?_, hok.version, hok.version_lt, hok.lastComp, hok.rsv_ge, hok.rsv_le⟩
        have hsize := hok.size
        unfold Image.size Image.offStrings Image.offStruct at *
        simp only [List.length_append, List.length_singleton] at *
        omega
      · have hat := hholds.stands
        have hbytes : ({ i with strs := i.strs ++ g } : Image).bytes =
            (({ i with strs := i.strs ++ g } : Image).fields.flatMap cell ++ i.blocks) ++ (g ++ []) := by
          unfold Image.bytes Image.blocks
          simp only [List.append_assoc, List.append_nil]
        rw [hbytes] at hat
        have hover := at_overwrite (d := s ++ [0]) hat (by rw [hg, List.length_append, List.length_singleton])
        have hpre : 0 + (({ i with strs := i.strs ++ g } : Image).fields.flatMap cell ++ i.blocks).length =
            i.size := by
          unfold Image.blocks Image.size Image.offStrings Image.offStruct
          simp only [List.length_append, flatMap_cell_length, fields_length]
          omega
        have hfields : ({ i with strs := i.strs ++ g } : Image).fields =
          ({ i with strs := i.strs ++ (s ++ [0]) } : Image).fields := by
          unfold Image.fields
          simp only [List.length_append, hg, List.length_singleton]
          rfl
        rw [hpre, hfields] at hover
        rw [blobAt_store]
        unfold Image.bytes Image.blocks at *
        simpa only [List.append_assoc, List.append_nil] using hover
      · rw [List.length_append, List.length_singleton]
        exact hroom
    · refine Or.inr (Or.inr ⟨?_, by omega⟩)
      unfold Fdt.findAddString
      simp only [hfind, h.spliceString_full hlen (by omega)]
      rw [if_pos (show (-FDT_ERR_NOSPACE : Int) ≠ 0 by decide)]

end

end DTFramework.Fdt
