import DTFramework.Fdt.Copy
import DTFramework.Fdt.FlatRead

/-!
# The text of a blob

A blob that libfdt may edit is a text: a header of ten cells, the reservations,
the structure block, a gap, the strings block. `Image` is the text in its parts,
and the header is computed from them, so that an edit of a part is one of the
text. `Holds` says that a memory holds the text; a store over a part and a move
of the tail change the text they are named for.

Results:

* `at_cells`, `at_setCell`, `at_overwrite`, `at_move`: cells and parts of a text;
* `Holds.sizes`: the blocks are in order;
* `holds_of_at`: a memory with the text holds the blob.
-/
namespace DTFramework.Fdt

open DTFramework.Lib

/-! ## Texts -/

structure Image where
  total : Nat
  offRsv : Nat
  version : Nat
  lastComp : Nat
  boot : Nat
  /-- From the header to the structure block. -/
  reserved : Str
  struct : Str
  gap : Str
  strs : Str

namespace Image

def offStruct (i : Image) : Nat := 40 + i.reserved.length
def offStrings (i : Image) : Nat := i.offStruct + i.struct.length + i.gap.length
/-- Up to the end of the strings. -/
def size (i : Image) : Nat := i.offStrings + i.strs.length

/-- The ten fields of `struct fdt_header`. -/
def fields (i : Image) : List Nat :=
  [FDT_MAGIC, i.total, i.offStruct, i.offStrings, i.offRsv, i.version, i.lastComp, i.boot, i.strs.length,
    i.struct.length]

def blocks (i : Image) : Str := i.reserved ++ (i.struct ++ (i.gap ++ i.strs))

def bytes (i : Image) : Str := i.fields.flatMap cell ++ i.blocks

/-- The blocks are in order and fit, and the version is one that is edited. -/
structure Ok (i : Image) : Prop where
  total : i.total < INT_MAX
  size : i.size ≤ i.total
  version : 17 ≤ i.version
  version_lt : i.version < 2 ^ 32
  lastComp : i.lastComp ≤ FDT_LAST_SUPPORTED_VERSION
  rsv_ge : 40 ≤ i.offRsv
  rsv_le : i.offRsv + 16 ≤ i.offStruct

end Image

/-- The memory holds a text at `p`. -/
structure Holds (m : Mem) (p : Nat) (i : Image) : Prop where
  aligned : p % 8 = 0
  ok : i.Ok
  stands : At (blobAt m p).rd 0 i.bytes

/-! ## Cells -/

section
variable {rd : Nat → UInt8} {l : List Nat} {o k : Nat} {rest : Str}

@[simp] theorem flatMap_cell_length (l : List Nat) : (l.flatMap cell).length = 4 * l.length := by
  induction l with
  | nil => rfl
  | cons v l ih =>
    rw [List.flatMap_cons, List.length_append, ih, cell_length, List.length_cons]
    omega

/-- A cell of a list of cells. -/
theorem at_cells {v : Nat} (h : At rd o (l.flatMap cell)) (hk : l[k]? = some v) : At rd (o + 4 * k) (cell v) := by
  induction l generalizing o k with
  | nil => cases hk
  | cons w l ih =>
    rw [List.flatMap_cons, at_append, cell_length] at h
    cases k with
    | zero =>
      cases hk
      exact h.1
    | succ k => exact (ih h.2 hk).cast (by omega)

/-- A cell is written over one of a list. -/
theorem at_setCell (v : Nat) (h : At rd o (l.flatMap cell ++ rest)) (hk : k < l.length) :
    At (store rd (o + 4 * k) (cell v)) o ((l.set k v).flatMap cell ++ rest) := by
  induction l generalizing o k with
  | nil => exact absurd hk (Nat.not_lt_zero k)
  | cons w l ih =>
    rw [List.flatMap_cons, List.append_assoc, at_append, cell_length] at h
    cases k with
    | zero =>
      rw [List.set_cons_zero, List.flatMap_cons, List.append_assoc, at_append, cell_length]
      exact ⟨store_at rd o (cell v), h.2.store (Or.inr (by rw [cell_length]))⟩
    | succ k =>
      rw [List.set_cons_succ, List.flatMap_cons, List.append_assoc, at_append, cell_length]
      refine ⟨h.1.store (Or.inl (by rw [cell_length]; omega)), ?_⟩
      have hrest := ih h.2 (Nat.lt_of_succ_lt_succ hk)
      rwa [show o + 4 + 4 * k = o + 4 * (k + 1) by omega] at hrest

end

/-! ## Moves -/

section
variable {m : Mem} {p : Nat}

theorem blobAt_store (m : Mem) (p o : Nat) (l : Str) : (blobAt (store m (p + o) l) p).rd = store
    (blobAt m p).rd o l := by
  funext a
  rw [blobAt_rd]
  unfold store
  by_cases ho : o ≤ a
  · rw [if_pos (by omega), if_pos ho, Nat.add_sub_add_left]
    rfl
  · rw [if_neg (by omega), if_neg ho]
    rfl

theorem blobAt_copy (m : Mem) (p dst src n : Nat) : (blobAt (copy m (p + dst) (p + src) n) p).rd = copy
    (blobAt m p).rd dst src n := by
  funext a
  rw [blobAt_rd]
  unfold copy
  by_cases hin : dst ≤ a ∧ a < dst + n
  · rw [if_pos ⟨by omega, by omega⟩, if_pos hin, Nat.add_sub_add_left, Nat.add_assoc]
    rfl
  · rw [if_neg (by omega), if_neg hin]
    rfl

/-- A text is written over a part of the same length. -/
theorem at_overwrite {rd : Nat → UInt8} {o : Nat} {a b d c : Str} (h : At rd o (a ++ (b ++ c)))
    (hlen : d.length = b.length) :
    At (store rd (o + a.length) d) o (a ++ (d ++ c)) := by
  rw [at_append, at_append] at h ⊢
  refine ⟨h.1.store (Or.inl (Nat.le_refl _)), store_at _ _ _, ?_⟩
  rw [hlen]
  exact h.2.2.store (Or.inr (by rw [hlen]))

/-- The tail is moved; what is between is anything. -/
theorem at_move {rd : Nat → UInt8} {o : Nat} {a b c : Str} (h : At rd o (a ++ (b ++ c))) (n : Nat) :
    ∃ g, g.length = n ∧ At (copy rd (o + a.length + n) (o + a.length + b.length) c.length) o (a ++ (g ++ c)) := by
  rw [at_append, at_append] at h
  obtain ⟨ha, -, hc⟩ := h
  obtain ⟨g, hg, hat⟩ := exists_at (copy rd (o + a.length + n) (o + a.length + b.length) c.length) (o + a.length) n
  refine ⟨g, hg, ?_⟩
  rw [at_append, at_append, hg]
  refine ⟨ha.congr fun x _ hx => copy_out rd (Or.inl (by omega)), hat, hc.move fun x hx => copy_in rd hx⟩

end

/-! ## The header of a text -/

section
variable {m : Mem} {p : Nat} {i : Image}

@[simp] theorem fields_length (i : Image) : i.fields.length = 10 := rfl

theorem bytes_length (i : Image) : i.bytes.length = i.size := by
  unfold Image.bytes Image.blocks Image.size Image.offStrings Image.offStruct
  simp only [List.length_append, flatMap_cell_length, fields_length]
  omega

theorem Holds.field (h : Holds m p i) {k v : Nat} (hk : i.fields[k]? = some v) (hv : v < 2 ^ 32) :
    be32 (blobAt m p) (4 * k) = v := by
  have hcell := at_cells (at_append.mp h.stands).1 hk
  rw [Nat.zero_add] at hcell
  exact be32_cell hcell hv

/-- What the header says. -/
structure Reads (f : Blob) (i : Image) : Prop where
  magic : magic f = FDT_MAGIC
  total : totalsize f = i.total
  offStruct : offDtStruct f = i.offStruct
  offStrings : offDtStrings f = i.offStrings
  offRsv : offMemRsvmap f = i.offRsv
  version : version f = i.version
  lastComp : lastCompVersion f = i.lastComp
  sizeStrings : sizeDtStrings f = i.strs.length
  sizeStruct : sizeDtStruct f = i.struct.length

theorem Holds.reads (h : Holds m p i) : Reads (blobAt m p) i := by
  have htotal := h.ok.total
  have hsize := h.ok.size
  have hrsv := h.ok.rsv_le
  have hcomp := h.ok.lastComp
  have hlens : i.offStruct ≤ i.size ∧ i.offStrings ≤ i.size ∧ i.strs.length ≤ i.size ∧ i.struct.length ≤ i.size := by
    unfold Image.size Image.offStrings
    omega
  simp only [INT_MAX, FDT_LAST_SUPPORTED_VERSION] at htotal hcomp
  exact ⟨h.field (k := 0) rfl (by decide), h.field (k := 1) rfl (by omega), h.field (k := 2) rfl (by omega),
    h.field (k := 3) rfl (by omega), h.field (k := 4) rfl (by omega), h.field (k := 5) rfl h.ok.version_lt,
    h.field (k := 6) rfl (by omega), h.field (k := 8) rfl (by omega), h.field (k := 9) rfl (by omega)⟩

theorem Holds.probe (h : Holds m p i) : roProbe (blobAt m p) = i.total := by
  have hr := h.reads
  have haligned : (blobAt m p).addr % 8 = 0 := h.aligned
  have hversion := h.ok.version
  have hcomp := h.ok.lastComp
  unfold roProbe probeSize
  rw [if_neg (by omega), if_pos hr.magic, hr.version, hr.lastComp, hr.total, if_neg
    (by simp only [FDT_FIRST_SUPPORTED_VERSION]; omega),
    if_neg (by omega), if_pos h.ok.total]

theorem Holds.structFits (h : Holds m p i) : StructFits (blobAt m p) := by
  have hr := h.reads
  have hsize := h.ok.size
  refine ⟨?_, ?_, ?_⟩
  · rw [hr.version]
    exact h.ok.version
  · rw [hr.offStruct, hr.sizeStruct, hr.total]
    unfold Image.size Image.offStrings at hsize
    omega
  · rw [hr.total]
    exact h.ok.total

theorem Holds.struct (h : Holds m p i) : At (blobAt m p).rd i.offStruct (i.struct ++ (i.gap ++ i.strs)) := by
  have hall := (at_append.mp h.stands).2
  unfold Image.blocks at hall
  rw [at_append, flatMap_cell_length, fields_length] at hall
  exact hall.2.cast (by unfold Image.offStruct; omega)

theorem Holds.strings (h : Holds m p i) : Strings (blobAt m p) i.strs := by
  have hr := h.reads
  have hat := h.struct
  rw [at_append, at_append] at hat
  refine ⟨?_, hr.magic, hr.sizeStrings, ?_, hat.2.2.cast hr.offStrings.symm⟩
  · rw [h.probe]
    exact Int.natCast_nonneg _
  · rw [hr.offStrings, hr.total]
    exact h.ok.size

/-- The blocks are in order, as `fdt_rw_probe_` asks. -/
theorem Holds.sizes (h : Holds m p i) : i.offStruct + i.struct.length ≤ i.offStrings ∧ i.offStrings + i.strs.length =
    i.size ∧
    i.size ≤ i.total ∧ i.total < 2147483647 := by
  refine ⟨?_, rfl, h.ok.size, h.ok.total⟩
  unfold Image.offStrings
  omega

theorem at_memOf (p : Nat) (l : Str) : At (memOf p l) p l := by
  have hall : ∀ k (a b : Str), l = a ++ b → a.length = k → At (memOf p l) (p + k) b := by
    intro k a b hl hk
    induction b generalizing k a with
    | nil => trivial
    | cons c b ih =>
      refine ⟨?_, ih (k + 1) (a ++ [c]) (by rw [hl, List.append_assoc]; rfl) (by rw [List.length_append, hk]; rfl)⟩
      unfold memOf
      rw [if_neg (by omega), Nat.add_sub_cancel_left, hl, ← hk]
      simp
  exact hall 0 [] l rfl rfl

/-- A memory with the text at an aligned address. -/
theorem holds_of_at (hok : i.Ok) (hp : p % 8 = 0) (h : At m p i.bytes) : Holds m p i :=
  ⟨hp, hok, h.move fun k _ => by rw [blobAt_rd, Nat.zero_add]⟩

end

end DTFramework.Fdt
