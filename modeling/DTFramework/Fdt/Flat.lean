import DTFramework.Fdt.Assemble
import DTFramework.Lib.Forest
import DTFramework.Lib.Ranges

/-!
# Flattened trees

The structure block of a tree: a node is its name, its properties, what is below
it and an end, and `FDT_NOP`s may stand between all of these. A property names
itself by an offset into the strings block. Padding bytes may be anything.

`FlatNode` is a node as it lies in a blob, `NodeData` what it says. `flat` writes a
forest of them out, in pieces of whole cells.

Results:

* `be32_cell`: a cell is read back.
-/
namespace DTFramework.Fdt

open DTFramework.Lib

/-! ## The pieces -/

/-- A property or a gap. -/
inductive Item
  | nop
  | prop (nameoff : Nat) (value pad : Str)
deriving DecidableEq, Repr

/-- A node as it lies in the structure block; `after` gaps follow its end. -/
structure FlatNode where
  name : Str
  pad : Str
  items : List Item
  after : Nat
deriving DecidableEq, Repr

/-- What a node says: its name, and its properties in order. -/
structure NodeData where
  name : Str
  props : List (Str × Str)
deriving DecidableEq, Repr

def nops (n : Nat) : Str := (List.replicate n (cell FDT_NOP)).flatten

def Item.bytes : Item → Str
  | nop => cell FDT_NOP
  | prop nameoff value pad => cell FDT_PROP ++ (cell value.length ++ (cell nameoff ++ (value ++ pad)))

def itemBytes (items : List Item) : Str := items.flatMap Item.bytes

/-- `FDT_BEGIN_NODE` and the name. -/
def FlatNode.header (a : FlatNode) : Str := cell FDT_BEGIN_NODE ++ (a.name ++ 0 :: a.pad)

def FlatNode.opens (a : FlatNode) : Str := a.header ++ itemBytes a.items

def FlatNode.closes (a : FlatNode) : Str := cell FDT_END_NODE ++ nops a.after

/-- A forest as it lies in the structure block. -/
def flat (t : Forest FlatNode) : Str := t.linear FlatNode.opens FlatNode.closes

/-- Padding brings `n` bytes to a multiple of 4. -/
def Padded (n pad : Nat) : Prop := (n + pad) % 4 = 0 ∧ pad < 4

/-- The string at an offset of the strings block. -/
def nameAt (strs : Str) (nameoff : Nat) : Str := (strs.drop nameoff).takeWhile (· != 0)

/-- The offset is that of a string that ends in the strings block. -/
def NameIn (strs : Str) (nameoff : Nat) : Prop := nameoff + (nameAt strs nameoff).length < strs.length

instance (n pad : Nat) : Decidable (Padded n pad) := inferInstanceAs (Decidable (_ ∧ _))
instance (strs : Str) (nameoff : Nat) : Decidable (NameIn strs nameoff) := inferInstanceAs (Decidable (_ < _))

def Item.Ok (strs : Str) : Item → Prop
  | nop => True
  | prop nameoff value pad => Padded value.length pad.length ∧ NameIn strs nameoff

structure FlatNode.Ok (strs : Str) (a : FlatNode) : Prop where
  name : 0 ∉ a.name
  pad : Padded (a.name.length + 1) a.pad.length
  items : ∀ i ∈ a.items, i.Ok strs

def Item.data (strs : Str) : Item → Option (Str × Str)
  | nop => none
  | prop nameoff value _ => some (nameAt strs nameoff, value)

def FlatNode.data (strs : Str) (a : FlatNode) : NodeData := ⟨a.name, a.items.filterMap (Item.data strs)⟩

/-! ## Lengths -/

@[simp] theorem cell_length (n : Nat) : (cell n).length = 4 := rfl

@[simp] theorem nops_length (n : Nat) : (nops n).length = 4 * n := by
  unfold nops
  rw [List.length_flatten, List.map_replicate, cell_length, List.sum_replicate_nat, Nat.mul_comm]

@[simp] theorem header_length (a : FlatNode) : a.header.length = 4 + (a.name.length + 1 + a.pad.length) := by
  unfold FlatNode.header
  simp only [List.length_append, List.length_cons, cell_length]
  omega

@[simp] theorem closes_length (a : FlatNode) : a.closes.length = 4 + 4 * a.after := by
  unfold FlatNode.closes
  rw [List.length_append, cell_length, nops_length]

@[simp] theorem opens_length (a : FlatNode) : a.opens.length = a.header.length + (itemBytes a.items).length :=
  List.length_append

@[simp] theorem nop_length : Item.nop.bytes.length = 4 := rfl

@[simp] theorem prop_length (nameoff : Nat) (value pad : Str) :
    (Item.prop nameoff value pad).bytes.length = 12 + value.length + pad.length := by
  unfold Item.bytes
  simp only [List.length_append, cell_length]
  omega

theorem itemBytes_cons (i : Item) (items : List Item) : itemBytes (i :: items) = i.bytes ++ itemBytes items :=
    List.flatMap_cons

theorem itemBytes_append (items items' : List Item) : itemBytes (items ++ items') = itemBytes items ++
    itemBytes items' :=
  List.flatMap_append

variable {strs : Str}

theorem Item.Ok.aligned {i : Item} (h : i.Ok strs) : i.bytes.length % 4 = 0 := by
  cases i with
  | nop => rfl
  | prop nameoff value pad =>
    have hpad := h.1.1
    rw [prop_length]
    omega

theorem itemBytes_aligned {items : List Item} (h : ∀ i ∈ items, i.Ok strs) : (itemBytes items).length % 4 = 0 := by
  induction items with
  | nil => rfl
  | cons i items ih =>
    obtain ⟨hi, hitems⟩ := List.forall_mem_cons.mp h
    have := hi.aligned
    have := ih hitems
    rw [itemBytes_cons, List.length_append]
    omega

theorem FlatNode.Ok.header_aligned {a : FlatNode} (h : a.Ok strs) : a.header.length % 4 = 0 := by
  have := h.pad.1
  rw [header_length]
  omega

theorem FlatNode.Ok.opens_aligned {a : FlatNode} (h : a.Ok strs) : a.opens.length % 4 = 0 := by
  have := h.header_aligned
  have := itemBytes_aligned h.items
  rw [opens_length]
  omega

theorem closes_aligned (a : FlatNode) : a.closes.length % 4 = 0 := by
  rw [closes_length]
  omega

theorem flat_aligned {t : Forest FlatNode} (h : t.All (FlatNode.Ok strs)) : (flat t).length % 4 = 0 := by
  induction t with
  | nil => rfl
  | node a subs rest ihs ihr =>
    have := h.1.opens_aligned
    have := closes_aligned a
    have := ihs h.2.1
    have := ihr h.2.2
    unfold flat at *
    rw [Forest.linear]
    simp only [List.length_append]
    omega

theorem before_aligned {c : Ctx FlatNode} (h : c.All (FlatNode.Ok strs)) :
    (c.before FlatNode.opens FlatNode.closes).length % 4 = 0 := by
  induction c with
  | top => rfl
  | down a rest c ih =>
    have := h.1.opens_aligned
    have := ih h.2.2
    rw [Ctx.before, List.length_append]
    omega
  | next a subs c ih =>
    have := h.1.opens_aligned
    have := closes_aligned a
    have := flat_aligned h.2.1
    have := ih h.2.2
    unfold flat at *
    rw [Ctx.before]
    simp only [List.length_append]
    omega

/-! ## Cells -/

/-- A cell is read back. -/
theorem be32_cell {f : Blob} {o n : Nat} (h : At f.rd o (cell n)) (hn : n < 2 ^ 32) : be32 f o = n := by
  obtain ⟨h0, h1, h2, h3, -⟩ := h
  unfold be32
  rw [h0, h1, show o + 2 = o + 1 + 1 from rfl, h2, show o + 3 = o + 1 + 1 + 1 from rfl, h3]
  simp only [UInt8.toNat_ofNat']
  omega

end DTFramework.Fdt
