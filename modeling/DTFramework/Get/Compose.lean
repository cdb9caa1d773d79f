import DTFramework.Get.Balance
import DTFramework.Get.PlainLib
import DTFramework.Get.Selected

/-!
# What the device tree is composed of

`get_dt` without `TARGET_XBL`, on an image on which a selection opens: the
sizes it hands to `fdt_merge_overlay` are those of the trees, and what it
answers with is the platform overlay applied to the SOC overlay applied to the
base tree.

`Holds n l` is what every stage keeps: the working buffer holds a tree that
takes `n` bytes, `base_dtb_size` says so, and the selected blobs of the image
are as they were. A merge turns `n` into `n` and the size of the overlay, if the
calls of libfdt it makes keep to their buffers (`MergeCall.Keeps`).

Results:

* `merge_loaded`: the call that applies a loaded overlay has the sizes of the
  trees, is not answered by "too small", and what it leaves;
* `stages_composed`: the stages one after another;
* `get_dt_composition`: the whole of `get_dt`.
-/
namespace DTFramework.Get

open DTFramework.Fdt DTFramework.Extn DTFramework.Lib DTFramework.Select

/-- The bytes `get_dt` allocates: the three trees together. -/
def total (o : Opened) : Nat :=
  (o.handle.blob .BASE_DTB).2 + (o.handle.blob .SOC_DTBO).2 + (o.handle.blob .PLATFORM_DTBO).2

/-- The size of the buffer for each tree. -/
def bufferSize (o : Opened) : BlobType → Nat
  | .BASE_DTB => total o
  | type => (o.handle.blob type).2

/-- Blocks are apart from the selected trees of the image, and the copies of
the overlays from the working buffer. -/
structure Separate (g : GetEnv) (o : Opened) : Prop where
  image : ∀ type blob, g.alloc type (bufferSize o type) ≠ 0 →
    Apart (g.alloc type (bufferSize o type)) (bufferSize o type) (o.handle.blob blob).1 (o.handle.blob blob).2
  overlay : ∀ type, type ≠ .BASE_DTB → g.alloc .BASE_DTB (total o) ≠ 0 → g.alloc type (bufferSize o type) ≠ 0 →
    Apart (g.alloc .BASE_DTB (total o)) (total o) (g.alloc type (bufferSize o type)) (bufferSize o type)

/-- An overlay of the image, a copy of it, is applied to the tree at `addr`,
which is first given `size` bytes; without an overlay nothing happens. -/
def AppliedTo (lib : Libfdt) (image : Mem) (overlay : Nat × Nat) (addr size : Nat) (m m' : Mem) : Prop :=
  if overlay.2 = 0 then m' = m
  else ∃ m1 m2 ptr, SameBytes m1 addr m addr (totalsize (blobAt m addr)) ∧ SameBytes m1 ptr image overlay.1 overlay.2 ∧
    lib.fdt_open_into m1 addr addr (size : Int) = (0, m2) ∧ lib.fdt_overlay_apply m2 addr ptr = (0, m')

/-- At `addr` there is the platform overlay applied to the SOC overlay applied
to the base tree, each of them if it was selected, in `total o` bytes. -/
def Composed (g : GetEnv) (o : Opened) (addr : Nat) (m : Mem) : Prop :=
  ∃ m0 m1, SameBytes m0 addr g.sel.mem (o.handle.blob .BASE_DTB).1 (o.handle.blob .BASE_DTB).2 ∧
    AppliedTo g.lib g.sel.mem (o.handle.blob .SOC_DTBO) addr
      ((o.handle.blob .BASE_DTB).2 + (o.handle.blob .SOC_DTBO).2) m0 m1 ∧
    AppliedTo g.lib g.sel.mem (o.handle.blob .PLATFORM_DTBO) addr (total o) m1 m ∧
    totalsize (blobAt m addr) = total o

/-- What is asked of a call of `fdt_merge_overlay`. -/
structure CallOk (g : GetEnv) (o : Opened) (c : MergeCall) : Prop where
  in_place : c.primary_blob = c.merge_blob ∧ c.merge_blob = g.alloc .BASE_DTB (total o)
  pb_size : c.pb_size = totalsize (blobAt c.mem c.merge_blob)
  room : totalsize (blobAt c.mem c.primary_blob) + totalsize (blobAt c.mem c.overlay_blob) ≤ c.mb_size
  within : c.mb_size ≤ total o
  accepted : c.valid g.sel.defs = FDT_ERR_QC_NOERROR → ¬c.tooSmall
  answer : (fdtMergeOverlay g.sel.defs g.lib c).1 ≠ -g.sel.defs.FDT_ERR_QC_BUF2SMALL

/-- What an event of `get_dt` satisfies when every call of `fdt_merge_overlay` satisfies `P`. -/
def OnMerge (P : MergeCall → Prop) : GetEvent → Prop
  | .heap _ => True
  | .merge c => P c

/-! ## What a step does -/

section
variable {H P : MergeCall → Prop}

theorem does_getMalloc {β : Type} {R : β → Prop} {g : GetEnv} {type : BlobType} {size : Nat} {f : Nat → GetProg β}
    (hf : (f (g.alloc type size)).Does (OnMerge H) (OnMerge P) R) :
    (getMalloc g type size >>= f).Does (OnMerge H) (OnMerge P) R := by
  refine Traced.does_bind (R := fun p => p = g.alloc type size) ?_ fun p hp => by rw [hp]; exact hf
  unfold getMalloc
  exact Traced.does_bind (R := fun _ => True) (Traced.does_emit fun _ => ⟨trivial, trivial⟩)
    fun _ _ => Traced.does_pure rfl

theorem does_getFree {β : Type} {R : β → Prop} {ptr size : Nat} {f : Unit → GetProg β}
    (hf : (f ()).Does (OnMerge H) (OnMerge P) R) : (getFree ptr size >>= f).Does (OnMerge H) (OnMerge P) R :=
  Traced.does_bind (R := fun _ => True) (Traced.does_emit fun _ => ⟨trivial, trivial⟩) fun _ _ => hf

/-- What follows a merge may rely on what is relied on of its call. -/
theorem does_merge {β : Type} {R : β → Prop} {g : GetEnv} {c : MergeCall} {f : Int × Mem → GetProg β} (hc : H c → P c)
    (hf : H c → (f (fdtMergeOverlay g.sel.defs g.lib c)).Does (OnMerge H) (OnMerge P) R) :
    (merge g c >>= f).Does (OnMerge H) (OnMerge P) R := by
  refine Traced.does_bind (R := fun r => r = fdtMergeOverlay g.sel.defs g.lib c ∧ H c) ?_
    fun r hr => by rw [hr.1]; exact hf hr.2
  unfold merge
  exact Traced.does_bind (R := fun _ => H c) (Traced.does_emit fun h => ⟨hc h, h⟩)
    fun _ h => Traced.does_pure ⟨rfl, h⟩

/-- A stage after another one. -/
theorem does_thenStage {S R : Locals → Prop} {x : GetProg (Int × Locals)} {f : Locals → GetProg (Int × Locals)}
    (hx : x.Does (OnMerge H) (OnMerge P) fun r => r.1 = 0 → S r.2)
    (hf : ∀ l, S l → (f l).Does (OnMerge H) (OnMerge P) fun r => r.1 = 0 → R r.2) :
    (thenStage x f).Does (OnMerge H) (OnMerge P) fun r => r.1 = 0 → R r.2 := by
  unfold thenStage
  refine Traced.does_bind hx fun r hr => ?_
  obtain ⟨status, l⟩ := r
  refine Traced.does_ite (fun hne => Traced.does_pure fun h => absurd h hne) fun h0 => ?_
  exact hf l (hr (not_not.mp h0))

end

/-! ## The stages -/

/-- The working buffer holds a tree of `n` bytes, the local variables have the
sizes of the trees, and the selected trees of the image are as they were. -/
structure Holds (g : GetEnv) (o : Opened) (n : Nat) (l : Locals) : Prop where
  ptr : l.base_dtb_ptr = g.alloc .BASE_DTB (total o)
  ptr_ne : l.base_dtb_ptr ≠ 0
  base_size : l.base_dtb_size = n
  soc_size : l.soc_dtbo_size = (o.handle.blob .SOC_DTBO).2
  plat_size : l.plat_dtbo_size = (o.handle.blob .PLATFORM_DTBO).2
  total_size : l.total_blob_size = total o
  tree : totalsize (blobAt l.mem l.base_dtb_ptr) = n
  image : ∀ type, SameBytes l.mem (o.handle.blob type).1 g.sel.mem (o.handle.blob type).1 (o.handle.blob type).2

/-- Besides, `dtbo` holds a copy of an overlay, if there is one, and the tree in
the buffer is the one that was there in `m0`. -/
structure Loaded (g : GetEnv) (o : Opened) (n : Nat) (type : BlobType) (m0 : Mem) (l : Locals) (dtbo : Nat) : Prop
    extends Holds g o n l where
  absent : (o.handle.blob type).2 = 0 → l.mem = m0
  present : (o.handle.blob type).2 ≠ 0 → dtbo = g.alloc type (o.handle.blob type).2 ∧ dtbo ≠ 0 ∧
    SameBytes l.mem dtbo g.sel.mem (o.handle.blob type).1 (o.handle.blob type).2
  kept : SameBytes l.mem l.base_dtb_ptr m0 l.base_dtb_ptr n

section
variable {g : GetEnv} {a : OpenArgs} {o : Opened}

theorem bufferSize_overlay {type : BlobType} (h : type ≠ .BASE_DTB) : bufferSize o type = (o.handle.blob type).2 := by
  cases type with
  | BASE_DTB => exact absurd rfl h
  | SOC_DTBO => rfl
  | PLATFORM_DTBO => rfl

theorem blob_le_total (type : BlobType) : (o.handle.blob type).2 ≤ total o := by
  unfold total
  cases type <;> omega

/-- The read of a tree of the image into a buffer. -/
theorem read_selected (hsel : Selected g.sel a o) {m : Mem} {type : BlobType} {ptr : Nat} (hptr : ptr ≠ 0)
    (hne : (o.handle.blob type).2 ≠ 0)
    (himage : SameBytes m (o.handle.blob type).1 g.sel.mem (o.handle.blob type).1 (o.handle.blob type).2) :
    dtSelectReadBlob g.sel.defs m (some o.block) (some type) (some ptr) (o.handle.blob type).2 =
      (SUCCESS, some ptr, copy m ptr (o.handle.blob type).1 (o.handle.blob type).2) := by
  have hb := hsel.blob type
  have hge := hb.size_ge hne
  have hstart := hb.start_le hne
  have hs := hsel.start
  have hsize : totalsize (blobAt m (o.handle.blob type).1) = (o.handle.blob type).2 :=
    (himage.totalsize (by omega)).trans (hb.totalsize hne)
  have hblob : o.block.data.blob type = ((o.handle.blob type).1, (o.handle.blob type).2) := rfl
  rw [dtSelectReadBlob_ok ptr (handleCheck_opened o) hblob (by omega) hne hb.size_lt hsize, if_neg hptr]

/-- A copy into a block leaves the trees of the image. -/
theorem image_copy (hsep : Separate g o) {m : Mem} {type : BlobType} {ptr n : Nat}
    (hp : ptr = g.alloc type (bufferSize o type)) (hptr : ptr ≠ 0) (hn : n ≤ bufferSize o type) (src : Nat)
    (himage : ∀ type, SameBytes m (o.handle.blob type).1 g.sel.mem (o.handle.blob type).1 (o.handle.blob type).2) :
    ∀ type, SameBytes (copy m ptr src n) (o.handle.blob type).1 g.sel.mem (o.handle.blob type).1
      (o.handle.blob type).2 := by
  intro t
  refine (sameBytes_copy_apart m ?_).trans (himage t)
  rw [hp] at hptr ⊢
  exact (hsep.image type t hptr).mono hn (Nat.le_refl _)

/-- What a copy of an overlay in its buffer gives. -/
theorem load_overlay (hsep : Separate g o) {n : Nat} {type : BlobType}
    (htype : type ≠ .BASE_DTB) (hn : n ≤ total o) (h8 : 8 ≤ n) {l l' : Locals} (hl : Holds g o n l) {ptr : Nat}
    (hp : ptr = g.alloc type (o.handle.blob type).2) (hptr : ptr ≠ 0) (hne : (o.handle.blob type).2 ≠ 0)
    (hmem : l'.mem = copy l.mem ptr (o.handle.blob type).1 (o.handle.blob type).2)
    (hframe : l'.base_dtb_ptr = l.base_dtb_ptr ∧ l'.base_dtb_size = l.base_dtb_size ∧
      l'.soc_dtbo_size = l.soc_dtbo_size ∧ l'.plat_dtbo_size = l.plat_dtbo_size ∧
      l'.total_blob_size = l.total_blob_size) : Loaded g o n type l.mem l' ptr := by
  obtain ⟨f1, f2, f3, f4, f5⟩ := hframe
  have hp' : ptr = g.alloc type (bufferSize o type) := by rw [bufferSize_overlay htype]; exact hp
  have hbase := hl.ptr_ne
  rw [hl.ptr] at hbase
  have hapart := hsep.overlay type htype hbase (by rw [← hp']; exact hptr)
  rw [← hp', ← hl.ptr, bufferSize_overlay htype] at hapart
  have hkept : SameBytes l'.mem l'.base_dtb_ptr l.mem l'.base_dtb_ptr n := by
    rw [hmem, f1]
    exact sameBytes_copy_apart l.mem (hapart.symm.mono (Nat.le_refl _) hn)
  refine ⟨⟨f1.trans hl.ptr, f1 ▸ hl.ptr_ne, f2.trans hl.base_size, f3.trans hl.soc_size, f4.trans hl.plat_size,
    f5.trans hl.total_size, ?_, ?_⟩, fun h => absurd h hne, fun _ => ⟨hp, hptr, ?_⟩, hkept⟩
  · rw [hkept.totalsize h8, f1]
    exact hl.tree
  · rw [hmem]
    exact image_copy hsep hp' hptr (by rw [bufferSize_overlay htype]) _ hl.image
  · rw [hmem]
    exact (sameBytes_copy l.mem ptr _ _).trans (hl.image type)

/-- The call that applies a loaded overlay, and what it leaves when it succeeds. -/
theorem merge_loaded (hsel : Selected g.sel a o) (hsep : Separate g o) (hmax : total o ≤ INT_MAX)
    {n : Nat} {type : BlobType} (htype : type ≠ .BASE_DTB) (hn : n + (o.handle.blob type).2 ≤ total o) (h8 : 8 ≤ n)
    {l : Locals} {m0 : Mem} {ptr : Nat} (hl : Loaded g o n type m0 l ptr) (hne : (o.handle.blob type).2 ≠ 0)
    {c : MergeCall} (hlib : c.Keeps g.lib) (hc : c =
      ⟨l.mem, l.base_dtb_ptr, n, ptr, (o.handle.blob type).2, l.base_dtb_ptr,
      n + (o.handle.blob type).2⟩) :
    CallOk g o c ∧ ∀ m', fdtMergeOverlay g.sel.defs g.lib c = (0, m') →
      totalsize (blobAt m' l.base_dtb_ptr) = n + (o.handle.blob type).2 ∧
      AppliedTo g.lib g.sel.mem (o.handle.blob type) l.base_dtb_ptr (n + (o.handle.blob type).2) m0 m' ∧
      ∀ t, SameBytes m' (o.handle.blob t).1 g.sel.mem (o.handle.blob t).1 (o.handle.blob t).2 := by
  obtain ⟨hp, hptr, hcopy⟩ := hl.present hne
  have hb := hsel.blob type
  have hge := hb.size_ge hne
  have hover : totalsize (blobAt l.mem ptr) = (o.handle.blob type).2 :=
    (hcopy.totalsize (by omega)).trans (hb.totalsize hne)
  have hp' : ptr = g.alloc type (bufferSize o type) := by rw [bufferSize_overlay htype]; exact hp
  have hbase := hl.ptr_ne
  rw [hl.ptr] at hbase
  have hapart := hsep.overlay type htype hbase (by rw [← hp']; exact hptr)
  rw [← hp', ← hl.ptr, bufferSize_overlay htype] at hapart
  subst hc
  simp only [INT_MAX] at hmax
  have hroom : totalsize (blobAt l.mem l.base_dtb_ptr) + totalsize (blobAt l.mem ptr) ≤
      n + (o.handle.blob type).2 := by
    rw [hl.tree, hover]
  have haccepted (hv : MergeCall.valid g.sel.defs ⟨l.mem, l.base_dtb_ptr, n, ptr, (o.handle.blob type).2,
      l.base_dtb_ptr, n + (o.handle.blob type).2⟩ = FDT_ERR_QC_NOERROR) :=
    MergeCall.not_tooSmall hv hroom (by dsimp only; omega)
  refine ⟨⟨⟨rfl, hl.ptr⟩, hl.tree.symm, hroom, hn, haccepted,
    merge_not_small hlib hl.ptr_ne hptr hl.ptr_ne haccepted⟩, fun m' hm => ?_⟩
  · obtain ⟨m1, hopen, happly, hsize, hframe⟩ := merge_ok hlib hm rfl (by simp only [INT_MAX]; omega)
      (by dsimp only; rw [hover]; exact hapart.mono hn (Nat.le_refl _)) (by dsimp only; omega)
    dsimp only at hopen happly hsize hframe
    refine ⟨hsize, ?_, fun t i hi => ?_⟩
    · unfold AppliedTo
      rw [if_neg hne]
      refine ⟨l.mem, m1, ptr, ?_, hcopy, hopen, happly⟩
      rw [← hl.kept.totalsize h8, hl.tree]
      exact hl.kept
    · have h1 := hsep.image .BASE_DTB t (by rw [show bufferSize o .BASE_DTB = total o from rfl]; exact hbase)
      rw [show bufferSize o .BASE_DTB = total o from rfl, ← hl.ptr] at h1
      have h2 := hsep.image type t (by rw [← hp']; exact hptr)
      rw [← hp', bufferSize_overlay htype] at h2
      refine (hframe _ ?_ ?_).trans (hl.image t i hi)
      · unfold Apart at h1
        omega
      · rw [hover]
        unfold Apart at h2
        omega

/-- The locals once the sizes are known. -/
structure Sized (g : GetEnv) (o : Opened) (l : Locals) : Prop where
  mem : l.mem = g.sel.mem
  base_size : l.base_dtb_size = (o.handle.blob .BASE_DTB).2
  soc_size : l.soc_dtbo_size = (o.handle.blob .SOC_DTBO).2
  plat_size : l.plat_dtbo_size = (o.handle.blob .PLATFORM_DTBO).2
  total_size : l.total_blob_size = total o

theorem sizeStage_sized (hsel : Selected g.sel a o) :
    (sizeStage o (initLocals g.sel.mem)).1 = 0 → Sized g o (sizeStage o (initLocals g.sel.mem)).2 := by
  have hb := (hsel.blob .BASE_DTB).size_lt
  have hs := (hsel.blob .SOC_DTBO).size_lt
  have hp := (hsel.blob .PLATFORM_DTBO).size_lt
  unfold sizeStage
  dsimp only
  split
  · exact fun h => absurd (show GET_DT_ERR_INVALID_BASE_DTB_SIZE = 0 from h) (by decide)
  · split
    · exact fun h => absurd (show GET_DT_ERR_SIZE_OVERFLOW = 0 from h) (by decide)
    · refine fun _ => ⟨rfl, hsel.base_size, hsel.soc_size, hsel.plat_size, ?_⟩
      dsimp only
      rw [hsel.base_size, hsel.soc_size, hsel.plat_size]
      simp only [HandleData.blob] at hb hs hp
      simp only [total, HandleData.blob]
      omega

theorem malloc_failed {p : Prop} (h : GET_DT_ERR_MALLOC_FAIL = 0) : p := absurd h (by decide)

theorem allocBase_does {H P : MergeCall → Prop} {l : Locals} (hl : Sized g o l) :
    (allocBase g l).Does (OnMerge H) (OnMerge P) fun r => r.1 = 0 →
      Sized g o r.2 ∧ r.2.base_dtb_ptr = g.alloc .BASE_DTB (total o) ∧ r.2.base_dtb_ptr ≠ 0 := by
  unfold allocBase
  refine does_getMalloc (Traced.does_ite (fun _ => Traced.does_pure malloc_failed) fun hne =>
    Traced.does_pure fun _ => ⟨⟨hl.mem, hl.base_size, hl.soc_size, hl.plat_size, hl.total_size⟩, ?_, hne⟩)
  rw [← hl.total_size]

theorem readBase_holds (hsel : Selected g.sel a o) (hsep : Separate g o) (hne : (o.handle.blob .BASE_DTB).2 ≠ 0)
    {l : Locals} (hl : Sized g o l) (hp : l.base_dtb_ptr = g.alloc .BASE_DTB (total o)) (hptr : l.base_dtb_ptr ≠ 0) :
    Holds g o (o.handle.blob .BASE_DTB).2 (readBase g o.block l).2 ∧
      SameBytes (readBase g o.block l).2.mem l.base_dtb_ptr g.sel.mem (o.handle.blob .BASE_DTB).1
        (o.handle.blob .BASE_DTB).2 := by
  have hread : dtSelectReadBlob g.sel.defs l.mem (some o.block) (some .BASE_DTB) (some l.base_dtb_ptr)
      (o.handle.blob .BASE_DTB).2 = (SUCCESS, some l.base_dtb_ptr, copy l.mem l.base_dtb_ptr
        (o.handle.blob .BASE_DTB).1 (o.handle.blob .BASE_DTB).2) :=
    read_selected hsel hptr hne (by rw [hl.mem]; exact .refl _ _ _)
  rw [← hl.base_size] at hread
  have hstage : readBase g o.block l = (0, { l with
      mem := copy l.mem l.base_dtb_ptr (o.handle.blob .BASE_DTB).1 (o.handle.blob .BASE_DTB).2 }) := by
    unfold readBase
    rw [hread, hl.base_size]
    rfl
  have hcopy : SameBytes (copy l.mem l.base_dtb_ptr (o.handle.blob .BASE_DTB).1 (o.handle.blob .BASE_DTB).2)
      l.base_dtb_ptr g.sel.mem (o.handle.blob .BASE_DTB).1 (o.handle.blob .BASE_DTB).2 := by
    have := sameBytes_copy l.mem l.base_dtb_ptr (o.handle.blob .BASE_DTB).1 (o.handle.blob .BASE_DTB).2
    rw [hl.mem] at this ⊢
    exact this
  rw [hstage]
  have hge := (hsel.blob .BASE_DTB).size_ge hne
  refine ⟨⟨hp, hptr, hl.base_size, hl.soc_size, hl.plat_size, hl.total_size, ?_, ?_⟩, hcopy⟩
  · exact (hcopy.totalsize (by omega)).trans ((hsel.blob .BASE_DTB).totalsize hne)
  · exact image_copy hsep hp hptr (blob_le_total .BASE_DTB) _
      fun t => by rw [hl.mem]; exact .refl _ _ _

theorem loadSoc_does {H P : MergeCall → Prop} (hsel : Selected g.sel a o) (hsep : Separate g o) {n : Nat}
    (hn : n ≤ total o) (h8 : 8 ≤ n) {l : Locals} (hl : Holds g o n l) :
    (loadSoc g o.block l).Does (OnMerge H) (OnMerge P) fun r => r.1 = 0 →
    Loaded g o n .SOC_DTBO l.mem r.2 r.2.soc_dtbo_ptr := by
  unfold loadSoc
  rw [hl.soc_size]
  refine Traced.does_ite (fun h0 => Traced.does_pure fun _ => ⟨hl, fun _ => rfl, fun h => absurd h0 h, .refl _ _ _⟩)
    fun hne => does_getMalloc (Traced.does_ite (fun _ => Traced.does_pure malloc_failed) fun hp => ?_)
  dsimp only
  rw [read_selected hsel hp hne (hl.image .SOC_DTBO)]
  exact Traced.does_pure fun _ => load_overlay hsep (by decide) hn h8 hl rfl hp hne rfl
    ⟨rfl, rfl, hl.soc_size.symm, rfl, rfl⟩

theorem loadPlat_does {H P : MergeCall → Prop} (hsel : Selected g.sel a o) (hsep : Separate g o) {n : Nat}
    (hn : n ≤ total o) (h8 : 8 ≤ n) {l : Locals} (hl : Holds g o n l) :
    (loadPlat g o.block l).Does (OnMerge H) (OnMerge P) fun r => r.1 = 0 →
      Loaded g o n .PLATFORM_DTBO l.mem r.2 r.2.plat_dtbo_ptr := by
  unfold loadPlat
  rw [hl.plat_size]
  refine Traced.does_ite (fun h0 => Traced.does_pure fun _ => ⟨hl, fun _ => rfl, fun h => absurd h0 h, .refl _ _ _⟩)
    fun hne => does_getMalloc (Traced.does_ite (fun _ => Traced.does_pure malloc_failed) fun hp => ?_)
  dsimp only
  rw [read_selected hsel hp hne (hl.image .PLATFORM_DTBO)]
  exact Traced.does_pure fun _ => load_overlay hsep (by decide) hn h8 hl rfl hp hne rfl
    ⟨rfl, rfl, rfl, hl.plat_size.symm, rfl⟩

theorem appliedTo_absent {lib : Libfdt} {image m : Mem} {overlay : Nat × Nat} {addr size : Nat} (h : overlay.2 = 0) :
    AppliedTo lib image overlay addr size m m := by
  unfold AppliedTo
  rw [if_pos h]

theorem mergeSoc_does (hsel : Selected g.sel a o) (hsep : Separate g o) (hmax : total o ≤ INT_MAX)
    {n : Nat} (hn : n + (o.handle.blob .SOC_DTBO).2 ≤ total o) (h8 : 8 ≤ n) {m0 : Mem} {l : Locals}
    (hl : Loaded g o n .SOC_DTBO m0 l l.soc_dtbo_ptr) :
    (mergeSoc g l).Does (OnMerge (MergeCall.Keeps g.lib)) (OnMerge (CallOk g o)) fun r => r.1 = 0 →
    Holds g o (n + (o.handle.blob .SOC_DTBO).2) r.2 ∧
      AppliedTo g.lib g.sel.mem (o.handle.blob .SOC_DTBO) l.base_dtb_ptr
          (n + (o.handle.blob .SOC_DTBO).2) m0 r.2.mem := by
  unfold mergeSoc
  refine Traced.does_ite (fun h0 => Traced.does_pure fun _ => ?_) fun hne => ?_
  · rw [hl.soc_size] at h0
    rw [h0]
    exact ⟨hl.toHolds, by rw [hl.absent h0]; exact appliedTo_absent h0⟩
  · rw [hl.soc_size] at hne
    simp only [INT_MAX] at hmax
    have hcall : socCall l = ⟨l.mem, l.base_dtb_ptr, n, l.soc_dtbo_ptr, (o.handle.blob .SOC_DTBO).2, l.base_dtb_ptr,
        n + (o.handle.blob .SOC_DTBO).2⟩ := by
      unfold socCall
      rw [hl.base_size, hl.soc_size, Nat.mod_eq_of_lt (by omega)]
    have hloaded := merge_loaded hsel hsep hmax (by decide) hn h8 hl hne (c := socCall l)
    refine does_merge (fun hlib => (hloaded hlib hcall).1) fun hlib => ?_
    obtain ⟨-, hafter⟩ := hloaded hlib hcall
    rcases hr : fdtMergeOverlay g.sel.defs g.lib (socCall l) with ⟨status, m'⟩
    refine Traced.does_ite (fun h1 => Traced.does_pure fun h => absurd h h1) fun h1 => ?_
    rw [not_not] at h1
    subst h1
    obtain ⟨hsize, happlied, himage⟩ := hafter m' hr
    have hget : getBlobSize g.sel.defs m' ⟨l.base_dtb_ptr, 0⟩ =
        (FDT_ERR_QC_NOERROR, n + (o.handle.blob .SOC_DTBO).2) := by
      rw [getBlobSize_eq _ _ _ hl.ptr_ne, hsize]
    dsimp only
    rw [hget]
    refine Traced.does_ite (fun h => absurd rfl h) fun _ => does_getFree (Traced.does_pure fun _ => ?_)
    have hlow : writeLow32 l.base_dtb_size (n + (o.handle.blob .SOC_DTBO).2) = n + (o.handle.blob .SOC_DTBO).2 := by
      rw [hl.base_size]
      unfold writeLow32
      omega
    exact ⟨⟨hl.ptr, hl.ptr_ne, hlow, hl.soc_size, hl.plat_size, hl.total_size, hsize, himage⟩, happlied⟩

theorem mergePlat_does (hsel : Selected g.sel a o) (hsep : Separate g o) (hmax : total o ≤ INT_MAX)
    {n : Nat} (hn : n + (o.handle.blob .PLATFORM_DTBO).2 = total o) (h8 : 8 ≤ n) {m0 : Mem} {l : Locals}
    (hl : Loaded g o n .PLATFORM_DTBO m0 l l.plat_dtbo_ptr) :
    (mergePlat g l).Does (OnMerge (MergeCall.Keeps g.lib)) (OnMerge (CallOk g o)) fun r => r.1 = 0 →
      (r.2.base_dtb_ptr = l.base_dtb_ptr ∧ r.2.total_blob_size = total o ∧
        totalsize (blobAt r.2.mem l.base_dtb_ptr) = total o) ∧
      AppliedTo g.lib g.sel.mem (o.handle.blob .PLATFORM_DTBO) l.base_dtb_ptr (total o) m0 r.2.mem := by
  unfold mergePlat
  refine Traced.does_ite (fun h0 => Traced.does_pure fun _ => ?_) fun hne => ?_
  · rw [hl.plat_size] at h0
    refine ⟨⟨rfl, hl.total_size, ?_⟩, by rw [hl.absent h0]; exact appliedTo_absent h0⟩
    dsimp only
    rw [hl.tree]
    omega
  · rw [hl.plat_size] at hne
    have hcall : platCall l = ⟨l.mem, l.base_dtb_ptr, n, l.plat_dtbo_ptr, (o.handle.blob .PLATFORM_DTBO).2,
        l.base_dtb_ptr, n + (o.handle.blob .PLATFORM_DTBO).2⟩ := by
      unfold platCall
      rw [hl.base_size, hl.plat_size, hl.total_size, hn]
    have hloaded := merge_loaded hsel hsep hmax (by decide) (Nat.le_of_eq hn) h8 hl hne (c := platCall l)
    refine does_merge (fun hlib => (hloaded hlib hcall).1) fun hlib => ?_
    obtain ⟨-, hafter⟩ := hloaded hlib hcall
    rcases hr : fdtMergeOverlay g.sel.defs g.lib (platCall l) with ⟨status, m'⟩
    refine Traced.does_ite (fun h1 => Traced.does_pure fun h => absurd h h1) fun h1 => ?_
    rw [not_not] at h1
    subst h1
    obtain ⟨hsize, happlied, -⟩ := hafter m' hr
    rw [hn] at hsize happlied
    exact does_getFree (Traced.does_pure fun _ => ⟨⟨rfl, hl.total_size, hsize⟩, happlied⟩)

end

section
variable {g : GetEnv} {a : OpenArgs} {o : Opened} {H P : MergeCall → Prop}

theorem does_getFreeIf (ptr size : Nat) : (getFreeIf ptr size).Does (OnMerge H) (OnMerge P) fun _ => True := by
  unfold getFreeIf getFree
  exact Traced.does_ite (fun _ => Traced.does_emit fun _ => ⟨trivial, trivial⟩) fun _ => Traced.does_pure trivial

theorem exitBlock_does (status : Int) (l : Locals) : (exitBlock status l).Does (OnMerge H) (OnMerge P) fun r =>
    r.status = status ∧ r.mem = l.mem ∧ (status = 0 → r.outputs = some (l.base_dtb_ptr, l.total_blob_size)) := by
  unfold exitBlock
  refine Traced.does_ite (fun hne => ?_) fun _ => Traced.does_pure ⟨rfl, rfl, fun _ => rfl⟩
  exact Traced.does_bind (does_getFreeIf _ _) fun _ _ => Traced.does_bind (does_getFreeIf _ _) fun _ _ =>
    Traced.does_bind (does_getFreeIf _ _) fun _ _ => Traced.does_pure ⟨rfl, rfl, fun h => absurd h hne⟩

theorem stages_composed (hsel : Selected g.sel a o) (hsep : Separate g o) (hmax : total o ≤ INT_MAX)
    (hbase : (o.handle.blob .BASE_DTB).2 ≠ 0) :
    (thenStage (return sizeStage o (initLocals g.sel.mem)) fun l =>
      thenStage (allocBase g l) fun l => thenStage (return readBase g o.block l) fun l =>
      thenStage (loadSoc g o.block l) fun l => thenStage (mergeSoc g l) fun l =>
      thenStage (loadPlat g o.block l) (mergePlat g)).Does (OnMerge (MergeCall.Keeps g.lib))
        (OnMerge (CallOk g o)) fun r => r.1 = 0 →
        r.2.total_blob_size = total o ∧ Composed g o r.2.base_dtb_ptr r.2.mem := by
  have hge := (hsel.blob .BASE_DTB).size_ge hbase
  have htotal : (o.handle.blob .BASE_DTB).2 + (o.handle.blob .SOC_DTBO).2 + (o.handle.blob .PLATFORM_DTBO).2 =
      total o := rfl
  refine does_thenStage (R := fun l => l.total_blob_size = total o ∧ Composed g o l.base_dtb_ptr l.mem)
    (Traced.does_pure (sizeStage_sized hsel)) fun l hl => ?_
  refine does_thenStage (S := fun l => Sized g o l ∧ l.base_dtb_ptr = g.alloc .BASE_DTB (total o) ∧ l.base_dtb_ptr ≠ 0)
    (R := fun l => l.total_blob_size = total o ∧ Composed g o l.base_dtb_ptr l.mem)
    (allocBase_does hl) fun l ⟨hl, hp, hptr⟩ => ?_
  obtain ⟨hread, hcopy⟩ := readBase_holds hsel hsep hbase hl hp hptr
  refine does_thenStage (S := fun l' => l' = (readBase g o.block l).2)
    (R := fun l => l.total_blob_size = total o ∧ Composed g o l.base_dtb_ptr l.mem) (Traced.does_pure fun _ => rfl) ?_
  rintro l' rfl
  generalize (readBase g o.block l).2 = l0 at hread hcopy
  rw [hp, ← hread.ptr] at hcopy
  refine does_thenStage (S := fun l => Loaded g o (o.handle.blob .BASE_DTB).2 .SOC_DTBO l0.mem l l.soc_dtbo_ptr)
    (R := fun l => l.total_blob_size = total o ∧ Composed g o l.base_dtb_ptr l.mem)
    (loadSoc_does hsel hsep (by omega) (by omega) hread) fun l1 hl1 => ?_
  have hp1 : l1.base_dtb_ptr = l0.base_dtb_ptr := hl1.ptr.trans hread.ptr.symm
  refine does_thenStage (S := fun l => Holds g o ((o.handle.blob .BASE_DTB).2 + (o.handle.blob .SOC_DTBO).2) l ∧
      AppliedTo g.lib g.sel.mem (o.handle.blob .SOC_DTBO) l1.base_dtb_ptr
        ((o.handle.blob .BASE_DTB).2 + (o.handle.blob .SOC_DTBO).2) l0.mem l.mem)
    (R := fun l => l.total_blob_size = total o ∧ Composed g o l.base_dtb_ptr l.mem)
    (mergeSoc_does hsel hsep hmax (by omega) (by omega) hl1) fun l2 ⟨hl2, happ2⟩ => ?_
  have hp2 : l2.base_dtb_ptr = l0.base_dtb_ptr := hl2.ptr.trans hread.ptr.symm
  refine does_thenStage (S := fun l => Loaded g o ((o.handle.blob .BASE_DTB).2 + (o.handle.blob .SOC_DTBO).2)
      .PLATFORM_DTBO l2.mem l l.plat_dtbo_ptr) (R := fun l => l.total_blob_size = total o ∧
      Composed g o l.base_dtb_ptr l.mem)
    (loadPlat_does hsel hsep (by omega) (by omega) hl2) fun l3 hl3 => ?_
  have hp3 : l3.base_dtb_ptr = l0.base_dtb_ptr := hl3.ptr.trans hread.ptr.symm
  refine (mergePlat_does hsel hsep hmax htotal (by omega) hl3).mono fun r hr h0 => ?_
  obtain ⟨⟨hp4, htot, hsize⟩, happ4⟩ := hr h0
  rw [hp4, hp3]
  rw [hp1] at happ2
  rw [hp3] at happ4 hsize
  exact ⟨htot, l0.mem, l2.mem, hcopy, happ2, happ4, hsize⟩

end

/-- `get_dt` on an image on which a selection opens: what it hands to
`fdt_merge_overlay`, and what it answers with. Of libfdt it is relied on what the
merges of this run make it do. -/
theorem get_dt_composition (g : GetEnv) (a : GetArgs) (o : Opened)
    (hopen : (dtSelectOpen g.sel a.toOpenArgs).val = .ok (SUCCESS, some o)) (hbase : (o.handle.blob .BASE_DTB).2 ≠ 0)
    (hmax : total o ≤ INT_MAX) (hsep : Separate g o) (r : GetResult) (t : List GetEvent)
    (hrun : getDt g a = .ok (r, t)) (hlib : ∀ c, .merge c ∈ t → c.Keeps g.lib) :
    (∀ c, .merge c ∈ t → CallOk g o c) ∧
      (r.status = 0 → ∃ addr, r.outputs = some (addr, total o) ∧ Composed g o addr r.mem) := by
  have hsel := dtSelectOpen_selected _ _ _ hopen o rfl
  have hall : (getDt g a).Does (OnMerge (MergeCall.Keeps g.lib)) (OnMerge (CallOk g o)) fun r => r.status = 0 →
      ∃ addr, r.outputs = some (addr, total o) ∧ Composed g o addr r.mem := by
    unfold getDt getDtWith
    refine Traced.does_ite (fun _ => (exitBlock_does _ _).mono fun r h h0 => ?_) fun _ => ?_
    · exact absurd (h.1.symm.trans h0) (by decide)
    refine Traced.does_bind (R := fun r => r = (SUCCESS, some o))
      (Traced.does_mapEvents (fun _ => trivial) fun r hr => ?_) ?_
    · rw [hopen] at hr
      cases hr
      rfl
    · rintro r rfl
      refine Traced.does_ite (fun h => absurd rfl h) fun _ =>
        Traced.does_bind (stages_composed hsel hsep hmax hbase) fun r hr => ?_
      refine Traced.does_bind (exitBlock_does r.1 r.2) fun result hres => ?_
      refine Traced.does_bind (R := fun _ => True) (Traced.does_mapEvents (fun _ => trivial) fun _ _ => trivial)
        fun _ _ => Traced.does_pure fun h0 => ?_
      obtain ⟨hstatus, hmem, hout⟩ := hres
      have h1 := hstatus.symm.trans h0
      obtain ⟨htot, hcomp⟩ := hr h1
      exact ⟨r.2.base_dtb_ptr, by rw [hout h1, htot], by rw [hmem]; exact hcomp⟩
  obtain ⟨hev, hq⟩ := hall r t hrun fun ev hev => by
    cases ev with
    | heap _ => trivial
    | merge c => exact hlib c hev
  exact ⟨fun c hc => hev _ hc, hq⟩

/-- A base tree and a SOC overlay. -/
def imageOpened : Opened := ⟨⟨0x1000, 0x1000, 128, 0x1080, 152, 0, 0⟩, 128, 152, 0⟩

theorem imageGet_separate (lib : Libfdt) (blobs : List (List UInt8)) : Separate (imageGet lib blobs) imageOpened where
  image type blob _ := by
    show Apart (imageBuffers type (bufferSize imageOpened type)) _ _ _
    cases type <;> cases blob <;> decide
  overlay type htype _ _ := by
    show Apart (imageBuffers .BASE_DTB (total imageOpened)) _ (imageBuffers type (bufferSize imageOpened type)) _
    cases type with
    | BASE_DTB => exact absurd rfl htype
    | SOC_DTBO => decide
    | PLATFORM_DTBO => decide

def GetEvent.call : GetEvent → Option MergeCall
  | .heap _ => none
  | .merge c => some c

/-- The calls of `fdt_merge_overlay` in a trace. -/
def mergeCalls (t : List GetEvent) : List MergeCall := t.filterMap GetEvent.call

theorem mem_mergeCalls {t : List GetEvent} {c : MergeCall} (h : .merge c ∈ t) : c ∈ mergeCalls t :=
  List.mem_filterMap.mpr ⟨_, h, rfl⟩

/-- The run on them: it succeeds, and makes one merge. -/
theorem imageGet_run : ∃ r t, getDt (imageGet plainLib [baseBlob [] 6, socBlob [] 7]) (imageArgs 280) = .ok (r, t) ∧
    r.status = 0 ∧ (mergeCalls t).map (fun c => (c.primary_blob, c.merge_blob, c.overlay_blob, c.mb_size)) =
      [(0x20000, 0x20000, 0x30000, 280)] := by
  generalize hx : getDt (imageGet plainLib [baseBlob [] 6, socBlob [] 7]) (imageArgs 280) = x
  have hval : x.val.map GetResult.status = .ok 0 := by
    rw [← hx]
    decide +kernel
  have hcalls : (mergeCalls x.events).map (fun c => (c.primary_blob, c.merge_blob, c.overlay_blob, c.mb_size)) =
      [(0x20000, 0x20000, 0x30000, 280)] := by
    rw [← hx]
    decide +kernel
  cases x with
  | error e => cases hval
  | ok p => exact ⟨p.1, p.2, rfl, Except.ok.inj hval, hcalls⟩

theorem get_dt_composition_image : ∃ r t,
    getDt (imageGet plainLib [baseBlob [] 6, socBlob [] 7]) (imageArgs 280) = .ok (r, t) ∧ r.status = 0 ∧
      (mergeCalls t).length = 1 ∧
      (∀ c, .merge c ∈ t → CallOk (imageGet plainLib [baseBlob [] 6, socBlob [] 7]) imageOpened c) ∧
      ∃ addr, r.outputs = some (addr, 280) ∧
        Composed (imageGet plainLib [baseBlob [] 6, socBlob [] 7]) imageOpened addr r.mem := by
  obtain ⟨r, t, hrun, hstatus, hcalls⟩ := imageGet_run
  have hin (c : MergeCall) (hc : .merge c ∈ t) : c.primary_blob = c.merge_blob ∧ c.mb_size = 280 := by
    have h := List.mem_map_of_mem (f := fun c : MergeCall => (c.primary_blob, c.merge_blob, c.overlay_blob, c.mb_size))
      (mem_mergeCalls hc)
    rw [hcalls, List.mem_singleton, Prod.mk.injEq, Prod.mk.injEq, Prod.mk.injEq] at h
    exact ⟨h.1.trans h.2.1.symm, h.2.2.2⟩
  obtain ⟨hok, hcomposed⟩ := get_dt_composition (imageGet plainLib [baseBlob [] 6, socBlob [] 7]) (imageArgs 280)
    imageOpened (by decide +kernel) (by decide) (by decide) (imageGet_separate _ _) r t hrun fun c hc =>
      plainLib_keeps (by rw [(hin c hc).2]; decide) (hin c hc).1
  refine ⟨r, t, hrun, hstatus, ?_, hok, hcomposed hstatus⟩
  have := congrArg List.length hcalls
  simpa using this

end DTFramework.Get
