import DTFramework.Get.Compose

/-!
# A run of the XBL build, in closed form

Both modes come to the same point, a base tree at an address: in `PRE` its
place in the image, in `POST` the copy in a new buffer. From there on `get_dt`
loads the overlays, moves the base tree (in `PRE`), and applies the overlays;
`tail_run` says what that does as functions of the memory, the address and the
selected trees, and exactly when it succeeds.

Results:

* `merges_run`: both merges, and the events of those that fail;
* `tail_run`: a run from the base tree on, and when it succeeds;
* `xbl_run`: a call that has a base tree, in either mode.
-/
namespace DTFramework.Get

open DTFramework.Fdt DTFramework.Extn DTFramework.Lib DTFramework.Select

/-- The stages after the base tree was read. -/
def tailStages (g : GetEnv) (a : GetArgs) (mode : Mode) (h : Handle) (l : Locals) : GetProg (Int × Locals) :=
  thenStage (loadSoc g h l) fun l =>
  thenStage (loadPlat g h l) fun l =>
  thenStage (return moveBase a mode l) fun l =>
  thenStage (mergeSoc g l) (mergePlat g)

/-- All stages that have a handle. -/
def xblStages (g : GetEnv) (a : GetArgs) (mode : Mode) (h : Handle) (l : Locals) : GetProg (Int × Locals) :=
  thenStage (placeBase g mode l) fun l => thenStage (return readBase g h l) (tailStages g a mode h)

theorem getDtXbl_eq (g : GetEnv) (a : GetArgs) (mode : Mode) :
    getDtXbl g a mode = getDtWith g a (xblStages g a mode) := rfl

/-- The local variables when the base tree was read. -/
def baseLocals (o : Opened) (m : Mem) (addr : Nat) : Locals :=
  ⟨m, addr, (o.handle.blob .BASE_DTB).2, 0, (o.handle.blob .SOC_DTBO).2, 0, (o.handle.blob .PLATFORM_DTBO).2, total o⟩

/-! ## The closed form -/

/-- The memory with a copy of the overlay of a type, if there is one. -/
def loadedMem (g : GetEnv) (o : Opened) (type : BlobType) (m : Mem) : Mem :=
  if (o.handle.blob type).2 = 0 then m
  else copy m (g.alloc type (o.handle.blob type).2) (o.handle.blob type).1 (o.handle.blob type).2

/-- The address of the copy. -/
def loadedPtr (g : GetEnv) (o : Opened) (type : BlobType) : Nat :=
  if (o.handle.blob type).2 = 0 then 0 else g.alloc type (o.handle.blob type).2

/-- The size and the memory after the base tree at `addr` was moved. -/
def moved (a : GetArgs) (mode : Mode) (o : Opened) (addr : Nat) (m : Mem) : Nat × Mem :=
  if mode = .PRE ∧ a.dtbs_image_start_address ≠ addr then
    memcpyWrapper m a.dtbs_image_start_address a.dtbs_image_size addr (o.handle.blob .BASE_DTB).2
  else ((o.handle.blob .BASE_DTB).2, m)

/-- The size and the memory the overlays are applied with. -/
def ready (g : GetEnv) (a : GetArgs) (mode : Mode) (o : Opened) (addr : Nat) (m : Mem) : Nat × Mem :=
  moved a mode o addr (loadedMem g o .PLATFORM_DTBO (loadedMem g o .SOC_DTBO m))

/-- What `base_dtb_size` is after the move: the move is bounded by the size of
the image, which the client may leave out. -/
def movedSize (a : GetArgs) (o : Opened) : Nat :=
  if a.dtbs_image_start_address = (o.handle.blob .BASE_DTB).1 then (o.handle.blob .BASE_DTB).2
  else min (o.handle.blob .BASE_DTB).2 a.dtbs_image_size

/-- The call that applies the SOC overlay to the tree of `size` bytes at `addr`. -/
def socMergeCall (g : GetEnv) (o : Opened) (addr size : Nat) (m : Mem) : MergeCall :=
  ⟨m, addr, size, loadedPtr g o .SOC_DTBO, (o.handle.blob .SOC_DTBO).2, addr,
    (size + (o.handle.blob .SOC_DTBO).2) % 2 ^ 64⟩

/-- The status, the size of the tree and the memory after the SOC overlay. -/
def socMerged (g : GetEnv) (o : Opened) (addr size : Nat) (m : Mem) : Int × Nat × Mem :=
  if (o.handle.blob .SOC_DTBO).2 = 0 then (0, size, m)
  else
    let r := fdtMergeOverlay g.sel.defs g.lib (socMergeCall g o addr size m)
    (r.1, writeLow32 size (totalsize (blobAt r.2 addr)), r.2)

/-- The call that applies the platform overlay. -/
def platMergeCall (g : GetEnv) (o : Opened) (addr size : Nat) (m : Mem) : MergeCall :=
  ⟨m, addr, size, loadedPtr g o .PLATFORM_DTBO, (o.handle.blob .PLATFORM_DTBO).2, addr, total o⟩

/-- The status and the memory after the platform overlay. -/
def platMerged (g : GetEnv) (o : Opened) (addr size : Nat) (m : Mem) : Int × Mem :=
  if (o.handle.blob .PLATFORM_DTBO).2 = 0 then (0, m)
  else fdtMergeOverlay g.sel.defs g.lib (platMergeCall g o addr size m)

/-- Both overlays: the status and the memory. -/
def merged (g : GetEnv) (o : Opened) (addr size : Nat) (m : Mem) : Int × Mem :=
  let soc := socMerged g o addr size m
  if soc.1 ≠ 0 then (soc.1, soc.2.2) else platMerged g o addr soc.2.1 soc.2.2

/-- The request for the copy of an overlay is answered, if there is one. -/
def Answered (g : GetEnv) (o : Opened) (type : BlobType) : Prop :=
  (o.handle.blob type).2 ≠ 0 → g.alloc type (o.handle.blob type).2 ≠ 0

/-- The requests for the copies are answered, and the overlays applied. -/
structure Goes (g : GetEnv) (a : GetArgs) (mode : Mode) (o : Opened) (addr : Nat) (m : Mem) : Prop where
  soc : Answered g o .SOC_DTBO
  plat : Answered g o .PLATFORM_DTBO
  merges : (merged g o addr (ready g a mode o addr m).1 (ready g a mode o addr m).2).1 = 0

/-- What a copy of an overlay asks of the heap. -/
def loadEvents (g : GetEnv) (o : Opened) (type : BlobType) : List GetEvent :=
  if (o.handle.blob type).2 = 0 then []
  else [.heap (.malloc (o.handle.blob type).2 (g.alloc type (o.handle.blob type).2))]

/-- A merge that succeeds, and the release of the copy. -/
def mergeEvents (g : GetEnv) (o : Opened) (type : BlobType) (c : MergeCall) : List GetEvent :=
  if (o.handle.blob type).2 = 0 then []
  else [.merge c, .heap (.free (g.alloc type (o.handle.blob type).2) (o.handle.blob type).2)]

/-! ## The stages -/

section
variable {g : GetEnv} {a : GetArgs} {o : Opened} {addr n p q t : Nat} {m : Mem}

theorem thenStage_ok {l : Locals} {u v : List GetEvent} {r : Int × Locals} {x : GetProg (Int × Locals)}
    {f : Locals → GetProg (Int × Locals)} (hx : x = .ok ((0, l), u)) (hf : f l = .ok (r, v)) :
    thenStage x f = .ok (r, u ++ v) := by
  subst hx
  show (f l).after u = _
  rw [hf]
  rfl

theorem thenStage_failed {status : Int} {l : Locals} {u : List GetEvent} {x : GetProg (Int × Locals)}
    {f : Locals → GetProg (Int × Locals)} (hx : x = .ok ((status, l), u)) (hne : status ≠ 0) :
    thenStage x f = .ok ((status, l), u) := by
  subst hx
  show ((if status ≠ 0 then return (status, l) else f l : GetProg (Int × Locals)).after u) = _
  rw [if_pos hne]
  show Except.ok ((status, l), u ++ []) = _
  rw [List.append_nil]

variable (addr) in
theorem loadSoc_ok (hsel : Selected g.sel a.toOpenArgs o) (hgot : Answered g o .SOC_DTBO)
    (himage : SameBytes m (o.handle.blob .SOC_DTBO).1 g.sel.mem (o.handle.blob .SOC_DTBO).1
    (o.handle.blob .SOC_DTBO).2) :
    loadSoc g o.block ⟨m, addr, n, 0, (o.handle.blob .SOC_DTBO).2, q, p, t⟩ =
      .ok ((0, ⟨loadedMem g o .SOC_DTBO m, addr, n, loadedPtr g o .SOC_DTBO, (o.handle.blob .SOC_DTBO).2, q, p, t⟩),
        loadEvents g o .SOC_DTBO) := by
  unfold loadSoc loadedMem loadedPtr loadEvents
  by_cases h0 : (o.handle.blob .SOC_DTBO).2 = 0
  · simp only [h0, if_true]
    rfl
  · have hread := read_selected hsel (hgot h0) h0 himage
    simp only [h0, if_false]
    show (if g.alloc .SOC_DTBO (o.handle.blob .SOC_DTBO).2 = 0 then _ else _ : GetProg (Int × Locals)).after _ = _
    rw [if_neg (hgot h0), hread]
    rfl

theorem loadSoc_failed (hne : ¬Answered g o .SOC_DTBO) :
    loadSoc g o.block ⟨m, addr, n, 0, (o.handle.blob .SOC_DTBO).2, q, p, t⟩ =
      .ok ((GET_DT_ERR_MALLOC_FAIL, ⟨m, addr, n, 0, (o.handle.blob .SOC_DTBO).2, q, p, t⟩),
          loadEvents g o .SOC_DTBO) := by
  unfold Answered at hne
  rw [Classical.not_imp, not_not] at hne
  obtain ⟨h0, ha⟩ := hne
  unfold loadSoc loadEvents
  simp only [h0, if_false]
  show (if g.alloc .SOC_DTBO (o.handle.blob .SOC_DTBO).2 = 0 then _ else _ : GetProg (Int × Locals)).after _ = _
  rw [if_pos ha, ha]
  rfl

variable (addr) in
theorem loadPlat_ok (hsel : Selected g.sel a.toOpenArgs o) (hgot : Answered g o .PLATFORM_DTBO)
    (himage : SameBytes m (o.handle.blob .PLATFORM_DTBO).1 g.sel.mem (o.handle.blob .PLATFORM_DTBO).1
      (o.handle.blob .PLATFORM_DTBO).2) :
    loadPlat g o.block ⟨m, addr, n, q, p, 0, (o.handle.blob .PLATFORM_DTBO).2, t⟩ =
      .ok ((0, ⟨loadedMem g o .PLATFORM_DTBO m, addr, n, q, p, loadedPtr g o .PLATFORM_DTBO,
        (o.handle.blob .PLATFORM_DTBO).2, t⟩), loadEvents g o .PLATFORM_DTBO) := by
  unfold loadPlat loadedMem loadedPtr loadEvents
  by_cases h0 : (o.handle.blob .PLATFORM_DTBO).2 = 0
  · simp only [h0, if_true]
    rfl
  · have hread := read_selected hsel (hgot h0) h0 himage
    simp only [h0, if_false]
    show (if g.alloc .PLATFORM_DTBO (o.handle.blob .PLATFORM_DTBO).2 = 0 then _ else _ : GetProg (Int × Locals)).after
      _ = _
    rw [if_neg (hgot h0), hread]
    rfl

theorem loadPlat_failed (hne : ¬Answered g o .PLATFORM_DTBO) :
    loadPlat g o.block ⟨m, addr, n, q, p, 0, (o.handle.blob .PLATFORM_DTBO).2, t⟩ =
      .ok ((GET_DT_ERR_MALLOC_FAIL, ⟨m, addr, n, q, p, 0, (o.handle.blob .PLATFORM_DTBO).2, t⟩),
        loadEvents g o .PLATFORM_DTBO) := by
  unfold Answered at hne
  rw [Classical.not_imp, not_not] at hne
  obtain ⟨h0, ha⟩ := hne
  unfold loadPlat loadEvents
  simp only [h0, if_false]
  show (if g.alloc .PLATFORM_DTBO (o.handle.blob .PLATFORM_DTBO).2 = 0 then _ else _ : GetProg (Int × Locals)).after _
    = _
  rw [if_pos ha, ha]
  rfl

theorem mergeSoc_ok (haddr : addr ≠ 0) (h0 : (socMerged g o addr n m).1 = 0) :
    mergeSoc g ⟨m, addr, n, loadedPtr g o .SOC_DTBO, (o.handle.blob .SOC_DTBO).2, q, p, t⟩ =
      .ok ((0, ⟨(socMerged g o addr n m).2.2, addr, (socMerged g o addr n m).2.1, 0, (o.handle.blob .SOC_DTBO).2, q, p,
        t⟩),
        mergeEvents g o .SOC_DTBO (socMergeCall g o addr n m)) := by
  unfold mergeSoc socMerged mergeEvents loadedPtr at *
  by_cases hz : (o.handle.blob .SOC_DTBO).2 = 0
  · simp only [hz, if_true]
    rfl
  · simp only [hz, if_false] at h0 ⊢
    have hcall : socCall ⟨m, addr, n, g.alloc .SOC_DTBO (o.handle.blob .SOC_DTBO).2, (o.handle.blob .SOC_DTBO).2, q, p,
      t⟩ =
        socMergeCall g o addr n m := by
      unfold socCall socMergeCall loadedPtr
      rw [if_neg hz]
    rw [hcall]
    show (if (fdtMergeOverlay g.sel.defs g.lib (socMergeCall g o addr n m)).1 ≠ 0 then _
      else _ : GetProg (Int × Locals)).after _ = _
    rw [if_neg (not_not.mpr h0), getBlobSize_eq _ _ _ haddr]
    rfl

theorem soc_present (hne : (socMerged g o addr n m).1 ≠ 0) : (o.handle.blob .SOC_DTBO).2 ≠ 0 := by
  intro hz
  unfold socMerged at hne
  rw [if_pos hz] at hne
  exact hne rfl

theorem mergeSoc_failed (hne : (socMerged g o addr n m).1 ≠ 0) :
    mergeSoc g ⟨m, addr, n, loadedPtr g o .SOC_DTBO, (o.handle.blob .SOC_DTBO).2, q, p, t⟩ =
      .ok (((socMerged g o addr n m).1, ⟨(socMerged g o addr n m).2.2, addr, n, loadedPtr g o .SOC_DTBO,
        (o.handle.blob .SOC_DTBO).2, q, p, t⟩), [.merge (socMergeCall g o addr n m)]) := by
  have hz := soc_present hne
  unfold mergeSoc socMerged loadedPtr at *
  simp only [hz, if_false] at hne ⊢
  have hcall : socCall ⟨m, addr, n, g.alloc .SOC_DTBO (o.handle.blob .SOC_DTBO).2, (o.handle.blob .SOC_DTBO).2, q, p,
    t⟩ =
      socMergeCall g o addr n m := by
    unfold socCall socMergeCall loadedPtr
    rw [if_neg hz]
  rw [hcall]
  show (if (fdtMergeOverlay g.sel.defs g.lib (socMergeCall g o addr n m)).1 ≠ 0 then _
    else _ : GetProg (Int × Locals)).after _ = _
  rw [if_pos hne]
  rfl

theorem mergePlat_ok (h0 : (platMerged g o addr n m).1 = 0) :
    mergePlat g ⟨m, addr, n, p, q, loadedPtr g o .PLATFORM_DTBO, (o.handle.blob .PLATFORM_DTBO).2, total o⟩ =
      .ok ((0, ⟨(platMerged g o addr n m).2, addr, n, p, q, 0, (o.handle.blob .PLATFORM_DTBO).2, total o⟩),
        mergeEvents g o .PLATFORM_DTBO (platMergeCall g o addr n m)) := by
  unfold mergePlat platMerged mergeEvents loadedPtr at *
  by_cases hz : (o.handle.blob .PLATFORM_DTBO).2 = 0
  · simp only [hz, if_true]
    rfl
  · simp only [hz, if_false] at h0 ⊢
    have hcall : platCall ⟨m, addr, n, p, q, g.alloc .PLATFORM_DTBO (o.handle.blob .PLATFORM_DTBO).2,
        (o.handle.blob .PLATFORM_DTBO).2, total o⟩ = platMergeCall g o addr n m := by
      unfold platCall platMergeCall loadedPtr
      rw [if_neg hz]
    rw [hcall]
    show (if (fdtMergeOverlay g.sel.defs g.lib (platMergeCall g o addr n m)).1 ≠ 0 then _
      else _ : GetProg (Int × Locals)).after _ = _
    rw [if_neg (not_not.mpr h0)]
    rfl

theorem plat_present (hne : (platMerged g o addr n m).1 ≠ 0) : (o.handle.blob .PLATFORM_DTBO).2 ≠ 0 := by
  intro hz
  unfold platMerged at hne
  rw [if_pos hz] at hne
  exact hne rfl

theorem mergePlat_failed (hne : (platMerged g o addr n m).1 ≠ 0) :
    mergePlat g ⟨m, addr, n, p, q, loadedPtr g o .PLATFORM_DTBO, (o.handle.blob .PLATFORM_DTBO).2, total o⟩ =
      .ok (((platMerged g o addr n m).1, ⟨(platMerged g o addr n m).2, addr, n, p, q, loadedPtr g o .PLATFORM_DTBO,
        (o.handle.blob .PLATFORM_DTBO).2, total o⟩), [.merge (platMergeCall g o addr n m)]) := by
  have hz := plat_present hne
  unfold mergePlat platMerged loadedPtr at *
  simp only [hz, if_false] at hne ⊢
  have hcall : platCall ⟨m, addr, n, p, q, g.alloc .PLATFORM_DTBO (o.handle.blob .PLATFORM_DTBO).2,
      (o.handle.blob .PLATFORM_DTBO).2, total o⟩ = platMergeCall g o addr n m := by
    unfold platCall platMergeCall loadedPtr
    rw [if_neg hz]
  rw [hcall]
  show (if (fdtMergeOverlay g.sel.defs g.lib (platMergeCall g o addr n m)).1 ≠ 0 then _
    else _ : GetProg (Int × Locals)).after _ = _
  rw [if_pos hne]
  rfl

theorem moveBase_eq {mode : Mode} {s : Nat} (hstart : mode = .PRE → a.dtbs_image_start_address ≤ addr) :
    moveBase a mode ⟨m, addr, (o.handle.blob .BASE_DTB).2, p, s, q, n, t⟩ =
      (0, ⟨(moved a mode o addr m).2, addr, (moved a mode o addr m).1, p, s, q, n, t⟩) := by
  unfold moveBase moved
  dsimp only
  split
  · rename_i h
    have := hstart h.1
    rw [if_neg (by omega)]
  · rfl

/-- The events of two merges that succeed. -/
def mergesEvents (g : GetEnv) (o : Opened) (addr n : Nat) (m : Mem) : List GetEvent :=
  mergeEvents g o .SOC_DTBO (socMergeCall g o addr n m) ++
    mergeEvents g o .PLATFORM_DTBO (platMergeCall g o addr (socMerged g o addr n m).2.1 (socMerged g o addr n m).2.2)

/-- The calls of the overlays that are there, the second one only after the first
was applied, are among the events. -/
structure Made (g : GetEnv) (o : Opened) (addr n : Nat) (m : Mem) (u : List GetEvent) : Prop where
  soc : (o.handle.blob .SOC_DTBO).2 ≠ 0 → .merge (socMergeCall g o addr n m) ∈ u
  plat : (socMerged g o addr n m).1 = 0 → (o.handle.blob .PLATFORM_DTBO).2 ≠ 0 →
    .merge (platMergeCall g o addr (socMerged g o addr n m).2.1 (socMerged g o addr n m).2.2) ∈ u

theorem mem_mergeEvents {type : BlobType} {c : MergeCall} (h : (o.handle.blob type).2 ≠ 0) :
    .merge c ∈ mergeEvents g o type c := by
  unfold mergeEvents
  rw [if_neg h]
  exact List.mem_cons_self

theorem Made.mono {u v : List GetEvent} (h : Made g o addr n m u) (huv : u ⊆ v) : Made g o addr n m v :=
  ⟨fun h0 => huv (h.soc h0), fun h1 h0 => huv (h.plat h1 h0)⟩

/-- Both merges: they leave what `merged` says, and where they fail their
events are some of those of a run that succeeds. -/
theorem merges_run (haddr : addr ≠ 0) : ∃ r u,
    thenStage (mergeSoc g ⟨m, addr, n, loadedPtr g o .SOC_DTBO, (o.handle.blob .SOC_DTBO).2,
      loadedPtr g o .PLATFORM_DTBO, (o.handle.blob .PLATFORM_DTBO).2, total o⟩) (mergePlat g) = .ok (r, u) ∧
      (r.2.base_dtb_ptr = addr ∧ r.2.total_blob_size = total o) ∧ (r.1, r.2.mem) = merged g o addr n m ∧
      u ⊆ mergesEvents g o addr n m ∧ (r.1 = 0 → u = mergesEvents g o addr n m) ∧ Made g o addr n m u := by
  unfold mergesEvents merged
  by_cases hsoc : (socMerged g o addr n m).1 = 0
  case neg =>
    refine ⟨_, _, thenStage_failed (mergeSoc_failed hsoc) hsoc, ⟨rfl, rfl⟩, ?_, ?_, fun h => absurd h hsoc,
      fun _ => List.mem_cons_self, fun h => absurd h hsoc⟩
    · dsimp only
      rw [if_pos hsoc]
    · refine List.subset_append_of_subset_left _ ?_
      unfold mergeEvents
      rw [if_neg (soc_present hsoc)]
      simp
  have h1 := mergeSoc_ok (p := (o.handle.blob .PLATFORM_DTBO).2) (q := loadedPtr g o .PLATFORM_DTBO)
    (t := total o) haddr hsoc
  have hmade {v : List GetEvent} (hv : (o.handle.blob .PLATFORM_DTBO).2 ≠ 0 →
      .merge (platMergeCall g o addr (socMerged g o addr n m).2.1 (socMerged g o addr n m).2.2) ∈ v) :
      Made g o addr n m (mergeEvents g o .SOC_DTBO (socMergeCall g o addr n m) ++ v) :=
    ⟨fun h0 => List.mem_append_left _ (mem_mergeEvents h0), fun _ h0 => List.mem_append_right _ (hv h0)⟩
  generalize socMerged g o addr n m = soc at hsoc h1 hmade ⊢
  dsimp only
  rw [if_neg (not_not.mpr hsoc)]
  by_cases hplat : (platMerged g o addr soc.2.1 soc.2.2).1 = 0
  case neg =>
    refine ⟨_, _, thenStage_ok h1 (mergePlat_failed hplat), ⟨rfl, rfl⟩, rfl, ?_, fun h => absurd h hplat,
      hmade fun _ => List.mem_cons_self⟩
    refine List.append_subset.mpr ⟨List.subset_append_left _ _, List.subset_append_of_subset_right _ ?_⟩
    unfold mergeEvents
    rw [if_neg (plat_present hplat)]
    simp
  refine ⟨_, _, thenStage_ok h1 (mergePlat_ok hplat), ⟨rfl, rfl⟩, ?_, fun _ h => h, fun _ => rfl,
    hmade mem_mergeEvents⟩
  dsimp only
  rw [← hplat]

/-! ## From the base tree on -/

/-- The events of a run that succeeds. -/
def tailEvents (g : GetEnv) (a : GetArgs) (mode : Mode) (o : Opened) (addr : Nat) (m : Mem) : List GetEvent :=
  loadEvents g o .SOC_DTBO ++ (loadEvents g o .PLATFORM_DTBO ++
    mergesEvents g o addr (ready g a mode o addr m).1 (ready g a mode o addr m).2)

/-- The trees of the image that are still to be read when the base tree was. -/
structure Unread (g : GetEnv) (o : Opened) (m : Mem) : Prop where
  soc : SameBytes m (o.handle.blob .SOC_DTBO).1 g.sel.mem (o.handle.blob .SOC_DTBO).1 (o.handle.blob .SOC_DTBO).2
  plat : Answered g o .SOC_DTBO → SameBytes (loadedMem g o .SOC_DTBO m) (o.handle.blob .PLATFORM_DTBO).1 g.sel.mem
    (o.handle.blob .PLATFORM_DTBO).1 (o.handle.blob .PLATFORM_DTBO).2

/-- A run from the base tree on: its status and events, and where it leaves the tree. -/
structure Ran (g : GetEnv) (a : GetArgs) (mode : Mode) (o : Opened) (addr : Nat) (m : Mem) (r : Int × Locals)
    (u : List GetEvent) : Prop where
  base : r.2.base_dtb_ptr = addr
  total : r.2.total_blob_size = total o
  goes : r.1 = 0 ↔ Goes g a mode o addr m
  answered : Answered g o .SOC_DTBO → Answered g o .PLATFORM_DTBO →
    (r.1, r.2.mem) = merged g o addr (ready g a mode o addr m).1 (ready g a mode o addr m).2
  events : u ⊆ tailEvents g a mode o addr m
  all : r.1 = 0 → u = tailEvents g a mode o addr m
  made : Answered g o .SOC_DTBO → Answered g o .PLATFORM_DTBO →
    Made g o addr (ready g a mode o addr m).1 (ready g a mode o addr m).2 u

theorem tail_run (hsel : Selected g.sel a.toOpenArgs o) (mode : Mode) (hne : addr ≠ 0)
    (haddr : mode = .PRE → a.dtbs_image_start_address ≤ addr) (hm : Unread g o m) :
    ∃ r u, tailStages g a mode o.block (baseLocals o m addr) = .ok (r, u) ∧ Ran g a mode o addr m r u := by
  unfold tailStages baseLocals
  by_cases hsoc : Answered g o .SOC_DTBO
  case neg =>
    exact ⟨_, _, thenStage_failed (loadSoc_failed hsoc) (by decide), rfl, rfl,
      ⟨fun h => malloc_failed h, fun h => absurd h.soc hsoc⟩, fun h => absurd h hsoc, List.subset_append_left _ _,
      fun h => malloc_failed h, fun h => absurd h hsoc⟩
  have h1 := loadSoc_ok addr (n := (o.handle.blob .BASE_DTB).2) (p := (o.handle.blob .PLATFORM_DTBO).2) (q := 0)
    (t := total o) hsel hsoc hm.soc
  by_cases hplat : Answered g o .PLATFORM_DTBO
  case neg =>
    refine ⟨_, _, thenStage_ok h1 (thenStage_failed (loadPlat_failed hplat) (by decide)), rfl, rfl,
      ⟨fun h => malloc_failed h, fun h => absurd h.plat hplat⟩, fun _ h => absurd h hplat, ?_, fun h =>
        malloc_failed h,
      fun _ h => absurd h hplat⟩
    exact List.append_subset.mpr ⟨List.subset_append_left _ _,
      List.subset_append_of_subset_right _ (List.subset_append_left _ _)⟩
  have h2 := loadPlat_ok addr (n := (o.handle.blob .BASE_DTB).2) (q := loadedPtr g o .SOC_DTBO)
    (p := (o.handle.blob .SOC_DTBO).2) (t := total o) hsel hplat (hm.plat hsoc)
  obtain ⟨r, u, hrun, ⟨hbase, htotal⟩, hmerged, hu, hall, hmade⟩ :=
    merges_run (g := g) (o := o) (n := (ready g a mode o addr m).1)
    (m := (ready g a mode o addr m).2) hne
  have h3 : thenStage (return moveBase a mode ⟨loadedMem g o .PLATFORM_DTBO (loadedMem g o .SOC_DTBO m), addr,
      (o.handle.blob .BASE_DTB).2, loadedPtr g o .SOC_DTBO, (o.handle.blob .SOC_DTBO).2, loadedPtr g o .PLATFORM_DTBO,
      (o.handle.blob .PLATFORM_DTBO).2, total o⟩) (fun l => thenStage (mergeSoc g l) (mergePlat g)) =
        .ok (r, [] ++ u) := by
    rw [moveBase_eq haddr]
    exact thenStage_ok rfl hrun
  have hstatus : r.1 = (merged g o addr (ready g a mode o addr m).1 (ready g a mode o addr m).2).1 := by
    rw [← hmerged]
  refine ⟨_, _, thenStage_ok h1 (thenStage_ok h2 h3), hbase, htotal, ?_, fun _ _ => hmerged, ?_, fun h => ?_,
    fun _ _ => hmade.mono ?_⟩
  · rw [hstatus]
    exact ⟨fun h => ⟨hsoc, hplat, h⟩, Goes.merges⟩
  · exact List.append_subset.mpr ⟨List.subset_append_left _ _, List.subset_append_of_subset_right _
      (List.append_subset.mpr ⟨List.subset_append_left _ _, List.subset_append_of_subset_right _ hu⟩)⟩
  · rw [hall h]
    rfl
  · exact List.subset_append_of_subset_right _ (List.subset_append_of_subset_right _ (List.Subset.refl _))

theorem ready_size {m : Mem} : (ready g a .PRE o (o.handle.blob .BASE_DTB).1 m).1 = movedSize a o := by
  unfold ready moved movedSize memcpyWrapper
  by_cases h : a.dtbs_image_start_address = (o.handle.blob .BASE_DTB).1
  · rw [if_neg (by simp [h]), if_pos h]
  · rw [if_pos ⟨rfl, h⟩, if_neg h]
    dsimp only
    split <;> omega

/-! ## The whole run -/

theorem sizeStage_eq (hsel : Selected g.sel a.toOpenArgs o) (hbase : (o.handle.blob .BASE_DTB).2 ≠ 0) (m : Mem) :
    sizeStage o (initLocals m) = (0, ⟨m, 0, (o.handle.blob .BASE_DTB).2, 0, (o.handle.blob .SOC_DTBO).2, 0,
      (o.handle.blob .PLATFORM_DTBO).2, total o⟩) := by
  have hb := (hsel.blob .BASE_DTB).size_lt
  have hs := (hsel.blob .SOC_DTBO).size_lt
  have hp := (hsel.blob .PLATFORM_DTBO).size_lt
  unfold sizeStage total
  rw [hsel.base_size, hsel.soc_size, hsel.plat_size]
  simp only [HandleData.blob] at hb hs hp hbase ⊢
  rw [if_neg hbase, Nat.mod_eq_of_lt (by omega), Nat.mod_eq_of_lt (by omega), if_neg (by omega)]
  rfl

theorem sizeStage_failed (hsel : Selected g.sel a.toOpenArgs o) (hbase : (o.handle.blob .BASE_DTB).2 = 0)
    {stages : Locals → GetProg (Int × Locals)} : thenStage (return sizeStage o (initLocals g.sel.mem)) stages =
      .ok ((GET_DT_ERR_INVALID_BASE_DTB_SIZE, ⟨g.sel.mem, 0, o.base_dtb_size, 0, o.soc_dtbo_size, 0,
        o.plat_dtbo_size, 0⟩), []) := by
  have hsize : sizeStage o (initLocals g.sel.mem) = (GET_DT_ERR_INVALID_BASE_DTB_SIZE,
      ⟨g.sel.mem, 0, o.base_dtb_size, 0, o.soc_dtbo_size, 0, o.plat_dtbo_size, 0⟩) := by
    unfold sizeStage
    dsimp only
    rw [if_pos (hsel.base_size.trans hbase)]
    rfl
  rw [hsize]
  exact thenStage_failed rfl (by decide)

/-- Where the base tree is in a mode, and the memory when it was read. -/
def basePtr (g : GetEnv) (o : Opened) : Mode → Nat
  | .PRE => (o.handle.blob .BASE_DTB).1
  | .POST => g.alloc .BASE_DTB (total o)

def baseMem (g : GetEnv) (o : Opened) : Mode → Mem
  | .PRE => g.sel.mem
  | .POST => copy g.sel.mem (g.alloc .BASE_DTB (total o)) (o.handle.blob .BASE_DTB).1 (o.handle.blob .BASE_DTB).2

/-- What is asked of the heap for it. -/
def baseEvents (g : GetEnv) (o : Opened) : Mode → List GetEvent
  | .PRE => []
  | .POST => [.heap (.malloc (total o) (g.alloc .BASE_DTB (total o)))]

theorem readBase_eq (hsel : Selected g.sel a.toOpenArgs o) (hbase : (o.handle.blob .BASE_DTB).2 ≠ 0) (ptr : Nat) :
    readBase g o.block ⟨g.sel.mem, ptr, (o.handle.blob .BASE_DTB).2, 0, (o.handle.blob .SOC_DTBO).2, 0,
      (o.handle.blob .PLATFORM_DTBO).2, total o⟩ =
      if ptr = 0 then (0, baseLocals o g.sel.mem (o.handle.blob .BASE_DTB).1)
      else (0, baseLocals o (copy g.sel.mem ptr (o.handle.blob .BASE_DTB).1 (o.handle.blob .BASE_DTB).2) ptr) := by
  have hb := hsel.blob .BASE_DTB
  have hstart := hb.start_le hbase
  have hs := hsel.start
  have hread : dtSelectReadBlob g.sel.defs g.sel.mem (some o.block) (some .BASE_DTB) (some ptr)
      (o.handle.blob .BASE_DTB).2 = if ptr = 0 then (SUCCESS, some (o.handle.blob .BASE_DTB).1, g.sel.mem)
        else (SUCCESS, some ptr, copy g.sel.mem ptr (o.handle.blob .BASE_DTB).1 (o.handle.blob .BASE_DTB).2) :=
    dtSelectReadBlob_ok ptr (handleCheck_opened o) rfl (by omega) hbase hb.size_lt (hb.totalsize hbase)
  unfold readBase
  dsimp only
  rw [hread]
  split <;> rfl

theorem head_run (hsel : Selected g.sel a.toOpenArgs o) (hbase : (o.handle.blob .BASE_DTB).2 ≠ 0) {mode : Mode}
    (hgot : mode = .POST → g.alloc .BASE_DTB (total o) ≠ 0) {r : Int × Locals} {u : List GetEvent}
    (htail : tailStages g a mode o.block (baseLocals o (baseMem g o mode) (basePtr g o mode)) = .ok (r, u)) :
    thenStage (return sizeStage o (initLocals g.sel.mem)) (xblStages g a mode o.block) =
      .ok (r, baseEvents g o mode ++ u) := by
  rw [sizeStage_eq hsel hbase]
  refine thenStage_ok (u := []) rfl ?_
  cases mode with
  | PRE =>
    refine thenStage_ok (u := []) rfl ?_
    show thenStage (return readBase g o.block _) _ = _
    rw [readBase_eq hsel hbase]
    exact thenStage_ok (u := []) rfl htail
  | POST =>
    have hp := hgot rfl
    refine thenStage_ok (u := baseEvents g o .POST) (l := ⟨g.sel.mem, g.alloc .BASE_DTB (total o),
      (o.handle.blob .BASE_DTB).2, 0, (o.handle.blob .SOC_DTBO).2, 0, (o.handle.blob .PLATFORM_DTBO).2, total o⟩) ?_ ?_
    · show (if g.alloc .BASE_DTB (total o) = 0 then _ else _ : GetProg (Int × Locals)).after _ = _
      rw [if_neg hp]
      rfl
    · rw [readBase_eq hsel hbase, if_neg hp]
      exact thenStage_ok (u := []) rfl htail

/-- What the exit block releases. -/
def exitEvents (status : Int) (l : Locals) : List GetEvent :=
  if status ≠ 0 then
    (if l.base_dtb_ptr ≠ 0 then [.heap (.free l.base_dtb_ptr l.total_blob_size)] else []) ++
      ((if l.soc_dtbo_ptr ≠ 0 then [.heap (.free l.soc_dtbo_ptr l.soc_dtbo_size)] else []) ++
        (if l.plat_dtbo_ptr ≠ 0 then [.heap (.free l.plat_dtbo_ptr l.plat_dtbo_size)] else []))
  else []

theorem getFreeIf_eq (ptr size : Nat) :
    getFreeIf ptr size = .ok ((), if ptr ≠ 0 then [.heap (.free ptr size)] else []) := by
  unfold getFreeIf
  split <;> rfl

theorem exitBlock_eq (status : Int) (l : Locals) : exitBlock status l =
    .ok (⟨status, if status = 0 then some (l.base_dtb_ptr, l.total_blob_size) else none, l.mem⟩,
        exitEvents status l) := by
  unfold exitBlock exitEvents
  by_cases h : status = 0
  · rw [if_neg (not_not.mpr h), if_pos h, if_neg (not_not.mpr h)]
    rfl
  · rw [if_pos h, if_neg h, if_pos h, getFreeIf_eq, getFreeIf_eq, getFreeIf_eq]
    show Except.ok (_, _ ++ (_ ++ (_ ++ []))) = _
    rw [List.append_nil]

/-- The arguments are accepted. -/
def GetArgs.Accepted (a : GetArgs) : Prop :=
  ¬(a.dtbs_image_start_address = 0 ∨ a.Input_chip_plat_info_prop.isNone ∨ a.dtb_addr_null ∨ a.dtb_size_null ∨
      (a.Input_prop_list.isNone ∧ a.prop_num_entries ≠ 0))

instance (a : GetArgs) : Decidable a.Accepted := by unfold GetArgs.Accepted; infer_instance

section
variable (stages : Handle → Locals → GetProg (Int × Locals))

theorem getDtWith_refused (h : ¬a.Accepted) :
    getDtWith g a stages = .ok (⟨GET_DT_ERR_INVALID_PARAMETER, none, g.sel.mem⟩, []) := by
  unfold GetArgs.Accepted at h
  unfold getDtWith
  dsimp only
  rw [if_pos (not_not.mp h), exitBlock_eq]
  rfl

theorem getDtWith_fault (h : a.Accepted) {e : Fault} (hopen : dtSelectOpen g.sel a.toOpenArgs = .error e) :
    getDtWith g a stages = .error e := by
  unfold getDtWith
  dsimp only
  rw [if_neg h]
  unfold select
  rw [hopen]
  rfl

theorem getDtWith_unopened (h : a.Accepted) {status : Int} {x : Option Opened} {ts : List HeapEvent}
    (hopen : dtSelectOpen g.sel a.toOpenArgs = .ok ((status, x), ts)) (hne : status ≠ 0) :
    getDtWith g a stages = .ok (⟨status, none, g.sel.mem⟩, ts.map .heap) := by
  unfold getDtWith
  dsimp only
  rw [if_neg h]
  unfold select
  rw [hopen]
  show (if status ≠ 0 then _ else _ : GetProg GetResult).after _ = _
  rw [if_pos hne, exitBlock_eq, if_neg hne]
  show Except.ok (_, _ ++ exitEvents status (initLocals g.sel.mem)) = _
  unfold exitEvents
  rw [if_pos hne]
  show Except.ok (_, _ ++ []) = _
  rw [List.append_nil]
  rfl

theorem getDtWith_opened (h : a.Accepted) {ts : List HeapEvent}
    (hopen : dtSelectOpen g.sel a.toOpenArgs = .ok ((0, some o), ts)) {s : Int} {l : Locals} {u : List GetEvent}
    (hrun : thenStage (return sizeStage o (initLocals g.sel.mem)) (stages o.block) = .ok ((s, l), u)) :
    getDtWith g a stages = .ok (⟨s, if s = 0 then some (l.base_dtb_ptr, l.total_blob_size) else none, l.mem⟩,
      ts.map .heap ++ (u ++ (exitEvents s l ++ [.heap (.free (g.sel.alloc .handle HANDLE_SIZE) HANDLE_SIZE)]))) := by
  have hp := dtSelectOpen_ptr g.sel a.toOpenArgs (0, some o) (by rw [hopen]; rfl) rfl
  have hclose : select (dtSelectClose (g.sel.alloc .handle HANDLE_SIZE) o.block) =
      .ok (SUCCESS, [.heap (.free (g.sel.alloc .handle HANDLE_SIZE) HANDLE_SIZE)]) := by
    unfold dtSelectClose
    rw [if_neg (by rw [handleCheck_opened]; simp [hp])]
    rfl
  unfold getDtWith
  dsimp only
  rw [if_neg h]
  unfold select at hclose ⊢
  rw [hopen]
  show Traced.after _ (thenStage _ _ >>= _) = _
  rw [hrun]
  show Traced.after _ (Traced.after _ (exitBlock s l >>= _)) = _
  rw [exitBlock_eq]
  show Traced.after _ (Traced.after _ (Traced.after _ (_ >>= _))) = _
  rw [hclose]
  rfl

end

/-- A call that has a base tree. -/
theorem xbl_run (haccepted : a.Accepted) (hsel : Selected g.sel a.toOpenArgs o)
    (hbase : (o.handle.blob .BASE_DTB).2 ≠ 0) (mode : Mode) (hgot : mode = .POST → g.alloc .BASE_DTB (total o) ≠ 0)
    (hunread : Unread g o (baseMem g o mode)) {ts : List HeapEvent}
    (hopen : dtSelectOpen g.sel a.toOpenArgs = .ok ((SUCCESS, some o), ts)) :
    ∃ s l u, Ran g a mode o (basePtr g o mode) (baseMem g o mode) (s, l) u ∧ getDtXbl g a mode =
      .ok (⟨s, if s = 0 then some (l.base_dtb_ptr, l.total_blob_size) else none, l.mem⟩, ts.map .heap ++
        (baseEvents g o mode ++ u ++
          (exitEvents s l ++ [.heap (.free (g.sel.alloc .handle HANDLE_SIZE) HANDLE_SIZE)]))) := by
  have hstart := (hsel.blob .BASE_DTB).start_le hbase
  have hne : basePtr g o mode ≠ 0 := by
    cases mode with
    | PRE =>
      have := hsel.start
      show (o.handle.blob .BASE_DTB).1 ≠ 0
      omega
    | POST => exact hgot rfl
  obtain ⟨⟨s, l⟩, u, htail, hran⟩ := tail_run hsel mode hne (fun h => by rw [h]; exact hstart) hunread
  exact ⟨s, l, u, hran, getDtWith_opened (xblStages g a mode) haccepted hopen (head_run hsel hbase hgot htail)⟩

end

end DTFramework.Get
