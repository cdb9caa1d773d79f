import DTFramework.Select.Owned
import DTFramework.Get.Xbl

/-!
# What `PRE` releases and merges into

In `PRE` the base tree stays in the image, and `base_dtb_ptr` points there. The
exit block is the one of `POST`: whatever fails once the base tree was read, it
passes that pointer to `FREE_WRAPPER`. Where nothing fails, the overlays are
applied in place, over whatever follows the base tree.

Results:

* `obeys_opened`, `touchesOwn_select`: what is released and merged up to the base tree
  is owned;
* `pre_touches_own`: what `PRE` touches is its own just when nothing fails from there
  on, and the image has room behind the base tree;
* `pre_frees_image`: a request that is refused has an address of the image released.
-/
namespace DTFramework.Get

open DTFramework.Fdt DTFramework.Extn DTFramework.Lib DTFramework.Lib.Policy DTFramework.Select

/-- Every address that is released was answered with before. -/
def FreesOwn (t : List GetEvent) : Prop :=
  ∀ t1 p n t2, t = t1 ++ .heap (.free p n) :: t2 → ∃ k, .heap (.malloc k p) ∈ t1

/-- `n` bytes at `p` lie in the `size` bytes at `start`. -/
def Inside (start size p n : Nat) : Prop := start ≤ p ∧ p + n ≤ start + size

/-- Every buffer that is merged into lies in the image or in a block. -/
def MergesInside (a : GetArgs) (t : List GetEvent) : Prop :=
  ∀ c, .merge c ∈ t → Inside a.dtbs_image_start_address a.dtbs_image_size c.merge_blob c.mb_size ∨
    ∃ n p, p ≠ 0 ∧ .heap (.malloc n p) ∈ t ∧ Inside p n c.merge_blob c.mb_size

def TouchesOwn (a : GetArgs) (t : List GetEvent) : Prop := FreesOwn t ∧ MergesInside a t

/-- A block of `n` bytes at `p` does not hold the address. -/
def Beside (p n addr : Nat) : Prop := p ≠ 0 → addr < p ∨ p < addr ∧ p + n ≤ addr

/-- The allocator hands out no memory of the selected trees: no block holds the
start of the base tree, and that of the copy of the SOC overlay, if there is one,
is apart from the platform overlay. -/
structure Outside (g : GetEnv) (o : Opened) : Prop where
  sel : ∀ site n, Beside (g.sel.alloc site n) n (o.handle.blob .BASE_DTB).1
  own : ∀ type, Beside (g.alloc type (o.handle.blob type).2) (o.handle.blob type).2 (o.handle.blob .BASE_DTB).1
  plat : g.alloc .SOC_DTBO (o.handle.blob .SOC_DTBO).2 ≠ 0 →
    Apart (g.alloc .SOC_DTBO (o.handle.blob .SOC_DTBO).2) (o.handle.blob .SOC_DTBO).2
      (o.handle.blob .PLATFORM_DTBO).1 (o.handle.blob .PLATFORM_DTBO).2

/-- Nothing fails once the base tree was read, and the image has room for the
overlays after the base tree. -/
structure PreOk (g : GetEnv) (a : GetArgs) (o : Opened) : Prop where
  goes : Goes g a .PRE o (o.handle.blob .BASE_DTB).1 g.sel.mem
  soc : (o.handle.blob .SOC_DTBO).2 ≠ 0 → Inside a.dtbs_image_start_address a.dtbs_image_size
    (o.handle.blob .BASE_DTB).1 (movedSize a o + (o.handle.blob .SOC_DTBO).2)
  plat : (o.handle.blob .PLATFORM_DTBO).2 ≠ 0 → Inside a.dtbs_image_start_address a.dtbs_image_size
    (o.handle.blob .BASE_DTB).1 (total o)

/-! ## Releases -/

def getPolicy : Policy GetEvent Nat where
  allowed _ := True
  needs
    | .heap (.free p _) => {p}
    | _ => ∅
  gives
    | .heap (.malloc _ p) => {p}
    | _ => ∅

theorem freesOwn_of_obeys {t : List GetEvent} (h : getPolicy.Obeys ∅ t) : FreesOwn t := by
  rintro t1 p n t2 rfl
  rcases Obeys.needs h (r := p) rfl with hp | ⟨ev, hev, hp⟩
  · exact absurd hp (Set.notMem_empty p)
  · cases ev with
    | merge c => exact absurd hp (Set.notMem_empty p)
    | heap ev =>
      cases ev with
      | free q k => exact absurd hp (Set.notMem_empty p)
      | malloc k q =>
        cases Set.mem_singleton_iff.mp hp
        exact ⟨k, hev⟩

theorem obeys_select {env : Env} {A : Set Nat} {ts : List HeapEvent} (h : (heapPolicy env).Obeys A ts) :
    getPolicy.Obeys A (ts.map .heap) :=
  Obeys.map (fun _ _ => trivial) (fun ev => by cases ev <;> rfl) (fun ev => by cases ev <;> rfl) h

section
variable {g : GetEnv} {a : GetArgs} {o : Opened} {A : Set Nat} {type : BlobType}

theorem loadEvents_obeys : getPolicy.Obeys A (loadEvents g o type) := by
  unfold loadEvents
  split
  · trivial
  · exact ⟨trivial, Set.empty_subset _, trivial⟩

theorem loadEvents_held (h : (o.handle.blob type).2 ≠ 0) :
    g.alloc type (o.handle.blob type).2 ∈ getPolicy.held A (loadEvents g o type) := by
  unfold loadEvents
  rw [if_neg h]
  exact Or.inr rfl

theorem mergeEvents_obeys {c : MergeCall} (h : (o.handle.blob type).2 ≠ 0 → g.alloc type (o.handle.blob type).2 ∈ A) :
    getPolicy.Obeys A (mergeEvents g o type c) := by
  unfold mergeEvents
  split
  · trivial
  · rename_i hne
    exact ⟨trivial, Set.empty_subset _, trivial, Set.singleton_subset_iff.mpr (Or.inl (h hne)), trivial⟩

/-- A run that succeeds releases the copies it asked for. -/
theorem tailEvents_obeys {mode : Mode} {addr : Nat} {m : Mem} : getPolicy.Obeys A (tailEvents g a mode o addr m) := by
  unfold tailEvents mergesEvents
  simp only [obeys_append]
  refine ⟨loadEvents_obeys, loadEvents_obeys, mergeEvents_obeys fun h => ?_, mergeEvents_obeys fun h => ?_⟩
  · exact subset_held _ _ (loadEvents_held h)
  · exact subset_held _ _ (loadEvents_held h)

/-- What is asked for from the base tree on: copies of the overlays. -/
theorem tailEvents_malloc {mode : Mode} {addr n p : Nat} {m : Mem}
    (h : .heap (.malloc n p) ∈ tailEvents g a mode o addr m) :
    ∃ type, n = (o.handle.blob type).2 ∧ p = g.alloc type (o.handle.blob type).2 := by
  have hload {type : BlobType} (h : GetEvent.heap (.malloc n p) ∈ loadEvents g o type) :
      n = (o.handle.blob type).2 ∧ p = g.alloc type (o.handle.blob type).2 := by
    unfold loadEvents at h
    split at h
    · cases h
    · simpa using h
  have hmerge {type : BlobType} {c : MergeCall} (h : GetEvent.heap (.malloc n p) ∈ mergeEvents g o type c) :
      False := by
    unfold mergeEvents at h
    split at h
    · cases h
    · simp at h
  unfold tailEvents mergesEvents at h
  simp only [List.mem_append] at h
  rcases h with h | h | h | h
  · exact ⟨_, hload h⟩
  · exact ⟨_, hload h⟩
  · exact absurd h hmerge
  · exact absurd h hmerge

/-- The overlays are applied where they are present, one call each. -/
theorem tailEvents_merge {mode : Mode} {addr : Nat} {m : Mem} {c : MergeCall} :
    .merge c ∈ tailEvents g a mode o addr m ↔
      ((o.handle.blob .SOC_DTBO).2 ≠ 0 ∧ c = socMergeCall g o addr (ready g a mode o addr m).1
      (ready g a mode o addr m).2) ∨
      ((o.handle.blob .PLATFORM_DTBO).2 ≠ 0 ∧ c = platMergeCall g o addr
        (socMerged g o addr (ready g a mode o addr m).1 (ready g a mode o addr m).2).2.1
        (socMerged g o addr (ready g a mode o addr m).1 (ready g a mode o addr m).2).2.2) := by
  have hload (type : BlobType) : GetEvent.merge c ∉ loadEvents g o type := by
    unfold loadEvents
    split <;> simp
  have hmerge (type : BlobType) (c' : MergeCall) :
      .merge c ∈ mergeEvents g o type c' ↔ (o.handle.blob type).2 ≠ 0 ∧ c = c' := by
    unfold mergeEvents
    split <;> simp_all
  unfold tailEvents mergesEvents
  simp only [List.mem_append, hload, hmerge, false_or]

/-! ## The whole call -/

/-- The events of a selection release and merge nothing that is not owned. -/
theorem touchesOwn_select {ts : List HeapEvent} (h : (heapPolicy g.sel).Obeys ∅ ts) : TouchesOwn a (ts.map .heap) := by
  refine ⟨freesOwn_of_obeys (obeys_select h), fun c hc => ?_⟩
  simp at hc

/-- Between opening and closing the handle. -/
theorem obeys_opened {ts : List HeapEvent} {u : List GetEvent}
    (hopen : dtSelectOpen g.sel a.toOpenArgs = .ok ((SUCCESS, some o), ts)) (hu : ∀ A, getPolicy.Obeys A u) :
    getPolicy.Obeys ∅ (ts.map .heap ++ (u ++ [.heap (.free (g.sel.alloc .handle HANDLE_SIZE) HANDLE_SIZE)])) := by
  have hts := dtSelectOpen_owned g.sel a.toOpenArgs _ _ hopen
  refine (obeys_append _ _ _).mpr ⟨obeys_select hts, (obeys_append _ _ _).mpr ⟨hu _, trivial, ?_, trivial⟩⟩
  refine Set.singleton_subset_iff.mpr (subset_held _ _
    (mem_held.mpr (Or.inr ⟨.heap (.malloc HANDLE_SIZE _), ?_, rfl⟩)))
  exact List.mem_map.mpr ⟨_, dtSelectOpen_handle hopen, rfl⟩

/-- Every block of a call is beside the base tree. -/
theorem blocks_beside (hout : Outside g o) {ts : List HeapEvent} {u : List GetEvent}
    (hopen : dtSelectOpen g.sel a.toOpenArgs = .ok ((SUCCESS, some o), ts)) {mode : Mode} {addr : Nat} {m : Mem}
    (hu : u ⊆ tailEvents g a mode o addr m) {n p : Nat} (h : .heap (.malloc n p) ∈ ts.map .heap ++ u) :
    Beside p n (o.handle.blob .BASE_DTB).1 := by
  rcases List.mem_append.mp h with h | h
  · obtain ⟨ev, hev, heq⟩ := List.mem_map.mp h
    cases heq
    obtain ⟨site, rfl⟩ := (dtSelectOpen_owned g.sel a.toOpenArgs _ _ hopen).allowed _ hev
    exact hout.sel site n
  · obtain ⟨type, rfl, rfl⟩ := tailEvents_malloc (hu h)
    exact hout.own type

/-- The two buffers that are merged into. -/
theorem merges_inside_iff (hsel : Selected g.sel a.toOpenArgs o) {t : List GetEvent} {m : Mem}
    (hmerge : ∀ c, .merge c ∈ t ↔ .merge c ∈ tailEvents g a .PRE o (o.handle.blob .BASE_DTB).1 m)
    (hbeside : ∀ n p, .heap (.malloc n p) ∈ t → Beside p n (o.handle.blob .BASE_DTB).1) :
    MergesInside a t ↔
      ((o.handle.blob .SOC_DTBO).2 ≠ 0 → Inside a.dtbs_image_start_address a.dtbs_image_size
        (o.handle.blob .BASE_DTB).1 (movedSize a o + (o.handle.blob .SOC_DTBO).2)) ∧
      ((o.handle.blob .PLATFORM_DTBO).2 ≠ 0 → Inside a.dtbs_image_start_address a.dtbs_image_size
        (o.handle.blob .BASE_DTB).1 (total o)) := by
  have hblock (n : Nat) (h0 : 0 < n) : ¬∃ k p, p ≠ 0 ∧ .heap (.malloc k p) ∈ t ∧
      Inside p k (o.handle.blob .BASE_DTB).1 n := by
    rintro ⟨k, p, hp, hmem, hlow, hhigh⟩
    have := hbeside k p hmem hp
    omega
  have hb := (hsel.blob .BASE_DTB).size_lt
  have hs := (hsel.blob .SOC_DTBO).size_lt
  have hmoved : movedSize a o ≤ (o.handle.blob .BASE_DTB).2 := by
    unfold movedSize
    split <;> omega
  have hsoc : (socMergeCall g o (o.handle.blob .BASE_DTB).1 (movedSize a o) (ready g a .PRE o
      (o.handle.blob .BASE_DTB).1 m).2).mb_size = movedSize a o + (o.handle.blob .SOC_DTBO).2 :=
    Nat.mod_eq_of_lt (by omega)
  have hplat := blob_le_total (o := o) .PLATFORM_DTBO
  constructor
  · intro h
    refine ⟨fun hne => ?_, fun hne => ?_⟩
    · have hc := h _ ((hmerge _).mpr (tailEvents_merge.mpr (Or.inl ⟨hne, rfl⟩)))
      rw [ready_size, hsoc] at hc
      exact hc.resolve_right (hblock _ (by omega))
    · have hc := h _ ((hmerge _).mpr (tailEvents_merge.mpr (Or.inr ⟨hne, rfl⟩)))
      exact hc.resolve_right (hblock _ (by show 0 < total o; omega))
  · rintro ⟨hs, hp⟩ c hc
    rcases tailEvents_merge.mp ((hmerge c).mp hc) with ⟨hne, rfl⟩ | ⟨hne, rfl⟩
    · rw [ready_size, hsoc]
      exact Or.inl (hs hne)
    · exact Or.inl (hp hne)

/-- A call that has a base tree. -/
theorem pre_run (haccepted : a.Accepted) (hsel : Selected g.sel a.toOpenArgs o) (hout : Outside g o)
    (hbase : (o.handle.blob .BASE_DTB).2 ≠ 0) {ts : List HeapEvent}
    (hopen : dtSelectOpen g.sel a.toOpenArgs = .ok ((SUCCESS, some o), ts)) :
    ∃ s l u, Ran g a .PRE o (o.handle.blob .BASE_DTB).1 g.sel.mem (s, l) u ∧ getDtXbl g a .PRE =
      .ok (⟨s, if s = 0 then some (l.base_dtb_ptr, l.total_blob_size) else none, l.mem⟩, ts.map .heap ++ (u ++
        (exitEvents s l ++ [.heap (.free (g.sel.alloc .handle HANDLE_SIZE) HANDLE_SIZE)]))) := by
  have hunread : Unread g o g.sel.mem := by
    refine ⟨.refl _ _ _, fun hgot => ?_⟩
    unfold loadedMem
    split
    · exact .refl _ _ _
    · rename_i hne
      exact sameBytes_copy_apart _ (hout.plat (hgot hne))
  exact xbl_run haccepted hsel hbase .PRE (fun h => nomatch h) hunread hopen

/-- The exit block releases the base tree, which is in the image. -/
theorem exit_frees_image (hsel : Selected g.sel a.toOpenArgs o) (hout : Outside g o)
    (hbase : (o.handle.blob .BASE_DTB).2 ≠ 0) {ts : List HeapEvent}
    (hopen : dtSelectOpen g.sel a.toOpenArgs = .ok ((SUCCESS, some o), ts)) {s : Int} {l : Locals}
    {u v : List GetEvent}
    (hran : Ran g a .PRE o (o.handle.blob .BASE_DTB).1 g.sel.mem (s, l) u) (hs : s ≠ 0) :
    ¬FreesOwn (ts.map .heap ++ (u ++ (exitEvents s l ++ v))) := by
  intro h
  have hptr : l.base_dtb_ptr = (o.handle.blob .BASE_DTB).1 := hran.base
  have hne : l.base_dtb_ptr ≠ 0 := by
    have := hsel.start
    have := (hsel.blob .BASE_DTB).start_le hbase
    omega
  obtain ⟨k, hk⟩ := h (ts.map .heap ++ u) l.base_dtb_ptr l.total_blob_size _ (by
    rw [exitEvents, if_pos hs, if_pos hne]
    simp only [List.append_assoc, List.cons_append]
    rfl)
  have hb := blocks_beside hout hopen hran.events hk hne
  omega

end

/-- What `PRE` touches is its own exactly when nothing fails once the base tree
was read, and the image has room for the merged tree behind the base tree. -/
theorem pre_touches_own (g : GetEnv) (a : GetArgs)
    (hout : ∀ o, (dtSelectOpen g.sel a.toOpenArgs).val = .ok (SUCCESS, some o) → Outside g o) :
    ∀ r t, getDtXbl g a .PRE = .ok (r, t) → (TouchesOwn a t ↔ (a.Accepted →
      ∀ o, (dtSelectOpen g.sel a.toOpenArgs).val = .ok (SUCCESS, some o) → (o.handle.blob .BASE_DTB).2 ≠ 0 →
          PreOk g a o)) := by
  intro r t hrun
  by_cases haccepted : a.Accepted
  case neg =>
    cases (getDtWith_refused (xblStages g a .PRE) haccepted).symm.trans hrun
    exact ⟨fun _ h => absurd h haccepted, fun _ => ⟨freesOwn_of_obeys trivial, fun _ hc => (nomatch hc)⟩⟩
  rw [imp_iff_right haccepted]
  rcases hopen : dtSelectOpen g.sel a.toOpenArgs with e | ⟨⟨status, x⟩, ts⟩
  · exact absurd ((getDtWith_fault (xblStages g a .PRE) haccepted hopen).symm.trans hrun) (by simp)
  have hval : (dtSelectOpen g.sel a.toOpenArgs).val = .ok (status, x) := by rw [hopen]; rfl
  have hts := dtSelectOpen_owned g.sel a.toOpenArgs _ _ hopen
  by_cases hstatus : status = 0
  case neg =>
    cases (getDtWith_unopened (xblStages g a .PRE) haccepted hopen hstatus).symm.trans hrun
    refine ⟨fun _ o ho => ?_, fun _ => touchesOwn_select hts⟩
    cases ho
    exact absurd rfl hstatus
  subst hstatus
  obtain ⟨o, rfl⟩ := Option.isSome_iff_exists.mp ((dtSelectOpen_status _ _ _ hval).mp rfl)
  have hsel := dtSelectOpen_selected _ _ _ hval o rfl
  have hout := hout o (by rw [hopen]; rfl)
  have honly {P : Opened → Prop} : (∀ o', Traced.val (.ok ((0, some o), ts) : Prog (Int × Option Opened)) =
      .ok (SUCCESS, some o') → P o') ↔ P o :=
    ⟨fun h => h o rfl, fun h o' ho => by cases ho; exact h⟩
  rw [honly]
  by_cases hbase : (o.handle.blob .BASE_DTB).2 = 0
  case pos =>
    have hstage := getDtWith_opened (xblStages g a .PRE) haccepted hopen (sizeStage_failed hsel hbase)
    cases hstage.symm.trans hrun
    refine ⟨fun _ hne => absurd hbase hne, fun _ =>
      ⟨freesOwn_of_obeys (obeys_opened hopen fun _ => trivial), fun c hc => ?_⟩⟩
    simp [exitEvents] at hc
  obtain ⟨s, l, u, hran, hstage⟩ := pre_run haccepted hsel hout hbase hopen
  cases hstage.symm.trans hrun
  by_cases hs : s = 0
  case neg =>
    exact ⟨fun h => absurd h.1 (exit_frees_image hsel hout hbase hopen hran hs),
      fun h => absurd (hran.goes.mpr (h hbase).goes) hs⟩
  subst hs
  have hu := hran.all rfl
  have hinside := merges_inside_iff (a := a) (m := g.sel.mem) hsel (t := ts.map .heap ++ (u ++ (exitEvents 0 l ++
    [.heap (.free (g.sel.alloc .handle HANDLE_SIZE) HANDLE_SIZE)]))) (fun c => by simp [exitEvents, hu])
      fun n p h => blocks_beside hout hopen hran.events (by simpa [exitEvents] using h)
  constructor
  · intro h _
    obtain ⟨hsoc, hplat⟩ := hinside.mp h.2
    exact ⟨hran.goes.mp rfl, hsoc, hplat⟩
  · intro h
    refine ⟨freesOwn_of_obeys (obeys_opened hopen fun A => ?_), hinside.mpr ⟨(h hbase).soc, (h hbase).plat⟩⟩
    rw [hu]
    exact tailEvents_obeys

/-- The sample image, where the request for a copy of the SOC overlay may fail. -/
def imagePre (answered : Bool) : GetEnv :=
  ⟨imageEnv 0x1000 [baseBlob [] 6, socBlob [] 7] false,
    fun type size => if type = .SOC_DTBO ∧ !answered then 0 else imageBuffers type size, plainLib⟩

theorem imagePre_open (answered : Bool) : (dtSelectOpen (imagePre answered).sel (imageArgs 280).toOpenArgs).val =
    .ok (SUCCESS, some imageOpened) := by
  show (dtSelectOpen (imageEnv 0x1000 [baseBlob [] 6, socBlob [] 7] false) (imageArgs 280).toOpenArgs).val = _
  decide +kernel

theorem imagePre_outside (answered : Bool) : Outside (imagePre answered) imageOpened where
  sel _ _ _ := Or.inl (by decide : (0x1000 : Nat) < 0x10000)
  own type h := by cases answered <;> cases type <;> first | exact absurd rfl h | exact Or.inl (by decide)
  plat _ := by cases answered <;> decide

theorem imagePre_run (answered : Bool) : ∃ ts s l u,
    dtSelectOpen (imagePre answered).sel (imageArgs 280).toOpenArgs = .ok ((SUCCESS, some imageOpened), ts) ∧
    Ran (imagePre answered) (imageArgs 280) .PRE imageOpened 0x1000 (imagePre answered).sel.mem (s, l) u ∧
    getDtXbl (imagePre answered) (imageArgs 280) .PRE =
      .ok (⟨s, if s = 0 then some (l.base_dtb_ptr, l.total_blob_size) else none, l.mem⟩, ts.map .heap ++ (u ++
        (exitEvents s l ++ [.heap (.free ((imagePre answered).sel.alloc .handle HANDLE_SIZE) HANDLE_SIZE)]))) := by
  have hval := imagePre_open answered
  have hsel := dtSelectOpen_selected _ _ _ hval _ rfl
  rcases hopen : dtSelectOpen (imagePre answered).sel (imageArgs 280).toOpenArgs with e | ⟨q, ts⟩
  · rw [hopen] at hval
    cases hval
  rw [hopen] at hval
  cases hval
  obtain ⟨s, l, u, hran, hrun⟩ := pre_run (by decide) hsel (imagePre_outside answered) (by decide) hopen
  exact ⟨ts, s, l, u, rfl, hran, hrun⟩

/-- Without memory for the copy of the SOC overlay, an address of the image is
passed to `FREE_WRAPPER`. -/
theorem pre_frees_image : ∃ r t, getDtXbl (imagePre false) (imageArgs 280) .PRE = .ok (r, t) ∧
    ¬TouchesOwn (imageArgs 280) t := by
  have hsel := dtSelectOpen_selected _ _ _ (imagePre_open false) _ rfl
  obtain ⟨ts, s, l, u, hopen, hran, hrun⟩ := imagePre_run false
  refine ⟨_, _, hrun, fun h => exit_frees_image hsel (imagePre_outside false) (by decide) hopen hran
    (fun hs => ?_) h.1⟩
  exact absurd ((hran.goes.mp hs).soc (by decide)) (by decide)

theorem pre_touches_own_image : ∃ r t, getDtXbl (imagePre true) (imageArgs 280) .PRE = .ok (r, t) ∧
    (TouchesOwn (imageArgs 280) t ↔ ((imageArgs 280).Accepted → ∀ o,
      (dtSelectOpen (imagePre true).sel (imageArgs 280).toOpenArgs).val = .ok (SUCCESS, some o) →
        (o.handle.blob .BASE_DTB).2 ≠ 0 → PreOk (imagePre true) (imageArgs 280) o)) := by
  obtain ⟨ts, s, l, u, -, -, hrun⟩ := imagePre_run true
  refine ⟨_, _, hrun, pre_touches_own _ _ (fun o h => ?_) _ _ hrun⟩
  rw [imagePre_open] at h
  cases h
  exact imagePre_outside true

end DTFramework.Get
