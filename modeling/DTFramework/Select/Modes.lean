import DTFramework.Select.Layout
import DTFramework.Select.Statuses
import DTFramework.Get.Selected

/-!
# With and without the size of the image

Given the size of an image, the walk ends behind its last byte; without, at an
address where the header check finds no magic. Behind blobs whose total length is
not a multiple of 8 the check refuses the address instead (`modes_exact`).

Results:

* `select_agrees`: the walk does not ask for the size, but for its end;
* `dtSelectOpen_walked`: what follows the walk;
* `modes_exact`: the images for which the size makes no difference;
  `unaligned_end_refused` shows another.
-/
namespace DTFramework.Select

open DTFramework.Fdt DTFramework.Extn DTFramework.Lib

/-- Blobs back to back from an aligned address, each with a board-id node and
passing the check where it is, with something else than the magic behind them. -/
structure Rowed (env : Env) (start : Nat) (blobs : List (List UInt8)) : Prop where
  some : blobs ≠ []
  address : start ≠ 0 ∧ start % 8 = 0 ∧ start + blobs.flatten.length < 2 ^ 64
  checked : ∀ s ∈ segments start blobs, checkHeader (blobAt env.mem s.addr) = 0 ∧
  totalsize (blobAt env.mem s.addr) = s.size
  boarded : ∀ s ∈ segments start blobs, 0 ≤ pathOffset (blobAt env.mem s.addr) ROOT_NODE
  behind : magic (blobAt env.mem (start + blobs.flatten.length)) ≠ FDT_MAGIC

/-- The call with and without the size of the image. -/
def ModesAgree (env : Env) (a : OpenArgs) (size : Nat) : Prop :=
  (dtSelectOpen env { a with dtbs_image_size := size }).val = (dtSelectOpen env { a with dtbs_image_size := 0 }).val

/-- The call gets behind the last blob: its arguments are accepted, there is memory
for the handle, the properties are printed, and no blob ends it. -/
structure PassesBlobs (env : Env) (a : OpenArgs) (prop : ChipPlatInfo) (blobs : List (List UInt8)) : Prop where
  accepted : ¬(a.dtbs_image_start_address = 0 ∨ (a.Input_prop_list.isSome ∧ a.prop_num_entries = 0) ∨
    (a.Input_prop_list.isNone ∧ a.prop_num_entries ≠ 0))
  allocated : (malloc env .handle HANDLE_SIZE).val ≠ .ok 0
  printed : (printInputParameters env (a.input prop).prop_list).val = .ok SUCCESS
  examined : ∃ w, (examineAll env (a.input prop) SUCCESS (segments a.dtbs_image_start_address blobs)
    (initWalkState (initHandleData a.dtbs_image_start_address))).val = .ok (SUCCESS, w)

section
variable {env : Env} {inp : HandleInput} {start : Nat}

/-- The blobs do not ask for the size. -/
theorem examineAll_size (env : Env) (inp : HandleInput) (n : Nat) (status : Int) (l : List Segment) (w : WalkState) :
    examineAll env { inp with dtbs_image_size := n } status l w = examineAll env inp status l w := by
  induction l generalizing w with
  | nil => rfl
  | cons s l ih =>
    unfold examineAll
    rw [show examineBlob env { inp with dtbs_image_size := n } = examineBlob env inp from rfl]
    simp only [ih]

/-- The status behind the last blob is the answer when all are examined. -/
theorem examineAll_status (env : Env) (inp : HandleInput) (status : Int) (l : List Segment) (w : WalkState) :
    (∃ w', (examineAll env inp SUCCESS l w).val = .ok (SUCCESS, w') ∧
    (examineAll env inp status l w).val = .ok (status, w')) ∨
      ((∀ w', (examineAll env inp SUCCESS l w).val ≠ .ok (SUCCESS, w')) ∧
        (examineAll env inp status l w).val = (examineAll env inp SUCCESS l w).val) := by
  induction l generalizing w with
  | nil => exact Or.inl ⟨w, rfl, rfl⟩
  | cons s l ih =>
    rw [examineAll_cons, examineAll_cons]
    cases (examineBlob env inp (w.visit s.size) (acceptedEntry s.addr s.size)).val with
    | error fault => exact Or.inr ⟨nofun, rfl⟩
    | ok r =>
      obtain ⟨r, w1⟩ := r
      simp only
      by_cases hr : r ≠ SUCCESS
      · rw [if_pos hr, if_pos hr]
        exact Or.inr ⟨fun w' h => hr (Prod.mk.inj (Except.ok.inj h)).1, rfl⟩
      · rw [if_neg hr, if_neg hr]
        exact ih _

/-- Blobs whose headers are accepted one after another, and what is behind them. -/
theorem imageBlobs_row (blobs : List (List UInt8)) {p : Nat} {status : Int}
    (hstep : ∀ s ∈ segments p blobs, isFdtheaderAtEndOfImage env inp start s.addr initHandleEntry =
      (SUCCESS, acceptedEntry s.addr s.size, false))
    (hend : imageBlobs env inp start (p + blobs.flatten.length) = ([], status))
    (hlt : p + blobs.flatten.length < 2 ^ 64) :
    imageBlobs env inp start p = (segments p blobs, status) := by
  induction blobs generalizing p with
  | nil => exact hend
  | cons b rest ih =>
    rw [List.flatten_cons, List.length_append] at hend hlt
    have hnext : (p + (acceptedEntry p b.length).device_tree_blob_size) % 2 ^ 64 = p + b.length := by
      rw [acceptedEntry_size]
      omega
    have hrest := ih (p := p + b.length) (fun s hs => hstep s (List.mem_cons_of_mem _ hs))
      (by rw [Nat.add_assoc]; exact hend) (by omega)
    rw [imageBlobs_cons (hstep ⟨p, b.length⟩ List.mem_cons_self), hnext, hrest]
    rfl

theorem row_sized {blobs : List (List UInt8)} (h : Rowed env start blobs)
    (hsize : inp.dtbs_image_size = blobs.flatten.length) :
    imageBlobs env inp start start = (segments start blobs, SUCCESS) := by
  obtain ⟨hne, ⟨hstart, -, hlt⟩, hchecked, -, -⟩ := h
  have hpos : inp.dtbs_image_size ≠ 0 := by
    obtain ⟨b, rest, rfl⟩ := List.exists_cons_of_ne_nil hne
    obtain ⟨hcheck, htotal⟩ := hchecked ⟨start, b.length⟩ List.mem_cons_self
    have hb := totalsize_pos_of_check hcheck
    have hlen : totalsize (blobAt env.mem start) = b.length := htotal
    have hb' : 0 < totalsize (blobAt env.mem start) := hb
    rw [hsize, List.flatten_cons, List.length_append]
    omega
  refine imageBlobs_row blobs (fun s hs => ?_) ?_ hlt
  · obtain ⟨hcheck, htotal⟩ := hchecked s hs
    obtain ⟨hge, hle⟩ := segments_bounds blobs hs
    have hb := totalsize_pos_of_check hcheck
    rw [isFdtheaderAtEndOfImage_eq (by omega) hstart, if_pos hpos, endOfSizedImage_eq (by omega) (by omega) hge]
    simp only
    rw [if_neg (by omega), if_neg (not_not.mpr hcheck), htotal, if_neg (by omega)]
  · rw [← hsize]
    exact imageBlobs_behind hstart hpos (by omega)

/-- Without the size the address behind the last blob has to be aligned. -/
theorem row_unsized {blobs : List (List UInt8)} (h : Rowed env start blobs) (hsize : inp.dtbs_image_size = 0) :
    imageBlobs env inp start start =
      (segments start blobs, if blobs.flatten.length % 8 = 0 then SUCCESS else -FDT_ERR_ALIGNMENT) := by
  obtain ⟨hne, ⟨hstart, halign, hlt⟩, hchecked, -, hmagic⟩ := h
  refine imageBlobs_row blobs (fun s hs => ?_) ?_ hlt
  · obtain ⟨hcheck, htotal⟩ := hchecked s hs
    obtain ⟨hge, hle⟩ := segments_bounds blobs hs
    rw [isFdtheaderAtEndOfImage_eq (by omega) hstart, if_neg (not_not.mpr hsize),
      endOfUnsizedImage_eq (by omega) (by omega)]
    simp only
    rw [hcheck, if_neg (by decide), if_neg (by decide), htotal, if_pos (by omega)]
  · have hlast : isFdtheaderAtEndOfImage env inp start (start + blobs.flatten.length) initHandleEntry = _ :=
      isFdtheaderAtEndOfImage_eq (by omega) hstart
    rw [if_neg (not_not.mpr hsize), endOfUnsizedImage_eq (by omega) hlt] at hlast
    simp only at hlast
    by_cases hunit : blobs.flatten.length % 8 = 0
    · have hbad := (checkHeader_eq_badmagic (blobAt env.mem (start + blobs.flatten.length))).mpr
        ⟨by rw [blobAt_addr]; omega, hmagic⟩
      rw [if_pos hbad] at hlast
      rw [imageBlobs_end hlast (by decide), if_pos hunit]
    · have hbad := checkHeader_unaligned (blobAt env.mem (start + blobs.flatten.length)) (by rw [blobAt_addr]; omega)
      rw [hbad, if_neg (by decide), if_pos (by decide)] at hlast
      rw [imageBlobs_end hlast (by decide), if_neg hunit]

end

/-- The walk is the same with and without the size when the blobs fill whole units
of 8 bytes, or one of them ends it. -/
theorem select_agrees {env : Env} (inp : HandleInput) {start : Nat} {blobs : List (List UInt8)}
    (h : Rowed env start blobs)
    (hends : blobs.flatten.length % 8 = 0 ∨ ∀ w, (examineAll env inp SUCCESS (segments start blobs)
      (initWalkState (initHandleData start))).val ≠ .ok (SUCCESS, w)) :
    (selectDtbAndDtbos env { inp with dtbs_image_size := blobs.flatten.length } (initHandleData start)).val =
      (selectDtbAndDtbos env { inp with dtbs_image_size := 0 } (initHandleData start)).val := by
  rw [selectDtbAndDtbos_eq, selectDtbAndDtbos_eq, row_sized h rfl, row_unsized h rfl]
  simp only [examineAll_size]
  rcases hends with hunit | hends
  · rw [if_pos hunit]
  · rcases examineAll_status env inp (if blobs.flatten.length % 8 = 0 then SUCCESS else -FDT_ERR_ALIGNMENT)
      (segments start blobs) (initWalkState (initHandleData start)) with ⟨w, hw, -⟩ | ⟨-, hsame⟩
    · exact absurd hw (hends w)
    · exact hsame.symm

/-- Behind the walk a call prints what was selected, and gives it to the client. -/
theorem dtSelectOpen_walked {env : Env} {a : OpenArgs} {prop : ChipPlatInfo}
    (hgiven : a.Input_chip_plat_info_prop = some prop)
    (haccepted : ¬(a.dtbs_image_start_address = 0 ∨ (a.Input_prop_list.isSome ∧ a.prop_num_entries = 0) ∨
      (a.Input_prop_list.isNone ∧ a.prop_num_entries ≠ 0))) (halloc : env.alloc .handle HANDLE_SIZE ≠ 0)
    (hprinted : (printInputParameters env (a.input prop).prop_list).val = .ok SUCCESS) {r : Int × Option Opened} :
    (dtSelectOpen env a).val = .ok r ↔ ∃ status w,
      (selectDtbAndDtbos env (a.input prop) (initHandleData a.dtbs_image_start_address)).val = .ok (status, w) ∧
        ((status ≠ SUCCESS ∧ r = (status, none)) ∨ status = SUCCESS ∧ ∃ printed,
          (printSelectedDtbDtbos env (a.input prop) w.handle).val = .ok printed ∧
            r = if printed ≠ SUCCESS then (printed, none) else
              (SUCCESS, some ⟨w.handle, w.handle.base_dtb_size, w.handle.soc_dtbo_size,
                w.handle.plat_dtbo_size⟩)) := by
  unfold dtSelectOpen openHandle
  rw [hgiven]
  simp only
  rw [if_neg haccepted, Traced.val_bind, val_malloc]
  simp only
  rw [if_neg halloc, Traced.val_bind, Traced.val_bind, hprinted]
  simp only
  rw [if_neg (by decide), Traced.val_bind]
  cases (selectDtbAndDtbos env (a.input prop) (initHandleData a.dtbs_image_start_address)).val with
  | error fault => exact ⟨nofun, fun ⟨_, _, h, _⟩ => nomatch h⟩
  | ok x =>
    obtain ⟨status, w⟩ := x
    simp only [Except.ok.injEq, Prod.mk.injEq]
    by_cases hs : status ≠ SUCCESS
    · rw [if_pos hs, Traced.val_pure]
      simp only
      rw [if_pos hs, Traced.val_bind, val_free]
      constructor
      · intro h
        exact ⟨status, w, ⟨rfl, rfl⟩, Or.inl ⟨hs, (Except.ok.inj h).symm⟩⟩
      · rintro ⟨_, _, ⟨rfl, rfl⟩, ⟨-, rfl⟩ | ⟨h, -⟩⟩
        · rfl
        · exact absurd h hs
    · rw [if_neg hs, Traced.val_bind]
      constructor
      · intro h
        cases hp : (printSelectedDtbDtbos env (a.input prop) w.handle).val with
        | error fault => rw [hp] at h; cases h
        | ok printed =>
          refine ⟨status, w, ⟨rfl, rfl⟩, Or.inr ⟨not_not.mp hs, printed, hp, ?_⟩⟩
          rw [hp] at h
          simp only [Traced.val_pure] at h
          by_cases hok : printed ≠ SUCCESS
          · rw [if_pos hok, Traced.val_bind, val_free] at h
            rw [if_pos hok]
            exact (Except.ok.inj h).symm
          · rw [if_neg hok] at h ⊢
            exact (Except.ok.inj h).symm
      · rintro ⟨_, _, ⟨rfl, rfl⟩, ⟨h, -⟩ | ⟨-, printed, hp, rfl⟩⟩
        · exact absurd h hs
        · rw [hp]
          simp only [Traced.val_pure]
          by_cases hok : printed ≠ SUCCESS
          · rw [if_pos hok, if_pos hok, Traced.val_bind, val_free]
            rfl
          · rw [if_neg hok, if_neg hok]
            rfl

/-- The blobs of the handle stand at aligned addresses. -/
theorem selected_aligned {env : Env} {inp : HandleInput} {start : Nat} {w : WalkState}
    (h : (selectDtbAndDtbos env inp (initHandleData start)).val = .ok (SUCCESS, w)) (type : BlobType) :
    (blobAt env.mem (w.handle.blob type).1).addr % 8 = 0 := by
  rcases (walk_inv h).pairs _ (Get.mem_pairs w.handle type) with hz | hv
  · rw [Segment.mk.injEq] at hz
    rw [hz.1, blobAt_addr]
  · exact ((checkHeader_eq_zero _).mp (Get.walk_headers h _ hv)).aligned

/-- Behind the last blob the call without the size is refused, and the one with it is not. -/
theorem modes_differ {env : Env} {a : OpenArgs} {blobs : List (List UInt8)} {prop : ChipPlatInfo}
    (hrow : Rowed env a.dtbs_image_start_address blobs) (hprop : a.Input_chip_plat_info_prop = some prop)
    (hunit : ¬blobs.flatten.length % 8 = 0) (hpasses : PassesBlobs env a prop blobs) :
    ¬ModesAgree env a blobs.flatten.length := by
  obtain ⟨haccepted, hallocated, hprinted, w, hw⟩ := hpasses
  have halloc : env.alloc .handle HANDLE_SIZE ≠ 0 := fun h0 => hallocated (congrArg Except.ok h0)
  have hne : -FDT_ERR_ALIGNMENT ≠ SUCCESS := by decide
  have hsized : (selectDtbAndDtbos env { a.input prop with dtbs_image_size := blobs.flatten.length }
      (initHandleData a.dtbs_image_start_address)).val = .ok (SUCCESS, w) := by
    rw [selectDtbAndDtbos_eq, row_sized hrow rfl]
    simp only [examineAll_size]
    exact hw
  have hunsized : (selectDtbAndDtbos env { a.input prop with dtbs_image_size := 0 }
      (initHandleData a.dtbs_image_start_address)).val = .ok (-FDT_ERR_ALIGNMENT, w) := by
    rw [selectDtbAndDtbos_eq, row_unsized hrow rfl, if_neg hunit]
    simp only [examineAll_size]
    rcases examineAll_status env (a.input prop) (-FDT_ERR_ALIGNMENT) (segments a.dtbs_image_start_address blobs)
      (initWalkState (initHandleData a.dtbs_image_start_address)) with ⟨w', hw', hend⟩ | ⟨hnone, -⟩
    · cases hw.symm.trans hw'
      exact hend
    · exact absurd hw (hnone w)
  have hrefused := (dtSelectOpen_walked (a := { a with dtbs_image_size := 0 }) hprop haccepted halloc hprinted).mpr
    ⟨_, w, hunsized, Or.inl ⟨hne, rfl⟩⟩
  intro hagree
  obtain ⟨status, w', h, hwalk⟩ := (dtSelectOpen_walked
    (a := { a with dtbs_image_size := blobs.flatten.length }) hprop haccepted
    halloc hprinted).mp (hagree.trans hrefused)
  rcases hwalk with ⟨hst, -⟩ | ⟨rfl, printed, hp, hr⟩
  · exact hst (Prod.mk.inj (Except.ok.inj (h.symm.trans hsized))).1
  · split at hr
    · have hprinted := printSelectedDtbDtbos_status _ _ (selected_aligned h) _ hp
      exact hprinted (Prod.mk.inj hr).1.symm
    · exact hne (Prod.mk.inj hr).1

/-- The call answers the same with and without the size exactly when the length of
the image is a multiple of 8, or the call does not get behind the last blob. -/
theorem modes_exact (env : Env) (a : OpenArgs) (blobs : List (List UInt8))
    (hrow : Rowed env a.dtbs_image_start_address blobs) :
    ModesAgree env a blobs.flatten.length ↔ blobs.flatten.length % 8 = 0 ∨
      ∀ prop, a.Input_chip_plat_info_prop = some prop → ¬PassesBlobs env a prop blobs := by
  constructor
  · intro hagree
    by_cases hunit : blobs.flatten.length % 8 = 0
    · exact Or.inl hunit
    · exact Or.inr fun prop hprop hpasses => modes_differ hrow hprop hunit hpasses hagree
  · intro hends
    unfold ModesAgree dtSelectOpen
    cases hprop : a.Input_chip_plat_info_prop with
    | none => rfl
    | some prop =>
      refine Traced.val_ite_congr (fun _ => rfl) fun haccepted => Traced.val_bind_congr rfl fun ptr hptr => ?_
      refine Traced.val_ite_congr (fun _ => rfl) fun hallocated => Traced.val_bind_congr ?_ fun _ _ => rfl
      unfold openHandle
      refine Traced.val_bind_congr rfl fun status hstatus => Traced.val_ite_congr (fun _ => rfl) fun hprinted => ?_
      refine Traced.val_bind_congr (select_agrees (a.input prop) hrow (hends.imp id fun h w hw => ?_)) fun _ _ => rfl
      refine h prop hprop ⟨haccepted, fun h0 => hallocated ?_, ?_, w, hw⟩
      · exact Except.ok.inj (hptr.symm.trans h0)
      · rw [← not_not.mp hprinted]
        exact hstatus

/-- One base tree of any size. -/
def rowEnv (slack : Nat) : Env := imageEnv 0x1000 [baseBlob [] slack] false

/-- The arguments of a call for the image at 0x1000. -/
def rowArgs : OpenArgs where
  dtbs_image_start_address := 0x1000
  dtbs_image_size := 0
  Input_chip_plat_info_prop := some imageProp
  Input_prop_list := none
  prop_num_entries := 0

theorem row_of_one (slack : Nat) (h : checkHeader (blobAt (rowEnv slack).mem 0x1000) = 0 ∧
      totalsize (blobAt (rowEnv slack).mem 0x1000) = (baseBlob [] slack).length)
    (hlt : 0x1000 + [baseBlob [] slack].flatten.length < 2 ^ 64)
    (hboard : 0 ≤ pathOffset (blobAt (rowEnv slack).mem 0x1000) ROOT_NODE)
    (hbehind : magic (blobAt (rowEnv slack).mem (0x1000 + [baseBlob [] slack].flatten.length)) ≠ FDT_MAGIC) :
    Rowed (rowEnv slack) 0x1000 [baseBlob [] slack] := by
  refine ⟨nofun, ⟨by decide, by decide, hlt⟩, fun s hs => ?_, fun s hs => ?_, hbehind⟩
  · rw [List.mem_singleton.mp hs]
    exact h
  · rw [List.mem_singleton.mp hs]
    exact hboard

theorem modes_exact_base : ModesAgree (rowEnv 6) rowArgs [baseBlob [] 6].flatten.length :=
  (modes_exact _ _ _ (row_of_one 6 (by decide +kernel) (by decide +kernel) (by decide +kernel)
  (by decide +kernel))).mpr
    (Or.inl (by decide +kernel))

/-- Behind a blob of 127 bytes the header check refuses the address. -/
theorem unaligned_end_refused : ¬∀ (env : Env) (a : OpenArgs) (blobs : List (List UInt8)),
    Rowed env a.dtbs_image_start_address blobs → ModesAgree env a blobs.flatten.length := by
  intro h
  have hsame := h (rowEnv 5) rowArgs [baseBlob [] 5]
    (row_of_one 5 (by decide +kernel) (by decide +kernel) (by decide +kernel) (by decide +kernel))
  have hunsized : (dtSelectOpen (rowEnv 5) { rowArgs with dtbs_image_size := 0 }).val =
      .ok (-FDT_ERR_ALIGNMENT, none) := by
    decide +kernel
  have hsized : (dtSelectOpen (rowEnv 5) { rowArgs with dtbs_image_size := [baseBlob [] 5].flatten.length }).val ≠
      .ok (-FDT_ERR_ALIGNMENT, none) := by
    decide +kernel
  exact hsized (hsame.trans hunsized)

end DTFramework.Select
