import DTFramework.Select.Open
import DTFramework.Select.CandidateSpec
import DTFramework.Select.Halts
import DTFramework.Select.Image

/-!
# Soundness of the walk

The blobs the walk visits follow one another without a gap (`WalkInv`), each as
long as its header says, and what it selects it has visited. With the size of
the image given, a walk that succeeds has gone through all of it.

Results:

* `walk_inv`: the invariant at the end of every walk that succeeds;
* `walk_terminates_and_tiles`: the walk ends, and with the size of the image
  given the visited blobs tile it.
-/
namespace DTFramework.Select

open DTFramework.Fdt DTFramework.Extn DTFramework.Lib

/-! ## What is selected -/

/-- The pointer and size pairs of the handle. -/
def HandleData.pairs (h : HandleData) : List Segment :=
  [⟨h.base_dtb_ptr, h.base_dtb_size⟩, ⟨h.soc_dtbo_ptr, h.soc_dtbo_size⟩, ⟨h.plat_dtbo_ptr, h.plat_dtbo_size⟩]

/-- The segment an entry's blob takes. -/
def HandleEntry.segment (e : HandleEntry) : Segment := ⟨e.node.blob, e.device_tree_blob_size⟩

theorem HandleEntry.Frame.segment {e e' : HandleEntry} (h : e.Frame e') : e'.segment = e.segment := by
  unfold HandleEntry.segment; rw [h.node, h.size]

theorem validateAndSelectBaseDtb_frame (h : HandleData) (e : HandleEntry) :
    e.Frame (validateAndSelectBaseDtb h e).2 := by
  unfold validateAndSelectBaseDtb
  simp only
  split
  · exact (INVALID_CANDIDATE_frame e).trans (VALID_CANDIDATE_frame _)
  · exact INVALID_CANDIDATE_frame e

theorem validateAndSelectSocDtbo_segment (inp : HandleInput) (soc : SelectedDtbo) (e : HandleEntry) :
    (validateAndSelectSocDtbo inp soc e).2.segment = e.segment := by
  unfold validateAndSelectSocDtbo
  simp only
  repeat' split
  all_goals rfl

theorem platformDtboVersionCheck_segment (inp : HandleInput) (plat : SelectedDtbo) (e : HandleEntry) :
    (platformDtboVersionCheck inp plat e).2.segment = e.segment := by
  unfold platformDtboVersionCheck
  simp only
  repeat' split
  all_goals rfl

theorem rankPlatformDtbo_segment (inp : HandleInput) (plat : SelectedDtbo) (e : HandleEntry) :
    (rankPlatformDtbo inp plat e).2.segment = e.segment := by
  unfold rankPlatformDtbo
  simp only
  split
  · rfl
  · split
    · rfl
    · split <;> exact platformDtboVersionCheck_segment inp plat _

theorem validateAndSelectPlatformDtbo_segment (env : Env) (inp : HandleInput) (plat : SelectedDtbo)
    (e : HandleEntry) :
    (validateAndSelectPlatformDtbo env inp plat e).Ensures fun r => r.2.segment = e.segment := by
  unfold validateAndSelectPlatformDtbo
  simp only [Traced.ensures_ite, Traced.ensures_pure, Traced.ensures_bind]
  refine ⟨fun _ => rfl, fun _ => (validateOemVariant_frame env inp _).mono fun r hr => ?_⟩
  have h : r.2.segment = e.segment := hr.segment
  exact ⟨fun _ => h, fun _ => ⟨fun _ => h, fun _ => (rankPlatformDtbo_segment inp plat r.2).trans h⟩⟩

/-- Selecting an entry keeps the pairs or stores the pair of the entry. -/
theorem selectEntry_pairs (env : Env) (inp : HandleInput) (w : WalkState) (e : HandleEntry) :
    (selectEntry env inp w e).Ensures fun w' =>
      ∀ s ∈ w'.handle.pairs, s ∈ w.handle.pairs ∨ s = e.segment := by
  unfold selectEntry
  split
  · rw [Traced.ensures_pure]
    split
    · have hs := (validateAndSelectBaseDtb_frame w.handle e).segment
      intro s hmem
      simp only [WalkState.keepBase, HandleData.pairs, List.mem_cons, List.not_mem_nil, or_false] at hmem ⊢
      rcases hmem with rfl | rfl | rfl
      · exact Or.inr hs
      all_goals simp
    · exact fun s hs => Or.inl hs
  · rw [Traced.ensures_pure]
    split
    · have hs := validateAndSelectSocDtbo_segment inp w.soc_dtbo_selected e
      intro s hmem
      simp only [WalkState.keepSoc, HandleData.pairs, List.mem_cons, List.not_mem_nil, or_false] at hmem ⊢
      rcases hmem with rfl | rfl | rfl
      · simp
      · exact Or.inr hs
      · simp
    · exact fun s hs => Or.inl hs
  · rw [Traced.ensures_bind]
    refine (validateAndSelectPlatformDtbo_segment env inp w.platform_dtbo_selected e).mono fun r hr => ?_
    rw [Traced.ensures_pure]
    split
    · intro s hmem
      simp only [WalkState.keepPlatform, HandleData.pairs, List.mem_cons, List.not_mem_nil, or_false] at hmem ⊢
      rcases hmem with rfl | rfl | rfl
      · simp
      · simp
      · exact Or.inr hr
    · exact fun s hs => Or.inl hs

theorem examineEntry_pairs (env : Env) (inp : HandleInput) (w : WalkState) (e : HandleEntry) :
    (examineEntry env inp w e).Ensures fun r =>
      ∀ s ∈ r.2.handle.pairs, s ∈ w.handle.pairs ∨ s = e.segment := by
  have keep : ∀ s ∈ w.handle.pairs, s ∈ w.handle.pairs ∨ s = e.segment := fun s hs => Or.inl hs
  unfold examineEntry
  simp only [Traced.ensures_ite, Traced.ensures_pure, Traced.ensures_bind]
  refine (isItDtbDtboCandidate_frame env inp e).mono fun r hr => ⟨fun _ => keep, fun _ => ⟨fun _ => keep, fun _ => ?_⟩⟩
  refine (selectEntry_pairs env inp w _).mono fun w' hw => ?_
  have hseg : (INVALID_CANDIDATE r.2).segment = e.segment := hr.segment
  rw [hseg] at hw
  exact hw

/-- So does examining a blob. -/
theorem examineBlob_pairs (env : Env) (inp : HandleInput) (w : WalkState) (e : HandleEntry) :
    (examineBlob env inp w e).Ensures fun r =>
      ∀ s ∈ r.2.handle.pairs, s ∈ w.handle.pairs ∨ s = e.segment := by
  have keep : ∀ s ∈ w.handle.pairs, s ∈ w.handle.pairs ∨ s = e.segment := fun s hs => Or.inl hs
  unfold examineBlob
  simp only [Traced.ensures_ite, Traced.ensures_pure, Traced.ensures_bind]
  exact ⟨fun _ => keep, fun _ status _ => ⟨fun _ => keep, fun _ => examineEntry_pairs env inp w _⟩⟩

/-! ## The invariant -/

/-- The state of a walk that began at `start`. -/
structure WalkInv (env : Env) (start : Nat) (w : WalkState) : Prop where
  start_eq : w.handle.dtbs_image_start_address = start
  tiles : Tiles start w.visited w.fdtheader
  sizes : ∀ s ∈ w.visited, s.size = totalsize (blobAt env.mem s.addr)
  pairs : ∀ s ∈ w.handle.pairs, s = ⟨0, 0⟩ ∨ s ∈ w.visited

theorem initWalkState_inv (env : Env) (start : Nat) : WalkInv env start (initWalkState (initHandleData start)) where
  start_eq := rfl
  tiles := .nil start
  sizes := fun _ h => nomatch h
  pairs := by simp [initWalkState, initHandleData, HandleData.pairs]

/-- One turn keeps the invariant. -/
theorem walkStep_inv {env : Env} {inp : HandleInput} {start : Nat} {w w' : WalkState} (hi : WalkInv env start w)
    (h : (walkStep env inp w).val = .ok (.inl w')) : WalkInv env start w' := by
  obtain ⟨w1, hend, hx, rfl⟩ := walkStep_next h
  obtain ⟨-, -, hc, -, -⟩ := accepted_entry hend
  have hadv := walkStep_advance h
  have hf := examineBlob_frame _ _ _ _ _ hx
  have hp := examineBlob_pairs _ _ _ _ _ hx
  have hpos := totalsize_pos_of_check hc
  have hlt := totalsize_lt (blobAt env.mem w.fdtheader)
  have hnext : (w1.advance (totalsize (blobAt env.mem w.fdtheader))).fdtheader =
      w.fdtheader + totalsize (blobAt env.mem w.fdtheader) := by
    have h1 : w1.fdtheader = w.fdtheader := hf.fdtheader
    simp only [WalkState.advance, h1] at hadv ⊢
    omega
  have hv : w1.visited = w.visited ++ [⟨w.fdtheader, totalsize (blobAt env.mem w.fdtheader)⟩] := hf.visited
  refine ⟨hf.start.trans hi.start_eq, ?_, ?_, ?_⟩
  · rw [hnext]
    show Tiles start w1.visited _
    rw [hv]
    exact hi.tiles.snoc hpos
  · intro s hs
    change s ∈ w1.visited at hs
    rw [hv, List.mem_append] at hs
    rcases hs with hs | hs
    · exact hi.sizes s hs
    · rw [List.mem_singleton.mp hs]
  · intro s hs
    show s = ⟨0, 0⟩ ∨ s ∈ w1.visited
    rw [hv, List.mem_append]
    rcases hp s hs with hs | rfl
    · exact (hi.pairs s hs).imp_right Or.inl
    · exact Or.inr (Or.inr (List.mem_singleton.mpr rfl))

/-- How a walk ends with `SUCCESS`: at a header that is the end of the image. -/
theorem walkStep_success {env : Env} {inp : HandleInput} {w w' : WalkState}
    (h : (walkStep env inp w).val = .ok (.inr (SUCCESS, w'))) :
    w' = w ∧ ∃ e, isFdtheaderAtEndOfImage env inp w.handle.dtbs_image_start_address w.fdtheader
      initHandleEntry = (SUCCESS, e, true) := by
  rw [walkStep_eq] at h
  split at h
  rename_i status e at_end hend
  split at h
  · rename_i hs
    cases h
    exact absurd rfl hs
  · rename_i hs
    rw [not_not] at hs
    subst hs
    split at h
    · rename_i hat
      cases h
      exact ⟨rfl, e, by rw [hend, hat]⟩
    · split at h
      · cases h
      · split at h
        · rename_i hs
          cases h
          exact absurd rfl hs
        · cases h

/-- A walk that succeeds keeps the invariant to its end, with whatever else its
turns preserve. -/
theorem walk_end {env : Env} {inp : HandleInput} {start : Nat} {w : WalkState} (I : WalkState → Prop)
    (hstep : ∀ w w', WalkInv env start w → I w → (walkStep env inp w).val = .ok (.inl w') → I w')
    (hI : I (initWalkState (initHandleData start)))
    (h : (selectDtbAndDtbos env inp (initHandleData start)).val = .ok (SUCCESS, w)) :
    start ≠ 0 ∧ WalkInv env start w ∧ I w ∧
      ∃ e, isFdtheaderAtEndOfImage env inp start w.fdtheader initHandleEntry = (SUCCESS, e, true) := by
  unfold selectDtbAndDtbos at h
  split at h
  · cases h
  · rename_i h0
    obtain ⟨w', ⟨hi, hI⟩, hend⟩ := Traced.loop_induct (fun w => WalkInv env start w ∧ I w)
      (fun w w' hw hs => ⟨walkStep_inv hw.1 hs, hstep w w' hw.1 hw.2 hs⟩) _
      ⟨initWalkState_inv env start, hI⟩ h
    obtain ⟨rfl, e, he⟩ := walkStep_success hend
    rw [hi.start_eq] at he
    exact ⟨h0, hi, hI, e, he⟩

theorem walk_inv {env : Env} {inp : HandleInput} {start : Nat} {w : WalkState}
    (h : (selectDtbAndDtbos env inp (initHandleData start)).val = .ok (SUCCESS, w)) : WalkInv env start w :=
  (walk_end (fun _ => True) (fun _ _ _ _ _ => trivial) trivial h).2.1

/-! ## The whole image -/

theorem end_ge {env : Env} {inp : HandleInput} {start p : Nat} {e : HandleEntry} (h0 : start ≠ 0)
    (hp : start ≤ p) (hs : inp.dtbs_image_size ≠ 0) (hn : start + inp.dtbs_image_size < 2 ^ 64)
    (he : isFdtheaderAtEndOfImage env inp start p initHandleEntry = (SUCCESS, e, true)) :
    start + inp.dtbs_image_size ≤ p := by
  rw [isFdtheaderAtEndOfImage_eq (by omega) h0, if_pos hs, endOfSizedImage_eq (by omega) hn hp] at he
  by_contra hc
  rw [if_neg hc] at he
  split at he
  · rename_i hh
    rw [Prod.mk.injEq] at he
    exact hh he.1
  · split at he
    · split at he <;> cases he
    · cases he

/-- Every turn of a walk over an image of the given size stays in the image. -/
theorem walkStep_le {env : Env} {inp : HandleInput} {start : Nat} {w w' : WalkState} (hi : WalkInv env start w)
    (hs : inp.dtbs_image_size ≠ 0) (hn : start + inp.dtbs_image_size < 2 ^ 64)
    (h : (walkStep env inp w).val = .ok (.inl w')) : w'.fdtheader ≤ start + inp.dtbs_image_size := by
  obtain ⟨w1, hend, hx, rfl⟩ := walkStep_next h
  have hle := hi.tiles.le
  obtain ⟨hp, h0, -, -, -⟩ := accepted_entry hend
  rw [hi.start_eq] at hend h0
  rw [isFdtheaderAtEndOfImage_eq hp h0, if_pos hs, endOfSizedImage_eq hp hn hle] at hend
  have hf : w1.fdtheader = w.fdtheader := (examineBlob_frame _ _ _ _ _ hx).fdtheader
  have hlast := congrArg (·.2.2) hend
  simp only [WalkState.advance, hf]
  simp only at hlast
  split at hlast
  · cases hlast
  · split at hlast
    · cases hlast
    · split at hlast
      · cases hlast
      · omega

/-- A walk that succeeds on an image of the given size visits all of it. -/
theorem walk_tiles {env : Env} {inp : HandleInput} {start : Nat} {w : WalkState}
    (hs : inp.dtbs_image_size ≠ 0) (hn : start + inp.dtbs_image_size < 2 ^ 64)
    (h : (selectDtbAndDtbos env inp (initHandleData start)).val = .ok (SUCCESS, w)) :
    Tiles start w.visited (start + inp.dtbs_image_size) := by
  obtain ⟨h0, hi, hle, e, he⟩ := walk_end (fun w => w.fdtheader ≤ start + inp.dtbs_image_size)
    (fun w w' hi _ hstep => walkStep_le hi hs hn hstep) (Nat.le_add_right _ _) h
  have := end_ge h0 hi.tiles.le hs hn he
  rw [show start + inp.dtbs_image_size = w.fdtheader by omega]
  exact hi.tiles

/-- The loop of `_select_dtb_and_dtbos` terminates for every image, and nothing
it calls loops in a build without logging. If the client gives the size of the
image and the walk succeeds, the visited blobs tile the image, each as long as
its header says, and every pair of the handle that is not zero is one of them. -/
theorem walk_terminates_and_tiles (env : Env) (inp : HandleInput) (start : Nat) :
    (∀ run : Nat → WalkState, ¬∀ n, (walkStep env inp (run n)).val = .ok (.inl (run (n + 1)))) ∧
    (env.logging = false → (selectDtbAndDtbos env inp (initHandleData start)).val ≠ .error .diverge) ∧
    ∀ w, inp.dtbs_image_size ≠ 0 → start + inp.dtbs_image_size < 2 ^ 64 →
      (selectDtbAndDtbos env inp (initHandleData start)).val = .ok (SUCCESS, w) →
      Tiles start w.visited (start + inp.dtbs_image_size) ∧
      w.visited.Pairwise (fun s t => s.addr + s.size ≤ t.addr) ∧
      (∀ s ∈ w.visited, s.size = totalsize (blobAt env.mem s.addr)) ∧
      ∀ s ∈ w.handle.pairs, s = ⟨0, 0⟩ ∨
        (s ∈ w.visited ∧ start ≤ s.addr ∧ s.addr + s.size ≤ start + inp.dtbs_image_size) := by
  refine ⟨Traced.no_endless_run (fun w => 2 ^ 64 - w.fdtheader) fun w w' h => ?_, fun hl h =>
    selectDtbAndDtbos_halts hl inp _ _ h rfl, fun w hs hn h => ?_⟩
  · have := walkStep_advance h
    omega
  · have hi := walk_inv h
    have ht := walk_tiles hs hn h
    refine ⟨ht, ht.pairwise, hi.sizes, fun s hmem => (hi.pairs s hmem).imp_right fun hv => ?_⟩
    have := ht.mem_bounds hv
    exact ⟨hv, this.1, this.2.2⟩

/-- The end of the walk over three blobs of 128, 152 and 176 bytes. -/
def sampleWalk : WalkState :=
  ⟨0x11c8, ⟨0x1000, 0x1000, 128, 0x1080, 152, 0x1118, 176⟩, ⟨0, 152, 0x10000, 0⟩, ⟨0, 176, 0x10000, 0x100⟩,
    [⟨0x1000, 128⟩, ⟨0x1080, 152⟩, ⟨0x1118, 176⟩]⟩

theorem sampleWalk_run : (selectDtbAndDtbos (imageEnv 0x1000 [baseBlob [] 6, socBlob [] 7, platBlob [] 4] false)
    (initHandleInput 456 imageProp []) (initHandleData 0x1000)).val = .ok (SUCCESS, sampleWalk) := by
  decide +kernel

/-- Three blobs of 128, 152 and 176 bytes. -/
theorem walk_terminates_and_tiles_image : ∃ w,
    (selectDtbAndDtbos (imageEnv 0x1000 [baseBlob [] 6, socBlob [] 7, platBlob [] 4] false)
      (initHandleInput 456 imageProp []) (initHandleData 0x1000)).val = .ok (SUCCESS, w) ∧
    Tiles 0x1000 w.visited (0x1000 + 456) :=
  ⟨sampleWalk, sampleWalk_run, ((walk_terminates_and_tiles _ _ _).2.2 _ (by decide) (by decide) sampleWalk_run).1⟩

end DTFramework.Select
