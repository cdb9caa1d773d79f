import DTFramework.Get.Relocate
import DTFramework.Select.Headers
import DTFramework.Select.Range

/-!
# Blobs laid back to back

The next header is looked for right behind a blob, and a header is accepted at an
8-byte aligned address only. The walk over a plain concatenation of blobs examines
each of them exactly when every blob but the last fills whole units of 8 bytes and
does not end the walk by its own examination.

Results:

* `examineBlob_passes`: when the examination of a blob lets the walk go on. It does
  not depend on what was selected before;
* `considers_cons`: what one turn does to a row of blobs;
* `considers_laid`: the walk from a header inside a concatenation;
* `layout_exact`: the walk over a whole image.
-/
namespace DTFramework.Select

open DTFramework.Fdt DTFramework.Extn DTFramework.Lib

/-- The bytes are in memory at `p`. -/
def Holds (m : Mem) (p : Nat) (bytes : List UInt8) : Prop := ∀ i (h : i < bytes.length), m (p + i) = bytes[i]

/-- A blob that passes the header check wherever it is placed at an aligned
address. -/
def Placeable (blob : List UInt8) : Prop := ∀ (m : Mem) (p : Nat), p % 8 = 0 → Holds m p blob →
  checkHeader (blobAt m p) = 0 ∧ totalsize (blobAt m p) = blob.length

/-- Where the blobs are when they stand back to back from `p` on. -/
def segments (p : Nat) : List (List UInt8) → List Segment
  | [] => []
  | b :: l => ⟨p, b.length⟩ :: segments (p + b.length) l

/-- An image that is the concatenation of blobs, with its exact size. -/
structure Laid (env : Env) (inp : HandleInput) (start : Nat) (blobs : List (List UInt8)) : Prop where
  address : start ≠ 0 ∧ start % 8 = 0 ∧ start + blobs.flatten.length < 2 ^ 64
  bytes : Holds env.mem start blobs.flatten
  placeable : ∀ b ∈ blobs, Placeable b
  size : inp.dtbs_image_size = blobs.flatten.length

/-- The end test accepts the header of this blob at `w`, and the turn examines the
blob. -/
structure Examines (env : Env) (inp : HandleInput) (w : WalkState) (s : Segment) : Prop where
  header : w.fdtheader = s.addr
  accepted : isFdtheaderAtEndOfImage env inp w.handle.dtbs_image_start_address w.fdtheader initHandleEntry =
    (SUCCESS, acceptedEntry s.addr s.size, false)
  turn : walkStep env inp w = (do
    let (status, w1) ← examineBlob env inp (w.visit s.size) (acceptedEntry s.addr s.size)
    if status ≠ SUCCESS then return .inr (status, w1) else return .inl (w1.advance s.size))

/-- The end test finds the end of the image. -/
def Ends (env : Env) (inp : HandleInput) (w : WalkState) : Prop :=
  ∃ e, isFdtheaderAtEndOfImage env inp w.handle.dtbs_image_start_address w.fdtheader initHandleEntry =
    (SUCCESS, e, true)

/-- From the header of `w` on each of the blobs is examined, and the walk comes to
no header but theirs and the end of the image: none is refused. -/
structure Considers (env : Env) (inp : HandleInput) (w : WalkState) (blobs : List (List UInt8)) : Prop where
  examined : ∀ s ∈ segments w.fdtheader blobs, ∃ t, Traced.Reaches (walkStep env inp) w t ∧ Examines env inp t s
  unrefused : ∀ t, Traced.Reaches (walkStep env inp) w t →
    (∃ s ∈ segments w.fdtheader blobs, Examines env inp t s) ∨ Ends env inp t

/-- The walk over the image considers every blob. -/
def Considered (env : Env) (inp : HandleInput) (start : Nat) (blobs : List (List UInt8)) : Prop :=
  start ≠ 0 ∧ Considers env inp (initWalkState (initHandleData start)) blobs

/-- A blob lets the walk go on: its board-id node is found and, where logging is
built in, printed, and the filter comes to an answer. -/
structure Passes (env : Env) (inp : HandleInput) (s : Segment) : Prop where
  node : 0 ≤ pathOffset (blobAt env.mem s.addr) ROOT_NODE
  logged : (logEntry env inp s.addr).val = .ok SUCCESS
  filtered : ∃ e, (isItDtbDtboCandidate env inp
    ((acceptedEntry s.addr s.size).atNode (pathOffset (blobAt env.mem s.addr) ROOT_NODE))).val = .ok (SUCCESS, e)

/-- Every blob stands between the first and what is behind the last. -/
theorem segments_bounds (blobs : List (List UInt8)) {p : Nat} {s : Segment} (hs : s ∈ segments p blobs) :
    p ≤ s.addr ∧ s.addr + s.size ≤ p + blobs.flatten.length := by
  induction blobs generalizing p with
  | nil => cases hs
  | cons b rest ih =>
    rw [List.flatten_cons, List.length_append]
    rcases List.mem_cons.mp hs with rfl | hs
    · exact ⟨Nat.le_refl _, by simp only; omega⟩
    · have := ih hs
      omega

theorem holds_append {m : Mem} {p : Nat} {a b : List UInt8} (h : Holds m p (a ++ b)) :
    Holds m p a ∧ Holds m (p + a.length) b := by
  refine ⟨fun i hi => ?_, fun i hi => ?_⟩
  · have := h i (by rw [List.length_append]; omega)
    rwa [List.getElem_append_left hi] at this
  · have := h (a.length + i) (by rw [List.length_append]; omega)
    rw [List.getElem_append_right (by omega)] at this
    simpa [Nat.add_assoc] using this

theorem holds_memOf (p : Nat) (b : List UInt8) : Holds (memOf p b) p b := by
  intro i hi
  unfold memOf
  rw [if_neg (by omega), Nat.add_sub_cancel_left, List.getD_eq_getElem?_getD, List.getElem?_eq_getElem hi]
  rfl

theorem Placeable.length_pos {b : List UInt8} (h : Placeable b) : 0 < b.length := by
  obtain ⟨hcheck, htotal⟩ := h (memOf 8 b) 8 (by decide) (holds_memOf 8 b)
  rw [← htotal]
  exact totalsize_pos_of_check hcheck

section
variable {env : Env} {inp : HandleInput} {start p : Nat}

/-- A header inside the image is accepted where it is aligned, and refused with the
error of the check where it is not. -/
theorem laid_header {b : List UInt8} (hstart : start ≠ 0) (hle : start ≤ p) (hsize : inp.dtbs_image_size ≠ 0)
    (hn : start + inp.dtbs_image_size < 2 ^ 64) (hb : Placeable b) (hbytes : Holds env.mem p b)
    (hend : p + b.length ≤ start + inp.dtbs_image_size) :
    (p % 8 = 0 → isFdtheaderAtEndOfImage env inp start p initHandleEntry =
    (SUCCESS, acceptedEntry p b.length, false)) ∧
      (p % 8 ≠ 0 → isFdtheaderAtEndOfImage env inp start p initHandleEntry =
      (-FDT_ERR_ALIGNMENT, entryAt p, true)) := by
  have hp : p ≠ 0 := by omega
  have hpos := hb.length_pos
  rw [isFdtheaderAtEndOfImage_eq hp hstart, if_pos hsize, endOfSizedImage_eq hp hn hle]
  simp only
  rw [if_neg (by omega)]
  refine ⟨fun halign => ?_, fun halign => ?_⟩
  · obtain ⟨hcheck, htotal⟩ := hb env.mem p halign hbytes
    rw [if_neg (not_not.mpr hcheck), htotal, if_neg (by omega)]
  · rw [checkHeader_unaligned (blobAt env.mem p) halign, if_pos (by decide)]

/-- The image ends behind its last blob. -/
theorem laid_end (hstart : start ≠ 0) (hsize : inp.dtbs_image_size ≠ 0) (hn : start + inp.dtbs_image_size < 2 ^ 64) :
    isFdtheaderAtEndOfImage env inp start (start + inp.dtbs_image_size) initHandleEntry =
      (SUCCESS, entryAt (start + inp.dtbs_image_size), true) := by
  rw [isFdtheaderAtEndOfImage_eq (by omega) hstart, if_pos hsize, endOfSizedImage_eq (by omega) hn (by omega)]
  simp only
  rw [if_pos (Nat.le_refl _)]

theorem imageBlobs_behind (hstart : start ≠ 0) (hsize : inp.dtbs_image_size ≠ 0)
    (hn : start + inp.dtbs_image_size < 2 ^ 64) :
    imageBlobs env inp start (start + inp.dtbs_image_size) = ([], SUCCESS) :=
  imageBlobs_end (laid_end hstart hsize hn) (by decide)

/-! ## One turn -/

/-- What a turn does at an accepted header. -/
theorem examines_of_accepted {w : WalkState} {n : Nat}
    (h : isFdtheaderAtEndOfImage env inp w.handle.dtbs_image_start_address w.fdtheader initHandleEntry =
      (SUCCESS, acceptedEntry w.fdtheader n, false)) : Examines env inp w ⟨w.fdtheader, n⟩ := by
  refine ⟨rfl, h, ?_⟩
  unfold walkStep
  rw [h]
  rfl

/-- The walk goes on behind a blob that it examines when the examination succeeds. -/
theorem Examines.next_iff {w w' : WalkState} {s : Segment} (h : Examines env inp w s) :
    (walkStep env inp w).val = .ok (.inl w') ↔
      ∃ w1, (examineBlob env inp (w.visit s.size) (acceptedEntry s.addr s.size)).val = .ok (SUCCESS, w1) ∧
        w' = w1.advance s.size := by
  rw [h.turn, Traced.val_bind_ok]
  constructor
  · rintro ⟨⟨status, w1⟩, hw1, hnext⟩
    simp only at hnext
    split at hnext
    · cases hnext
    · rename_i hstatus
      rw [not_not] at hstatus
      subst hstatus
      cases hnext
      exact ⟨w1, hw1, rfl⟩
  · rintro ⟨w1, hw1, rfl⟩
    exact ⟨(SUCCESS, w1), hw1, rfl⟩

/-- Whether a blob lets the walk go on does not depend on what was selected before. -/
theorem examineBlob_passes {w : WalkState} {s : Segment} (hw : w.fdtheader = s.addr) :
    (∃ w1, (examineBlob env inp w (acceptedEntry s.addr s.size)).val = .ok (SUCCESS, w1)) ↔ Passes env inp s := by
  unfold examineBlob
  simp only [acceptedEntry_fdt, hw]
  by_cases hroot : pathOffset (blobAt env.mem s.addr) ROOT_NODE < 0
  · rw [if_pos hroot]
    refine ⟨fun ⟨w1, h⟩ => ?_, fun h => absurd h.node (by omega)⟩
    exact absurd (Prod.mk.inj (Except.ok.inj h)).1 (by decide)
  rw [if_neg hroot]
  constructor
  · rintro ⟨w1, h⟩
    obtain ⟨status, hlog, h⟩ := Traced.val_bind_ok.mp h
    by_cases hstatus : status ≠ SUCCESS
    · rw [if_pos hstatus] at h
      exact absurd (Prod.mk.inj (Except.ok.inj h)).1 hstatus
    · rw [if_neg hstatus] at h
      rw [not_not] at hstatus
      subst hstatus
      obtain ⟨⟨answer, e⟩, hfilter, h⟩ := Traced.val_bind_ok.mp h
      by_cases hanswer : answer = SUCCESS
      · exact ⟨Int.not_lt.mp hroot, hlog, e, hanswer ▸ hfilter⟩
      · simp only at h
        rw [if_pos hanswer] at h
        exact absurd (Prod.mk.inj (Except.ok.inj h)).1 hanswer
  · rintro ⟨-, hlog, e, hfilter⟩
    have hentry : ∃ w1, (examineEntry env inp w ((acceptedEntry s.addr s.size).atNode
        (pathOffset (blobAt env.mem s.addr) ROOT_NODE))).val = .ok (SUCCESS, w1) := by
      unfold examineEntry
      by_cases hcandidate : e.candidacy_status
      · -- the selection returns, and its status is not looked at
        cases hselect : (selectEntry env inp w (INVALID_CANDIDATE e)).val with
        | error fault => exact (selectEntry_returns env inp w _ _ hselect).elim
        | ok w1 => exact ⟨w1, by simp [hfilter, hcandidate, hselect]⟩
      · exact ⟨w, by simp [hfilter, hcandidate]⟩
    obtain ⟨w1, hw1⟩ := hentry
    exact ⟨w1, Traced.val_bind_ok.mpr ⟨SUCCESS, hlog, hw1⟩⟩

/-- What is reached behind a header is further on. -/
theorem reaches_fdtheader {w t : WalkState} (h : Traced.Reaches (walkStep env inp) w t) : w.fdtheader ≤ t.fdtheader :=
  h.induct (I := fun t => w.fdtheader ≤ t.fdtheader) (Nat.le_refl _) fun _ _ hle hnext =>
    Nat.le_trans hle (Nat.le_of_lt (walkStep_advance hnext).1)

/-- No blob is considered where the image ends. -/
theorem considers_end {w : WalkState} : Considers env inp w [] ↔ Ends env inp w := by
  constructor
  · intro h
    rcases h.unrefused w .start with ⟨s, hs, -⟩ | hends
    · cases hs
    · exact hends
  · rintro ⟨e, h⟩
    refine ⟨nofun, fun t ht => Or.inr ?_⟩
    rw [Traced.reaches_last fun t hnext => ?_] at ht
    · exact ht ▸ ⟨e, h⟩
    · rw [walkStep_eq, h] at hnext
      cases hnext

/-- Blobs are considered from an accepted header on when its blob lets the walk get
to the others, and these are considered behind it. -/
theorem considers_cons {w : WalkState} {b : List UInt8} {rest : List (List UInt8)} (hpos : 0 < b.length)
    (hlt : w.fdtheader + b.length < 2 ^ 64)
    (h : isFdtheaderAtEndOfImage env inp w.handle.dtbs_image_start_address w.fdtheader initHandleEntry =
      (SUCCESS, acceptedEntry w.fdtheader b.length, false)) :
    Considers env inp w (b :: rest) ↔ (rest ≠ [] → Passes env inp ⟨w.fdtheader, b.length⟩) ∧
      ∀ w', (walkStep env inp w).val = .ok (.inl w') → Considers env inp w' rest := by
  have hexamines := examines_of_accepted h
  have hadvance {w' : WalkState} (hnext : (walkStep env inp w).val = .ok (.inl w')) :
      w'.fdtheader = w.fdtheader + b.length := by
    obtain ⟨w1, hw1, rfl⟩ := hexamines.next_iff.mp hnext
    have hframe : w1.fdtheader = w.fdtheader := (examineBlob_frame _ _ _ _ _ hw1).fdtheader
    rw [WalkState.advance, hframe]
    exact Nat.mod_eq_of_lt hlt
  constructor
  · intro hall
    refine ⟨fun hrest => ?_, fun w' hnext => ⟨fun s hs => ?_, fun t ht => ?_⟩⟩
    · -- another blob is examined, so the walk goes on
      obtain ⟨c, l, rfl⟩ := List.exists_cons_of_ne_nil hrest
      obtain ⟨t, ht, hc⟩ := hall.examined ⟨w.fdtheader + b.length, c.length⟩ (by simp [segments])
      by_cases hnext : ∃ w', (walkStep env inp w).val = .ok (.inl w')
      · obtain ⟨w', hnext⟩ := hnext
        obtain ⟨w1, hw1, -⟩ := hexamines.next_iff.mp hnext
        exact (examineBlob_passes rfl).mp ⟨w1, hw1⟩
      · rw [Traced.reaches_last fun w' hw' => hnext ⟨w', hw'⟩] at ht
        have haddr := hc.header
        rw [ht] at haddr
        simp only at haddr
        omega
    · rw [hadvance hnext] at hs
      obtain ⟨t, ht, hc⟩ := hall.examined s (List.mem_cons_of_mem _ hs)
      rcases (Traced.reaches_next hnext).mp ht with rfl | ht
      · have haddr := hc.header
        have := (segments_bounds rest hs).1
        omega
      · exact ⟨t, ht, hc⟩
    · rcases hall.unrefused t ((Traced.reaches_next hnext).mpr (Or.inr ht)) with ⟨s, hs, hc⟩ | hends
      · rcases List.mem_cons.mp hs with rfl | hs
        · have haddr := hc.header
          have := reaches_fdtheader ht
          rw [hadvance hnext] at this
          simp only at haddr
          omega
        · exact Or.inl ⟨s, by rwa [hadvance hnext], hc⟩
      · exact Or.inr hends
  · rintro ⟨hpasses, hrest⟩
    refine ⟨fun s hs => ?_, fun t ht => ?_⟩
    · rcases List.mem_cons.mp hs with rfl | hs
      · exact ⟨w, .start, hexamines⟩
      · obtain ⟨w1, hw1⟩ := (examineBlob_passes (w := w.visit b.length) rfl).mpr
          (hpasses (by rintro rfl; cases hs))
        have hnext := hexamines.next_iff.mpr ⟨w1, hw1, rfl⟩
        obtain ⟨t, ht, hc⟩ := (hrest _ hnext).examined s (by rwa [hadvance hnext])
        exact ⟨t, ht.head hnext, hc⟩
    · by_cases hnext : ∃ w', (walkStep env inp w).val = .ok (.inl w')
      · obtain ⟨w', hnext⟩ := hnext
        rcases (Traced.reaches_next hnext).mp ht with rfl | ht
        · exact Or.inl ⟨_, List.mem_cons_self, hexamines⟩
        · rcases (hrest w' hnext).unrefused t ht with ⟨s, hs, hc⟩ | hends
          · rw [hadvance hnext] at hs
            exact Or.inl ⟨s, List.mem_cons_of_mem _ hs, hc⟩
          · exact Or.inr hends
      · rw [Traced.reaches_last fun w' hw' => hnext ⟨w', hw'⟩] at ht
        subst ht
        exact Or.inl ⟨_, List.mem_cons_self, hexamines⟩

/-! ## The rows of a concatenation -/

/-- Blobs are considered to the end of the image when each next one is aligned, and
the walk is let on to it. -/
theorem considers_laid (hstart : start ≠ 0) (hsize : inp.dtbs_image_size ≠ 0)
    (hn : start + inp.dtbs_image_size < 2 ^ 64)
    (blobs : List (List UInt8)) {w : WalkState} (hw : w.handle.dtbs_image_start_address = start)
    (hle : start ≤ w.fdtheader) (halign : w.fdtheader % 8 = 0)
    (hend : w.fdtheader + blobs.flatten.length = start + inp.dtbs_image_size)
    (hbytes : Holds env.mem w.fdtheader blobs.flatten) (hplace : ∀ b ∈ blobs, Placeable b) :
    Considers env inp w blobs ↔ (∀ b ∈ blobs.dropLast, b.length % 8 = 0) ∧
      ∀ s ∈ (segments w.fdtheader blobs).dropLast, Passes env inp s := by
  induction blobs generalizing w with
  | nil =>
    rw [List.flatten_nil, List.length_nil, Nat.add_zero] at hend
    rw [considers_end]
    exact ⟨fun _ => ⟨by simp, by simp [segments]⟩, fun _ => ⟨_, by rw [hw, hend, laid_end hstart hsize hn]⟩⟩
  | cons b rest ih =>
    rw [List.flatten_cons] at hend hbytes
    rw [List.length_append] at hend
    obtain ⟨hb, hrest⟩ := holds_append hbytes
    have hpos := (hplace b List.mem_cons_self).length_pos
    have hheader := (laid_header hstart hle hsize hn (hplace b List.mem_cons_self) hb (by omega)).1 halign
    have hexamines := examines_of_accepted (hw.symm ▸ hheader)
    rw [considers_cons hpos (by omega) (hw.symm ▸ hheader)]
    have hnext {w' : WalkState} (h : (walkStep env inp w).val = .ok (.inl w')) :
        w'.fdtheader = w.fdtheader + b.length ∧ w'.handle.dtbs_image_start_address = start := by
      obtain ⟨w1, hw1, rfl⟩ := hexamines.next_iff.mp h
      have hframe := examineBlob_frame _ _ _ _ _ hw1
      have hheader : w1.fdtheader = w.fdtheader := hframe.fdtheader
      refine ⟨?_, hframe.start.trans hw⟩
      rw [WalkState.advance, hheader]
      exact Nat.mod_eq_of_lt (by simp only; omega)
    cases rest with
    | nil =>
      refine ⟨fun _ => ⟨by simp, by simp [segments]⟩, fun _ => ⟨fun h => absurd rfl h, fun w' h => ?_⟩⟩
      obtain ⟨haddr, hstart'⟩ := hnext h
      have hlast : w'.fdtheader = start + inp.dtbs_image_size := by
        rw [haddr]
        simpa using hend
      exact considers_end.mpr ⟨_, by rw [hstart', hlast, laid_end hstart hsize hn]⟩
    | cons c rest =>
      rw [List.dropLast_cons_cons, segments, segments, List.dropLast_cons_cons, ← segments]
      by_cases hpasses : Passes env inp ⟨w.fdtheader, b.length⟩
      · obtain ⟨w1, hw1⟩ := (examineBlob_passes (w := w.visit b.length) rfl).mpr hpasses
        have hgo := hexamines.next_iff.mpr ⟨w1, hw1, rfl⟩
        obtain ⟨haddr, hstart'⟩ := hnext hgo
        have hone : (∀ w', (walkStep env inp w).val = .ok (.inl w') → Considers env inp w' (c :: rest)) ↔
            Considers env inp (w1.advance b.length) (c :: rest) := by
          refine ⟨fun h => h _ hgo, fun h w' hw' => ?_⟩
          rw [hgo] at hw'
          cases hw'
          exact h
        rw [hone]
        by_cases hunit : b.length % 8 = 0
        · rw [ih hstart' (by omega) (by omega) (by omega) (by rwa [haddr])
            fun b' hb' => hplace b' (List.mem_cons_of_mem _ hb'), haddr]
          simp only [List.forall_mem_cons, hunit, hpasses, true_and, implies_true]
        · -- the next header is not aligned
          rw [List.flatten_cons] at hrest hend
          rw [List.length_append] at hend
          have hnot := (laid_header hstart (by omega) hsize hn (hplace c (by simp)) (holds_append hrest).1
            (by omega)).2
            (by omega : (w.fdtheader + b.length) % 8 ≠ 0)
          refine ⟨fun h => ?_, fun h => absurd (h.1 b List.mem_cons_self) hunit⟩
          rcases h.2.unrefused _ .start with ⟨s, -, hc⟩ | ⟨e, hends⟩
          · have haccepted := hc.accepted
            rw [hstart', haddr, hnot] at haccepted
            exact absurd (Prod.mk.inj haccepted).1 (by decide)
          · rw [hstart', haddr, hnot] at hends
            exact absurd (Prod.mk.inj hends).1 (by decide)
      · refine ⟨fun h => absurd (h.1 (by simp)) hpasses, fun h => absurd (h.2 _ List.mem_cons_self) hpasses⟩

/-- Without a size the image ends where there is no magic. -/
theorem ends_empty (hstart : start ≠ 0) (hlt : start < 2 ^ 64) (hsize : inp.dtbs_image_size = 0) :
    (∃ e, isFdtheaderAtEndOfImage env inp start start initHandleEntry = (SUCCESS, e, true)) ↔
      checkHeader (blobAt env.mem start) = -FDT_ERR_BADMAGIC := by
  rw [isFdtheaderAtEndOfImage_eq hstart hstart, if_neg (not_not.mpr hsize), endOfUnsizedImage_eq hstart hlt]
  simp only
  by_cases hmagic : checkHeader (blobAt env.mem start) = -FDT_ERR_BADMAGIC
  · rw [if_pos hmagic]
    exact ⟨fun _ => hmagic, fun _ => ⟨_, rfl⟩⟩
  rw [if_neg hmagic]
  refine ⟨fun ⟨e, h⟩ => ?_, fun h => absurd h hmagic⟩
  by_cases hcheck : checkHeader (blobAt env.mem start) = 0
  · rw [if_neg (not_not.mpr hcheck)] at h
    split at h
    · cases (Prod.mk.inj (Prod.mk.inj h).2).2
    · exact absurd (Prod.mk.inj h).1 (by decide)
  · rw [if_pos hcheck] at h
    exact absurd (Prod.mk.inj h).1 hcheck

end

/-- The walk over an image of some blobs. -/
theorem Laid.considered_iff {env : Env} {inp : HandleInput} {start : Nat} {b : List UInt8} {rest : List (List UInt8)}
    (h : Laid env inp start (b :: rest)) : Considered env inp start (b :: rest) ↔
      (∀ c ∈ (b :: rest).dropLast, c.length % 8 = 0) ∧ ∀ s ∈ (segments start (b :: rest)).dropLast,
      Passes env inp s := by
  obtain ⟨⟨hstart, halign, hlt⟩, hbytes, hplace, hsize⟩ := h
  have hpos := (hplace b List.mem_cons_self).length_pos
  have hnonzero : inp.dtbs_image_size ≠ 0 := by
    rw [hsize, List.flatten_cons, List.length_append]
    omega
  unfold Considered
  rw [and_iff_right hstart]
  exact considers_laid hstart hnonzero (by omega) (b :: rest) rfl (Nat.le_refl start) halign
    (congrArg (start + ·) hsize.symm) hbytes hplace

/-- The walk over a concatenation of blobs examines each of them exactly when every
blob but the last fills whole units of 8 bytes and lets the walk go on. The size of
no blobs is 0, which asks for the magic. -/
theorem layout_exact (env : Env) (inp : HandleInput) (start : Nat) (blobs : List (List UInt8))
    (h : Laid env inp start blobs) : Considered env inp start blobs ↔
      (∀ b ∈ blobs.dropLast, b.length % 8 = 0) ∧ (∀ s ∈ (segments start blobs).dropLast, Passes env inp s) ∧
        (blobs = [] → checkHeader (blobAt env.mem start) = -FDT_ERR_BADMAGIC) := by
  cases blobs with
  | nil =>
    obtain ⟨⟨hstart, -, hlt⟩, -, -, hsize⟩ := h
    rw [List.flatten_nil, List.length_nil, Nat.add_zero] at hlt
    have hempty : Ends env inp (initWalkState (initHandleData start)) ↔ _ := ends_empty hstart hlt hsize
    unfold Considered
    rw [and_iff_right hstart, considers_end, hempty]
    exact ⟨fun h => ⟨nofun, nofun, fun _ => h⟩, fun h => h.2.2 rfl⟩
  | cons b rest =>
    rw [h.considered_iff]
    exact ⟨fun h => ⟨h.1, h.2, nofun⟩, fun h => ⟨h.1, h.2.1⟩⟩

theorem placeable_of {b : List UInt8} (hlen : FDT_V17_SIZE ≤ b.length)
    (h : checkHeader (blobAt (memOf 8 b) 8) = 0 ∧ totalsize (blobAt (memOf 8 b) 8) = b.length) : Placeable b := by
  intro m p hp hb
  have hsame : SameBytes m p (memOf 8 b) 8 b.length := fun i hi => (hb i hi).trans (holds_memOf 8 b i hi).symm
  refine ⟨(hsame.checkHeader hlen (by omega)).trans h.1, (hsame.totalsize ?_).trans h.2⟩
  exact Nat.le_trans (by decide) hlen

/-- Two base trees, the first of any size. -/
def pairBlobs (slack : Nat) : List (List UInt8) := [baseBlob [] slack, baseBlob [] 6]

def pairInput (slack : Nat) : HandleInput := initHandleInput (pairBlobs slack).flatten.length imageProp []

theorem pair_laid (slack : Nat) (h : FDT_V17_SIZE ≤ (baseBlob [] slack).length ∧
    checkHeader (blobAt (memOf 8 (baseBlob [] slack)) 8) = 0 ∧
      totalsize (blobAt (memOf 8 (baseBlob [] slack)) 8) = (baseBlob [] slack).length)
    (hlt : 0x1000 + (pairBlobs slack).flatten.length < 2 ^ 64) :
    Laid (imageEnv 0x1000 (pairBlobs slack) false) (pairInput slack) 0x1000 (pairBlobs slack) := by
  refine ⟨⟨by decide, by decide, hlt⟩, holds_memOf _ _, fun b hb => ?_, rfl⟩
  rcases List.mem_cons.mp hb with rfl | hb
  · exact placeable_of h.1 h.2
  · rw [List.mem_singleton.mp hb]
    exact placeable_of (by decide +kernel) (by decide +kernel)

theorem pair_passes : Passes (imageEnv 0x1000 (pairBlobs 6) false) (pairInput 6) ⟨0x1000, (baseBlob [] 6).length⟩ := by
  refine ⟨by decide +kernel, rfl, ?_⟩
  have hrun : ((isItDtbDtboCandidate (imageEnv 0x1000 (pairBlobs 6) false) (pairInput 6)
      ((acceptedEntry 0x1000 (baseBlob [] 6).length).atNode
        (pathOffset (blobAt (imageEnv 0x1000 (pairBlobs 6) false).mem 0x1000) ROOT_NODE))).val.map (·.1)) =
          .ok SUCCESS := by
    decide +kernel
  cases hval : (isItDtbDtboCandidate (imageEnv 0x1000 (pairBlobs 6) false) (pairInput 6)
      ((acceptedEntry 0x1000 (baseBlob [] 6).length).atNode
        (pathOffset (blobAt (imageEnv 0x1000 (pairBlobs 6) false).mem 0x1000) ROOT_NODE))).val with
  | error fault =>
    rw [hval] at hrun
    cases hrun
  | ok r =>
    rw [hval] at hrun
    exact ⟨r.2, congrArg Except.ok (Prod.ext (Except.ok.inj hrun) rfl)⟩

theorem layout_exact_pair : Considered (imageEnv 0x1000 (pairBlobs 6) false) (pairInput 6) 0x1000 (pairBlobs 6) := by
  have hlaid := pair_laid 6 (by decide +kernel) (by decide +kernel)
  refine (layout_exact _ _ _ _ hlaid).mpr ⟨by decide +kernel, fun s hs => ?_, nofun⟩
  have hfirst : s = ⟨0x1000, (baseBlob [] 6).length⟩ := by simpa [pairBlobs, segments] using hs
  subst hfirst
  exact pair_passes

/-- Behind a blob of 127 bytes the next one is not found. -/
theorem second_blob_missed : ¬∀ (env : Env) (inp : HandleInput) (start : Nat) (blobs : List (List UInt8)),
    Laid env inp start blobs → (∀ b ∈ blobs, 0 ≤ pathOffset (blobAt (memOf 8 b) 8) ROOT_NODE) →
      Considered env inp start blobs := by
  intro h
  have hlaid := pair_laid 5 (by decide +kernel) (by decide +kernel)
  have hunits := (hlaid.considered_iff.mp (h _ _ _ _ hlaid (by decide +kernel))).1
  exact absurd hunits (by decide +kernel)

end DTFramework.Select
