import DTFramework.Get.PlainLib

/-!
# Merging somewhere else

libfdt works on trees through their bytes, so what a merge does is the same
wherever the buffer is: the same status, and the same bytes in the buffer. This
is relied on of the libfdt calls of two merges, which a run in each mode makes
(`MergeCall.Alike`).

Results:

* `Twin.valid`, `Twin.tooSmall`: two merges of the same bytes come to the same
  checks;
* `Twin.merge`: they answer the same, and leave the same working area.
-/
namespace DTFramework.Fdt

section
variable {m m' : Mem} {p p' n : Nat}

theorem SameBytes.be32 (h : SameBytes m p m' p' n) {o : Nat} (ho : o + 4 ≤ n) :
    be32 (blobAt m p) o = be32 (blobAt m' p') o :=
  be32_congr (n := n) (fun i hi => h i hi) ho

theorem SameBytes.checkHeader (h : SameBytes m p m' p' n) (hn : FDT_V17_SIZE ≤ n) (hp : p % 8 = p' % 8) :
    checkHeader (blobAt m p) = checkHeader (blobAt m' p') := by
  simp only [FDT_V17_SIZE, FDT_V16_SIZE, FDT_V3_SIZE, FDT_V2_SIZE, FDT_V1_SIZE] at hn
  unfold Fdt.checkHeader checkStruct magic version lastCompVersion Fdt.totalsize offMemRsvmap offDtStruct offDtStrings
    sizeDtStrings sizeDtStruct
  rw [h.be32 (o := 0) (by omega), h.be32 (o := 4) (by omega), h.be32 (o := 8) (by omega), h.be32 (o := 12) (by omega),
    h.be32 (o := 16) (by omega), h.be32 (o := 20) (by omega), h.be32 (o := 24) (by omega), h.be32 (o := 32) (by omega),
    h.be32 (o := 36) (by omega), blobAt_addr, blobAt_addr, hp]

end

end DTFramework.Fdt

namespace DTFramework.Get

open DTFramework.Fdt DTFramework.Extn

/-- Equally aligned places. -/
def SameAlign (p p' : Nat) : Prop := p % 8 = p' % 8

/-- The calls of libfdt that two merges in place make, once both trees were
validated: where they are given the same bytes, at equally aligned places, they
answer the same, and leave the same bytes in the buffer. -/
structure MergeCall.Alike (lib : Libfdt) (c c' : MergeCall) : Prop where
  opened : SameAlign c.merge_blob c'.merge_blob → c.mb_size = c'.mb_size →
    c.primary_blob = c.merge_blob → c'.primary_blob = c'.merge_blob →
    HeaderOk (blobAt c.mem c.merge_blob) → totalsize (blobAt c.mem c.merge_blob) ≤ c.mb_size →
    SameBytes c.mem c.merge_blob c'.mem c'.merge_blob c.mb_size →
    (c.opened lib).1 = (c'.opened lib).1 ∧ ((c.opened lib).1 = 0 →
      SameBytes (c.opened lib).2 c.merge_blob (c'.opened lib).2 c'.merge_blob c.mb_size)
  applied : SameAlign c.merge_blob c'.merge_blob → c.mb_size = c'.mb_size → c.overlay_blob = c'.overlay_blob →
    (c.opened lib).1 = 0 → (c'.opened lib).1 = 0 →
    totalsize (blobAt (c.opened lib).2 c.merge_blob) = c.mb_size →
    HeaderOk (blobAt (c.opened lib).2 c.overlay_blob) →
    SameBytes (c.opened lib).2 c.merge_blob (c'.opened lib).2 c'.merge_blob c.mb_size →
    SameBytes (c.opened lib).2 c.overlay_blob (c'.opened lib).2 c'.overlay_blob
      (totalsize (blobAt (c.opened lib).2 c.overlay_blob)) →
    Apart c.merge_blob c.mb_size c.overlay_blob (totalsize (blobAt (c.opened lib).2 c.overlay_blob)) →
    Apart c'.merge_blob c.mb_size c.overlay_blob (totalsize (blobAt (c.opened lib).2 c.overlay_blob)) →
    (c.applied lib).1 = (c'.applied lib).1 ∧ ((c.applied lib).1 = 0 →
      SameBytes (c.applied lib).2 c.merge_blob (c'.applied lib).2 c'.merge_blob c.mb_size)

/-- What is relied on of the libfdt calls of two merges. -/
structure MergeCall.Comparable (lib : Libfdt) (c c' : MergeCall) : Prop where
  keeps : c.Keeps lib
  keeps' : c'.Keeps lib
  alike : c.Alike lib c'

theorem checkForValidBlob_congr (d : DTBDefs) {m m' : Mem} {p p' n : Nat} (hp : p ≠ 0) (hp' : p' ≠ 0)
    (halign : SameAlign p p') (h : SameBytes m p m' p' n) :
      checkForValidBlob d m p n = checkForValidBlob d m' p' n := by
  unfold checkForValidBlob
  dsimp only
  rw [if_neg hp, if_neg hp']
  by_cases hn : n < FDT_V17_SIZE
  · rw [if_pos hn, if_pos hn]
  · have hle := Nat.le_of_not_lt hn
    rw [if_neg hn, if_neg hn, h.checkHeader hle halign]
    simp only [FDT_V17_SIZE, FDT_V16_SIZE, FDT_V3_SIZE, FDT_V2_SIZE, FDT_V1_SIZE] at hle
    unfold totalsize offDtStruct offDtStrings offMemRsvmap sizeDtStrings sizeDtStruct
    rw [h.be32 (o := 4) (by omega), h.be32 (o := 8) (by omega), h.be32 (o := 12) (by omega),
      h.be32 (o := 16) (by omega),
      h.be32 (o := 32) (by omega), h.be32 (o := 36) (by omega)]

/-- Two merges in place at different places: `k` bytes of the overlay at `q`,
and a working area of `n` bytes, of which `s` are the buffer. -/
structure Twin (m : Mem) (p : Nat) (m' : Mem) (p' q k s n : Nat) : Prop where
  ne : p ≠ 0
  ne' : p' ≠ 0
  align : SameAlign p p'
  area : SameBytes m p m' p' n
  overlay : SameBytes m q m' q k
  apart : Apart p n q k
  apart' : Apart p' n q k
  buffer_le : s ≤ n

section
variable {d : DTBDefs} {lib : Libfdt} {m m' : Mem} {p p' q k s n b : Nat}

theorem Twin.valid (h : Twin m p m' p' q k s n) (hb : b ≤ n) :
    MergeCall.valid d ⟨m, p, b, q, k, p, s⟩ = MergeCall.valid d ⟨m', p', b, q, k, p', s⟩ := by
  unfold MergeCall.valid
  dsimp only
  rw [if_neg h.ne, if_neg h.ne', if_neg h.ne, if_neg h.ne',
    checkForValidBlob_congr d h.ne h.ne' h.align (h.area.mono hb)]
  by_cases hq : q = 0
  · rw [if_pos hq, if_pos hq]
  · rw [if_neg hq, if_neg hq, checkForValidBlob_congr d hq hq rfl h.overlay]

/-- What is known of the trees once they were validated. -/
theorem Twin.sizes (h : Twin m p m' p' q k s n) (hb : b ≤ n)
    (hv : MergeCall.valid d ⟨m, p, b, q, k, p, s⟩ = FDT_ERR_QC_NOERROR) :
    (HeaderOk (blobAt m p) ∧ totalsize (blobAt m p) ≤ b ∧ FDT_V17_SIZE ≤ b ∧
      totalsize (blobAt m' p') = totalsize (blobAt m p)) ∧
    (HeaderOk (blobAt m q) ∧ totalsize (blobAt m q) ≤ k ∧ FDT_V17_SIZE ≤ k ∧ 28 ≤ totalsize (blobAt m q) ∧
      totalsize (blobAt m' q) = totalsize (blobAt m q)) := by
  obtain ⟨⟨hp, hpb, hb40⟩, hq, hqk, hk40⟩ := MergeCall.valid_ok hv
  dsimp only at hp hpb hb40 hq hqk hk40
  have hsize {m : Mem} {p : Nat} (hok : HeaderOk (blobAt m p)) : 28 ≤ totalsize (blobAt m p) := by
    have h1 := hok.size_ge
    have h2 := headerSize_ge (version (blobAt m p))
    simp only [FDT_V1_SIZE] at h2
    omega
  have h1 := hsize hp
  have h2 := hsize hq
  exact ⟨⟨hp, hpb, hb40, (h.area.totalsize (by omega)).symm⟩, hq, hqk, hk40, h2, (h.overlay.totalsize (by omega)).symm⟩

theorem Twin.tooSmall (h : Twin m p m' p' q k s n) (hb : b ≤ n)
    (hv : MergeCall.valid d ⟨m, p, b, q, k, p, s⟩ = FDT_ERR_QC_NOERROR) :
    MergeCall.tooSmall ⟨m, p, b, q, k, p, s⟩ ↔ MergeCall.tooSmall ⟨m', p', b, q, k, p', s⟩ := by
  obtain ⟨⟨-, -, -, hp⟩, -, -, -, -, hq⟩ := h.sizes hb hv
  unfold MergeCall.tooSmall
  dsimp only
  rw [hp, hq]

/-- Once both trees were validated and the buffer was found big enough. -/
theorem Twin.apply (h : Twin m p m' p' q k s n)
    (hlib : MergeCall.Comparable lib ⟨m, p, b, q, k, p, s⟩ ⟨m', p', b, q, k, p', s⟩)
    (hp : HeaderOk (blobAt m p)) (hps : totalsize (blobAt m p) ≤ s) (hs40 : FDT_V17_SIZE ≤ s)
    (hq : HeaderOk (blobAt m q)) (hqk : totalsize (blobAt m q) ≤ k) (hk40 : FDT_V17_SIZE ≤ k)
    (hq28 : 28 ≤ totalsize (blobAt m q)) (hq' : totalsize (blobAt m' q) = totalsize (blobAt m q)) :
    (MergeCall.apply lib ⟨m, p, b, q, k, p, s⟩).1 = (MergeCall.apply lib ⟨m', p', b, q, k, p', s⟩).1 ∧
      ((MergeCall.apply lib ⟨m, p, b, q, k, p, s⟩).1 = 0 → SameBytes (MergeCall.apply lib ⟨m, p, b, q, k, p, s⟩).2 p
        (MergeCall.apply lib ⟨m', p', b, q, k, p', s⟩).2 p' n) := by
  obtain ⟨hkeeps, hkeeps', halike⟩ := hlib
  have hs := h.buffer_le
  have hap := h.apart.mono hs (Nat.le_refl k)
  have hap' := h.apart'.mono hs (Nat.le_refl k)
  obtain ⟨hstatus, hbuffer⟩ := halike.opened h.align rfl rfl rfl hp hps (h.area.mono hs)
  unfold MergeCall.apply
  by_cases h1 : (MergeCall.opened lib ⟨m, p, b, q, k, p, s⟩).1 = FDT_ERR_QC_NOERROR
  case neg =>
    have h1' := h1
    rw [hstatus] at h1'
    rw [if_pos h1, if_pos h1']
    exact ⟨hstatus, fun h0 => absurd h0 h1⟩
  have h1' := hstatus.symm.trans h1
  rw [if_neg (not_not.mpr h1), if_neg (not_not.mpr h1')]
  have hq1 := hkeeps.overlay h1 hap
  have hq1' := hkeeps'.overlay h1' hap'
  have htotal := hkeeps.open_totalsize h1
  have htotal' := hkeeps'.open_totalsize h1'
  have hframe := hkeeps.open_frame h1
  have hframe' := hkeeps'.open_frame h1'
  dsimp only at hq1 hq1' htotal htotal' hframe hframe' hbuffer
  have htq := (hq1.mono hqk).totalsize (by omega)
  have htq' := ((hq1'.mono hqk).totalsize (by omega)).trans hq'
  have hok : HeaderOk (blobAt (MergeCall.opened lib ⟨m, p, b, q, k, p, s⟩).2 q) := by
    rw [← checkHeader_eq_zero, hq1.checkHeader hk40 rfl]
    exact (checkHeader_eq_zero _).mpr hq
  obtain ⟨hstatus2, hbuffer2⟩ := halike.applied h.align rfl rfl h1 h1' htotal hok (hbuffer h1)
    (((hq1.trans h.overlay).trans hq1'.symm).mono (by dsimp only; rw [htq]; exact hqk))
    (hap.mono (Nat.le_refl _) (by dsimp only; rw [htq]; exact hqk))
    (hap'.mono (Nat.le_refl _) (by dsimp only; rw [htq]; exact hqk))
  by_cases h2 : (MergeCall.applied lib ⟨m, p, b, q, k, p, s⟩).1 = FDT_ERR_QC_NOERROR
  case neg =>
    have h2' := h2
    rw [hstatus2] at h2'
    rw [if_pos h2, if_pos h2']
    exact ⟨hstatus2, fun h0 => absurd h0 h2⟩
  have h2' := hstatus2.symm.trans h2
  rw [if_neg (not_not.mpr h2), if_neg (not_not.mpr h2')]
  have hframe2 := hkeeps.apply_frame h1 h2
  have hframe2' := hkeeps'.apply_frame h1' h2'
  dsimp only at hframe2 hframe2' hbuffer2
  rw [htotal, htq] at hframe2
  rw [htotal', htq'] at hframe2'
  -- the buffer is the same by the overlay, what is behind it was not written
  have hall : SameBytes (MergeCall.applied lib ⟨m, p, b, q, k, p, s⟩).2 p
      (MergeCall.applied lib ⟨m', p', b, q, k, p', s⟩).2 p' n := by
    have hapn := h.apart
    have hapn' := h.apart'
    unfold Apart at hapn hapn'
    intro i hi
    by_cases his : i < s
    · exact hbuffer2 h2 i his
    · rw [hframe2 (p + i) (by omega) (by omega), hframe2' (p' + i) (by omega) (by omega),
        hframe (p + i) (by omega), hframe' (p' + i) (by omega)]
      exact h.area i hi
  dsimp only
  rw [hall.checkHeader (Nat.le_trans hs40 hs) h.align]
  split
  · exact ⟨rfl, fun _ => hall⟩
  · exact ⟨rfl, fun _ => hall⟩

/-- Both merges answer the same, and leave the same working area. -/
theorem Twin.merge (h : Twin m p m' p' q k s n)
    (hlib : MergeCall.Comparable lib ⟨m, p, b, q, k, p, s⟩ ⟨m', p', b, q, k, p', s⟩) (hb : b ≤ s) :
    (fdtMergeOverlay d lib ⟨m, p, b, q, k, p, s⟩).1 = (fdtMergeOverlay d lib ⟨m', p', b, q, k, p', s⟩).1 ∧
      ((fdtMergeOverlay d lib ⟨m, p, b, q, k, p, s⟩).1 = 0 →
        SameBytes (fdtMergeOverlay d lib ⟨m, p, b, q, k, p, s⟩).2 p
          (fdtMergeOverlay d lib ⟨m', p', b, q, k, p', s⟩).2 p' n) := by
  have hbn := Nat.le_trans hb h.buffer_le
  unfold fdtMergeOverlay
  rw [← h.valid (d := d) hbn]
  by_cases hv : MergeCall.valid d ⟨m, p, b, q, k, p, s⟩ = FDT_ERR_QC_NOERROR
  case neg =>
    rw [if_pos hv, if_pos hv]
    exact ⟨rfl, fun _ => h.area⟩
  rw [if_neg (not_not.mpr hv), if_neg (not_not.mpr hv)]
  obtain ⟨⟨hp, hpb, hb40, hp'⟩, hq, hqk, hk40, hq28, hq'⟩ := h.sizes hbn hv
  by_cases hsmall : MergeCall.tooSmall ⟨m, p, b, q, k, p, s⟩
  case pos =>
    rw [if_pos hsmall, if_pos ((h.tooSmall hbn hv).mp hsmall)]
    exact ⟨rfl, fun _ => h.area⟩
  rw [if_neg hsmall, if_neg fun hc => hsmall ((h.tooSmall hbn hv).mpr hc)]
  exact h.apply hlib hp (Nat.le_trans hpb hb) (Nat.le_trans hb40 hb) hq hqk hk40 hq28 hq'

end

end DTFramework.Get
