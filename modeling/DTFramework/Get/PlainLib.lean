import DTFramework.Fdt.Assemble
import DTFramework.Get.Merge

/-!
# A libfdt for plain trees

What the writing functions do where there is little to do: a tree of version 17
whose blocks are in order is opened in place by setting its total size, and an
overlay without fragments, fixups and symbols leaves the tree as it is and
loses its own magic number. With it `get_dt` can be run on concrete images.

Results:

* `plainLib_keeps`: every merge in place keeps to its buffers, so that the results
  about any libfdt have an instance.
-/
namespace DTFramework.Get

open DTFramework.Fdt DTFramework.Extn

/-- A big-endian cell is written at `p`. -/
def putCell (m : Mem) (p n : Nat) : Mem := fun a => if p ≤ a ∧ a < p + 4 then (cell n).getD (a - p) 0 else m a

theorem putCell_out {m : Mem} {p n a : Nat} (h : a < p ∨ p + 4 ≤ a) : putCell m p n a = m a := by
  unfold putCell
  rw [if_neg (by omega)]

theorem putCell_in {m : Mem} {p n i : Nat} (h : i < 4) : putCell m p n (p + i) = (cell n).getD i 0 := by
  unfold putCell
  rw [if_pos ⟨by omega, by omega⟩, Nat.add_sub_cancel_left]

theorem totalsize_putCell (m : Mem) (buf : Nat) {n : Nat} (h : n < 2 ^ 32) :
    totalsize (blobAt (putCell m (buf + 4) n) buf) = n := by
  have h0 := putCell_in (m := m) (p := buf + 4) (n := n) (i := 0) (by decide)
  have h1 := putCell_in (m := m) (p := buf + 4) (n := n) (i := 1) (by decide)
  have h2 := putCell_in (m := m) (p := buf + 4) (n := n) (i := 2) (by decide)
  have h3 := putCell_in (m := m) (p := buf + 4) (n := n) (i := 3) (by decide)
  simp only [cell, List.getD_cons_zero, List.getD_cons_succ] at h0 h1 h2 h3
  unfold totalsize be32
  simp only [blobAt_rd]
  rw [show buf + 4 = buf + 4 + 0 from rfl, h0, show buf + (4 + 1) = buf + 4 + 1 from rfl, h1,
    show buf + (4 + 2) = buf + 4 + 2 from rfl, h2, show buf + (4 + 3) = buf + 4 + 3 from rfl, h3]
  simp only [UInt8.toNat_ofNat']
  omega

instance (p n q k : Nat) : Decidable (Apart p n q k) := by unfold Apart; infer_instance

def plainLib : Libfdt where
  fdt_open_into m fdt buf size :=
    if size < totalsize (blobAt m fdt) ∨ size < FDT_V17_SIZE then (-FDT_ERR_NOSPACE, m)
    else (0, putCell (copy m buf fdt (totalsize (blobAt m fdt))) (buf + 4) size.toNat)
  fdt_overlay_apply m fdt fdto :=
    if Apart fdt (totalsize (blobAt m fdt)) fdto (totalsize (blobAt m fdto)) ∧
      FDT_V17_SIZE ≤ totalsize (blobAt m fdto) ∧
        FDT_V17_SIZE ≤ totalsize (blobAt m fdt) then (0, putCell m fdto 0xffffffff)
    else (-FDT_ERR_BADSTRUCTURE, m)

theorem plainLib_open {m : Mem} {fdt buf size : Nat} (h : (plainLib.fdt_open_into m fdt buf size).1 = 0) :
    (FDT_V17_SIZE ≤ size ∧ totalsize (blobAt m fdt) ≤ size) ∧ (plainLib.fdt_open_into m fdt buf size).2 =
      putCell (copy m buf fdt (totalsize (blobAt m fdt))) (buf + 4) size := by
  simp only [plainLib] at h ⊢
  split at h
  · exact absurd (show -FDT_ERR_NOSPACE = 0 from h) (by decide)
  · rename_i hc
    rw [if_neg hc, Int.toNat_natCast]
    exact ⟨⟨by omega, by omega⟩, rfl⟩

theorem plainLib_apply {m : Mem} {fdt fdto : Nat} (h : (plainLib.fdt_overlay_apply m fdt fdto).1 = 0) :
    Apart fdt (totalsize (blobAt m fdt)) fdto (totalsize (blobAt m fdto)) ∧
      (FDT_V17_SIZE ≤ totalsize (blobAt m fdto) ∧ FDT_V17_SIZE ≤ totalsize (blobAt m fdt)) ∧
      (plainLib.fdt_overlay_apply m fdt fdto).2 = putCell m fdto 0xffffffff := by
  simp only [plainLib] at h ⊢
  split at h
  · rename_i hc
    rw [if_pos hc]
    exact ⟨hc.1, hc.2, rfl⟩
  · exact absurd (show -FDT_ERR_BADSTRUCTURE = 0 from h) (by decide)

theorem plainLib_code (m : Mem) (fdt buf : Nat) (size : Int) :
    -FDT_ERR_MAX ≤ (plainLib.fdt_open_into m fdt buf size).1 ∧
      -FDT_ERR_MAX ≤ (plainLib.fdt_overlay_apply m fdt buf).1 := by
  simp only [plainLib]
  constructor
  · split
    · exact (by decide : -FDT_ERR_MAX ≤ -FDT_ERR_NOSPACE)
    · exact (by decide : -FDT_ERR_MAX ≤ 0)
  · split
    · exact (by decide : -FDT_ERR_MAX ≤ 0)
    · exact (by decide : -FDT_ERR_MAX ≤ -FDT_ERR_BADSTRUCTURE)

/-- Every merge in place keeps to its buffers. -/
theorem plainLib_keeps {c : MergeCall} (hmax : c.mb_size ≤ INT_MAX) (hin : c.primary_blob = c.merge_blob) :
    c.Keeps plainLib := by
  have hopened : c.opened plainLib = plainLib.fdt_open_into c.mem c.merge_blob c.merge_blob (c.mb_size : Int) :=
    MergeCall.opened_in_place hin hmax
  have happlied : c.applied plainLib =
      plainLib.fdt_overlay_apply (c.opened plainLib).2 c.merge_blob c.overlay_blob := rfl
  simp only [INT_MAX] at hmax
  constructor
  case open_code =>
    rw [hopened]
    exact (plainLib_code _ _ _ _).1
  case open_totalsize =>
    intro h
    rw [hopened] at h ⊢
    rw [(plainLib_open h).2]
    exact totalsize_putCell _ _ (by omega)
  case open_frame =>
    intro h a ha
    rw [hopened] at h ⊢
    obtain ⟨⟨h40, hle⟩, hmem⟩ := plainLib_open h
    simp only [FDT_V17_SIZE, FDT_V16_SIZE, FDT_V3_SIZE, FDT_V2_SIZE, FDT_V1_SIZE] at h40
    rw [hmem, putCell_out (by omega), copy_out _ (by omega)]
  case apply_code =>
    intro _
    rw [happlied]
    exact (plainLib_code _ _ _ 0).2
  case apply_totalsize =>
    intro _ h
    rw [happlied] at h ⊢
    generalize (c.opened plainLib).2 = m at h ⊢
    obtain ⟨hap, ⟨hov, hba⟩, hmem⟩ := plainLib_apply h
    simp only [FDT_V17_SIZE, FDT_V16_SIZE, FDT_V3_SIZE, FDT_V2_SIZE, FDT_V1_SIZE] at hov hba
    have hkeep : SameBytes (putCell m c.overlay_blob 0xffffffff) c.merge_blob m c.merge_blob
        (totalsize (blobAt m c.merge_blob)) := by
      intro i hi
      refine putCell_out ?_
      unfold Apart at hap
      omega
    rw [hmem]
    exact hkeep.totalsize (by omega)
  case apply_frame =>
    intro _ h a _ ho
    rw [happlied] at h ⊢
    generalize (c.opened plainLib).2 = m at h ho ⊢
    obtain ⟨-, ⟨hov, -⟩, hmem⟩ := plainLib_apply h
    simp only [FDT_V17_SIZE, FDT_V16_SIZE, FDT_V3_SIZE, FDT_V2_SIZE, FDT_V1_SIZE] at hov
    rw [hmem]
    exact putCell_out (by omega)

end DTFramework.Get
