import DTFramework.Select.WalkSound
import DTFramework.Select.Handle

/-!
# What a handle says of the image

Every blob of an opened handle is none, or a tree of the image whose header was
accepted and whose size is the one its header says.

Results:

* `IsBlob.header`: a blob that is there has a header of its own.
-/
namespace DTFramework.Get

open DTFramework.Fdt DTFramework.Extn DTFramework.Lib DTFramework.Select

/-- A selected blob: none, or an accepted tree at or after the start of the image. -/
def IsBlob (env : Env) (a : OpenArgs) (b : Nat × Nat) : Prop :=
  b = (0, 0) ∨ (a.dtbs_image_start_address ≤ b.1 ∧ checkHeader (blobAt env.mem b.1) = 0 ∧
    b.2 = totalsize (blobAt env.mem b.1) ∧
    (a.dtbs_image_size ≠ 0 → a.dtbs_image_start_address + a.dtbs_image_size < 2 ^ 64 →
      b.1 + b.2 ≤ a.dtbs_image_start_address + a.dtbs_image_size))

/-- What `dt_select_open` gives back. -/
structure Selected (env : Env) (a : OpenArgs) (o : Opened) : Prop where
  start : a.dtbs_image_start_address ≠ 0
  base_size : o.base_dtb_size = o.handle.base_dtb_size
  soc_size : o.soc_dtbo_size = o.handle.soc_dtbo_size
  plat_size : o.plat_dtbo_size = o.handle.plat_dtbo_size
  blob : ∀ type, IsBlob env a (o.handle.blob type)

theorem walk_headers {env : Env} {inp : HandleInput} {start : Nat} {w : WalkState}
    (h : (selectDtbAndDtbos env inp (initHandleData start)).val = .ok (SUCCESS, w)) :
    ∀ s ∈ w.visited, checkHeader (blobAt env.mem s.addr) = 0 := by
  refine (walk_end (fun w => ∀ s ∈ w.visited, checkHeader (blobAt env.mem s.addr) = 0) ?_
    (fun s hs => (nomatch hs)) h).2.2.1
  intro w w' _ hi hstep s hs
  obtain ⟨w1, hend, hx, rfl⟩ := walkStep_next hstep
  obtain ⟨-, -, hc, -, -⟩ := accepted_entry hend
  have hv : w1.visited = w.visited ++ [⟨w.fdtheader, totalsize (blobAt env.mem w.fdtheader)⟩] :=
    (examineBlob_frame _ _ _ _ _ hx).visited
  change s ∈ w1.visited at hs
  rw [hv, List.mem_append] at hs
  rcases hs with hs | hs
  · exact hi s hs
  · rw [List.mem_singleton.mp hs]
    exact hc

theorem mem_pairs (h : HandleData) (type : BlobType) :
    (⟨(h.blob type).1, (h.blob type).2⟩ : Segment) ∈ h.pairs := by
  cases type <;> simp [HandleData.blob, HandleData.pairs]

theorem dtSelectOpen_selected (env : Env) (a : OpenArgs) :
    (dtSelectOpen env a).Ensures fun r => ∀ o, r.2 = some o → Selected env a o := by
  unfold dtSelectOpen
  split
  · exact Traced.ensures_pure.mpr fun _ h => (nomatch h)
  · rename_i prop _
    simp only [Traced.ensures_ite, Traced.ensures_pure, Traced.ensures_bind]
    refine ⟨fun _ _ h => (nomatch h), fun hargs p _ =>
      ⟨fun _ _ h => (nomatch h), fun _ r hr => ⟨fun _ _ _ _ h => (nomatch h), fun hs o ho => ?_⟩⟩⟩
    rw [not_not] at hs
    cases ho
    obtain ⟨status, h⟩ := r
    dsimp only at hs
    subst hs
    have hwalk : ∃ w, (selectDtbAndDtbos env (a.input prop) (initHandleData a.dtbs_image_start_address)).val =
        .ok (SUCCESS, w) ∧ w.handle = h := by
      unfold openHandle at hr
      obtain ⟨s1, -, hr⟩ := Traced.val_bind_ok.mp hr
      split at hr
      · rename_i hne
        cases hr
        exact absurd rfl hne
      · obtain ⟨⟨s2, w⟩, hw, hr⟩ := Traced.val_bind_ok.mp hr
        dsimp only at hr
        split at hr
        · rename_i hne
          cases hr
          exact absurd rfl hne
        · rename_i h2
          rw [not_not] at h2
          subst h2
          obtain ⟨s3, -, hr⟩ := Traced.val_bind_ok.mp hr
          cases hr
          exact ⟨w, hw, rfl⟩
    obtain ⟨w, hw, rfl⟩ := hwalk
    have hi := walk_inv hw
    have hheaders := walk_headers hw
    refine ⟨fun h0 => hargs (Or.inl h0), rfl, rfl, rfl, fun type => ?_⟩
    rcases hi.pairs _ (mem_pairs w.handle type) with hz | hv
    · rw [Segment.mk.injEq] at hz
      exact Or.inl (Prod.ext hz.1 hz.2)
    · refine Or.inr ⟨(hi.tiles.mem_bounds hv).1, hheaders _ hv, hi.sizes _ hv, fun hsize hend => ?_⟩
      exact ((walk_tiles hsize hend hw).mem_bounds hv).2.2

section
variable {env : Env} {a : OpenArgs} {b : Nat × Nat}

theorem IsBlob.size_lt (h : IsBlob env a b) : b.2 < 2 ^ 32 := by
  rcases h with rfl | ⟨-, -, hs, -⟩
  · exact Nat.two_pow_pos 32
  · rw [hs]
    exact totalsize_lt _

/-- A blob that is there has a header of its own. -/
theorem IsBlob.header (h : IsBlob env a b) (hne : b.2 ≠ 0) : HeaderOk (blobAt env.mem b.1) := by
  rcases h with rfl | ⟨-, hc, -, -⟩
  · exact absurd rfl hne
  · exact (checkHeader_eq_zero _).mp hc

theorem IsBlob.totalsize (h : IsBlob env a b) (hne : b.2 ≠ 0) : Fdt.totalsize (blobAt env.mem b.1) = b.2 := by
  rcases h with rfl | ⟨-, -, hs, -⟩
  · exact absurd rfl hne
  · exact hs.symm

theorem IsBlob.size_ge (h : IsBlob env a b) (hne : b.2 ≠ 0) : 28 ≤ b.2 := by
  have hge := (h.header hne).size_ge
  have hmin := headerSize_ge (version (blobAt env.mem b.1))
  rw [h.totalsize hne] at hge
  simp only [FDT_V1_SIZE] at hmin
  omega

theorem IsBlob.start_le (h : IsBlob env a b) (hne : b.2 ≠ 0) : a.dtbs_image_start_address ≤ b.1 := by
  rcases h with rfl | ⟨hs, -⟩
  · exact absurd rfl hne
  · exact hs

end

end DTFramework.Get
