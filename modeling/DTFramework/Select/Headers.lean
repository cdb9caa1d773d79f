import DTFramework.Select.WalkSound

/-!
# The walk as a fold over the blobs of the image

Where the headers of an image are does not depend on what the blobs hold:
`imageBlobs` follows them to the end of the image, with the end test alone.
The walk is then a fold of `examineBlob` over these blobs that stops at the
first one whose examination fails (`selectDtbAndDtbos_eq`), which is how the
results about whole images see it.

Results:

* `imageBlobs_cons`, `imageBlobs_end`: the blobs of an image, one header at a time;
* `walk_eq`, `selectDtbAndDtbos_eq`: the walk is the fold of `examineBlob` over them.
-/
namespace DTFramework.Select

open DTFramework.Fdt DTFramework.Extn DTFramework.Lib

/-- The next header after an accepted one is further on. -/
theorem next_header {env : Env} {inp : HandleInput} {start p : Nat} {e : HandleEntry}
    (h : isFdtheaderAtEndOfImage env inp start p initHandleEntry = (SUCCESS, e, false)) :
    p < (p + e.device_tree_blob_size) % 2 ^ 64 ∧ (p + e.device_tree_blob_size) % 2 ^ 64 < 2 ^ 64 := by
  obtain ⟨-, -, hc, rfl, hsafe⟩ := accepted_entry h
  have hpos := totalsize_pos_of_check hc
  have hlt := totalsize_lt (blobAt env.mem p)
  unfold isSafeToAddPointer at hsafe
  simp only [Bool.not_eq_true', decide_eq_false_iff_not] at hsafe
  rw [acceptedEntry_size]
  omega

/-- The blobs of the image from the header at `p` on, and the status the end
test gives where it ends. -/
def imageBlobs (env : Env) (inp : HandleInput) (start p : Nat) : List Segment × Int :=
  match _h : isFdtheaderAtEndOfImage env inp start p initHandleEntry with
  | (status, e, at_end) =>
    if _hs : status = SUCCESS ∧ at_end = false then
      let rest := imageBlobs env inp start ((p + e.device_tree_blob_size) % 2 ^ 64)
      (⟨p, e.device_tree_blob_size⟩ :: rest.1, rest.2)
    else ([], status)
termination_by 2 ^ 64 - p
decreasing_by
  obtain ⟨rfl, rfl⟩ := _hs
  have := next_header _h
  omega

/-- Where the image has a blob. -/
theorem imageBlobs_cons {env : Env} {inp : HandleInput} {start p : Nat} {e : HandleEntry}
    (h : isFdtheaderAtEndOfImage env inp start p initHandleEntry = (SUCCESS, e, false)) :
    imageBlobs env inp start p =
      (⟨p, e.device_tree_blob_size⟩ :: (imageBlobs env inp start ((p + e.device_tree_blob_size) % 2 ^ 64)).1,
        (imageBlobs env inp start ((p + e.device_tree_blob_size) % 2 ^ 64)).2) := by
  rw [imageBlobs]
  split
  rename_i status e' at_end h'
  rw [h] at h'
  cases h'
  rw [dif_pos ⟨rfl, rfl⟩]

/-- Where it ends. -/
theorem imageBlobs_end {env : Env} {inp : HandleInput} {start p : Nat} {status : Int} {e : HandleEntry}
    {at_end : Bool} (h : isFdtheaderAtEndOfImage env inp start p initHandleEntry = (status, e, at_end))
    (hs : ¬(status = SUCCESS ∧ at_end = false)) : imageBlobs env inp start p = ([], status) := by
  rw [imageBlobs]
  split
  rename_i status' e' at_end' h'
  rw [h] at h'
  cases h'
  rw [dif_neg hs]

/-- Examine blobs one after another; `status` is the answer when all were
examined. -/
def examineAll (env : Env) (inp : HandleInput) (status : Int) : List Segment → WalkState → Prog (Int × WalkState)
  | [], w => return (status, w)
  | s :: l, w => do
    let (r, w) ← examineBlob env inp (w.visit s.size) (acceptedEntry s.addr s.size)
    if r ≠ SUCCESS then return (r, w)
    else examineAll env inp status l (w.advance s.size)

/-- One blob of the fold, without the events. -/
theorem examineAll_cons (env : Env) (inp : HandleInput) (status : Int) (s : Segment) (l : List Segment)
    (w : WalkState) : (examineAll env inp status (s :: l) w).val =
      match (examineBlob env inp (w.visit s.size) (acceptedEntry s.addr s.size)).val with
      | .error fault => .error fault
      | .ok (r, w') => if r ≠ SUCCESS then .ok (r, w')
        else (examineAll env inp status l (w'.advance s.size)).val := by
  rw [examineAll, Traced.val_bind]
  cases (examineBlob env inp (w.visit s.size) (acceptedEntry s.addr s.size)).val with
  | error fault => rfl
  | ok r => exact Traced.val_ite _ _

/-- The walk from a header on. -/
theorem walk_eq (env : Env) (inp : HandleInput) (w : WalkState) {start : Nat}
    (hs : w.handle.dtbs_image_start_address = start) :
    (walk env inp w).val = (examineAll env inp (imageBlobs env inp start w.fdtheader).2
      (imageBlobs env inp start w.fdtheader).1 w).val := by
  induction hn : 2 ^ 64 - w.fdtheader using Nat.strongRecOn generalizing w with
  | _ n ih =>
    subst hn
    unfold walk at ih ⊢
    rw [Traced.loop_eq, walkStep_eq, hs]
    cases hr : isFdtheaderAtEndOfImage env inp start w.fdtheader initHandleEntry with
    | mk status r =>
      obtain ⟨e, at_end⟩ := r
      by_cases hc : status = SUCCESS ∧ at_end = false
      · obtain ⟨rfl, rfl⟩ := hc
        obtain ⟨-, -, -, he, -⟩ := accepted_entry hr
        have hnext := next_header hr
        rw [imageBlobs_cons hr, examineAll_cons]
        simp only [ne_eq, not_true_eq_false, if_false, Bool.false_eq_true]
        rw [show acceptedEntry w.fdtheader e.device_tree_blob_size = e by rw [he]; rfl]
        cases hx : (examineBlob env inp (w.visit e.device_tree_blob_size) e).val with
        | error fault => rfl
        | ok r =>
          obtain ⟨status, w1⟩ := r
          have hf := examineBlob_frame _ _ _ _ _ hx
          have h1 : w1.fdtheader = w.fdtheader := hf.fdtheader
          have h2 : w1.handle.dtbs_image_start_address = start := hf.start.trans hs
          simp only
          by_cases hst : status = SUCCESS
          · subst hst
            have hadv : (w1.advance e.device_tree_blob_size).fdtheader =
                (w.fdtheader + e.device_tree_blob_size) % 2 ^ 64 := by
              simp only [WalkState.advance, h1]
            simp only [not_true_eq_false, if_false]
            rw [ih _ (by rw [hadv]; omega) (w1.advance e.device_tree_blob_size) h2 rfl, hadv]
          · simp only [hst, not_false_eq_true, if_true]
      · rw [imageBlobs_end hr hc]
        by_cases hst : status = SUCCESS
        · have hat : at_end = true := by
            cases at_end
            · exact absurd ⟨hst, rfl⟩ hc
            · rfl
          subst hst hat
          rfl
        · simp only [ne_eq, hst, not_false_eq_true, if_true]
          rfl

/-- `_select_dtb_and_dtbos` is a fold over the blobs of the image. -/
theorem selectDtbAndDtbos_eq (env : Env) (inp : HandleInput) (start : Nat) :
    (selectDtbAndDtbos env inp (initHandleData start)).val =
      (examineAll env inp (imageBlobs env inp start start).2 (imageBlobs env inp start start).1
        (initWalkState (initHandleData start))).val := by
  unfold selectDtbAndDtbos
  split
  · rename_i h0
    have hr : isFdtheaderAtEndOfImage env inp start start initHandleEntry =
        (INVALID_PARAMETER, initHandleEntry, true) := by
      unfold isFdtheaderAtEndOfImage
      exact if_pos (Or.inl h0)
    rw [imageBlobs_end hr (by decide)]
    rfl
  · exact walk_eq env inp (initWalkState (initHandleData start)) rfl

end DTFramework.Select
