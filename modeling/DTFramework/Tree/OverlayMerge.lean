import DTFramework.Tree.Overlay
import DTFramework.Tree.Phandle

/-!
# Applying the fragments of an overlay

`overlay_merge` goes through the fragments of an overlay. A fragment names its
target by a phandle, or else by a path, and what is below its `__overlay__` node is
merged there. On blobs that stand for trees this is `mergeOverlay`, which stops at
the first fragment without a target; or the base has no room (`overlayMerge_refines`).

Results:

* `target_place`: the target of a fragment is the one in the tree;
* `mergeFragment_node`, `fragments_laid`: one fragment, and those from one on;
* `overlayMerge_refines`: all of them.

A target path is absolute here (`PathOk`); one that begins with an alias is left out.
-/
namespace DTFramework.Fdt

open DTFramework.Lib

/-! ## The code -/

abbrev FDT_ERR_BADOVERLAY : Int := 16

/-- "target" -/
abbrev TARGET : Str := [116, 97, 114, 103, 101, 116]
/-- "target-path" -/
abbrev TARGET_PATH : Str := [116, 97, 114, 103, 101, 116, 45, 112, 97, 116, 104]
/-- "__overlay__" -/
abbrev OVERLAY : Str := [95, 95, 111, 118, 101, 114, 108, 97, 121, 95, 95]

/-- mirrors libs/libfdt/fdt_overlay.c:28-41 -/
def overlayGetTargetPhandle (fo : Blob) (fragment : Int) : Nat :=
  match getprop fo fragment TARGET with
  | .error _ => 0
  | .ok (val, len) => if len ≠ 4 ∨ be32 fo val = 0xffffffff then 0xffffffff else be32 fo val

/-- `ret` and `path_len` of `fdt_overlay_target_offset`. -/
def targetLookup (f fo : Blob) (fragment_offset : Int) (phandle : Nat) : Int × Int :=
  if phandle = 0 then
    match getprop fo fragment_offset TARGET_PATH with
    | .error path_len => (path_len, path_len)
    | .ok (path, path_len) => (pathOffset f (cstr fo.rd path INT_MAX), path_len)
  else (nodeOffsetByPhandle f phandle, 0)

/-- mirrors libs/libfdt/fdt_overlay.c:43-85 -/
def overlayTargetOffset (f fo : Blob) (fragment_offset : Int) : Int :=
  let phandle := overlayGetTargetPhandle fo fragment_offset
  if phandle = 0xffffffff then -FDT_ERR_BADPHANDLE
  else
    let r := targetLookup f fo fragment_offset phandle
    if r.1 < 0 ∧ r.2 = -FDT_ERR_NOTFOUND then -FDT_ERR_BADOVERLAY else r.1

/-- The body of `overlay_merge`'s loop. A node without `__overlay__` is passed over.
mirrors libs/libfdt/fdt_overlay.c:834-855 -/
def mergeFragment (m : Mem) (fdt fdto : Nat) (fragment : Int) : Except Extn.Fault (Int × Mem) :=
  let overlay := subnodeOffset (blobAt m fdto) fragment OVERLAY
  if overlay = -FDT_ERR_NOTFOUND then .ok (0, m)
  else if overlay < 0 then .ok (overlay, m)
  else
    let target := overlayTargetOffset (blobAt m fdt) (blobAt m fdto) fragment
    if target < 0 then .ok (target, m) else applyNode m fdt target fdto overlay

def mergeFragments (m : Mem) (fdt fdto : Nat) (fragment : Int) : Except Extn.Fault (Int × Mem) :=
  match mergeFragment m fdt fdto fragment with
  | .error fault => .error fault
  | .ok r =>
    if r.1 ≠ 0 then .ok r
    else if _h : nextSubnode (blobAt r.2 fdto) fragment < 0 then .ok (0, r.2)
    else mergeFragments r.2 fdt fdto (nextSubnode (blobAt r.2 fdto) fragment)
termination_by nodeRoom fragment
decreasing_by exact nextSubnode_nodeRoom (Int.not_lt.mp _h)

/-- mirrors libs/libfdt/fdt_overlay.c:829-859 -/
def overlayMerge (m : Mem) (fdt fdto : Nat) : Except Extn.Fault (Int × Mem) :=
  let fragment := firstSubnode (blobAt m fdto) 0
  if fragment < 0 then .ok (0, m) else mergeFragments m fdt fdto fragment

/-! ## Trees -/

/-- 0 when a fragment names no phandle, and -1 when it is malformed. -/
def NodeData.targetPhandle (a : NodeData) : Nat :=
  (a.value TARGET).elim 0 fun v => if v.length = 4 then Extn.bigEndian v else 0xffffffff

/-- The node that a fragment is for. -/
def targetPlace (t : Forest NodeData) (a : NodeData) : Except Int (Place NodeData) :=
  if a.targetPhandle = 0xffffffff then .error (-FDT_ERR_BADPHANDLE)
  else if a.targetPhandle = 0 then
    (a.value TARGET_PATH).elim (.error (-FDT_ERR_BADOVERLAY)) fun v =>
      (find t (v.takeWhile (· != 0))).elim (.error (-FDT_ERR_NOTFOUND)) .ok
  else (withPhandle t a.targetPhandle).elim (.error (-FDT_ERR_NOTFOUND)) .ok

/-- A fragment is merged into a tree. -/
def mergeAt (t : Forest NodeData) (fragment : Place NodeData) : Int × Forest NodeData :=
  (childNamed fragment OVERLAY).elim (0, t) fun overlay =>
    match targetPlace t fragment.label with
    | .error e => (e, t)
    | .ok n => (0, n.put (n.label.join overlay.label) (mergeTrees n.subs overlay.subs))

/-- Fragments one after the other, up to the first that fails. -/
def mergeAll (t : Forest NodeData) (c : Ctx NodeData) : Forest NodeData → Int × Forest NodeData
  | .nil => (0, t)
  | .node a subs rest =>
    let r := mergeAt t ⟨c, a, subs, rest⟩
    if r.1 ≠ 0 then r else mergeAll r.2 (.next a subs c) rest

/-- An overlay is merged into a tree. -/
def mergeOverlay (t ot : Forest NodeData) : Int × Forest NodeData :=
  (root ot).elim (0, t) fun r => mergeAll t (.down r.label r.rest r.ctx) r.subs

/-- The bytes a fragment may take. -/
def fragmentNeed (fragment : Place NodeData) : Nat :=
  (childNamed fragment OVERLAY).elim 0 fun overlay => propsNeed overlay.label.props + mergeNeed overlay.subs

def fragmentsNeed (c : Ctx NodeData) : Forest NodeData → Nat
  | .nil => 0
  | .node a subs rest => fragmentNeed ⟨c, a, subs, rest⟩ + fragmentsNeed (.next a subs c) rest

def overlayNeed (ot : Forest NodeData) : Nat :=
  (root ot).elim 0 fun r => fragmentsNeed (.down r.label r.rest r.ctx) r.subs

/-- A target path is absolute, and a C string. -/
def PathOk (a : NodeData) : Prop := ∀ v, a.value TARGET_PATH = some v → 0 ∈ v ∧ v.head? = some SLASH

section
variable {m : Mem} {p q : Nat} {o : Int} {t : Forest NodeData} {fragment : Place NodeData}

/-- The loop of `overlay_merge`, from the offset of the first fragment. -/
def fragmentsFrom (m : Mem) (fdt fdto : Nat) (fragment : Int) : Except Extn.Fault (Int × Mem) :=
  if fragment < 0 then .ok (0, m) else mergeFragments m fdt fdto fragment

def FragmentsOk : Forest NodeData → Prop
  | .nil => True
  | .node a _ rest => PathOk a ∧ FragmentsOk rest

/-! ## Targets -/

theorem cstr_until {rd : Nat → UInt8} {v : Str} {k n : Nat} (h : At rd k v) (hz : 0 ∈ v) (hn : v.length ≤ n) :
    cstr rd k n = v.takeWhile (· != 0) := by
  induction v generalizing k n with
  | nil => cases hz
  | cons c v ih =>
    rw [at_cons] at h
    cases n with
    | zero => exact absurd hn (Nat.not_succ_le_zero _)
    | succ n =>
      rw [cstr, h.1, List.takeWhile_cons]
      by_cases hc : c = 0
      · rw [if_pos hc, if_neg (by simp [hc])]
      · have hz' : 0 ∈ v := (List.mem_cons.mp hz).resolve_left (Ne.symm hc)
        rw [if_neg hc, if_pos (by simpa using hc), ih h.2 hz' (Nat.le_of_succ_le_succ hn)]

theorem targetPhandle_node (h : NodeAt m q o fragment) :
    overlayGetTargetPhandle (blobAt m q) o = fragment.label.targetPhandle := by
  unfold overlayGetTargetPhandle NodeData.targetPhandle
  rcases h.getprop TARGET with ⟨hnone, hget⟩ | ⟨v, k, hv, hget, hat, -⟩
  · rw [hnone, hget]
    rfl
  · rw [hv, hget, Option.elim_some]
    dsimp only
    by_cases h4 : v.length = 4
    · rw [be32_bigEndian hat h4, if_pos h4]
      by_cases hbad : Extn.bigEndian v = 0xffffffff
      · rw [if_pos (Or.inr hbad), hbad]
      · rw [if_neg (by rintro (h | h); exacts [h (by omega), hbad h])]
    · rw [if_pos (Or.inl (by omega)), if_neg h4]

theorem overlayTargetOffset_eq {f fo : Blob} {r : Int × Int} (hp : overlayGetTargetPhandle fo o ≠ 0xffffffff)
    (hr : targetLookup f fo o (overlayGetTargetPhandle fo o) = r) :
    overlayTargetOffset f fo o = if r.1 < 0 ∧ r.2 = -FDT_ERR_NOTFOUND then -FDT_ERR_BADOVERLAY else r.1 := by
  subst hr
  exact if_neg hp

/-- The target is the one in the tree. -/
theorem target_place (ht : Carries m p t) (hroot : (root t).isSome = true) (h : NodeAt m q o fragment)
    (hok : PathOk fragment.label) :
    match targetPlace t fragment.label with
    | .error e => overlayTargetOffset (blobAt m p) (blobAt m q) o = e ∧ e < 0
    | .ok n => NodeAt m p (overlayTargetOffset (blobAt m p) (blobAt m q) o) n := by
  have hphandle := targetPhandle_node h
  have hnone : (-FDT_ERR_NOTFOUND : Int) < 0 := by decide
  unfold targetPlace
  by_cases hbad : fragment.label.targetPhandle = 0xffffffff
  · have hoff : overlayTargetOffset (blobAt m p) (blobAt m q) o = -FDT_ERR_BADPHANDLE :=
      if_pos (hphandle.trans hbad)
    rw [if_pos hbad]
    exact ⟨hoff, by decide⟩
  have hoff := fun r => overlayTargetOffset_eq (f := blobAt m p) (r := r) (hphandle ▸ hbad)
  rw [hphandle] at hoff
  rw [if_neg hbad]
  by_cases hzero : fragment.label.targetPhandle = 0
  · have hlook : targetLookup (blobAt m p) (blobAt m q) o fragment.label.targetPhandle = _ := if_pos hzero
    rw [if_pos hzero]
    rcases h.getprop TARGET_PATH with ⟨hno, hget⟩ | ⟨v, k, hv, hget, hat, hlen⟩
    · rw [hget] at hlook
      rw [hno]
      exact ⟨(hoff _ hlook).trans (if_pos ⟨hnone, rfl⟩), by decide⟩
    · obtain ⟨hz, hslash⟩ := hok v hv
      have hhead : (v.takeWhile (· != 0)).head? = some SLASH := by
        cases v with
        | nil => cases hslash
        | cons c v =>
          cases hslash
          rfl
      have hlen' : ¬((v.length : Int) = -FDT_ERR_NOTFOUND) := fun hc => by
        have hpos := Int.natCast_nonneg v.length
        rw [hc] at hpos
        exact absurd hpos (by decide)
      rw [hget] at hlook
      dsimp only at hlook
      rw [cstr_until hat hz (Nat.le_of_lt hlen)] at hlook
      have hpath := (hoff _ hlook).trans (if_neg fun hc => hlen' hc.2)
      have hfound := ht.pathOffset hhead hroot
      rw [hv, Option.elim_some, hpath]
      cases hfind : find t (v.takeWhile (· != 0)) with
      | none =>
        rw [hfind] at hfound
        exact ⟨hfound, hnone⟩
      | some n =>
        rw [hfind] at hfound
        exact hfound
  · have hlook : targetLookup (blobAt m p) (blobAt m q) o fragment.label.targetPhandle = _ := if_neg hzero
    have hfar : ¬((0 : Int) = -FDT_ERR_NOTFOUND) := by decide
    have hsearch := (hoff _ hlook).trans (if_neg fun hc => hfar hc.2)
    have hfound := ht.byPhandle (fun hp => hp.elim hzero hbad)
    rw [if_neg hzero, hsearch]
    cases hfind : withPhandle t fragment.label.targetPhandle with
    | none =>
      rw [hfind] at hfound
      exact ⟨hfound, hnone⟩
    | some n =>
      rw [hfind] at hfound
      exact hfound

/-! ## Fragments -/

/-- A fragment is merged into the tree, or the base has no room. -/
theorem mergeFragment_node (ht : Carries m p t) (hroot : (root t).isSome = true) (h : NodeAt m q o fragment)
    (hok : PathOk fragment.label) (hap : Apart p (totalsize (blobAt m p)) q (totalsize (blobAt m q))) :
    ∃ st m', mergeFragment m p q o = .ok (st, m') ∧ Within p m m' ∧
      ((∃ t', mergeAt t fragment = (st, t') ∧ Carries m' p t' ∧ (root t').isSome = true ∧
          dataSize (blobAt m' p) ≤ dataSize (blobAt m p) + fragmentNeed fragment) ∨
        (st = -FDT_ERR_NOSPACE ∧ totalsize (blobAt m p) < dataSize (blobAt m p) + fragmentNeed fragment ∧
          ∃ t', Carries m' p t')) := by
  have hchild := h.child OVERLAY
  unfold mergeAt fragmentNeed
  cases hover : childNamed fragment OVERLAY with
  | none =>
    rw [hover] at hchild
    have hcode : mergeFragment m p q o = .ok (0, m) := if_pos hchild
    exact ⟨0, m, hcode, Within.refl m, Or.inl ⟨t, rfl, ht, hroot, Nat.le_add_right _ _⟩⟩
  | some overlay =>
    rw [hover] at hchild
    have hpos := hchild.nonneg
    have htarget := target_place ht hroot h hok
    have hcode : mergeFragment m p q o = if overlayTargetOffset (blobAt m p) (blobAt m q) o < 0
        then .ok (overlayTargetOffset (blobAt m p) (blobAt m q) o, m)
        else applyNode m p (overlayTargetOffset (blobAt m p) (blobAt m q) o) q
            (subnodeOffset (blobAt m q) o OVERLAY) :=
      (if_neg fun hc => absurd (hc ▸ hpos) (by decide)).trans (if_neg (Int.not_lt.mpr hpos))
    rw [Option.elim_some, Option.elim_some]
    cases hplace : targetPlace t fragment.label with
    | error e =>
      rw [hplace] at htarget
      obtain ⟨hoff, hneg⟩ := htarget
      rw [hoff, if_pos hneg] at hcode
      exact ⟨e, m, hcode, Within.refl m, Or.inl ⟨t, rfl, ht, hroot, Nat.le_add_right _ _⟩⟩
    | ok n =>
      rw [hplace] at htarget
      rw [if_neg (Int.not_lt.mpr htarget.nonneg)] at hcode
      obtain ⟨st, m', happly, hwithin, -, ⟨rfl, hnode, hgrows⟩ | hfull⟩ := htarget.applyNode hchild hap
      · exact ⟨0, m', hcode.trans happly, hwithin, Or.inl ⟨_, rfl, hnode.carries, plug_root n.ctx _ _ n.rest, hgrows⟩⟩
      · exact ⟨st, m', hcode.trans happly, hwithin, Or.inr hfull⟩

theorem mergeFragments_ok {r : Int × Mem} (h : mergeFragment m p q o = .ok r) :
    mergeFragments m p q o =
      if r.1 ≠ 0 then .ok r else fragmentsFrom r.2 p q (nextSubnode (blobAt r.2 q) o) := by
  rw [mergeFragments, h]
  simp only [dite_eq_ite]
  rfl

/-- What merging fragments ends with, where `r` says what the tree is. -/
def Merged (m : Mem) (p : Nat) (need : Nat) (r : Int × Forest NodeData) (st : Int) (m' : Mem) : Prop :=
  (∃ t', r = (st, t') ∧ Carries m' p t' ∧ (root t').isSome = true ∧
      dataSize (blobAt m' p) ≤ dataSize (blobAt m p) + need) ∨
    (st = -FDT_ERR_NOSPACE ∧ totalsize (blobAt m p) < dataSize (blobAt m p) + need ∧ ∃ t', Carries m' p t')

section
variable {c : Ctx NodeData} {a : NodeData} {subs rest t1 : Forest NodeData} {st : Int}

theorem mergeAll_next (h : mergeAt t ⟨c, a, subs, rest⟩ = (0, t1)) :
    mergeAll t c (.node a subs rest) = mergeAll t1 (.next a subs c) rest := by
  rw [mergeAll, h]
  exact if_neg (not_not.mpr rfl)

theorem mergeAll_stop (h : mergeAt t ⟨c, a, subs, rest⟩ = (st, t1)) (hst : st ≠ 0) :
    mergeAll t c (.node a subs rest) = (st, t1) := by
  rw [mergeAll, h]
  exact if_pos hst

end

theorem fragmentsNeed_next (l : Place NodeData) : fragmentsNeed l.ctx (.node l.label l.subs l.rest) =
    fragmentNeed l + fragmentsNeed (.next l.label l.subs l.ctx) l.rest := by
  rw [fragmentsNeed]

/-- The fragments from one on are merged into the tree, up to the first that fails. -/
theorem fragments_laid {ft : Forest FlatNode} {c : Ctx FlatNode} {k : Nat} {b : FlatNode} {io : Image}
    (hover : Laid m q io (c.plug ft)) (hlevel : ∀ f, Lies f io.strs (c.plug ft) → LevelStands f io.strs k ft b)
    (hc : (c.before FlatNode.opens FlatNode.closes).length = k) (ht : Carries m p t) (hroot : (root t).isSome = true)
    (hok : FragmentsOk (ft.map (FlatNode.data io.strs))) (hap : Apart p (totalsize (blobAt m p)) q io.total) :
    ∃ st m', fragmentsFrom m p q (firstOf ft k) = .ok (st, m') ∧ Within p m m' ∧
      Merged m p (fragmentsNeed (c.map (FlatNode.data io.strs)) (ft.map (FlatNode.data io.strs)))
        (mergeAll t (c.map (FlatNode.data io.strs)) (ft.map (FlatNode.data io.strs))) st m' := by
  induction ft generalizing m t c k with
  | nil =>
    have hcode : fragmentsFrom m p q (firstOf .nil k) = .ok (0, m) :=
      if_pos (show (-FDT_ERR_NOTFOUND : Int) < 0 by decide)
    exact ⟨0, m, hcode, Within.refl m, Or.inl ⟨t, rfl, ht, hroot, Nat.le_add_right _ _⟩⟩
  | node a subs rest _ ihr =>
    obtain ⟨hpath, hrest⟩ := hok
    have hnode : NodeAt m q k (Place.map (FlatNode.data io.strs) ⟨c, a, subs, rest⟩) :=
      ⟨io, ⟨c, a, subs, rest⟩, hover, congrArg Int.ofNat hc.symm, rfl⟩
    have hfirst : fragmentsFrom m p q (firstOf (.node a subs rest) k) = mergeFragments m p q k :=
      if_neg (Int.not_lt.mpr (Int.natCast_nonneg k))
    obtain ⟨st, m1, hcode, hwithin, hstep⟩ := mergeFragment_node ht hroot hnode hpath (by
      rwa [hover.holds.reads.total])
    have hloop := mergeFragments_ok hcode
    rw [hfirst]
    rcases hstep with ⟨t1, hmerge, hcarries, hroot1, hgrows⟩ | ⟨hst, hfull, t1, hcarries⟩
    · by_cases hst : st = 0
      · subst hst
        have hover1 : Laid m1 q io (c.plug (.node a subs rest)) := hover.apart hwithin.kept hap
        have hnext := nextSubnode_flat hover1.lies.fits (hlevel _ hover1.lies)
        have hspan : ((Ctx.next a subs c).before FlatNode.opens FlatNode.closes).length = _ := before_next hc
        have hwhere : k + a.opens.length + (flat subs).length + a.closes.length = k + span a subs := by
          unfold span
          omega
        rw [if_neg (not_not.mpr rfl), hnext] at hloop
        obtain ⟨st2, m2, hcode2, hwithin2, hmerged⟩ := ihr (c := .next a subs c) hover1
          (fun f hf => (hlevel f hf).node.2) (hspan.trans hwhere) hcarries hroot1 hrest (by rwa [hwithin.total])
        have hall : mergeAll t (c.map (FlatNode.data io.strs))
          ((Forest.node a subs rest).map (FlatNode.data io.strs)) =
            mergeAll t1 ((Ctx.next a subs c).map (FlatNode.data io.strs)) (rest.map (FlatNode.data io.strs)) :=
          mergeAll_next hmerge
        have hneed : fragmentsNeed (c.map (FlatNode.data io.strs))
          ((Forest.node a subs rest).map (FlatNode.data io.strs)) =
            fragmentNeed (Place.map (FlatNode.data io.strs) ⟨c, a, subs, rest⟩) +
              fragmentsNeed ((Ctx.next a subs c).map (FlatNode.data io.strs)) (rest.map (FlatNode.data io.strs)) :=
          fragmentsNeed_next (Place.map (FlatNode.data io.strs) ⟨c, a, subs, rest⟩)
        refine ⟨st2, m2, hloop.trans hcode2, hwithin.trans hwithin2, ?_⟩
        rw [hall, hneed]
        rcases hmerged with ⟨t2, hr, hcarries2, hroot2, hgrows2⟩ | ⟨hst2, hfull2, hcarries2⟩
        · exact Or.inl ⟨t2, hr, hcarries2, hroot2, by omega⟩
        · rw [hwithin.total] at hfull2
          exact Or.inr ⟨hst2, by omega, hcarries2⟩
      · rw [if_pos hst] at hloop
        exact ⟨st, m1, hloop, hwithin, Or.inl ⟨t1, mergeAll_stop hmerge hst, hcarries, hroot1,
          Nat.le_trans hgrows (Nat.add_le_add_left (Nat.le_add_right _ _) _)⟩⟩
    · subst hst
      rw [if_pos (show (-FDT_ERR_NOSPACE : Int) ≠ 0 by decide)] at hloop
      exact ⟨_, m1, hloop, hwithin, Or.inr ⟨rfl,
        Nat.lt_of_lt_of_le hfull (Nat.add_le_add_left (Nat.le_add_right _ _) _), t1, hcarries⟩⟩

/-- `overlay_merge` is the merge of the trees, with its status, or the base has no
room; the overlay reads as before, and nothing else is written. -/
theorem overlayMerge_refines {ot : Forest NodeData} (ht : Carries m p t) (hroot : (root t).isSome = true)
    (hot : Carries m q ot) {r : Place NodeData} (hr : root ot = some r) (hok : FragmentsOk r.subs)
    (hap : Apart p (totalsize (blobAt m p)) q (totalsize (blobAt m q))) :
    ∃ st m', overlayMerge m p q = .ok (st, m') ∧ Within p m m' ∧ ReadsAs (blobAt m' q) ot ∧
      ((mergeOverlay t ot).1 = st ∧ ReadsAs (blobAt m' p) (mergeOverlay t ot).2 ∨
        st = -FDT_ERR_NOSPACE ∧ totalsize (blobAt m p) < dataSize (blobAt m p) + overlayNeed ot ∧
          ∃ t', Carries m' p t') := by
  obtain ⟨io, ft, hover, rfl⟩ := hot
  cases ft with
  | nil => cases hr
  | node a subs rest =>
    cases hr
    have hlies := hover.lies
    have hhere : NodeStands (blobAt m q) io.strs 0 a subs :=
      Lies.here (l := ⟨.top, a, subs, rest⟩) hlies
    have hfirst := firstSubnode_flat hlies.fits hhere
    rw [hover.holds.reads.total] at hap
    have hdown : ((Ctx.down a rest .top).before FlatNode.opens FlatNode.closes).length = 0 + a.opens.length := by
      rw [Ctx.before, List.length_append]
      rfl
    obtain ⟨st, m', hcode, hwithin, hmerged⟩ := fragments_laid (c := .down a rest .top) hover
      (fun f hf => (Lies.here (l := ⟨.top, a, subs, rest⟩) hf).level) hdown ht hroot hok hap
    have hloop : overlayMerge m p q = fragmentsFrom m p q (firstOf subs (0 + a.opens.length)) :=
      congrArg (fragmentsFrom m p q) hfirst
    have hover' : Laid m' q io (.node a subs rest) := hover.apart hwithin.kept hap
    have hreads : Carries m' q ((Forest.node a subs rest).map (FlatNode.data io.strs)) := ⟨io, _, hover', rfl⟩
    refine ⟨st, m', hloop.trans hcode, hwithin, hreads.readsAs rfl, ?_⟩
    rcases hmerged with ⟨t', htree, hcarries, hroot', -⟩ | hfull
    · have hall : mergeOverlay t ((Forest.node a subs rest).map (FlatNode.data io.strs)) = (st, t') := htree
      rw [hall]
      exact Or.inl ⟨rfl, hcarries.readsAs hroot'⟩
    · exact Or.inr hfull

end

/-- "reg" and "target-path". -/
def fragmentStrs : Str := [114, 101, 103, 0] ++ TARGET_PATH ++ [0]

/-- A fragment that sets `reg` of `/cpu`. -/
def smallFragment : Forest FlatNode :=
  .node ⟨[], [0, 0, 0], [], 0⟩ (.node ⟨[102], [0, 0], [.prop 4 [SLASH, 99, 112, 117, 0] [0, 0, 0]], 0⟩
    (.node ⟨OVERLAY, [], [.prop 0 [5] [0, 0, 0]], 0⟩ .nil .nil) .nil) .nil

theorem smallFragment_ok : smallFragment.All (FlatNode.Ok fragmentStrs) := by
  refine ⟨⟨by decide, by decide, fun _ hi => absurd hi List.not_mem_nil⟩, ⟨⟨by decide, by decide, ?_⟩,
    ⟨⟨by decide, by decide, ?_⟩, trivial, trivial⟩, trivial⟩, trivial⟩
  · intro i hi
    rw [List.mem_singleton.mp hi]
    exact ⟨by decide, by decide⟩
  · intro i hi
    rw [List.mem_singleton.mp hi]
    exact ⟨by decide, by decide⟩

def fragmentMem : Mem := store smallMem 400 (layout smallFragment fragmentStrs 200).bytes

theorem overlayMerge_small : ∃ m', overlayMerge fragmentMem 0 400 = .ok (0, m') ∧
    ReadsAs (blobAt m' 0) (.node ⟨[], [([114, 101, 103], [1])]⟩
      (.node ⟨[99, 112, 117, 64, 48], [([114, 101, 103], [5])]⟩ .nil .nil) .nil) := by
  have hbase : Laid fragmentMem 0 smallImage smallTree :=
    layout_laid ((at_memOf 0 smallImage.bytes).store (Or.inl (by decide +kernel))) rfl smallTree_ok (by decide)
      (by decide)
  have hover : Laid fragmentMem 400 (layout smallFragment fragmentStrs 200) smallFragment :=
    layout_laid (store_at smallMem 400 _) rfl smallFragment_ok (by decide) (by decide)
  have hpath : PathOk ⟨[102], [(TARGET_PATH, [SLASH, 99, 112, 117, 0])]⟩ := fun v hv => by
    have hvalue : NodeData.value ⟨[102], [(TARGET_PATH, [SLASH, 99, 112, 117, 0])]⟩ TARGET_PATH =
      some [SLASH, 99, 112, 117, 0] := by decide
    cases Option.some.inj (hvalue.symm.trans hv)
    exact ⟨by decide, rfl⟩
  obtain ⟨st, m', hcode, -, -, ⟨hst, hreads⟩ | ⟨-, hfull, -⟩⟩ := overlayMerge_refines
    (t := smallTree.map (FlatNode.data smallImage.strs)) ⟨_, _, hbase, rfl⟩ rfl ⟨_, _, hover, rfl⟩ rfl
    (show FragmentsOk _ from ⟨hpath, trivial⟩) (by
      rw [hbase.holds.reads.total, hover.holds.reads.total]
      exact Or.inl (Nat.le_refl 400))
  · have htree : mergeOverlay (smallTree.map (FlatNode.data smallImage.strs))
        (smallFragment.map (FlatNode.data (layout smallFragment fragmentStrs 200).strs)) =
        (0, .node ⟨[], [([114, 101, 103], [1])]⟩
          (.node ⟨[99, 112, 117, 64, 48], [([114, 101, 103], [5])]⟩ .nil .nil) .nil) := by decide
    rw [htree] at hst hreads
    obtain rfl : 0 = st := hst
    exact ⟨m', hcode, hreads⟩
  · rw [hbase.holds.reads.total, hbase.holds.dataSize] at hfull
    exact absurd hfull (by decide)

end DTFramework.Fdt
