import DTFramework.Tree.Remove

/-!
# Editing sessions

A program edits a blob by paths: each edit looks its node up and sets or takes out
a property, adds a node below it or takes it out. The blob follows the tree that
the edits describe, edit for edit, from any tree (`edit_session`); only an edit
that adds something can fail for want of room, and then the tree is as it was.

Results:

* `Edit.step`: one edit;
* `edit_session`: any sequence of them.
-/
namespace DTFramework.Fdt

open DTFramework.Lib

inductive Edit
  | set (name val : Str)
  | unset (name : Str)
  | add (name : Str)
  | remove
deriving DecidableEq, Repr

/-- The status of an edit of the node at `o`, 0 for the offset of a new node. -/
def Edit.run (m : Mem) (p : Nat) (o : Int) : Edit → Int × Mem
  | .set name val => setprop m p o name val
  | .unset name => delprop m p o name
  | .add name => (min (addSubnode m p o name).1 0, (addSubnode m p o name).2)
  | .remove => delNode m p o

/-- The status of an edit of a node of a tree, and the tree. -/
def Edit.onNode (n : Place NodeData) : Edit → Int × Forest NodeData
  | .set name val => (0, n.put (n.label.setprop name val) n.subs)
  | .unset name => (if (n.label.value name).isSome then 0 else -FDT_ERR_NOTFOUND, n.put (n.label.delprop name) n.subs)
  | .add name =>
    if (childNamed n name).isSome then (-FDT_ERR_EXISTS, n.forest)
    else (0, n.put n.label (.node ⟨name, []⟩ .nil n.subs))
  | .remove => (0, n.ctx.plug n.rest)

/-- The room that an edit takes at most. -/
def Edit.need : Edit → Nat
  | .set name val => propNeed name val
  | .add name => nodeNeed name
  | .unset _ | .remove => 0

/-- An edit, and the path of its node. -/
structure EditCall where
  path : Str
  what : Edit
deriving DecidableEq, Repr

/-- Names are C strings, what is added fits an `int`, and the root is not taken out. -/
def EditCall.Ok (c : EditCall) : Prop := c.path.head? = some SLASH ∧ match c.what with
  | .set name val => 0 ∉ name ∧ name.length < INT_MAX ∧ 12 + tagAlign val.length ≤ INT_MAX
  | .unset _ => True
  | .add name => 0 ∉ name ∧ nodeNeed name ≤ INT_MAX
  | .remove => components SLASH c.path ≠ []

def EditCall.run (c : EditCall) (m : Mem) (p : Nat) : Int × Mem :=
  if pathOffset (blobAt m p) c.path < 0 then (pathOffset (blobAt m p) c.path, m)
  else c.what.run m p (pathOffset (blobAt m p) c.path)

def EditCall.onTree (c : EditCall) (t : Forest NodeData) : Int × Forest NodeData :=
  (find t c.path).elim (-FDT_ERR_NOTFOUND, t) c.what.onNode

/-- The statuses of the edits of a blob, and the memory after them. -/
def runEdits (m : Mem) (p : Nat) : List EditCall → List Int × Mem
  | [] => ([], m)
  | c :: edits => ((c.run m p).1 :: (runEdits (c.run m p).2 p edits).1, (runEdits (c.run m p).2 p edits).2)

/-- The statuses of the edits of a tree, and the tree after them. -/
def editTree (t : Forest NodeData) : List EditCall → List Int × Forest NodeData
  | [] => ([], t)
  | c :: edits => ((c.onTree t).1 :: (editTree (c.onTree t).2 edits).1, (editTree (c.onTree t).2 edits).2)

/-- Each edit is made on the tree; or it takes room, has none, and leaves the tree. -/
inductive Edited : Forest NodeData → List EditCall → List Int → Forest NodeData → Prop
  | done (t : Forest NodeData) : Edited t [] [] t
  | made {t t' : Forest NodeData} {c : EditCall} {edits : List EditCall} {statuses : List Int}
      (h : Edited (c.onTree t).2 edits statuses t') : Edited t (c :: edits) ((c.onTree t).1 :: statuses) t'
  | full {t t' : Forest NodeData} {c : EditCall} {edits : List EditCall} {statuses : List Int}
    (hneed : 0 < c.what.need)
      (h : Edited t edits statuses t') : Edited t (c :: edits) (-FDT_ERR_NOSPACE :: statuses) t'

section
variable {m : Mem} {p : Nat} {o : Int} {n : Place NodeData} {t : Forest NodeData}

/-- What one edit does, from a tree with a root. -/
structure EditStep (m : Mem) (p : Nat) (t : Forest NodeData) (onTree : Int × Forest NodeData) (need : Nat)
    (r : Int × Mem) : Prop where
  within : Within p m r.2
  size : dataSize (blobAt r.2 p) ≤ dataSize (blobAt m p) + need
  tree : (r.1 = onTree.1 ∧ Carries r.2 p onTree.2 ∧ (root onTree.2).isSome = true) ∨
    (r.1 = -FDT_ERR_NOSPACE ∧ Carries r.2 p t ∧ totalsize (blobAt m p) < dataSize (blobAt m p) + need)

theorem plug_forest {c : Ctx NodeData} (hc : c ≠ .top) (t : Forest NodeData) : (root (c.plug t)).isSome = true := by
  cases c with
  | top => exact absurd rfl hc
  | down a rest c => exact plug_root c a t rest
  | next a subs c => exact plug_root c a subs t

/-- The step at a node. -/
theorem Edit.step {path : Str} (e : Edit) (h : NodeAt m p o n) (hok : (EditCall.mk path e).Ok)
    (hn : components SLASH path ≠ [] → n.ctx ≠ .top) : EditStep m p n.forest (e.onNode n) e.need (e.run m p o) := by
  cases e with
  | set name val =>
    obtain ⟨hz, hname, hval⟩ := hok.2
    obtain ⟨hwithin, hsize, ⟨hst, hnode⟩ | ⟨hst, hnode, hfull⟩⟩ := h.setprop hz hname hval
    · exact ⟨hwithin, hsize, Or.inl ⟨hst, hnode.carries, plug_root _ _ _ _⟩⟩
    · exact ⟨hwithin, hsize, Or.inr ⟨hst, hnode.carries, hfull⟩⟩
  | unset name =>
    obtain ⟨hwithin, hsize, hst, hnode⟩ := h.delprop name
    exact ⟨hwithin, hsize, Or.inl ⟨hst, hnode.carries, plug_root _ _ _ _⟩⟩
  | add name =>
    obtain ⟨hwithin, hsize, hadd⟩ := h.addSubnode hok.2.1 hok.2.2
    refine ⟨hwithin, hsize, ?_⟩
    unfold onNode run
    dsimp only
    cases hchild : childNamed n name with
    | some n' =>
      rw [hchild] at hadd
      rw [hadd.1]
      exact Or.inl ⟨rfl, hadd.2.carries, plug_root _ _ _ _⟩
    | none =>
      rw [hchild] at hadd
      rcases hadd with ⟨h0, hnode⟩ | ⟨hst, hnode, hfull⟩
      · exact Or.inl ⟨min_eq_right h0, hnode.carries, plug_root _ _ _ _⟩
      · rw [hst]
        exact Or.inr ⟨rfl, hnode.carries, hfull⟩
  | remove =>
    obtain ⟨hwithin, hsize, hst, hcarries⟩ := h.delNode (hn hok.2)
    exact ⟨hwithin, hsize, Or.inl ⟨hst, hcarries, plug_forest (hn hok.2) n.rest⟩⟩

/-- What a blob holds fits it. -/
theorem Carries.dataSize_le (h : Carries m p t) : dataSize (blobAt m p) ≤ totalsize (blobAt m p) := by
  obtain ⟨i, ft, hlaid, -⟩ := h
  rw [hlaid.holds.dataSize, hlaid.holds.reads.total]
  exact hlaid.holds.ok.size

theorem EditCall.step (c : EditCall) (hok : c.Ok) (h : Carries m p t) (hroot : (root t).isSome = true) :
    EditStep m p t (c.onTree t) c.what.need (c.run m p) := by
  have hfound := h.pathOffset hok.1 hroot
  unfold onTree run
  cases hfind : find t c.path with
  | none =>
    rw [hfind] at hfound
    rw [hfound]
    exact ⟨Within.refl m, Nat.le_add_right _ _, Or.inl ⟨rfl, h, hroot⟩⟩
  | some n =>
    rw [hfind] at hfound
    have hforest := find_forest hfind
    have hn : components SLASH c.path ≠ [] → n.ctx ≠ .top := fun hne htop => by
      obtain ⟨r, hr, hlookup⟩ := Option.bind_eq_some_iff.mp hfind
      have hdepth := Place.walk_depth hlookup
      rw [htop, List.length_map] at hdepth
      exact hne (List.eq_nil_of_length_eq_zero (by
        have hzero : (Ctx.top : Ctx NodeData).depth = 0 := rfl
        omega))
    rw [if_neg (Int.not_lt.mpr hfound.nonneg), Option.elim_some, ← hforest]
    exact c.what.step hfound hok hn

theorem runEdits_edited (edits : List EditCall) (hok : ∀ c ∈ edits, c.Ok) (h : Carries m p t)
    (hroot : (root t).isSome = true) : ∃ t', Edited t edits (runEdits m p edits).1 t' ∧
      Carries (runEdits m p edits).2 p t' ∧ (root t').isSome = true ∧ Within p m (runEdits m p edits).2 ∧
      (dataSize (blobAt m p) + (edits.map (·.what.need)).sum ≤ totalsize (blobAt m p) →
        editTree t edits = ((runEdits m p edits).1, t')) := by
  induction edits generalizing m t with
  | nil => exact ⟨t, .done t, h, hroot, Within.refl m, fun _ => rfl⟩
  | cons c edits ih =>
    obtain ⟨hwithin, hsize, hstep⟩ := c.step (hok c List.mem_cons_self) h hroot
    have hrest : ∀ c' ∈ edits, c'.Ok := fun c' hc' => hok c' (List.mem_cons_of_mem c hc')
    rw [List.map_cons, List.sum_cons, runEdits, editTree]
    rcases hstep with ⟨hst, hcarries, hroot1⟩ | ⟨hst, hcarries, hfull⟩
    · obtain ⟨t', hedited, hcarries', hroot', hwithin', hall⟩ := ih hrest hcarries hroot1
      rw [hst]
      refine ⟨t', .made hedited, hcarries', hroot', hwithin.trans hwithin', fun hroom => ?_⟩
      rw [hall (by rw [hwithin.total]; omega)]
    · obtain ⟨t', hedited, hcarries', hroot', hwithin', -⟩ := ih hrest hcarries hroot
      rw [hst]
      have hle := h.dataSize_le
      exact ⟨t', .full (by omega) hedited, hcarries', hroot', hwithin.trans hwithin', fun hroom =>
        absurd hroom (by omega)⟩

/-- However a blob is edited, it reads as the tree that the edits describe, but for
those that add something and had no room; with room for all of them it reads as the
tree that they describe. Nothing is written outside the blob. -/
theorem edit_session (edits : List EditCall) (hok : ∀ c ∈ edits, c.Ok) (h : Carries m p t)
    (hroot : (root t).isSome = true) : ∃ t', Edited t edits (runEdits m p edits).1 t' ∧
      ReadsAs (blobAt (runEdits m p edits).2 p) t' ∧ Within p m (runEdits m p edits).2 ∧
      (dataSize (blobAt m p) + (edits.map (·.what.need)).sum ≤ totalsize (blobAt m p) →
        editTree t edits = ((runEdits m p edits).1, t')) := by
  obtain ⟨t', hedited, hcarries, hroot', hwithin, hall⟩ := runEdits_edited edits hok h hroot
  exact ⟨t', hedited, hcarries.readsAs hroot', hwithin, hall⟩

/-- `x` comes below the root, `cpu@0` goes, and so does the root's property. -/
def smallEdits : List EditCall :=
  [⟨[SLASH], .add [120]⟩, ⟨[SLASH, 99, 112, 117], .remove⟩, ⟨[SLASH], .unset [114, 101, 103]⟩]

theorem edit_small : ReadsAs (blobAt (runEdits smallMem 0 smallEdits).2 0)
    (.node ⟨[], []⟩ (.node ⟨[120], []⟩ .nil .nil) .nil) := by
  have hok : ∀ c ∈ smallEdits, c.Ok := by
    intro c hc
    simp only [smallEdits, List.mem_cons, List.not_mem_nil, or_false] at hc
    rcases hc with rfl | rfl | rfl
    · exact ⟨rfl, by decide, by decide⟩
    · exact ⟨rfl, (by decide : components SLASH [SLASH, 99, 112, 117] ≠ [])⟩
    · exact ⟨rfl, trivial⟩
  obtain ⟨t', -, hreads, -, hall⟩ := edit_session (t := smallTree.map (FlatNode.data smallImage.strs)) smallEdits hok
    ⟨smallImage, smallTree, small_laid, rfl⟩ rfl
  have htree : (editTree (smallTree.map (FlatNode.data smallImage.strs)) smallEdits).2 =
      .node ⟨[], []⟩ (.node ⟨[120], []⟩ .nil .nil) .nil := by decide
  have hroom : dataSize (blobAt smallMem 0) + (smallEdits.map (·.what.need)).sum ≤ totalsize (blobAt smallMem 0) := by
    decide +kernel
  rw [hall hroom] at htree
  cases htree
  exact hreads

end

end DTFramework.Fdt
