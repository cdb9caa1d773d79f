import Mathlib.Data.List.TakeWhile
import DTFramework.Fdt.Read

/-!
# The nodes of a tree

libfdt finds subnodes by going from node to node and counting levels. `scan` is
that walk from a node on: the nodes after it, with their depths. The subnode
functions are questions about this list (`firstSubnode_scan`,
`nextSubnode_scan`), so a recursion over subnodes visits the nodes of the list,
in order (`visits_scan`).

Results:

* `firstSubnode_scan`, `nextSubnode_scan`: the subnode functions ask for the next node
  one level down, and for the next one on the level;
* `visits_scan`, `visits_root`: a recursion over subnodes visits the nodes of the walk;
* `scan_mem_nodes`: these are nodes of the blob.
-/
namespace DTFramework.Fdt

/-- The nodes after the one at `offset`, which is at the given depth, and their
depths, as long as the walk stays below a root at depth 0. -/
def scan (f : Blob) (offset : Int) (depth : Nat) : List (Int × Nat) :=
  let next := nextNodeDepth f offset depth
  if _h : next.1 < 0 then []
  else if next.2 < 1 then []
  else (next.1, next.2.toNat) :: scan f next.1 next.2.toNat
termination_by nodeRoom offset
decreasing_by exact nextNode_room (Int.not_lt.mp _h)

theorem scan_stop {f : Blob} {o : Int} {d : Nat} (h : (nextNodeDepth f o d).1 < 0 ∨ (nextNodeDepth f o d).2 < 1) :
    scan f o d = [] := by
  rw [scan]
  split
  · rfl
  · rename_i hn
    rw [if_pos (h.resolve_left hn)]

theorem scan_cons {f : Blob} {o : Int} {d e : Nat} (h0 : 0 ≤ (nextNodeDepth f o d).1)
    (he : (nextNodeDepth f o d).2 = e) (h1 : 1 ≤ e) :
    scan f o d = ((nextNodeDepth f o d).1, e) :: scan f (nextNodeDepth f o d).1 e := by
  rw [scan]
  rw [dif_neg (by omega), he, if_neg (by omega), Int.toNat_natCast]

/-! ## Levels -/

/-- What a search that starts `c` levels further down finds: the same node, `c`
levels further down; or, where the first search left the tree, whatever comes
next, at most `c` levels down. -/
inductive Shifted (c : Nat) (d : Int) (r s : Int × Option Int) : Prop
  | same (e : Int) (h0 : 0 ≤ e) (h1 : e ≤ d + 1) (hf : 0 ≤ r.1 → 1 ≤ e) (hr : r.2 = some e)
    (hs : s = (r.1, some (e + c)))
  | left (e : Int) (hr : r.2 = some (-1)) (hs : s.2 = some e) (he : s.1 < 0 ∨ e ≤ c)

/-- A search goes up one level at most. -/
theorem nextNodeFrom_level (f : Blob) (o : Int) (depth : Option Int) : ∀ d : Int, depth = some d →
    ∃ e, (nextNodeFrom f o depth).2 = some e ∧ e ≤ d + 1 := by
  fun_induction nextNodeFrom f o depth with
  | case1 o depth | case2 o depth =>
    intro d hd
    exact ⟨d, hd, by omega⟩
  | case3 o depth =>
    intro d hd
    subst hd
    exact ⟨d + 1, rfl, Int.le_refl _⟩
  | case4 => intro d hd; cases hd
  | case5 o tag next ht hb he d hneg =>
    intro d' hd
    cases hd
    exact ⟨d - 1, rfl, by omega⟩
  | case6 o tag next ht hb he d hneg ih =>
    intro d' hd
    cases hd
    obtain ⟨e, h1, h2⟩ := ih _ rfl
    exact ⟨e, h1, by omega⟩
  | case7 o depth tag next ht hb he ih => exact ih

theorem nextNodeFrom_shift (f : Blob) (c : Nat) (o : Int) (depth : Option Int) : ∀ d : Int, depth = some d → 0 ≤ d →
    Shifted c d (nextNodeFrom f o depth) (nextNodeFrom f o (some (d + c))) := by
  fun_induction nextNodeFrom f o depth with
  | case1 o depth tag next hend hstop =>
    intro d hd h0
    subst hd
    have hs : nextNodeFrom f o (some (d + c)) = (-FDT_ERR_NOTFOUND, some (d + c)) := by
      rw [nextNodeFrom]
      rw [dif_pos hend, if_pos (Or.inl (hstop.resolve_right (by simp)))]
    exact .same d h0 (by omega) (fun h => absurd (show 0 ≤ -FDT_ERR_NOTFOUND from h) (by decide)) rfl hs
  | case2 o depth tag next hend hstop =>
    intro d hd h0
    subst hd
    obtain ⟨hneg, -⟩ := not_or.mp hstop
    have hs : nextNodeFrom f o (some (d + c)) = ((nextTag f o).2, some (d + c)) := by
      rw [nextNodeFrom]
      rw [dif_pos hend, if_neg (not_or.mpr ⟨hneg, by simp⟩)]
    exact .same d h0 (by omega) (fun h => absurd h hneg) rfl hs
  | case3 o depth tag hend hb =>
    intro d hd h0
    subst hd
    have hs : nextNodeFrom f o (some (d + c)) = (o, some (d + c + 1)) := by
      rw [nextNodeFrom]
      rw [dif_neg hend, if_pos hb]
      rfl
    exact .same (d + 1) (by omega) (Int.le_refl _) (fun _ => by omega) rfl (by rw [hs, Int.add_right_comm])
  | case4 => intro d hd; cases hd
  | case5 o tag next ht hb he d hneg =>
    intro d' hd h0
    cases hd
    obtain rfl : d = 0 := by omega
    -- the first search ends here; the other one goes on `c - 1` levels down
    have hs : nextNodeFrom f o (some (0 + (c : Int))) =
        if (0 + (c : Int)) - 1 < 0 then ((nextTag f o).2, some (0 + (c : Int) - 1))
        else nextNodeFrom f (nextTag f o).2 (some (0 + (c : Int) - 1)) := by
      rw [nextNodeFrom]
      rw [dif_neg ht, if_neg hb, if_pos he]
    by_cases hc : (0 + (c : Int)) - 1 < 0
    · rw [if_pos hc] at hs
      exact .left _ rfl (by rw [hs]) (Or.inr (by omega))
    · rw [if_neg hc] at hs
      obtain ⟨e, h1, h2⟩ := nextNodeFrom_level f (nextTag f o).2 _ _ rfl
      exact .left e rfl (by rw [hs]; exact h1) (Or.inr (by omega))
  | case6 o tag next ht hb he d hneg ih =>
    intro d' hd h0
    cases hd
    have hs : nextNodeFrom f o (some (d + c)) = nextNodeFrom f (nextTag f o).2 (some (d - 1 + c)) := by
      rw [nextNodeFrom]
      rw [dif_neg ht, if_neg hb, if_pos he, if_neg (by omega)]
      congr 2
      omega
    rw [hs]
    cases ih _ rfl (by omega) with
    | same e h0 h1 hf hr hs => exact .same e h0 (by omega) hf hr hs
    | left e hr hs he => exact .left e hr hs he
  | case7 o depth tag next ht hb he ih =>
    intro d hd h0
    subst hd
    have hs : nextNodeFrom f o (some (d + c)) = nextNodeFrom f (nextTag f o).2 (some (d + c)) := by
      rw [nextNodeFrom]
      rw [dif_neg ht, if_neg hb, if_neg he]
    rw [hs]
    exact ih _ rfl h0

theorem nextNode_shift (f : Blob) (c : Nat) {o : Int} {d : Int} (ho : 0 ≤ o) (h0 : 0 ≤ d) :
    Shifted c d (nextNode f o (some d)) (nextNode f o (some (d + c))) := by
  unfold nextNode
  rw [if_pos ho, if_pos ho]
  split
  · rename_i hc
    exact .same d h0 (by omega) (fun h => absurd hc (by simpa using h)) rfl rfl
  · exact nextNodeFrom_shift f c _ _ d rfl h0

/-! ## Subnodes -/

/-- The subnode functions never answer a node before the given one. -/
theorem firstSubnode_gt {f : Blob} {o : Int} (h0 : 0 ≤ o) (h : 0 ≤ firstSubnode f o) :
    o < 0x80000000 ∧ o < firstSubnode f o := by
  unfold firstSubnode at h ⊢
  dsimp only at h ⊢
  split at h
  · exact absurd h (by decide)
  · rename_i hc
    rw [if_neg hc]
    exact nextNode_gt f o _ h0 h

theorem nextSubnodeFrom_gt {f : Blob} (o d : Int) (h0 : 0 ≤ o) (h : 0 ≤ nextSubnodeFrom f o d) :
    o < 0x80000000 ∧ o < nextSubnodeFrom f o d := by
  fun_induction nextSubnodeFrom f o d with
  | case1 | case2 | case3 => exact absurd h (by decide)
  | case4 o d r hr e _ _ _ ih =>
    have h1 := nextNode_gt f o (some d) h0 (Int.not_lt.mp hr)
    have h2 := ih (Int.not_lt.mp hr) h
    exact ⟨h1.1, Int.lt_trans h1.2 h2.2⟩
  | case5 o d r hr => exact nextNode_gt f o (some d) h0 (Int.not_lt.mp hr)

/-- The measure of the recursions over subnodes. -/
def subRoom (sub : Int) : Nat := if sub < 0 then 0 else room sub + 1

theorem subRoom_lt {o n : Int} (h0 : 0 ≤ o) (h : 0 ≤ n → o < 0x80000000 ∧ o < n) : subRoom n < subRoom o := by
  unfold subRoom
  rw [if_neg (Int.not_lt.mpr h0)]
  split
  · omega
  · have := h (by omega)
    have := room_lt h0 this.1 (Or.inr this.2)
    omega

theorem firstSubnode_room {f : Blob} {o : Int} (h0 : 0 ≤ o) : subRoom (firstSubnode f o) < subRoom o :=
  subRoom_lt h0 (firstSubnode_gt h0)

theorem nextSubnode_room {f : Blob} {o : Int} (h0 : 0 ≤ o) : subRoom (nextSubnode f o) < subRoom o :=
  subRoom_lt h0 (nextSubnodeFrom_gt o 1 h0)

/-- One step of a search that counts from `k` levels below the root, and the scan:
it finds the next node, or there is none as deep. -/
inductive Step (f : Blob) (k : Nat) (r : Int × Option Int) (l : List (Int × Nat)) : Prop
  | found (e : Nat) (h0 : 0 ≤ r.1) (h1 : 1 ≤ e) (hr : r.2 = some (e : Int))
    (hl : l = (r.1, e + k) :: scan f r.1 (e + k))
  | none (hr : r.1 < 0 ∨ r.2 = some (-1)) (hl : ∀ n ∈ l.head?, n.2 ≤ k)

theorem scan_step (f : Blob) {o : Int} (d k : Nat) (ho : 0 ≤ o) :
    Step f k (nextNode f o (some d)) (scan f o (d + k)) := by
  have hN : nextNodeDepth f o (d + k : Nat) =
      ((nextNode f o (some (d + k))).1, (nextNode f o (some (d + k))).2.getD 0) := rfl
  cases nextNode_shift f k ho (Int.natCast_nonneg d) with
  | same e h0 h1 hf hr hs =>
    rw [hs] at hN
    by_cases hneg : (nextNode f o (some d)).1 < 0
    · exact .none (Or.inl hneg) (by rw [scan_stop (Or.inl (by rw [hN]; exact hneg))]; simp)
    · have he := hf (Int.not_lt.mp hneg)
      refine .found e.toNat (Int.not_lt.mp hneg) (by omega) (by rw [hr, Int.toNat_of_nonneg h0]) ?_
      rw [scan_cons (e := e.toNat + k) (by rw [hN]; exact Int.not_lt.mp hneg) (by rw [hN]; simp; omega) (by omega), hN]
  | left e hr hs he =>
    refine .none (Or.inr hr) ?_
    by_cases hneg : (nextNodeDepth f o (d + k : Nat)).1 < 0 ∨ (nextNodeDepth f o (d + k : Nat)).2 < 1
    · rw [scan_stop hneg]
      simp
    · obtain ⟨h1, h2⟩ := not_or.mp hneg
      have h3 : (nextNodeDepth f o (d + k : Nat)).2 = e := by rw [hN, hs]; rfl
      have h4 : e ≤ k := he.resolve_left h1
      rw [scan_cons (e := e.toNat) (by omega) (by omega) (by omega)]
      simp
      omega

/-- The answer of a subnode function that looks for a node of the given depth at
the head of what is left of a scan. -/
def headAt (depth : Nat) : List (Int × Nat) → Int
  | [] => -FDT_ERR_NOTFOUND
  | n :: _ => if n.2 = depth then n.1 else -FDT_ERR_NOTFOUND

theorem headAt_higher {k : Nat} {l : List (Int × Nat)} (h : ∀ n ∈ l.head?, n.2 ≤ k) :
    headAt (k + 1) l = -FDT_ERR_NOTFOUND := by
  cases l with
  | nil => rfl
  | cons n l =>
    have := h n rfl
    exact if_neg (by omega)

theorem headAt_dropWhile {k : Nat} {l : List (Int × Nat)} (h : ∀ n ∈ l.head?, n.2 ≤ k) :
    headAt (k + 1) (l.dropWhile fun x => k + 1 < x.2) = -FDT_ERR_NOTFOUND := by
  cases l with
  | nil => rfl
  | cons n l =>
    have := h n rfl
    rw [List.dropWhile_cons_of_neg (by simp; omega)]
    exact headAt_higher h

/-- The first subnode is the next node if that is one level down. -/
theorem firstSubnode_scan (f : Blob) {o : Int} (d : Nat) (ho : 0 ≤ o) :
    firstSubnode f o = headAt (d + 1) (scan f o d) := by
  have hdef : firstSubnode f o = if (nextNode f o (some (0 : Nat))).1 < 0 ∨
    (nextNode f o (some (0 : Nat))).2 ≠ some ((1 : Nat) : Int) then
      -FDT_ERR_NOTFOUND else (nextNode f o (some (0 : Nat))).1 := rfl
  have hstep := scan_step f 0 d ho
  rw [Nat.zero_add] at hstep
  rw [hdef]
  cases hstep with
  | found e h0 h1 hr hl =>
    rw [hl]
    by_cases he : e = 1
    · subst he
      rw [if_neg (not_or.mpr ⟨Int.not_lt.mpr h0, not_not.mpr hr⟩)]
      exact (if_pos (Nat.add_comm 1 d)).symm
    · rw [if_pos (Or.inr (by rw [hr]; simpa using Int.ofNat_inj.not.mpr he))]
      exact (if_neg (by dsimp only; omega)).symm
  | none hr hl =>
    rw [headAt_higher hl, if_pos (hr.imp_right fun h => by rw [h]; simp)]

/-- The loop of `fdt_next_subnode`, `k` levels below the root, skips the nodes
below its level. -/
theorem nextSubnodeFrom_scan (f : Blob) (k : Nat) (o d : Int) : ∀ n : Nat, d = n → 0 ≤ o →
    nextSubnodeFrom f o d = headAt (k + 1) ((scan f o (n + k)).dropWhile fun x => k + 1 < x.2) := by
  fun_induction nextSubnodeFrom f o d with
  | case1 o d r hr =>
    rintro n rfl ho
    cases scan_step f n k ho with
    | found e h0 => exact absurd hr (Int.not_lt.mpr h0)
    | none _ hl => rw [headAt_dropWhile hl]
  | case2 o d r hr hnone =>
    rintro n rfl ho
    cases scan_step f n k ho with
    | found e _ _ h => exact absurd (hnone.symm.trans h) (by simp)
    | none _ hl => rw [headAt_dropWhile hl]
  | case3 o d r hr e hsome he =>
    rintro n rfl ho
    cases scan_step f n k ho with
    | found e' _ h1 h =>
      obtain rfl : e = e' := by simpa using hsome.symm.trans h
      omega
    | none _ hl => rw [headAt_dropWhile hl]
  | case4 o d r hr e hsome he h1 ih =>
    rintro n rfl ho
    cases scan_step f n k ho with
    | found e' h0 _ h hl =>
      obtain rfl : e = e' := by simpa using hsome.symm.trans h
      rw [hl, List.dropWhile_cons_of_pos (by simp; omega)]
      exact ih e' rfl h0
    | none hr' _ =>
      rcases hr' with hr' | hr'
      · exact absurd hr' hr
      · obtain rfl : e = -1 := by simpa using hsome.symm.trans hr'
        omega
  | case5 o d r hr e hsome he h1 =>
    rintro n rfl ho
    cases scan_step f n k ho with
    | found e' h0 _ h hl =>
      obtain rfl : e = e' := by simpa using hsome.symm.trans h
      obtain rfl : e' = 1 := by omega
      rw [hl, List.dropWhile_cons_of_neg (by simp; omega)]
      exact (if_pos (Nat.add_comm 1 k)).symm
    | none hr' _ =>
      rcases hr' with hr' | hr'
      · exact absurd hr' hr
      · obtain rfl : e = -1 := by simpa using hsome.symm.trans hr'
        omega

theorem nextSubnode_scan (f : Blob) {o : Int} (d : Nat) (ho : 0 ≤ o) :
    nextSubnode f o = headAt (d + 1) ((scan f o (d + 1)).dropWhile fun x => d + 1 < x.2) := by
  rw [Nat.add_comm d 1]
  have := nextSubnodeFrom_scan f d o 1 1 rfl ho
  rw [Nat.add_comm d 1] at this
  exact this

/-! ## Recursion over subnodes -/

/-- The recursion over subnodes, from a subnode at `depth + 1` on: the nodes it
comes to. -/
def visits (f : Blob) (depth : Nat) (sub : Int) : List (Int × Nat) :=
  if _h : sub < 0 then []
  else (sub, depth + 1) :: (visits f (depth + 1) (firstSubnode f sub) ++ visits f depth (nextSubnode f sub))
termination_by subRoom sub
decreasing_by
  · exact firstSubnode_room (Int.not_lt.mp _h)
  · exact nextSubnode_room (Int.not_lt.mp _h)

theorem scan_depth_pos {f : Blob} {o : Int} {d : Nat} {n : Int × Nat} (h : n ∈ scan f o d) : 1 ≤ n.2 := by
  fun_induction scan f o d with
  | case1 | case2 => cases h
  | case3 o d next h0 h1 ih =>
    rcases List.mem_cons.mp h with rfl | h
    · dsimp only
      omega
    · exact ih h

/-- From a node of a scan on, a scan is the scan from that node. -/
theorem scan_suffix {f : Blob} {o : Int} {d : Nat} (l : List (Int × Nat)) {n : Int × Nat} {t : List (Int × Nat)}
    (h : scan f o d = l ++ n :: t) : 0 ≤ n.1 ∧ t = scan f n.1 n.2 := by
  induction l generalizing o d with
  | nil =>
    rw [scan] at h
    split at h
    · cases h
    · rename_i h0
      split at h
      · cases h
      · cases h
        exact ⟨Int.not_lt.mp h0, rfl⟩
  | cons x l ih =>
    rw [scan] at h
    split at h
    · cases h
    · split at h
      · cases h
      · exact ih (List.cons.inj h).2

/-- The next node is one level down at most. -/
theorem scan_head_level {f : Blob} {o : Int} {d : Nat} (ho : 0 ≤ o) : ∀ n ∈ (scan f o d).head?, n.2 ≤ d + 1 := by
  intro n hn
  have hlevel : (nextNodeDepth f o d).2 ≤ d + 1 := by
    unfold nextNodeDepth nextNode
    rw [if_pos ho]
    split
    · simp only [Option.getD_some]
      omega
    · obtain ⟨e, h1, h2⟩ := nextNodeFrom_level f (checkNodeOffset f o) _ _ rfl
      rw [h1]
      exact h2
  rw [scan] at hn
  split at hn
  · cases hn
  · split at hn
    · cases hn
    · cases hn
      dsimp only
      omega

theorem takeWhile_append_dropWhile_takeWhile {α : Type} {p q : α → Bool} (h : ∀ a, p a = true → q a = true)
    (l : List α) :
    l.takeWhile p ++ (l.dropWhile p).takeWhile q = l.takeWhile q := by
  induction l with
  | nil => rfl
  | cons a l ih =>
    by_cases hp : p a = true
    · rw [List.takeWhile_cons_of_pos hp, List.dropWhile_cons_of_pos hp, List.takeWhile_cons_of_pos (h a hp),
        List.cons_append, ih]
    · rw [List.takeWhile_cons_of_neg hp, List.dropWhile_cons_of_neg hp]
      rfl

/-- The nodes of a list in preorder that stand below a level, at its start. -/
def below (depth : Nat) (l : List (Int × Nat)) : List (Int × Nat) := l.takeWhile fun n => depth < n.2

/-- What a recursion that starts at the head of `l` visits, when it visits
the nodes of the scan. -/
def VisitsScan (f : Blob) (depth : Nat) (sub : Int) : Prop :=
  0 ≤ sub → visits f depth sub = below depth ((sub, depth + 1) :: scan f sub (depth + 1))

theorem visits_headAt {f : Blob} {d : Nat} {l : List (Int × Nat)} (hl : ∀ n ∈ l.head?, n.2 ≤ d + 1)
    (hs : ∀ n t, l = n :: t → 0 ≤ n.1 ∧ t = scan f n.1 n.2) (ih : VisitsScan f d (headAt (d + 1) l)) :
    visits f d (headAt (d + 1) l) = below d l := by
  cases l with
  | nil =>
    rw [visits]
    rfl
  | cons n t =>
    by_cases hn : n.2 = d + 1
    · have hhead : headAt (d + 1) (n :: t) = n.1 := if_pos hn
      obtain ⟨h0, ht⟩ := hs n t rfl
      rw [hhead] at ih ⊢
      rw [ih h0, ht, ← hn]
    · have hle := hl n rfl
      have hhead : headAt (d + 1) (n :: t) = -FDT_ERR_NOTFOUND := if_neg hn
      rw [hhead, visits, dif_pos (by decide)]
      exact (List.takeWhile_cons_of_neg (by simp; omega)).symm

/-- A recursion over subnodes visits the nodes of the walk over all nodes, in
order, down to the first one outside. -/
theorem visits_scan (f : Blob) (depth : Nat) (sub : Int) : VisitsScan f depth sub := by
  fun_induction visits f depth sub with
  | case1 depth sub h => exact fun h0 => absurd h0 (by omega)
  | case2 depth sub h ih1 ih2 =>
    intro h0
    rw [visits, dif_neg h]
    rw [firstSubnode_scan f (depth + 1) h0] at ih1 ⊢
    rw [nextSubnode_scan f depth h0] at ih2 ⊢
    have hsuffix (l n t) (hl : scan f sub (depth + 1) = l ++ n :: t) := scan_suffix l hl
    have h1 := visits_headAt (scan_head_level h0) (fun n t hl => scan_suffix [] hl) ih1
    have h2 := visits_headAt (l := (scan f sub (depth + 1)).dropWhile fun x => depth + 1 < x.2)
      (fun n hn => by simpa [Option.mem_def.mp hn] using
        List.head?_dropWhile_not (fun x : Int × Nat => decide (depth + 1 < x.2)) (scan f sub (depth + 1)))
      (fun n t hl => scan_suffix ((scan f sub (depth + 1)).takeWhile fun x => depth + 1 < x.2)
        (by rw [← hl, List.takeWhile_append_dropWhile])) ih2
    rw [h1, h2]
    unfold below
    rw [List.takeWhile_cons_of_pos (by simp),
      takeWhile_append_dropWhile_takeWhile (fun n h => by simp only [decide_eq_true_eq] at h ⊢; omega)]

/-- The recursion from the root visits every node of the walk. -/
theorem visits_root (f : Blob) : visits f 0 (firstSubnode f 0) = scan f 0 0 := by
  rw [firstSubnode_scan f 0 (Int.le_refl 0),
    visits_headAt (fun n hn => scan_head_level (Int.le_refl 0) n hn) (fun n t hl => scan_suffix [] hl)
      (visits_scan f 0 _)]
  exact List.takeWhile_eq_self_iff.mpr fun n hn => decide_eq_true (scan_depth_pos hn)

/-! ## All nodes -/

/-- The nodes after `offset` that a walk without depths comes to. -/
def nodesAfter (f : Blob) (offset : Int) : List Int :=
  let next := (nextNode f offset none).1
  if _h : next < 0 then [] else next :: nodesAfter f next
termination_by nodeRoom offset
decreasing_by exact nextNode_room (Int.not_lt.mp _h)

/-- The nodes of a blob. -/
abbrev nodes (f : Blob) : List Int := nodesAfter f (-1)

/-- A search that counts levels finds the node that a search without finds. -/
theorem nextNodeFrom_none (f : Blob) (o : Int) (depth : Option Int) (hd : depth ≠ none) :
    0 ≤ (nextNodeFrom f o depth).1 → (∀ e, (nextNodeFrom f o depth).2 = some e → 0 ≤ e) →
      (nextNodeFrom f o none).1 = (nextNodeFrom f o depth).1 := by
  fun_induction nextNodeFrom f o depth with
  | case1 => exact fun h => absurd (show 0 ≤ -FDT_ERR_NOTFOUND from h) (by decide)
  | case2 o depth tag next hend hstop => exact fun h => absurd h (not_or.mp hstop).1
  | case3 o depth tag hend hb =>
    intro _ _
    rw [nextNodeFrom, dif_neg hend, if_pos hb]
  | case4 => exact absurd rfl hd
  | case5 o tag next ht hb he d hneg =>
    intro _ h
    exact absurd (h _ rfl) (by omega)
  | case6 o tag next ht hb he d hneg ih =>
    intro h h'
    rw [nextNodeFrom, dif_neg ht, if_neg hb, if_pos he]
    exact ih (by simp) h h'
  | case7 o depth tag next ht hb he ih =>
    intro h h'
    rw [nextNodeFrom, dif_neg ht, if_neg hb, if_neg he]
    exact ih hd h h'

theorem scan_mem_nodesAfter {f : Blob} {o : Int} {d : Nat} (ho : 0 ≤ o) {n : Int × Nat} (h : n ∈ scan f o d) :
    n.1 ∈ nodesAfter f o := by
  fun_induction scan f o d with
  | case1 | case2 => cases h
  | case3 o d next h0 h1 ih =>
    have hnext : (nextNode f o none).1 = next.1 := by
      have h0' : 0 ≤ (nextNode f o (some (d : Int))).1 := Int.not_lt.mp h0
      have h1' : ¬(nextNode f o (some (d : Int))).2.getD 0 < 1 := h1
      show _ = (nextNode f o (some (d : Int))).1
      unfold nextNode at h0' h1' ⊢
      rw [if_pos ho] at h0' h1' ⊢
      rw [if_pos ho]
      split
      · rfl
      · rename_i hc
        rw [if_neg hc] at h0' h1'
        refine nextNodeFrom_none f _ _ (by simp) h0' fun e he => ?_
        rw [he, Option.getD_some] at h1'
        omega
    rw [nodesAfter]
    rw [dif_neg (by rw [hnext]; exact h0), hnext]
    rcases List.mem_cons.mp h with rfl | h
    · exact List.mem_cons_self
    · exact List.mem_cons_of_mem _ (ih (Int.not_lt.mp h0) h)

/-- A node of the walk from the root is a node of the blob. -/
theorem scan_mem_nodes {f : Blob} {n : Int × Nat} (h : n ∈ scan f 0 0) : n.1 ∈ nodes f := by
  have hroot : (nextNode f (-1) none).1 = 0 := by
    by_cases hc : checkNodeOffset f 0 < 0
    · rw [scan_stop (Or.inl (by unfold nextNodeDepth nextNode; rw [if_pos (Int.le_refl 0), if_pos hc]; exact hc))] at h
      cases h
    · obtain ⟨-, -, ht, -⟩ := checkNodeOffset_nonneg (Int.not_lt.mp hc)
      show (nextNodeFrom f 0 none).1 = 0
      rw [nextNodeFrom, dif_neg (by rw [ht]; decide), if_pos ht]
  unfold nodes
  rw [nodesAfter]
  rw [hroot, dif_neg (by decide)]
  exact List.mem_cons_of_mem _ (scan_mem_nodesAfter (Int.le_refl 0) h)

/-! ## Phandles -/

/-- The scan for a phandle finds the one node that has it. -/
theorem phandleScan_unique {f : Blob} {phandle : Nat} {o n : Int} (hn : n ∈ nodesAfter f o)
    (hp : getPhandle f n = phandle)
    (huniq : ∀ n' ∈ nodesAfter f o, getPhandle f n' = phandle → n' = n) : phandleScan f phandle o = n := by
  fun_induction phandleScan f phandle o with
  | case1 o next h =>
    rw [nodesAfter, dif_pos h] at hn
    cases hn
  | case2 o next h heq =>
    rw [nodesAfter, dif_neg h] at huniq
    exact huniq next List.mem_cons_self heq
  | case3 o next h hne ih =>
    rw [nodesAfter, dif_neg h] at hn huniq
    rcases List.mem_cons.mp hn with rfl | hn
    · exact absurd hp hne
    · exact ih hn fun n' h' => huniq n' (List.mem_cons_of_mem _ h')

/-- The largest phandle is one of them, and at least every other one. -/
theorem maxPhandleScan_ok {f : Blob} {max r : Nat} {o : Int} (h : maxPhandleScan f max o = .ok r) :
    max ≤ r ∧ (∀ n ∈ nodesAfter f o, getPhandle f n ≤ r) ∧ (r = max ∨ ∃ n ∈ nodesAfter f o, getPhandle f n = r) := by
  fun_induction maxPhandleScan f max o with
  | case1 max o next hneg =>
    cases h
    rw [nodesAfter, dif_pos hneg]
    exact ⟨Nat.le_refl _, by simp, Or.inl rfl⟩
  | case2 => cases h
  | case3 max o next hneg ih =>
    obtain ⟨h1, h2, h3⟩ := ih h
    rw [nodesAfter, dif_neg hneg]
    have hmax := Nat.max_le.mp h1
    refine ⟨hmax.1, fun n hn => ?_, ?_⟩
    · rcases List.mem_cons.mp hn with rfl | hn
      · exact hmax.2
      · exact h2 n hn
    · rcases h3 with h3 | ⟨n, hn, h3⟩
      · rcases Nat.le_total max (getPhandle f next) with hle | hle
        · exact Or.inr ⟨next, List.mem_cons_self, by rw [h3]; exact (Nat.max_eq_right hle).symm⟩
        · exact Or.inl (h3.trans (Nat.max_eq_left hle))
      · exact Or.inr ⟨n, List.mem_cons_of_mem _ hn, h3⟩

end DTFramework.Fdt
