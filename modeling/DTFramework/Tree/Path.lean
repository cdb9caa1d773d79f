import DTFramework.Extn.Prop
import DTFramework.Tree.Parent
import Mathlib.Data.List.DropRight

/-!
# Paths

`fdt_get_path` goes through the nodes up to the one that is asked for and keeps
in the caller's buffer the names on the route to the node it is at: it drops the
names below a node's parent and adds the node's own. In the end the buffer holds
the path of the node, or has no room for it (`getPath_flat`). The path leads back
to the node when no earlier sibling answers to a name on it (`path_returns`).

Results:

* `visit_flat`, `pathScan_next`: what one node does to the buffer;
* `getPath_flat`: the path of the node, or that it has no room;
* `path_returns`: the path leads back.
-/
namespace DTFramework.Fdt

open DTFramework.Lib DTFramework.Extn

/-- The loop that drops a name, on the bytes of the buffer before `p`; none when
it comes to the byte before the buffer.
mirrors libs/libfdt/fdt_ro.c:587-589 -/
def dropName (buf : Str) : Option Str :=
  let rest := buf.dropLast.rdropWhile (· != SLASH)
  if rest = [] then none else some rest

/-- The loop that goes up to `depth`: the bytes before `p`, and `pdepth`. -/
def goUp (depth : Int) (buf : Str) : Nat → Option (Str × Nat)
  | 0 => if depth < 0 then none else some (buf, 0)
  | pdepth + 1 =>
    if depth < (pdepth + 1 : Nat) then (dropName buf).bind fun buf => goUp depth buf pdepth else some (buf, pdepth + 1)

/-- A name is added when those above it are there and it has room.
mirrors libs/libfdt/fdt_ro.c:593-603 -/
def addName (f : Blob) (buflen offset depth : Int) (s : Str × Nat) : Except Int (Str × Nat) :=
  if depth ≤ s.2 then
    (getName f offset).map fun name =>
      if (s.1.length : Int) + name.length + 1 ≤ buflen then (s.1 ++ name ++ [SLASH], s.2 + 1) else s
  else .ok s

/-- The loop of `fdt_get_path` at the node at `offset`: the answer and the string
in the buffer. -/
def pathScan (f : Blob) (nodeoffset buflen offset depth : Int) (s : Str × Nat) : Except Fault (Int × Str) :=
  if nodeoffset < offset then .ok (-FDT_ERR_BADOFFSET, s.1)
  else (goUp depth s.1 s.2).elim (.error .outOfBounds) fun s =>
    match addName f buflen offset depth s with
    | .error namelen => .ok (namelen, s.1)
    | .ok s =>
      if offset = nodeoffset then
        if (s.2 : Int) < depth + 1 then .ok (-FDT_ERR_NOSPACE, s.1)
        else .ok (0, if 1 < s.1.length then s.1.dropLast else s.1)
      else
        let next := nextNode f offset (some depth)
        if _h : next.1 < 0 then
          .ok (if next.1 = -FDT_ERR_NOTFOUND then -FDT_ERR_BADOFFSET
            else if next.1 = -FDT_ERR_BADOFFSET then -FDT_ERR_BADSTRUCTURE
            else next.1, s.1)
        else pathScan f nodeoffset buflen next.1 (next.2.getD depth) s
termination_by nodeRoom offset
decreasing_by exact nextNode_room (Int.not_lt.mp _h)

/-- mirrors libs/libfdt/fdt_ro.c:571-621 -/
def getPath (f : Blob) (nodeoffset buflen : Int) : Except Fault (Int × Str) :=
  if roProbe f < 0 then .ok (roProbe f, [])
  else if buflen < 2 then .ok (-FDT_ERR_NOSPACE, [])
  else pathScan f nodeoffset buflen 0 0 ([], 0)

/-! ## The buffer -/

/-- Names as they stand in the buffer. -/
def text (names : List Str) : Str := names.flatMap (· ++ [SLASH])

/-- The first names that there is room for. -/
def kept (room : Int) : List Str → List Str
  | [] => []
  | n :: names => if (n.length : Int) + 1 ≤ room then n :: kept (room - (n.length + 1)) names else []

/-- The buffer with these names and its depth. -/
def held (names : List Str) : Str × Nat := (text names, names.length)

theorem text_append (names : List Str) (n : Str) : text (names ++ [n]) = text names ++ n ++ [SLASH] := by
  unfold text
  rw [List.flatMap_append, List.append_assoc]
  simp

theorem rdropWhile_clean {n : Str} (hn : SLASH ∉ n) (t : Str) :
    (t ++ n).rdropWhile (· != SLASH) = t.rdropWhile (· != SLASH) := by
  induction n using List.reverseRecOn with
  | nil => rw [List.append_nil]
  | append_singleton n b ih =>
    rw [List.mem_append, List.mem_singleton, not_or] at hn
    rw [← List.append_assoc, List.rdropWhile_concat_pos (· != SLASH) _ b (bne_iff_ne.mpr (Ne.symm hn.2)), ih hn.1]

theorem dropName_text {names : List Str} {n : Str} (hne : names ≠ []) (hn : SLASH ∉ n) :
    dropName (text (names ++ [n])) = some (text names) := by
  obtain ⟨init, last, rfl⟩ := (List.eq_nil_or_concat' names).resolve_left hne
  have hdrop : (text (init ++ [last] ++ [n])).dropLast.rdropWhile (· != SLASH) = text (init ++ [last]) := by
    rw [text_append (init ++ [last]), List.dropLast_concat, rdropWhile_clean hn, text_append]
    exact List.rdropWhile_concat_neg _ _ _ (by simp)
  unfold dropName
  rw [hdrop, if_neg (by rw [text_append]; simp)]

/-- The loop goes up to the names that are to stay. -/
theorem goUp_held {names : List Str} (hclean : ∀ n ∈ names, SLASH ∉ n) {k : Nat} (hk : 1 ≤ k ∨ names = []) :
    goUp k (text names) names.length = some (held (names.take k)) := by
  induction names using List.reverseRecOn with
  | nil =>
    rw [List.take_nil, List.length_nil, goUp, if_neg (Int.not_lt.mpr (Int.natCast_nonneg k))]
    rfl
  | append_singleton names n ih =>
    have h1 : 1 ≤ k := hk.resolve_right (by simp)
    rw [List.length_append, List.length_singleton, goUp]
    by_cases hlt : (k : Int) < ((names.length + 1 : Nat) : Int)
    · have hne : names ≠ [] := fun hnil => by
        rw [hnil, List.length_nil] at hlt
        omega
      have htake : (names ++ [n]).take k = names.take k := List.take_append_of_le_length (by omega)
      rw [if_pos hlt, dropName_text hne (hclean n (List.mem_append_right names (List.mem_singleton_self n))), htake]
      exact ih (fun n' hn' => hclean n' (List.mem_append_left _ hn')) (Or.inl h1)
    · have htake : (names ++ [n]).take k = names ++ [n] := List.take_of_length_le (by
        rw [List.length_append, List.length_singleton]
        omega)
      rw [if_neg hlt, htake]
      unfold held
      rw [List.length_append, List.length_singleton]

theorem kept_first (room : Int) (names : List Str) : kept room names <+: names := by
  induction names generalizing room with
  | nil => exact List.nil_prefix
  | cons n names ih =>
    rw [kept]
    split
    · exact (List.prefix_cons_inj n).mpr (ih _)
    · exact List.nil_prefix

theorem kept_take (room : Int) (names : List Str) (k : Nat) : (kept room names).take k = kept room (names.take k) := by
  induction names generalizing room k with
  | nil => rw [List.take_nil, kept, List.take_nil]
  | cons n names ih =>
    cases k with
    | zero => rfl
    | succ k =>
      rw [List.take_succ_cons, kept, kept]
      by_cases hfits : (n.length : Int) + 1 ≤ room
      · rw [if_pos hfits, if_pos hfits, List.take_succ_cons, ih]
      · rw [if_neg hfits, if_neg hfits, List.take_nil]

theorem text_cons (n : Str) (names : List Str) : (text (n :: names)).length = n.length + 1 + (text names).length := by
  unfold text
  rw [List.flatMap_cons, List.length_append, List.length_append, List.length_singleton]

/-- A name is kept when those above it are and it has room. -/
theorem kept_append (room : Int) (names : List Str) (n : Str) : kept room (names ++ [n]) =
    if names.length ≤ (kept room names).length then
      if ((text (kept room names)).length : Int) + n.length + 1 ≤ room then kept room names ++ [n] else kept room names
    else kept room names := by
  induction names generalizing room with
  | nil =>
    rw [List.nil_append, kept, kept, kept, if_pos (Nat.le_refl _)]
    simp [text]
  | cons n' names ih =>
    rw [List.cons_append, kept, kept]
    by_cases hfits : (n'.length : Int) + 1 ≤ room
    · rw [if_pos hfits, if_pos hfits, ih, text_cons]
      simp only [List.length_cons, Nat.add_le_add_iff_right]
      by_cases hall : names.length ≤ (kept (room - (n'.length + 1)) names).length
      · rw [if_pos hall, if_pos hall]
        by_cases hlast : ((text (kept (room - (n'.length + 1)) names)).length : Int) + n.length + 1 ≤
          room - (n'.length + 1)
        · rw [if_pos hlast, if_pos (by omega), List.cons_append]
        · rw [if_neg hlast, if_neg (by omega)]
      · rw [if_neg hall, if_neg hall]
    · rw [if_neg hfits, if_neg hfits, if_neg]
      rw [List.length_cons]
      exact Nat.not_succ_le_zero _

/-- All names are kept when there is room for their text. -/
theorem kept_all {r : Int} (hr : 0 ≤ r) (names : List Str) :
    (kept r names).length = names.length ↔ ((text names).length : Int) ≤ r := by
  induction names generalizing r with
  | nil => exact ⟨fun _ => hr, fun _ => rfl⟩
  | cons n names ih =>
    rw [kept, text_cons]
    by_cases hfits : (n.length : Int) + 1 ≤ r
    · have hrest := ih (r := r - (n.length + 1)) (by omega)
      rw [if_pos hfits, List.length_cons, List.length_cons, Nat.add_right_cancel_iff, hrest]
      omega
    · rw [if_neg hfits]
      exact ⟨fun h => absurd h.symm (Nat.succ_ne_zero _), fun h => absurd h (by omega)⟩

/-! ## The scan -/

/-- The names on the route to a node. -/
def names (l : Place FlatNode) : List Str := l.route.map FlatNode.name

/-- The path with these names. -/
def pathText (names : List Str) : Str := if 1 < (text names).length then (text names).dropLast else text names

/-- The answer for a node with these names on its route. -/
def pathAnswer (buflen : Int) (names : List Str) : Int × Str :=
  if (kept buflen names).length < names.length then (-FDT_ERR_NOSPACE, text (kept buflen names)) else
    (0, pathText (kept buflen names))

section
variable {f : Blob} {strs : Str} {e : Nat} {d' b : Int}

/-- What is done at a node. -/
theorem visit_flat {x : Place FlatNode} (h : Lies f strs x.forest) {labels : List FlatNode}
    (htake : labels.take x.ctx.depth = x.ctx.labels) (hclean : ∀ a ∈ labels, SLASH ∉ a.name)
    (hk : 1 ≤ x.ctx.depth ∨ labels = []) :
    goUp x.ctx.depth (text (kept b (labels.map FlatNode.name))) (kept b (labels.map FlatNode.name)).length =
        some (held (kept b (x.ctx.labels.map FlatNode.name))) ∧
      addName f b (placeOffset x) x.ctx.depth (held (kept b (x.ctx.labels.map FlatNode.name))) =
        .ok (held (kept b (names x))) := by
  have hname : getName f (placeOffset x) = .ok x.label.name :=
    getName_flat h.fits h.strings h.here.ok h.here.header h.here.aligned
  have hdepth : (x.ctx.labels.map FlatNode.name).length = x.ctx.depth := by
    rw [List.length_map, Ctx.labels_length]
  constructor
  · rw [goUp_held (fun n hn => ?_) (hk.imp_right fun hnil => by rw [hnil]; rfl), kept_take, ← List.map_take, htake]
    obtain ⟨a, ha, rfl⟩ := List.mem_map.mp ((kept_first _ _).subset hn)
    exact hclean a ha
  · unfold addName names Place.route
    rw [List.map_append, List.map_singleton, kept_append, hname, hdepth]
    generalize kept b (x.ctx.labels.map FlatNode.name) = ks
    by_cases hall : x.ctx.depth ≤ ks.length
    · have hle : (x.ctx.depth : Int) ≤ (held ks).2 := Int.ofNat_le.mpr hall
      rw [if_pos hle, if_pos hall]
      by_cases hfits : ((text ks).length : Int) + x.label.name.length + 1 ≤ b
      · have hheld : held (ks ++ [x.label.name]) = (text ks ++ x.label.name ++ [SLASH], ks.length + 1) := by
          unfold held
          rw [text_append, List.length_append, List.length_singleton]
        rw [if_pos hfits, hheld]
        exact congrArg Except.ok (if_pos hfits)
      · rw [if_neg hfits]
        exact congrArg Except.ok (if_neg hfits)
    · have hmore : ¬(x.ctx.depth : Int) ≤ (held ks).2 := fun hle => hall (Int.ofNat_le.mp hle)
      rw [if_neg hmore, if_neg hall]

theorem names_length (l : Place FlatNode) : (names l).length = l.ctx.depth + 1 := by
  unfold names Place.route
  rw [List.length_map, List.length_append, Ctx.labels_length, List.length_singleton]

/-- At the node that is asked for. -/
theorem pathScan_end {l : Place FlatNode} (h : Lies f strs l.forest) {labels : List FlatNode}
    (htake : labels.take l.ctx.depth = l.ctx.labels) (hclean : ∀ a ∈ labels, SLASH ∉ a.name)
    (hk : 1 ≤ l.ctx.depth ∨ labels = []) :
    pathScan f (placeOffset l) b (placeOffset l) l.ctx.depth (held (kept b (labels.map FlatNode.name))) =
      .ok (pathAnswer b (names l)) := by
  obtain ⟨hup, hadd⟩ := visit_flat (b := b) h htake hclean hk
  have hlength := names_length l
  rw [pathScan, if_neg (Int.lt_irrefl _)]
  unfold held at hup hadd ⊢
  dsimp only
  rw [hup, Option.elim_some, hadd]
  dsimp only
  rw [if_pos rfl]
  unfold pathAnswer
  by_cases hshort : (kept b (names l)).length < (names l).length
  · rw [if_pos hshort, if_pos (by omega)]
  · rw [if_neg hshort, if_neg (by omega)]
    rfl

/-- From a node to the next one. -/
theorem pathScan_next {l x y : Place FlatNode} {ls : List (Place FlatNode)} (hx : Lies f strs x.forest)
    (hs : Steps f true (placeOffset x + x.label.opens.length) x.ctx.depth (y :: ls) e d')
    (hlt : (placeOffset x : Int) < placeOffset l) {labels : List FlatNode}
    (htake : labels.take x.ctx.depth = x.ctx.labels) (hclean : ∀ a ∈ labels, SLASH ∉ a.name)
    (hk : 1 ≤ x.ctx.depth ∨ labels = []) :
    pathScan f (placeOffset l) b (placeOffset x) x.ctx.depth (held (kept b (labels.map FlatNode.name))) =
      pathScan f (placeOffset l) b (placeOffset y) y.ctx.depth (held (kept b (names x))) := by
  obtain ⟨hnext, -⟩ := next_counted hx hs
  obtain ⟨hup, hadd⟩ := visit_flat (b := b) hx htake hclean hk
  rw [pathScan, if_neg (Int.not_lt.mpr (Int.le_of_lt hlt))]
  unfold held at hup hadd ⊢
  dsimp only
  rw [hup, Option.elim_some, hadd]
  dsimp only
  rw [if_neg (Int.ne_of_lt hlt), hnext]
  dsimp only
  rw [dif_neg (Int.not_lt.mpr (Int.natCast_nonneg _)), Option.getD_some]

theorem pathScan_steps {t : Forest FlatNode} (h : Lies f strs t) (hclean : t.All fun a => SLASH ∉ a.name)
    {l : Place FlatNode} {pre post : List (Place FlatNode)} {x : Place FlatNode} (hx : x.forest = t)
    (hpre : ∀ y ∈ pre ++ [l], y.forest = t ∧ 1 ≤ y.ctx.depth)
    (hs : Steps f true (placeOffset x + x.label.opens.length) x.ctx.depth (pre ++ l :: post) e d')
    {labels : List FlatNode} (hrouted : Place.Routed labels (x :: (pre ++ l :: post)))
    (hlabels : ∀ a ∈ labels, SLASH ∉ a.name) (hk : 1 ≤ x.ctx.depth ∨ labels = []) :
    pathScan f (placeOffset l) b (placeOffset x) x.ctx.depth (held (kept b (labels.map FlatNode.name))) =
      .ok (pathAnswer b (names l)) := by
  have hroute : ∀ a ∈ x.route, SLASH ∉ a.name := Place.route_all (hx.symm ▸ hclean)
  induction pre generalizing x labels with
  | nil =>
    obtain ⟨hl, hdeep⟩ := hpre l (List.mem_singleton_self l)
    rw [pathScan_next (hx.symm ▸ h) hs (next_counted (hx.symm ▸ h) hs).2 hrouted.1 hlabels hk]
    exact pathScan_end (hl.symm ▸ h) hrouted.2.1 hroute (Or.inl hdeep)
  | cons y pre ih =>
    obtain ⟨hy, hdeep⟩ := hpre y List.mem_cons_self
    have hlt := steps_lt h hx (fun z hz => (hpre z (List.mem_append_left [l] hz)).1) hs
    rw [pathScan_next (hx.symm ▸ h) hs hlt hrouted.1 hlabels hk]
    exact ih hy (fun z hz => hpre z (List.mem_cons_of_mem y hz)) hs.2 hrouted.2 hroute (Or.inl hdeep)
      (Place.route_all (hy.symm ▸ hclean))

/-- `fdt_get_path` answers the path of the node, or that it has no room. -/
theorem getPath_flat {l : Place FlatNode} (h : Lies f strs l.forest) {r : FlatNode} {subs : Forest FlatNode}
    (hone : l.forest = .node r subs .nil) (hclean : l.forest.All fun a => SLASH ∉ a.name) (hbuf : 2 ≤ b) :
    getPath f (placeOffset l) b =
      .ok (if ((text (names l)).length : Int) ≤ b then (0, pathText (names l))
        else (-FDT_ERR_NOSPACE, text (kept b (names l)))) := by
  have hanswer : pathAnswer b (names l) = if ((text (names l)).length : Int) ≤ b then (0, pathText (names l))
      else (-FDT_ERR_NOSPACE, text (kept b (names l))) := by
    have hall := kept_all (r := b) (by omega) (names l)
    unfold pathAnswer
    by_cases hfits : ((text (names l)).length : Int) ≤ b
    · have hkept : kept b (names l) = names l := (kept_first b (names l)).eq_of_length (hall.mpr hfits)
      rw [hkept, if_neg (Nat.lt_irrefl _), if_pos hfits]
    · have hle := (kept_first b (names l)).length_le
      rw [if_neg hfits, if_pos (Nat.lt_of_le_of_ne hle fun heq => hfits (hall.mp heq))]
  unfold getPath
  rw [if_neg (Int.not_lt.mpr h.strings.probe), if_neg (Int.not_lt.mpr hbuf), ← hanswer]
  have hplaces := l.places_later
  cases hearlier : Place.earlier l.ctx (.node l.label l.subs l.rest) with
  | nil =>
    obtain ⟨hoffset, hdepth⟩ := scan_root hone hearlier
    have hnone : l.ctx.labels = [] := List.eq_nil_of_length_eq_zero (l.ctx.labels_length.trans hdepth)
    have hend := pathScan_end (b := b) h (List.take_nil.trans hnone.symm) (fun a ha => absurd ha List.not_mem_nil)
      (Or.inr rfl)
    rw [hoffset, hdepth] at hend
    rw [hoffset]
    exact hend
  | cons x pre =>
    obtain ⟨hzero, hx, hforest, hbelow, e, hsteps⟩ := below_root h hone hearlier
    have hrouted : Place.Routed [] (x :: (pre ++ l :: l.later)) := by
      have hplaces := (Place.places_routed (c := .top) l.forest List.take_nil).1
      rwa [l.places_later, hearlier] at hplaces
    have hscan := pathScan_steps (b := b) h hclean hforest hbelow hsteps hrouted
      (fun a ha => absurd ha List.not_mem_nil) (Or.inr rfl)
    rw [hzero, hx] at hscan
    exact hscan

/-! ## The way back -/

theorem nameMatches_self (n : Str) : nameMatches n n = true := by
  unfold nameMatches
  rw [List.take_length, List.drop_length, if_neg (fun h => h rfl)]

theorem text_render (ns : List Str) : text ([] :: ns) = render SLASH ns ++ [SLASH] := by
  unfold text render
  induction ns with
  | nil => rfl
  | cons n ns ih =>
    simp only [List.flatMap_cons, List.nil_append, List.append_assoc, List.cons_append] at ih ⊢
    rw [ih]

theorem pathText_nodePath (ns : List Str) : pathText ([] :: ns) = nodePath SLASH ns := by
  unfold pathText nodePath
  rw [text_render]
  cases ns with
  | nil => rfl
  | cons n ns =>
    rw [if_neg (List.cons_ne_nil n ns), List.dropLast_concat, if_pos]
    rw [List.length_append, render, List.flatMap_cons, List.length_append, List.length_cons]
    simp

/-- A path fits when the buffer is longer. -/
theorem text_fits (ns : List Str) {buflen : Int} (hbuf : 2 ≤ buflen) :
    ((text ([] :: ns)).length : Int) ≤ buflen ↔ ((nodePath SLASH ns).length : Int) < buflen := by
  rw [text_render, List.length_append, List.length_singleton]
  unfold nodePath
  cases ns with
  | nil =>
    rw [if_pos rfl, render, List.flatMap_nil, List.length_nil, List.length_singleton]
    omega
  | cons n ns =>
    rw [if_neg (List.cons_ne_nil n ns)]
    omega

/-- The path of a node leads to it. -/
theorem pathOffset_route {l : Place FlatNode} (h : Lies f strs l.forest) {r : FlatNode} {subs : Forest FlatNode}
    (hone : l.forest = .node r subs .nil) (hproper : subs.All fun a => a.name ≠ [] ∧ SLASH ∉ a.name)
    (hsiblings : l.forest.Siblings fun a b => nameMatches a.name b.name = false) :
    pathOffset f (nodePath SLASH (l.route.tail.map FlatNode.name)) = placeOffset l := by
  have hnames : Proper SLASH (l.route.tail.map FlatNode.name) := fun n hn => by
    obtain ⟨a, ha, rfl⟩ := List.mem_map.mp hn
    exact Place.route_below hone hproper a ha
  have hroot : Lies f strs (Place.forest ⟨.top, r, subs, .nil⟩) := by
    rw [hone] at h
    exact h
  have hwalk := pathWalk_flat hroot (nodePath SLASH (l.route.tail.map FlatNode.name))
  have hroute : (Place.walk ⟨.top, r, subs, .nil⟩ ((l.route.tail.map FlatNode.name).map answers)) = some l := by
    rw [List.map_map]
    exact Place.walk_route FlatNode.name answers (fun a => nameMatches_self a.name) hone hsiblings
  rw [components_nodePath hnames, hroute] at hwalk
  have hhead : ∃ path, nodePath SLASH (l.route.tail.map FlatNode.name) = SLASH :: path := by
    unfold nodePath
    cases l.route.tail.map FlatNode.name with
    | nil => exact ⟨[], rfl⟩
    | cons n ns => exact ⟨n ++ render SLASH ns, rfl⟩
  obtain ⟨path, hpath⟩ := hhead
  rw [hpath] at hwalk ⊢
  unfold pathOffset
  rw [if_neg (Int.not_lt.mpr h.strings.probe), if_neg (List.cons_ne_nil SLASH path),
    if_pos (show (SLASH :: path).head? = some SLASH from rfl)]
  exact hwalk

end

/-- The path of a node. -/
def pathTo (n : Place NodeData) : Str := nodePath SLASH (n.route.tail.map NodeData.name)

section
variable {f : Blob} {o : Int} {n : Place NodeData} {r : NodeData} {subs : Forest NodeData}

/-- The path that `fdt_get_path` writes for a node leads back to the node, in a
tree where no node answers to the name of a later sibling. The call fails when
the buffer is no longer than the path. -/
theorem path_returns (h : ReadAt f o n) (hone : n.forest = .node r subs .nil) (hroot : r.name = [])
    (hproper : subs.All fun a => a.name ≠ [] ∧ SLASH ∉ a.name)
    (hsiblings : n.forest.Siblings fun a b => nameMatches a.name b.name = false) (buflen : Int) :
    (if ((pathTo n).length : Int) < buflen then getPath f o buflen = .ok (0, pathTo n)
      else ∃ s, getPath f o buflen = .ok (-FDT_ERR_NOSPACE, s)) ∧
    pathOffset f (pathTo n) = o := by
  obtain ⟨strs, l, hlies, rfl, rfl⟩ := h
  rw [Place.map_forest] at hone hsiblings
  obtain ⟨a, below, hflat, ha, hbelow⟩ := Forest.map_single hone
  have hnames : pathTo (l.map (FlatNode.data strs)) = nodePath SLASH (l.route.tail.map FlatNode.name) := by
    unfold pathTo
    rw [Place.route_map, ← List.map_tail, List.map_map]
    rfl
  have hproper' : below.All fun a => a.name ≠ [] ∧ SLASH ∉ a.name := Forest.all_map _ |>.mp (hbelow ▸ hproper)
  have hsiblings' := (Forest.siblings_map _).mp hsiblings
  rw [hnames]
  refine ⟨?_, pathOffset_route hlies hflat hproper' hsiblings'⟩
  have haname : a.name = [] := (congrArg NodeData.name ha).trans hroot
  have hall : names l = [] :: l.route.tail.map FlatNode.name := by
    have hmap := congrArg (List.map FlatNode.name) (Place.route_cons hflat)
    rwa [List.map_cons, haname] at hmap
  have hclean : l.forest.All fun a => SLASH ∉ a.name := by
    have hempty : SLASH ∉ a.name := by
      rw [haname]
      exact List.not_mem_nil
    rw [hflat]
    exact ⟨hempty, hproper'.mono fun _ hname => hname.2, trivial⟩
  by_cases hbuf : 2 ≤ buflen
  · have hget := getPath_flat hlies hflat hclean hbuf
    have hfits := text_fits (l.route.tail.map FlatNode.name) hbuf
    rw [hall, pathText_nodePath] at hget
    by_cases hlong : ((nodePath SLASH (l.route.tail.map FlatNode.name)).length : Int) < buflen
    · rw [if_pos hlong, hget, if_pos (hfits.mpr hlong)]
    · rw [if_neg hlong, hget, if_neg fun h => hlong (hfits.mp h)]
      exact ⟨_, rfl⟩
  · have hpos : 1 ≤ (nodePath SLASH (l.route.tail.map FlatNode.name)).length := by
      unfold nodePath
      split
      · exact Nat.le_refl 1
      · rename_i hne
        obtain ⟨n, ns, hns⟩ := List.exists_cons_of_ne_nil hne
        rw [hns]
        exact Nat.succ_le_succ (Nat.zero_le _)
    rw [if_neg (by omega)]
    unfold getPath
    rw [if_neg (Int.not_lt.mpr hlies.strings.probe), if_pos (Int.not_le.mp hbuf)]
    exact ⟨[], rfl⟩

/-- `/cpu@0`. -/
theorem path_small : getPath (blobAt smallMem 0) 28 7 = .ok (0, [SLASH, 99, 112, 117, 64, 48]) ∧
    pathOffset (blobAt smallMem 0) [SLASH, 99, 112, 117, 64, 48] = 28 := by
  obtain ⟨hget, hpath⟩ := path_returns small_nodeAt.readAt rfl rfl ⟨⟨by decide, by decide⟩, trivial, trivial⟩
    ⟨fun b hb => absurd hb List.not_mem_nil, ⟨fun b hb => absurd hb List.not_mem_nil, trivial, trivial⟩, trivial⟩ 7
  rw [if_pos (show ((pathTo smallNode).length : Int) < 7 by decide)] at hget
  exact ⟨hget, hpath⟩

end

end DTFramework.Fdt
