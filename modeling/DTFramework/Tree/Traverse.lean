import DTFramework.Fdt.FlatIterate
import DTFramework.Fdt.NodeAt
import Mathlib.Data.List.Forall2

/-!
# Going through a tree

`fdt_next_node` comes to the nodes of a blob that stands for a tree in the order
in which they are written out, with or without their depths (`steps_forest`). A
search through the nodes is then a search through a list (`Steps.search`). A
caller that goes on from each answer to the next comes to the nodes of a list,
one call a node (`calls_enumerate`).

Results:

* `steps_forest`, `Lies.steps`, `Lies.stepsAfter`: the nodes, one after the other;
* `Steps.search`: a scan until a hit is a search through a list;
* `calls_enumerate`: calls that each go on from the last answer enumerate it.
-/
namespace DTFramework.Fdt

open DTFramework.Lib

/-! ## Call after call -/

section
variable {α β : Type}

/-- What a caller gets by up to `k` calls, each from the last answer on, for as
long as the status is 0; and the status of its last call. -/
def calls (call : α → Int × α) : Nat → α → List α × Int
  | 0, _ => ([], 0)
  | k + 1, a =>
    if (call a).1 = 0 then ((call a).2 :: (calls call k (call a).2).1, (calls call k (call a).2).2)
      else ([], (call a).1)

/-- When each call answers the first of what is left, the calls come to all of it
in order, and fail after the last. -/
theorem calls_enumerate (call : α → Int × α) (left : β → List β) {R : α → β → Prop} {e : Int}
    (hlast : ∀ a b, R a b → left b = [] → (call a).1 = e)
    (hnext : ∀ a b b' bs, R a b → left b = b' :: bs → (call a).1 = 0 ∧ R (call a).2 b' ∧ bs = left b')
    (he : e ≠ 0) {a : α} {b : β} (h : R a b) (k : Nat) : List.Forall₂ R (calls call k a).1 ((left b).take k) ∧
      (calls call k a).2 = if k ≤ (left b).length then 0 else e := by
  induction k generalizing a b with
  | zero => exact ⟨.nil, (if_pos (Nat.zero_le _)).symm⟩
  | succ k ih =>
    rw [calls]
    cases hleft : left b with
    | nil =>
      rw [hlast a b h hleft, if_neg he]
      exact ⟨.nil, rfl⟩
    | cons b' bs =>
      obtain ⟨hst, hr, rfl⟩ := hnext a b b' bs h hleft
      obtain ⟨hnodes, hend⟩ := ih hr
      rw [if_pos hst, List.length_cons]
      simp only [Nat.add_le_add_iff_right]
      exact ⟨.cons hr hnodes, hend⟩

end

/-! ## Node after node -/

/-- A depth that is counted only when it is asked for. -/
def counted (b : Bool) (d : Int) : Option Int := if b then some d else none

theorem counted_map (b : Bool) (d : Int) : (counted b d).map (· + 1) = counted b (d + 1) := by
  cases b <;> rfl

/-- From the token at `o`, with the counter at `d`, the search for nodes comes to
those of a list, and from there to the token at `e`. -/
def Steps (f : Blob) (b : Bool) (o : Nat) (d : Int) : List (Place FlatNode) → Nat → Int → Prop
  | [], e, d' => nextNodeFrom f o (counted b d) = nextNodeFrom f e (counted b d')
  | l :: ls, e, d' => nextNodeFrom f o (counted b d) = ((placeOffset l : Int), counted b l.ctx.depth) ∧
      Steps f b (placeOffset l + l.label.opens.length) l.ctx.depth ls e d'

section
variable {f : Blob} {strs : Str} {b : Bool} {o e e' : Nat} {d d' d'' : Int}

theorem Steps.append {ls ls' : List (Place FlatNode)} (h : Steps f b o d ls e d') (h' : Steps f b e d' ls' e' d'') :
    Steps f b o d (ls ++ ls') e' d'' := by
  induction ls generalizing o d with
  | nil =>
    have hsame : nextNodeFrom f o (counted b d) = nextNodeFrom f e (counted b d') := h
    cases ls' with
    | nil => exact hsame.trans h'
    | cons l ls' => exact ⟨hsame.trans h'.1, h'.2⟩
  | cons l ls ih => exact ⟨h.1, ih h.2⟩

/-- The search ends at a node's header. -/
theorem nextNodeFrom_node (hf : StructFits f) {a : FlatNode} {subs : Forest FlatNode} (h : NodeStands f strs o a subs)
    (d : Option Int) : nextNodeFrom f o d = ((o : Int), d.map (· + 1)) := by
  have htag := nextTag_begin hf h.ok h.header.1 h.aligned h.header.2
  rw [nextNodeFrom.eq_def, htag, dif_neg (show ¬FDT_BEGIN_NODE = FDT_END by decide), if_pos rfl]

/-- It goes over a node's end, and one level up. -/
theorem nextNodeFrom_up (hf : StructFits f) {a : FlatNode} (h : Stands f o a.closes) (ho : o % 4 = 0)
    (hd : b = true → 1 ≤ d) : nextNodeFrom f o (counted b d) =
      nextNodeFrom f ((o + a.closes.length : Nat) : Int) (counted b (d - 1)) := by
  cases b with
  | true =>
    have hup := nextNodeFrom_closes hf h ho d
    rwa [if_neg (by have := hd rfl; omega)] at hup
  | false =>
    unfold FlatNode.closes at h
    rw [Stands.append, cell_length] at h
    have htag := nextTag_plain hf (Or.inr (Or.inl rfl)) h.1.1 ho h.1.2
    have hstep : nextNodeFrom f o none = nextNodeFrom f ((o + 4 : Nat) : Int) none := by
      rw [nextNodeFrom, htag, dif_neg (show ¬FDT_END_NODE = FDT_END by decide),
        if_neg (show ¬FDT_END_NODE = FDT_BEGIN_NODE by decide), if_pos rfl]
    have hwhere : o + 4 + 4 * a.after = o + a.closes.length := by
      rw [closes_length]
      omega
    change nextNodeFrom f o none = nextNodeFrom f _ none
    rw [hstep, nextNodeFrom_nops hf _ h.2 (by omega), hwhere]

/-- And at the end of the block. -/
theorem nextNodeFrom_last {t : Forest FlatNode} (h : Lies f strs t) :
    nextNodeFrom f ((flat t).length : Int) none = (-FDT_ERR_NOTFOUND, none) := by
  have hstands := (Stands.append.mp h.stands).2
  rw [Nat.zero_add] at hstands
  have htag := nextTag_plain h.fits (Or.inl rfl) hstands.1 (flat_aligned h.ok) (by
    have hle := hstands.2
    rwa [cell_length] at hle)
  rw [nextNodeFrom, htag, dif_pos rfl, if_pos (Or.inl (Int.natCast_nonneg _))]

theorem flat_node_length (a : FlatNode) (subs rest : Forest FlatNode) : (flat (.node a subs rest)).length =
    a.opens.length + (flat subs).length + a.closes.length + (flat rest).length := by
  have heq : flat (.node a subs rest) = a.opens ++ flat subs ++ a.closes ++ flat rest := rfl
  rw [heq, List.length_append, List.length_append, List.length_append]

/-- The nodes of a forest are come to one after the other. -/
theorem steps_forest {t : Forest FlatNode} {c : Ctx FlatNode} (h : Lies f strs (c.plug t))
    (hc : (c.before FlatNode.opens FlatNode.closes).length = o) (hb : b = true → 1 ≤ c.depth) :
    Steps f b o (c.depth - 1) (Place.places c t) (o + (flat t).length) (c.depth - 1) := by
  induction t generalizing o c with
  | nil => rfl
  | node a subs rest ihs ihr =>
    have hforest : Lies f strs (Place.forest ⟨c, a, subs, rest⟩) := h
    have hhere := hforest.here
    have hplace : placeOffset ⟨c, a, subs, rest⟩ = o := hc
    rw [hplace] at hhere
    have hal : a.opens.length % 4 = 0 := hhere.ok.opens_aligned
    have hsubal : (flat subs).length % 4 = 0 := flat_aligned hhere.subsOk
    have haligned := hhere.aligned
    have hdown : ((Ctx.down a rest c).before FlatNode.opens FlatNode.closes).length = o + a.opens.length := by
      rw [Ctx.before, List.length_append, hc]
    have hdepth : ((Ctx.down a rest c).depth : Int) - 1 = c.depth := by
      rw [Ctx.depth]
      omega
    have hsubs := ihs (c := .down a rest c) h hdown fun _ => Nat.succ_le_succ (Nat.zero_le _)
    have hrest := ihr (c := .next a subs c) h (before_next hc) hb
    have hup : Steps f b (o + a.opens.length + (flat subs).length) c.depth []
        (o + a.opens.length + (flat subs).length + a.closes.length) (c.depth - 1) :=
      nextNodeFrom_up h.fits hhere.closes (by omega) fun ht => Int.ofNat_le.mpr (hb ht)
    have hend : o + (flat (.node a subs rest)).length =
        o + a.opens.length + (flat subs).length + a.closes.length + (flat rest).length := by
      rw [flat_node_length]
      omega
    have hnode := nextNodeFrom_node h.fits hhere (counted b (c.depth - 1))
    rw [counted_map, Int.sub_add_cancel] at hnode
    rw [hdepth] at hsubs
    rw [hend]
    refine ⟨by rw [hplace]; exact hnode, ?_⟩
    rw [hplace]
    exact hsubs.append (Steps.append hup hrest)

theorem Steps.after {l : Place FlatNode} {pre post : List (Place FlatNode)}
    (h : Steps f b o d (pre ++ l :: post) e d') :
    Steps f b (placeOffset l + l.label.opens.length) l.ctx.depth post e d' := by
  induction pre generalizing o d with
  | nil => exact h.2
  | cons l' pre ih => exact ih h.2

/-- All nodes, from before the first one on. -/
theorem Lies.steps {t : Forest FlatNode} (h : Lies f strs t) :
    Steps f false 0 (-1) (Place.places .top t) (flat t).length (-1) := by
  have hall : Steps f false 0 (-1) (Place.places .top t) (0 + (flat t).length) (-1) :=
    steps_forest (c := .top) h rfl fun hb => absurd hb Bool.false_ne_true
  rwa [Nat.zero_add] at hall

/-- All nodes after a node. -/
theorem Lies.stepsAfter {l : Place FlatNode} (h : Lies f strs l.forest) :
    Steps f false (placeOffset l + l.label.opens.length) l.ctx.depth l.later (flat l.forest).length (-1) := by
  have hall := h.steps
  rw [l.places_later] at hall
  exact hall.after

/-- The node that the search comes to next, before it ends. -/
theorem Steps.next {t : Forest FlatNode} {ls : List (Place FlatNode)} (h : Lies f strs t)
    (hs : Steps f false o d ls (flat t).length d') :
    (nextNodeFrom f o none).1 = ls.head?.elim (-FDT_ERR_NOTFOUND) fun l => (placeOffset l : Int) := by
  cases ls with
  | nil =>
    have hend : nextNodeFrom f o none = nextNodeFrom f (flat t).length none := hs
    rw [hend, nextNodeFrom_last h]
    rfl
  | cons l ls =>
    have hnode : nextNodeFrom f o none = ((placeOffset l : Int), none) := hs.1
    rw [hnode]
    rfl

/-- A scan that goes from a node to the next one, until one is hit, is a search
through the list of the nodes. -/
theorem Steps.search {t : Forest FlatNode} {ls : List (Place FlatNode)} {scan : Int → Int}
    {hits : Place FlatNode → Bool}
    {start : Int} (h : Lies f strs t) (hs : Steps f false o d ls (flat t).length d') (hls : ∀ l ∈ ls, l.forest = t)
    (hend : ∀ o, (nextNode f o none).1 = -FDT_ERR_NOTFOUND → scan o = -FDT_ERR_NOTFOUND)
    (hnode : ∀ o, ∀ l ∈ ls, (nextNode f o none).1 = placeOffset l →
      scan o = if hits l then (placeOffset l : Int) else scan (placeOffset l))
    (hstart : nextNode f start none = nextNodeFrom f o none) :
    scan start = (ls.find? hits).elim (-FDT_ERR_NOTFOUND) fun l => (placeOffset l : Int) := by
  induction ls generalizing o d start with
  | nil => exact hend start (by rw [hstart, hs.next h]; rfl)
  | cons l ls ih =>
    rw [hnode start l List.mem_cons_self (by rw [hstart, hs.next h]; rfl), List.find?_cons]
    by_cases hhit : hits l = true
    · rw [if_pos hhit, hhit]
      rfl
    · have hl : Lies f strs l.forest := hls l List.mem_cons_self ▸ h
      rw [if_neg hhit, Bool.eq_false_iff.mpr hhit]
      exact ih hs.2 (fun l' hl' => hls l' (List.mem_cons_of_mem l hl'))
        (fun o l' hl' => hnode o l' (List.mem_cons_of_mem l hl')) (nextNode_flat hl.fits hl.here none)

end

end DTFramework.Fdt
