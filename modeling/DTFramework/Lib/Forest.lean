import Mathlib.Algebra.Order.Ring.Int
import Mathlib.Algebra.Order.Ring.Nat
import Mathlib.Data.List.Basic
import Mathlib.Order.Lattice

/-!
# Forests and places in them

A forest is an ordered list of labelled trees. A `Ctx` is a forest with one hole;
filling the hole (`Ctx.plug`) commutes with writing the forest out between
brackets (`linear_plug`) and with relabelling (`map_plug`), so that an edit at a
place of a forest is an edit between a fixed start and end of its linear form.
`firstSuch` and `walk` find places by their labels, and a relabelling that the
search cannot see does not change what they find. `places` are the places of a
forest in the order of its linear form, and `later` those after a place.

Results:

* `linear_plug`, `map_plug`: a hole, in the linear form and under a relabelling;
* `firstSuch_update`: changing the first fitting tree is a change at its place;
* `places_later`, `Follows.filter`: the places after a place;
* `walk_route`, `walk_depth`: the way to a place, when no node fits a later sibling's
  key;
* `foldl_earlier`: the parent is the last place before, one level up.
-/
namespace DTFramework.Lib

/-- The trees of a forest, one after the other. -/
inductive Forest (α : Type) where
  | nil
  | node (a : α) (subs rest : Forest α)
deriving DecidableEq

/-- A forest with a hole in it. -/
inductive Ctx (α : Type) where
  | top
  /-- The hole is what is below a node. -/
  | down (a : α) (rest : Forest α) (c : Ctx α)
  /-- The hole is what comes after a node. -/
  | next (a : α) (subs : Forest α) (c : Ctx α)

section
variable {α β γ : Type}

namespace Forest

def map (g : α → β) : Forest α → Forest β
  | nil => nil
  | node a subs rest => node (g a) (subs.map g) (rest.map g)

theorem map_map (g : α → β) (h : β → γ) (t : Forest α) : (t.map g).map h = t.map (h ∘ g) := by
  induction t with
  | nil => rfl
  | node a subs rest ihs ihr => rw [map, map, map, ihs, ihr]; rfl

/-- A property of all labels. -/
def All (p : α → Prop) : Forest α → Prop
  | nil => True
  | node a subs rest => p a ∧ subs.All p ∧ rest.All p

theorem All.mono {p q : α → Prop} {t : Forest α} (h : t.All p) (hpq : ∀ a, p a → q a) : t.All q := by
  induction t with
  | nil => trivial
  | node a subs rest ihs ihr => exact ⟨hpq a h.1, ihs h.2.1, ihr h.2.2⟩

theorem map_congr {g h : α → β} {t : Forest α} (hall : t.All fun a => g a = h a) : t.map g = t.map h := by
  induction t with
  | nil => rfl
  | node a subs rest ihs ihr => rw [map, map, hall.1, ihs hall.2.1, ihr hall.2.2]

/-- The labels of the trees of a forest, without those below them. -/
def tops : Forest α → List α
  | nil => []
  | node a _ rest => a :: rest.tops

/-- A relation between each node and its later siblings. -/
def Siblings (R : α → α → Prop) : Forest α → Prop
  | nil => True
  | node a subs rest => (∀ b ∈ rest.tops, R a b) ∧ subs.Siblings R ∧ rest.Siblings R

theorem all_map {p : β → Prop} (g : α → β) {t : Forest α} : (t.map g).All p ↔ t.All (p ∘ g) := by
  induction t with
  | nil => exact Iff.rfl
  | node a subs rest ihs ihr => exact and_congr Iff.rfl (and_congr ihs ihr)

theorem map_single {g : α → β} {t : Forest α} {b : β} {below : Forest β} (h : t.map g = .node b below .nil) :
    ∃ a subs, t = .node a subs .nil ∧ g a = b ∧ subs.map g = below := by
  cases t with
  | nil => cases h
  | node a subs rest =>
    obtain ⟨ha, hsubs, hrest⟩ := Forest.node.inj h
    cases rest with
    | nil => exact ⟨a, subs, rfl, ha, hsubs⟩
    | node => cases hrest

theorem tops_map (g : α → β) (t : Forest α) : (t.map g).tops = t.tops.map g := by
  induction t with
  | nil => rfl
  | node a subs rest _ ih => exact congrArg (List.cons (g a)) ih

theorem siblings_map {R : β → β → Prop} (g : α → β) {t : Forest α} :
    (t.map g).Siblings R ↔ t.Siblings fun a b => R (g a) (g b) := by
  induction t with
  | nil => exact Iff.rfl
  | node a subs rest ihs ihr =>
    refine and_congr ?_ (and_congr ihs ihr)
    rw [tops_map, List.forall_mem_map]

/-- The forest written out, with brackets around what is below a node. -/
def linear (opens closes : α → List β) : Forest α → List β
  | nil => []
  | node a subs rest => opens a ++ subs.linear opens closes ++ closes a ++ rest.linear opens closes

/-- The first tree whose label fits is changed. -/
def update (fits : α → Bool) (f : α → Forest α → α × Forest α) : Forest α → Option (Forest α)
  | nil => none
  | node a subs rest =>
    if fits a then some (node (f a subs).1 (f a subs).2 rest) else (rest.update fits f).map (node a subs)

theorem update_map (g : α → β) (fits : β → Bool) (b : α) (below : Forest α) (t : Forest α) :
    (t.map g).update fits (fun _ _ => (g b, below.map g)) = (t.update (fits ∘ g) fun _ _ => (b, below)).map
    (map g) := by
  induction t with
  | nil => rfl
  | node a subs rest _ ih =>
    rw [map, update, update, Function.comp_apply]
    by_cases hfits : fits (g a) = true
    · rw [if_pos hfits, if_pos hfits]
      rfl
    · rw [if_neg hfits, if_neg hfits, ih, Option.map_map, Option.map_map]
      rfl

/-- One forest is merged into another: a tree is joined with the first one that
fits it, and is put first, joined with nothing, where none does. -/
def merge (fits : β → α → Bool) (fresh : β → α) (join : α → β → α) (t : Forest α) : Forest β → Forest α
  | nil => t
  | node b below rest =>
    merge fits fresh join ((t.update (fits b) fun a subs => (join a b, merge fits fresh join subs below)).getD
      (node (join (fresh b) b) (merge fits fresh join nil below) t)) rest

end Forest

namespace Ctx

def plug : Ctx α → Forest α → Forest α
  | top, t => t
  | down a rest c, t => c.plug (.node a t rest)
  | next a subs c, t => c.plug (.node a subs t)

def map (g : α → β) : Ctx α → Ctx β
  | top => top
  | down a rest c => down (g a) (rest.map g) (c.map g)
  | next a subs c => next (g a) (subs.map g) (c.map g)

theorem map_plug (g : α → β) (c : Ctx α) (t : Forest α) : (c.plug t).map g = (c.map g).plug (t.map g) := by
  induction c generalizing t with
  | top => rfl
  | down a rest c ih => exact ih _
  | next a subs c ih => exact ih _

def All (p : α → Prop) : Ctx α → Prop
  | top => True
  | down a rest c => p a ∧ rest.All p ∧ c.All p
  | next a subs c => p a ∧ subs.All p ∧ c.All p

theorem all_plug {p : α → Prop} {c : Ctx α} {t : Forest α} : (c.plug t).All p ↔ c.All p ∧ t.All p := by
  induction c generalizing t with
  | top => exact ⟨fun h => ⟨trivial, h⟩, And.right⟩
  | down a rest c ih =>
    rw [plug, ih]
    exact ⟨fun h => ⟨⟨h.2.1, h.2.2.2, h.1⟩, h.2.2.1⟩, fun h => ⟨h.1.2.2, h.1.1, h.2, h.1.2.1⟩⟩
  | next a subs c ih =>
    rw [plug, ih]
    exact ⟨fun h => ⟨⟨h.2.1, h.2.2.1, h.1⟩, h.2.2.2⟩, fun h => ⟨h.1.2.2, h.1.1, h.1.2.1, h.2⟩⟩

theorem All.mono {p q : α → Prop} {c : Ctx α} (h : c.All p) (hpq : ∀ a, p a → q a) : c.All q := by
  induction c with
  | top => trivial
  | down a rest c ih => exact ⟨hpq a h.1, Forest.All.mono h.2.1 hpq, ih h.2.2⟩
  | next a subs c ih => exact ⟨hpq a h.1, Forest.All.mono h.2.1 hpq, ih h.2.2⟩

theorem map_congr {g h : α → β} {c : Ctx α} (hall : c.All fun a => g a = h a) : c.map g = c.map h := by
  induction c with
  | top => rfl
  | down a rest c ih => rw [map, map, hall.1, Forest.map_congr hall.2.1, ih hall.2.2]
  | next a subs c ih => rw [map, map, hall.1, Forest.map_congr hall.2.1, ih hall.2.2]

/-- What is written before the hole. -/
def before (opens closes : α → List β) : Ctx α → List β
  | top => []
  | down a _ c => c.before opens closes ++ opens a
  | next a subs c => c.before opens closes ++ (opens a ++ subs.linear opens closes ++ closes a)

/-- What is written after the hole. -/
def after (opens closes : α → List β) : Ctx α → List β
  | top => []
  | down a rest c => closes a ++ rest.linear opens closes ++ c.after opens closes
  | next _ _ c => c.after opens closes

/-- The labels of the nodes that a context is below, from the outermost on. -/
def labels : Ctx α → List α
  | .top => []
  | .down a _ c => c.labels ++ [a]
  | .next _ _ c => c.labels

/-- The labels of the trees before the hole that are below the same node. -/
def siblings : Ctx α → List α
  | .next a _ c => a :: c.siblings
  | _ => []

/-- How many nodes a context is below. -/
def depth : Ctx α → Nat
  | .top => 0
  | .down _ _ c => c.depth + 1
  | .next _ _ c => c.depth

theorem siblings_plug {R : α → α → Prop} {c : Ctx α} {t : Forest α} (h : (c.plug t).Siblings R) :
    t.Siblings R ∧ ∀ a ∈ c.siblings, ∀ b ∈ t.tops, R a b := by
  induction c generalizing t with
  | top => exact ⟨h, fun a ha => absurd ha List.not_mem_nil⟩
  | down a rest c ih => exact ⟨(ih h).1.2.1, fun a ha => absurd ha List.not_mem_nil⟩
  | next a subs c ih =>
    obtain ⟨⟨htops, -, ht⟩, hsiblings⟩ := ih h
    refine ⟨ht, fun a' ha' b hb => ?_⟩
    rcases List.mem_cons.mp ha' with rfl | ha'
    · exact htops b hb
    · exact hsiblings a' ha' b (List.mem_cons_of_mem a hb)

theorem labels_length (c : Ctx α) : c.labels.length = c.depth := by
  induction c with
  | top => rfl
  | down a rest c ih => rw [labels, List.length_append, ih]; rfl
  | next a subs c ih => exact ih

theorem labels_map (g : α → β) (c : Ctx α) : (c.map g).labels = c.labels.map g := by
  induction c with
  | top => rfl
  | down a rest c ih => rw [map, labels, labels, ih, List.map_append]; rfl
  | next a subs c ih => exact ih

theorem All.labels {p : α → Prop} {c : Ctx α} (h : c.All p) : ∀ a ∈ c.labels, p a := by
  induction c with
  | top => exact fun a ha => absurd ha List.not_mem_nil
  | down b rest c ih =>
    intro a ha
    rcases List.mem_append.mp ha with ha | ha
    · exact ih h.2.2 a ha
    · rw [List.mem_singleton.mp ha]
      exact h.1
  | next b subs c ih => exact ih h.2.2

theorem linear_plug (opens closes : α → List β) (c : Ctx α) (t : Forest α) :
    (c.plug t).linear opens closes = c.before opens closes ++ t.linear opens closes ++ c.after opens closes := by
  induction c generalizing t with
  | top => rw [plug, before, after, List.nil_append, List.append_nil]
  | down a rest c ih =>
    rw [plug, ih, before, after, Forest.linear]
    simp only [List.append_assoc]
  | next a subs c ih =>
    rw [plug, ih, before, after, Forest.linear]
    simp only [List.append_assoc]

end Ctx

/-! ## Places -/

/-- A node at its place in a forest. -/
structure Place (α : Type) where
  ctx : Ctx α
  label : α
  subs : Forest α
  rest : Forest α

namespace Place

/-- The forest that the place is in. -/
def forest (l : Place α) : Forest α := l.ctx.plug (.node l.label l.subs l.rest)

/-- The forest with another label, and another forest below it, at the place. -/
def put (l : Place α) (a : α) (subs : Forest α) : Forest α := l.ctx.plug (.node a subs l.rest)

def map (g : α → β) (l : Place α) : Place β := ⟨l.ctx.map g, g l.label, l.subs.map g, l.rest.map g⟩

theorem map_forest (g : α → β) (l : Place α) : (l.map g).forest = l.forest.map g := by
  unfold forest
  rw [Ctx.map_plug]
  rfl

/-- The first tree of `t` whose label fits, where `t` stands in the hole of `c`. -/
def firstSuch (fits : α → Bool) (c : Ctx α) : Forest α → Option (Place α)
  | .nil => none
  | .node a subs rest => if fits a then some ⟨c, a, subs, rest⟩ else firstSuch fits (.next a subs c) rest

theorem firstSuch_forest {fits : α → Bool} {c : Ctx α} {t : Forest α} {l : Place α} (h : firstSuch fits c t = some l) :
    l.forest = c.plug t ∧ fits l.label = true := by
  induction t generalizing c with
  | nil => cases h
  | node a subs rest _ ih =>
    rw [firstSuch] at h
    split at h
    · rename_i hfits
      cases h
      exact ⟨rfl, hfits⟩
    · exact ih h

theorem firstSuch_map {fits : β → Bool} {g : α → β} (c : Ctx α) (t : Forest α) :
    firstSuch fits (c.map g) (t.map g) = (firstSuch (fits ∘ g) c t).map (map g) := by
  induction t generalizing c with
  | nil => rfl
  | node a subs rest _ ih =>
    rw [Forest.map, firstSuch, firstSuch, Function.comp_apply]
    by_cases hfits : fits (g a) = true
    · rw [if_pos hfits, if_pos hfits]
      rfl
    · rw [if_neg hfits, if_neg hfits, ← ih]
      rfl

/-- Changing the first fitting tree is a change at its place. -/
theorem firstSuch_update {fits : α → Bool} (f : α → Forest α → α × Forest α) {c : Ctx α} {t : Forest α} {l : Place α}
    (h : firstSuch fits c t = some l) :
    ∃ t', t.update fits f = some t' ∧ c.plug t' = l.put (f l.label l.subs).1 (f l.label l.subs).2 ∧
      t.update fits (fun _ _ => f l.label l.subs) = some t' := by
  induction t generalizing c with
  | nil => cases h
  | node a subs rest _ ih =>
    rw [firstSuch] at h
    split at h
    · rename_i hfits
      cases h
      rw [Forest.update, Forest.update, if_pos hfits, if_pos hfits]
      exact ⟨_, rfl, rfl, rfl⟩
    · rename_i hfits
      obtain ⟨t', hupdate, hplug, hconst⟩ := ih h
      rw [Forest.update, Forest.update, if_neg hfits, if_neg hfits, hupdate, hconst]
      exact ⟨_, rfl, hplug, rfl⟩

theorem firstSuch_none {fits : α → Bool} (f : α → Forest α → α × Forest α) {c : Ctx α} {t : Forest α}
    (h : firstSuch fits c t = none) : t.update fits f = none := by
  induction t generalizing c with
  | nil => rfl
  | node a subs rest _ ih =>
    rw [firstSuch] at h
    split at h
    · cases h
    · rename_i hfits
      rw [Forest.update, if_neg hfits, ih h]
      rfl

/-- The first fitting tree below a place. -/
def child (fits : α → Bool) (l : Place α) : Option (Place α) := firstSuch fits (.down l.label l.rest l.ctx) l.subs

/-- From a place downwards, one fitting tree after the other. -/
def walk (l : Place α) : List (α → Bool) → Option (Place α)
  | [] => some l
  | fits :: path => (l.child fits).bind fun l' => l'.walk path

theorem child_forest {fits : α → Bool} {l l' : Place α} (h : l.child fits = some l') : l'.forest = l.forest :=
  (firstSuch_forest h).1

theorem walk_forest {path : List (α → Bool)} {l l' : Place α} (h : l.walk path = some l') : l'.forest = l.forest := by
  induction path generalizing l with
  | nil =>
    cases h
    rfl
  | cons fits path ih =>
    obtain ⟨next, hchild, hwalk⟩ := Option.bind_eq_some_iff.mp h
    exact (ih hwalk).trans (child_forest hchild)

theorem firstSuch_depth {fits : α → Bool} {c : Ctx α} {t : Forest α} {l : Place α} (h : firstSuch fits c t = some l) :
    l.ctx.depth = c.depth := by
  induction t generalizing c with
  | nil => cases h
  | node a subs rest _ ih =>
    rw [firstSuch] at h
    split at h
    · cases h
      rfl
    · exact ih (c := .next a subs c) h

/-- Each step leads one level down. -/
theorem walk_depth {path : List (α → Bool)} {l l' : Place α} (h : l.walk path = some l') :
    l'.ctx.depth = l.ctx.depth + path.length := by
  induction path generalizing l with
  | nil =>
    cases h
    rfl
  | cons fits path ih =>
    obtain ⟨next, hchild, hwalk⟩ := Option.bind_eq_some_iff.mp h
    have hnext : next.ctx.depth = l.ctx.depth + 1 := firstSuch_depth hchild
    rw [ih hwalk, hnext, List.length_cons, Nat.add_assoc, Nat.add_comm 1]

theorem child_map {fits : β → Bool} {g : α → β} (l : Place α) :
    (l.map g).child fits = (l.child (fits ∘ g)).map (map g) := firstSuch_map (.down l.label l.rest l.ctx) l.subs

theorem walk_map {g : α → β} (path : List (β → Bool)) (l : Place α) :
    (l.map g).walk path = (l.walk (path.map (· ∘ g))).map (map g) := by
  induction path generalizing l with
  | nil => rfl
  | cons fits path ih =>
    rw [List.map_cons, walk, walk, child_map]
    cases l.child (fits ∘ g) with
    | none => rfl
    | some l' => exact ih l'

/-- The places of a forest, in the order in which it is written out. -/
def places (c : Ctx α) : Forest α → List (Place α)
  | .nil => []
  | .node a subs rest => ⟨c, a, subs, rest⟩ :: (places (.down a rest c) subs ++ places (.next a subs c) rest)

theorem places_map (g : α → β) (c : Ctx α) (t : Forest α) :
    places (c.map g) (t.map g) = (places c t).map (map g) := by
  induction t generalizing c with
  | nil => rfl
  | node a subs rest ihs ihr =>
    rw [Forest.map, places, places, List.map_cons, List.map_append, ← ihs, ← ihr]
    rfl

theorem places_forest {c : Ctx α} {t : Forest α} : ∀ l ∈ places c t, l.forest = c.plug t := by
  induction t generalizing c with
  | nil => exact fun l hl => absurd hl List.not_mem_nil
  | node a subs rest ihs ihr =>
    intro l hl
    rcases List.mem_cons.mp hl with rfl | hl
    · rfl
    · rcases List.mem_append.mp hl with hl | hl
      · exact ihs l hl
      · exact ihr l hl

/-- The places after the tree in the hole of a context. -/
def above : Ctx α → Forest α → List (Place α)
  | .top, _ => []
  | .down a rest c, t => places (.next a t c) rest ++ above c (.node a t rest)
  | .next a subs c, t => above c (.node a subs t)

/-- The places after a place, in the order in which the forest is written out. -/
def later (l : Place α) : List (Place α) :=
  places (.down l.label l.rest l.ctx) l.subs ++ above (.down l.label l.rest l.ctx) l.subs

/-- The places before the tree in the hole of a context. -/
def earlier : Ctx α → Forest α → List (Place α)
  | .top, _ => []
  | .down a rest c, t => earlier c (.node a t rest) ++ [⟨c, a, t, rest⟩]
  | .next a subs c, t => earlier c (.node a subs t) ++ ⟨c, a, subs, t⟩ :: places (.down a t c) subs

theorem places_plug (c : Ctx α) (t : Forest α) : places .top (c.plug t) = earlier c t ++
    (places c t ++ above c t) := by
  induction c generalizing t with
  | top => exact (List.append_nil _).symm
  | down a rest c ih =>
    rw [Ctx.plug, ih, places, above, earlier]
    simp only [List.append_assoc, List.cons_append, List.nil_append]
  | next a subs c ih =>
    rw [Ctx.plug, ih, places, above, earlier]
    simp only [List.append_assoc, List.cons_append]

/-- A place and the later ones are the last of its forest's. -/
theorem places_later (l : Place α) :
    places .top l.forest = earlier l.ctx (.node l.label l.subs l.rest) ++ l :: l.later :=
  (places_plug l.ctx _).trans (congrArg (fun ls => earlier l.ctx _ ++ l :: ls) (List.append_assoc _ _ _))

theorem above_map (g : α → β) (c : Ctx α) (t : Forest α) : above (c.map g) (t.map g) = (above c t).map (map g) := by
  induction c generalizing t with
  | top => rfl
  | down a rest c ih =>
    have hnext := places_map g (.next a t c) rest
    rw [above, List.map_append, ← hnext, ← ih]
    rfl
  | next a subs c ih => exact ih (.node a subs t)

theorem later_map (g : α → β) (l : Place α) : (l.map g).later = l.later.map (map g) := by
  have hplaces := places_map g (.down l.label l.rest l.ctx) l.subs
  have habove := above_map g (.down l.label l.rest l.ctx) l.subs
  unfold later
  rw [List.map_append, ← hplaces, ← habove]
  rfl

theorem later_forest {l l' : Place α} (h : l' ∈ l.later) : l'.forest = l.forest := by
  have hmem : l' ∈ places .top l.forest := by
    rw [places_later]
    exact List.mem_append_right _ (List.mem_cons_of_mem l h)
  exact places_forest (c := .top) l' hmem

/-- Each place of a list has its later ones behind it. -/
def Follows : List (Place α) → Prop
  | [] => True
  | l :: ls => ls = l.later ∧ Follows ls

theorem places_follows {c : Ctx α} {t : Forest α} (h : Follows (above c t)) : Follows (places c t ++ above c t) := by
  induction t generalizing c with
  | nil => exact h
  | node a subs rest ihs ihr =>
    have hrest : Follows (above (.down a rest c) subs) := ihr (c := .next a subs c) h
    have heq : places c (.node a subs rest) ++ above c (.node a subs rest) = ⟨c, a, subs, rest⟩ ::
        (places (.down a rest c) subs ++ above (.down a rest c) subs) :=
          congrArg (List.cons _) (List.append_assoc _ _ _)
    rw [heq]
    exact ⟨rfl, ihs hrest⟩

theorem above_follows (c : Ctx α) (t : Forest α) : Follows (above c t) := by
  induction c generalizing t with
  | top => trivial
  | down a rest c ih => exact places_follows (c := .next a t c) (ih (.node a t rest))
  | next a subs c ih => exact ih (.node a subs t)

theorem later_follows (l : Place α) : Follows l.later := places_follows (above_follows _ _)

theorem Follows.mem {ls : List (Place α)} {l l' : Place α} (h : Follows ls) (hl : l ∈ ls) (hl' : l' ∈ l.later) :
    l' ∈ ls := by
  induction ls with
  | nil => exact absurd hl List.not_mem_nil
  | cons first ls ih =>
    obtain ⟨hlater, hls⟩ := h
    rcases List.mem_cons.mp hl with rfl | hl
    · exact List.mem_cons_of_mem _ (hlater ▸ hl')
    · exact List.mem_cons_of_mem first (ih hls hl)

/-- What is hit after the first hit is what is hit later than it. -/
theorem Follows.filter {hits : Place α → Bool} {ls : List (Place α)} {l : Place α} (h : Follows ls)
    (hfind : ls.find? hits = some l) : ls.filter hits = l :: l.later.filter hits := by
  induction ls with
  | nil => cases hfind
  | cons l' ls ih =>
    obtain ⟨hlater, hls⟩ := h
    rw [List.find?_cons] at hfind
    by_cases hhit : hits l' = true
    · rw [hhit] at hfind
      cases hfind
      rw [List.filter_cons_of_pos hhit, hlater]
    · rw [Bool.eq_false_iff.mpr hhit] at hfind
      rw [List.filter_cons_of_neg hhit]
      exact ih hls hfind

theorem places_depth (c : Ctx α) (t : Forest α) : ∀ l ∈ places c t, c.depth ≤ l.ctx.depth := by
  induction t generalizing c with
  | nil => exact fun l hl => absurd hl List.not_mem_nil
  | node a subs rest ihs ihr =>
    intro l hl
    rcases List.mem_cons.mp hl with rfl | hl
    · exact Nat.le_refl _
    · rcases List.mem_append.mp hl with hl | hl
      · exact Nat.le_of_succ_le (ihs (.down a rest c) l hl)
      · exact ihr (.next a subs c) l hl

/-! ## Routes -/

/-- The labels from the outermost node down to a place. -/
def route (l : Place α) : List α := l.ctx.labels ++ [l.label]

theorem route_all {p : α → Prop} {l : Place α} (h : l.forest.All p) : ∀ a ∈ l.route, p a := by
  obtain ⟨hctx, hlabel, -⟩ := Ctx.all_plug.mp h
  intro a ha
  rcases List.mem_append.mp ha with ha | ha
  · exact hctx.labels a ha
  · rw [List.mem_singleton.mp ha]
    exact hlabel

/-- Each place of a list is below a node on the route to the one before it. -/
def Routed (labels : List α) : List (Place α) → Prop
  | [] => True
  | l :: ls => labels.take l.ctx.depth = l.ctx.labels ∧ Routed l.route ls

/-- The route to the last place of a list. -/
def lastRoute (labels : List α) (ls : List (Place α)) : List α := ls.foldl (fun _ l => l.route) labels

theorem Routed.append {labels : List α} {ls ls' : List (Place α)} (h : Routed labels ls)
    (h' : Routed (lastRoute labels ls) ls') : Routed labels (ls ++ ls') := by
  induction ls generalizing labels with
  | nil => exact h'
  | cons l ls ih => exact ⟨h.1, ih h.2 h'⟩

theorem places_routed {labels : List α} {c : Ctx α} (t : Forest α) (h : labels.take c.depth = c.labels) :
    Routed labels (places c t) ∧ (lastRoute labels (places c t)).take c.depth = c.labels := by
  induction t generalizing labels c with
  | nil => exact ⟨trivial, h⟩
  | node a subs rest ihs ihr =>
    have hroute : (c.labels ++ [a]).take (c.depth + 1) = c.labels ++ [a] :=
      List.take_of_length_le (by rw [List.length_append, c.labels_length]; rfl)
    obtain ⟨hsubs, hlast⟩ := ihs (c := .down a rest c) hroute
    have hback : (lastRoute (c.labels ++ [a]) (places (.down a rest c) subs)).take c.depth = c.labels := by
      have htake := congrArg (List.take c.depth) hlast
      have hmin : min c.depth (Ctx.down a rest c).depth = c.depth := Nat.min_eq_left (Nat.le_succ c.depth)
      rw [List.take_take, hmin] at htake
      exact htake.trans (List.take_left' c.labels_length)
    obtain ⟨hrest, hend⟩ := ihr (c := .next a subs c) hback
    refine ⟨⟨h, hsubs.append hrest⟩, ?_⟩
    unfold lastRoute at hend ⊢
    rw [places, List.foldl_cons, List.foldl_append]
    exact hend

/-! ## What is above a place -/

/-- The nodes that the hole of a context is below, from the nearest on. -/
def aboveHole : Ctx α → Forest α → List (Place α)
  | .top, _ => []
  | .down a rest c, t => ⟨c, a, t, rest⟩ :: aboveHole c (.node a t rest)
  | .next a subs c, t => aboveHole c (.node a subs t)

/-- The nodes above a place, from its parent on. -/
def ancestors (l : Place α) : List (Place α) := aboveHole l.ctx (.node l.label l.subs l.rest)

theorem aboveHole_cons {c : Ctx α} {t : Forest α} {l : Place α} {ls : List (Place α)} (h : aboveHole c t = l :: ls) :
    ls = l.ancestors ∧ l.forest = c.plug t := by
  induction c generalizing t with
  | top => cases h
  | down a rest c =>
    cases h
    exact ⟨rfl, rfl⟩
  | next a subs c ih => exact ih h

theorem aboveHole_length (c : Ctx α) (t : Forest α) : (aboveHole c t).length = c.depth := by
  induction c generalizing t with
  | top => rfl
  | down a rest c ih => exact congrArg Nat.succ (ih (.node a t rest))
  | next a subs c ih => exact ih (.node a subs t)

theorem aboveHole_map (g : α → β) (c : Ctx α) (t : Forest α) :
    aboveHole (c.map g) (t.map g) = (aboveHole c t).map (map g) := by
  induction c generalizing t with
  | top => rfl
  | down a rest c ih => exact congrArg (List.cons _) (ih (.node a t rest))
  | next a subs c ih => exact ih (.node a subs t)

theorem ancestors_map (g : α → β) (l : Place α) : (l.map g).ancestors = l.ancestors.map (map g) :=
  aboveHole_map g l.ctx (.node l.label l.subs l.rest)

/-- The route to the parent is the route above. -/
theorem aboveHole_route {c : Ctx α} {t : Forest α} {l : Place α} {ls : List (Place α)} (h : aboveHole c t = l :: ls) :
    c.labels = l.route := by
  induction c generalizing t with
  | top => cases h
  | down a rest c =>
    cases h
    rfl
  | next a subs c ih => exact ih h

/-- A place is found below its parent when no earlier sibling fits. -/
theorem child_above {fits : α → Bool} {c : Ctx α} {t : Forest α} {l : Place α} {ls : List (Place α)}
    (h : aboveHole c t = l :: ls) (hearlier : ∀ a ∈ c.siblings, fits a = false) :
      l.child fits = firstSuch fits c t := by
  induction c generalizing t with
  | top => cases h
  | down a rest c =>
    cases h
    rfl
  | next a subs c ih =>
    rw [ih h fun b hb => hearlier b (List.mem_cons_of_mem a hb), firstSuch,
      if_neg (Bool.eq_false_iff.mp (hearlier a List.mem_cons_self))]

/-- The outermost place of a forest with one tree. -/
theorem single_top {c : Ctx α} {a r : α} {subs below rest : Forest α} (hdepth : c.depth = 0)
    (h : c.plug (.node a below rest) = .node r subs .nil) :
    (⟨c, a, below, rest⟩ : Place α) = ⟨.top, r, subs, .nil⟩ := by
  induction c generalizing a below rest with
  | top =>
    cases h
    rfl
  | down => cases hdepth
  | next b subs' c ih => cases ih hdepth h

theorem labels_below {p : α → Prop} {c : Ctx α} {t : Forest α} {r : α} {subs : Forest α}
    (h : c.plug t = .node r subs .nil) (hsubs : subs.All p) : (c.depth = 0 ∨ t.All p) ∧ ∀ a ∈ c.labels.tail, p a := by
  induction c generalizing t with
  | top => exact ⟨Or.inl rfl, fun a ha => absurd ha List.not_mem_nil⟩
  | down a rest c ih =>
    obtain ⟨hall, htail⟩ := ih h
    rcases hall with hdepth | ⟨ha, ht, -⟩
    · cases single_top hdepth h
      exact ⟨Or.inr hsubs, fun a ha => absurd ha List.not_mem_nil⟩
    · refine ⟨Or.inr ht, fun b hb => ?_⟩
      rw [Ctx.labels] at hb
      cases hlabels : c.labels with
      | nil =>
        rw [hlabels] at hb
        cases hb
      | cons first more =>
        rw [hlabels] at hb htail
        rcases List.mem_append.mp hb with hb | hb
        · exact htail b hb
        · rw [List.mem_singleton.mp hb]
          exact ha
  | next a subs' c ih =>
    obtain ⟨hall, htail⟩ := ih h
    exact ⟨hall.imp_right fun hnode => hnode.2.2, htail⟩

/-- What holds of all nodes below the outermost holds along a route. -/
theorem route_below {p : α → Prop} {l : Place α} {r : α} {subs : Forest α} (hone : l.forest = .node r subs .nil)
    (hsubs : subs.All p) : ∀ a ∈ l.route.tail, p a := by
  obtain ⟨hall, htail⟩ := labels_below hone hsubs
  intro a ha
  unfold route at ha
  cases hlabels : l.ctx.labels with
  | nil =>
    rw [hlabels] at ha
    cases ha
  | cons first more =>
    rw [hlabels] at ha htail
    rcases List.mem_append.mp ha with ha | ha
    · exact htail a ha
    · rw [List.mem_singleton.mp ha]
      refine (hall.resolve_left fun hdepth => ?_).1
      have hlength := l.ctx.labels_length
      rw [hlabels, hdepth] at hlength
      cases hlength

theorem labels_head {c : Ctx α} {a r : α} {below rest subs : Forest α}
    (h : c.plug (.node a below rest) = .node r subs .nil) : (c.labels ++ [a]).head? = some r := by
  induction c generalizing a below rest with
  | top =>
    cases h
    rfl
  | down b rest' c ih =>
    have hne : c.labels ++ [b] ≠ [] := List.append_ne_nil_of_right_ne_nil _ (List.cons_ne_nil _ _)
    rw [Ctx.labels, List.head?_append_of_ne_nil _ hne]
    exact ih h
  | next b subs' c ih =>
    have hhead := ih h
    cases hlabels : c.labels with
    | nil =>
      have hdepth : c.depth = 0 := by rw [← c.labels_length, hlabels]; rfl
      cases single_top hdepth h
    | cons first more =>
      rw [hlabels] at hhead
      rw [Ctx.labels, hlabels]
      exact hhead

/-- A route starts at the outermost node. -/
theorem route_cons {l : Place α} {r : α} {subs : Forest α} (hone : l.forest = .node r subs .nil) :
    l.route = r :: l.route.tail := List.eq_cons_of_mem_head? (labels_head hone)

theorem route_map (g : α → β) (l : Place α) : (l.map g).route = l.route.map g := by
  unfold route
  rw [List.map_append, ← Ctx.labels_map]
  rfl

theorem walk_append (l : Place α) (path : List (α → Bool)) (fits : α → Bool) :
    l.walk (path ++ [fits]) = (l.walk path).bind (child fits) := by
  induction path generalizing l with
  | nil => exact Option.bind_fun_some (l.child fits)
  | cons first path ih =>
    rw [List.cons_append, walk, walk, Option.bind_assoc]
    exact Option.bind_congr fun l' _ => ih l'

/-- The way from the outermost node to a place leads to the place, when no node fits
the key of a later sibling. -/
theorem walk_route (key : α → β) (fits : β → α → Bool) (hself : ∀ a, fits (key a) a = true) {l : Place α} {r : α}
    {subs : Forest α} (hone : l.forest = .node r subs .nil)
    (hsiblings : l.forest.Siblings fun a b => fits (key b) a = false) :
    walk ⟨.top, r, subs, .nil⟩ (l.route.tail.map fun a => fits (key a)) = some l := by
  induction hn : l.ctx.depth generalizing l with
  | zero =>
    have htop : l = ⟨.top, r, subs, .nil⟩ := single_top hn hone
    rw [htop]
    rfl
  | succ n ih =>
    cases habove : l.ancestors with
    | nil =>
      have hlength : l.ancestors.length = n + 1 := (aboveHole_length _ _).trans hn
      rw [habove] at hlength
      cases hlength
    | cons p ls =>
      obtain ⟨hls, hforest⟩ := aboveHole_cons habove
      have hdepth : p.ctx.depth = n := by
        have hlength : l.ancestors.length = n + 1 := (aboveHole_length _ _).trans hn
        rw [habove, List.length_cons, hls] at hlength
        exact (aboveHole_length _ _).symm.trans (Nat.succ.inj hlength)
      have hroute : l.route.tail = p.route.tail ++ [l.label] := by
        have hlabels : l.route = p.route ++ [l.label] := congrArg (· ++ [l.label]) (aboveHole_route habove)
        have hne : p.route ≠ [] := List.append_ne_nil_of_right_ne_nil _ (List.cons_ne_nil _ _)
        rw [hlabels, List.tail_append_of_ne_nil hne]
      have hp := ih (hforest.trans hone) (hforest.symm ▸ hsiblings) hdepth
      have hchild : p.child (fun a => fits (key l.label) a) = some l := by
        rw [child_above habove fun a ha => (Ctx.siblings_plug hsiblings).2 a ha l.label List.mem_cons_self]
        exact if_pos (hself l.label)
      rw [hroute, List.map_append, List.map_singleton, walk_append, hp]
      exact hchild

theorem foldl_away {ls : List (Place α)} {k : Nat} (h : ∀ l ∈ ls, l.ctx.depth ≠ k) (g : Place α → β) (b : β) :
    ls.foldl (fun b l => if l.ctx.depth = k then g l else b) b = b := by
  induction ls with
  | nil => rfl
  | cons l ls ih =>
    rw [List.foldl_cons, if_neg (h l List.mem_cons_self)]
    exact ih fun l' hl' => h l' (List.mem_cons_of_mem l hl')

/-- The parent is the last place, of those before a place, that is one level up. -/
theorem foldl_earlier {c : Ctx α} {k : Nat} (hk : c.depth = k + 1) (t : Forest α) (g : Place α → β) (b : β) :
    (earlier c t).foldl (fun b l => if l.ctx.depth = k then g l else b) b = (aboveHole c t).head?.elim b g := by
  induction c generalizing t with
  | top => cases hk
  | down a rest c _ =>
    rw [earlier, List.foldl_append, List.foldl_cons, if_pos (Nat.succ.inj hk)]
    rfl
  | next a subs c ih =>
    have hc : c.depth = k + 1 := hk
    rw [earlier, List.foldl_append, foldl_away, ih hk]
    · rfl
    · intro l hl
      rcases List.mem_cons.mp hl with rfl | hl
      · exact fun h => absurd (hc.symm.trans h) (Nat.succ_ne_self k)
      · have hdeep : c.depth + 1 ≤ l.ctx.depth := places_depth _ _ l hl
        omega

/-! ## What holds of all -/

/-- What holds of every label holds of the labels that are found. -/
theorem firstSuch_all {fits : α → Bool} {p : α → Prop} {c : Ctx α} {t : Forest α} {l : Place α} (h : t.All p)
    (hl : firstSuch fits c t = some l) : p l.label ∧ l.subs.All p := by
  induction t generalizing c with
  | nil => cases hl
  | node a subs rest _ ihr =>
    obtain ⟨ha, hsubs, hrest⟩ := h
    rw [firstSuch] at hl
    split at hl
    · cases hl
      exact ⟨ha, hsubs⟩
    · exact ihr hrest hl

theorem walk_all {p : α → Prop} {path : List (α → Bool)} {l l' : Place α} (hlabel : p l.label) (hsubs : l.subs.All p)
    (h : l.walk path = some l') : p l'.label := by
  induction path generalizing l with
  | nil =>
    cases h
    exact hlabel
  | cons fits path ih =>
    obtain ⟨next, hchild, hwalk⟩ := Option.bind_eq_some_iff.mp h
    obtain ⟨hl, hs⟩ := firstSuch_all hsubs hchild
    exact ih hl hs hwalk

end Place

end

end DTFramework.Lib
