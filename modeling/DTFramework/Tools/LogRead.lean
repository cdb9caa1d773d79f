import Mathlib.Data.Set.Insert
import DTFramework.Tools.LogParser

/-!
# The parser reads the log back

`Moves` says what reading a piece of the log does: the pieces are lookups, which
are passed over, and the messages of a registration, between which the parser's
flag is set. `parser_accepts` puts them together along the calls.

Results:

* `ready_opened`, `blobAddress_found`: a start line opens the next blob;
* `moves_nodeLine`, `moves_node`, `moves_rootName`: the messages of a node add its name,
  cut or not.
-/
namespace DTFramework.Tools

open DTFramework.Fdt DTFramework.Extn DTFramework.Lib

/-! ## The lists of five -/

theorem place_nat (n k : Nat) : place n (k : Int) = k := if_pos (Int.natCast_nonneg k)

theorem item_ok {α : Type} {l : List α} {k : Nat} (h : k < l.length) : item l (k : Int) = .ok l[k] := by
  unfold item
  rw [place_nat, if_pos (Int.natCast_nonneg k), Int.toNat_natCast, List.getElem?_eq_getElem h]

theorem setItem_ok {α : Type} {l : List α} {k : Nat} (h : k < l.length) (x : α) :
    setItem l (k : Int) x = .ok (l.set k x) := by
  unfold setItem
  rw [place_nat, if_pos ⟨Int.natCast_nonneg k, Int.ofNat_lt.mpr h⟩, Int.toNat_natCast]

theorem Dict.mem_set (d : Dict) (k t : Text) (v : Nat) : t ∈ (d.set k v).keys ↔ t = k ∨ t ∈ d.keys := by
  unfold Dict.set
  split
  · rename_i hk
    have hkeys : Dict.keys (d.map fun x => if x.1 = k then (k, v) else x) = d.keys := by
      unfold Dict.keys
      rw [List.map_map]
      refine List.map_congr_left fun x _ => ?_
      dsimp only [Function.comp]
      split
      · rename_i hx
        exact hx.symm
      · rfl
    rw [hkeys]
    exact ⟨Or.inr, fun h => h.elim (fun h => h ▸ hk) id⟩
  · unfold Dict.keys
    rw [List.map_append, List.mem_append, Or.comm]
    simp

/-- What the parser has read of the blobs that were opened: the names under each
index. -/
structure Ready (g : Globals) (done : List (Set Text)) : Prop where
  id : g.g_blob_id = (done.length : Int) - 1
  address : g.g_blob_address.length = done.length
  five : done.length ≤ 5
  dtb : g.g_dtb_name.length = 5
  used : g.g_used_node_name.length = 5
  others : g.g_not_in_hash_name.length = 5
  creat : g.g_cost_creat_hash_time.length = 5
  tatol : g.g_cost_tatol_time.length = 5
  nodes : g.g_tatol_access_nodes.length = 5
  names : ∀ i t, t ∈ Dict.keys (g.g_dtb_name.getD i []) ↔ t ∈ done.getD i ∅

theorem ready_init : Ready .init [] where
  id := rfl
  address := rfl
  five := by decide
  dtb := rfl
  used := rfl
  others := rfl
  creat := rfl
  tatol := rfl
  nodes := rfl
  names := by
    intro i t
    have hnone : (Globals.init.g_dtb_name.getD i []) = [] := by
      simp only [Globals.init, List.getD_eq_getElem?_getD, List.getElem?_replicate]
      split <;> rfl
    rw [hnone]
    simp [Dict.keys]

section
variable {g : Globals} {done : List (Set Text)} {names : Set Text}

/-- The index of the last blob. -/
theorem Ready.last (h : Ready g done) (hne : done ≠ []) :
    g.g_blob_id = ((done.length - 1 : Nat) : Int) ∧ done.length - 1 < 5 := by
  have hid := h.id
  have hfive := h.five
  have := List.length_pos_iff.mpr hne
  omega

theorem usedLine_ok (h : Ready g done) (line2 : Text) : ∃ g', usedLine g line2 = .ok g' ∧ Ready g' done := by
  unfold usedLine
  split
  · split
    · rename_i hid
      have hne : done ≠ [] := by
        rintro rfl
        have := h.id
        simp only [List.length_nil] at this
        omega
      obtain ⟨hlast, hk⟩ := h.last hne
      have hpos := List.length_pos_iff.mpr hne
      obtain ⟨address, haddress⟩ : ∃ address, item g.g_blob_address g.g_blob_id = .ok address :=
        ⟨_, by rw [hlast]; exact item_ok (by rw [h.address]; omega)⟩
      obtain ⟨used, hused⟩ : ∃ used, item g.g_used_node_name g.g_blob_id = .ok used :=
        ⟨_, by rw [hlast]; exact item_ok (by rw [h.used]; exact hk)⟩
      obtain ⟨dtb, hdtb⟩ : ∃ dtb, item g.g_dtb_name g.g_blob_id = .ok dtb :=
        ⟨_, by rw [hlast]; exact item_ok (by rw [h.dtb]; exact hk)⟩
      obtain ⟨others, hothers⟩ : ∃ others, item g.g_not_in_hash_name g.g_blob_id = .ok others :=
        ⟨_, by rw [hlast]; exact item_ok (by rw [h.others]; exact hk)⟩
      have hset {α : Type} {l : List α} (hl : l.length = 5) (x : α) :
          setItem l g.g_blob_id x = .ok (l.set (done.length - 1) x) := by
        rw [hlast]
        exact setItem_ok (by rw [hl]; exact hk) x
      simp only [haddress, bind, Except.bind]
      split
      · simp only [hused, hset h.used, hset h.others, hset h.tatol, hset h.nodes, hdtb, hothers]
        split
        · refine ⟨_, rfl, { h with used := ?_, others := ?_, tatol := ?_, nodes := ?_ }⟩
          · rw [List.length_set, h.used]
          · rw [List.length_set, h.others]
          · rw [List.length_set, h.tatol]
          · rw [List.length_set, h.nodes]
        · refine ⟨_, rfl, { h with used := ?_, others := ?_ }⟩
          · rw [List.length_set, h.used]
          · rw [List.length_set, h.others]
      · exact ⟨g, rfl, h⟩
    · exact ⟨g, rfl, h⟩
  · exact ⟨g, rfl, h⟩

theorem usedLines_ok (lines : List Text) : ∀ {g : Globals}, Ready g done →
    ∃ g', lines.foldlM usedLine g = .ok g' ∧ Ready g' done := by
  induction lines with
  | nil => exact fun h => ⟨_, rfl, h⟩
  | cons line lines ih =>
    intro g h
    obtain ⟨g1, h1, hr⟩ := usedLine_ok h line
    obtain ⟨g2, h2, hr⟩ := ih hr
    refine ⟨g2, ?_, hr⟩
    rw [List.foldlM_cons, h1]
    exact h2

theorem endBlob_ok (h : Ready g done) (hne : done ≠ []) (lines : List Text) (line : Text) :
    ∃ g', endBlob lines line g = .ok g' ∧ Ready g' done := by
  obtain ⟨hlast, hk⟩ := h.last hne
  unfold endBlob
  split
  · rename_i time _
    have hset : setItem g.g_cost_creat_hash_time g.g_blob_id (some time) =
        .ok (g.g_cost_creat_hash_time.set (done.length - 1) (some time)) := by
      rw [hlast]
      exact setItem_ok (by rw [h.creat]; exact hk) _
    rw [hset]
    exact usedLines_ok lines { h with creat := by rw [List.length_set, h.creat] }
  · exact usedLines_ok lines { h with }

/-- A start line opens the next blob. -/
theorem ready_opened (h : Ready g done) (h5 : done.length < 5) (address : Text) :
    Ready { g with g_blob_address := g.g_blob_address ++ [address], g_blob_id := g.g_blob_id + 1 } (done ++ [∅]) := by
  refine { h with id := ?_, address := ?_, five := ?_, names := ?_ }
  · simp [h.id]
  · simp [h.address]
  · rw [List.length_append]
    exact h5
  · intro i t
    have hdone : (done ++ [∅]).getD i (∅ : Set Text) = done.getD i ∅ := by
      rw [List.getD_eq_getElem?_getD, List.getD_eq_getElem?_getD]
      rcases Nat.lt_trichotomy i done.length with hi | rfl | hi
      · rw [List.getElem?_append_left hi]
      · simp
      · rw [List.getElem?_eq_none (by simp; omega), List.getElem?_eq_none (by omega)]
    rw [hdone]
    exact h.names i t

theorem nodeLine_ok {line n : Text} (h : Ready g (done ++ [names])) (hn : search foundNode line = some n) :
    ∃ g', nodeLine line g = .ok g' ∧ Ready g' (done ++ [insert n names]) := by
  obtain ⟨hlast, hk⟩ := h.last (by simp)
  rw [List.length_append, List.length_singleton, Nat.add_sub_cancel] at hlast hk
  have hlt : done.length < g.g_dtb_name.length := by rw [h.dtb]; exact hk
  unfold nodeLine
  rw [hn]
  dsimp only
  rw [hlast, item_ok hlt]
  simp only [bind, Except.bind]
  rw [setItem_ok hlt]
  refine ⟨_, rfl, { h with id := ?_, address := ?_, five := ?_, dtb := ?_, names := ?_ }⟩
  · simp
  · simpa using h.address
  · simpa using h.five
  · rw [List.length_set, h.dtb]
  · intro i t
    by_cases hi : i = done.length
    · subst hi
      have hnames := h.names done.length t
      simp only [List.getD_eq_getElem?_getD, List.getElem?_set_self hlt, List.getElem?_eq_getElem hlt,
        List.getElem?_concat_length, Option.getD_some] at hnames ⊢
      rw [Dict.mem_set, hnames, Set.mem_insert_iff]
    · have hnames := h.names i t
      rw [List.getD_eq_getElem?_getD, List.getD_eq_getElem?_getD] at hnames ⊢
      rw [List.getElem?_set_ne (Ne.symm hi)]
      have hdone (x : Set Text) : (done ++ [x])[i]?.getD ∅ = done[i]?.getD ∅ := by
        rcases Nat.lt_or_gt_of_ne hi with hlt | hgt
        · rw [List.getElem?_append_left hlt]
        · rw [List.getElem?_eq_none (by simp; omega), List.getElem?_eq_none (by omega)]
      rw [hdone] at hnames ⊢
      exact hnames

end

/-! ## Pieces of the log -/

theorem Begins.append {x y : Str} (hx : Begins x) (hy : Begins y) : Begins (x ++ y) := by
  rcases hx with rfl | ⟨b, z, rfl, h⟩
  · exact hy
  · exact Or.inr ⟨b, z ++ y, rfl, h⟩

/-- Reading a piece of the log takes the parser from a flag and the names read
before to others. A line that the piece begins within is quiet, and there is none
while the flag is set. -/
def Moves (r : Reader) (x : Str) (a b : Bool × List (Set Text)) : Prop :=
  Begins x ∧ ∃ t, r.read x = some t ∧ ∀ lines line g rest, Quiet line → (a.1 = true → line = []) → Ready g a.2 →
    ∃ line' g', Quiet line' ∧ (b.1 = true → line' = []) ∧ Ready g' b.2 ∧
      parseLines lines (linesFrom line (t ++ rest)) a.1 g = parseLines lines (linesFrom line' rest) b.1 g'

section
variable {r : Reader} {x y : Str} {a b c : Bool × List (Set Text)}

theorem Moves.refl (r : Reader) (a : Bool × List (Set Text)) : Moves r [] a a :=
  ⟨Or.inl rfl, [], r.nil, fun _ line g _ hq hl hr => ⟨line, g, hq, hl, hr, rfl⟩⟩

theorem Moves.trans (h1 : Moves r x a b) (h2 : Moves r y b c) : Moves r (x ++ y) a c := by
  obtain ⟨hb1, t1, ht1, hm1⟩ := h1
  obtain ⟨hb2, t2, ht2, hm2⟩ := h2
  refine ⟨hb1.append hb2, t1 ++ t2, reads_append ht1 ht2 hb2, ?_⟩
  intro lines line g rest hq hl hr
  obtain ⟨line1, g1, hq1, hl1, hr1, heq1⟩ := hm1 lines line g (t2 ++ rest) hq hl hr
  obtain ⟨line2, g2, hq2, hl2, hr2, heq2⟩ := hm2 lines line1 g1 rest hq1 hl1 hr1
  exact ⟨line2, g2, hq2, hl2, hr2, by rw [List.append_assoc, heq1, heq2]⟩

end

/-- A message is read as a text in which no start line and no end line is seen. -/
def Harmless (r : Reader) (m : Str) : Prop := ∃ t, r.read m = some t ∧ Quiet t

/-- How the messages of lookups begin. -/
def LookupLike (m : Str) : Prop := ∃ b c z, m = b :: c :: z ∧ (b, c) ∈ [((108 : UInt8), (111 : UInt8)), (102, 100)]

theorem moves_lookup {r : Reader} {m : Str} (hm : LookupLike m) (h : Harmless r m) (done : List (Set Text)) :
    Moves r m (false, done) (false, done) := by
  obtain ⟨b, c, z, rfl, hbc⟩ := hm
  obtain ⟨t, ht, hq⟩ := h
  have hvis : (32 ≤ b.toNat ∧ b.toNat < 127) ∧ (32 ≤ c.toNat ∧ c.toNat < 127) ∧
      (Char.ofNat b.toNat, Char.ofNat c.toNat) ∈ [('l', 'o'), ('f', 'd'), ('f', 'o')] := by
    simp only [List.mem_cons, Prod.mk.injEq, List.not_mem_nil, or_false] at hbc
    rcases hbc with ⟨rfl, rfl⟩ | ⟨rfl, rfl⟩ <;> decide
  obtain ⟨hb, hc, hchars⟩ := hvis
  have hread := r.visible [] b (c :: z) hb.1 hb.2
  have hread' := r.visible [] c z hc.1 hc.2
  rw [List.nil_append, r.nil] at hread hread'
  have ht' : ∃ t', t = Char.ofNat b.toNat :: Char.ofNat c.toNat :: t' := by
    rw [ht, hread'] at hread
    cases hz : r.read z with
    | none =>
      rw [hz] at hread
      cases hread
    | some u =>
      rw [hz] at hread
      exact ⟨u, Option.some.inj hread⟩
  obtain ⟨t', rfl⟩ := ht'
  refine ⟨Or.inr ⟨b, c :: z, rfl, hb⟩, _, ht, ?_⟩
  intro lines line g rest hline _ hr
  obtain ⟨line', hq', heq⟩ := parseLines_passes lines g rest _ line (Quiet.seam hchars hline hq)
  exact ⟨line', g, hq', (fun h => nomatch h), hr, heq⟩

theorem moves_lookups {r : Reader} (target : Target) (ms : List Str) (done : List (Set Text))
    (hlike : ∀ m ∈ ms, LookupLike (dtbLog target m)) (h : ∀ m ∈ ms, Harmless r (dtbLog target m)) :
      Moves r (ms.flatMap (dtbLog target)) (false, done) (false, done) := by
  induction ms with
  | nil => exact Moves.refl r _
  | cons m ms ih =>
    obtain ⟨hm, hms⟩ := List.forall_mem_cons.mp hlike
    obtain ⟨hh, hhs⟩ := List.forall_mem_cons.mp h
    rw [List.flatMap_cons]
    exact (moves_lookup hm hh done).trans (ih hms hhs)

/-! ## A registration -/

/-- A short message is logged as it is. -/
theorem dtbLog_short {m : Str} (target : Target) (h : m.length < dtb_log_buffer_size) : dtbLog target m = m := by
  simp only [dtb_log_buffer_size] at h
  cases target with
  | uefi => rfl
  | xbl | q6 => exact List.take_of_length_le (by simp only [dtb_log_buffer_size]; omega)

section
variable {r : Reader} {pf : Printf} {done : List (Set Text)}

theorem startMessage_read (r : Reader) (pf : Printf) (blob : Nat) : r.read (startMessage pf blob) =
    some ("start creat dtb hash table..blob address[".toList ++ (chars (pf.p blob) ++ [']', '\n'])) := by
  have hclose : r.read (bytes "]\n") = some [']', '\n'] :=
    reads_visible (x := [93]) (visible_all (by decide)) reads_newline
  have hnum := reads_visible (pf.numeral.1 blob).visible hclose
  unfold startMessage
  rw [List.append_assoc, reads_visible (visible_all (by decide)) hnum]
  rfl

/-- The address is found on a start line, whatever is before it. -/
theorem blobAddress_found {word : Text} (hne : word ≠ []) (hw : ']' ∉ word) (line : Text) :
    (search blobAddress (line ++ ("start creat dtb hash table..blob address[".toList ++ (word ++ [']'])))).isSome := by
  have hsplit : line ++ ("start creat dtb hash table..blob address[".toList ++ (word ++ [']'])) =
      (line ++ "start creat dtb hash table..".toList) ++
        ("blo".toList ++ 'b' :: (" address".toList ++ ("[".toList ++ (word ++ ']' :: [])))) := by
    simp
  have hgroup : (brackets ("[".toList ++ (word ++ ']' :: []))).isSome := by
    unfold brackets
    rw [literal_append, group_eq hw hne]
    rfl
  rw [hsplit]
  refine search_isSome ?_ _
  unfold blobAddress
  rw [literal_append]
  exact plus_isSome (lazyDot_isSome hgroup _ (by decide))

theorem moves_start (blob : Nat) (target : Target) (h5 : done.length < 5) :
    Moves r (dtbLog target (startMessage pf blob)) (false, done) (true, done ++ [∅]) := by
  have hnum := pf.numeral.1 blob
  have hplain := hnum.chars_plain
  have hword : chars (pf.p blob) ≠ [] := by
    unfold chars
    exact fun h => hnum.1 (List.map_eq_nil_iff.mp h)
  have hshort : (startMessage pf blob).length < dtb_log_buffer_size := by
    have hl := hnum.2.1
    unfold startMessage
    rw [List.length_append, List.length_append,
      show (bytes "start creat dtb hash table..blob address[").length = 41 by decide,
      show (bytes "]\n").length = 2 by decide]
    simp only [dtb_log_buffer_size]
    omega
  rw [dtbLog_short target hshort]
  refine ⟨Or.inr ⟨115, _, rfl, by decide⟩, _, startMessage_read r pf blob, ?_⟩
  intro lines line g rest _ _ hr
  have hnl : '\n' ∉ "start creat dtb hash table..blob address[".toList ++ (chars (pf.p blob) ++ [']']) := by
    simp only [List.mem_append, not_or]
    exact ⟨by decide, fun h => (hplain _ h).2.2.2 rfl, by decide⟩
  have htext : "start creat dtb hash table..blob address[".toList ++ (chars (pf.p blob) ++ [']', '\n']) ++ rest =
      ("start creat dtb hash table..blob address[".toList ++ (chars (pf.p blob) ++ [']'])) ++ '\n' :: rest := by
    simp
  obtain ⟨address, ha⟩ := Option.isSome_iff_exists.mp (blobAddress_found hword (fun h => (hplain _ h).2.2.1 rfl) line)
  have hphrase : startPhrase <:+:
      line ++ ("start creat dtb hash table..blob address[".toList ++ (chars (pf.p blob) ++ [']'])) := by
    refine List.IsInfix.trans ?_ (List.suffix_append _ _).isInfix
    exact (List.IsPrefix.trans (by decide) (List.prefix_append _ _)).isInfix
  refine ⟨[], { g with g_blob_address := g.g_blob_address ++ [address], g_blob_id := g.g_blob_id + 1 },
    ⟨by decide, by decide⟩,
    fun _ => rfl, ready_opened hr h5 address, ?_⟩
  rw [htext, linesFrom_line hnl, parseLines, if_pos hphrase, ha]

theorem endMessage_read (r : Reader) (pf : Printf) (time : Nat) (total : Int) : r.read (endMessage pf time total) =
    some ("end create dtb hash table..creat hash table cost time:".toList ++ '[' :: (chars (pf.u time) ++ ']' ::
      ("..total node:".toList ++ '[' :: (chars (pf.d total) ++ ']' :: ['\n'])))) := by
  have hclose : r.read (bytes "]\n") = some [']', '\n'] :=
    reads_visible (x := [93]) (visible_all (by decide)) reads_newline
  have htotal := reads_visible (pf.numeral.2.1 total).visible hclose
  have hlabel := reads_visible (x := bytes "]..total node:[") (visible_all (by decide)) htotal
  have htime := reads_visible (pf.numeral.2.2.2 time).visible hlabel
  unfold endMessage
  rw [List.append_assoc, List.append_assoc, List.append_assoc, reads_visible (visible_all (by decide)) htime]
  have h1 : chars (bytes "end create dtb hash table..creat hash table cost time:[") =
      "end create dtb hash table..creat hash table cost time:".toList ++ ['['] := by decide
  have h2 : chars (bytes "]..total node:[") = ']' :: ("..total node:".toList ++ ['[']) := by decide
  rw [h1, h2]
  simp

theorem moves_end (r : Reader) (pf : Printf) (time : Nat) (total : Int) (target : Target) (hne : done ≠ []) :
    Moves r (dtbLog target (endMessage pf time total)) (true, done) (false, done) := by
  have htime := pf.numeral.2.2.2 time
  have htotal := pf.numeral.2.1 total
  have hshort : (endMessage pf time total).length < dtb_log_buffer_size := by
    have h1 := htime.2.1
    have h2 := htotal.2.1
    unfold endMessage
    simp only [List.length_append]
    rw [show (bytes "end create dtb hash table..creat hash table cost time:[").length = 55 by decide,
      show (bytes "]..total node:[").length = 15 by decide, show (bytes "]\n").length = 2 by decide]
    simp only [dtb_log_buffer_size]
    omega
  rw [dtbLog_short target hshort]
  refine ⟨Or.inr ⟨101, _, rfl, by decide⟩, _, endMessage_read r pf time total, ?_⟩
  intro lines line g rest _ hline hr
  obtain rfl := hline rfl
  generalize hu : chars (pf.u time) = u
  generalize hd : chars (pf.d total) = d
  have hplain := htime.chars_plain
  have hplain' := htotal.chars_plain
  rw [hu] at hplain
  rw [hd] at hplain'
  generalize hS : "end create dtb hash table..creat hash table cost time:".toList ++ '[' :: (u ++ ']' ::
      ("..total node:".toList ++ '[' :: (d ++ [']']))) = S
  have htext : "end create dtb hash table..creat hash table cost time:".toList ++ '[' :: (u ++ ']' ::
      ("..total node:".toList ++ '[' :: (d ++ ']' :: ['\n']))) ++ rest = S ++ '\n' :: rest := by
    rw [← hS]
    simp
  have hnl : '\n' ∉ S := by
    rw [← hS]
    simp only [List.mem_append, List.mem_cons, not_or]
    exact ⟨by decide, by decide, fun h => (hplain _ h).2.2.2 rfl, by decide, by decide, by decide,
      fun h => (hplain' _ h).2.2.2 rfl, by decide, by decide⟩
  have hstart : ¬startPhrase <:+: S := by
    rw [← hS]
    refine infix_split (by decide) (by decide) (infix_split (by decide) ?_ (infix_split (by decide) (by decide)
      (infix_split (by decide) ?_ (by decide))))
    · exact (quiet_word fun h => (hplain _ h).1 rfl).start
    · exact (quiet_word fun h => (hplain' _ h).1 rfl).start
  have hend : endPhrase <:+: S := by
    rw [← hS]
    exact (List.IsPrefix.trans (by decide) (List.prefix_append _ _)).isInfix
  obtain ⟨g', hg', hr'⟩ := endBlob_ok hr hne lines S
  refine ⟨[], g', ⟨by decide, by decide⟩, fun _ => rfl, hr', ?_⟩
  rw [htext, linesFrom_line hnl, List.nil_append, parseLines, if_neg hstart, if_pos hend, if_pos rfl, hg']
  rfl

end

/-! ## The nodes of a blob -/

/-- A name that the parser reads back: on XBL and Q6 its line is not cut before
the line's end, and it lacks what the parser looks for. -/
structure Fine (r : Reader) (target : Target) (name : Str) (n : Text) : Prop where
  read : r.read name = some n
  bracket : ']' ∉ n
  newline : '\n' ∉ n
  quiet : Quiet n
  short : target = .uefi ∨ name.length < 238

section
variable {r : Reader} {pf : Printf} {done : List (Set Text)} {names : Set Text} {n : Text}

/-- A line that holds a node adds it to the blob that is open. -/
theorem moves_nodeLine (done : List (Set Text)) (names : Set Text) {x : Str} {v : Text} (hb : Begins x)
    (hx : r.read x = some ("found dtb node:".toList ++ '[' :: (n ++ ']' :: (v ++ ['\n'])))) (hne : n ≠ [])
    (hbr : ']' ∉ n)
    (hnl : '\n' ∉ n) (hq : Quiet n) (hv : '\n' ∉ v) (hqv : Quiet v) :
    Moves r x (true, done ++ [names]) (true, done ++ [insert n names]) := by
  refine ⟨hb, _, hx, ?_⟩
  intro lines line g rest _ hline hr
  obtain rfl := hline rfl
  generalize hS : "found dtb node:".toList ++ '[' :: (n ++ ']' :: v) = S
  have htext : "found dtb node:".toList ++ '[' :: (n ++ ']' :: (v ++ ['\n'])) ++ rest = S ++ '\n' :: rest := by
    rw [← hS]
    simp
  have hnl : '\n' ∉ S := by
    rw [← hS]
    simp only [List.mem_append, List.mem_cons, not_or]
    exact ⟨by decide, by decide, hnl, by decide, hv⟩
  have hquiet : Quiet S := by
    rw [← hS]
    exact Quiet.split ⟨by decide, by decide⟩ (Quiet.split hq hqv (by decide) (by decide)) (by decide) (by decide)
  have hfound : search foundNode S = some n := by
    refine search_head ?_
    unfold foundNode brackets
    rw [← hS, literal_append, show '[' :: (n ++ ']' :: v) = "[".toList ++ (n ++ ']' :: v) by rfl, literal_append]
    exact group_eq hbr hne v
  obtain ⟨g', hg', hr'⟩ := nodeLine_ok hr hfound
  refine ⟨[], g', ⟨by decide, by decide⟩, fun _ => rfl, hr', ?_⟩
  rw [htext, linesFrom_line hnl, List.nil_append, parseLines, if_neg hquiet.start, if_neg hquiet.ends, if_pos rfl, hg']
  rfl

/-- The end of the message for a subnode, behind its name and the bracket. -/
def subnodeTail (pf : Printf) (fullname : Str) (offset : Int) : Str :=
  bytes "..hash value[" ++ (pf.x (Hash fullname).toNat ++ (bytes "]..node offset[" ++ (pf.x (u32 offset) ++ [93])))

theorem subnodeMessage_eq (pf : Printf) (fullname : Str) (offset : Int) : subnodeMessage pf fullname offset =
    (bytes "found dtb node:[" ++ (fullname ++ [93])) ++ (subnodeTail pf fullname offset ++ [10]) := by
  unfold subnodeMessage subnodeTail
  rw [show bytes "]..hash value[" = [93] ++ bytes "..hash value[" by decide, show bytes "]\n" = [93] ++ [10] by decide]
  simp only [List.append_assoc]

theorem subnodeTail_visible (pf : Printf) (fullname : Str) (offset : Int) :
    Visible (subnodeTail pf fullname offset) := by
  unfold subnodeTail
  have hclose : Visible [93] := visible_all (by decide)
  have hoffset := (pf.numeral.2.2.1 (u32 offset)).visible.append hclose
  have hlabel : Visible (bytes "]..node offset[") := visible_all (by decide)
  have hhash := (pf.numeral.2.2.1 (Hash fullname).toNat).visible.append (hlabel.append hoffset)
  exact (visible_all (by decide)).append hhash

/-- The end of the message is quiet, and on one line. -/
theorem subnodeTail_chars (pf : Printf) (fullname : Str) (offset : Int) :
    Quiet (chars (subnodeTail pf fullname offset)) ∧ '\n' ∉ chars (subnodeTail pf fullname offset) := by
  have h1 := (pf.numeral.2.2.1 (Hash fullname).toNat).chars_plain
  have h2 := (pf.numeral.2.2.1 (u32 offset)).chars_plain
  have heq : chars (subnodeTail pf fullname offset) = "..hash value".toList ++
    '[' :: (chars (pf.x (Hash fullname).toNat) ++ ']' ::
      ("..node offset".toList ++ '[' :: (chars (pf.x (u32 offset)) ++ ']' :: []))) := by
    have hhash : chars (bytes "..hash value[") = "..hash value".toList ++ ['['] := by decide
    have hoffset : chars (bytes "]..node offset[") = ']' :: ("..node offset".toList ++ ['[']) := by decide
    unfold chars at hhash hoffset ⊢
    unfold subnodeTail
    simp only [List.map_append, hhash, hoffset, List.append_assoc, List.cons_append, List.nil_append]
    rfl
  rw [heq]
  constructor
  · have hoffset : Quiet (chars (pf.x (u32 offset)) ++ ']' :: []) :=
      Quiet.split (quiet_word fun h => (h2 _ h).1 rfl) ⟨by decide, by decide⟩ (by decide) (by decide)
    have hlabel : Quiet ("..node offset".toList ++ '[' :: (chars (pf.x (u32 offset)) ++ ']' :: [])) :=
      Quiet.split ⟨by decide, by decide⟩ hoffset (by decide) (by decide)
    have hhash := Quiet.split (c := ']') (quiet_word fun h => (h1 _ h).1 rfl) hlabel (by decide) (by decide)
    exact Quiet.split ⟨by decide, by decide⟩ hhash (by decide) (by decide)
  · simp only [List.mem_append, List.mem_cons, not_or]
    exact ⟨by decide, by decide, fun h => (h1 _ h).2.2.2 rfl, by decide, by decide, by decide,
      fun h => (h2 _ h).2.2.2 rfl, by decide, by decide⟩

/-- What the log keeps of a message of which a part is not cut. -/
theorem dtbLog_append (target : Target) {a b : Str} (h : target = .uefi ∨ a.length < dtb_log_buffer_size) :
    ∃ b', b' <+: b ∧ dtbLog target (a ++ b) = a ++ b' := by
  simp only [dtb_log_buffer_size] at h
  cases target with
  | uefi => exact ⟨b, List.prefix_refl b, rfl⟩
  | xbl | q6 =>
    refine ⟨b.take (255 - a.length), List.take_prefix _ _, ?_⟩
    have ha : a.length ≤ 255 := by
      rcases h with h | h
      · cases h
      · omega
    unfold dtbLog
    simp only [dtb_log_buffer_size]
    rw [List.take_append, List.take_of_length_le ha]

/-- The name in the two messages for a node. -/
theorem foundNode_read {name rest : Str} {t : Text} (hname : r.read name = some n) (hrest : r.read rest = some t) :
    r.read (bytes "found dtb node:[" ++ (name ++ 93 :: rest)) =
        some ("found dtb node:".toList ++ '[' :: (n ++ ']' :: t)) := by
  have hclose : r.read (93 :: rest) = some (']' :: t) := reads_visible (x := [93]) (visible_all (by decide)) hrest
  have hmid := reads_append hname hclose (Or.inr ⟨93, rest, rfl, by decide⟩)
  have hall := reads_visible (x := bytes "found dtb node:[") (visible_all (by decide)) hmid
  rw [hall]
  rfl

/-- A node below the root is found, also when the first of its messages is cut
and the second goes on in the same line. -/
theorem moves_node {name : Str} (target : Target) (hslash : n ≠ []) (h : Fine r target name n) (offset : Int) :
    Moves r (dtbLog target (subnodeMessage pf name offset) ++ dtbLog target (nodeMessage name)) (true, done ++ [names])
      (true, done ++ [insert n names]) := by
  have hvis := subnodeTail_visible pf name offset
  obtain ⟨hquiet, hline⟩ := subnodeTail_chars pf name offset
  have hhead : (bytes "found dtb node:[" ++ (name ++ [93])).length = name.length + 17 := by
    rw [List.length_append, List.length_append, show (bytes "found dtb node:[").length = 16 by decide]
    simp
    omega
  have hnodeeq : nodeMessage name = bytes "found dtb node:[" ++ (name ++ [93]) ++ [10] := by
    unfold nodeMessage
    rw [show bytes "]\n" = [93] ++ [10] by decide]
    simp only [List.append_assoc]
  have hnode : dtbLog target (nodeMessage name) = bytes "found dtb node:[" ++ (name ++ 93 :: [10]) := by
    have hlog : dtbLog target (nodeMessage name) = nodeMessage name := by
      rcases h.short with rfl | hshort
      · rfl
      · refine dtbLog_short target ?_
        rw [hnodeeq, List.length_append, hhead]
        simp only [dtb_log_buffer_size, List.length_singleton]
        omega
    rw [hlog, hnodeeq]
    simp
  have hhead : target = .uefi ∨ (bytes "found dtb node:[" ++ (name ++ [93])).length < dtb_log_buffer_size := by
    rw [hhead]
    refine h.short.imp id fun hshort => ?_
    simp only [dtb_log_buffer_size]
    omega
  have hnoderead := foundNode_read h.read (reads_newline (r := r))
  have hbegins (rest : Str) : Begins (bytes "found dtb node:[" ++ rest) := Or.inr ⟨102, _, rfl, by decide⟩
  obtain ⟨b, hb, hcut⟩ := dtbLog_append target (b := subnodeTail pf name offset ++ [10]) hhead
  rw [subnodeMessage_eq, hcut, hnode,
    show bytes "found dtb node:[" ++ (name ++ [93]) ++ b = bytes "found dtb node:[" ++ (name ++ 93 :: b) by simp]
  rcases List.prefix_concat_iff.mp hb with rfl | hb
  · have hfirst := foundNode_read h.read (reads_visible hvis (reads_newline (r := r)))
    have h1 := moves_nodeLine done names (hbegins _) hfirst hslash h.bracket h.newline h.quiet hline hquiet
    have h2 := moves_nodeLine (v := []) done (insert n names) (hbegins _) hnoderead hslash h.bracket h.newline h.quiet
      (by simp) ⟨by decide, by decide⟩
    rw [Set.insert_idem] at h2
    exact h1.trans h2
  · have hpart : chars b <+: chars (subnodeTail pf name offset) := hb.map _
    have hread := foundNode_read h.read (reads_visible (fun c hc => hvis c (hb.subset hc)) hnoderead)
    have hlast : Quiet ("found dtb node:".toList ++ '[' :: (n ++ ']' :: [])) :=
      Quiet.split ⟨by decide, by decide⟩ (Quiet.split h.quiet ⟨by decide, by decide⟩ (by decide) (by decide))
        (by decide) (by decide)
    have hseam : Quiet (chars b ++ ("found dtb node:".toList ++ '[' :: (n ++ ']' :: []))) :=
      Quiet.seam (by decide) (hquiet.of_infix hpart.isInfix) hlast
    have hmoves := moves_nodeLine (v := chars b ++ ("found dtb node:".toList ++ '[' :: (n ++ ']' :: []))) done names
      (x := bytes "found dtb node:[" ++ (name ++ 93 :: (b ++ (bytes "found dtb node:[" ++ (name ++ 93 :: [10])))))
      (hbegins _) (by rw [hread]; simp) hslash h.bracket h.newline h.quiet ?_ hseam
    · have hsplit : bytes "found dtb node:[" ++ (name ++ 93 :: b) ++
        (bytes "found dtb node:[" ++ (name ++ 93 :: [10])) =
          bytes "found dtb node:[" ++ (name ++ 93 :: (b ++ (bytes "found dtb node:[" ++ (name ++ 93 :: [10])))) := by
        simp
      rw [hsplit]
      exact hmoves
    · simp only [List.mem_append, List.mem_cons, not_or]
      exact ⟨fun hc => hline (hpart.subset hc), by decide, by decide, h.newline, by decide, by decide⟩

/-- A subnode of the root without a name has the root's path; only one message is
logged for it. -/
theorem moves_rootName (target : Target) (offset : Int) :
    Moves r (dtbLog target (subnodeMessage pf ROOT offset)) (true, done ++ [names])
        (true, done ++ [insert ['/'] names]) := by
  have hvis := subnodeTail_visible pf ROOT offset
  obtain ⟨hquiet, hline⟩ := subnodeTail_chars pf ROOT offset
  have hroot : r.read ROOT = some ['/'] := reads_chars (visible_all (by decide))
  have hshort : (subnodeMessage pf ROOT offset).length < dtb_log_buffer_size := by
    have h1 := (pf.numeral.2.2.1 (Hash ROOT).toNat).2.1
    have h2 := (pf.numeral.2.2.1 (u32 offset)).2.1
    unfold subnodeMessage
    simp only [List.length_append]
    rw [show (bytes "found dtb node:[").length = 16 by decide, show (bytes "]..hash value[").length = 14 by decide,
      show (bytes "]..node offset[").length = 15 by decide, show (bytes "]\n").length = 2 by decide]
    simp only [dtb_log_buffer_size, List.length_singleton]
    omega
  have hread := foundNode_read hroot (reads_visible hvis (reads_newline (r := r)))
  rw [dtbLog_short target hshort, subnodeMessage_eq]
  have hsplit : bytes "found dtb node:[" ++ (ROOT ++ [93]) ++ (subnodeTail pf ROOT offset ++ [10]) =
      bytes "found dtb node:[" ++ (ROOT ++ 93 :: (subnodeTail pf ROOT offset ++ [10])) := by
    simp
  rw [hsplit]
  exact moves_nodeLine done names (Or.inr ⟨102, _, rfl, by decide⟩) hread (by decide) (by decide) (by decide)
    ⟨by decide, by decide⟩ hline hquiet

end

end DTFramework.Tools
