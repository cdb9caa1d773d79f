import DTFramework.Lib.Pattern
import DTFramework.Tools.Log

/-!
# The log parser

`get_all_and_used_dtb_nodes` reads the library's log line by line: a start line
opens the next of five blobs, a line of a node adds to it, an end line closes it
and goes over the whole log for the nodes that were looked up.

What Python reads from a file is a parameter (`Reader`). `parser_accepts` says
that the parser reads back what the library logs when no blob is registered
twice.

Results:

* `parseLines_quiet`, `parseLines_passes`: what the parser passes over;
* `Quiet.seam`, `quiet_word`: texts that hold none of its phrases.
-/
namespace DTFramework.Tools

open DTFramework.Fdt DTFramework.Extn DTFramework.Lib

abbrev Text := List Char

/-- What `open (file_path, 'r')` reads, `none` if it cannot be decoded. In an
encoding that extends ASCII a visible character stands for itself, and what is on
its two sides is decoded apart. -/
structure Reader where
  read : Str → Option Text
  nil : read [] = some []
  visible : ∀ (x : Str) (b : UInt8) (y : Str), 32 ≤ b.toNat → b.toNat < 127 →
    read (x ++ b :: y) = (read x).bind fun t => (read y).map fun u => t ++ Char.ofNat b.toNat :: u
  newline : ∀ y, read (10 :: y) = (read y).map ('\n' :: ·)

inductive PyError
  | indexError
  | unicodeDecodeError
deriving DecidableEq, Repr

/-- A dictionary of names with their hashes. -/
abbrev Dict := List (Text × Nat)

def Dict.keys (d : Dict) : List Text := d.map Prod.fst

def Dict.set (d : Dict) (k : Text) (v : Nat) : Dict :=
  if k ∈ d.keys then d.map fun x => if x.1 = k then (k, v) else x else d ++ [(k, v)]

/-- mirrors tools/parse_dtb_log_script.py:8-17 -/
structure Globals where
  g_dtb_name : List Dict
  g_used_node_name : List Dict
  g_not_in_hash_name : List Dict
  g_cost_creat_hash_time : List (Option Text)
  g_cost_tatol_time : List (Option Text)
  g_tatol_access_nodes : List (Option Text)
  g_blob_address : List Text
  g_blob_id : Int

def Globals.init : Globals where
  g_dtb_name := List.replicate 5 []
  g_used_node_name := List.replicate 5 []
  g_not_in_hash_name := List.replicate 5 []
  g_cost_creat_hash_time := List.replicate 5 none
  g_cost_tatol_time := List.replicate 5 none
  g_tatol_access_nodes := List.replicate 5 none
  g_blob_address := []
  g_blob_id := -1

/-- The place of an index, which counts from the end if it is negative. -/
def place (n : Nat) (i : Int) : Int := if 0 ≤ i then i else n + i

def item {α : Type} (l : List α) (i : Int) : Except PyError α :=
  if 0 ≤ place l.length i then
    match l[(place l.length i).toNat]? with
    | some x => .ok x
    | none => .error .indexError
  else .error .indexError

def setItem {α : Type} (l : List α) (i : Int) (x : α) : Except PyError (List α) :=
  if 0 ≤ place l.length i ∧ place l.length i < l.length then .ok (l.set (place l.length i).toNat x)
  else .error .indexError

/-- mirrors tools/parse_dtb_log_script.py:121-134 -/
def hashDjb2 (s : Text) : Nat := s.foldl (fun hash_value c => (hash_value <<< 5 + hash_value + c.toNat) % 2 ^ 64) 5381

/-- mirrors tools/parse_dtb_log_script.py:104-107 -/
def fixNodeName (path : Text) : Text := if path.getLast? = some '/' ∧ 1 < path.length then path.dropLast else path

/-- The lines of a text without their ends, `line` being the start of the first. -/
def linesFrom (line : Text) : Text → List Text
  | [] => if line = [] then [] else [line]
  | c :: t => if c = '\n' then line :: linesFrom [] t else linesFrom (line ++ [c]) t

/-! ## Patterns -/

def startPhrase : Text := "start creat dtb hash table".toList

def endPhrase : Text := "end create dtb hash table".toList

/-- `[([^]]+)\]` -/
def brackets : Pattern Char := literal "[".toList (group ']')

def blobAddress : Pattern Char := literal "blo".toList (plus 'b' (lazyDot '\n' brackets))

def creatHashTime : Pattern Char := literal "end create dtb hash tabl".toList (plus 'e' (lazyDot '\n' brackets))

def lookupAddress : Pattern Char := literal "lookup i".toList
    (plus 'n' (lazyDot '\n' (literal "address".toList brackets)))

def currentNode : Pattern Char := literal "current_node".toList brackets

def accessTime : Pattern Char := literal "access_time".toList brackets

def accessNode : Pattern Char := literal "access_node".toList brackets

def foundNode : Pattern Char := literal "found dtb node:".toList brackets

/-! ## The parser -/

/-- One line of the loop over the lookups.
mirrors tools/parse_dtb_log_script.py:65-79 -/
def usedLine (g : Globals) (line2 : Text) : Except PyError Globals :=
  match search lookupAddress line2, search currentNode line2 with
  | some blob_address, some used_node_name =>
    if -1 < g.g_blob_id then do
      let address ← item g.g_blob_address g.g_blob_id
      if blob_address = address then
        let used ← item g.g_used_node_name g.g_blob_id
        let name := fixNodeName used_node_name
        let used ← setItem g.g_used_node_name g.g_blob_id
          (if name ∈ used.keys then used else used.set name (hashDjb2 name))
        let times ← match search accessTime line2, search accessNode line2 with
          | some time, some count => do
            let cost ← setItem g.g_cost_tatol_time g.g_blob_id (some time)
            let nodes ← setItem g.g_tatol_access_nodes g.g_blob_id (some count)
            pure (cost, nodes)
          | _, _ => pure (g.g_cost_tatol_time, g.g_tatol_access_nodes)
        let dtb ← item g.g_dtb_name g.g_blob_id
        let others ← item g.g_not_in_hash_name g.g_blob_id
        let others ← setItem g.g_not_in_hash_name g.g_blob_id
          (if used_node_name ∈ dtb.keys ∨ used_node_name ∈ others.keys then others
            else others.set used_node_name (hashDjb2 used_node_name))
        return { g with
          g_used_node_name := used
          g_cost_tatol_time := times.1
          g_tatol_access_nodes := times.2
          g_not_in_hash_name := others }
      else return g
    else return g
  | _, _ => return g

/-- What an end line does to the blob that was opened.
mirrors tools/parse_dtb_log_script.py:60-81 -/
def endBlob (lines : List Text) (line : Text) (g : Globals) : Except PyError Globals := do
  let times ← match search creatHashTime line with
    | some time => setItem g.g_cost_creat_hash_time g.g_blob_id (some time)
    | none => pure g.g_cost_creat_hash_time
  lines.foldlM usedLine { g with g_cost_creat_hash_time := times }

/-- mirrors tools/parse_dtb_log_script.py:85-87 -/
def nodeLine (line : Text) (g : Globals) : Except PyError Globals :=
  match search foundNode line with
  | some name => do
    let dtb ← item g.g_dtb_name g.g_blob_id
    let names ← setItem g.g_dtb_name g.g_blob_id (dtb.set name (hashDjb2 name))
    return { g with g_dtb_name := names }
  | none => return g

/-- The loop over the lines that are left, with `start_parse_dtb_node_flag`.
mirrors tools/parse_dtb_log_script.py:39-101 -/
def parseLines (lines : List Text) : List Text → Bool → Globals → Except PyError (Int × Globals)
  | [], flag, g => .ok (if flag then -1 else if g.g_blob_address ≠ [] then 0 else -2, g)
  | line :: rest, flag, g =>
    if startPhrase <:+: line then
      match search blobAddress line with
      | some blob_address =>
        parseLines lines rest true
          { g with g_blob_address := g.g_blob_address ++ [blob_address], g_blob_id := g.g_blob_id + 1 }
      | none => .ok (-1, g)
    else if endPhrase <:+: line then
      if flag then do
        let g ← endBlob lines line g
        parseLines lines rest false g
      else .ok (-1, g)
    else if flag then do
      let g ← nodeLine line g
      parseLines lines rest flag g
    else parseLines lines rest flag g

/-- The result, with the globals. mirrors tools/parse_dtb_log_script.py:28-101 -/
def getAllAndUsedDtbNodes (r : Reader) (log : Str) (g : Globals) : Except PyError (Int × Globals) :=
  match r.read log with
  | some text => parseLines (linesFrom [] text) (linesFrom [] text) false g
  | none => .error .unicodeDecodeError

/-! ## What is read -/

section
variable {r : Reader} {x y : Str} {t u : Text}

def Visible (x : Str) : Prop := ∀ b ∈ x, 32 ≤ b.toNat ∧ b.toNat < 127

theorem visible_all (h : (x.all fun b => decide (32 ≤ b.toNat ∧ b.toNat < 127)) = true) : Visible x :=
  fun b hb => of_decide_eq_true (List.all_eq_true.mp h b hb)

theorem Visible.append (hx : Visible x) (hy : Visible y) : Visible (x ++ y) :=
  fun b hb => (List.mem_append.mp hb).elim (hx b) (hy b)

/-- The characters that visible bytes stand for. -/
def chars (x : Str) : Text := x.map fun b => Char.ofNat b.toNat

/-- What can follow anything without being decoded with it. -/
def Begins (y : Str) : Prop := y = [] ∨ ∃ b z, y = b :: z ∧ 32 ≤ b.toNat ∧ b.toNat < 127

theorem reads_append (hx : r.read x = some t) (hy : r.read y = some u) (hb : Begins y) :
    r.read (x ++ y) = some (t ++ u) := by
  rcases hb with rfl | ⟨b, z, rfl, h1, h2⟩
  · rw [r.nil] at hy
    cases hy
    simp [hx]
  · have hcons := r.visible [] b z h1 h2
    rw [List.nil_append, r.nil, hy] at hcons
    rw [r.visible x b z h1 h2, hx]
    cases hz : r.read z with
    | none =>
      rw [hz] at hcons
      cases hcons
    | some v =>
      rw [hz] at hcons
      cases hcons
      rfl

theorem reads_visible (hx : Visible x) (hy : r.read y = some u) : r.read (x ++ y) = some (chars x ++ u) := by
  induction x with
  | nil => exact hy
  | cons b x ih =>
    obtain ⟨hb, hx⟩ := List.forall_mem_cons.mp hx
    have h := r.visible [] b (x ++ y) hb.1 hb.2
    rw [List.nil_append, r.nil, ih hx] at h
    exact h

theorem reads_chars (hx : Visible x) : r.read x = some (chars x) := by
  have h := reads_visible hx r.nil
  rwa [List.append_nil, List.append_nil] at h

theorem reads_newline : r.read [10] = some ['\n'] := by
  rw [r.newline, r.nil]
  rfl

theorem Numeral.visible (h : Numeral x) : Visible x := fun b hb => ⟨Nat.le_of_succ_le (h.2.2 b hb).1, (h.2.2 b hb).2.1⟩

/-- A number stands for characters other than a blank and brackets. -/
theorem Numeral.chars_plain (h : Numeral x) : ∀ c ∈ chars x, c ≠ ' ' ∧ c ≠ '[' ∧ c ≠ ']' ∧ c ≠ '\n' := by
  intro c hc
  obtain ⟨b, hb, rfl⟩ := List.mem_map.mp hc
  have hall : ∀ n < 127, 33 ≤ n ∧ n ≠ 91 ∧ n ≠ 93 →
      Char.ofNat n ≠ ' ' ∧ Char.ofNat n ≠ '[' ∧ Char.ofNat n ≠ ']' ∧ Char.ofNat n ≠ '\n' := by
    decide
  obtain ⟨h1, h2, h3, h4⟩ := h.2.2 b hb
  exact hall b.toNat h2 ⟨h1, h3, h4⟩

end

/-! ## Quiet texts -/

section
variable {a b : Text}

/-- A text in which no start line and no end line is seen. -/
structure Quiet (t : Text) : Prop where
  start : ¬startPhrase <:+: t
  ends : ¬endPhrase <:+: t

theorem Quiet.of_infix (h : Quiet b) (hab : a <:+: b) : Quiet a :=
  ⟨fun hs => h.start (hs.trans hab), fun he => h.ends (he.trans hab)⟩

theorem Quiet.split {c : Char} (ha : Quiet a) (hb : Quiet b) (hs : c ∉ startPhrase) (he : c ∉ endPhrase) :
    Quiet (a ++ c :: b) :=
  ⟨infix_split hs ha.start hb.start, infix_split he ha.ends hb.ends⟩

/-- A text without a blank. -/
theorem quiet_word (h : ' ' ∉ a) : Quiet a :=
  ⟨fun hs => h (hs.subset (by decide)), fun he => h (he.subset (by decide))⟩

theorem pair_seam {p : Text} {c d : Char} (hlast : p.getLast? ≠ some c) (hpair : ¬[c, d] <:+: p) :
    ∀ p1 p2, p = p1 ++ p2 → p1 ≠ [] → p2 ≠ [] → ¬p2 <+: c :: d :: b := by
  rintro p1 (_ | ⟨x, p2⟩) rfl - hne hp
  · exact hne rfl
  · obtain ⟨rfl, htail⟩ := List.cons_prefix_cons.mp hp
    rcases p2 with _ | ⟨y, p2⟩
    · exact hlast (by simp)
    · obtain ⟨rfl, -⟩ := List.cons_prefix_cons.mp htail
      exact hpair ⟨p1, p2, by simp⟩

/-- A lookup or a line of a node begins neither phrase's rest. -/
theorem Quiet.seam {c d : Char} (hcd : (c, d) ∈ [('l', 'o'), ('f', 'd'), ('f', 'o')]) (ha : Quiet a)
    (hb : Quiet (c :: d :: b)) :
    Quiet (a ++ c :: d :: b) := by
  have hstart : startPhrase.getLast? ≠ some c ∧ ¬[c, d] <:+: startPhrase := by
    simp only [List.mem_cons, Prod.mk.injEq, List.not_mem_nil, or_false] at hcd
    rcases hcd with ⟨rfl, rfl⟩ | ⟨rfl, rfl⟩ | ⟨rfl, rfl⟩ <;> decide
  have hend : endPhrase.getLast? ≠ some c ∧ ¬[c, d] <:+: endPhrase := by
    simp only [List.mem_cons, Prod.mk.injEq, List.not_mem_nil, or_false] at hcd
    rcases hcd with ⟨rfl, rfl⟩ | ⟨rfl, rfl⟩ | ⟨rfl, rfl⟩ <;> decide
  exact ⟨infix_seam ha.start hb.start (pair_seam hstart.1 hstart.2),
    infix_seam ha.ends hb.ends (pair_seam hend.1 hend.2)⟩

end

/-! ## Lines -/

theorem linesFrom_line {x : Text} (hx : '\n' ∉ x) (line t : Text) :
    linesFrom line (x ++ '\n' :: t) = (line ++ x) :: linesFrom [] t := by
  induction x generalizing line with
  | nil => rw [List.nil_append, linesFrom, if_pos rfl, List.append_nil]
  | cons c x ih =>
    rw [List.mem_cons, not_or] at hx
    rw [List.cons_append, linesFrom, if_neg (Ne.symm hx.1), ih hx.2, List.append_assoc]
    rfl

/-- Nothing happens on a line outside of the blobs' nodes. -/
theorem parseLines_quiet (lines rest : List Text) {line : Text} (h : Quiet line) (g : Globals) :
    parseLines lines (line :: rest) false g = parseLines lines rest false g := by
  rw [parseLines, if_neg h.start, if_neg h.ends]
  rfl

/-- Outside of the blobs' nodes a quiet text is passed over; the start of a line
may be left of it. -/
theorem parseLines_passes (lines : List Text) (g : Globals) (rest : Text) (t : Text) : ∀ line, Quiet (line ++ t) →
    ∃ line', Quiet line' ∧
      parseLines lines (linesFrom line (t ++ rest)) false g = parseLines lines (linesFrom line' rest) false g := by
  induction t with
  | nil => exact fun line h => ⟨line, by rwa [List.append_nil] at h, rfl⟩
  | cons c t ih =>
    intro line h
    rw [List.cons_append, linesFrom]
    by_cases hc : c = '\n'
    · subst hc
      rw [if_pos rfl, parseLines_quiet _ _ (h.of_infix (List.prefix_append _ _).isInfix)]
      refine ih [] (h.of_infix ?_)
      exact (List.suffix_cons _ _).isInfix.trans (List.suffix_append _ _).isInfix
    · rw [if_neg hc]
      refine ih (line ++ [c]) ?_
      rwa [List.append_assoc]

end DTFramework.Tools
