import CodeCaller.Library.JsString

/-!
# Templates with placeholders

A text is a list of symbols that stand for code units.  A program that looks at its text through
`CodeUnit.unit` only runs on strings, and as well on text whose units say where they come from
(`Labelled`); what it does with the one it does with the other (`Relabels`).  So a question about a
string, which of its units came from a value, is a question about a run of the same program on
labelled text.

### Pieces

A template is cut into *pieces*: units, and the holes its placeholders are.  `fill` puts values
into the holes, all at once; `replaceAll` is `text.split(word).join(value)`, which knows no holes
and replaces every occurrence of a word.

### Results

* `replaceAll_fill`: values that are filled in one after the other end where they all would be
  filled in at once, as long as the word of the next one occurs in its holes only.
* `occurrences_of_weight`: the converse.  Where a replacement hits more than the holes, something
  of the text is lost, and a weight on the units shows it.
* `occurrences_fill_iff`: the occurrences that come up in a filled template are those in the
  values, if the values are *bracketed*, so that no word can begin before a value and end in it.

### How the proofs go

`Free word a b` says that no occurrence starts in the part `a` of the text `a ++ b`; it is the form
in which an occurrence can be excluded unit by unit.  Weights turn the count of lost units into an
inequality between sums, which is why the converse needs no case analysis on where the occurrences
overlap.

### What is load-bearing

`Apart`: the placeholders are not empty, and none of them can begin inside another.  It holds of
words in braces and is decided for the placeholders at hand; without it the order of the
replacements would matter even for values that contain no placeholder.
-/

namespace Async

/-- **Symbols that stand for code units.** -/
class CodeUnit (α : Type) where
  unit : α → UInt16
  ofUnit : UInt16 → α
  unit_ofUnit : ∀ u, unit (ofUnit u) = u

instance : CodeUnit UInt16 := ⟨id, id, fun _ => rfl⟩

/-- Where a unit comes from: the template, a value, or the program. -/
inductive Source (κ : Type) where
  | template
  | placeholder
  | value (key : κ)
  | program
deriving DecidableEq

/-- A code unit that says where it comes from. -/
abbrev Labelled (κ : Type) := UInt16 × Source κ

instance {κ : Type} : CodeUnit (Labelled κ) := ⟨Prod.fst, fun u => (u, .program), fun _ => rfl⟩

section Words

variable {α β κ : Type} [CodeUnit α] [CodeUnit β]

/-- The code units of a text. -/
def units (text : List α) : JsString := text.map CodeUnit.unit

/-- Whether a word stands at the start of a text. -/
def startsWithWord (word : JsString) (text : List α) : Bool := word.isPrefixOf (units text)

/-- How often a word occurs in a text. -/
def occurrences (word : JsString) : List α → ℕ
  | [] => 0
  | c :: rest => (if startsWithWord word (c :: rest) then 1 else 0) + occurrences word rest

/-- The text with a word replaced, `skip` units further on. -/
def replaceFrom (word : JsString) (value : List α) : ℕ → List α → List α
  | _, [] => []
  | skip + 1, _ :: rest => replaceFrom word value skip rest
  | 0, c :: rest =>
    if startsWithWord word (c :: rest) then value ++ replaceFrom word value (word.length - 1) rest
    else c :: replaceFrom word value 0 rest

/-- **`text.split(word).join(value)`**, for a word that is not empty. -/
def replaceAll (word : JsString) (value text : List α) : List α := replaceFrom word value 0 text

/-! ## One word -/

variable {word : JsString} {value a b : List α} {c : α}

/-- The units of two texts, one after the other. -/
@[simp] theorem units_append : units (a ++ b) = units a ++ units b := List.map_append

@[simp] theorem units_cons : units (c :: a) = CodeUnit.unit c :: units a := rfl

/-- A symbol stands for one unit. -/
theorem units_length : (units a).length = a.length := List.length_map _

/-- The word is a prefix of the units. -/
theorem startsWithWord_iff : startsWithWord word a = true ↔ word <+: units a :=
  List.isPrefixOf_iff_prefix

/-- No word starts in nothing. -/
theorem not_startsWithWord_nil (hword : word ≠ []) : startsWithWord word ([] : List α) = false := by
  rw [← Bool.not_eq_true, startsWithWord_iff]
  exact fun h => hword (List.prefix_nil.mp h)

/-- What was to be skipped. -/
theorem replaceFrom_skip : ∀ (a b : List α),
    replaceFrom word value a.length (a ++ b) = replaceFrom word value 0 b
  | [], _ => rfl
  | _ :: a, b => replaceFrom_skip a b

/-- A word at the start is replaced. -/
theorem replaceFrom_word (hword : word ≠ []) (h : units a = word) :
    replaceFrom word value 0 (a ++ b) = value ++ replaceFrom word value 0 b := by
  cases a with
  | nil => exact absurd h.symm hword
  | cons c a =>
      have hstart : startsWithWord word (c :: (a ++ b)) = true := by
        rw [startsWithWord_iff, ← h, ← List.cons_append, units_append]
        exact List.prefix_append _ _
      have hlength : word.length - 1 = a.length := by
        rw [← h, units_cons, List.length_cons, units_length]
        rfl
      rw [List.cons_append, replaceFrom, if_pos hstart, hlength, replaceFrom_skip]

/-- Where no occurrence starts. -/
def Free (word : JsString) : List α → List α → Prop
  | [], _ => True
  | c :: a, b => startsWithWord word (c :: (a ++ b)) = false ∧ Free word a b

/-- A part no occurrence starts in stays as it is. -/
theorem Free.replaceFrom : ∀ {a b : List α}, Free word a b →
    replaceFrom word value 0 (a ++ b) = a ++ Async.replaceFrom word value 0 b
  | [], _, _ => rfl
  | c :: a, b, ⟨hnot, h⟩ => by
      rw [List.cons_append, Async.replaceFrom, if_neg (by rw [hnot]; exact nofun), h.replaceFrom]
      rfl

/-- A part no occurrence starts in does not count. -/
theorem Free.occurrences : ∀ {a b : List α}, Free word a b →
    Async.occurrences word (a ++ b) = Async.occurrences word b
  | [], _, _ => rfl
  | c :: a, b, ⟨hnot, h⟩ => by
      rw [List.cons_append, Async.occurrences, if_neg (by rw [hnot]; exact nofun), Nat.zero_add,
        h.occurrences]

/-- Occurrences are not lost to what stands before them. -/
theorem occurrences_le : ∀ (a b : List α), occurrences word b ≤ occurrences word (a ++ b)
  | [], _ => le_rfl
  | _ :: a, b => (occurrences_le a b).trans (Nat.le_add_left _ _)

/-- A part adds no occurrences if none starts in it. -/
theorem free_of_occurrences : ∀ {a b : List α},
    occurrences word (a ++ b) = occurrences word b → Free word a b
  | [], _, _ => trivial
  | c :: a, b, h => by
      rw [List.cons_append, occurrences] at h
      have hle : occurrences word b ≤ occurrences word (a ++ b) := occurrences_le a b
      split at h
      · omega
      · next hnot =>
          rw [Bool.not_eq_true] at hnot
          exact ⟨hnot, free_of_occurrences (by omega)⟩

/-- A text without the word. -/
theorem replaceAll_of_occurrences (h : occurrences word a = 0) : replaceAll word value a = a := by
  have hfree : Free word a [] := free_of_occurrences (by rw [List.append_nil, h]; rfl)
  have happ : replaceFrom word value 0 (a ++ []) = a ++ replaceFrom word value 0 [] :=
    hfree.replaceFrom
  rwa [List.append_nil, replaceFrom, List.append_nil] at happ

/-- A word does not reach over a unit it does not have. -/
theorem startsWithWord_append_cons (hc : CodeUnit.unit c ∉ word) :
    startsWithWord word (a ++ c :: b) = startsWithWord word a := by
  rw [Bool.eq_iff_iff, startsWithWord_iff, startsWithWord_iff, units_append, units_cons]
  constructor
  · intro h
    rcases List.prefix_or_prefix_of_prefix h (List.prefix_append _ _) with hle | ⟨tail, rfl⟩
    · exact hle
    · cases tail with
      | nil => rw [List.append_nil]
      | cons d tail =>
          rw [List.prefix_append_right_inj, List.cons_prefix_cons] at h
          exact absurd (List.mem_append_right _ (h.1 ▸ List.mem_cons_self)) hc
  · exact fun h => h.trans (List.prefix_append _ _)

/-- Occurrences on both sides of such a unit. -/
theorem occurrences_append_cons (hword : word ≠ []) (hc : CodeUnit.unit c ∉ word) :
    ∀ (a b : List α),
      occurrences word (a ++ c :: b) = occurrences word a + occurrences word b
  | [], b => by
      have hstart : startsWithWord word ([] ++ c :: b) = false := by
        rw [startsWithWord_append_cons hc, not_startsWithWord_nil hword]
      rw [List.nil_append] at hstart ⊢
      rw [occurrences, occurrences, hstart, if_neg nofun]
  | d :: a, b => by
      have hstart : startsWithWord word ((d :: a) ++ c :: b) = startsWithWord word (d :: a) :=
        startsWithWord_append_cons hc
      rw [List.cons_append] at hstart ⊢
      rw [occurrences, occurrences, hstart, occurrences_append_cons hword hc a b, Nat.add_assoc]

/-! ## Weights -/

/-- What the units of a text weigh. -/
def weight (w : α → ℕ) (text : List α) : ℕ := (text.map w).sum

variable {w : α → ℕ}

omit [CodeUnit α] in
@[simp] theorem weight_nil : weight w [] = 0 := rfl

omit [CodeUnit α] in
@[simp] theorem weight_cons : weight w (c :: a) = w c + weight w a := rfl

omit [CodeUnit α] in
@[simp] theorem weight_append : weight w (a ++ b) = weight w a + weight w b := by
  unfold weight
  rw [List.map_append, List.sum_append]

omit [CodeUnit α] in
/-- What consists of weightless units weighs nothing. -/
theorem weight_eq_zero : ∀ {a : List α}, (∀ c ∈ a, w c = 0) → weight w a = 0
  | [], _ => rfl
  | c :: a, h => by
      rw [weight_cons, h c List.mem_cons_self,
        weight_eq_zero fun d hd => h d (List.mem_cons_of_mem c hd)]

/-- A value without weight adds none. -/
theorem weight_replaceFrom_le (hvalue : weight w value = 0) : ∀ (skip : ℕ) (text : List α),
    weight w (replaceFrom word value skip text) ≤ weight w text
  | _, [] => by rw [replaceFrom]
  | skip + 1, c :: rest => (weight_replaceFrom_le hvalue skip rest).trans (Nat.le_add_left _ _)
  | 0, c :: rest => by
      rw [replaceFrom]
      split
      · rw [weight_append, hvalue, Nat.zero_add]
        exact (weight_replaceFrom_le hvalue _ rest).trans (Nat.le_add_left _ _)
      · exact Nat.add_le_add_left (weight_replaceFrom_le hvalue 0 rest) _

/-- Where a part has the weight to lose, no occurrence starts in it. -/
theorem free_of_weight (hvalue : weight w value = 0) : ∀ {a b : List α},
    (∀ c tail, c :: tail <:+ a → startsWithWord word (c :: (tail ++ b)) = true → 0 < w c) →
    weight w (replaceFrom word value 0 (a ++ b)) = weight w (a ++ b) → Free word a b
  | [], _, _, _ => trivial
  | c :: a, b, hheavy, h => by
      rw [List.cons_append, replaceFrom, weight_cons] at h
      split at h
      · next hstart =>
          have hlost : weight w (replaceFrom word value (word.length - 1) (a ++ b)) ≤
            weight w (a ++ b) := weight_replaceFrom_le hvalue _ _
          have hpos := hheavy c a (List.suffix_refl _) hstart
          rw [weight_append, hvalue] at h
          omega
      · next hnot =>
          rw [weight_cons] at h
          refine ⟨by rwa [Bool.not_eq_true] at hnot, free_of_weight hvalue (fun d tail hd =>
            hheavy d tail (hd.trans (List.suffix_cons c a))) (by omega)⟩

/-! ## Labels do not matter -/

/-- A change of labels. -/
def Relabels (f : α → β) : Prop := ∀ c, CodeUnit.unit (f c) = CodeUnit.unit c

variable {f : α → β}

/-- Relabelling keeps the units. -/
theorem Relabels.units (hf : Relabels f) : Async.units (a.map f) = Async.units a := by
  unfold Async.units
  rw [List.map_map]
  exact List.map_congr_left fun c _ => hf c

/-- It keeps what starts where. -/
theorem Relabels.startsWithWord (hf : Relabels f) :
    Async.startsWithWord word (a.map f) = Async.startsWithWord word a := by
  unfold Async.startsWithWord
  rw [hf.units]

/-- It commutes with a replacement. -/
theorem Relabels.replaceFrom (hf : Relabels f) : ∀ (skip : ℕ) (a : List α),
    Async.replaceFrom word (value.map f) skip (a.map f) =
      (Async.replaceFrom word value skip a).map f
  | _, [] => by rw [Async.replaceFrom]; rfl
  | skip + 1, _ :: a => hf.replaceFrom skip a
  | 0, c :: a => by
      have hstart : Async.startsWithWord word ((c :: a).map f) =
        Async.startsWithWord word (c :: a) := hf.startsWithWord
      rw [List.map_cons] at hstart ⊢
      rw [Async.replaceFrom, Async.replaceFrom, hstart]
      split
      · rw [List.map_append, hf.replaceFrom]
      · rw [List.map_cons, hf.replaceFrom]

/-- It commutes with the replacement of all occurrences. -/
theorem Relabels.replaceAll (hf : Relabels f) :
    Async.replaceAll word (value.map f) (a.map f) = (Async.replaceAll word value a).map f :=
  hf.replaceFrom 0 a

/-- It keeps the number of occurrences. -/
theorem Relabels.occurrences (hf : Relabels f) :
    ∀ a : List α, Async.occurrences word (a.map f) = Async.occurrences word a
  | [] => rfl
  | c :: a => by
      have hstart : Async.startsWithWord word ((c :: a).map f) =
        Async.startsWithWord word (c :: a) := hf.startsWithWord
      rw [List.map_cons] at hstart ⊢
      rw [Async.occurrences, Async.occurrences, hstart, hf.occurrences a]

end Words

/-! ## Pieces -/

/-- **A piece of a template.** -/
inductive Piece (α κ : Type) where
  | unit (c : α)
  | hole (key : κ) (text : List α)
deriving DecidableEq

section Pieces

variable {α β κ : Type} [CodeUnit α] [CodeUnit β] [DecidableEq κ] (word : κ → JsString)

/-- The pieces of a template, `skip` units further on: where a placeholder stands, a
hole begins. -/
def scanFrom (keys : List κ) : ℕ → List α → List (Piece α κ)
  | _, [] => []
  | skip + 1, _ :: rest => scanFrom keys skip rest
  | 0, c :: rest =>
    match keys.find? fun key => startsWithWord (word key) (c :: rest) with
    | some key => .hole key ((c :: rest).take (word key).length) ::
        scanFrom keys ((word key).length - 1) rest
    | none => .unit c :: scanFrom keys 0 rest

/-- The pieces of a template, from left to right. -/
def scan (keys : List κ) (template : List α) : List (Piece α κ) := scanFrom word keys 0 template

/-- The text with some of the holes filled. -/
def fill (value : κ → Option (List α)) : List (Piece α κ) → List α
  | [] => []
  | .unit c :: pieces => c :: fill value pieces
  | .hole key text :: pieces => (value key).getD text ++ fill value pieces

/-- How many holes are for a key. -/
def holes (key : κ) : List (Piece α κ) → ℕ
  | [] => 0
  | .unit _ :: pieces => holes key pieces
  | .hole key' _ :: pieces => (if key' = key then 1 else 0) + holes key pieces

/-- **The holes are the placeholders**: no placeholder starts at a unit. -/
def Scanned : List (Piece α κ) → Prop
  | [] => True
  | .unit c :: pieces =>
    (∀ key, startsWithWord (word key) (c :: fill (fun _ => none) pieces) = false) ∧ Scanned pieces
  | .hole key text :: pieces => units text = word key ∧ Scanned pieces

/-- **Placeholders that do not touch each other.** -/
structure Apart : Prop where
  nonempty : ∀ key, word key ≠ []
  start : ∀ key key', word key <+: word key' → key = key'
  inside : ∀ key key', ∀ n < (word key).length, 0 < n →
    ¬(word key).drop n <+: word key' ∧ ¬word key' <+: (word key).drop n

variable {word} {keys : List κ} {pieces : List (Piece α κ)} {value : κ → Option (List α)}
  {key : κ} {text : List α}

omit [DecidableEq κ] in
/-- A template is its pieces. -/
theorem fill_scanFrom (hnonempty : ∀ key, word key ≠ []) : ∀ (skip : ℕ) (template : List α),
    fill (fun _ => none) (scanFrom word keys skip template) = template.drop skip
  | skip, [] => by rw [scanFrom, List.drop_nil, fill]
  | skip + 1, _ :: rest => fill_scanFrom hnonempty skip rest
  | 0, c :: rest => by
      rw [scanFrom]
      cases hfind : keys.find? fun key => startsWithWord (word key) (c :: rest) with
      | none => exact congrArg (c :: ·) (fill_scanFrom hnonempty 0 rest)
      | some key =>
          obtain ⟨n, hn⟩ := Nat.exists_eq_succ_of_ne_zero
            (List.length_pos_iff.mpr (hnonempty key)).ne'
          dsimp only
          rw [fill, fill_scanFrom hnonempty, hn, Option.getD_none, List.take_succ_cons,
            List.cons_append]
          exact congrArg (c :: ·) (List.take_append_drop n rest)

omit [DecidableEq κ] in
/-- The pieces of a template with nothing filled in are the template. -/
theorem fill_scan (hnonempty : ∀ key, word key ≠ []) (template : List α) :
    fill (fun _ => none) (scan word keys template) = template :=
  fill_scanFrom hnonempty 0 template

omit [DecidableEq κ] in
/-- By induction on the template: what `scanFrom` has cut is `Scanned`, wherever it began. -/
theorem scanned_scanFrom (hnonempty : ∀ key, word key ≠ []) (hkeys : ∀ key, key ∈ keys) :
    ∀ (skip : ℕ) (template : List α), Scanned word (scanFrom word keys skip template)
  | _, [] => by rw [scanFrom]; trivial
  | skip + 1, _ :: rest => scanned_scanFrom hnonempty hkeys skip rest
  | 0, c :: rest => by
      rw [scanFrom]
      cases hfind : keys.find? fun key => startsWithWord (word key) (c :: rest) with
      | none =>
          refine ⟨fun key => ?_, scanned_scanFrom hnonempty hkeys 0 rest⟩
          rw [fill_scanFrom hnonempty]
          exact Bool.not_eq_true _ ▸ List.find?_eq_none.mp hfind key (hkeys key)
      | some key =>
          refine ⟨?_, scanned_scanFrom hnonempty hkeys _ rest⟩
          have hfound : startsWithWord (word key) (c :: rest) = true := by
            have hsome := List.find?_some hfind
            exact hsome
          have hstart := startsWithWord_iff.mp hfound
          rw [List.prefix_iff_eq_take] at hstart
          unfold units at hstart ⊢
          rw [List.map_take]
          exact hstart.symm

omit [DecidableEq κ] in
/-- **The pieces of a template are its placeholders and its other units.** -/
theorem scanned_scan (hnonempty : ∀ key, word key ≠ []) (hkeys : ∀ key, key ∈ keys)
    (template : List α) : Scanned word (scan word keys template) :=
  scanned_scanFrom hnonempty hkeys 0 template

omit [DecidableEq κ] in
/-- The rest of a template is one. -/
theorem Scanned.suffix : ∀ {pieces back : List (Piece α κ)}, Scanned word pieces →
    back <:+ pieces → Scanned word back
  | [], back, _, hback => by
      rw [List.suffix_nil.mp hback]
      trivial
  | .unit c :: pieces, back, h, hback => by
      rcases List.suffix_cons_iff.mp hback with rfl | hback
      · exact h
      · exact h.2.suffix hback
  | .hole key text :: pieces, back, h, hback => by
      rcases List.suffix_cons_iff.mp hback with rfl | hback
      · exact h
      · exact h.2.suffix hback

omit [DecidableEq κ] in
/-- Inside a placeholder no placeholder starts. -/
theorem Apart.free (h : Apart word) {key' : κ} (rest : List α) : ∀ {n : ℕ} {text : List α},
    units text = (word key').drop n → 0 < n → Free (word key) text rest
  | _, [], _, _ => trivial
  | n, c :: text, htext, hn => by
      have hlt : n < (word key').length := by
        by_contra hge
        rw [List.drop_eq_nil_of_le (Nat.le_of_not_lt hge)] at htext
        cases htext
      have htail : units text = (word key').drop (n + 1) := by
        rw [← List.tail_drop, ← htext]
        rfl
      refine ⟨?_, h.free rest htail n.succ_pos⟩
      · rw [← Bool.not_eq_true, startsWithWord_iff, ← List.cons_append, units_append, htext]
        intro hprefix
        rcases List.prefix_or_prefix_of_prefix hprefix (List.prefix_append _ _) with hle | hle
        · exact (h.inside key' key n hlt hn).2 hle
        · exact (h.inside key' key n hlt hn).1 hle

/-- The occurrences in an open hole. -/
theorem Apart.occurrences_hole (h : Apart word) {key' : κ} (htext : units text = word key')
    (rest : List α) : occurrences (word key) (text ++ rest) =
      (if key' = key then 1 else 0) + occurrences (word key) rest := by
  cases text with
  | nil => exact absurd htext.symm (h.nonempty key')
  | cons c text =>
      have htail : units text = (word key').drop 1 := by
        rw [List.drop_one, ← htext]
        rfl
      rw [List.cons_append, occurrences, (h.free rest htail Nat.one_pos).occurrences]
      congr 1
      refine if_congr ?_ rfl rfl
      rw [startsWithWord_iff, ← List.cons_append, units_append, htext]
      constructor
      · intro hprefix
        rcases List.prefix_or_prefix_of_prefix hprefix (List.prefix_append _ _) with hle | hle
        · exact (h.start _ _ hle).symm
        · exact h.start _ _ hle
      · rintro rfl
        exact List.prefix_append _ _

/-- A hole that is open is an occurrence. -/
theorem holes_le (h : Apart word) (hopen : value key = none) :
    ∀ {pieces : List (Piece α κ)}, Scanned word pieces →
      holes key pieces ≤ occurrences (word key) (fill value pieces)
  | [], _ => le_rfl
  | .unit c :: pieces, hpieces => by
      rw [holes, fill, occurrences]
      exact (holes_le h hopen hpieces.2).trans (Nat.le_add_left _ _)
  | .hole key' text :: pieces, hpieces => by
      have ih := holes_le h hopen hpieces.2
      rw [holes, fill]
      by_cases heq : key' = key
      · subst heq
        rw [hopen, Option.getD_none, h.occurrences_hole hpieces.1, if_pos rfl]
        omega
      · rw [if_neg heq, Nat.zero_add]
        exact ih.trans (occurrences_le _ _)

/-- **Filling in one value after the others**: where the word occurs in holes only,
replacing it fills them. -/
theorem replaceAll_fill (h : Apart word) (hopen : value key = none) (new : List α) :
    ∀ {pieces : List (Piece α κ)}, Scanned word pieces →
      occurrences (word key) (fill value pieces) = holes key pieces →
      replaceAll (word key) new (fill value pieces) =
        fill (Function.update value key (some new)) pieces
  | [], _, _ => rfl
  | .unit c :: pieces, hpieces, hclean => by
      have hle := holes_le h hopen hpieces.2
      rw [holes, fill] at hclean
      have hfree : Free (word key) [c] (fill value pieces) :=
        free_of_occurrences (le_antisymm (hclean.le.trans hle) (occurrences_le [c] _))
      have hrest := hfree.occurrences.symm.trans hclean
      exact (hfree.replaceFrom).trans
        (congrArg (c :: ·) (replaceAll_fill h hopen new hpieces.2 hrest))
  | .hole key' text :: pieces, hpieces, hclean => by
      have hle := holes_le h hopen hpieces.2
      rw [holes, fill] at hclean
      rw [fill, fill]
      by_cases heq : key' = key
      · rw [heq, hopen, Option.getD_none, h.occurrences_hole hpieces.1, if_pos heq, if_pos rfl]
          at hclean
        rw [heq, hopen, Option.getD_none, Function.update_self, Option.getD_some]
        exact (replaceFrom_word (h.nonempty _) (heq ▸ hpieces.1)).trans
          (congrArg (new ++ ·) (replaceAll_fill h hopen new hpieces.2 (by omega)))
      · rw [if_neg heq, Nat.zero_add] at hclean
        have hfree : Free (word key) ((value key').getD text) (fill value pieces) :=
          free_of_occurrences (le_antisymm (hclean.le.trans hle) (occurrences_le _ _))
        rw [hfree.occurrences] at hclean
        rw [Function.update_of_ne heq]
        exact (hfree.replaceFrom).trans
          (congrArg (_ ++ ·) (replaceAll_fill h hopen new hpieces.2 hclean))

/-- **Where filling in one value after the others loses no weight, the word occurs in
holes only.** -/
theorem occurrences_of_weight (h : Apart word) {w : α → ℕ} {new : List α}
    (hopen : value key = none) (hnew : weight w new = 0)
    (hvalues : ∀ key' text, value key' = some text →
      ∀ c ∈ text, ∀ rest, startsWithWord (word key) (c :: rest) = true → 0 < w c) :
    ∀ {pieces : List (Piece α κ)}, Scanned word pieces →
      (∀ key' text, Piece.hole key' text ∈ pieces → weight w text = 0) →
      (∀ c back, Piece.unit c :: back <:+ pieces →
        startsWithWord (word key) (c :: fill value back) = true → 0 < w c) →
      weight w (replaceAll (word key) new (fill value pieces)) = weight w (fill value pieces) →
      occurrences (word key) (fill value pieces) = holes key pieces
  | [], _, _, _, _ => rfl
  | .unit c :: pieces, hpieces, hholes, hunits, hweight => by
      -- an occurrence that starts here would lose the weight of its first character
      have hfree : Free (word key) [c] (fill value pieces) :=
        free_of_weight hnew (fun d tail hd hstart => by
          obtain ⟨front, hfront⟩ := hd
          have hlength := congrArg List.length hfront
          rw [List.length_append, List.length_cons, List.length_singleton] at hlength
          obtain rfl := List.eq_nil_of_length_eq_zero (show front.length = 0 by omega)
          rw [List.nil_append] at hfront
          cases hfront
          exact hunits c pieces (List.suffix_refl _) hstart) hweight
      have hrest := occurrences_of_weight h hopen hnew hvalues hpieces.2
        (fun key' text hmem => hholes key' text (List.mem_cons_of_mem _ hmem))
        (fun d back hback => hunits d back (hback.trans (List.suffix_cons _ _)))
        (Nat.add_left_cancel ((congrArg (weight w) hfree.replaceFrom).symm.trans hweight))
      exact hfree.occurrences.trans hrest
  | .hole key' text :: pieces, hpieces, hholes, hunits, hweight => by
      have hrest := occurrences_of_weight h hopen hnew hvalues hpieces.2
        (fun key' text hmem => hholes key' text (List.mem_cons_of_mem _ hmem))
        (fun d back hback => hunits d back (hback.trans (List.suffix_cons _ _)))
      have htext := hholes key' text List.mem_cons_self
      unfold replaceAll at hrest hweight
      rw [holes, fill] at *
      -- the hole of the word itself is an occurrence; any other is free of it
      by_cases heq : key' = key
      · rw [heq, hopen, Option.getD_none] at hweight ⊢
        rw [replaceFrom_word (h.nonempty _) (heq ▸ hpieces.1), weight_append, weight_append, hnew,
          htext] at hweight
        rw [h.occurrences_hole (heq ▸ hpieces.1), hrest (by omega)]
      · rw [if_neg heq, Nat.zero_add]
        have hfree : Free (word key) ((value key').getD text) (fill value pieces) := by
          cases hvalue : value key' with
          | none =>
              rw [Option.getD_none]
              refine free_of_occurrences ?_
              rw [h.occurrences_hole hpieces.1, if_neg heq, Nat.zero_add]
          | some filled =>
              rw [hvalue] at hweight
              exact free_of_weight hnew (fun c tail hc => hvalues key' filled hvalue c
                (hc.subset List.mem_cons_self) _) hweight
        rw [hfree.replaceFrom, weight_append, weight_append] at hweight
        rw [hfree.occurrences, hrest (by omega)]

omit [DecidableEq κ] in
/-- A word that values do not start with reaches no further than the open text. -/
theorem prefix_fill_none {value : κ → Option (List α)} :
    ∀ {pieces : List (Piece α κ)} {p : JsString},
      (∀ key text, value key = some text → ∃ c rest, text = c :: rest ∧ CodeUnit.unit c ∉ p) →
      p <+: units (fill value pieces) → p <+: units (fill (fun _ => none) pieces)
  | [], _, _, h => h
  | _ :: _, [], _, _ => List.nil_prefix
  | .unit c :: pieces, u :: p, hvalues, h => by
      rw [fill, units_cons, List.cons_prefix_cons] at h ⊢
      refine ⟨h.1, prefix_fill_none (fun key text htext => ?_) h.2⟩
      obtain ⟨d, rest, hrest, hnot⟩ := hvalues key text htext
      exact ⟨d, rest, hrest, fun hmem => hnot (List.mem_cons_of_mem _ hmem)⟩
  | .hole key text :: pieces, u :: p, hvalues, h => by
      rw [fill, units_append] at h ⊢
      cases hvalue : value key with
      | some filled =>
          obtain ⟨d, rest, rfl, hnot⟩ := hvalues key filled hvalue
          rw [hvalue, Option.getD_some, units_cons, List.cons_append, List.cons_prefix_cons] at h
          exact absurd (h.1 ▸ List.mem_cons_self) hnot
      | none =>
          rw [hvalue, Option.getD_none] at h
          rw [Option.getD_none]
          rcases List.prefix_or_prefix_of_prefix h (List.prefix_append _ _) with hle | ⟨tail, htail⟩
          · exact hle.trans (List.prefix_append _ _)
          · rw [← htail] at h hvalues ⊢
            rw [List.prefix_append_right_inj] at h ⊢
            refine prefix_fill_none (fun key text htext => ?_) h
            obtain ⟨d, rest, hrest, hnot⟩ := hvalues key text htext
            exact ⟨d, rest, hrest, fun hmem => hnot (List.mem_append_right _ hmem)⟩

/-- Values that a word cannot reach into, or out of. -/
def Bracketed (word : JsString) (text : List α) : Prop :=
  ∃ first middle last, text = first :: (middle ++ [last]) ∧ CodeUnit.unit first ∉ word ∧
    CodeUnit.unit last ∉ word

omit [DecidableEq κ] in
/-- Where values are bracketed, no placeholder starts at a unit. -/
theorem Scanned.not_start {c : α} (hpieces : Scanned word (.unit c :: pieces))
    (hvalues : ∀ key' text, value key' = some text → Bracketed (word key) text) :
    startsWithWord (word key) (c :: fill value pieces) = false := by
  rw [← Bool.not_eq_true, startsWithWord_iff]
  intro hstart
  have hnone : word key <+: units (fill (fun _ => none) (Piece.unit c :: pieces)) := by
    refine prefix_fill_none (fun key' text htext => ?_) hstart
    obtain ⟨first, middle, last, heq, hfirst, -⟩ := hvalues key' text htext
    exact ⟨first, _, heq, hfirst⟩
  exact absurd (startsWithWord_iff.mpr hnone) (Bool.eq_false_iff.mp (hpieces.1 key))

/-- What occurs in a bracketed value and after it. -/
theorem Bracketed.occurrences {word : JsString} {text : List α} (h : Bracketed word text)
    (hword : word ≠ []) (rest : List α) :
    Async.occurrences word (text ++ rest) =
      Async.occurrences word text + Async.occurrences word rest := by
  obtain ⟨first, middle, last, rfl, -, hlast⟩ := h
  rw [← List.cons_append, List.append_assoc, List.singleton_append,
    occurrences_append_cons hword hlast, occurrences_append_cons hword hlast]
  rfl

/-- **The placeholders that come up in a filled template are those in the values**, if these
are bracketed. -/
theorem occurrences_fill_iff (h : Apart word) (hopen : value key = none)
    (hvalues : ∀ key' text, value key' = some text → Bracketed (word key) text) :
    ∀ {pieces : List (Piece α κ)}, Scanned word pieces →
      (occurrences (word key) (fill value pieces) = holes key pieces ↔
        ∀ key' text, Piece.hole key' text ∈ pieces → ∀ filled, value key' = some filled →
          occurrences (word key) filled = 0)
  | [], _ => by simp [fill, occurrences, holes]
  | .unit c :: pieces, hpieces => by
      rw [fill, occurrences, hpieces.not_start hvalues, if_neg nofun, Nat.zero_add, holes,
        occurrences_fill_iff h hopen hvalues hpieces.2]
      simp only [List.mem_cons, reduceCtorEq, false_or]
  | .hole key' text :: pieces, hpieces => by
      have hrest := occurrences_fill_iff h hopen hvalues hpieces.2
      rw [fill, holes]
      cases hvalue : value key' with
      | none =>
          rw [Option.getD_none, h.occurrences_hole hpieces.1, Nat.add_left_cancel_iff, hrest]
          constructor
          · intro hall key₁ text₁ hmem filled hfilled
            rcases List.mem_cons.mp hmem with heq | hmem
            · cases heq
              rw [hvalue] at hfilled
              cases hfilled
            · exact hall key₁ text₁ hmem filled hfilled
          · exact fun hall key₁ text₁ hmem => hall key₁ text₁ (List.mem_cons_of_mem _ hmem)
      | some filled =>
          have hne : key' ≠ key := by
            rintro rfl
            rw [hopen] at hvalue
            cases hvalue
          have hle : holes key pieces ≤ occurrences (word key) (fill value pieces) :=
            holes_le h hopen hpieces.2
          rw [Option.getD_some, (hvalues key' filled hvalue).occurrences (h.nonempty key),
            if_neg hne, Nat.zero_add]
          constructor
          · intro hsum key₁ text₁ hmem filled₁ hfilled
            rcases List.mem_cons.mp hmem with heq | hmem
            · cases heq
              rw [hvalue] at hfilled
              cases hfilled
              omega
            · exact hrest.mp (by omega) key₁ text₁ hmem filled₁ hfilled
          · intro hall
            rw [hall key' text List.mem_cons_self filled hvalue, Nat.zero_add]
            exact hrest.mpr fun key₁ text₁ hmem => hall key₁ text₁ (List.mem_cons_of_mem _ hmem)

/-- In a template, a placeholder occurs in its holes only. -/
theorem occurrences_fill_none (h : Apart word) : ∀ {pieces : List (Piece α κ)},
    Scanned word pieces → occurrences (word key) (fill (fun _ => none) pieces) = holes key pieces
  | [], _ => rfl
  | .unit c :: pieces, hpieces => by
      rw [fill, occurrences, hpieces.1 key, if_neg nofun, Nat.zero_add,
        occurrences_fill_none h hpieces.2]
      rfl
  | .hole key' text :: pieces, hpieces => by
      rw [fill, Option.getD_none, h.occurrences_hole hpieces.1,
        occurrences_fill_none h hpieces.2]
      rfl

omit [CodeUnit α] [DecidableEq κ] in
/-- Texts that fill the holes alike weigh alike. -/
theorem weight_fill_congr {w : α → ℕ} {value value' : κ → Option (List α)} :
    ∀ {pieces : List (Piece α κ)},
      (∀ key text, Piece.hole key text ∈ pieces →
        weight w ((value key).getD text) = weight w ((value' key).getD text)) →
      weight w (fill value pieces) = weight w (fill value' pieces)
  | [], _ => rfl
  | .unit c :: pieces, h =>
      congrArg (w c + ·) (weight_fill_congr fun key text hmem =>
        h key text (List.mem_cons_of_mem _ hmem))
  | .hole key text :: pieces, h => by
      rw [fill, fill, weight_append, weight_append, h key text List.mem_cons_self,
        weight_fill_congr fun key text hmem => h key text (List.mem_cons_of_mem _ hmem)]

omit [CodeUnit α] [DecidableEq κ] in
/-- What stands in a filled template. -/
theorem mem_fill {c : α} {value : κ → Option (List α)} : ∀ {pieces : List (Piece α κ)},
    c ∈ fill value pieces ↔ Piece.unit c ∈ pieces ∨
      ∃ key text, Piece.hole key text ∈ pieces ∧ c ∈ (value key).getD text
  | [] => by simp [fill]
  | .unit d :: pieces => by
      rw [fill, List.mem_cons, mem_fill]
      simp only [List.mem_cons, Piece.unit.injEq, reduceCtorEq, false_or]
      exact or_assoc.symm
  | .hole key text :: pieces => by
      rw [fill, List.mem_append, mem_fill]
      constructor
      · rintro (hmem | hunit | ⟨key', text', hhole, hmem⟩)
        · exact .inr ⟨key, text, List.mem_cons_self, hmem⟩
        · exact .inl (List.mem_cons_of_mem _ hunit)
        · exact .inr ⟨key', text', List.mem_cons_of_mem _ hhole, hmem⟩
      · rintro (hunit | ⟨key', text', hhole, hmem⟩)
        · exact .inr (.inl ((List.mem_cons.mp hunit).resolve_left nofun))
        · rcases List.mem_cons.mp hhole with heq | hhole
          · cases heq
            exact .inl hmem
          · exact .inr (.inr ⟨key', text', hhole, hmem⟩)

omit [CodeUnit α] in
/-- A key has a hole where it has one. -/
theorem holes_pos : ∀ {pieces : List (Piece α κ)},
    0 < holes key pieces ↔ ∃ text, Piece.hole key text ∈ pieces
  | [] => by simp [holes]
  | .unit c :: pieces => by
      rw [holes, holes_pos]
      simp only [List.mem_cons, reduceCtorEq, false_or]
  | .hole key' text :: pieces => by
      rw [holes]
      by_cases heq : key' = key
      · subst heq
        rw [if_pos rfl]
        exact iff_of_true (by omega) ⟨text, List.mem_cons_self⟩
      · rw [if_neg heq, Nat.zero_add, holes_pos]
        simp only [List.mem_cons, Piece.hole.injEq, Ne.symm heq, false_and, false_or]

end Pieces

/-! ## Labels -/

section Label

variable {κ : Type} [DecidableEq κ] {word : κ → JsString}

/-- A value with its label. -/
def labelValue (key : κ) (value : JsString) : List (Labelled κ) :=
  value.map fun c => (c, .value key)

/-- A piece with its labels. -/
def Piece.label : Piece UInt16 κ → Piece (Labelled κ) κ
  | unit c => unit (c, .template)
  | hole key text => hole key (text.map fun c => (c, .placeholder))

/-- The text of labelled units. -/
def plain (text : List (Labelled κ)) : JsString := text.map Prod.fst

omit [DecidableEq κ] in
/-- The units of labelled text are its text. -/
theorem units_eq_plain (text : List (Labelled κ)) : units text = plain text := rfl

omit [DecidableEq κ] in
/-- A string stands for itself. -/
theorem units_jsString (text : JsString) : units text = text := List.map_id _

omit [DecidableEq κ] in
/-- To drop the labels is to relabel. -/
theorem relabels_fst : Relabels (Prod.fst : Labelled κ → UInt16) := fun _ => rfl

omit [DecidableEq κ] in
/-- A labelled value has the text of the value. -/
@[simp] theorem plain_labelValue (key : κ) (value : JsString) :
    plain (labelValue key value) = value := by
  unfold plain labelValue
  rw [List.map_map]
  exact List.map_id _

omit [DecidableEq κ] in
/-- Labels do not change what is filled in. -/
theorem plain_fill {value : κ → Option JsString} : ∀ pieces : List (Piece UInt16 κ),
    plain (fill (fun key => (value key).map (labelValue key)) (pieces.map Piece.label)) =
      fill value pieces
  | [] => rfl
  | .unit c :: pieces => congrArg (c :: ·) (plain_fill pieces)
  | .hole key text :: pieces => by
      have hrest : plain (fill (fun key => (value key).map (labelValue key))
        (pieces.map Piece.label)) = fill value pieces := plain_fill pieces
      unfold plain at hrest ⊢
      rw [List.map_cons, Piece.label, fill, fill, List.map_append, hrest]
      congr 1
      cases value key with
      | none =>
          rw [Option.map_none, Option.getD_none, List.map_map]
          exact List.map_id _
      | some filled => exact plain_labelValue key filled

omit [DecidableEq κ] in
/-- Labels do not make placeholders. -/
theorem scanned_label : ∀ {pieces : List (Piece UInt16 κ)}, Scanned word pieces →
    Scanned word (pieces.map Piece.label)
  | [], _ => trivial
  | .unit c :: pieces, h => by
      refine ⟨fun key => ?_, scanned_label h.2⟩
      have hplain : plain (fill (fun _ => none) ((Piece.unit c :: pieces).map Piece.label)) =
          fill (fun _ => none) (Piece.unit c :: pieces) :=
        @plain_fill κ (fun _ => none) (Piece.unit c :: pieces)
      rw [← h.1 key]
      exact (relabels_fst.startsWithWord).symm.trans (congrArg _ hplain)
  | .hole key text :: pieces, h => by
      refine ⟨?_, scanned_label h.2⟩
      have htext := h.1
      rw [units_jsString] at htext
      rw [← htext, units_eq_plain, plain, List.map_map]
      exact List.map_id _

end Label

end Async
