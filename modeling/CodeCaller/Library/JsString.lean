import Mathlib.Data.List.Basic
import Mathlib.Data.List.TakeWhile
import Mathlib.Data.UInt
import Mathlib.Tactic.Common

/-!
# JavaScript strings

A JavaScript string is a sequence of UTF-16 code units, and `length`, `slice` and `startsWith`
count code units, not characters.  `js` turns a Lean literal into the string a JavaScript literal
with the same text denotes.

The functions are those of the standard library, under its names: `startsWith`, `slice`, `join`,
`trim` and `Number.parseInt` with radix 10.  `isBlank` is the set of code units the language calls
white space and line terminators; `trim`, `\s` of a regular expression and `parseInt` share it, and
so do the definitions.

Numbers are natural numbers and integers here.  A JavaScript number beyond `2 ^ 53` is rounded, and
one beyond the range of doubles is `Infinity`; whoever reads a number with `parseInt10` has to say
whether that matters.
-/

namespace Async

/-- A JavaScript string: its UTF-16 code units. -/
abbrev JsString : Type := List UInt16

/-- The code units of one character: one, or a surrogate pair. -/
def utf16 (c : Char) : JsString :=
  if c.toNat < 0x10000 then [c.toNat.toUInt16]
  else [((c.toNat - 0x10000) / 0x400 + 0xD800).toUInt16,
    ((c.toNat - 0x10000) % 0x400 + 0xDC00).toUInt16]

/-- The JavaScript string with the text of a literal. -/
def js (text : String) : JsString := text.toList.flatMap utf16

namespace JsString

/-- `s.startsWith(prefix)`. -/
def startsWith (s start : JsString) : Bool := start.isPrefixOf s

/-- `s.slice(0, n)`. -/
def sliceFront (s : JsString) (n : ℕ) : JsString := s.take n

/-- `s.slice(-n)`, for `n > 0`. -/
def sliceBack (s : JsString) (n : ℕ) : JsString := s.drop (s.length - n)

/-- `lines.join(separator)`. -/
def join (lines : List JsString) (separator : JsString) : JsString :=
  separator.intercalate lines

/-- The text of a number in a template literal. -/
def ofNat (n : ℕ) : JsString := js (toString n)

/-- The code unit of a decimal digit, as its value. -/
def digit? (unit : UInt16) : Option ℕ :=
  if 48 ≤ unit.toNat ∧ unit.toNat ≤ 57 then some (unit.toNat - 48) else none

/-- The digits at the start of a string, most significant first. -/
def leadingDigits : JsString → List ℕ
  | [] => []
  | unit :: rest =>
    match digit? unit with
    | some d => d :: leadingDigits rest
    | none => []

/-- The blank code units: white space and line ends, as `s.trim()`, `\s` of a regular
expression and `Number.parseInt` read them. -/
def isBlank (unit : UInt16) : Bool :=
  unit.toNat ∈ [9, 10, 11, 12, 13, 32, 0xA0, 0x1680, 0x2028, 0x2029, 0x202F, 0x205F, 0x3000,
    0xFEFF] || (0x2000 ≤ unit.toNat && unit.toNat ≤ 0x200A)

/-- **`s.trim()`**: without the blanks at both ends. -/
def trim (s : JsString) : JsString :=
  ((s.dropWhile isBlank).reverse.dropWhile isBlank).reverse

/-- **`Number.parseInt(s, 10)`**, with `none` for `NaN`: blanks are skipped, a
sign is read, and the leading digits are the value; the rest is ignored. -/
def parseInt10 (s : JsString) : Option ℤ :=
  let body := s.dropWhile isBlank
  let (negative, digits) : Bool × List ℕ :=
    match body with
    | [] => (false, [])
    | unit :: rest =>
      if unit.toNat = 45 then (true, leadingDigits rest)
      else if unit.toNat = 43 then (false, leadingDigits rest)
      else (false, leadingDigits body)
  if digits = [] then none
  else
    let value : ℕ := digits.foldl (fun acc d => 10 * acc + d) 0
    some (if negative then -(value : ℤ) else value)

/-- A string built from a prefix starts with it. -/
@[simp] theorem startsWith_append (start rest : JsString) :
    startsWith (start ++ rest) start = true := by
  simp [startsWith]

/-- What follows does not matter. -/
theorem startsWith_append_right {s start : JsString} (rest : JsString)
    (h : s.startsWith start = true) : (s ++ rest).startsWith start = true := by
  unfold startsWith at h ⊢
  rw [List.isPrefixOf_iff_prefix] at h ⊢
  exact h.trans (List.prefix_append s rest)

/-! ## Trimming -/

/-- **Nothing is left exactly of a blank text.** -/
theorem trim_eq_nil_iff {s : JsString} : trim s = [] ↔ ∀ c ∈ s, isBlank c = true := by
  unfold trim
  rw [List.reverse_eq_nil_iff, List.dropWhile_eq_nil_iff]
  constructor
  · intro h
    have hnil : s.dropWhile isBlank = [] := by
      by_contra hne
      have hhead := List.head_dropWhile_not isBlank hne
      have hblank := h _ (List.mem_reverse.mpr (List.head_mem hne))
      rw [hhead] at hblank
      cases hblank
    exact List.dropWhile_eq_nil_iff.mp hnil
  · intro h c hmem
    have hnil : s.dropWhile isBlank = [] := List.dropWhile_eq_nil_iff.mpr h
    rw [hnil] at hmem
    cases hmem

/-- A blank at the end does not count. -/
theorem trim_append_blank {c : UInt16} (hc : isBlank c = true) (s : JsString) :
    trim (s ++ [c]) = trim s := by
  by_cases hs : ∀ d ∈ s, isBlank d = true
  · have hall : ∀ d ∈ s ++ [c], isBlank d = true := by
      intro d hd
      rcases List.mem_append.mp hd with hd | hd
      · exact hs d hd
      · rwa [List.mem_singleton.mp hd]
    rw [trim_eq_nil_iff.mpr hall, trim_eq_nil_iff.mpr hs]
  · have hne : s.dropWhile isBlank ≠ [] := fun hnil => hs (List.dropWhile_eq_nil_iff.mp hnil)
    have hdrop : (s ++ [c]).dropWhile isBlank = s.dropWhile isBlank ++ [c] := by
      rw [List.dropWhile_append, if_neg (by simpa using hne)]
    unfold trim
    rw [hdrop, List.reverse_append, List.reverse_singleton, List.singleton_append,
      List.dropWhile_cons, if_pos hc]

end JsString

end Async
