import CodeCaller.Library.JsString

/-!
# Regular expressions without captures

What `re.test(s)` needs of a JavaScript regular expression: classes of units, sequences,
alternatives, repetitions of a class, and the assertions `\b` and `$`.

A match is described by the places it may end at (`Regex.ends`): a place is the unit before it and
the text behind it, so `\b` can look at both sides.  Whether there is a match does not depend on
the order in which a matcher tries its ways, so all ends are kept and no backtracking is modelled;
`testFrom` then looks for a match from each place of the text.

`lower` folds the case of ASCII letters, which is what the flag `i` does to the patterns that are
built from `text` here: they are ASCII.  Without the flag `u`, `i` relates no letter beyond ASCII
to one of them.
-/

namespace Async

/-- **A regular expression.** -/
inductive Regex where
  | empty
  | unit (accepts : UInt16 → Bool)
  | many (accepts : UInt16 → Bool)
  | seq (first second : Regex)
  | alt (left right : Regex)
  | boundary
  | atEnd

/-- A place in a text: the unit before it, and what follows. -/
structure Place where
  before : Option UInt16
  rest : JsString

namespace Regex

/-- A unit of `\w`. -/
def isWord (c : UInt16) : Bool :=
  let n := c.toNat
  (48 ≤ n && n ≤ 57) || (65 ≤ n && n ≤ 90) || n == 95 || (97 ≤ n && n ≤ 122)

/-- The places after some units of a class. -/
def manyEnds (accepts : UInt16 → Bool) (before : Option UInt16) : JsString → List Place
  | [] => [⟨before, []⟩]
  | c :: rest => ⟨before, c :: rest⟩ :: if accepts c then manyEnds accepts (some c) rest else []

/-- **The places where a match from a place may end.** -/
def ends : Regex → Place → List Place
  | empty, place => [place]
  | unit accepts, place =>
    match place.rest with
    | [] => []
    | c :: rest => if accepts c then [⟨some c, rest⟩] else []
  | many accepts, place => manyEnds accepts place.before place.rest
  | seq first second, place => (first.ends place).flatMap second.ends
  | alt left right, place => left.ends place ++ right.ends place
  | boundary, place =>
    if place.before.any isWord != place.rest.head?.any isWord then [place] else []
  | atEnd, place => if place.rest.isEmpty then [place] else []

/-- Whether there is a match at a place or after it. -/
def testFrom (r : Regex) (before : Option UInt16) : JsString → Bool
  | [] => !(r.ends ⟨before, []⟩).isEmpty
  | c :: rest => !(r.ends ⟨before, c :: rest⟩).isEmpty || testFrom r (some c) rest

/-- **`re.test(s)`.** -/
def test (r : Regex) (s : JsString) : Bool := r.testFrom none s

/-! ## Parts -/

/-- A letter as a small one. -/
def lower (c : UInt16) : UInt16 :=
  if 65 ≤ c.toNat ∧ c.toNat ≤ 90 then (c.toNat + 32).toUInt16 else c

/-- A text, without regard to the case of its letters. -/
def text (s : String) : Regex :=
  (js s).foldr (fun c r => seq (unit fun d => lower d == lower c) r) empty

/-- One after the other. -/
def all (parts : List Regex) : Regex := parts.foldr seq empty

/-- One of several. -/
def any (choices : List Regex) : Regex := choices.foldr alt (unit fun _ => false)

/-- `r?`. -/
def optional (r : Regex) : Regex := alt r empty

/-- `\s*`. -/
def blanks : Regex := many JsString.isBlank

/-- `.*`: there is no line break among the units. -/
def anything : Regex := many fun c => !([10, 13, 0x2028, 0x2029].contains c.toNat)

end Regex

end Async
