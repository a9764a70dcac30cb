import CodeCaller.Library.Lines
import CodeCaller.Library.Regex

/-!
# `approval-detector`

The detection of a prompt for confirmation in the output of a child.  Escape sequences are removed,
and the lines are tested one after the other.

A sequence holds no line feed and no carriage return, so that removing the sequences and cutting a
text into lines can be done in either order (`exists_strippedLine`).

The markers are those of the code as expressions of `Library.Regex`, which has what they use:
alternatives, classes, repetitions, word boundaries, and the flag for the case of letters.  The
detector answers with a reason, the line cut to a length with its blanks collapsed; that a line has
a marker at all is `hasMarker`.
-/

namespace CodeCaller

open Async

/-! ## `stripAnsi` -/

/-- `[0-9;?]`. -/
def isAnsiParameter (c : UInt16) : Bool :=
  (48 ≤ c.toNat && c.toNat ≤ 57) || c.toNat == 59 || c.toNat == 63

/-- `[a-zA-Z]`. -/
def isAnsiLetter (c : UInt16) : Bool :=
  (65 ≤ c.toNat && c.toNat ≤ 90) || (97 ≤ c.toNat && c.toNat ≤ 122)

/-- The length of the escape sequence a text starts with. -/
def ansiLength : JsString → Option ℕ
  | escape :: bracket :: rest =>
    if escape = 27 ∧ bracket = 91 then
      if (rest.dropWhile isAnsiParameter).head?.any isAnsiLetter then
        some ((rest.takeWhile isAnsiParameter).length + 3)
      else none
    else none
  | _ => none

/-- The text without its escape sequences, after `skip` units of one. -/
def stripFrom : ℕ → JsString → JsString
  | _, [] => []
  | 0, c :: rest =>
    match ansiLength (c :: rest) with
    | some length => stripFrom (length - 1) rest
    | none => c :: stripFrom 0 rest
  | skip + 1, _ :: rest => stripFrom skip rest

/-- **`text.replace(/\u001b\[[0-9;?]*[a-zA-Z]/g, '')`.** -/
def stripAnsi (text : JsString) : JsString := stripFrom 0 text

/-! ## `detect` -/

open Regex in
/-- The expressions of the source, in its order. -/
def CONFIRM_MARKERS : List Regex :=
  [
   -- /\by\s*\/\s*n\b/i
   all [boundary, text "y", blanks, text "/", blanks, text "n", boundary],
   -- /\byes\s*\/\s*no\b/i
   all [boundary, text "yes", blanks, text "/", blanks, text "no", boundary],
   -- /\byes\/n\b/i
   all [boundary, text "yes/n", boundary],
   -- /\by\/n(?:es)?\b/i
   all [boundary, text "y/n", optional (text "es"), boundary],
   -- /\b(?:approve|allow|permit|confirm)\b.*\?\s*$/i
   all [boundary, any [text "approve", text "allow", text "permit", text "confirm"], boundary,
     anything, text "?", blanks, atEnd],
   -- /\b(?:proceed|continue)\b.*\?\s*$/i
   all [boundary, any [text "proceed", text "continue"], boundary, anything, text "?", blanks,
     atEnd],
   -- /\?\s*(?:\(y\/n\)|\[y\/n\]|y\/n)\s*$/i
   all [text "?", blanks, any [text "(y/n)", text "[y/n]", text "y/n"], blanks, atEnd],
   -- /\bdo you want (?:to )?(?:to )?(?:continue|proceed|run|execute)\b.*\?/i
   all [boundary, text "do you want ", optional (text "to "), optional (text "to "),
     any [text "continue", text "proceed", text "run", text "execute"], boundary, anything,
     text "?"],
   -- /\bare you sure\b.*\?/i
   all [boundary, text "are you sure", boundary, anything, text "?"],
   -- /\bsuggested (?:shell )?command\b.*\?/i
   all [boundary, text "suggested ", optional (text "shell "), text "command", boundary, anything,
     text "?"]]

/-- `clean.replace(/\s+/g, ' ')`, inside of a run of blanks or not. -/
def collapseBlanks (inRun : Bool) : JsString → JsString
  | [] => []
  | c :: rest =>
    if JsString.isBlank c then
      if inRun then collapseBlanks true rest else 32 :: collapseBlanks true rest
    else c :: collapseBlanks false rest

/-- The text with its blanks collapsed, cut to a length with an ellipsis. -/
def excerpt (text : JsString) (max : ℕ) : JsString :=
  let clean := JsString.join
    ((JsString.splitLines (stripAnsi text)).filter fun l => !(JsString.trim l).isEmpty) (js " ")
  let trimmed := JsString.trim (collapseBlanks false clean)
  if trimmed.length > max then js "…" ++ JsString.sliceBack trimmed max else trimmed

/-- `CONFIRM_MARKERS.some((re) => re.test(line))`. -/
def hasMarker (line : JsString) : Bool := CONFIRM_MARKERS.any fun re => re.test line

/-- Whether the loop stops at a line. -/
def stopsAt (line : JsString) : Bool :=
  !(JsString.trim line).isEmpty && hasMarker (JsString.trim line)

/-- **`detect`**: the reason of the first line with a marker. -/
def detect (chunk : JsString) : Option JsString :=
  let clean := stripAnsi chunk
  if (JsString.trim clean).isEmpty then none
  else
    let lines := JsString.splitLines clean
    (lines.zipIdx.find? fun entry => stopsAt entry.1).map fun entry =>
      excerpt (JsString.join ((lines.take (entry.2 + 1)).drop (entry.2 - 2)) (js "\n")) 240

end CodeCaller
