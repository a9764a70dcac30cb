import CodeCaller.Crypto
import CodeCaller.Library.Template
import CodeCaller.Schema

/-!
# `buildSpawnPlan`

How the daemon turns the command template, the input of a task and its work directory into what it
spawns.  The steps that handle values run on labelled text as well, so that the origin of every
unit of an argument can be asked for.

With `useShell` off the template is cut into tokens, the placeholders of a token are replaced one
after the other, and its quotes are removed last.  `buildSpawnPlan_verbatim_iff` says for which
values the arguments are the template's tokens with the values in them.

### Main definitions

* `Json.toText`, `Json.stringify`: the texts of the prompt and of the input.
* `tokenize`, `substitute`, `stripOuterQuotes`, `shellEscape`: the helpers of `runner.js`, over any
  type of units.
* `buildSpawnPlan`: the plan, or the exception of the prompt.
* `Verbatim`: what is promised of direct mode.

### Labels

A unit of an argument may be equal to a unit of a value without having come from it.  On labelled
text, where each unit carries the value or the template it comes from, "the value is passed as it
is" is a statement about origins, and forgetting the labels gives the arguments of the code.  The
two ways in which it fails are then visible: a placeholder inside of a value is replaced as well,
and the quotes that are removed at the end may be those of a value.
-/

namespace CodeCaller

open Async

/-! ## Texts of JSON values -/

/-- The members that make `String(value)` throw. -/
def JsonMembers.overrides (members : List (JsString × Json)) : Bool :=
  members.any fun member => member.1 == js "toString"

mutual

/-- **`String(value)`**, `none` where it throws: an own member `toString` hides the
method, and `valueOf` answers with the object. -/
def Json.toText : Json → Option JsString
  | .null => some (js "null")
  | .bool value => some (if value then js "true" else js "false")
  | .number literal => some literal
  | .string value => some value
  | .array items => (Json.itemTexts items).map fun texts => JsString.join texts (js ",")
  | .object members => if JsonMembers.overrides members then none else some (js "[object Object]")

/-- The texts of the items of an array, as `join` takes them. -/
def Json.itemTexts : List Json → Option (List JsString)
  | [] => some []
  | item :: items => do
    let text ← match item with
      | .null => some []
      | item => Json.toText item
    let texts ← Json.itemTexts items
    return text :: texts

end

/-- How `JSON.stringify` writes a unit of a string. -/
def escapeUnit (unit : UInt16) : JsString :=
  let n := unit.toNat
  if n = 8 then js "\\b" else if n = 9 then js "\\t" else if n = 10 then js "\\n"
  else if n = 12 then js "\\f" else if n = 13 then js "\\r"
  else if n = 34 then js "\\\"" else if n = 92 then js "\\\\"
  else if n < 32 ∨ 0xD800 ≤ n ∧ n < 0xE000 then
    js "\\u" ++ [hexDigit (n / 4096), hexDigit (n / 256 % 16), hexDigit (n / 16 % 16),
      hexDigit (n % 16)]
  else [unit]

/-- The units of a string, escaped; surrogates that make a pair stay. -/
def escapeUnits : JsString → JsString
  | [] => []
  | [unit] => escapeUnit unit
  | high :: low :: rest =>
    if 0xD800 ≤ high.toNat ∧ high.toNat < 0xDC00 ∧ 0xDC00 ≤ low.toNat ∧ low.toNat < 0xE000 then
      high :: low :: escapeUnits rest
    else escapeUnit high ++ escapeUnits (low :: rest)

/-- `JSON.stringify` of a string. -/
def quoteJson (text : JsString) : JsString := js "\"" ++ escapeUnits text ++ js "\""

mutual

/-- **`JSON.stringify(value)`.** -/
def Json.stringify : Json → JsString
  | .null => js "null"
  | .bool value => if value then js "true" else js "false"
  | .number literal => literal
  | .string value => quoteJson value
  | .array items => js "[" ++ JsString.join (Json.stringifyItems items) (js ",") ++ js "]"
  | .object members =>
    js "\x7b" ++ JsString.join (Json.stringifyMembers members) (js ",") ++ js "\x7d"

def Json.stringifyItems : List Json → List JsString
  | [] => []
  | item :: items => Json.stringify item :: Json.stringifyItems items

def Json.stringifyMembers : List (JsString × Json) → List JsString
  | [] => []
  | (key, value) :: members =>
    (quoteJson key ++ js ":" ++ Json.stringify value) :: Json.stringifyMembers members

end

/-! ## Placeholders -/

/-- The names that may stand between double braces in a template. -/
inductive Placeholder where
  | prompt
  | input
  | cwd
deriving DecidableEq

namespace Placeholder

/-- The name as it is written. -/
def name : Placeholder → JsString
  | prompt => js "prompt"
  | input => js "input"
  | cwd => js "cwd"

/-- The text of a placeholder, its name in two pairs of braces. -/
def text (key : Placeholder) : JsString := js "\x7b\x7b" ++ key.name ++ js "\x7d\x7d"

/-- The order of `Object.entries(placeholders)`. -/
def all : List Placeholder := [prompt, input, cwd]

/-- The values of the placeholders. -/
def values (promptValue inputValue cwdValue : JsString) : Placeholder → JsString
  | prompt => promptValue
  | input => inputValue
  | cwd => cwdValue

end Placeholder

/-- What `config.js` reads of the environment for `buildSpawnPlan`. -/
structure RunnerConfig where
  commandTemplate : JsString
  cwd : JsString
  useShell : Bool

/-- What is run if the environment names no template. -/
def DEFAULT_COMMAND_TEMPLATE : JsString :=
  js "codex exec \"" ++ Placeholder.prompt.text ++ js "\""

/-- `value || fallback`. -/
def orDefault (value : Option JsString) (fallback : JsString) : JsString :=
  match value with
  | none | some [] => fallback
  | some text => text

/-- The settings of `config.js` that a runner reads, with its defaults. -/
def RunnerConfig.ofEnv (processEnv : JsString → Option JsString) (processCwd : JsString) :
    RunnerConfig where
  commandTemplate := orDefault (processEnv (js "CODEX_COMMAND_TEMPLATE")) DEFAULT_COMMAND_TEMPLATE
  cwd := orDefault (processEnv (js "CODEX_EXEC_CWD")) processCwd
  useShell := orDefault (processEnv (js "CODEX_USE_SHELL")) (js "0") == js "1"

/-! ## `runner.js` -/

/-- `/\s/.test(ch)`. -/
def isSpace (ch : UInt16) : Bool := JsString.isBlank ch

/-- The loop of `tokenize`; `escaped` after a backslash, whose next unit is taken as it
is. -/
def tokenizeFrom (current : JsString) (inQuotes escaped : Bool) : JsString → List JsString
  | [] => if current = [] then [] else [current]
  | ch :: rest =>
    if escaped then tokenizeFrom (current ++ [ch]) inQuotes false rest
    else if ch = 92 then tokenizeFrom (current ++ [ch]) inQuotes true rest
    else if ch = 34 then tokenizeFrom (current ++ [ch]) (!inQuotes) false rest
    else if isSpace ch && !inQuotes then
      if current = [] then tokenizeFrom [] inQuotes false rest
      else current :: tokenizeFrom [] inQuotes false rest
    else tokenizeFrom (current ++ [ch]) inQuotes false rest

/-- The template cut at blanks outside of double quotes. -/
def tokenize (template : JsString) : List JsString := tokenizeFrom [] false false template

section Units

variable {α : Type} [CodeUnit α]

/-- Whether a unit is a double quote. -/
def isQuote (c : α) : Bool := CodeUnit.unit c == 34

/-- Whether a text starts and ends with a quote, and they are two. -/
def enclosed (token : List α) : Bool :=
  2 ≤ token.length && token.head?.any isQuote && token.getLast?.any isQuote

/-- A token in double quotes loses them. -/
def stripOuterQuotes (token : List α) : List α :=
  if enclosed token then token.tail.dropLast else token.filter fun c => !isQuote c

/-- `shellEscape`: quotes in the value are closed, escaped and opened again; the quote
after the backslash is the one that was found. -/
def shellEscape (value : List α) : List α :=
  CodeUnit.ofUnit 39 ::
    (value.flatMap fun c =>
      if CodeUnit.unit c = 39 then
        [CodeUnit.ofUnit 39, CodeUnit.ofUnit 92, c, CodeUnit.ofUnit 39]
      else [c]) ++
    [CodeUnit.ofUnit 39]

/-- The placeholders are replaced one after the other, in the text the one before has left. -/
def substitute (token : List α) (values : Placeholder → List α) : List α :=
  Placeholder.all.foldl (fun out key =>
    if occurrences key.text out = 0 then out else replaceAll key.text (values key) out) token

/-- One argument of direct mode. -/
def argument (values : Placeholder → List α) (token : List α) : List α :=
  stripOuterQuotes (substitute token values)

/-- The command of shell mode. -/
def shellCommand (values : Placeholder → List α) (template : List α) : List α :=
  Placeholder.all.foldl (fun command key =>
    replaceAll key.text (shellEscape (values key)) command) template

end Units

/-- What is handed to `spawn`. -/
structure SpawnPlan where
  shell : Bool
  command : JsString
  args : List JsString

/-- `this.input && this.input.prompt !== undefined ? String(this.input.prompt) : ''`. -/
def promptText : Json → Except JsString JsString
  | .object members =>
    match members.lookup (js "prompt") with
    | none => .ok []
    | some value =>
      match value.toText with
      | none => .error (js "Cannot convert object to primitive value")
      | some text => .ok text
  | _ => .ok []

/-- `JSON.stringify(this.input ?? \x7b\x7d)`. -/
def inputText : Json → JsString
  | .null => Json.stringify (.object [])
  | input => Json.stringify input

/-- The values of the placeholders for a task. -/
def placeholders (config : RunnerConfig) (input : Json) :
    Except JsString (Placeholder → JsString) := do
  let prompt ← promptText input
  return Placeholder.values prompt (inputText input) config.cwd

/-- **`buildSpawnPlan()`**: in a shell the template is one command with quoted values, and
otherwise its tokens are the program and its arguments. A template without tokens is refused. -/
def buildSpawnPlan (config : RunnerConfig) (input : Json) : Except JsString SpawnPlan := do
  let values ← placeholders config input
  if config.useShell then
    return { shell := true, command := shellCommand values config.commandTemplate, args := [] }
  match (tokenize config.commandTemplate).map (argument values) with
  | [] => throw (js "Empty command template: " ++ config.commandTemplate)
  | command :: args => return { shell := false, command, args }

/-- The arguments of the process, the program first. -/
def SpawnPlan.argv (plan : SpawnPlan) : List JsString := plan.command :: plan.args

/-! ## What the arguments are to be -/

section Verbatim

variable (values : Placeholder → JsString) (token : JsString)

/-- The pieces of a token. -/
def pieces (token : JsString) : List (Piece UInt16 Placeholder) :=
  scan Placeholder.text Placeholder.all token

/-- Values for some of the placeholders. -/
def someValues (keys : List Placeholder) (key : Placeholder) : Option JsString :=
  if key ∈ keys then some (values key) else none

/-- A token with some placeholders replaced at once. -/
def filledWith (keys : List Placeholder) (token : JsString) : JsString :=
  fill (someValues values keys) (pieces token)

/-- The same with the origins of its units. -/
def labelledWith (keys : List Placeholder) (token : JsString) : List (Labelled Placeholder) :=
  fill (fun key => (someValues values keys key).map (labelValue key))
    ((pieces token).map Piece.label)

/-- A quote of the template. -/
def templateQuote : Labelled Placeholder := (34, .template)

/-- **The argument a token stands for**: the placeholders replaced by their values, at
once, and the template's own quotes removed. -/
def verbatim : List (Labelled Placeholder) :=
  (labelledWith values Placeholder.all token).filter (· ≠ templateQuote)

/-- The quotes of the template are the first unit and the last one, and no others. -/
def OuterQuotes (filled : List (Labelled Placeholder)) : Prop :=
  filled.head? = some templateQuote ∧ filled.getLast? = some templateQuote ∧
    filled.count templateQuote = 2

/-- **The condition on a token**: no value that is filled in makes a placeholder, and its
quotes are around it all, or are none of the values'. -/
structure TokenSafe : Prop where
  input : occurrences Placeholder.input.text (filledWith values [.prompt] token) =
    occurrences Placeholder.input.text token
  cwd : occurrences Placeholder.cwd.text (filledWith values [.prompt, .input] token) =
    occurrences Placeholder.cwd.text token
  quotes : OuterQuotes (labelledWith values Placeholder.all token) ∨
    (∀ key, occurrences (Placeholder.text key) token ≠ 0 → 34 ∉ values key) ∧
      enclosed (filledWith values Placeholder.all token) = false

end Verbatim

/-- **What is promised of direct mode**: the arguments are what the tokens of the
template stand for, and so are their units, each from where it came. -/
def PassesVerbatim (config : RunnerConfig) (input : Json) : Prop :=
  ∃ values, placeholders config input = .ok values ∧
    (buildSpawnPlan config input).map SpawnPlan.argv =
      .ok ((tokenize config.commandTemplate).map fun token => plain (verbatim values token)) ∧
    ∀ token ∈ tokenize config.commandTemplate,
      argument (fun key => labelValue key (values key)) (labelledWith values [] token) =
        verbatim values token

/-! ## Tokens with values -/

/-- No placeholder begins inside another one, so a text is cut at them in one way. -/
theorem placeholders_apart : Apart Placeholder.text where
  nonempty key := by cases key <;> decide
  start key key' := by cases key <;> cases key' <;> decide
  inside key key' := by cases key <;> cases key' <;> decide

/-- The list is complete. -/
theorem Placeholder.mem_all (key : Placeholder) : key ∈ Placeholder.all := by
  cases key <;> decide

/-- A placeholder starts with a brace. -/
theorem startsWith_brace {α : Type} [CodeUnit α] {key : Placeholder} {c : α} {rest : List α}
    (h : startsWithWord key.text (c :: rest) = true) : CodeUnit.unit c = 123 := by
  have hbrace : key.text.head? = some 123 := by cases key <;> decide
  obtain ⟨tail, htail⟩ := startsWithWord_iff.mp h
  have hhead := congrArg List.head? htail
  rw [List.head?_append, hbrace, Option.some_or, units_cons, List.head?_cons,
    Option.some_inj] at hhead
  exact hhead.symm

section Tokens

variable {values : Placeholder → JsString} {token : JsString} {keys : List Placeholder}
  {key : Placeholder}

/-- The pieces of a token with labels are the pieces of the token. -/
theorem scanned_pieces : Scanned Placeholder.text ((pieces token).map Piece.label) :=
  scanned_label (scanned_scan placeholders_apart.nonempty Placeholder.mem_all token)

/-- Without its labels, a token with labelled values is the token with values. -/
theorem plain_labelledWith :
    plain (labelledWith values keys token) = filledWith values keys token :=
  plain_fill (pieces token)

/-- With no values nothing is filled in. -/
theorem filledWith_nil : filledWith values [] token = token :=
  fill_scan placeholders_apart.nonempty token

/-- Labels do not hide a word. -/
theorem occurrences_plain (word : JsString) (text : List (Labelled Placeholder)) :
    occurrences word (plain text) = occurrences word text :=
  relabels_fst.occurrences text

/-- What holes a token has. -/
theorem holes_pieces : holes key ((pieces token).map Piece.label) = occurrences key.text token := by
  have hplain : plain (fill (fun _ => none) ((pieces token).map Piece.label)) = token :=
    (@plain_fill Placeholder (fun _ => none) (pieces token)).trans
      (fill_scan placeholders_apart.nonempty token)
  rw [← occurrences_fill_none placeholders_apart scanned_pieces, ← occurrences_plain, hplain]

/-- A placeholder with an occurrence has a hole. -/
theorem occurrences_ne_zero : occurrences key.text token ≠ 0 ↔
    ∃ text, Piece.hole key text ∈ (pieces token).map Piece.label := by
  rw [← Nat.pos_iff_ne_zero, ← holes_pieces, holes_pos]

/-- One more placeholder with a value. -/
theorem update_someValues {β : Type} (g : Placeholder → JsString → β) :
    Function.update (fun key' => (someValues values keys key').map (g key')) key
        (some (g key (values key))) =
      fun key' => (someValues values (keys ++ [key]) key').map (g key') := by
  funext key'
  unfold someValues
  by_cases heq : key' = key
  · subst heq
    rw [Function.update_self, if_pos (by simp)]
    rfl
  · rw [Function.update_of_ne heq]
    simp [heq]

/-- A placeholder that is not among the ones replaced keeps its text. -/
theorem someValues_of_notMem {β : Type} (g : Placeholder → JsString → β) (hkey : key ∉ keys) :
    (someValues values keys key).map (g key) = none := by
  unfold someValues
  rw [if_neg hkey]
  rfl

/-- Replacing one more placeholder fills it in, if no other one came up. -/
theorem replaceAll_labelled (hkey : key ∉ keys)
    (hclean : occurrences key.text (filledWith values keys token) = occurrences key.text token) :
    replaceAll key.text (labelValue key (values key)) (labelledWith values keys token) =
      labelledWith values (keys ++ [key]) token := by
  rw [← plain_labelledWith, occurrences_plain, ← holes_pieces] at hclean
  refine (replaceAll_fill placeholders_apart (someValues_of_notMem labelValue hkey) _ scanned_pieces
    hclean).trans ?_
  rw [update_someValues]
  rfl

/-- `substitute` replaces the three placeholders in turn. -/
theorem substitute_eq {α : Type} [CodeUnit α] (token : List α) (values : Placeholder → List α) :
    substitute token values = replaceAll Placeholder.cwd.text (values .cwd)
      (replaceAll Placeholder.input.text (values .input)
        (replaceAll Placeholder.prompt.text (values .prompt) token)) := by
  have hstep : ∀ (key : Placeholder) (out : List α),
      (if occurrences key.text out = 0 then out else replaceAll key.text (values key) out) =
        replaceAll key.text (values key) out := by
    intro key out
    split
    · next hnone => exact (replaceAll_of_occurrences hnone).symm
    · rfl
  unfold substitute Placeholder.all
  simp only [List.foldl_cons, List.foldl_nil, hstep]

end Tokens

/-! ## The quotes -/

section Quotes

/-- What stands between two quotes. -/
theorem enclosed_iff {α : Type} [CodeUnit α] {text : List α} : enclosed text = true ↔
    ∃ first middle last, text = first :: (middle ++ [last]) ∧ isQuote first = true ∧
      isQuote last = true := by
  constructor
  · intro h
    unfold enclosed at h
    rw [Bool.and_eq_true, Bool.and_eq_true, decide_eq_true_iff] at h
    obtain ⟨⟨hlength, hfirst⟩, hlast⟩ := h
    match text, hlength with
    | first :: second :: rest, _ =>
      rcases List.eq_nil_or_concat (second :: rest) with hnil | ⟨middle, last, heq⟩
      · cases hnil
      · rw [heq, List.concat_eq_append] at hfirst hlast ⊢
        refine ⟨first, middle, last, rfl, hfirst, ?_⟩
        rwa [← List.cons_append, List.getLast?_concat] at hlast
  · rintro ⟨first, middle, last, rfl, hfirst, hlast⟩
    unfold enclosed
    rw [← List.cons_append, List.getLast?_concat, List.cons_append, List.head?_cons,
      Option.any_some, Option.any_some, hfirst, hlast]
    simp

/-- The quote of the template is one that `stripOuterQuotes` looks for. -/
theorem isQuote_templateQuote : isQuote templateQuote = true := rfl

/-- Removing all quotes removes the template's only if there are no others. -/
theorem filter_quotes_iff {filled : List (Labelled Placeholder)} :
    filled.filter (fun c => !isQuote c) = filled.filter (· ≠ templateQuote) ↔
      ∀ c ∈ filled, isQuote c = true → c = templateQuote := by
  constructor
  · intro heq c hmem hquote
    by_contra hnot
    have hkept : c ∈ filled.filter (· ≠ templateQuote) :=
      List.mem_filter.mpr ⟨hmem, decide_eq_true hnot⟩
    rw [← heq, List.mem_filter, hquote] at hkept
    exact nomatch hkept.2
  · intro hown
    refine List.filter_congr fun c hmem => ?_
    by_cases hquote : isQuote c = true
    · rw [hown c hmem hquote]
      rfl
    · have hnot : c ≠ templateQuote := by
        rintro rfl
        exact hquote isQuote_templateQuote
      rw [Bool.not_eq_true] at hquote
      rw [hquote, decide_eq_true hnot]
      rfl

/-- **Removing the outer quotes, or all of them, removes the template's only**, where these
are the outer ones, or all there are. -/
theorem stripOuterQuotes_eq_iff {filled : List (Labelled Placeholder)} :
    stripOuterQuotes filled = filled.filter (· ≠ templateQuote) ↔ OuterQuotes filled ∨
      (∀ c ∈ filled, isQuote c = true → c = templateQuote) ∧ enclosed filled = false := by
  unfold stripOuterQuotes OuterQuotes
  cases henclosed : enclosed filled with
  | true =>
      obtain ⟨first, middle, last, rfl, hfirst, hlast⟩ := enclosed_iff.mp henclosed
      rw [if_pos rfl, List.tail_cons, List.dropLast_concat]
      have hends : (first :: (middle ++ [last])).getLast? = some last := by
        rw [← List.cons_append, List.getLast?_concat]
      rw [hends, List.head?_cons, Option.some_inj, Option.some_inj]
      have hcount : (first :: (middle ++ [last])).count templateQuote =
          (if first = templateQuote then 1 else 0) + middle.count templateQuote +
            (if last = templateQuote then 1 else 0) := by
        rw [List.count_cons, List.count_append, List.count_singleton]
        simp only [beq_iff_eq]
        omega
      constructor
      · intro heq
        left
        -- the units that are no quotes of the template are all still there
        have hothers : middle.countP (· ≠ templateQuote) =
            (first :: (middle ++ [last])).countP (· ≠ templateQuote) := by
          conv_lhs => rw [heq]
          rw [List.countP_filter]
          simp only [Bool.and_self]
        rw [List.countP_cons, List.countP_append, List.countP_singleton] at hothers
        have hnone : middle.count templateQuote = 0 := by
          rw [heq, List.count_eq_zero]
          exact fun hmem => (of_decide_eq_true (List.mem_filter.mp hmem).2) rfl
        obtain ⟨hfirst, hlast⟩ : first = templateQuote ∧ last = templateQuote := by
          constructor
          · by_contra hne
            rw [if_pos (decide_eq_true hne)] at hothers
            omega
          · by_contra hne
            rw [if_pos (decide_eq_true hne)] at hothers
            omega
        rw [hcount, hnone, if_pos hfirst, if_pos hlast]
        exact ⟨hfirst, hlast, rfl⟩
      · rintro (⟨hfirst, hlast, htwo⟩ | ⟨-, hnot⟩)
        · rw [hcount, if_pos hfirst, if_pos hlast] at htwo
          have hnone : templateQuote ∉ middle := List.count_eq_zero.mp (by omega)
          rw [hfirst, hlast, List.filter_cons_of_neg (by simp), List.filter_append,
            List.filter_cons_of_neg (by simp), List.filter_nil, List.append_nil]
          refine (List.filter_eq_self.mpr fun c hmem => decide_eq_true ?_).symm
          rintro rfl
          exact hnone hmem
        · cases hnot
  | false =>
      rw [if_neg nofun, filter_quotes_iff]
      refine ⟨fun h => .inr ⟨h, rfl⟩, fun h => ?_⟩
      rcases h with ⟨hfirst, hlast, htwo⟩ | ⟨hown, -⟩
      · -- two quotes at the ends enclose the text
        have hlength : 2 ≤ filled.length := htwo ▸ List.count_le_length
        unfold enclosed at henclosed
        rw [hfirst, hlast, decide_eq_true hlength] at henclosed
        cases henclosed
      · exact hown

end Quotes

/-! ## Tokens that are safe -/

/-- The units that are counted: those of the template, and of values that were filled in
already, but for the quotes. -/
def counted (keys : List Placeholder) (c : Labelled Placeholder) : ℕ :=
  if isQuote c then 0
  else match c.2 with
    | .template => 1
    | .value key => if key ∈ keys then 1 else 0
    | .placeholder | .program => 0

section Safe

variable {values : Placeholder → JsString} {token : JsString} {keys : List Placeholder}
  {key : Placeholder}

/-- A unit of a value weighs one, unless it is a quote: quotes are what may be lost. -/
theorem counted_value (unit : UInt16) : counted keys (unit, .value key) =
    if isQuote ((unit, .value key) : Labelled Placeholder) then 0
    else if key ∈ keys then 1 else 0 := rfl

/-- Quotes weigh nothing. -/
theorem weight_filter {p : Labelled Placeholder → Bool}
    (hp : ∀ c, p c = false → isQuote c = true) : ∀ text : List (Labelled Placeholder),
    weight (counted keys) (text.filter p) = weight (counted keys) text
  | [] => rfl
  | c :: text => by
      cases hc : p c with
      | true => rw [List.filter_cons_of_pos hc, weight_cons, weight_cons, weight_filter hp text]
      | false =>
          have hzero : counted keys c = 0 := by
            unfold counted
            rw [if_pos (hp c hc)]
          rw [List.filter_cons_of_neg (by rw [hc]; exact nofun), weight_cons, hzero,
            weight_filter hp text, Nat.zero_add]

/-- Stripping loses quotes only, so the weight stays. -/
theorem weight_stripOuterQuotes (text : List (Labelled Placeholder)) :
    weight (counted keys) (stripOuterQuotes text) = weight (counted keys) text := by
  unfold stripOuterQuotes
  cases henclosed : enclosed text with
  | true =>
      obtain ⟨first, middle, last, rfl, hfirst, hlast⟩ := enclosed_iff.mp henclosed
      have hzero : ∀ c : Labelled Placeholder, isQuote c = true → counted keys c = 0 := by
        intro c hc
        unfold counted
        rw [if_pos hc]
      rw [if_pos rfl, List.tail_cons, List.dropLast_concat, weight_cons, weight_append, weight_cons,
        hzero first hfirst, hzero last hlast]
      simp
  | false =>
      rw [if_neg nofun]
      exact weight_filter (fun c hc => by simpa using hc) text

/-- A value that was not filled in yet does not count. -/
theorem weight_labelValue (hkey : key ∉ keys) (value : JsString) :
    weight (counted keys) (labelValue key value) = 0 := by
  refine weight_eq_zero fun c hc => ?_
  obtain ⟨unit, -, rfl⟩ := List.mem_map.mp hc
  rw [counted_value, if_neg hkey]
  split <;> rfl

/-- Placeholders do not count. -/
theorem weight_hole {text : List (Labelled Placeholder)}
    (h : Piece.hole key text ∈ (pieces token).map Piece.label) :
    weight (counted keys) text = 0 := by
  obtain ⟨piece, -, hpiece⟩ := List.mem_map.mp h
  cases piece with
  | unit c => cases hpiece
  | hole key' text' =>
      cases hpiece
      refine weight_eq_zero fun c hc => ?_
      obtain ⟨unit, -, rfl⟩ := List.mem_map.mp hc
      unfold counted
      split <;> rfl

/-- What is filled in later does not count. -/
theorem weight_labelledWith : weight (counted keys) (labelledWith values Placeholder.all token) =
    weight (counted keys) (labelledWith values keys token) := by
  refine weight_fill_congr fun key text hhole => ?_
  unfold someValues
  rw [if_pos key.mem_all]
  by_cases hkey : key ∈ keys
  · rw [if_pos hkey]
  · rw [if_neg hkey]
    exact (weight_labelValue hkey _).trans (weight_hole hhole).symm

/-- A placeholder begins with a brace, which is no quote. -/
theorem startsWith_text {c : Labelled Placeholder} {rest : List (Labelled Placeholder)}
    (h : startsWithWord key.text (c :: rest) = true) : isQuote c = false := by
  unfold isQuote
  rw [startsWith_brace h]
  rfl

/-- **Where replacing a placeholder loses nothing that counts, no other one came up.** -/
theorem clean_of_weight (hkey : key ∉ keys)
    (hweight : weight (counted keys) (replaceAll key.text (labelValue key (values key))
      (labelledWith values keys token)) =
        weight (counted keys) (labelledWith values keys token)) :
    occurrences key.text (filledWith values keys token) = occurrences key.text token := by
  rw [← plain_labelledWith, occurrences_plain, ← holes_pieces]
  refine occurrences_of_weight placeholders_apart (someValues_of_notMem labelValue hkey)
    (weight_labelValue hkey _) ?_ scanned_pieces
      (fun key text hhole => weight_hole hhole) ?_ hweight
  · intro key' text htext c hc rest hstart
    unfold someValues at htext
    by_cases hkey' : key' ∈ keys
    · rw [if_pos hkey'] at htext
      cases htext
      obtain ⟨unit, -, rfl⟩ := List.mem_map.mp hc
      rw [counted_value, startsWith_text hstart, if_neg nofun, if_pos hkey']
      exact Nat.one_pos
    · rw [if_neg hkey'] at htext
      cases htext
  · intro c back hback hstart
    obtain ⟨piece, -, hpiece⟩ := List.mem_map.mp (hback.subset List.mem_cons_self)
    cases piece with
    | unit c =>
        cases hpiece
        unfold counted
        rw [startsWith_text hstart, if_neg nofun]
        exact Nat.one_pos
    | hole key' text' => cases hpiece

/-- No quote comes from the text of a placeholder. -/
theorem mem_labelledWith_all {c : Labelled Placeholder} :
    c ∈ labelledWith values Placeholder.all token ↔
      Piece.unit c ∈ (pieces token).map Piece.label ∨
      ∃ key, occurrences (Placeholder.text key) token ≠ 0 ∧ c ∈ labelValue key (values key) := by
  unfold labelledWith
  rw [mem_fill]
  refine or_congr_right ⟨?_, ?_⟩
  · rintro ⟨key, text, hhole, hmem⟩
    refine ⟨key, occurrences_ne_zero.mpr ⟨text, hhole⟩, ?_⟩
    rwa [someValues, if_pos key.mem_all] at hmem
  · rintro ⟨key, hoccurs, hmem⟩
    obtain ⟨text, hhole⟩ := occurrences_ne_zero.mp hoccurs
    exact ⟨key, text, hhole, by rwa [someValues, if_pos key.mem_all]⟩

/-- The quotes are the template's where no value has one. -/
theorem own_quotes_iff :
    (∀ c ∈ labelledWith values Placeholder.all token, isQuote c = true → c = templateQuote) ↔
      ∀ key, occurrences (Placeholder.text key) token ≠ 0 → 34 ∉ values key := by
  constructor
  · intro hown key hoccurs hmem
    have hlabel : ((34, .value key) : Labelled Placeholder) ∈ labelValue key (values key) :=
      List.mem_map.mpr ⟨34, hmem, rfl⟩
    exact nomatch hown _ (mem_labelledWith_all.mpr (.inr ⟨key, hoccurs, hlabel⟩)) rfl
  · intro hfree c hc hquote
    have hunit : c.1 = 34 := beq_iff_eq.mp hquote
    rcases mem_labelledWith_all.mp hc with hpiece | ⟨key, hoccurs, hmem⟩
    · obtain ⟨piece, -, hpiece⟩ := List.mem_map.mp hpiece
      cases piece with
      | unit d =>
          cases hpiece
          exact congrArg (·, Source.template) hunit
      | hole key' text' => cases hpiece
    · obtain ⟨unit, hvalue, rfl⟩ := List.mem_map.mp hmem
      obtain rfl : unit = 34 := hunit
      exact absurd hvalue (hfree key hoccurs)

/-- Whether a token is enclosed in quotes does not depend on the labels. -/
theorem enclosed_plain (text : List (Labelled Placeholder)) :
    enclosed (plain text) = enclosed text := by
  unfold enclosed plain
  rw [List.length_map, List.head?_map, List.getLast?_map]
  cases text.head? <;> cases text.getLast? <;> rfl

/-- The three steps of `substitute`, where no placeholder comes up. -/
theorem replaceAll_prompt : replaceAll Placeholder.prompt.text (labelValue .prompt (values .prompt))
    (labelledWith values [] token) = labelledWith values [.prompt] token :=
  replaceAll_labelled nofun (by rw [filledWith_nil])

/-- The second replacement: if no value has brought in another `{{input}}`, it fills in the ones of
the template. -/
theorem replaceAll_input
    (h : occurrences Placeholder.input.text (filledWith values [.prompt] token) =
      occurrences Placeholder.input.text token) :
    replaceAll Placeholder.input.text (labelValue .input (values .input))
      (labelledWith values [.prompt] token) = labelledWith values [.prompt, .input] token :=
  replaceAll_labelled (by decide) h

/-- The third one, in the same way. -/
theorem replaceAll_cwd
    (h : occurrences Placeholder.cwd.text (filledWith values [.prompt, .input] token) =
      occurrences Placeholder.cwd.text token) :
    replaceAll Placeholder.cwd.text (labelValue .cwd (values .cwd))
      (labelledWith values [.prompt, .input] token) = labelledWith values Placeholder.all token :=
  replaceAll_labelled (by decide) h

/-- What the quotes of a token have to be. -/
theorem stripOuterQuotes_labelled :
    stripOuterQuotes (labelledWith values Placeholder.all token) = verbatim values token ↔
      OuterQuotes (labelledWith values Placeholder.all token) ∨
      (∀ key, occurrences (Placeholder.text key) token ≠ 0 → 34 ∉ values key) ∧
        enclosed (filledWith values Placeholder.all token) = false := by
  refine stripOuterQuotes_eq_iff.trans ?_
  rw [own_quotes_iff, ← enclosed_plain, plain_labelledWith]

/-- **The argument of a token is what the token stands for exactly if the token is safe.** -/
theorem argument_eq_verbatim_iff :
    argument (fun key => labelValue key (values key)) (labelledWith values [] token) =
      verbatim values token ↔ TokenSafe values token := by
  unfold argument
  rw [substitute_eq, replaceAll_prompt]
  constructor
  · intro heq
    -- what counts is there in the end, so it was there after each value
    have hkept : ∀ keys, weight (counted keys) (labelledWith values keys token) =
        weight (counted keys) (replaceAll Placeholder.cwd.text (labelValue .cwd (values .cwd))
          (replaceAll Placeholder.input.text (labelValue .input (values .input))
            (labelledWith values [.prompt] token))) := by
      intro keys
      rw [← weight_labelledWith, ← weight_stripOuterQuotes (replaceAll _ _ _), heq]
      exact (weight_filter (fun c hc => by
        rw [of_not_not (of_decide_eq_false hc)]; rfl) _).symm
    have hinput : occurrences Placeholder.input.text (filledWith values [.prompt] token) =
        occurrences Placeholder.input.text token :=
      clean_of_weight (by decide) (le_antisymm
        (weight_replaceFrom_le (weight_labelValue (by decide) _) 0 _)
        ((hkept [.prompt]).le.trans (weight_replaceFrom_le (weight_labelValue (by decide) _) 0 _)))
    rw [replaceAll_input hinput] at heq hkept
    have hcwd : occurrences Placeholder.cwd.text (filledWith values [.prompt, .input] token) =
        occurrences Placeholder.cwd.text token :=
      clean_of_weight (by decide) (hkept [.prompt, .input]).symm
    rw [replaceAll_cwd hcwd] at heq
    exact ⟨hinput, hcwd, stripOuterQuotes_labelled.mp heq⟩
  · rintro ⟨hinput, hcwd, hquotes⟩
    rw [replaceAll_input hinput, replaceAll_cwd hcwd]
    exact stripOuterQuotes_labelled.mpr hquotes

/-! ## Labels and strings -/

/-- Stripping does not look at the labels. -/
theorem stripOuterQuotes_plain (text : List (Labelled Placeholder)) :
    stripOuterQuotes (plain text) = plain (stripOuterQuotes text) := by
  unfold stripOuterQuotes
  rw [enclosed_plain]
  split
  · unfold plain
    rw [List.map_dropLast, List.map_tail]
  · unfold plain
    rw [List.filter_map]
    rfl

/-- **An argument is the labelled one without its labels.** -/
theorem argument_plain : argument values token =
    plain (argument (fun key => labelValue key (values key)) (labelledWith values [] token)) := by
  have htoken : token = plain (labelledWith values [] token) := by
    rw [plain_labelledWith, filledWith_nil]
  have hvalue : ∀ key, values key = plain (labelValue key (values key)) :=
    fun key => (plain_labelValue key (values key)).symm
  unfold argument
  rw [← stripOuterQuotes_plain, substitute_eq, substitute_eq]
  congr 1
  conv_lhs => rw [hvalue .prompt, hvalue .input, hvalue .cwd, htoken]
  unfold plain
  rw [relabels_fst.replaceAll, relabels_fst.replaceAll, relabels_fst.replaceAll]

end Safe

/-! ## Direct mode -/

variable {config : RunnerConfig} {input : Json}

/-- The arguments of direct mode. -/
theorem buildSpawnPlan_direct {values : Placeholder → JsString}
    (hdirect : config.useShell = false) (hvalues : placeholders config input = .ok values) :
    (buildSpawnPlan config input).map SpawnPlan.argv =
      if tokenize config.commandTemplate = [] then
        .error (js "Empty command template: " ++ config.commandTemplate)
      else .ok ((tokenize config.commandTemplate).map (argument values)) := by
  have hplan : buildSpawnPlan config input =
      match (tokenize config.commandTemplate).map (argument values) with
      | [] => .error (js "Empty command template: " ++ config.commandTemplate)
      | command :: args => .ok { shell := false, command, args } := by
    unfold buildSpawnPlan
    rw [hvalues]
    change (if config.useShell = true then _ else _) = _
    rw [hdirect, if_neg nofun]
    rfl
  rw [hplan]
  cases tokenize config.commandTemplate with
  | nil => rfl
  | cons token tokens => rfl

/-- **Direct mode passes the values as they are exactly if the template has tokens, and
all of them are safe.** -/
theorem buildSpawnPlan_verbatim_iff (hdirect : config.useShell = false) :
    PassesVerbatim config input ↔ ∃ values, placeholders config input = .ok values ∧
      tokenize config.commandTemplate ≠ [] ∧
      ∀ token ∈ tokenize config.commandTemplate, TokenSafe values token := by
  refine exists_congr fun values => and_congr_right fun hvalues => ?_
  rw [buildSpawnPlan_direct hdirect hvalues]
  constructor
  · rintro ⟨hplan, htokens⟩
    refine ⟨fun hnone => ?_, fun token htoken => argument_eq_verbatim_iff.mp (htokens token htoken)⟩
    rw [if_pos hnone] at hplan
    cases hplan
  · rintro ⟨hsome, hsafe⟩
    have htokens := fun token htoken => argument_eq_verbatim_iff.mpr (hsafe token htoken)
    refine ⟨?_, htokens⟩
    rw [if_neg hsome]
    refine congrArg Except.ok (List.map_congr_left fun token htoken => ?_)
    rw [argument_plain, htokens token htoken]

/-! ## The default template -/

/-- The third token of the default template. -/
def promptToken : JsString := js "\"" ++ Placeholder.prompt.text ++ js "\""

/-- The default template has three tokens, and the quotes stay in the third. -/
theorem tokenize_default : tokenize DEFAULT_COMMAND_TEMPLATE =
    [js "codex", js "exec", promptToken] := by
  decide

section Words

variable {values : Placeholder → JsString} {keys : List Placeholder} {token : JsString}

/-- Nothing is filled in where there are no placeholders. -/
theorem filledWith_units (hunits : pieces token = token.map .unit) :
    filledWith values keys token = token := by
  have hfill : ∀ (value : Placeholder → Option JsString) (text : JsString),
      fill value (text.map .unit) = text := by
    intro value text
    induction text with
    | nil => rfl
    | cons c text ih => exact congrArg (c :: ·) ih
  unfold filledWith
  rw [hunits, hfill]

/-- A token of units that are no quotes is safe. -/
theorem tokenSafe_units (hunits : pieces token = token.map .unit) (hquotes : 34 ∉ token) :
    TokenSafe values token := by
  refine ⟨by rw [filledWith_units hunits], by rw [filledWith_units hunits],
    .inr ⟨fun key hoccurs => ?_, ?_⟩⟩
  · obtain ⟨text, hhole⟩ := occurrences_ne_zero.mp hoccurs
    rw [hunits, List.map_map] at hhole
    obtain ⟨c, -, hc⟩ := List.mem_map.mp hhole
    cases hc
  · rw [filledWith_units hunits, ← Bool.not_eq_true]
    intro henclosed
    obtain ⟨first, middle, last, rfl, hfirst, -⟩ := enclosed_iff.mp henclosed
    rw [← show first = 34 from beq_iff_eq.mp hfirst] at hquotes
    exact hquotes List.mem_cons_self

/-- It stands for itself. -/
theorem verbatim_units (hunits : pieces token = token.map .unit) (hquotes : 34 ∉ token) :
    plain (verbatim values token) = token := by
  have hplain : plain (labelledWith values Placeholder.all token) = token := by
    rw [plain_labelledWith, filledWith_units hunits]
  unfold verbatim
  rw [List.filter_eq_self.mpr, hplain]
  intro c hc
  refine decide_eq_true ?_
  rintro rfl
  exact hquotes (hplain ▸ List.mem_map.mpr ⟨_, hc, rfl⟩)

end Words

section Default

variable {values : Placeholder → JsString} {keys : List Placeholder}

/-- That token is a quote, the prompt and a quote. -/
theorem pieces_promptToken :
    pieces promptToken = [.unit 34, .hole .prompt Placeholder.prompt.text, .unit 34] := by
  decide

/-- With its value, it is the prompt in quotes. -/
theorem filledWith_promptToken (hprompt : Placeholder.prompt ∈ keys) :
    filledWith values keys promptToken = 34 :: (values .prompt ++ [34]) := by
  unfold filledWith someValues
  rw [pieces_promptToken, fill, fill, if_pos hprompt]
  rfl

/-- What occurs between the quotes. -/
theorem occurrences_quoted {key : Placeholder} (value : JsString) :
    occurrences key.text (34 :: (value ++ [34])) = occurrences key.text value := by
  have hquote : CodeUnit.unit (34 : UInt16) ∉ key.text := by cases key <;> decide
  have hword := placeholders_apart.nonempty key
  have hfirst := occurrences_append_cons hword hquote [] (value ++ [34])
  rw [List.nil_append] at hfirst
  rw [hfirst, occurrences_append_cons hword hquote value []]
  exact Nat.zero_add _

/-- Between its quotes stands the prompt. -/
theorem labelledWith_promptToken : labelledWith values Placeholder.all promptToken =
    templateQuote :: (labelValue .prompt (values .prompt) ++ [templateQuote]) := by
  unfold labelledWith someValues
  rw [pieces_promptToken, List.map_cons, List.map_cons, List.map_cons, List.map_nil]
  rfl

/-- A unit of a value is not one of the template, even if both are quotes. -/
theorem templateQuote_notMem (key : Placeholder) (value : JsString) :
    templateQuote ∉ labelValue key value := by
  intro hmem
  obtain ⟨unit, -, heq⟩ := List.mem_map.mp hmem
  cases heq

/-- What the process is to get is the prompt. -/
theorem verbatim_promptToken : plain (verbatim values promptToken) = values .prompt := by
  unfold verbatim
  rw [labelledWith_promptToken, List.filter_cons_of_neg (by simp), List.filter_append,
    List.filter_cons_of_neg (by simp), List.filter_nil, List.append_nil, List.filter_eq_self.mpr,
    plain_labelValue]
  intro c hc
  refine decide_eq_true ?_
  rintro rfl
  exact templateQuote_notMem _ _ hc

/-- **With the default template** the prompt arrives as it is unless it contains a later
placeholder. -/
theorem tokenSafe_promptToken : TokenSafe values promptToken ↔
    occurrences Placeholder.input.text (values .prompt) = 0 ∧
      occurrences Placeholder.cwd.text (values .prompt) = 0 := by
  have hinput : occurrences Placeholder.input.text promptToken = 0 := by decide
  have hcwd : occurrences Placeholder.cwd.text promptToken = 0 := by decide
  constructor
  · rintro ⟨hfirst, hsecond, -⟩
    rw [filledWith_promptToken (by decide), occurrences_quoted, hinput] at hfirst
    rw [filledWith_promptToken (by decide), occurrences_quoted, hcwd] at hsecond
    exact ⟨hfirst, hsecond⟩
  · rintro ⟨hfirst, hsecond⟩
    refine ⟨?_, ?_, .inl ?_⟩
    · rw [filledWith_promptToken (by decide), occurrences_quoted, hinput, hfirst]
    · rw [filledWith_promptToken (by decide), occurrences_quoted, hcwd, hsecond]
    · unfold OuterQuotes
      rw [labelledWith_promptToken, ← List.cons_append, List.getLast?_concat, List.cons_append,
        List.count_cons_self, List.count_append, List.count_eq_zero.mpr (templateQuote_notMem _ _),
        List.count_singleton_self]
      exact ⟨rfl, rfl, rfl⟩

end Default

/-- **Direct mode passes the values as they are exactly if the template has tokens and all
of them are safe**; with the default template the process is then `codex exec` with the
prompt, and the tokens are safe exactly if the prompt has no placeholder in it. -/
theorem direct_mode_verbatim_iff (hdirect : config.useShell = false) :
    (PassesVerbatim config input ↔ ∃ values, placeholders config input = .ok values ∧
      tokenize config.commandTemplate ≠ [] ∧
      ∀ token ∈ tokenize config.commandTemplate, TokenSafe values token) ∧
    (config.commandTemplate = DEFAULT_COMMAND_TEMPLATE →
      ∀ prompt, promptText input = .ok prompt →
        (PassesVerbatim config input ↔ occurrences Placeholder.input.text prompt = 0 ∧
          occurrences Placeholder.cwd.text prompt = 0) ∧
        (PassesVerbatim config input → (buildSpawnPlan config input).map SpawnPlan.argv =
          .ok [js "codex", js "exec", prompt])) := by
  refine ⟨buildSpawnPlan_verbatim_iff hdirect, fun hdefault prompt hprompt => ?_⟩
  have hvalues : placeholders config input =
      .ok (Placeholder.values prompt (inputText input) config.cwd) := by
    unfold placeholders
    rw [hprompt]
    rfl
  have htokens : tokenize config.commandTemplate = [js "codex", js "exec", promptToken] := by
    rw [hdefault]
    exact tokenize_default
  constructor
  · rw [buildSpawnPlan_verbatim_iff hdirect, htokens]
    constructor
    · rintro ⟨values, hsame, -, hsafe⟩
      rw [hvalues] at hsame
      cases hsame
      exact tokenSafe_promptToken.mp (hsafe promptToken (by simp))
    · intro hprompt
      refine ⟨_, hvalues, List.cons_ne_nil _ _, fun token htoken => ?_⟩
      simp only [List.mem_cons, List.not_mem_nil, or_false] at htoken
      rcases htoken with rfl | rfl | rfl
      · exact tokenSafe_units (by decide) (by decide)
      · exact tokenSafe_units (by decide) (by decide)
      · exact tokenSafe_promptToken.mpr hprompt
  · rintro ⟨values, hsame, hplan, -⟩
    rw [hvalues] at hsame
    cases hsame
    rw [hplan, htokens, List.map_cons, List.map_cons, List.map_cons, List.map_nil,
      verbatim_units (by decide) (by decide),
      verbatim_units (by decide) (by decide), verbatim_promptToken]
    rfl

/-- The default configuration, with the work directory `/w`. -/
def RunnerConfig.sample : RunnerConfig := .ofEnv (fun _ => none) (js "/w")

/-- The input of a task with a prompt. -/
def promptInput (prompt : JsString) : Json := .object [(js "prompt", .string prompt)]

/-- A prompt with quotes. -/
theorem direct_mode_verbatim_prompt :
    PassesVerbatim .sample (promptInput (js "say \"hi\"")) ∧
      (buildSpawnPlan .sample (promptInput (js "say \"hi\""))).map SpawnPlan.argv =
        .ok [js "codex", js "exec", js "say \"hi\""] := by
  obtain ⟨hiff, hargv⟩ :=
    (@direct_mode_verbatim_iff .sample (promptInput (js "say \"hi\"")) (by decide)).2
      (by decide) (js "say \"hi\"") (by decide)
  have hpasses := hiff.mpr (by decide)
  exact ⟨hpasses, hargv hpasses⟩

/-- The same where the template has no quotes around the placeholder. -/
def RunnerConfig.bare : RunnerConfig :=
  { RunnerConfig.sample with commandTemplate := Placeholder.prompt.text }

/-- **A prompt with a placeholder in it is expanded, and without the quotes of the template a
prompt loses its own.** -/
theorem direct_mode_not_verbatim :
    (buildSpawnPlan .sample (promptInput Placeholder.cwd.text)).map SpawnPlan.argv =
        .ok [js "codex", js "exec", js "/w"] ∧
      ¬PassesVerbatim .sample (promptInput Placeholder.cwd.text) ∧
      (buildSpawnPlan .bare (promptInput (js "say \"hi\""))).map SpawnPlan.argv =
        .ok [js "say hi"] ∧
      ¬PassesVerbatim .bare (promptInput (js "say \"hi\"")) := by
  have hexpanded : (buildSpawnPlan .sample (promptInput Placeholder.cwd.text)).map SpawnPlan.argv =
      .ok [js "codex", js "exec", js "/w"] := by decide
  have hstripped : (buildSpawnPlan .bare (promptInput (js "say \"hi\""))).map SpawnPlan.argv =
      .ok [js "say hi"] := by decide
  refine ⟨hexpanded, ?_, hstripped, ?_⟩
  · rintro ⟨values, hvalues, hargv, -⟩
    cases hvalues
    rw [hexpanded] at hargv
    exact absurd hargv (by decide)
  · rintro ⟨values, hvalues, hargv, -⟩
    cases hvalues
    rw [hstripped] at hargv
    exact absurd hargv (by decide)

end CodeCaller
