import CodeCaller.Daemon.SpawnPlan
import CodeCaller.Library.ShellWords

/-!
# `buildSpawnPlan` in shell mode

With `useShell` on every placeholder of the template is replaced by its value in single quotes,
wherever it stands.  `shell_mode_literal_iff` says for which templates and values the shell then
reads the words of the template with the values as literal text.

### The pieces

* `Library.ShellWords` reads a command into words of labelled units, each with a mark that says
  whether it is quoted.
* `read_shellEscape`, `shellEscape_inverted`: where a value in its quotes is read as literal text:
  outside of quotes, in the command or in a subshell.
* `read_single_lost`, `read_shellEscape_lost`: and where it is not.  Inside of double quotes the
  single quotes are text themselves, and what stands between them is read as the shell reads double
  quotes; inside of single quotes the value gets out of them.
* `read_fill_iff`: for a whole template, by induction on its placeholders.  The converse needs that
  what is lost at one placeholder is not made good by another, which is a matter of weights: each
  unit of the command counts once in what is read of it.
* `shell_mode_literal_iff`: with the replacement of the placeholders, one key after the other.

The default template has its placeholder in double quotes, so a value with `$(...)` in it is run.
-/

namespace CodeCaller

open Async Shell

section Escape

variable {α : Type} [CodeUnit α] {s : Shell.State α} {c : α} {value rest : List α}

/-- What stands between the outer quotes. -/
def escapeBody (value : List α) : List α :=
  value.flatMap fun c =>
    if CodeUnit.unit c = 39 then [CodeUnit.ofUnit 39, CodeUnit.ofUnit 92, c, CodeUnit.ofUnit 39]
    else [c]

/-- Unit by unit: a single quote closes the quotes, is escaped and opens them again. -/
theorem escapeBody_cons : escapeBody (c :: value) =
    (if CodeUnit.unit c = 39 then
      [CodeUnit.ofUnit 39, CodeUnit.ofUnit 92, c, CodeUnit.ofUnit 39] else [c]) ++
    escapeBody value := rfl

/-- The body between single quotes. -/
theorem shellEscape_eq : shellEscape value =
    CodeUnit.ofUnit 39 :: (escapeBody value ++ [CodeUnit.ofUnit 39]) := rfl

/-- The quote that is written is a quote to the shell, -/
theorem kind_ofUnit_quote : Shell.kind (CodeUnit.ofUnit 39 : α) = .single := by
  unfold Shell.kind
  rw [CodeUnit.unit_ofUnit]
  rfl

/-- and the backslash a backslash. -/
theorem kind_ofUnit_backslash : Shell.kind (CodeUnit.ofUnit 92 : α) = .backslash := by
  unfold Shell.kind
  rw [CodeUnit.unit_ofUnit]
  rfl

/-- The quote is the only unit that ends single quotes. -/
theorem kind_single_iff : Shell.kind c = .single ↔ CodeUnit.unit c = 39 := by
  unfold Shell.kind
  rw [← UInt16.toNat_inj, show (39 : UInt16).toNat = 39 from rfl]
  generalize (CodeUnit.unit c).toNat = n
  split <;> simp_all

/-! ## What is read of a value in quotes -/

/-- **The value in its quotes is literal.** -/
theorem read_escapeBody {top : Frame} {below : List Frame} (htop : top.unquotes = true)
    (hbegun : top.begun = top) : ∀ value : List α,
    Shell.read ⟨top, .single, below⟩ (escapeBody value) = (value.map fun c => .text c true) ∧
      Shell.after ⟨top, .single, below⟩ (escapeBody value) = ⟨top, .single, below⟩
  | [] => ⟨rfl, rfl⟩
  | c :: value => by
      obtain ⟨hread, hafter⟩ := read_escapeBody htop hbegun value
      have hbeginning : (top.beginning : List (Item α)) = [] := by
        rw [← hbegun, beginning_begun]
      rw [escapeBody_cons, Shell.read_append, Shell.after_append]
      split
      · next hc =>
          -- the quote is closed, stands after a backslash, and is opened again
          have hkind := kind_single_iff.mpr hc
          have hclose : State.step ⟨top, .single, below⟩ (CodeUnit.ofUnit 39 : α) =
            (⟨top, .plain, below⟩, []) := step_single_quote htop rfl kind_ofUnit_quote
          have hslash : State.step ⟨top, .plain, below⟩ (CodeUnit.ofUnit 92 : α) =
            (⟨top, .escaped, below⟩, []) := step_backslash htop rfl kind_ofUnit_backslash
          have hquote : State.step ⟨top, .escaped, below⟩ c =
              (⟨top, .plain, below⟩, [.text c true]) := by
            rw [step_escaped htop rfl (by rw [hkind]; decide)]
            unfold State.enter State.say
            rw [hbegun, hbeginning, List.nil_append]
          have hopen : State.step ⟨top, .plain, below⟩ (CodeUnit.ofUnit 39 : α) =
              (⟨top, .single, below⟩, []) := by
            rw [step_quote htop (fun h => by cases h) (fun h => by cases h) kind_ofUnit_quote]
            unfold State.enter
            rw [hbegun, hbeginning]
          have hall : Shell.read ⟨top, .single, below⟩
                [CodeUnit.ofUnit 39, CodeUnit.ofUnit 92, c, CodeUnit.ofUnit 39] =
                [Item.text c true] ∧
              Shell.after ⟨top, .single, below⟩
                [CodeUnit.ofUnit 39, CodeUnit.ofUnit 92, c, CodeUnit.ofUnit 39] =
                (⟨top, .single, below⟩ : State α) := by
            constructor
            · simp only [Shell.read, hclose, hslash, hquote, hopen, List.nil_append,
                List.append_nil]
            · simp only [Shell.after, List.foldl_cons, List.foldl_nil, hclose, hslash, hquote,
                hopen]
          rw [hall.1, hall.2, hread, hafter]
          exact ⟨rfl, rfl⟩
      · next hc =>
          have hstep : State.step ⟨top, .single, below⟩ c =
            (⟨top, .single, below⟩, [.text c true]) :=
            step_single htop rfl fun hkind => hc (kind_single_iff.mp hkind)
          have hone : Shell.read ⟨top, .single, below⟩ [c] = [Item.text c true] ∧
              Shell.after ⟨top, .single, below⟩ [c] = (⟨top, .single, below⟩ : State α) := by
            constructor
            · simp only [Shell.read, hstep, List.append_nil]
            · simp only [Shell.after, List.foldl_cons, List.foldl_nil, hstep]
          rw [hone.1, hone.2, hread, hafter]
          exact ⟨rfl, rfl⟩

/-- **Where it is open, a value in quotes is read as literal text.** -/
theorem read_shellEscape (hopen : s.Open value) :
    Shell.read s (shellEscape value) = (s.literal value).2 ∧
      Shell.after s (shellEscape value) = (s.literal value).1 := by
  obtain ⟨htop, hescaped, hsingle⟩ := hopen
  have hbegun : s.top.begun.unquotes = true := by rwa [unquotes_begun]
  obtain ⟨hread, hafter⟩ :=
    @read_escapeBody _ _ s.top.begun s.below hbegun (begun_begun s.top) value
  have hclose : State.step ⟨s.top.begun, .single, s.below⟩ (CodeUnit.ofUnit 39 : α) =
    (⟨s.top.begun, .plain, s.below⟩, []) := step_single_quote hbegun rfl kind_ofUnit_quote
  by_cases hmode : s.mode = .single
  · -- an empty value closes the quotes it stands in, and opens them again
    have hfirst : s.step (CodeUnit.ofUnit 39) = (⟨s.top, .plain, s.below⟩, []) :=
      step_single_quote htop hmode kind_ofUnit_quote
    have hsecond : State.step ⟨s.top, .plain, s.below⟩ (CodeUnit.ofUnit 39 : α) =
        (s.enter .single, s.top.beginning) :=
      step_quote htop (fun h => by cases h) (fun h => by cases h) kind_ofUnit_quote
    rw [hsingle hmode, shellEscape_eq]
    unfold State.literal
    rw [hmode]
    constructor
    · simp only [escapeBody, List.flatMap_nil, List.nil_append, Shell.read, hfirst, hsecond,
        List.append_nil, List.map_nil]
    · simp only [escapeBody, List.flatMap_nil, List.nil_append, Shell.after, List.foldl_cons,
        List.foldl_nil, hfirst, hsecond]
  · have hstep : s.step (CodeUnit.ofUnit 39) = (s.enter .single, s.top.beginning) :=
      step_quote htop hescaped hmode kind_ofUnit_quote
    have hliteral : s.literal value =
        (s.enter .plain, s.top.beginning ++ value.map fun c => .text c true) := by
      unfold State.literal
      split
      · next hsingle => exact absurd hsingle hmode
      · rfl
    rw [hliteral, shellEscape_eq]
    constructor
    · rw [Shell.read, hstep, Shell.read_append]
      unfold State.enter
      rw [hread, hafter, Shell.read, hclose]
      simp only [Shell.read, List.append_nil]
    · change Shell.after (s.step (CodeUnit.ofUnit 39)).1 _ = _
      rw [hstep, Shell.after_append]
      unfold State.enter
      rw [hafter]
      unfold Shell.after
      rw [List.foldl_cons, hclose]
      rfl

/-! ## The words of values in quotes -/

section Words

variable {below : List Frame}

/-- At the start of a word, a value in quotes is that word. -/
theorem read_value (value : List α) :
    Shell.read (.atWord below) (shellEscape value) =
        .start :: (value.map fun c => .text c true) ∧
      Shell.after (.atWord below) (shellEscape value) = .inWord below :=
  @read_shellEscape α _ (.atWord below) value ⟨rfl, nofun, nofun⟩

/-- A value in quotes with a blank behind it, and what comes then. -/
theorem read_value_blank (value rest : List α) :
    Shell.read (.atWord below) (shellEscape value ++ [CodeUnit.ofUnit 32] ++ rest) =
      .start :: (value.map fun c => .text c true) ++ Shell.read (.atWord below) rest := by
  have hblank : Shell.kind (CodeUnit.ofUnit 32 : α) = .blank := by
    unfold Shell.kind
    rw [CodeUnit.unit_ofUnit]
    rfl
  obtain ⟨hread, hafter⟩ := @read_value α _ below value
  rw [List.append_assoc, Shell.read_append, hread, hafter, List.singleton_append, Shell.read,
    step_blank hblank]
  rfl

/-- **Values in quotes, with blanks between them, are the words of the command.** -/
theorem words_values : ∀ values : List (List α),
    words (Shell.read (.atWord below)
        ([CodeUnit.ofUnit 32].intercalate (values.map shellEscape))) = values.map literalWord ∧
      (cutWords (Shell.read (.atWord below)
        ([CodeUnit.ofUnit 32].intercalate (values.map shellEscape)))).1 = []
  | [] => ⟨rfl, rfl⟩
  | [value] => by
      have hread := (@read_value α _ below value).1
      have hwords := words_literal value (show (cutWords []).1 = [] from rfl)
      rw [List.append_nil] at hwords
      rw [List.map_singleton, List.intercalate_singleton, hread, hwords]
      exact ⟨rfl, rfl⟩
  | value :: next :: values => by
      obtain ⟨hwords, hnone⟩ := words_values (next :: values)
      rw [List.map_cons, List.map_cons, List.intercalate_cons_cons, ← List.map_cons,
        read_value_blank, words_literal value hnone, hwords]
      exact ⟨rfl, rfl⟩

end Words

/-- **The shell inverts `shellEscape`**: at the start of a word, in the command or a
subshell, a value in quotes is one word, every unit of it literal, and leaves the reader
outside of quotes; two of them with a blank between them are two words. -/
theorem shellEscape_inverted (below : List Frame) (v w : JsString) :
    words (Shell.read (.atWord below) (shellEscape v)) = [literalWord v] ∧
      Shell.after (.atWord below) (shellEscape v) = .inWord below ∧
      words (Shell.read (.atWord below) (shellEscape v ++ js " " ++ shellEscape w)) =
        [literalWord v, literalWord w] := by
  have hone := (@words_values UInt16 _ below [v]).1
  have htwo := (@words_values UInt16 _ below [v, w]).1
  rw [List.map_singleton, List.intercalate_singleton] at hone
  rw [List.map_cons, List.map_singleton, List.intercalate_cons_cons,
    List.intercalate_singleton] at htwo
  exact ⟨hone, (read_value v).2, htwo⟩

/-- A quote, a backslash and a blank. -/
example : words (Shell.read .start (shellEscape (js "it's \\"))) =
    [literalWord (js "it's \\")] := by decide

/-- The program's units weigh nothing, so a value weighs the same in its quotes. -/
theorem weight_escapeBody {w : α → ℕ} (hw : ∀ u, w (CodeUnit.ofUnit u) = 0) :
    ∀ value : List α, weight w (escapeBody value) = weight w value
  | [] => rfl
  | c :: value => by
      rw [escapeBody_cons, weight_append, weight_escapeBody hw value, weight_cons]
      congr 1
      split
      · simp only [weight_cons, weight_nil, hw]
        omega
      · rfl

/-- A value weighs the same in its quotes. -/
theorem weight_shellEscape {w : α → ℕ} (hw : ∀ u, w (CodeUnit.ofUnit u) = 0) (value : List α) :
    weight w (shellEscape value) = weight w value := by
  rw [shellEscape_eq, weight_cons, weight_append, weight_escapeBody hw, hw, weight_cons, hw]
  simp

/-- In single quotes a value gets out of them: its first unit is not a quoted one any more,
or a backslash of the program is. -/
theorem read_single_lost {wp wv : α → ℕ} (hwp : ∀ u, wp (CodeUnit.ofUnit u) = 1)
    (hwv : ∀ u, wv (CodeUnit.ofUnit u) = 0) (htop : s.top.unquotes = true)
    (hmode : s.mode = .single)
    (hc : 0 < wv c) (rest : List α) :
    0 < weight (Item.weight wp) (Shell.read s (shellEscape (c :: value) ++ rest)) ∨
      weight (Item.quotedWeight wv) (Shell.read s (shellEscape (c :: value) ++ rest)) <
        weight wv (c :: value) + weight wv rest := by
  have hfirst : s.step (CodeUnit.ofUnit 39) = (⟨s.top, .plain, s.below⟩, []) :=
    step_single_quote htop hmode kind_ofUnit_quote
  have hbody : shellEscape (c :: value) ++ rest = CodeUnit.ofUnit 39 ::
      ((if CodeUnit.unit c = 39 then
          [CodeUnit.ofUnit 39, CodeUnit.ofUnit 92, c, CodeUnit.ofUnit 39] else [c]) ++
        (escapeBody value ++ CodeUnit.ofUnit 39 :: rest)) := by
    rw [shellEscape_eq, List.cons_append]
    congr 1
    unfold escapeBody
    rw [List.flatMap_cons, List.append_assoc, List.append_assoc]
    rfl
  rw [hbody, Shell.read, hfirst, List.nil_append]
  split
  · left
    have hsecond : State.step ⟨s.top, .plain, s.below⟩ (CodeUnit.ofUnit 39 : α) =
        (s.enter .single, s.top.beginning) :=
      step_quote htop (fun h => by cases h) (fun h => by cases h) kind_ofUnit_quote
    have hthird : (s.enter .single).step (CodeUnit.ofUnit 92 : α) =
        (s.enter .single, [.text (CodeUnit.ofUnit 92) true]) :=
      step_single (by rw [State.enter, unquotes_begun]; exact htop) rfl
        (by rw [kind_ofUnit_backslash]; decide)
    rw [List.cons_append, Shell.read, hsecond, List.cons_append, Shell.read, hthird]
    simp only [weight_append, weight_cons, Item.weight, hwp]
    omega
  · right
    obtain ⟨-, hquoted, hwaits⟩ : weight (Item.weight wv)
          (State.unquoted ⟨s.top, .plain, s.below⟩ c).2 ≤ wv c ∧
        weight (Item.quotedWeight wv) (State.unquoted ⟨s.top, .plain, s.below⟩ c).2 = 0 ∧
        (State.unquoted ⟨s.top, .plain, s.below⟩ c).1.mode.weight wv = 0 := unquoted_weight
    have hstep : State.step ⟨s.top, .plain, s.below⟩ c =
        State.unquoted ⟨s.top, .plain, s.below⟩ c :=
          step_plain (s := ⟨s.top, .plain, s.below⟩) htop rfl c
    rw [List.singleton_append, Shell.read, weight_append, hstep, hquoted, Nat.zero_add, weight_cons]
    refine (quotedWeight_le _).trans_lt ((read_weight _ _).trans_lt ?_)
    rw [hwaits, weight_append, weight_escapeBody hwv, weight_cons, hwv]
    omega

/-- **Where it is not, a unit of the quotes is read, or one of the value is not.** -/
theorem read_shellEscape_lost {wp wv : α → ℕ} (hwp : ∀ u, wp (CodeUnit.ofUnit u) = 1)
    (hwv : ∀ u, wv (CodeUnit.ofUnit u) = 0) (hvalue : ∀ c ∈ value, 0 < wv c)
    (hopen : ¬s.Open value) (rest : List α) :
    0 < weight (Item.weight wp) (Shell.read s (shellEscape value ++ rest)) ∨
      weight (Item.quotedWeight wv) (Shell.read s (shellEscape value ++ rest)) <
        weight wv value + weight wv rest := by
  have hcons : shellEscape value ++ rest = CodeUnit.ofUnit 39 ::
    (escapeBody value ++ [CodeUnit.ofUnit 39] ++ rest) := by rw [shellEscape_eq, List.cons_append]
  cases htop : s.top.unquotes with
  | false =>
      left
      rw [hcons]
      exact (hwp 39 ▸ Nat.one_pos).trans_le
        ((step_quote_text htop kind_ofUnit_quote).trans (step_le_read _))
  | true =>
      by_cases hescaped : s.mode = .escaped
      · left
        have hstep : s.step (CodeUnit.ofUnit 39) =
          (s.enter .plain, s.say (CodeUnit.ofUnit 39) true) :=
          step_escaped htop hescaped (by rw [kind_ofUnit_quote]; decide)
        rw [hcons]
        refine lt_of_lt_of_le ?_ (step_le_read _)
        rw [hstep, State.say, weight_append, weight_cons]
        simp only [Item.weight, hwp]
        omega
      · cases value with
        | nil => exact absurd ⟨htop, hescaped, fun _ => rfl⟩ hopen
        | cons c value =>
            have hmode : s.mode = .single := by
              by_contra hnot
              exact hopen ⟨htop, hescaped, fun h => absurd h hnot⟩
            exact read_single_lost hwp hwv htop hmode (hvalue c List.mem_cons_self) rest

end Escape

/-! ## Templates -/

section Fill

variable {α κ : Type} [CodeUnit α] {value : κ → List α} {wp wv : α → ℕ}

/-- **A template whose values stand in single quotes is read with its values as literal text
exactly if every placeholder stands where they are.** -/
theorem read_fill_iff (hwp : ∀ u, wp (CodeUnit.ofUnit u) = 1)
    (hwv : ∀ u, wv (CodeUnit.ofUnit u) = 0) (hvalue : ∀ key, ∀ c ∈ value key, 0 < wv c ∧ wp c = 0) :
    ∀ {pieces : List (Piece α κ)} {s : State α},
      (∀ c, Piece.unit c ∈ pieces → wp c = 0 ∧ wv c = 0) → s.mode.weight wp = 0 →
      (Shell.read s (fill (fun key => some (shellEscape (value key))) pieces) =
        readPieces value s pieces ↔ Placed value s pieces)
  | [], _, _, _ => iff_of_true rfl trivial
  | .unit c :: pieces, s, hunits, hs => by
      have hstep : weight (Item.weight wp) (s.step c).2 + (s.step c).1.mode.weight wp ≤
        s.mode.weight wp + wp c := step_weight
      rw [hs, (hunits c List.mem_cons_self).1] at hstep
      rw [fill, Shell.read, readPieces, List.append_cancel_left_eq,
        read_fill_iff hwp hwv hvalue (fun d hd => hunits d (List.mem_cons_of_mem _ hd)) (by omega)]
      rfl
  | .hole key text :: pieces, s, hunits, hs => by
      have hrest := fun d hd => hunits d (List.mem_cons_of_mem (Piece.hole key text) hd)
      rw [fill, Option.getD_some]
      by_cases hopen : s.Open (value key)
      · obtain ⟨hread, hafter⟩ := read_shellEscape hopen
        rw [Shell.read_append, hread, hafter, readPieces, List.append_cancel_left_eq,
          read_fill_iff hwp hwv hvalue hrest literal_weight.2.2]
        exact (and_iff_right hopen).symm
      · refine iff_of_false (fun heq => ?_) fun h => hopen h.1
        have hvalues : ∀ key, weight wp (value key) = 0 :=
          fun key => weight_eq_zero fun c hc => (hvalue key c hc).2
        have hprogram : weight (Item.weight wp)
          (readPieces value s (.hole key text :: pieces)) = 0 :=
          readPieces_weight hvalues (fun d hd => (hunits d hd).1) hs
        have hquoted : weight wv (fill (fun key => some (shellEscape (value key)))
            (.hole key text :: pieces)) ≤
            weight (Item.quotedWeight wv) (readPieces value s (.hole key text :: pieces)) :=
          readPieces_quoted (fun key => weight_shellEscape hwv _) fun d hd => (hunits d hd).2
        rw [fill, Option.getD_some, weight_append, weight_shellEscape hwv] at hquoted
        rw [← heq] at hprogram hquoted
        rcases read_shellEscape_lost hwp hwv (fun c hc => (hvalue key c hc).1) hopen
          (fill (fun key => some (shellEscape (value key))) pieces) with hread | hlost
        · omega
        · omega

end Fill

/-! ## Shell mode -/

section Statement

variable (values : Placeholder → JsString)

/-- The values with their labels. -/
def labelled (key : Placeholder) : List (Labelled Placeholder) := labelValue key (values key)

/-- The words the template stands for: its own, with the values as literal text. -/
def templateWords (template : JsString) : List (Item (Labelled Placeholder)) :=
  readPieces (labelled values) .start ((pieces template).map Piece.label)

/-- **The condition on a template**: no value has a placeholder in it that is looked for
later, and every placeholder stands where quotes are taken at their word. -/
structure ShellSafe (template : JsString) : Prop where
  prompt : occurrences Placeholder.prompt.text template ≠ 0 →
    occurrences Placeholder.input.text (values .prompt) = 0 ∧
      occurrences Placeholder.cwd.text (values .prompt) = 0
  input : occurrences Placeholder.input.text template ≠ 0 →
    occurrences Placeholder.cwd.text (values .input) = 0
  placed : Placed (labelled values) .start ((pieces template).map Piece.label)

end Statement

/-- **What is promised of shell mode**: the shell reads the words of the template with the
values as literal text, and each of their units from where it came. -/
def PassesLiterally (config : RunnerConfig) (input : Json) : Prop :=
  ∃ values, placeholders config input = .ok values ∧
    (∃ command, buildSpawnPlan config input = .ok { shell := true, command, args := [] } ∧
      Shell.read .start command =
        (templateWords values config.commandTemplate).map (Item.map Prod.fst)) ∧
    Shell.read .start (shellCommand (labelled values)
        (labelledWith values [] config.commandTemplate)) =
      templateWords values config.commandTemplate

section Templates

variable {values : Placeholder → JsString} {template : JsString} {keys : List Placeholder}
  {key : Placeholder}

/-- A value in its quotes. -/
def escapeValue (key : Placeholder) (value : JsString) : List (Labelled Placeholder) :=
  shellEscape (labelValue key value)

/-- The template with some of the values in their quotes. -/
def escapedWith (values : Placeholder → JsString) (keys : List Placeholder) (template : JsString) :
    List (Labelled Placeholder) :=
  fill (fun key => (someValues values keys key).map (escapeValue key))
    ((pieces template).map Piece.label)

/-- No placeholder has a quote in it. -/
theorem quote_notMem (key : Placeholder) : (39 : UInt16) ∉ key.text := by
  cases key <;> decide

/-- Quotes keep placeholders in a value. -/
theorem bracketed_shellEscape (text : List (Labelled Placeholder)) :
    Bracketed key.text (shellEscape text) :=
  ⟨_, _, _, shellEscape_eq, quote_notMem key, quote_notMem key⟩

/-- The values that were filled in. -/
theorem escaped_eq_some {key' : Placeholder} {text : List (Labelled Placeholder)}
    (h : (someValues values keys key').map (escapeValue key') = some text) :
    key' ∈ keys ∧ text = shellEscape (labelled values key') := by
  unfold someValues at h
  by_cases hkey : key' ∈ keys
  · rw [if_pos hkey] at h
    cases h
    exact ⟨hkey, rfl⟩
  · rw [if_neg hkey] at h
    cases h

/-- A word without quotes stands at the start of the quoted value if it does of the value. -/
theorem prefix_escapeBody : ∀ (value : List (Labelled Placeholder)) (p : JsString),
    (39 : UInt16) ∉ p → (p <+: units (escapeBody value) ↔ p <+: units value)
  | [], _, _ => Iff.rfl
  | _ :: _, [], _ => iff_of_true List.nil_prefix List.nil_prefix
  | c :: value, u :: p, hp => by
      rw [escapeBody_cons]
      split
      · next hc =>
          have hu : u ≠ 39 := fun h => hp (h ▸ List.mem_cons_self)
          refine iff_of_false (fun h => hu ?_) (fun h => hu ?_)
          · exact (List.cons_prefix_cons.mp h).1
          · exact (List.cons_prefix_cons.mp h).1.trans hc
      · rw [List.singleton_append, units_cons, units_cons, List.cons_prefix_cons,
          List.cons_prefix_cons, prefix_escapeBody value p fun h => hp (List.mem_cons_of_mem u h)]

/-- No placeholder starts at a unit that is no brace. -/
theorem occurrences_cons {c : Labelled Placeholder} (hc : CodeUnit.unit c ≠ 123)
    (rest : List (Labelled Placeholder)) :
    occurrences key.text (c :: rest) = occurrences key.text rest := by
  rw [occurrences, if_neg fun h => hc (startsWith_brace h), Nat.zero_add]

/-- Escaping writes no brace and takes none away, so placeholders in a value stay as many as they
were. -/
theorem occurrences_escapeBody : ∀ value : List (Labelled Placeholder),
    occurrences key.text (escapeBody value) = occurrences key.text value
  | [] => rfl
  | c :: value => by
      have hstart := prefix_escapeBody (c :: value) key.text (quote_notMem key)
      rw [escapeBody_cons] at hstart ⊢
      split at hstart
      · next hc =>
          have hbrace : CodeUnit.unit c ≠ 123 := by rw [hc]; decide
          rw [if_pos hc, List.cons_append, List.cons_append, List.cons_append, List.cons_append,
            List.nil_append, occurrences_cons (by decide), occurrences_cons (by decide),
            occurrences_cons hbrace, occurrences_cons (by decide), occurrences_cons hbrace,
            occurrences_escapeBody value]
      · next hc =>
          rw [List.singleton_append] at hstart
          rw [if_neg hc, List.singleton_append, occurrences, occurrences,
            occurrences_escapeBody value]
          congr 1
          exact if_congr (startsWithWord_iff.trans (hstart.trans startsWithWord_iff.symm)) rfl rfl

/-- **Quotes neither make nor break placeholders.** -/
theorem occurrences_shellEscape (key' : Placeholder) (value : JsString) :
    occurrences key.text (shellEscape (labelValue key' value)) = occurrences key.text value := by
  rw [shellEscape_eq, occurrences_cons (by decide),
    occurrences_append_cons (placeholders_apart.nonempty key) (quote_notMem key),
    occurrences_escapeBody, ← occurrences_plain, plain_labelValue]
  rfl

/-- The placeholders that come up after some values are those in the values. -/
theorem clean_iff (hkey : key ∉ keys) :
    occurrences key.text (escapedWith values keys template) =
        holes key ((pieces template).map Piece.label) ↔
      ∀ key' ∈ keys, occurrences (Placeholder.text key') template ≠ 0 →
        occurrences key.text (values key') = 0 := by
  refine (occurrences_fill_iff placeholders_apart (someValues_of_notMem escapeValue hkey)
    (fun key' text htext => ?_) scanned_pieces).trans ?_
  · obtain ⟨-, rfl⟩ := escaped_eq_some htext
    exact bracketed_shellEscape _
  · constructor
    · intro hall key' hmem hoccurs
      obtain ⟨text, hhole⟩ := occurrences_ne_zero.mp hoccurs
      rw [← occurrences_shellEscape key']
      refine hall key' text hhole _ ?_
      unfold someValues
      rw [if_pos hmem]
      rfl
    · intro hall key' text hhole filled hfilled
      obtain ⟨hmem, rfl⟩ := escaped_eq_some hfilled
      exact (occurrences_shellEscape key' _).trans
        (hall key' hmem (occurrences_ne_zero.mpr ⟨text, hhole⟩))

/-- Replacing one more placeholder fills it in. -/
theorem replaceAll_escaped (hkey : key ∉ keys)
    (hclean : ∀ key' ∈ keys, occurrences (Placeholder.text key') template ≠ 0 →
      occurrences key.text (values key') = 0) :
    replaceAll key.text (shellEscape (labelled values key)) (escapedWith values keys template) =
      escapedWith values (keys ++ [key]) template := by
  refine (replaceAll_fill placeholders_apart
    (someValues_of_notMem escapeValue hkey) _ scanned_pieces
    ((clean_iff hkey).mpr hclean)).trans ?_
  unfold escapedWith
  rw [← update_someValues]
  rfl

/-! ## What is counted -/

/-- The units of some values. -/
def fromValues (keys : List Placeholder) (c : Labelled Placeholder) : ℕ :=
  match c.2 with
  | .value key => if key ∈ keys then 1 else 0
  | _ => 0

/-- The units the program puts in. -/
def fromProgram (c : Labelled Placeholder) : ℕ :=
  match c.2 with
  | .program => 1
  | _ => 0

/-- A value that was not filled in yet weighs nothing. -/
theorem weight_labelled (hkey : key ∉ keys) :
    weight (fromValues keys) (labelled values key) = 0 := by
  refine weight_eq_zero fun c hc => ?_
  obtain ⟨unit, -, rfl⟩ := List.mem_map.mp hc
  exact if_neg hkey

/-- Nor do its quotes. -/
theorem weight_escaped (hkey : key ∉ keys) :
    weight (fromValues keys) (shellEscape (labelled values key)) = 0 :=
  (weight_shellEscape (fun _ => rfl) _).trans (weight_labelled hkey)

/-- A unit of the template is in none of the values, and not the program's. -/
theorem piece_source {piece : Piece (Labelled Placeholder) Placeholder}
    (h : piece ∈ (pieces template).map Piece.label) :
    (∀ c, piece = .unit c → fromProgram c = 0 ∧ fromValues keys c = 0) ∧
      ∀ key text, piece = .hole key text → weight (fromValues keys) text = 0 := by
  obtain ⟨original, -, rfl⟩ := List.mem_map.mp h
  cases original with
  | unit c =>
      refine ⟨fun d hd => ?_, nofun⟩
      cases hd
      exact ⟨rfl, rfl⟩
  | hole key' text' =>
      refine ⟨nofun, fun key text htext => ?_⟩
      cases htext
      refine weight_eq_zero fun c hc => ?_
      obtain ⟨unit, -, rfl⟩ := List.mem_map.mp hc
      rfl

/-- What is filled in later does not count. -/
theorem weight_escapedWith :
    weight (fromValues keys) (escapedWith values Placeholder.all template) =
      weight (fromValues keys) (escapedWith values keys template) := by
  refine weight_fill_congr fun key text hhole => ?_
  unfold someValues
  rw [if_pos key.mem_all]
  by_cases hkey : key ∈ keys
  · rw [if_pos hkey]
  · rw [if_neg hkey]
    exact (weight_escaped hkey).trans ((piece_source hhole).2 key text rfl).symm

/-- A brace between the quotes is one of the value. -/
theorem mem_shellEscape {c : Labelled Placeholder} {value : List (Labelled Placeholder)}
    (h : c ∈ shellEscape value) : c ∈ value ∨ CodeUnit.unit c ≠ 123 := by
  rw [shellEscape_eq, List.mem_cons, List.mem_append, List.mem_singleton] at h
  rcases h with rfl | hbody | rfl
  · exact .inr (by decide)
  · obtain ⟨d, hd, hmem⟩ := List.mem_flatMap.mp hbody
    split at hmem
    · next hquote =>
        simp only [List.mem_cons, List.not_mem_nil, or_false] at hmem
        rcases hmem with rfl | rfl | rfl | rfl
        · exact .inr (by decide)
        · exact .inr (by decide)
        · exact .inl hd
        · exact .inr (by decide)
    · exact .inl (List.mem_singleton.mp hmem ▸ hd)
  · exact .inr (by decide)

/-- **Where replacing a placeholder loses nothing that counts, no other one came up.** -/
theorem clean_of_weight_escaped (hkey : key ∉ keys)
    (hweight : weight (fromValues keys) (replaceAll key.text (shellEscape (labelled values key))
      (escapedWith values keys template)) =
        weight (fromValues keys) (escapedWith values keys template)) :
    ∀ key' ∈ keys, occurrences (Placeholder.text key') template ≠ 0 →
      occurrences key.text (values key') = 0 := by
  refine (clean_iff hkey).mp (occurrences_of_weight placeholders_apart
    (someValues_of_notMem escapeValue hkey) (weight_escaped hkey) ?_ scanned_pieces
    (fun key text hhole => (piece_source hhole).2 key text rfl)
    ?_ hweight)
  · intro key' text htext c hc rest hstart
    obtain ⟨hmem, rfl⟩ := escaped_eq_some htext
    rcases mem_shellEscape hc with hvalue | hbrace
    · obtain ⟨unit, -, rfl⟩ := List.mem_map.mp hvalue
      exact Nat.lt_of_lt_of_eq Nat.one_pos (if_pos hmem).symm
    · exact absurd (startsWith_brace hstart) hbrace
  · intro c back hback hstart
    refine absurd hstart (Bool.eq_false_iff.mp ((scanned_pieces.suffix hback).not_start
      fun key' text htext => ?_))
    obtain ⟨-, rfl⟩ := escaped_eq_some htext
    exact bracketed_shellEscape _

/-- With all its values the template is one whose values stand in quotes. -/
theorem escapedWith_all : escapedWith values Placeholder.all template =
    fill (fun key => some (shellEscape (labelled values key)))
      ((pieces template).map Piece.label) := by
  unfold escapedWith
  congr 1
  funext key
  unfold someValues
  rw [if_pos key.mem_all]
  rfl

/-- A command that is read as the template has all the units of the values. -/
theorem weight_le_of_read {command : List (Labelled Placeholder)}
    (heq : Shell.read .start command = templateWords values template) :
    weight (fromValues keys) (escapedWith values keys template) ≤
      weight (fromValues keys) command := by
  rw [← weight_escapedWith, escapedWith_all]
  refine (readPieces_quoted (s := .start) (fun key => weight_shellEscape (fun _ => rfl) _)
    fun c hc => ((piece_source hc).1 c rfl).2).trans ?_
  change weight _ (templateWords values template) ≤ _
  rw [← heq]
  exact (quotedWeight_le _).trans ((read_weight command .start).trans (Nat.zero_add _).le)

/-- **The words of the command are the template's** exactly if every value stands where single
quotes are taken at their word. -/
theorem read_escapedWith : Shell.read .start (escapedWith values Placeholder.all template) =
    templateWords values template ↔
      Placed (labelled values) .start ((pieces template).map Piece.label) := by
  rw [escapedWith_all]
  refine @read_fill_iff _ _ _ _ fromProgram (fromValues Placeholder.all) (fun _ => rfl)
    (fun _ => rfl) (fun key c hc => ?_) _ _ (fun c hc => (piece_source hc).1 c rfl) rfl
  obtain ⟨unit, -, rfl⟩ := List.mem_map.mp hc
  exact ⟨Nat.lt_of_lt_of_eq Nat.one_pos (if_pos key.mem_all).symm, rfl⟩

/-- The three steps of `shellCommand`. -/
theorem shellCommand_eq : shellCommand (labelled values) (labelledWith values [] template) =
    replaceAll Placeholder.cwd.text (shellEscape (labelled values .cwd))
      (replaceAll Placeholder.input.text (shellEscape (labelled values .input))
        (escapedWith values [.prompt] template)) := by
  have hfirst : replaceAll Placeholder.prompt.text (shellEscape (labelled values .prompt))
      (escapedWith values [] template) = escapedWith values [.prompt] template :=
    replaceAll_escaped nofun nofun
  rw [← hfirst]
  rfl

/-- **The command is read as the template exactly if it is safe.** -/
theorem read_shellCommand_iff :
    Shell.read .start (shellCommand (labelled values) (labelledWith values [] template)) =
      templateWords values template ↔ ShellSafe values template := by
  have hinput : (∀ key' ∈ [Placeholder.prompt], occurrences (Placeholder.text key') template ≠ 0 →
        occurrences Placeholder.input.text (values key') = 0) →
      replaceAll Placeholder.input.text (shellEscape (labelled values .input))
        (escapedWith values [.prompt] template) = escapedWith values [.prompt, .input] template :=
    replaceAll_escaped (by decide)
  have hcwd : (∀ key' ∈ [Placeholder.prompt, .input],
        occurrences (Placeholder.text key') template ≠ 0 →
          occurrences Placeholder.cwd.text (values key') = 0) →
      replaceAll Placeholder.cwd.text (shellEscape (labelled values .cwd))
        (escapedWith values [.prompt, .input] template) =
          escapedWith values Placeholder.all template :=
    replaceAll_escaped (by decide)
  rw [shellCommand_eq]
  constructor
  · intro heq
    have hclean : ∀ key' ∈ [Placeholder.prompt], occurrences (Placeholder.text key') template ≠ 0 →
        occurrences Placeholder.input.text (values key') = 0 :=
      clean_of_weight_escaped (by decide) (le_antisymm
        (weight_replaceFrom_le (weight_escaped (by decide)) 0 _)
        ((weight_le_of_read heq).trans (weight_replaceFrom_le (weight_escaped (by decide)) 0 _)))
    rw [hinput hclean] at heq
    have hclean' : ∀ key' ∈ [Placeholder.prompt, .input],
        occurrences (Placeholder.text key') template ≠ 0 →
          occurrences Placeholder.cwd.text (values key') = 0 :=
      clean_of_weight_escaped (by decide) (le_antisymm
        (weight_replaceFrom_le (weight_escaped (by decide)) 0 _) (weight_le_of_read heq))
    rw [hcwd hclean'] at heq
    exact ⟨fun hoccurs => ⟨hclean .prompt (by decide) hoccurs, hclean' .prompt (by decide) hoccurs⟩,
      fun hoccurs => hclean' .input (by decide) hoccurs, read_escapedWith.mp heq⟩
  · rintro ⟨hprompt, hinputValue, hplaced⟩
    rw [hinput, hcwd]
    · exact read_escapedWith.mpr hplaced
    · intro key' hmem hoccurs
      simp only [List.mem_cons, List.not_mem_nil, or_false] at hmem
      rcases hmem with rfl | rfl
      · exact (hprompt hoccurs).2
      · exact hinputValue hoccurs
    · intro key' hmem hoccurs
      rw [List.mem_singleton] at hmem
      subst hmem
      exact (hprompt hoccurs).1

end Templates

/-! ## The plan -/

/-- Escaping does not look at the labels. -/
theorem shellEscape_plain (text : List (Labelled Placeholder)) :
    shellEscape (plain text) = plain (shellEscape text) := by
  rw [shellEscape_eq, shellEscape_eq]
  unfold plain escapeBody
  rw [List.map_cons, List.map_append, List.map_flatMap, List.flatMap_map]
  congr 2
  refine List.flatMap_congr fun c _ => ?_
  change (if CodeUnit.unit c = 39 then _ else _) = List.map Prod.fst _
  split <;> rfl

/-- **The command is the labelled one without its labels.** -/
theorem shellCommand_plain (values : Placeholder → JsString) (template : JsString) :
    shellCommand values template =
      plain (shellCommand (labelled values) (labelledWith values [] template)) := by
  have htemplate : template = plain (labelledWith values [] template) := by
    rw [plain_labelledWith, filledWith_nil]
  have hvalue : ∀ key, shellEscape (values key) = plain (shellEscape (labelled values key)) := by
    intro key
    rw [← shellEscape_plain]
    exact congrArg shellEscape (plain_labelValue key (values key)).symm
  unfold shellCommand Placeholder.all
  simp only [List.foldl_cons, List.foldl_nil]
  conv_lhs => rw [hvalue .prompt, hvalue .input, hvalue .cwd, htemplate]
  unfold plain
  rw [relabels_fst.replaceAll, relabels_fst.replaceAll, relabels_fst.replaceAll]

section Plan

variable {config : RunnerConfig} {input : Json}

/-- The plan in shell mode, once the prompt has a text. -/
theorem buildSpawnPlan_shell {values : Placeholder → JsString} (hshell : config.useShell = true)
    (hvalues : placeholders config input = .ok values) :
    buildSpawnPlan config input =
      .ok { shell := true, command := shellCommand values config.commandTemplate, args := [] } := by
  unfold buildSpawnPlan
  rw [hvalues]
  change (if config.useShell = true then _ else _) = _
  rw [if_pos hshell]
  rfl

/-- **Shell mode passes the values as literal text exactly if the template is safe.** -/
theorem buildSpawnPlan_literal_iff (hshell : config.useShell = true) :
    PassesLiterally config input ↔ ∃ values, placeholders config input = .ok values ∧
      ShellSafe values config.commandTemplate := by
  refine exists_congr fun values => and_congr_right fun hvalues => ?_
  rw [buildSpawnPlan_shell hshell hvalues, read_shellCommand_iff]
  refine ⟨fun h => h.2, fun hsafe => ⟨⟨_, rfl, ?_⟩, hsafe⟩⟩
  rw [shellCommand_plain, ← read_shellCommand_iff.mpr hsafe]
  exact read_map relabels_fst _ .start

/-- The default template up to its placeholder. -/
theorem pieces_default : pieces DEFAULT_COMMAND_TEMPLATE =
    (js "codex exec \"").map .unit ++ [.hole .prompt Placeholder.prompt.text, .unit 34] := by
  decide

/-- Its placeholder stands in double quotes. -/
theorem not_shellSafe_default (values : Placeholder → JsString) :
    ¬ShellSafe values DEFAULT_COMMAND_TEMPLATE := by
  intro hsafe
  have hplaced := hsafe.placed
  have hunits : ((js "codex exec \"").map Piece.unit).map Piece.label =
      ((js "codex exec \"").map fun c => ((c, .template) : Labelled Placeholder)).map .unit := by
    rw [List.map_map, List.map_map]
    rfl
  rw [pieces_default, List.map_append, hunits, placed_units] at hplaced
  exact absurd hplaced.1.1 (by decide)

end Plan

/-- **In shell mode the shell reads the values as literal text exactly if no value has a
placeholder in it that is looked for later, and every placeholder of the template stands
where single quotes are taken at their word**; in the default template it does not. -/
theorem shell_mode_literal_iff {config : RunnerConfig} {input : Json}
    (hshell : config.useShell = true) :
    (PassesLiterally config input ↔ ∃ values, placeholders config input = .ok values ∧
      ShellSafe values config.commandTemplate) ∧
    (config.commandTemplate = DEFAULT_COMMAND_TEMPLATE → ¬PassesLiterally config input) := by
  refine ⟨buildSpawnPlan_literal_iff hshell, fun hdefault hpasses => ?_⟩
  obtain ⟨values, -, hsafe⟩ := (buildSpawnPlan_literal_iff hshell).mp hpasses
  rw [hdefault] at hsafe
  exact not_shellSafe_default values hsafe

/-- A template whose placeholder has no quotes around it. -/
def RunnerConfig.unquoted : RunnerConfig :=
  { RunnerConfig.sample with
      commandTemplate := js "echo " ++ Placeholder.prompt.text, useShell := true }

/-- The default template. -/
def RunnerConfig.inShell : RunnerConfig := { RunnerConfig.sample with useShell := true }

/-- A prompt with quotes and a command substitution. -/
theorem shell_mode_literal_prompt :
    PassesLiterally .unquoted (promptInput (js "'$(id)'")) ∧
      (buildSpawnPlan .unquoted (promptInput (js "'$(id)'"))).map SpawnPlan.command =
        .ok (js "echo ''\\''$(id)'\\'''") := by
  refine ⟨(@shell_mode_literal_iff .unquoted (promptInput (js "'$(id)'")) rfl).1.mpr
    ⟨_, rfl, ?_, ?_, ?_⟩, by decide⟩
  · decide
  · decide
  · decide

/-- **In the double quotes of the default template the single quotes are text, and the shell
runs the command that a prompt substitutes.** -/
theorem shell_mode_runs_prompt :
    (buildSpawnPlan .inShell (promptInput (js "$(id)"))).map SpawnPlan.command =
        .ok (js "codex exec \"'$(id)'\"") ∧
      Shell.read .start (js "\"'$(id)'\"") =
        [.start, .text 39 true, .text 36 false, .text 40 false, .start, .text 105 false,
          .text 100 false, .text 41 false, .text 39 true] ∧
      ¬PassesLiterally .inShell (promptInput (js "$(id)")) := by
  refine ⟨by decide, by decide, fun hpasses => ?_⟩
  obtain ⟨values, -, hsafe⟩ := (buildSpawnPlan_literal_iff rfl).mp hpasses
  exact not_shellSafe_default values hsafe

end CodeCaller
