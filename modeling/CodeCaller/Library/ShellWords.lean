import CodeCaller.Library.Template

/-!
# Words of a shell command

How a POSIX shell cuts a command into words by its quoting rules: single quotes, double quotes with
command, parameter and arithmetic expansion in them, and the backslash.  A reader is a state and a
step for every unit; what it reads are the beginnings of words and their units, each quoted or not.
A unit that is quoted stands for itself.  What stands in a command substitution is read in its
place; backquotes leave their text to a second reading, so nothing in them counts as quoted.

Of a template the same reader reads the units, and takes a placeholder for its value as literal
text (`readPieces`).

### What is covered

The reader knows quoting and nothing else of the grammar.  **Comments and here-documents are read
as words**: a `#` at the beginning of a word does not hide the rest of its line, and the lines
behind `<<EOF` are read as commands.  So nothing is said here of a template that has a comment or a
here-document.  Operators (`;`, `|`, `&`, `<`, `>`) are units of words; where they stand makes no
difference to what is quoted.

### Results

* `read_weight`: no unit is read twice, and what is quoted is read.  With labelled text this says
  that a unit of a value that is read as an unquoted one has been lost as a quoted one.
* `readPieces_quoted`: with a template in place of a text, all units of all values are read, as
  quoted ones.
* `State.Open` and `Placed` say where a value in single quotes is literal text: outside of quotes
  and not right after a backslash; and `step_quote_text` what happens elsewhere, that a quote in
  double quotes is text.
* `read_map`: labels do not change what is read.

### What is load-bearing

Weights again, as for templates.  The state after a command whose quotes were broken open by a
value is hard to describe; how many units of values have been read as quoted is not.
-/

namespace Async

namespace Shell

/-- What a reader is inside of. -/
inductive Frame where
  /-- The command itself, a subshell or `$(...)`; whether a word has begun. -/
  | command (inWord : Bool)
  /-- A parameter expansion outside of double quotes. -/
  | param
  | double
  /-- A parameter expansion in double quotes. -/
  | quotedParam
  | arithmetic
  | backquote
deriving DecidableEq

/-- What the last units were, as far as the next one depends on it. -/
inductive Mode (α : Type) where
  | plain
  | single
  /-- A backslash outside of double quotes. -/
  | escaped
  /-- A backslash in double quotes: it stays unless it quotes something. -/
  | backslash (c : α)
  | dollar
  /-- A dollar and a parenthesis: another one makes it arithmetic. -/
  | substitution
deriving DecidableEq

/-- The state of a reader. -/
structure State (α : Type) where
  top : Frame
  mode : Mode α
  below : List Frame

/-- **What is read.** -/
inductive Item (α : Type) where
  /-- A word begins. -/
  | start
  | text (c : α) (quoted : Bool)
deriving DecidableEq

/-- The units with a meaning. -/
inductive Kind where
  | single | double | backslash | dollar | backquote | openParen | closeParen | openBrace
  | closeBrace | newline | blank | other
deriving DecidableEq

section Reader

variable {α β κ : Type} [CodeUnit α] [CodeUnit β]

/-- What a unit means to the reader, where nothing quotes it. -/
def kind (c : α) : Kind :=
  match (CodeUnit.unit c).toNat with
  | 39 => .single
  | 34 => .double
  | 92 => .backslash
  | 36 => .dollar
  | 96 => .backquote
  | 40 => .openParen
  | 41 => .closeParen
  | 123 => .openBrace
  | 125 => .closeBrace
  | 10 => .newline
  | 32 | 9 => .blank
  | _ => .other

/-- Before a command is read. -/
def State.start : State α := ⟨.command false, .plain, []⟩

/-- Where a word may begin, in the command or a subshell of it. -/
def State.atWord (below : List Frame) : State α := ⟨.command false, .plain, below⟩

/-- In a word of the command, outside of quotes. -/
def State.inWord (below : List Frame) : State α := ⟨.command true, .plain, below⟩

/-- The frame once its word has begun. -/
def Frame.begun : Frame → Frame
  | .command _ => .command true
  | frame => frame

/-- The beginning of a word, where none has begun. -/
def Frame.beginning : Frame → List (Item α)
  | .command false => [.start]
  | _ => []

/-- The state with another mode, in a word. -/
def State.enter (s : State α) (mode : Mode α) : State α := ⟨s.top.begun, mode, s.below⟩

/-- The reader goes into a frame. -/
def State.push (s : State α) (frame : Frame) : State α := ⟨frame, .plain, s.top.begun :: s.below⟩

/-- The reader leaves a frame; the outermost is not left. -/
def State.pop (s : State α) : State α :=
  match s.below with
  | [] => ⟨s.top, .plain, []⟩
  | frame :: below => ⟨frame, .plain, below⟩

/-- A unit of the word. -/
def State.say (s : State α) (c : α) (quoted : Bool) : List (Item α) :=
  s.top.beginning ++ [.text c quoted]

/-- A unit outside of quotes. -/
def State.unquoted (s : State α) (c : α) : State α × List (Item α) :=
  match kind c, s.top with
  | .single, _ => (s.enter .single, s.top.beginning)
  | .double, _ => (s.push .double, s.top.beginning)
  | .backslash, _ => (⟨s.top, .escaped, s.below⟩, [])
  | .dollar, _ => (s.enter .dollar, s.say c false)
  | .backquote, _ => (s.push .backquote, s.say c false)
  | .newline, .command _ => (⟨.command false, .plain, s.below⟩, [])
  | .blank, .command _ => (⟨.command false, .plain, s.below⟩, [])
  | .openParen, .command _ => (s.push (.command false), s.say c false)
  | .closeParen, .command _ =>
    match s.below with
    | [] => (s.enter .plain, s.say c false)
    | _ => (s.pop, [.text c false])
  | .closeBrace, .param => (s.pop, [.text c false])
  | _, _ => (s.enter .plain, s.say c false)

/-- A unit in double quotes, or in an expansion that is. -/
def State.quoted (s : State α) (c : α) : State α × List (Item α) :=
  match kind c, s.top with
  | .double, .double => (s.pop, [])
  | .double, .quotedParam => (s.push .double, [])
  | .closeBrace, .quotedParam => (s.pop, [.text c false])
  | .openParen, .arithmetic => (s.push .arithmetic, [.text c false])
  | .closeParen, .arithmetic => (s.pop, [.text c false])
  | .backslash, _ => (⟨s.top, .backslash c, s.below⟩, [])
  | .dollar, _ => (⟨s.top, .dollar, s.below⟩, [.text c false])
  | .backquote, _ => (s.push .backquote, [.text c false])
  | _, .arithmetic => (⟨s.top, .plain, s.below⟩, [.text c false])
  | _, _ => (⟨s.top, .plain, s.below⟩, [.text c true])

/-- A unit in backquotes. -/
def State.backquoted (s : State α) (c : α) : State α × List (Item α) :=
  match s.mode, kind c with
  | .escaped, _ => (⟨s.top, .plain, s.below⟩, [.text c false])
  | _, .backslash => (⟨s.top, .escaped, s.below⟩, [.text c false])
  | _, .backquote => (s.pop, [.text c false])
  | _, _ => (⟨s.top, .plain, s.below⟩, [.text c false])

/-- A unit of the command, a subshell or a parameter expansion. -/
def State.stepUnquoted (s : State α) (c : α) : State α × List (Item α) :=
  match s.mode, kind c with
  | .single, .single => (⟨s.top, .plain, s.below⟩, [])
  | .single, _ => (⟨s.top, .single, s.below⟩, [.text c true])
  | .escaped, .newline => (⟨s.top, .plain, s.below⟩, [])
  | .escaped, _ => (s.enter .plain, s.say c true)
  | .dollar, .openParen => (⟨.command false, .substitution, s.top :: s.below⟩, [.text c false])
  | .dollar, .openBrace => (s.push .param, [.text c false])
  | .substitution, .openParen => (⟨.arithmetic, .plain, .arithmetic :: s.below⟩, [.text c false])
  | _, _ => s.unquoted c

/-- A unit in double quotes, after what came before it. -/
def State.stepQuoted (s : State α) (c : α) : State α × List (Item α) :=
  match s.mode, kind c with
  | .backslash _, .dollar => (⟨s.top, .plain, s.below⟩, [.text c true])
  | .backslash _, .backquote => (⟨s.top, .plain, s.below⟩, [.text c true])
  | .backslash _, .double => (⟨s.top, .plain, s.below⟩, [.text c true])
  | .backslash _, .backslash => (⟨s.top, .plain, s.below⟩, [.text c true])
  | .backslash _, .newline => (⟨s.top, .plain, s.below⟩, [])
  | .backslash b, _ => ((s.quoted c).1, .text b true :: (s.quoted c).2)
  | .dollar, .openParen => (⟨.command false, .substitution, s.top :: s.below⟩, [.text c false])
  | .dollar, .openBrace => (s.push .quotedParam, [.text c false])
  | _, _ => s.quoted c

/-- **One unit.** -/
def State.step (s : State α) (c : α) : State α × List (Item α) :=
  match s.top with
  | .command _ | .param => s.stepUnquoted c
  | .double | .quotedParam | .arithmetic => s.stepQuoted c
  | .backquote => s.backquoted c

/-- **The words of a command.** -/
def read : State α → List α → List (Item α)
  | _, [] => []
  | s, c :: rest => (s.step c).2 ++ read (s.step c).1 rest

/-- The state after a text. -/
def after (s : State α) (text : List α) : State α := text.foldl (fun s c => (s.step c).1) s

/-- A value as literal text: its units are quoted, wherever it stands. -/
def State.literal (s : State α) (value : List α) : State α × List (Item α) :=
  (s.enter (match s.mode with
    | .single => .single
    | _ => .plain), s.top.beginning ++ value.map fun c => .text c true)

/-- **The words of a template**, its placeholders taken for their values. -/
def readPieces (value : κ → List α) : State α → List (Piece α κ) → List (Item α)
  | _, [] => []
  | s, .unit c :: pieces => (s.step c).2 ++ readPieces value (s.step c).1 pieces
  | s, .hole key _ :: pieces =>
    (s.literal (value key)).2 ++ readPieces value (s.literal (value key)).1 pieces

end Reader

section Append

variable {α : Type} [CodeUnit α]

/-- Reading goes on where it stopped. -/
theorem read_append : ∀ (a b : List α) (s : State α),
    read s (a ++ b) = read s a ++ read (after s a) b
  | [], _, _ => rfl
  | c :: a, b, s => by
      rw [List.cons_append, read, read_append a b, read, List.append_assoc]
      rfl

/-- Reading goes on where it stopped, as far as the state is concerned. -/
theorem after_append (s : State α) (a b : List α) : after s (a ++ b) = after (after s a) b :=
  List.foldl_append

end Append

/-! ## Single quotes -/

/-- Whether the shell takes quotes at their word: in a command, or a parameter expansion
outside of double quotes. -/
def Frame.unquotes : Frame → Bool
  | .command _ | .param => true
  | _ => false

section Quotes

variable {α : Type} [CodeUnit α] {s : State α} {c : α}

/-- Where quotes count, a unit is read as one outside of double quotes. -/
theorem step_of_unquotes (htop : s.top.unquotes = true) (c : α) : s.step c = s.stepUnquoted c := by
  obtain ⟨top, mode, below⟩ := s
  cases top with
  | command inWord => rfl
  | param => rfl
  | double | quotedParam | arithmetic | backquote => cases htop

/-- In single quotes every other unit is literal. -/
theorem step_single (htop : s.top.unquotes = true) (hmode : s.mode = .single)
    (hc : kind c ≠ .single) : s.step c = (s, [.text c true]) := by
  rw [step_of_unquotes htop]
  obtain ⟨top, mode, below⟩ := s
  subst hmode
  unfold State.stepUnquoted
  cases hkind : kind c with
  | single => exact absurd hkind hc
  | _ => rfl

/-- A single quote ends them. -/
theorem step_single_quote (htop : s.top.unquotes = true) (hmode : s.mode = .single)
    (hc : kind c = .single) : s.step c = (⟨s.top, .plain, s.below⟩, []) := by
  rw [step_of_unquotes htop]
  obtain ⟨top, mode, below⟩ := s
  subst hmode
  unfold State.stepUnquoted
  rw [hc]

/-- Outside of quotes it opens them. -/
theorem step_quote (htop : s.top.unquotes = true) (hescaped : s.mode ≠ .escaped)
    (hsingle : s.mode ≠ .single) (hc : kind c = .single) :
    s.step c = (s.enter .single, s.top.beginning) := by
  rw [step_of_unquotes htop]
  unfold State.stepUnquoted State.unquoted
  obtain ⟨top, mode, below⟩ := s
  rw [hc]
  cases mode with
  | escaped => exact absurd rfl hescaped
  | single => exact absurd rfl hsingle
  | _ => rfl

/-- Outside of quotes, with nothing before it that matters. -/
theorem step_plain (htop : s.top.unquotes = true) (hmode : s.mode = .plain) (c : α) :
    s.step c = s.unquoted c := by
  rw [step_of_unquotes htop]
  unfold State.stepUnquoted
  rw [hmode]

/-- A backslash outside of quotes. -/
theorem step_backslash (htop : s.top.unquotes = true) (hmode : s.mode = .plain)
    (hc : kind c = .backslash) : s.step c = (⟨s.top, .escaped, s.below⟩, []) := by
  rw [step_of_unquotes htop]
  unfold State.stepUnquoted State.unquoted
  rw [hmode, hc]

/-- A unit after it. -/
theorem step_escaped (htop : s.top.unquotes = true) (hmode : s.mode = .escaped)
    (hc : kind c ≠ .newline) : s.step c = (s.enter .plain, s.say c true) := by
  rw [step_of_unquotes htop]
  unfold State.stepUnquoted
  rw [hmode]
  cases hkind : kind c with
  | newline => exact absurd hkind hc
  | _ => rfl

/-- A blank ends a word. -/
theorem step_blank {below : List Frame} (hc : kind c = .blank) :
    (State.inWord below).step c = (.atWord below, []) := by
  rw [step_plain rfl rfl]
  unfold State.unquoted State.inWord
  rw [hc]
  rfl

omit [CodeUnit α] in
/-- A word that has begun does not begin again. -/
theorem beginning_begun (frame : Frame) : (frame.begun.beginning : List (Item α)) = [] := by
  cases frame <;> rfl

/-- A word that has begun has begun. -/
@[simp] theorem begun_begun (frame : Frame) : frame.begun.begun = frame.begun := by
  cases frame <;> rfl

@[simp] theorem unquotes_begun (frame : Frame) : frame.begun.unquotes = frame.unquotes := by
  cases frame <;> rfl

end Quotes

/-! ## The words that are read -/

section Cut

variable {α : Type}

/-- A word: its units, each quoted or not. -/
abbrev Word (α : Type) : Type := List (α × Bool)

/-- The rest of the word that has begun, and the words after it. -/
def cutWords : List (Item α) → Word α × List (Word α)
  | [] => ([], [])
  | .start :: items => ([], (cutWords items).1 :: (cutWords items).2)
  | .text c quoted :: items => ((c, quoted) :: (cutWords items).1, (cutWords items).2)

/-- **The words of what is read**, with their quotes removed. -/
def words (items : List (Item α)) : List (Word α) := (cutWords items).2

/-- The word that is literally a text. -/
def literalWord (text : List α) : Word α := text.map fun c => (c, true)

/-- A literal text goes to the front of the word that has begun. -/
theorem cutWords_texts (text : List α) (items : List (Item α)) :
    cutWords ((text.map fun c => .text c true) ++ items) =
      (literalWord text ++ (cutWords items).1, (cutWords items).2) := by
  induction text with
  | nil => rfl
  | cons c text ih =>
      rw [List.map_cons, List.cons_append, cutWords, ih]
      rfl

/-- A literal word in front of others. -/
theorem words_literal (text : List α) {items : List (Item α)} (hitems : (cutWords items).1 = []) :
    words (.start :: (text.map fun c => .text c true) ++ items) =
      literalWord text :: words items := by
  unfold words
  rw [List.cons_append, cutWords, cutWords_texts, hitems, List.append_nil]

end Cut

/-! ## What is read of a text -/

section Weights

variable {α κ : Type} {w : α → ℕ}

/-- What the unit of an item weighs. -/
def Item.weight (w : α → ℕ) : Item α → ℕ
  | .start => 0
  | .text c _ => w c

/-- What it weighs if it is quoted. -/
def Item.quotedWeight (w : α → ℕ) : Item α → ℕ
  | .text c true => w c
  | _ => 0

/-- A backslash that may still be read. -/
def Mode.weight (w : α → ℕ) : Mode α → ℕ
  | .backslash c => w c
  | _ => 0

/-- What is quoted is read. -/
theorem quotedWeight_le : ∀ items : List (Item α),
    weight (Item.quotedWeight w) items ≤ weight (Item.weight w) items
  | [] => le_rfl
  | item :: items => by
      refine Nat.add_le_add ?_ (quotedWeight_le items)
      match item with
      | .start => exact le_rfl
      | .text c true => exact le_rfl
      | .text c false => exact Nat.zero_le _

variable [CodeUnit α] {s : State α} {c : α}

omit [CodeUnit α] in
/-- The beginning of a word is no unit. -/
@[simp] theorem weight_beginning (frame : Frame) :
    weight (Item.weight w) (frame.beginning : List (Item α)) = 0 := by
  unfold Frame.beginning
  split <;> rfl

omit [CodeUnit α] in
/-- The beginning of a word is no quoted unit. -/
@[simp] theorem quotedWeight_beginning (frame : Frame) :
    weight (Item.quotedWeight w) (frame.beginning : List (Item α)) = 0 :=
  Nat.le_zero.mp ((quotedWeight_le _).trans (weight_beginning frame).le)

omit [CodeUnit α] in
/-- Nothing waits when a frame is left. -/
@[simp] theorem pop_mode : s.pop.mode = .plain := by
  unfold State.pop
  split <;> rfl

/-- A unit outside of quotes is read once at most, and not as a quoted one. -/
theorem unquoted_weight : weight (Item.weight w) (s.unquoted c).2 ≤ w c ∧
    weight (Item.quotedWeight w) (s.unquoted c).2 = 0 ∧ (s.unquoted c).1.mode.weight w = 0 := by
  unfold State.unquoted
  split
  all_goals try split
  all_goals
    simp [State.say, State.enter, State.push, Item.weight, Item.quotedWeight, Mode.weight]

/-- A unit in double quotes is read once at most, unless it is a backslash that waits. -/
theorem quoted_weight : weight (Item.weight w) (s.quoted c).2 +
    (s.quoted c).1.mode.weight w ≤ w c := by
  unfold State.quoted
  split
  all_goals simp [State.push, Item.weight, Mode.weight]

/-- A unit in backquotes is read once at most. -/
theorem backquoted_weight :
    weight (Item.weight w) (s.backquoted c).2 + (s.backquoted c).1.mode.weight w ≤ w c := by
  unfold State.backquoted
  split
  all_goals simp [Item.weight, Mode.weight]

/-- A unit of the command is read once at most, unless it waits. -/
theorem stepUnquoted_weight :
    weight (Item.weight w) (s.stepUnquoted c).2 + (s.stepUnquoted c).1.mode.weight w ≤ w c := by
  have hunquoted : weight (Item.weight w) (s.unquoted c).2 ≤ w c ∧
    weight (Item.quotedWeight w) (s.unquoted c).2 = 0 ∧ (s.unquoted c).1.mode.weight w = 0 :=
      unquoted_weight
  unfold State.stepUnquoted
  split
  all_goals
    simp [State.say, State.enter, State.push, Item.weight, Mode.weight]
  exact (Nat.add_le_add hunquoted.1 hunquoted.2.2.le).trans (Nat.add_zero _).le

/-- A unit in double quotes is read with what waited before it. -/
theorem stepQuoted_weight : weight (Item.weight w) (s.stepQuoted c).2 +
    (s.stepQuoted c).1.mode.weight w ≤ s.mode.weight w + w c := by
  have hquoted : weight (Item.weight w) (s.quoted c).2 + (s.quoted c).1.mode.weight w ≤ w c :=
    quoted_weight
  unfold State.stepQuoted
  split
  all_goals simp_all [State.push, Item.weight, Mode.weight]
  all_goals omega

/-- **A unit is read once at most.** -/
theorem step_weight : weight (Item.weight w) (s.step c).2 + (s.step c).1.mode.weight w ≤
    s.mode.weight w + w c := by
  unfold State.step
  split
  · exact stepUnquoted_weight.trans (Nat.le_add_left _ _)
  · exact stepUnquoted_weight.trans (Nat.le_add_left _ _)
  · exact stepQuoted_weight
  · exact stepQuoted_weight
  · exact stepQuoted_weight
  · exact backquoted_weight.trans (Nat.le_add_left _ _)

/-- **No unit is read twice.** -/
theorem read_weight : ∀ (text : List α) (s : State α),
    weight (Item.weight w) (read s text) ≤ s.mode.weight w + weight w text
  | [], s => Nat.zero_le _
  | c :: text, s => by
      have hstep : weight (Item.weight w) (s.step c).2 + (s.step c).1.mode.weight w ≤
        s.mode.weight w + w c := step_weight
      have hrest := read_weight text (s.step c).1
      rw [read, weight_append, weight_cons]
      omega

/-- A single quote in double quotes, or in an expansion in them, is read. -/
theorem step_quote_text (htop : s.top.unquotes = false) (hc : kind c = .single) :
    w c ≤ weight (Item.weight w) (s.step c).2 := by
  obtain ⟨top, mode, below⟩ := s
  cases top with
  | command inWord => cases htop
  | param => cases htop
  | backquote =>
      unfold State.step State.backquoted
      rw [hc]
      cases mode <;> exact le_rfl
  | double | quotedParam | arithmetic =>
      unfold State.step State.stepQuoted State.quoted
      rw [hc]
      cases mode with
      | backslash b => exact Nat.le_add_left _ _
      | _ => exact le_rfl

/-- What a step reads is read. -/
theorem step_le_read (text : List α) :
    weight (Item.weight w) (s.step c).2 ≤ weight (Item.weight w) (read s (c :: text)) := by
  rw [read, weight_append]
  exact Nat.le_add_right _ _

/-! ## What is read of a template -/

variable {value : κ → List α} {pieces : List (Piece α κ)}

omit [CodeUnit α] in
/-- A literal value is read, and all of it is quoted. -/
theorem literal_weight {v : List α} : weight (Item.weight w) (s.literal v).2 = weight w v ∧
    weight (Item.quotedWeight w) (s.literal v).2 = weight w v ∧
    (s.literal v).1.mode.weight w = 0 := by
  unfold State.literal
  refine ⟨?_, ?_, ?_⟩
  · rw [weight_append, weight_beginning, Nat.zero_add]
    unfold Async.weight
    rw [List.map_map]
    rfl
  · rw [weight_append, quotedWeight_beginning, Nat.zero_add]
    unfold Async.weight
    rw [List.map_map]
    rfl
  · dsimp only [State.enter]
    split <;> rfl

/-- Where neither units nor values weigh anything, nothing that is read does. -/
theorem readPieces_weight (hvalues : ∀ key, weight w (value key) = 0) :
    ∀ {pieces : List (Piece α κ)} {s : State α}, (∀ c, Piece.unit c ∈ pieces → w c = 0) →
      s.mode.weight w = 0 → weight (Item.weight w) (readPieces value s pieces) = 0
  | [], _, _, _ => rfl
  | .unit c :: pieces, s, hunits, hs => by
      have hstep : weight (Item.weight w) (s.step c).2 + (s.step c).1.mode.weight w ≤
        s.mode.weight w + w c := step_weight
      rw [hs, hunits c List.mem_cons_self] at hstep
      rw [readPieces, weight_append, readPieces_weight hvalues
        (fun d hd => hunits d (List.mem_cons_of_mem _ hd)) (by omega)]
      omega
  | .hole key text :: pieces, s, hunits, _ => by
      rw [readPieces, weight_append, literal_weight.1, hvalues, readPieces_weight hvalues
        (fun d hd => hunits d (List.mem_cons_of_mem _ hd)) literal_weight.2.2]

/-- **All values are read, as quoted ones.** -/
theorem readPieces_quoted {filled : κ → List α}
    (hfilled : ∀ key, weight w (filled key) = weight w (value key)) :
    ∀ {pieces : List (Piece α κ)} {s : State α}, (∀ c, Piece.unit c ∈ pieces → w c = 0) →
      weight w (fill (fun key => some (filled key)) pieces) ≤
        weight (Item.quotedWeight w) (readPieces value s pieces)
  | [], _, _ => le_rfl
  | .unit c :: pieces, s, hunits => by
      rw [fill, readPieces, weight_cons, weight_append, hunits c List.mem_cons_self, Nat.zero_add]
      exact (readPieces_quoted hfilled fun d hd => hunits d (List.mem_cons_of_mem _ hd)).trans
        (Nat.le_add_left _ _)
  | .hole key text :: pieces, s, hunits => by
      rw [fill, readPieces, weight_append, weight_append, Option.getD_some, literal_weight.2.1,
        hfilled]
      exact Nat.add_le_add_left (readPieces_quoted hfilled
        fun d hd => hunits d (List.mem_cons_of_mem _ hd)) _

/-- **Where a value in single quotes is literal text**: outside of quotes and not after a
backslash; and an empty one, in single quotes. -/
def State.Open (s : State α) (v : List α) : Prop :=
  s.top.unquotes = true ∧ s.mode ≠ .escaped ∧ (s.mode = .single → v = [])

instance [DecidableEq α] (s : State α) (v : List α) : Decidable (s.Open v) :=
  inferInstanceAs (Decidable (_ ∧ _ ∧ _))

/-- **Every placeholder stands where its value, in single quotes, is literal text.** -/
def Placed (value : κ → List α) : State α → List (Piece α κ) → Prop
  | _, [] => True
  | s, .unit c :: pieces => Placed value (s.step c).1 pieces
  | s, .hole key _ :: pieces =>
    s.Open (value key) ∧ Placed value (s.literal (value key)).1 pieces

instance Placed.decidable [DecidableEq α] (value : κ → List α) :
    ∀ (s : State α) (pieces : List (Piece α κ)), Decidable (Placed value s pieces)
  | _, [] => .isTrue trivial
  | s, .unit c :: pieces => Placed.decidable value (s.step c).1 pieces
  | s, .hole key _ :: pieces =>
    have := Placed.decidable value (s.literal (value key)).1 pieces
    inferInstanceAs (Decidable (s.Open (value key) ∧
      Placed value (s.literal (value key)).1 pieces))

/-- Up to the first placeholder. -/
theorem placed_units (value : κ → List α) : ∀ (a : List α) (pieces : List (Piece α κ))
    (s : State α), Placed value s (a.map .unit ++ pieces) ↔ Placed value (after s a) pieces
  | [], _, _ => Iff.rfl
  | c :: a, pieces, s => placed_units value a pieces (s.step c).1

end Weights

/-! ## Labels -/

section Label

variable {α β : Type} [CodeUnit α] [CodeUnit β] {f : α → β}

/-- An item with other labels. -/
def Item.map (f : α → β) : Item α → Item β
  | .start => .start
  | .text c quoted => .text (f c) quoted

/-- A mode with other labels. -/
def Mode.map (f : α → β) : Mode α → Mode β
  | .plain => .plain
  | .single => .single
  | .escaped => .escaped
  | .backslash c => .backslash (f c)
  | .dollar => .dollar
  | .substitution => .substitution

/-- A state with other labels. -/
def State.map (f : α → β) (s : State α) : State β := ⟨s.top, s.mode.map f, s.below⟩

/-- Labels do not change what a unit means. -/
theorem kind_map (hf : Relabels f) (c : α) : kind (f c) = kind c := by
  unfold kind
  rw [hf c]

/-- Each state of the shell reads a relabelled character as it reads the character: the step looks
at the class of it only. -/
theorem unquoted_map (hf : Relabels f) (s : State α) (c : α) : (s.map f).unquoted (f c) =
    ((s.unquoted c).1.map f, (s.unquoted c).2.map (Item.map f)) := by
  obtain ⟨top, mode, below⟩ := s
  unfold State.unquoted
  rw [kind_map hf]
  cases top with
  | command inWord => cases inWord <;> cases kind c <;> cases below <;> rfl
  | _ => cases kind c <;> cases below <;> rfl

theorem quoted_map (hf : Relabels f) (s : State α) (c : α) : (s.map f).quoted (f c) =
    ((s.quoted c).1.map f, (s.quoted c).2.map (Item.map f)) := by
  obtain ⟨top, mode, below⟩ := s
  unfold State.quoted
  rw [kind_map hf]
  cases kind c <;> cases top <;> cases below <;> rfl

theorem backquoted_map (hf : Relabels f) (s : State α) (c : α) : (s.map f).backquoted (f c) =
    ((s.backquoted c).1.map f, (s.backquoted c).2.map (Item.map f)) := by
  obtain ⟨top, mode, below⟩ := s
  unfold State.backquoted
  rw [kind_map hf]
  cases mode <;> cases kind c <;> cases below <;> rfl

theorem stepUnquoted_map (hf : Relabels f) (s : State α) (c : α) : (s.map f).stepUnquoted (f c) =
    ((s.stepUnquoted c).1.map f, (s.stepUnquoted c).2.map (Item.map f)) := by
  have hunquoted := unquoted_map hf s c
  obtain ⟨top, mode, below⟩ := s
  unfold State.stepUnquoted
  rw [kind_map hf]
  cases mode with
  | plain => exact hunquoted
  | backslash b => exact hunquoted
  | escaped =>
      cases kind c <;> try rfl
      all_goals
        cases top with
        | command inWord => cases inWord <;> rfl
        | _ => rfl
  | single => cases kind c <;> rfl
  | dollar => cases kind c <;> first | rfl | exact hunquoted
  | substitution => cases kind c <;> first | rfl | exact hunquoted

theorem stepQuoted_map (hf : Relabels f) (s : State α) (c : α) : (s.map f).stepQuoted (f c) =
    ((s.stepQuoted c).1.map f, (s.stepQuoted c).2.map (Item.map f)) := by
  have hquoted := quoted_map hf s c
  have hkept : ∀ b, (((s.map f).quoted (f c)).1,
      Item.text (f b) true :: ((s.map f).quoted (f c)).2) =
        ((s.quoted c).1.map f, (Item.text b true :: (s.quoted c).2).map (Item.map f)) :=
    fun b => by rw [hquoted]; rfl
  obtain ⟨top, mode, below⟩ := s
  unfold State.stepQuoted
  rw [kind_map hf]
  cases mode with
  | backslash b => cases kind c <;> first | rfl | exact hkept b
  | dollar => cases kind c <;> first | rfl | exact hquoted
  | _ => exact hquoted

/-- **Labels do not change what a step reads.** -/
theorem step_map (hf : Relabels f) (s : State α) (c : α) : (s.map f).step (f c) =
    ((s.step c).1.map f, (s.step c).2.map (Item.map f)) := by
  have hunquoted := stepUnquoted_map hf s c
  have hquoted := stepQuoted_map hf s c
  have hbackquoted := backquoted_map hf s c
  obtain ⟨top, mode, below⟩ := s
  cases top with
  | command inWord => exact hunquoted
  | param => exact hunquoted
  | backquote => exact hbackquoted
  | _ => exact hquoted

/-- So labels pass through the shell, by induction on the text. -/
theorem read_map (hf : Relabels f) : ∀ (text : List α) (s : State α),
    read (s.map f) (text.map f) = (read s text).map (Item.map f)
  | [], _ => rfl
  | c :: text, s => by
      rw [List.map_cons, read, read, step_map hf, List.map_append, read_map hf text]

end Label

end Shell

end Async
