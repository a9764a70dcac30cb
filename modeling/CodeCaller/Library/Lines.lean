import CodeCaller.Library.JsString

/-!
# Lines of a text

`s.split(/\r?\n/)` and `lines.join('\n')`.  A text is cut at every line feed; a carriage return
right before one goes with it.

* `exists_splitLines_append`: cutting a text at a line feed cuts its lines there, so what comes
  after a line feed has no influence on the lines before it.
* `splitLines_joined`: lines without breaks that are joined, each with its line feed, are found
  again.
* `unbroken_of_mem`: the lines of a text have no breaks, where a carriage return stands before a
  line feed only (`ReturnsBeforeFeeds`).

### What is load-bearing

The condition on carriage returns.  `\r` alone does not separate lines for the regular expression,
but editors and shells treat it as a break; a text with such a unit has a line in the sense of this
module that is not one line elsewhere.
-/

namespace Async

namespace JsString

/-- The line feed and the carriage return. -/
def LF : UInt16 := 10
/-- The carriage return. -/
def CR : UInt16 := 13

/-- A unit in front of the first line. -/
def consLine (c : UInt16) : List JsString → List JsString
  | [] => [[c]]
  | line :: lines => (c :: line) :: lines

/-- **`s.split(/\r?\n/)`.** -/
def splitLines : JsString → List JsString
  | [] => [[]]
  | c :: rest =>
    if c = LF then [] :: splitLines rest
    else if c = CR ∧ rest.head? = some LF then splitLines rest
    else consLine c (splitLines rest)

/-- A line feed ends an empty line. -/
theorem splitLines_LF (rest : JsString) : splitLines (LF :: rest) = [] :: splitLines rest :=
  if_pos rfl

/-- The first line is in the first part. -/
theorem consLine_append {c : UInt16} {lines : List JsString} (hne : lines ≠ [])
    (more : List JsString) : consLine c (lines ++ more) = consLine c lines ++ more := by
  cases lines with
  | nil => exact absurd rfl hne
  | cons line lines => rfl

/-- There is always a line. -/
theorem consLine_ne_nil (c : UInt16) (lines : List JsString) : consLine c lines ≠ [] := by
  cases lines with
  | nil => exact List.cons_ne_nil _ _
  | cons line lines => exact List.cons_ne_nil _ _

/-- **A text is cut at every line feed**: the lines before it do not depend on what comes
after. -/
theorem exists_splitLines_append : ∀ front : JsString, ∃ lines, lines ≠ [] ∧
    ∀ back, splitLines (front ++ LF :: back) = lines ++ splitLines back
  | [] => ⟨[[]], List.cons_ne_nil _ _, fun back => splitLines_LF back⟩
  | c :: front => by
      obtain ⟨lines, hne, hlines⟩ := exists_splitLines_append front
      have hhead : ∀ back, (front ++ LF :: back).head? = (front ++ [LF]).head? := by
        intro back
        cases front with
        | nil => rfl
        | cons d front => rfl
      by_cases hfeed : c = LF
      · refine ⟨[] :: lines, List.cons_ne_nil _ _, fun back => ?_⟩
        rw [hfeed, List.cons_append, splitLines_LF, hlines]
        rfl
      · by_cases hreturn : c = CR ∧ (front ++ [LF]).head? = some LF
        · refine ⟨lines, hne, fun back => ?_⟩
          rw [List.cons_append, splitLines, if_neg hfeed, hhead, if_pos hreturn, hlines]
        · refine ⟨consLine c lines, consLine_ne_nil c lines, fun back => ?_⟩
          rw [List.cons_append, splitLines, if_neg hfeed, hhead, if_neg hreturn, hlines,
            consLine_append hne]

/-- A line without breaks. -/
def Unbroken (line : JsString) : Prop := LF ∉ line ∧ CR ∉ line

/-- What is left of a line has no breaks either. -/
theorem Unbroken.tail {c : UInt16} {line : JsString} (h : Unbroken (c :: line)) :
    Unbroken line :=
  ⟨fun hmem => h.1 (List.mem_cons_of_mem _ hmem), fun hmem => h.2 (List.mem_cons_of_mem _ hmem)⟩

/-- One unit of such a line. -/
theorem Unbroken.splitLines_cons {c : UInt16} {line : JsString} (h : Unbroken (c :: line))
    (rest : JsString) : splitLines (c :: rest) = consLine c (splitLines rest) := by
  have hfeed : c ≠ LF := fun heq => h.1 (heq ▸ List.mem_cons_self)
  have hreturn : c ≠ CR := fun heq => h.2 (heq ▸ List.mem_cons_self)
  rw [splitLines, if_neg hfeed, if_neg fun hboth => hreturn hboth.1]

/-- A line is found again, in front of a line feed. -/
theorem Unbroken.splitLines_append : ∀ {line : JsString}, Unbroken line → ∀ back,
    splitLines (line ++ LF :: back) = line :: splitLines back
  | [], _, back => splitLines_LF back
  | c :: line, h, back => by
      rw [List.cons_append, h.splitLines_cons, h.tail.splitLines_append]
      rfl

/-- **Lines that are joined, each with its line feed, are found again.** -/
theorem splitLines_joined : ∀ {lines : List JsString}, (∀ line ∈ lines, Unbroken line) →
    splitLines (lines.flatMap fun line => line ++ [LF]) = lines ++ [[]]
  | [], _ => rfl
  | line :: lines, h => by
      have hline : Unbroken line := h line List.mem_cons_self
      rw [List.flatMap_cons, List.append_assoc, List.singleton_append,
        hline.splitLines_append,
        splitLines_joined fun other hother => h other (List.mem_cons_of_mem _ hother)]
      rfl

/-- `lines.join('\n')` with a line feed behind it. -/
theorem join_LF : ∀ {lines : List JsString}, lines ≠ [] →
    join lines [LF] ++ [LF] = lines.flatMap fun line => line ++ [LF]
  | [line], _ => by simp [join, List.intercalate]
  | line :: next :: lines, _ => by
      have hrest := @join_LF (next :: lines) (List.cons_ne_nil _ _)
      rw [List.flatMap_cons, ← hrest]
      simp [join, List.intercalate]

/-- A text in which a carriage return stands before a line feed only. -/
def ReturnsBeforeFeeds : JsString → Prop
  | [] => True
  | c :: rest => (c = CR → rest.head? = some LF) ∧ ReturnsBeforeFeeds rest

instance decidableReturns : DecidablePred ReturnsBeforeFeeds
  | [] => inferInstanceAs (Decidable True)
  | c :: rest =>
    have : Decidable (ReturnsBeforeFeeds rest) := decidableReturns rest
    inferInstanceAs (Decidable ((c = CR → rest.head? = some LF) ∧ ReturnsBeforeFeeds rest))

/-- Its lines have no breaks. -/
theorem unbroken_of_mem : ∀ {s : JsString}, ReturnsBeforeFeeds s →
    ∀ line ∈ splitLines s, Unbroken line
  | [], _, line, hline => by
      rw [List.mem_singleton.mp hline]
      exact ⟨List.not_mem_nil, List.not_mem_nil⟩
  | c :: rest, h, line, hline => by
      have hrest := unbroken_of_mem h.2
      unfold splitLines at hline
      split_ifs at hline with hfeed hreturn
      · rcases List.mem_cons.mp hline with rfl | hline
        · exact ⟨List.not_mem_nil, List.not_mem_nil⟩
        · exact hrest line hline
      · exact hrest line hline
      · have hc : c ≠ CR := fun heq => hreturn ⟨heq, h.1 heq⟩
        unfold consLine at hline
        split at hline
        · rw [List.mem_singleton.mp hline]
          exact ⟨by simpa using Ne.symm hfeed, by simpa using Ne.symm hc⟩
        · next first lines heq =>
          rcases List.mem_cons.mp hline with rfl | hline
          · obtain ⟨hnofeed, hnoreturn⟩ := hrest first (heq ▸ List.mem_cons_self)
            constructor
            · rw [List.mem_cons, not_or]
              exact ⟨Ne.symm hfeed, hnofeed⟩
            · rw [List.mem_cons, not_or]
              exact ⟨Ne.symm hc, hnoreturn⟩
          · exact hrest line (heq ▸ List.mem_cons_of_mem _ hline)

end JsString

end Async
