import CodeCaller.Daemon.SpawnPlan
import CodeCaller.Library.Runs

/-!
# What `tokenize` cuts

The separators of a template, by their positions: the blanks that no backslash escapes and an even
number of quotes stands before.  `tokenize_runs` says that the tokens are what they leave.

The loop is behind a template's unit by the state it carries.  `tokenize_take` says what that state
is after every prefix: the tokens are the runs that ended, the partial one is the open run, and the
two flags are those of the next position.

The definitions by position (`secondOfPair`, `quotesBefore`, `separator`) do not mention the loop,
and `Library.Runs` says what the maximal runs between separators are, for any list and any choice
of separators.
-/

namespace CodeCaller

open Async

variable (template : JsString)

/-- Whether the unit at a position is the second of a backslash pair, the pairs read from
the left. -/
def secondOfPair : ℕ → Bool
  | 0 => false
  | i + 1 => template[i]? == some 92 && !secondOfPair i

/-- The double quotes before a position that are not the second of a pair. -/
def quotesBefore (i : ℕ) : ℕ :=
  (List.range i).countP fun j => template[j]? == some 34 && !secondOfPair template j

/-- **A separator**: a blank, not the second of a pair, after an even number of quotes. -/
def separator (i : ℕ) : Bool :=
  template[i]?.any isSpace && !secondOfPair template i && quotesBefore template i % 2 == 0

/-- What the loop has of quotes at a position. -/
def quotedAt (i : ℕ) : Bool := quotesBefore template i % 2 == 1

variable {template} {i : ℕ} {ch : UInt16}

/-- A backslash that is not the second of a pair makes the next unit one. -/
theorem secondOfPair_succ (hch : template[i]? = some ch) :
    secondOfPair template (i + 1) = (ch == 92 && !secondOfPair template i) := by
  rw [secondOfPair, hch]
  rfl

/-- A quote that counts is one more. -/
theorem quotedAt_succ (hch : template[i]? = some ch) :
    quotedAt template (i + 1) =
      if ch = 34 ∧ secondOfPair template i = false then !quotedAt template i
      else quotedAt template i := by
  unfold quotedAt quotesBefore
  rw [List.range_succ, List.countP_append, List.countP_singleton, hch]
  generalize List.countP _ _ = n
  by_cases hquote : ch = 34 ∧ secondOfPair template i = false
  · have hcount : (some ch == some 34 && !secondOfPair template i) = true := by
      rw [hquote.1, hquote.2]
      rfl
    rw [if_pos hquote, if_pos hcount]
    rcases Nat.mod_two_eq_zero_or_one n with h | h <;> simp [Nat.add_mod, h]
  · rw [if_neg hquote, if_neg]
    · rfl
    · intro hcount
      simp only [Bool.and_eq_true, beq_iff_eq, Option.some.injEq, Bool.not_eq_true'] at hcount
      exact hquote hcount

/-- A separator is a blank outside of pairs and of quotes. -/
theorem separator_eq (hch : template[i]? = some ch) :
    separator template i = (isSpace ch && !secondOfPair template i && !quotedAt template i) := by
  unfold separator quotedAt
  rw [hch, Option.any_some]
  rcases Nat.mod_two_eq_zero_or_one (quotesBefore template i) with h | h <;> rw [h] <;> rfl

/-! ## The loop -/

/-- **The loop after a prefix of the template.** -/
theorem tokenize_take (template : JsString) : ∀ i ≤ template.length,
    tokenize template = (endedRuns (separator template) i).map (slice template) ++
      tokenizeFrom (slice template (runStart (separator template) i, i)) (quotedAt template i)
        (secondOfPair template i) (template.drop i) := by
  intro i
  induction i with
  | zero => exact fun _ => rfl
  | succ i ih =>
      intro hi
      have hch : template[i]? = some template[i] := List.getElem?_eq_getElem hi
      have hquoted := quotedAt_succ hch
      have hsecond := secondOfPair_succ hch
      have hseparator := separator_eq hch
      rw [ih (Nat.le_of_succ_le hi), List.drop_eq_getElem_cons hi, tokenizeFrom]
      -- the second of a pair is taken as it is, whatever it is
      by_cases hescaped : secondOfPair template i = true
      · rw [hescaped, Bool.not_true, Bool.and_false] at hsecond
        rw [hescaped, Bool.not_true, Bool.and_false, Bool.false_and] at hseparator
        rw [if_neg fun h => by rw [hescaped] at h; cases h.2] at hquoted
        obtain ⟨hended, hopen⟩ := grow_of_not hseparator hi
        rw [if_pos hescaped, hended, hopen, hquoted, hsecond]
      rw [if_neg hescaped]
      rw [Bool.not_eq_true] at hescaped
      rw [hescaped, Bool.not_false, Bool.and_true] at hsecond hseparator
      -- a backslash begins a pair
      by_cases hslash : template[i] = 92
      · have hnot : isSpace 92 = false := by decide
        rw [hslash, hnot, Bool.false_and] at hseparator
        rw [hslash, if_neg fun h => by cases h.1] at hquoted
        obtain ⟨hended, hopen⟩ := grow_of_not hseparator hi
        rw [if_pos hslash, hended, hopen, hquoted, hsecond, hslash]
        rfl
      rw [if_neg hslash]
      rw [beq_eq_false_iff_ne.mpr hslash] at hsecond
      -- a quote that counts is kept, and changes the parity
      by_cases hquote : template[i] = 34
      · have hnot : isSpace 34 = false := by decide
        rw [hquote, hnot, Bool.false_and] at hseparator
        rw [if_pos ⟨hquote, hescaped⟩] at hquoted
        obtain ⟨hended, hopen⟩ := grow_of_not hseparator hi
        rw [if_pos hquote, hended, hopen, hquoted, hsecond]
      rw [if_neg hquote]
      rw [if_neg fun h => hquote h.1] at hquoted
      -- a separator ends the partial token, if there is one
      by_cases hspace : (isSpace template[i] && !quotedAt template i) = true
      · have hseparates : separator template i = true := hseparator.trans hspace
        rw [if_pos hspace, endedRuns_of_separates hseparates, runStart_of_separates hseparates,
          slice_self, hquoted, hsecond, List.map_append]
        split
        · next hnil => rw [map_openRun_of_nil (Nat.le_of_succ_le hi) hnil, List.append_nil]
        · next hne =>
          rw [map_openRun (Nat.le_of_succ_le hi) hne, List.append_assoc, List.singleton_append]
      · rw [Bool.not_eq_true] at hspace
        -- any other unit is kept
        obtain ⟨hended, hopen⟩ := grow_of_not (hseparator.trans hspace) hi
        rw [hspace, hended, hopen, hquoted, hsecond]
        rfl

/-- The tokens are the runs of the template. -/
theorem tokenize_eq (template : JsString) :
    tokenize template = (runs (separator template) template.length).map (slice template) := by
  rw [tokenize_take template template.length le_rfl, List.drop_length]
  unfold runs tokenizeFrom
  rw [List.map_append]
  -- at the end the partial token is pushed, if there is one
  congr 1
  split
  · next hnil => rw [map_openRun_of_nil le_rfl hnil]
  · next hne => rw [map_openRun le_rfl hne]

/-- **`tokenize` loses and invents nothing**: no token is empty, the tokens together are the
template without its separators, and they are its maximal runs between separators, in their
order. -/
theorem tokenize_runs (template : JsString) :
    (∀ token ∈ tokenize template, token ≠ []) ∧
    (tokenize template).flatten = withoutSeparators (separator template) template ∧
    ∃ between : List (ℕ × ℕ), between.Pairwise (fun run next => run.2 < next.1) ∧
      (∀ run, run ∈ between ↔ MaximalRun (separator template) template.length run) ∧
      tokenize template = between.map (slice template) := by
  rw [tokenize_eq]
  refine ⟨fun token htoken => ?_, flatten_runs template, _, runs_pairwise _, fun _ => mem_runs_iff,
    rfl⟩
  obtain ⟨run, hrun, rfl⟩ := List.mem_map.mp htoken
  exact slice_ne_nil hrun

/-- An escaped blank, an escaped quote, an unclosed one and a backslash at the end. -/
example : tokenize (js " a\\ b  \\\"c \"d e\\") = [js "a\\ b", js "\\\"c", js "\"d e\\"] := by
  decide

end CodeCaller
