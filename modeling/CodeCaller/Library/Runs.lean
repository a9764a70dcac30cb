import Mathlib.Data.List.Basic
import Mathlib.Order.Nat
import Mathlib.Tactic.Common

/-!
# Runs between separators

Some positions of a list are separators.  What they leave between them are the runs of the list.
`runs` finds them from the left, as intervals of positions, by a scan that keeps where the run it
is in began.

* `mem_runs_iff`: the scan finds exactly the maximal runs, those non-empty intervals without a
  separator that neither end can be moved outwards of.
* `runs_pairwise`: it finds them in their order, with a separator between any two.
* `flatten_runs`: what they hold, one after the other, is the list without its separators.
* `slice_ne_nil`: none is empty.

### How the proofs go

The scan has two parts, the runs that have ended (`endedRuns`) and the one that is open
(`openRun`), and each lemma is an induction on the position with one case for a separator and one
for the others.  `runStart_spec` is the invariant: nothing separates from the start of the open run
on, and a separator stands right before it.

A tokenizer that works unit by unit, with a state that says whether the next unit separates, is an
instance: `separates` is that state along the text.
-/

namespace Async

section Positions

variable (separates : ℕ → Bool)

/-- **A maximal run** of positions below `n`, from `run.1` up to `run.2`. -/
structure MaximalRun (n : ℕ) (run : ℕ × ℕ) : Prop where
  nonempty : run.1 < run.2
  bounded : run.2 ≤ n
  inside : ∀ i, run.1 ≤ i → i < run.2 → separates i = false
  before : run.1 = 0 ∨ separates (run.1 - 1) = true
  after : run.2 = n ∨ separates run.2 = true

/-! ## The scan -/

/-- Where the run that a scan up to `i` is in began. -/
def runStart : ℕ → ℕ
  | 0 => 0
  | i + 1 => if separates i then i + 1 else runStart i

/-- That run, unless it is empty. -/
def openRun (i : ℕ) : List (ℕ × ℕ) :=
  if runStart separates i < i then [(runStart separates i, i)] else []

/-- The runs that ended at a separator below `i`. -/
def endedRuns : ℕ → List (ℕ × ℕ)
  | 0 => []
  | i + 1 => if separates i then endedRuns i ++ openRun separates i else endedRuns i

/-- **The runs of the positions below `n`.** -/
def runs (n : ℕ) : List (ℕ × ℕ) := endedRuns separates n ++ openRun separates n

variable {separates} {i n : ℕ} {run : ℕ × ℕ}

/-- A separator starts a run behind it. -/
theorem runStart_of_separates (h : separates i = true) : runStart separates (i + 1) = i + 1 :=
  if_pos h

/-- Any other position goes on with the run. -/
theorem runStart_of_not (h : separates i = false) :
    runStart separates (i + 1) = runStart separates i := by
  rw [runStart, h]
  rfl

/-- A separator ends the open run. -/
theorem endedRuns_of_separates (h : separates i = true) :
    endedRuns separates (i + 1) = endedRuns separates i ++ openRun separates i :=
  if_pos h

/-- Any other position ends nothing. -/
theorem endedRuns_of_not (h : separates i = false) :
    endedRuns separates (i + 1) = endedRuns separates i := by
  rw [endedRuns, h]
  rfl

/-- A run starts no later than where the scan is. -/
theorem runStart_le : ∀ i, runStart separates i ≤ i
  | 0 => le_rfl
  | i + 1 => by
      unfold runStart
      split
      · exact le_rfl
      · exact (runStart_le i).trans (Nat.le_succ i)

/-- **Nothing separates from the start on, and a separator stands before it.** -/
theorem runStart_spec : ∀ i,
    (∀ j, runStart separates i ≤ j → j < i → separates j = false) ∧
      (runStart separates i = 0 ∨ separates (runStart separates i - 1) = true)
  | 0 => ⟨fun _ _ hj => absurd hj (Nat.not_lt_zero _), .inl rfl⟩
  | i + 1 => by
      obtain ⟨hinside, hbefore⟩ := runStart_spec i
      cases hi : separates i with
      | true =>
          rw [runStart_of_separates hi]
          exact ⟨fun j hstart hj => absurd hstart (Nat.not_le.mpr hj), .inr hi⟩
      | false =>
          rw [runStart_of_not hi]
          refine ⟨fun j hstart hj => ?_, hbefore⟩
          rcases Nat.lt_succ_iff_lt_or_eq.mp hj with hlt | rfl
          · exact hinside j hstart hlt
          · exact hi

/-- There is one such start. -/
theorem eq_runStart (hle : n ≤ i) (hinside : ∀ j, n ≤ j → j < i → separates j = false)
    (hbefore : n = 0 ∨ separates (n - 1) = true) : n = runStart separates i := by
  obtain ⟨hstart, hsep⟩ := @runStart_spec separates i
  have hbound : runStart separates i ≤ i := runStart_le i
  rcases Nat.lt_trichotomy n (runStart separates i) with hlt | heq | hgt
  · rcases hsep with hzero | hsep
    · omega
    · rw [hinside _ (by omega) (by omega)] at hsep
      cases hsep
  · exact heq
  · rcases hbefore with hzero | hsep
    · omega
    · rw [hstart _ (by omega) (by omega)] at hsep
      cases hsep

/-- The open run is maximal below `i`. -/
theorem mem_openRun_iff : run ∈ openRun separates i ↔ run.2 = i ∧ MaximalRun separates i run := by
  obtain ⟨hinside, hbefore⟩ := @runStart_spec separates i
  unfold openRun
  constructor
  · intro hrun
    split at hrun
    · next hlt =>
      rw [List.mem_singleton] at hrun
      subst hrun
      exact ⟨rfl, hlt, le_rfl, hinside, hbefore, .inl rfl⟩
    · cases hrun
  · rintro ⟨rfl, hmax⟩
    have hstart := eq_runStart hmax.nonempty.le hmax.inside hmax.before
    rw [← hstart, if_pos hmax.nonempty]
    exact List.mem_singleton_self _

/-- The runs that ended are those whose end is a separator below `i`. -/
theorem mem_endedRuns_iff :
    ∀ {i : ℕ}, run ∈ endedRuns separates i ↔ run.2 < i ∧ MaximalRun separates i run
  | 0 => iff_of_false List.not_mem_nil fun h => Nat.not_lt_zero _ h.1
  | i + 1 => by
      -- a run that ends below `i` is maximal below `i + 1` if it is below `i`
      have hlater : run.2 < i →
        (MaximalRun separates (i + 1) run ↔ MaximalRun separates i run) := by
        intro hlt
        constructor
        · rintro ⟨hne, -, hinside, hbefore, hafter⟩
          exact ⟨hne, hlt.le, hinside, hbefore, .inr (hafter.resolve_left (by omega))⟩
        · rintro ⟨hne, hle, hinside, hbefore, hafter⟩
          exact ⟨hne, by omega, hinside, hbefore, .inr (hafter.resolve_left (by omega))⟩
      cases hi : separates i with
      | true =>
          -- a separator at `i` ends the open run
          have hlast : run.2 = i →
            (MaximalRun separates (i + 1) run ↔ MaximalRun separates i run) := by
            rintro rfl
            constructor
            · rintro ⟨hne, -, hinside, hbefore, -⟩
              exact ⟨hne, le_rfl, hinside, hbefore, .inl rfl⟩
            · rintro ⟨hne, hle, hinside, hbefore, -⟩
              exact ⟨hne, by omega, hinside, hbefore, .inr hi⟩
          rw [endedRuns_of_separates hi, List.mem_append, mem_endedRuns_iff, mem_openRun_iff]
          constructor
          · rintro (⟨hlt, hmax⟩ | ⟨heq, hmax⟩)
            · exact ⟨by omega, (hlater hlt).mpr hmax⟩
            · exact ⟨by omega, (hlast heq).mpr hmax⟩
          · rintro ⟨hle, hmax⟩
            rcases Nat.lt_succ_iff_lt_or_eq.mp hle with hlt | heq
            · exact .inl ⟨hlt, (hlater hlt).mp hmax⟩
            · exact .inr ⟨heq, (hlast heq).mp hmax⟩
      | false =>
          rw [endedRuns_of_not hi, mem_endedRuns_iff]
          constructor
          · rintro ⟨hlt, hmax⟩
            exact ⟨by omega, (hlater hlt).mpr hmax⟩
          · rintro ⟨hle, hmax⟩
            rcases Nat.lt_succ_iff_lt_or_eq.mp hle with hlt | heq
            · exact ⟨hlt, (hlater hlt).mp hmax⟩
            · -- a run that ends at `i` has a separator there
              have hsep := hmax.after.resolve_left (by omega)
              rw [heq, hi] at hsep
              cases hsep

/-- **The runs are the maximal ones.** -/
theorem mem_runs_iff : run ∈ runs separates n ↔ MaximalRun separates n run := by
  unfold runs
  rw [List.mem_append, mem_endedRuns_iff, mem_openRun_iff, ← or_and_right, ← le_iff_lt_or_eq]
  exact and_iff_right_of_imp fun hmax => hmax.bounded

/-- A run that ended, ended before the open one began. -/
theorem lt_runStart (hrun : run ∈ endedRuns separates i) : run.2 < runStart separates i := by
  obtain ⟨hlt, hmax⟩ := mem_endedRuns_iff.mp hrun
  have hsep := hmax.after.resolve_left hlt.ne
  by_contra hle
  rw [(@runStart_spec separates i).1 run.2 (Nat.not_lt.mp hle) hlt] at hsep
  cases hsep

/-- They come in their order, with a separator between them. -/
theorem runs_pairwise (n : ℕ) :
    (runs separates n).Pairwise fun run next => run.2 < next.1 := by
  have happend : ∀ i, (endedRuns separates i).Pairwise (fun run next => run.2 < next.1) →
      (endedRuns separates i ++ openRun separates i).Pairwise fun run next => run.2 < next.1 := by
    intro i hended
    refine List.pairwise_append.mpr ⟨hended, ?_, fun run hrun next hnext => ?_⟩
    · unfold openRun
      split
      · exact List.pairwise_singleton _ _
      · exact List.Pairwise.nil
    · unfold openRun at hnext
      split at hnext
      · rw [List.mem_singleton.mp hnext]
        exact lt_runStart hrun
      · cases hnext
  -- the runs that ended keep their order at each step
  have hended : ∀ i, (endedRuns separates i).Pairwise fun run next => run.2 < next.1 := by
    intro i
    induction i with
    | zero => exact List.Pairwise.nil
    | succ i ih =>
        unfold endedRuns
        split
        · exact happend i ih
        · exact ih
  exact happend n (hended n)

end Positions

/-! ## The elements of a run -/

section Elements

variable {α : Type} {separates : ℕ → Bool} {l : List α} {i start : ℕ}

/-- The elements of a list at the positions of a run. -/
def slice (l : List α) (run : ℕ × ℕ) : List α := (l.take run.2).drop run.1

/-- The list without its separators. -/
def withoutSeparators (separates : ℕ → Bool) (l : List α) : List α :=
  (l.zipIdx.filter fun entry => !separates entry.2).map Prod.fst

/-- An empty interval holds nothing. -/
theorem slice_self (l : List α) (i : ℕ) : slice l (i, i) = [] :=
  List.drop_eq_nil_of_le (List.length_take_le i l)

/-- A run of elements grows by the next one. -/
theorem slice_succ (hstart : start ≤ i) (hi : i < l.length) :
    slice l (start, i + 1) = slice l (start, i) ++ [l[i]] := by
  unfold slice
  dsimp only
  rw [List.take_succ_eq_append_getElem hi, List.drop_append_of_le_length]
  rw [List.length_take]
  omega

/-- Within the list, only an empty interval holds nothing. -/
theorem slice_eq_nil_iff (hi : i ≤ l.length) : slice l (start, i) = [] ↔ i ≤ start := by
  unfold slice
  rw [List.drop_eq_nil_iff, List.length_take, Nat.min_eq_left hi]

/-- What is kept of one element more. -/
theorem withoutSeparators_take_succ (hi : i < l.length) :
    withoutSeparators separates (l.take (i + 1)) =
      withoutSeparators separates (l.take i) ++ if separates i then [] else [l[i]] := by
  unfold withoutSeparators
  rw [List.take_succ_eq_append_getElem hi, List.zipIdx_append, List.filter_append, List.map_append,
    List.length_take, Nat.min_eq_left hi.le]
  congr 1
  rw [Nat.zero_add, List.zipIdx_singleton, List.filter_singleton]
  dsimp only
  cases separates i <;> rfl

/-- An element that separates nothing belongs to the open run. -/
theorem grow_of_not (hsep : separates i = false) (hi : i < l.length) :
    (endedRuns separates (i + 1)).map (slice l) = (endedRuns separates i).map (slice l) ∧
      slice l (runStart separates (i + 1), i + 1) =
        slice l (runStart separates i, i) ++ [l[i]] := by
  rw [endedRuns_of_not hsep, runStart_of_not hsep, slice_succ (runStart_le i) hi]
  exact ⟨rfl, rfl⟩

/-- An open run without elements is not counted. -/
theorem map_openRun_of_nil (hi : i ≤ l.length) (hnil : slice l (runStart separates i, i) = []) :
    (openRun separates i).map (slice l) = [] := by
  have hle := (slice_eq_nil_iff hi).mp hnil
  unfold openRun
  rw [if_neg (Nat.not_lt.mpr hle), List.map_nil]

/-- An open run with elements is counted once. -/
theorem map_openRun (hi : i ≤ l.length) (hne : slice l (runStart separates i, i) ≠ []) :
    (openRun separates i).map (slice l) = [slice l (runStart separates i, i)] := by
  have hlt : runStart separates i < i :=
    Nat.not_le.mp fun hle => hne ((slice_eq_nil_iff hi).mpr hle)
  unfold openRun
  rw [if_pos hlt, List.map_singleton]

/-- The elements of the open run. -/
theorem flatten_openRun (l : List α) (i : ℕ) :
    ((openRun separates i).map (slice l)).flatten = slice l (runStart separates i, i) := by
  unfold openRun
  split
  · exact List.append_nil _
  · next hnot =>
    rw [Nat.le_antisymm (runStart_le i) (Nat.not_lt.mp hnot), slice_self]
    rfl

/-- **What the runs hold is the list without its separators.** -/
theorem flatten_runs (l : List α) :
    ((runs separates l.length).map (slice l)).flatten = withoutSeparators separates l := by
  suffices hall : ∀ i ≤ l.length, ((runs separates i).map (slice l)).flatten =
      withoutSeparators separates (l.take i) by
    rw [hall l.length le_rfl, List.take_length]
  intro i
  unfold runs
  induction i with
  | zero => exact fun _ => rfl
  | succ i ih =>
      intro hi
      have hrest := ih (Nat.le_of_succ_le hi)
      rw [withoutSeparators_take_succ hi, ← hrest, List.map_append, List.flatten_append,
        flatten_openRun]
      cases hsep : separates i with
      | true =>
          rw [endedRuns_of_separates hsep, runStart_of_separates hsep, slice_self]
          rfl
      | false =>
          obtain ⟨hended, hopen⟩ := grow_of_not hsep hi
          rw [hended, hopen, List.map_append, List.flatten_append, flatten_openRun,
            List.append_assoc]
          rfl

/-- No run is empty. -/
theorem slice_ne_nil {run : ℕ × ℕ} (hrun : run ∈ runs separates l.length) : slice l run ≠ [] := by
  have hmax := mem_runs_iff.mp hrun
  intro hnil
  exact Nat.not_le.mpr hmax.nonempty ((slice_eq_nil_iff hmax.bounded).mp hnil)

end Elements

end Async
