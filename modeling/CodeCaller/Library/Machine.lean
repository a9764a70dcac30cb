import Mathlib.Algebra.GroupWithZero.Nat
import Mathlib.Logic.Basic
import Mathlib.Tactic.Common

/-!
# Labelled machines and their runs

A machine is a deterministic step function driven by labels: everything the environment chooses
(which request arrives, what a message says, when a job is taken) is in the label.  A run is then a
start state and a list of labels, and a condition on a run is a condition on its *visits*, the
pairs of a state and the label taken in it.

The rules packaged here are the inductions every development about such a machine repeats.

* `Reachable.invariant`: an invariant of all reachable states.
* `exec_related`: a relation between the first and the last state of a run.
* `exec_invariant`: an invariant of one run whose visits meet a condition.
* `holds_along_iff` and `exec_iff`: a property that one step keeps *exactly* under a condition on
  its visit is kept by a run exactly when all its visits meet the condition.
* `exists_first_visit`: the first visit against a condition, for arguments that look at where a run
  goes wrong.
* `sum_visits_le_one`: something happens at most once.

### What is load-bearing

A label carries every choice, so `exec` is a function.  A converse such as that of `exec_iff` (the
property is lost, so some visit broke the condition) is available only because of that: nothing is
left to a hidden choice.
-/

namespace Async

/-- **A labelled machine.**  `enabled` says which labels the environment may
choose in a state. -/
structure Machine (σ : Type*) (ℓ : Type*) where
  start : σ → Prop
  enabled : σ → ℓ → Prop
  step : σ → ℓ → σ

namespace Machine

variable {σ ℓ : Type*} (M : Machine σ ℓ)

/-- The state after a list of labels. -/
def exec (s : σ) (labels : List ℓ) : σ := labels.foldl M.step s

/-- The states a run takes its labels in, each with the label taken. -/
def visits : σ → List ℓ → List (σ × ℓ)
  | _, [] => []
  | s, l :: labels => (s, l) :: visits (M.step s l) labels

/-- A run: each label is enabled where it is taken. -/
def Runs (s : σ) (labels : List ℓ) : Prop :=
  ∀ visit ∈ M.visits s labels, M.enabled visit.1 visit.2

/-- The states some run from a start state ends in. -/
def Reachable (s : σ) : Prop :=
  ∃ first labels, M.start first ∧ M.Runs first labels ∧ M.exec first labels = s

@[simp] theorem exec_nil (s : σ) : M.exec s [] = s := rfl

@[simp] theorem exec_cons (s : σ) (l : ℓ) (labels : List ℓ) :
    M.exec s (l :: labels) = M.exec (M.step s l) labels := rfl

/-- A run is continued from where it has led. -/
@[simp] theorem exec_append (s : σ) (front back : List ℓ) :
    M.exec s (front ++ back) = M.exec (M.exec s front) back :=
  List.foldl_append

@[simp] theorem visits_nil (s : σ) : M.visits s [] = [] := rfl

@[simp] theorem visits_cons (s : σ) (l : ℓ) (labels : List ℓ) :
    M.visits s (l :: labels) = (s, l) :: M.visits (M.step s l) labels := rfl

/-- The visits of a run that is continued. -/
@[simp] theorem visits_append (s : σ) (front back : List ℓ) :
    M.visits s (front ++ back) = M.visits s front ++ M.visits (M.exec s front) back := by
  induction front generalizing s with
  | nil => rfl
  | cons l front ih => simp [ih]

@[simp] theorem runs_nil (s : σ) : M.Runs s [] := by simp [Runs]

@[simp] theorem runs_cons (s : σ) (l : ℓ) (labels : List ℓ) :
    M.Runs s (l :: labels) ↔ M.enabled s l ∧ M.Runs (M.step s l) labels := by
  simp [Runs]

/-- A run is continued with labels that are enabled there. -/
@[simp] theorem runs_append (s : σ) (front back : List ℓ) :
    M.Runs s (front ++ back) ↔ M.Runs s front ∧ M.Runs (M.exec s front) back := by
  simp [Runs, or_imp, forall_and]

/-- A visit splits its run: the state is where the labels before it lead. -/
theorem mem_visits_iff {s : σ} {labels : List ℓ} {visit : σ × ℓ} :
    visit ∈ M.visits s labels ↔
      ∃ front back, labels = front ++ visit.2 :: back ∧ visit.1 = M.exec s front := by
  constructor
  · intro h
    induction labels generalizing s with
    | nil => simp at h
    | cons l labels ih =>
        rcases List.mem_cons.mp h with rfl | h
        · exact ⟨[], labels, rfl, rfl⟩
        · obtain ⟨front, back, rfl, hs⟩ := ih h
          exact ⟨l :: front, back, rfl, hs⟩
  · rintro ⟨front, back, rfl, hs⟩
    rw [visits_append, visits_cons, ← hs]
    exact List.mem_append_right _ List.mem_cons_self

variable {M}

/-- A start state is reachable, by the empty run. -/
theorem Reachable.of_start {s : σ} (h : M.start s) : M.Reachable s :=
  ⟨s, [], h, M.runs_nil s, rfl⟩

/-- Where a run from a reachable state ends is reachable. -/
theorem Reachable.exec {s : σ} (hs : M.Reachable s) {labels : List ℓ}
    (hr : M.Runs s labels) : M.Reachable (M.exec s labels) := by
  obtain ⟨first, before, hstart, hruns, rfl⟩ := hs
  exact ⟨first, before ++ labels, hstart, (M.runs_append _ _ _).mpr ⟨hruns, hr⟩,
    M.exec_append _ _ _⟩

/-- **The invariant rule**: what holds at the start and survives every enabled
step holds in every reachable state. -/
theorem Reachable.invariant {I : σ → Prop} (hstart : ∀ s, M.start s → I s)
    (hstep : ∀ s l, I s → M.enabled s l → I (M.step s l)) {s : σ}
    (hs : M.Reachable s) : I s := by
  obtain ⟨first, labels, h0, hr, rfl⟩ := hs
  have hI := hstart first h0
  clear h0
  induction labels generalizing first with
  | nil => exact hI
  | cons l labels ih =>
      obtain ⟨hl, hr⟩ := (M.runs_cons _ _ _).mp hr
      exact ih _ hr (hstep first l hI hl)

/-- Every state a run from a reachable state visits is reachable. -/
theorem Reachable.visits {s : σ} (hs : M.Reachable s) {labels : List ℓ}
    (hr : M.Runs s labels) {visit : σ × ℓ} (hv : visit ∈ M.visits s labels) :
    M.Reachable visit.1 := by
  obtain ⟨front, back, rfl, hvisit⟩ := M.mem_visits_iff.mp hv
  rw [hvisit]
  exact hs.exec ((M.runs_append _ _ _).mp hr).1

/-- **The relation rule**: a preorder that every step of a run follows relates
its first state to its last. -/
theorem exec_related {R : σ → σ → Prop} (refl : ∀ s, R s s)
    (trans : ∀ {a b c}, R a b → R b c → R a c) {s : σ} {labels : List ℓ}
    (h : ∀ visit ∈ M.visits s labels, R visit.1 (M.step visit.1 visit.2)) :
    R s (M.exec s labels) := by
  induction labels generalizing s with
  | nil => exact refl s
  | cons l labels ih =>
      rw [visits_cons] at h
      exact trans (h (s, l) List.mem_cons_self)
        (ih fun visit hv => h visit (List.mem_cons_of_mem _ hv))

/-- **The rule for a property of every state of a run**: when one step keeps it
exactly under a condition on its visit, the run keeps it exactly when all its
visits meet the condition. -/
theorem holds_along_iff {P : σ → Prop} {C : σ → ℓ → Prop} {s : σ} {labels : List ℓ} (hs : P s)
    (hstep : ∀ visit ∈ M.visits s labels, P visit.1 →
      (P (M.step visit.1 visit.2) ↔ C visit.1 visit.2)) :
    (∀ front back, labels = front ++ back → P (M.exec s front)) ↔
      ∀ visit ∈ M.visits s labels, C visit.1 visit.2 := by
  induction labels generalizing s with
  | nil => simpa using hs
  | cons l labels ih =>
      rw [visits_cons] at hstep ⊢
      have hfirst := hstep (s, l) List.mem_cons_self hs
      rw [List.forall_mem_cons, ← hfirst]
      have hrest := fun hnext : P (M.step s l) =>
        ih hnext fun visit hvisit => hstep visit (List.mem_cons_of_mem _ hvisit)
      constructor
      · intro hall
        have hnext : P (M.step s l) := hall [l] labels rfl
        refine ⟨hnext, (hrest hnext).mp fun front back heq => ?_⟩
        exact hall (l :: front) back (congrArg _ heq)
      · rintro ⟨hnext, hvisits⟩ front back heq
        cases front with
        | nil => exact hs
        | cons _ front =>
            cases heq
            exact (hrest hnext).mpr hvisits front back rfl

/-- **The first visit against a condition** splits its run. -/
theorem exists_first_visit {C : σ → ℓ → Prop} {s : σ} {labels : List ℓ}
    (h : ¬∀ visit ∈ M.visits s labels, C visit.1 visit.2) :
    ∃ front l back, labels = front ++ l :: back ∧
      (∀ visit ∈ M.visits s front, C visit.1 visit.2) ∧ ¬C (M.exec s front) l := by
  induction labels generalizing s with
  | nil => simp at h
  | cons l labels ih =>
      by_cases hfirst : C s l
      · rw [visits_cons, List.forall_mem_cons] at h
        obtain ⟨front, other, back, rfl, hfront, hother⟩ := ih fun hrest => h ⟨hfirst, hrest⟩
        refine ⟨l :: front, other, back, rfl, ?_, hother⟩
        rw [visits_cons, List.forall_mem_cons]
        exact ⟨hfirst, hfront⟩
      · exact ⟨[], l, labels, rfl, by simp, hfirst⟩

/-- **The invariant rule for one run**: what one step keeps where its visit meets a
condition, a run keeps whose visits all do. -/
theorem exec_invariant {I : σ → Prop} {C : σ → ℓ → Prop} {s : σ} {labels : List ℓ} (hs : I s)
    (hstep : ∀ s l, I s → M.enabled s l → C s l → I (M.step s l)) (hruns : M.Runs s labels)
    (hcond : ∀ visit ∈ M.visits s labels, C visit.1 visit.2) : I (M.exec s labels) := by
  induction labels generalizing s with
  | nil => exact hs
  | cons l labels ih =>
      obtain ⟨henabled, hruns⟩ := (M.runs_cons _ _ _).mp hruns
      rw [visits_cons, List.forall_mem_cons] at hcond
      exact ih (hstep s l hs henabled hcond.1) hruns hcond.2

/-- **The rule for a property that is lost for good**: when a step from an invariant state
leads to it exactly from where it holds and where the visit meets a condition, a run does
exactly when all its visits do. -/
theorem exec_iff {I P : σ → Prop} {C : σ → ℓ → Prop} {s : σ} {labels : List ℓ} (hs : I s)
    (hkeep : ∀ s l, I s → M.enabled s l → I (M.step s l))
    (hstep : ∀ s l, I s → M.enabled s l → (P (M.step s l) ↔ P s ∧ C s l))
    (hruns : M.Runs s labels) :
    P (M.exec s labels) ↔ P s ∧ ∀ visit ∈ M.visits s labels, C visit.1 visit.2 := by
  induction labels generalizing s with
  | nil => simp
  | cons l labels ih =>
      obtain ⟨henabled, hruns⟩ := (M.runs_cons _ _ _).mp hruns
      rw [exec_cons, ih (hkeep s l hs henabled) hruns, hstep s l hs henabled, visits_cons,
        List.forall_mem_cons, and_assoc]

/-- **The rule for what happens at most once**: an amount that is one at most, and
something only in a step out of a condition that no step leads back into. -/
theorem sum_visits_le_one {Q : σ → Prop} {amount : σ × ℓ → ℕ} {s : σ} {labels : List ℓ}
    (hone : ∀ visit ∈ M.visits s labels, amount visit ≤ 1)
    (hleaves : ∀ visit ∈ M.visits s labels, amount visit ≠ 0 →
      Q visit.1 ∧ ¬Q (M.step visit.1 visit.2))
    (hback : ∀ visit ∈ M.visits s labels, Q (M.step visit.1 visit.2) → Q visit.1) :
    ((M.visits s labels).map amount).sum ≤ 1 := by
  suffices hall : ((M.visits s labels).map amount).sum ≤ 1 ∧
      (¬Q s → ((M.visits s labels).map amount).sum = 0) from hall.1
  induction labels generalizing s with
  | nil => simp
  | cons l labels ih =>
      rw [visits_cons] at hone hleaves hback ⊢
      obtain ⟨hrest, hnone⟩ := ih (fun visit hvisit => hone visit (List.mem_cons_of_mem _ hvisit))
        (fun visit hvisit => hleaves visit (List.mem_cons_of_mem _ hvisit))
        (fun visit hvisit => hback visit (List.mem_cons_of_mem _ hvisit))
      have hfirst : amount (s, l) ≤ 1 := hone (s, l) List.mem_cons_self
      rw [List.map_cons, List.sum_cons]
      by_cases hzero : amount (s, l) = 0
      · rw [hzero, Nat.zero_add]
        exact ⟨hrest, fun hs => hnone fun hnext => hs (hback (s, l) List.mem_cons_self hnext)⟩
      · obtain ⟨hs, hnext⟩ := hleaves (s, l) List.mem_cons_self hzero
        have hlater := hnone hnext
        exact ⟨by omega, fun hnot => absurd hs hnot⟩

end Machine

end Async
