import CodeCaller.Library.Proc

/-!
# Programs with failing awaits

A schedule of faults says which awaits of a program fail, counted from the first, and with what
error.  A failing await has no effect; the program goes on as its `try … catch` says, or ends with
the error.  `Proc.runWith` is `Proc.run` under such a schedule, and returns what is left of the
schedule besides the outcome and the state, so that programs can be run one after the other.

* The equations follow the constructors of programs; those for an await come in two versions, one
  for each way it can go.
* `runWith_bind` and `runWith_tryCatch` are the rules for sequences and handlers: the second
  program goes on with what is left of the schedule.

### What is load-bearing

A fault happens *instead of* the operation: a failing write has not written.  A database may also
fail after it has committed, and the program cannot tell the two apart; that case is a fault of the
next await, as far as the state is concerned.
-/

namespace Async

/-- **Which awaits fail**, counted from the next one. -/
abbrev Faults (ε : Type) : Type := ℕ → Option ε

/-- What is left of a schedule after one await. -/
def Faults.rest {ε : Type} (faults : Faults ε) : Faults ε := fun n => faults (n + 1)

namespace Proc

variable {σ ε α β : Type}

/-- **Run to completion with faults**: the outcome, the final state, and what is left of the
schedule. -/
def runWith : Proc σ ε α → Faults ε → σ → Except ε α × σ × Faults ε
  | ret value, faults, s => (.ok value, s, faults)
  | fail error, faults, s => (.error error, s, faults)
  | sync update next, faults, s => (next s).runWith faults (update s)
  | await update next fault, faults, s =>
    match faults 0 with
    | none => (next s).runWith faults.rest (update s)
    | some error => (fault error).runWith faults.rest s

section Await

variable {update : σ → σ} {next : σ → Proc σ ε α} {fault : ε → Proc σ ε α} {faults : Faults ε}
  {s : σ}

/-- An await that does not fail takes effect, and uses up one entry. -/
theorem runWith_await_ok (h : faults 0 = none) :
    (await update next fault).runWith faults s = (next s).runWith faults.rest (update s) := by
  rw [runWith, h]

/-- An await that fails has no effect, and uses up one entry. -/
theorem runWith_await_fault {error : ε} (h : faults 0 = some error) :
    (await update next fault).runWith faults s = (fault error).runWith faults.rest s := by
  rw [runWith, h]

end Await

variable {faults : Faults ε} {s : σ}

@[simp] theorem runWith_pure (value : α) :
    (pure value : Proc σ ε α).runWith faults s = (.ok value, s, faults) := rfl

theorem runWith_read_ok (query : σ → α) (h : faults 0 = none) :
    (read query : Proc σ ε α).runWith faults s = (.ok (query s), s, faults.rest) :=
  runWith_await_ok h

theorem runWith_read_fault (query : σ → α) {error : ε} (h : faults 0 = some error) :
    (read query : Proc σ ε α).runWith faults s = (.error error, s, faults.rest) :=
  runWith_await_fault h

theorem runWith_atomically_ok (operation : σ → Except ε α × σ) (h : faults 0 = none) :
    (atomically operation).runWith faults s =
      ((operation s).1, (operation s).2, faults.rest) := by
  refine (runWith_await_ok h).trans ?_
  cases (operation s).1 <;> rfl

theorem runWith_atomically_fault (operation : σ → Except ε α × σ) {error : ε}
    (h : faults 0 = some error) :
    (atomically operation).runWith faults s = (.error error, s, faults.rest) :=
  runWith_await_fault h

/-- A sequence goes on with what is left of the schedule. -/
theorem runWith_bind (p : Proc σ ε α) (f : α → Proc σ ε β) (faults : Faults ε) (s : σ) :
    (p >>= f).runWith faults s =
      match p.runWith faults s with
      | (.ok value, s', faults') => (f value).runWith faults' s'
      | (.error error, s', faults') => (.error error, s', faults') := by
  change (p.bind f).runWith faults s = _
  induction p generalizing faults s with
  | ret value => rfl
  | fail error => rfl
  | sync update next ih => exact ih s faults (update s)
  | await update next fault ih ihFault =>
      unfold Proc.bind
      cases hfault : faults 0 with
      | none =>
          rw [runWith_await_ok hfault, runWith_await_ok hfault]
          exact ih s faults.rest (update s)
      | some error =>
          rw [runWith_await_fault hfault, runWith_await_fault hfault]
          exact ihFault error faults.rest s

/-- The sequencing rule where the first program returns. -/
theorem runWith_bind_ok {p : Proc σ ε α} {f : α → Proc σ ε β} {s' : σ} {faults' : Faults ε}
    {value : α} (h : p.runWith faults s = (.ok value, s', faults')) :
    (p >>= f).runWith faults s = (f value).runWith faults' s' := by
  rw [runWith_bind, h]

/-- The sequencing rule where the first program throws. -/
theorem runWith_bind_error {p : Proc σ ε α} {f : α → Proc σ ε β} {s' : σ} {faults' : Faults ε}
    {error : ε} (h : p.runWith faults s = (.error error, s', faults')) :
    (p >>= f).runWith faults s = (.error error, s', faults') := by
  rw [runWith_bind, h]

/-- `try … catch` also sees the faults of its body. -/
theorem runWith_tryCatch (p : Proc σ ε α) (handler : ε → Proc σ ε α) (faults : Faults ε) (s : σ) :
    (tryCatch p handler).runWith faults s =
      match p.runWith faults s with
      | (.ok value, s', faults') => (.ok value, s', faults')
      | (.error error, s', faults') => (handler error).runWith faults' s' := by
  change (p.tryCatch handler).runWith faults s = _
  induction p generalizing faults s with
  | ret value => rfl
  | fail error => rfl
  | sync update next ih => exact ih s faults (update s)
  | await update next fault ih ihFault =>
      unfold Proc.tryCatch
      cases hfault : faults 0 with
      | none =>
          rw [runWith_await_ok hfault, runWith_await_ok hfault]
          exact ih s faults.rest (update s)
      | some error =>
          rw [runWith_await_fault hfault, runWith_await_fault hfault]
          exact ihFault error faults.rest s

end Proc

end Async
