import CodeCaller.Library.Chronicle
import CodeCaller.Library.Pool

/-!
# Programs that act on what they have seen

Between two nodes of a program in a pool anything may happen, so what a node does can only be
justified by what the earlier nodes of the same program have found and left: by its *past*.
`Proc.Recalls G post` says that every node of a program moves the state along `G past`, for the
past the program has by then, and that it returns its value with `post`.  It is `Proc.Guarantees`
with a memory, and like it asks nothing of the rest of the pool: what the past is still worth in
the present state is a question about the history of the pool, and is settled there once for all
programs.

### The pieces

* `Saw past P` and `Left past P`: some node of the past was run in a state with `P`, or has left
  one.  Both only grow with the past (`Saw.later`, `Left.later`), so a fact that was found once can
  be carried to the node that acts on it.
* The rules `recalls_read`, `recalls_take`, `recalls_modify`, `recalls_atomically`, `Recalls.bind`,
  `Recalls.tryCatch` and `Recalls.ite` follow the constructors of programs.
* `Service` is a pool with the calls its programs belong to, and `Service.machine` lets anybody
  call at any time and the calls be resumed in any order.
* `Service.Recorded` is the invariant of a service with its history: each program recalls what its
  call demands, and the pasts are made of states that have passed.  `Recorded.deed` reads from it
  what one node does, and `Recorded.returned` what a finished call has answered.
* `Service.Grows`: calls keep their places, and pasts only get longer.

### What is load-bearing

`Within past seen`.  It is the only link between a past and a history: whatever was seen was a
state of the run, so a chronicle of that run may be used to compare it with any other state.
-/

namespace Async

variable {σ ε α β : Type}

/-! ## What a past knows -/

/-- Some node of the past was run in a state with this property. -/
def Saw (past : List (σ × σ)) (P : σ → Prop) : Prop := ∃ visit ∈ past, P visit.1

/-- Some node of the past has left a state with this property. -/
def Left (past : List (σ × σ)) (P : σ → Prop) : Prop := ∃ visit ∈ past, P visit.2

section Past

variable {past past' : List (σ × σ)} {P Q : σ → Prop} {s s' : σ}

/-- What was seen stays seen. -/
theorem Saw.later (h : Saw past P) (hgrows : past <+: past') : Saw past' P := by
  obtain ⟨visit, hvisit, hP⟩ := h
  exact ⟨visit, hgrows.subset hvisit, hP⟩

/-- What was left stays left. -/
theorem Left.later (h : Left past P) (hgrows : past <+: past') : Left past' P := by
  obtain ⟨visit, hvisit, hP⟩ := h
  exact ⟨visit, hgrows.subset hvisit, hP⟩

/-- What was seen may be weakened. -/
theorem Saw.mono (h : Saw past P) (himp : ∀ s, P s → Q s) : Saw past Q := by
  obtain ⟨visit, hvisit, hP⟩ := h
  exact ⟨visit, hvisit, himp _ hP⟩

/-- What was left may be weakened. -/
theorem Left.mono (h : Left past P) (himp : ∀ s, P s → Q s) : Left past Q := by
  obtain ⟨visit, hvisit, hP⟩ := h
  exact ⟨visit, hvisit, himp _ hP⟩

/-- The node that was run last. -/
theorem saw_last (h : P s) : Saw (past ++ [(s, s')]) P :=
  ⟨(s, s'), List.mem_append_right _ List.mem_cons_self, h⟩

/-- The state the last node has left. -/
theorem left_last (h : P s') : Left (past ++ [(s, s')]) P :=
  ⟨(s, s'), List.mem_append_right _ List.mem_cons_self, h⟩

end Past

namespace Proc

/-! ## Programs with a memory -/

/-- **Every node moves the state along `G`, given the past of the program**, whatever state it
finds; a value is returned with `post`. -/
def Recalls (G : List (σ × σ) → σ → σ → Prop) :
    Proc σ ε α → (List (σ × σ) → α → Prop) → List (σ × σ) → Prop
  | ret value, post, past => post past value
  | fail _, _, _ => True
  | sync update next, post, past =>
      ∀ s, G past s (update s) ∧ (next s).Recalls G post (past ++ [(s, update s)])
  | await update next _, post, past =>
      ∀ s, G past s (update s) ∧ (next s).Recalls G post (past ++ [(s, update s)])

section Recalls

variable {G : List (σ × σ) → σ → σ → Prop} {past : List (σ × σ)}
  {post : List (σ × σ) → α → Prop}

/-- A returned value. -/
theorem recalls_pure {value : α} (h : post past value) :
    (pure value : Proc σ ε α).Recalls G post past := h

/-- A value that nothing is asked of. -/
theorem recalls_done {value : α} :
    (pure value : Proc σ ε α).Recalls G (fun _ _ => True) past := trivial

/-- An error returns nothing, so nothing is asked. -/
theorem recalls_throw (error : ε) : (throw error : Proc σ ε α).Recalls G post past := trivial

/-- A query, with what its answer says of the state it was asked in. -/
theorem recalls_read (refl : ∀ past s, G past s s) {query : σ → α}
    (h : ∀ s, post (past ++ [(s, s)]) (query s)) :
    (read query : Proc σ ε α).Recalls G post past :=
  fun s => ⟨refl past s, h s⟩

/-- A synchronous effect. -/
theorem recalls_modify {update : σ → σ} {post : List (σ × σ) → Unit → Prop}
    (h : ∀ s, G past s (update s) ∧ post (past ++ [(s, update s)]) ()) :
    (modify update : Proc σ ε Unit).Recalls G post past := h

/-- A look at the state together with an effect on it. -/
theorem recalls_take {query : σ → α} {update : σ → σ}
    (h : ∀ s, G past s (update s) ∧ post (past ++ [(s, update s)]) (query s)) :
    (take query update : Proc σ ε α).Recalls G post past := h

/-- An awaited operation; where it throws nothing is asked of the answer. -/
theorem recalls_atomically {operation : σ → Except ε α × σ}
    (h : ∀ s, G past s (operation s).2 ∧
      ∀ value, (operation s).1 = .ok value → post (past ++ [(s, (operation s).2)]) value) :
    (atomically operation).Recalls G post past := by
  intro s
  obtain ⟨hstep, hpost⟩ := h s
  refine ⟨hstep, ?_⟩
  dsimp only
  cases hout : (operation s).1 with
  | ok value => exact hpost value hout
  | error error => trivial

/-- A weaker postcondition, which may use that the past has only grown. -/
theorem Recalls.mono {p : Proc σ ε α} {post' : List (σ × σ) → α → Prop}
    (hp : p.Recalls G post past) (h : ∀ past' value, past <+: past' → post past' value →
      post' past' value) : p.Recalls G post' past := by
  induction p generalizing past with
  | ret value => exact h past value (List.prefix_refl _) hp
  | fail error => trivial
  | sync update next ih =>
      exact fun s => ⟨(hp s).1, ih s (hp s).2 fun past' value hgrows =>
        h past' value ((List.prefix_append _ _).trans hgrows)⟩
  | await update next fault ih _ =>
      exact fun s => ⟨(hp s).1, ih s (hp s).2 fun past' value hgrows =>
        h past' value ((List.prefix_append _ _).trans hgrows)⟩

/-- Nothing is asked of the nodes. -/
theorem recalls_any (p : Proc σ ε α) :
    p.Recalls (fun _ _ _ => True) (fun _ _ => True) past := by
  induction p generalizing past with
  | ret value => trivial
  | fail error => trivial
  | sync update next ih => exact fun s => ⟨trivial, ih s⟩
  | await update next fault ih _ => exact fun s => ⟨trivial, ih s⟩

/-- What is returned may be shown apart from what the nodes do. -/
theorem Recalls.and {p : Proc σ ε α} {G' : List (σ × σ) → σ → σ → Prop}
    {post' : List (σ × σ) → α → Prop} (hp : p.Recalls G post past)
    (hp' : p.Recalls G' post' past) :
    p.Recalls G (fun past' value => post past' value ∧ post' past' value) past := by
  induction p generalizing past with
  | ret value => exact ⟨hp, hp'⟩
  | fail error => trivial
  | sync update next ih => exact fun s => ⟨(hp s).1, ih s (hp s).2 (hp' s).2⟩
  | await update next fault ih _ => exact fun s => ⟨(hp s).1, ih s (hp s).2 (hp' s).2⟩

/-- The sequencing rule: the second program continues with a longer past. -/
theorem Recalls.bind {p : Proc σ ε α} {mid : List (σ × σ) → α → Prop}
    (hp : p.Recalls G mid past) {f : α → Proc σ ε β} {post : List (σ × σ) → β → Prop}
    (hf : ∀ value past', past <+: past' → mid past' value → (f value).Recalls G post past') :
    (p >>= f).Recalls G post past := by
  change (p.bind f).Recalls G post past
  induction p generalizing past with
  | ret value => exact hf value past (List.prefix_refl _) hp
  | fail error => trivial
  | sync update next ih =>
      exact fun s => ⟨(hp s).1, ih s (hp s).2 fun value past' hgrows =>
        hf value past' ((List.prefix_append _ _).trans hgrows)⟩
  | await update next fault ih _ =>
      exact fun s => ⟨(hp s).1, ih s (hp s).2 fun value past' hgrows =>
        hf value past' ((List.prefix_append _ _).trans hgrows)⟩

/-- The rule for `try … catch`: the handler runs with what the body has seen. -/
theorem Recalls.tryCatch {p : Proc σ ε α} (hp : p.Recalls G post past)
    {handler : ε → Proc σ ε α}
    (hh : ∀ error past', past <+: past' → (handler error).Recalls G post past') :
    (tryCatch p handler).Recalls G post past := by
  change (p.tryCatch handler).Recalls G post past
  induction p generalizing past with
  | ret value => exact hp
  | fail error => exact hh error past (List.prefix_refl _)
  | sync update next ih =>
      exact fun s => ⟨(hp s).1, ih s (hp s).2 fun error past' hgrows =>
        hh error past' ((List.prefix_append _ _).trans hgrows)⟩
  | await update next fault ih _ =>
      exact fun s => ⟨(hp s).1, ih s (hp s).2 fun error past' hgrows =>
        hh error past' ((List.prefix_append _ _).trans hgrows)⟩

/-- The rule for a branch. -/
theorem Recalls.ite {c : Prop} [Decidable c] {p q : Proc σ ε α}
    (hp : c → p.Recalls G post past) (hq : ¬c → q.Recalls G post past) :
    (if c then p else q).Recalls G post past := by
  split
  · next h => exact hp h
  · next h => exact hq h

/-- What every node guarantees needs no memory. -/
theorem Guarantees.recalls {G' : σ → σ → Prop} {p : Proc σ ε α} (hp : p.Guarantees G')
    (h : ∀ past s s', G' s s' → G past s s') : p.Recalls G (fun _ _ => True) past := by
  induction p generalizing past with
  | ret value => trivial
  | fail error => trivial
  | sync update next ih => exact fun s => ⟨h _ _ _ (hp s).1, ih s (hp s).2⟩
  | await update next fault ih _ => exact fun s => ⟨h _ _ _ (hp.1 s).1, ih s (hp.1 s).2⟩

/-- One node. -/
theorem Recalls.step {p q : Proc σ ε α} {s s' : σ} (hp : p.Recalls G post past)
    (h : p.step? s = some (q, s')) :
    G past s s' ∧ q.Recalls G post (past ++ [(s, s')]) := by
  cases p with
  | ret value => cases h
  | fail error => cases h
  | sync update next => cases h; exact hp s
  | await update next fault => cases h; exact hp s

end Recalls

end Proc

/-! ## Histories -/

/-- The nodes of a past were run in states of a history, and have left such states. -/
def Within (past : List (σ × σ)) (seen : List σ) : Prop :=
  ∀ visit ∈ past, visit.1 ∈ seen ∧ visit.2 ∈ seen

section Within

variable {past : List (σ × σ)} {seen later : List σ} {P : σ → Prop} {s s' : σ}

/-- A call without a past has seen nothing. -/
theorem within_nil : Within [] seen := fun _ hvisit => absurd hvisit List.not_mem_nil

/-- What a past has seen, the history has. -/
theorem Within.saw (hwithin : Within past seen) (hsaw : Saw past P) : ∃ g ∈ seen, P g := by
  obtain ⟨visit, hvisit, hP⟩ := hsaw
  exact ⟨visit.1, (hwithin visit hvisit).1, hP⟩

/-- What a past has left, the history has. -/
theorem Within.left (hwithin : Within past seen) (hleft : Left past P) : ∃ g ∈ seen, P g := by
  obtain ⟨visit, hvisit, hP⟩ := hleft
  exact ⟨visit.2, (hwithin visit hvisit).2, hP⟩

/-- A longer history holds the same visits. -/
theorem Within.mono (hwithin : Within past seen) (h : seen ⊆ later) : Within past later :=
  fun visit hvisit => ⟨h (hwithin visit hvisit).1, h (hwithin visit hvisit).2⟩

/-- One more node between two states of the history. -/
theorem Within.append (hwithin : Within past seen) (hs : s ∈ seen) (hs' : s' ∈ seen) :
    Within (past ++ [(s, s')]) seen := by
  intro visit hvisit
  rcases List.mem_append.mp hvisit with hold | hlast
  · exact hwithin visit hold
  · rw [List.mem_singleton.mp hlast]
    exact ⟨hs, hs'⟩

end Within

/-! ## Calls -/

/-- **The calls a pool serves**: at each place the program of a call. -/
structure Service (σ ε α κ : Type) where
  pool : Pool σ ε α
  calls : List κ

namespace Service

variable {κ : Type} {G : κ → List (σ × σ) → σ → σ → Prop} {post : κ → List (σ × σ) → α → Prop}
  {seen later : List σ} {S : Service σ ε α κ} {i : ℕ}

/-- A call arrives. -/
def serve (program : Proc σ ε α) (call : κ) (S : Service σ ε α κ) : Service σ ε α κ :=
  ⟨S.pool.add program, S.calls ++ [call]⟩

/-- One node of a call. -/
def resume (i : ℕ) (S : Service σ ε α κ) : Service σ ε α κ := { S with pool := S.pool.step i }

/-- The state changes from outside. -/
def withShared (shared : σ) (S : Service σ ε α κ) : Service σ ε α κ :=
  { S with pool := { S.pool with shared } }

/-- **The calls act on what they have seen, and have seen what has passed.** -/
structure Recorded (G : κ → List (σ × σ) → σ → σ → Prop) (post : κ → List (σ × σ) → α → Prop)
    (seen : List σ) (S : Service σ ε α κ) : Prop where
  here : S.pool.shared ∈ seen
  length : S.calls.length = S.pool.threads.length
  recalls : ∀ (i : ℕ) (call : κ) (thread : Thread σ ε α), S.calls[i]? = some call →
    S.pool.threads[i]? = some thread → thread.program.Recalls (G call) (post call) thread.past
  pasts : ∀ (i : ℕ) (thread : Thread σ ε α), S.pool.threads[i]? = some thread →
    Within thread.past seen

/-- No calls. -/
theorem recorded_start (s : σ) : Recorded G post [s] (⟨⟨s, []⟩, []⟩ : Service σ ε α κ) where
  here := List.mem_singleton_self s
  length := rfl
  recalls i call thread hcall := by cases hcall
  pasts i thread hthread := by cases hthread

namespace Recorded

/-- A record is good for every longer history. -/
theorem mono (h : S.Recorded G post seen) (hgrows : seen ⊆ later) : S.Recorded G post later where
  here := hgrows h.here
  length := h.length
  recalls := h.recalls
  pasts i thread hthread := (h.pasts i thread hthread).mono hgrows

theorem withShared (h : S.Recorded G post seen) (shared : σ) :
    (S.withShared shared).Recorded G post (seen ++ [shared]) where
  here := List.mem_append_right _ List.mem_cons_self
  length := h.length
  recalls := h.recalls
  pasts i thread hthread := (h.pasts i thread hthread).mono (List.subset_append_left _ _)

theorem serve (h : S.Recorded G post seen) {program : Proc σ ε α} {call : κ}
    (hprogram : program.Recalls (G call) (post call) []) :
    (S.serve program call).Recorded G post seen where
  here := h.here
  length := by simp [Service.serve, Pool.add, h.length]
  recalls i other thread hother hthread := by
    unfold Service.serve at hother hthread
    rcases Pool.getElem?_add hthread with hold | ⟨rfl, rfl⟩
    · have hlt : i < S.calls.length := h.length ▸ (List.getElem?_eq_some_iff.mp hold).1
      rw [List.getElem?_append_left hlt] at hother
      exact h.recalls i other thread hother hold
    · rw [← h.length, List.getElem?_concat_length] at hother
      cases hother
      exact hprogram
  pasts i thread hthread := by
    unfold Service.serve at hthread
    rcases Pool.getElem?_add hthread with hold | ⟨rfl, rfl⟩
    · exact h.pasts i thread hold
    · exact within_nil

/-- **One node of a call**: the call, its past, and what it does. -/
theorem deed (h : S.Recorded G post seen) (hlive : S.pool.live i = true) :
    ∃ call thread program, S.calls[i]? = some call ∧ S.pool.threads[i]? = some thread ∧
      (S.resume i).pool.threads[i]? =
        some ⟨program, thread.past ++ [(S.pool.shared, (S.resume i).pool.shared)]⟩ ∧
      Within thread.past seen ∧
      G call thread.past S.pool.shared (S.resume i).pool.shared ∧
      program.Recalls (G call) (post call)
        (thread.past ++ [(S.pool.shared, (S.resume i).pool.shared)]) := by
  obtain ⟨thread, program, shared, hthread, hnode, -⟩ := Pool.step_of_live hlive
  obtain ⟨hshared, hself⟩ := Pool.step_self hthread hnode
  have hlt : i < S.calls.length := by
    rw [h.length]
    exact (List.getElem?_eq_some_iff.mp hthread).1
  have hcall := List.getElem?_eq_getElem hlt
  obtain ⟨hdeed, hrest⟩ := Proc.Recalls.step (h.recalls i _ thread hcall hthread) hnode
  have hnext : (S.resume i).pool.shared = shared := hshared
  refine ⟨_, thread, program, hcall, hthread, ?_, h.pasts i thread hthread, ?_, ?_⟩
  · rw [hnext]
    exact hself
  · rw [hnext]
    exact hdeed
  · rw [hnext]
    exact hrest

theorem resume (h : S.Recorded G post seen) (hlive : S.pool.live i = true) :
    (S.resume i).Recorded G post (seen ++ [(S.resume i).pool.shared]) := by
  obtain ⟨call, thread, program, hcall, -, hself, hwithin, -, hrest⟩ := h.deed hlive
  have hgrows : seen ⊆ seen ++ [(S.resume i).pool.shared] := List.subset_append_left _ _
  have hlast : (S.resume i).pool.shared ∈ seen ++ [(S.resume i).pool.shared] :=
    List.mem_append_right _ List.mem_cons_self
  have hother : ∀ j, j ≠ i → (S.resume i).pool.threads[j]? = S.pool.threads[j]? :=
    fun j hne => Pool.step_other hne
  refine ⟨hlast, ?_, fun j other next hcalls hnext => ?_, fun j next hnext => ?_⟩
  · exact h.length.trans Pool.step_length.symm
  · by_cases heq : j = i
    · subst heq
      obtain rfl := Option.some.inj (hself.symm.trans hnext)
      obtain rfl := Option.some.inj (hcall.symm.trans hcalls)
      exact hrest
    · rw [hother j heq] at hnext
      exact h.recalls j other next hcalls hnext
  · by_cases heq : j = i
    · subst heq
      obtain rfl := Option.some.inj (hself.symm.trans hnext)
      exact (hwithin.mono hgrows).append (hgrows h.here) hlast
    · rw [hother j heq] at hnext
      exact (h.pasts j next hnext).mono hgrows

/-- **What a finished call has returned**, from a past in the history. -/
theorem returned (h : S.Recorded G post seen) {call : κ} {value : α}
    (hcall : S.calls[i]? = some call) (hended : S.pool.outcome? i = some (.ok value)) :
    ∃ thread, S.pool.threads[i]? = some thread ∧ Within thread.past seen ∧
      post call thread.past value := by
  obtain ⟨thread, hthread, hend⟩ := Option.bind_eq_some_iff.mp hended
  have hrecalls := h.recalls i call thread hcall hthread
  refine ⟨thread, hthread, h.pasts i thread hthread, ?_⟩
  cases hprogram : thread.program with
  | ret result =>
      rw [hprogram] at hend hrecalls
      cases hend
      exact hrecalls
  | _ =>
      rw [hprogram] at hend
      cases hend

end Recorded

/-! ## The machine of a service -/

/-- What happens to a service: a call arrives, or one is resumed. -/
inductive Event (κ : Type) where
  | arrive (call : κ)
  | resume (i : ℕ)

/-- **The machine of a service that anybody may call at any time.** -/
def machine (program : κ → Proc σ ε α) : Machine (Service σ ε α κ) (Event κ) where
  start S := S.pool.threads = [] ∧ S.calls = []
  enabled S
    | .arrive _ => True
    | .resume i => S.pool.live i = true
  step S
    | .arrive call => S.serve (program call) call
    | .resume i => S.resume i

/-- Calls and their pasts only grow. -/
structure Grows (S S' : Service σ ε α κ) : Prop where
  calls : S.calls <+: S'.calls
  threads : ∀ (i : ℕ) (thread : Thread σ ε α), S.pool.threads[i]? = some thread →
    ∃ thread', S'.pool.threads[i]? = some thread' ∧ thread.past <+: thread'.past

/-- A change that is no call leaves the record as it is. -/
theorem grows_of_eq {S' : Service σ ε α κ} (hcalls : S'.calls = S.calls)
    (hthreads : S'.pool.threads = S.pool.threads) : S.Grows S' where
  calls := hcalls ▸ List.prefix_refl _
  threads _ thread hthread := ⟨thread, hthreads ▸ hthread, List.prefix_refl _⟩

/-- A call that arrives gets a new place. -/
theorem grows_serve (program : Proc σ ε α) (call : κ) : S.Grows (S.serve program call) where
  calls := List.prefix_append _ _
  threads i thread hthread := by
    obtain ⟨hlt, -⟩ := List.getElem?_eq_some_iff.mp hthread
    exact ⟨thread, (List.getElem?_append_left hlt).trans hthread, List.prefix_refl _⟩

/-- A node that is run makes one past longer. -/
theorem grows_resume : S.Grows (S.resume i) where
  calls := List.prefix_refl _
  threads j thread hthread := by
    by_cases heq : j = i
    · subst heq
      cases hnode : thread.program.step? S.pool.shared with
      | none =>
          refine ⟨thread, ?_, List.prefix_refl _⟩
          unfold Service.resume Pool.step
          simp only [hthread, hnode]
      | some node =>
          exact ⟨_, (Pool.step_self hthread hnode).2, List.prefix_append _ _⟩
    · exact ⟨thread, (Pool.step_other heq).trans hthread, List.prefix_refl _⟩

/-- Growth composes. -/
theorem Grows.trans {S' S'' : Service σ ε α κ} (h : S.Grows S') (h' : S'.Grows S'') :
    S.Grows S'' where
  calls := h.calls.trans h'.calls
  threads i thread hthread := by
    obtain ⟨thread', hthread', hpast⟩ := h.threads i thread hthread
    obtain ⟨thread'', hthread'', hpast'⟩ := h'.threads i thread' hthread'
    exact ⟨thread'', hthread'', hpast.trans hpast'⟩

/-- A call keeps its number. -/
theorem Grows.call {S' : Service σ ε α κ} (h : S.Grows S') {call : κ}
    (hcall : S.calls[i]? = some call) : S'.calls[i]? = some call := by
  obtain ⟨hlt, -⟩ := List.getElem?_eq_some_iff.mp hcall
  obtain ⟨rest, hcalls⟩ := h.calls
  rw [← hcalls, List.getElem?_append_left hlt]
  exact hcall

instance (program : κ → Proc σ ε α) (S : Service σ ε α κ) (event : Event κ) :
    Decidable ((machine program).enabled S event) :=
  match event with
  | .arrive _ => inferInstanceAs (Decidable True)
  | .resume i => inferInstanceAs (Decidable (S.pool.live i = true))

instance (program : κ → Proc σ ε α) (S : Service σ ε α κ) (events : List (Event κ)) :
    Decidable ((machine program).Runs S events) :=
  inferInstanceAs (Decidable (∀ visit ∈ (machine program).visits S events,
    (machine program).enabled visit.1 visit.2))

end Service

end Async
