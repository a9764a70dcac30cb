import CodeCaller.Fleet.Polls

/-!
# An approval and its API key

The Hub accepts an approval up to the time of a request, whatever poll is under way; the host stops
at that time by its own look at the clock, and does not ask once more.  An approval between the
two, after the last poll was served and before its answer is judged, creates a server whose key
nobody collects.

`Watched` is the invariant of the composed system: at most one call is a poll whose answer is still
to come, it is the one the host waits for, and a key that was marked as delivered is with it or
with the host.  `approval_collected_iff` says when the host gets the key.

### Both directions

If the times are kept (`InTime`), the answer that does not bring the key arrives before the request
is past its time, so the host asks again, and a question after the approval is answered with the
key; how many steps of the host that takes at most is part of the statement.  If they are not kept,
some answer without the key arrived too late, the host has thrown, and no later approval finds it
waiting.
-/

namespace CodeCaller

open Async

/-- The steps `pollResult` waits for: its own, and those of the call it waits for. -/
def RegisteringAction.advances (poller : Poller) : RegisteringAction → Prop
  | call | wake | receive | deliver => True
  | resume k => poller.call? = some k
  | decide _ | sweep _ | elapse => False

/-! ## The invariant -/

/-- What a phase says of the past of a call. -/
def PollPhase.Fits (id : RegistrationId) (thread : Thread Hub HubError Response) :
    PollPhase → Prop
  | asked => thread.past = []
  | found status => thread.past ≠ [] ∧ foundStatus id thread = some status
  | handed => thread.past ≠ [] ∧ foundStatus id thread = some .APPROVED
  | idle => True

section Invariant

variable (env : Env) (request : CreatedRequest)

/-- **What the composed system looks like**: a call that is not idle is the poll the host
waits for. -/
structure Watched (phase : ℕ → PollPhase) (S : Registering) : Prop where
  registered : ∃ row, Registered env request S.hub row
  follows : S.pool.Follows (Grown env request) (fun _ => Proc.moves (PollStep env request))
    (fun _ => Answers env request) phase
  fits : ∀ (i : ℕ) thread, S.pool.threads[i]? = some thread → (phase i).Fits request.id thread
  polls : ∀ i, phase i ≠ .idle → S.poller.call? = some i
  waits : ∀ k, S.poller.call? = some k → k < S.pool.threads.length ∧ phase k ≠ .idle
  delivered : S.hub.registrationStatus request.id = some .CREDENTIAL_DELIVERED →
    (∃ k, phase k = .handed) ∨ S.poller.result? ≠ none
  unspent : ∀ i, phase i ≠ .found .CREDENTIAL_DELIVERED
  collected : ∀ result, S.poller = .returned result → Handed env S.hub result

end Invariant

section Steps

variable {env : Env} {request : CreatedRequest} {S : Registering} {phase : ℕ → PollPhase}
  {h h' : Hub} {a a' : PollPhase} {k : ℕ}

/-- A call is a poll of the request or it is not, from its beginning on. -/
theorem PollMove.idle_iff {id : RegistrationId} (hmove : PollMove id a h h' a') :
    a' = .idle ↔ a = .idle := by
  cases hmove with
  | act => exact Iff.rfl
  | query => exact iff_of_false nofun nofun
  | hand => exact iff_of_false nofun nofun

/-- Only a poll that hands out the key spends it. -/
theorem PollMove.delivered {id : RegistrationId} (hmove : PollMove id a h h' a')
    (hdelivered : h'.registrationStatus id = some .CREDENTIAL_DELIVERED) :
    h.registrationStatus id = some .CREDENTIAL_DELIVERED ∨ a' = .handed := by
  cases hmove with
  | act _ hkept => exact .inl (hkept hdelivered)
  | query => exact .inl hdelivered
  | hand => exact .inr rfl

/-- A result that is handed over is not taken back. -/
theorem PollMove.handed {id : RegistrationId} (hmove : PollMove id a h h' a')
    (hhanded : a = .handed) : a' = .handed := by
  cases hmove with
  | act => exact hhanded
  | query => cases hhanded
  | hand => rfl

/-- A status that was found was the one stored when the call asked. -/
theorem PollMove.found {id : RegistrationId} {status : ServerRegistrationStatus}
    (hmove : PollMove id a h h' (.found status)) :
    a = .found status ∨ a = .asked ∧ h.registrationStatus id = some status := by
  cases hmove with
  | act => exact .inl rfl
  | query hstatus => exact .inr ⟨rfl, hstatus⟩

/-- The past of a call grows as its phase says. -/
theorem PollMove.fits {id : RegistrationId} {thread : Thread Hub HubError Response}
    {program : HubM Response} (hmove : PollMove id a h h' a') (hfits : a.Fits id thread) :
    a'.Fits id ⟨program, thread.past ++ [(h, h')]⟩ := by
  have hgrown : thread.past ++ [(h, h')] ≠ [] := by simp
  cases hmove with
  | act hasked =>
      cases a with
      | asked => exact absurd rfl hasked
      | found status => exact ⟨hgrown, (foundStatus_append hfits.1).trans hfits.2⟩
      | handed => exact ⟨hgrown, (foundStatus_append hfits.1).trans hfits.2⟩
      | idle => trivial
  | query hstatus =>
      have hpast : thread.past = [] := hfits
      refine ⟨hgrown, ?_⟩
      unfold foundStatus
      rw [hpast]
      exact hstatus
  | hand => exact ⟨hgrown, (foundStatus_append hfits.1).trans hfits.2⟩

/-- Servers that stay keep what was handed over good. -/
theorem Handed.mono {result : DaemonRegistrationResult}
    (hservers : ∀ id server, h.servers id = some server → h'.servers id = some server)
    (hhanded : Handed env h result) : Handed env h' result :=
  ⟨hhanded.status, hhanded.nonempty, Credential.mono hservers hhanded.credential⟩

/-- A host that waits for an answer has no result yet. -/
theorem Poller.result?_of_call? {poller : Poller} (hcall : poller.call? = some k) :
    poller.result? = none := by
  cases poller <;> first | rfl | cases hcall

/-- A poller with a call under way has not failed. -/
theorem Poller.error?_of_call? {poller : Poller} (hcall : poller.call? = some k) :
    poller.error? = none := by
  cases poller <;> first | rfl | cases hcall

/-- The states of a poller, from the tests on them. -/
theorem Poller.eq_called {poller : Poller} (hcalled : poller.isCalled = true) :
    poller = .called := by
  cases poller <;> first | rfl | cases hcalled

theorem Poller.eq_asking {poller : Poller} (hasking : poller.isAsking = true) :
    poller = .asking := by
  cases poller <;> first | rfl | cases hasking

theorem Poller.eq_sleeping {poller : Poller} {wake : Time} (hwake : poller.wake? = some wake) :
    poller = .sleeping wake := by
  cases poller <;> cases hwake
  rfl

/-- The check of the loop sends the host to sleep, or throws. -/
theorem Poller.check_cases (expiresAt date : Time) :
    date < expiresAt ∧ check expiresAt date = .sleeping (date + POLL_INTERVAL_MS) ∨
      ¬date < expiresAt ∧ check expiresAt date = .threw .timedOut := by
  by_cases hdate : date < expiresAt
  · exact .inl ⟨hdate, if_pos hdate⟩
  · exact .inr ⟨hdate, if_neg hdate⟩

/-- Before each poll the poller looks at its own clock: it gives up when the request has expired by
it. -/
theorem Poller.check_error?_iff {expiresAt date : Time} :
    (check expiresAt date).error? = none ↔ date < expiresAt := by
  rcases check_cases expiresAt date with ⟨hdate, heq⟩ | ⟨hdate, heq⟩
  · rw [heq]
    exact iff_of_true rfl hdate
  · rw [heq]
    exact iff_of_false nofun hdate

/-- **The key makes the host return.** -/
theorem judge_handed {result : DaemonRegistrationResult} (hhanded : Handed env h result) :
    judge (.ok result) = .ok (some result) := by
  obtain ⟨apiKey, hkey, hne⟩ := hhanded.nonempty
  refine if_pos ⟨hhanded.status, ?_⟩
  rw [hkey, Option.any_some, List.isEmpty_eq_false_iff.mpr hne]
  rfl

/-- **Without the key the host goes on**, or throws past the time of the request. -/
theorem judge_withheld {status : ServerRegistrationStatus} {result : DaemonRegistrationResult}
    (hwithheld : Withheld env request status h result) (hstatus : status ≠ .CREDENTIAL_DELIVERED) :
    judge (.ok result) = .ok none ∨
      (∃ error, judge (.ok result) = .error error) ∧ Late env request h := by
  obtain ⟨hfound, hresult, hunrejected, hlate⟩ := hwithheld
  unfold judge
  cases heq : result.status with
  | PENDING =>
      refine .inl ?_
      simp [heq]
  | EXPIRED => exact .inr ⟨⟨.ended .EXPIRED, by simp [heq]⟩, hlate heq⟩
  | REJECTED => exact absurd heq hunrejected
  | APPROVED =>
      rw [heq] at hresult
      exact absurd (hresult.resolve_right nofun).symm hfound
  | CREDENTIAL_DELIVERED =>
      rw [heq] at hresult
      exact absurd (hresult.resolve_right nofun).symm hstatus

/-- What the call has returned is the answer of the Hub. -/
theorem answer?_of_outcome {result : DaemonRegistrationResult}
    (houtcome : S.pool.outcome? k = some (.ok (.registrationResult result))) :
    S.answer? k = some (.ok result) := by
  simp only [Registering.answer?, houtcome]

/-- A call under way has no answer. -/
theorem answer?_of_none (houtcome : S.pool.outcome? k = none) : S.answer? k = none := by
  simp only [Registering.answer?, houtcome]

namespace Watched

/-- Where the host waits for nothing, every call is idle. -/
theorem idle (hw : Watched env request phase S) (hcall : S.poller.call? = none) (i : ℕ) :
    phase i = .idle := by
  by_contra hphase
  rw [hw.polls i hphase] at hcall
  cases hcall

/-- The next call is none yet. -/
theorem idle_next (hw : Watched env request phase S) : phase S.pool.threads.length = .idle := by
  by_contra hphase
  exact absurd (hw.waits _ (hw.polls _ hphase)).1 (Nat.lt_irrefl _)

/-- While a poll is under way that has not found the request approved, no key is spent. -/
theorem undelivered (hw : Watched env request phase S) (hcall : S.poller.call? = some k)
    (hphase : phase k ≠ .handed) :
    S.hub.registrationStatus request.id ≠ some .CREDENTIAL_DELIVERED := by
  intro hdelivered
  rcases hw.delivered hdelivered with ⟨j, hj⟩ | hresult
  · have hother : S.poller.call? = some j := hw.polls j (by rw [hj]; exact nofun)
    obtain rfl : k = j := Option.some.inj (hcall.symm.trans hother)
    exact hphase hj
  · exact hresult (Poller.result?_of_call? hcall)

/-- A host that waits for nothing and has no result has spent no key. -/
theorem unspent_of_idle (hw : Watched env request phase S) (hcall : S.poller.call? = none)
    (hresult : S.poller.result? = none) :
    S.hub.registrationStatus request.id ≠ some .CREDENTIAL_DELIVERED := by
  intro hspent
  rcases hw.delivered hspent with ⟨k, hk⟩ | hnone
  · rw [hw.idle hcall k] at hk
    cases hk
  · exact hnone hresult

/-- The clock is read. -/
theorem read (hclock : Monotone env.clock) (hw : Watched env request phase S) :
    Watched env request phase S.read where
  registered := (Grown.read hclock).registered hw.registered
  follows := Pool.Follows.moved (@Grown.trans env request) hw.follows (Grown.read hclock)
  fits := hw.fits
  polls := hw.polls
  waits := hw.waits
  delivered := hw.delivered
  unspent := hw.unspent
  collected result hresult :=
    (hw.collected result hresult).mono (@Grown.read env request S.hub hclock).servers

/-- The host goes on by itself, and does not wait for a call any more. -/
theorem leave (hw : Watched env request phase S) {poller : Poller} (hcall : poller.call? = none)
    (hended : ∀ k, S.poller.call? = some k → S.pool.outcome? k ≠ none)
    (hdelivered : S.hub.registrationStatus request.id = some .CREDENTIAL_DELIVERED →
      poller.result? ≠ none)
    (hcollected : ∀ result, poller = .returned result → Handed env S.hub result) :
    Watched env request (fun _ => .idle) { S with poller } where
  registered := hw.registered
  follows i thread hthread := by
    have hbefore : PollFollows env request thread.program (Answers env request) (phase i) S.hub :=
      hw.follows i thread hthread
    by_cases hidle : phase i = .idle
    · rw [hidle] at hbefore
      exact hbefore
    · -- it is the poll that was answered
      obtain ⟨outcome, houtcome⟩ := Option.ne_none_iff_exists'.mp (hended i (hw.polls i hidle))
      unfold Pool.outcome? at houtcome
      rw [hthread] at houtcome
      exact Proc.follows_of_outcome? houtcome fun _ _ => trivial
  fits _ _ _ := trivial
  polls i hphase := absurd rfl hphase
  waits k hwaits := by
    rw [hcall] at hwaits
    cases hwaits
  delivered hstatus := .inr (hdelivered hstatus)
  unspent _ := nofun
  collected := hcollected

/-- A call that is no poll reaches the Hub. -/
theorem serve (hw : Watched env request phase S) {call : HubCall}
    (hprogram : PollFollows env request (perform env call) (Answers env request) .idle S.hub) :
    Watched env request phase (S.serve env call) where
  registered := hw.registered
  follows := by
    have hadd : (S.pool.add (perform env call)).Follows (Grown env request)
        (fun _ => Proc.moves (PollStep env request)) (fun _ => Answers env request)
        (Function.update phase S.pool.threads.length .idle) := hw.follows.add hprogram
    rw [← hw.idle_next, Function.update_eq_self] at hadd
    exact hadd
  fits i thread hthread := by
    rcases Pool.getElem?_add hthread with hold | ⟨rfl, rfl⟩
    · exact hw.fits i thread hold
    · rw [hw.idle_next]
      trivial
  polls := hw.polls
  waits k hcall := by
    obtain ⟨hlt, hphase⟩ := hw.waits k hcall
    refine ⟨?_, hphase⟩
    show k < (S.pool.threads ++ _).length
    rw [List.length_append]
    exact Nat.lt_add_right _ hlt
  delivered := hw.delivered
  unspent := hw.unspent
  collected := hw.collected

/-- The poll of the host reaches the Hub. -/
theorem receive (hw : Watched env request phase S) (hasking : S.poller.isAsking = true)
    (hprogram : PollFollows env request
      (perform env (.getRegistrationResult request.id request.requestSecret)) (Answers env request)
      .asked S.hub) :
    Watched env request (Function.update phase S.pool.threads.length .asked)
      (S.step env request .receive) := by
  have hpoller : S.poller = .asking := Poller.eq_asking hasking
  have hcall : S.poller.call? = none := by rw [hpoller]; rfl
  have hresult : S.poller.result? = none := by rw [hpoller]; rfl
  constructor
  case registered => exact hw.registered
  case follows => exact hw.follows.add hprogram
  -- the new poll has no past, and the others are as they were
  case fits =>
    intro i thread hthread
    rcases Pool.getElem?_add hthread with hold | ⟨rfl, rfl⟩
    · obtain ⟨hlt, -⟩ := List.getElem?_eq_some_iff.mp hold
      rw [Function.update_of_ne hlt.ne]
      exact hw.fits i thread hold
    · rw [Function.update_self]
      rfl
  -- a host that asks waits for no other call
  case polls =>
    intro i hphase
    by_cases heq : i = S.pool.threads.length
    · rw [heq]
      rfl
    · rw [Function.update_of_ne heq] at hphase
      exact absurd (hw.idle hcall i) hphase
  case waits =>
    intro k hwaits
    obtain rfl : S.pool.threads.length = k := Option.some.inj hwaits
    refine ⟨?_, by rw [Function.update_self]; exact nofun⟩
    show S.pool.threads.length < (S.pool.threads ++ _).length
    rw [List.length_append]
    exact Nat.lt_add_one _
  case delivered => exact fun hspent => absurd hspent (hw.unspent_of_idle hcall hresult)
  case unspent =>
    intro i
    by_cases heq : i = S.pool.threads.length
    · rw [heq, Function.update_self]
      exact nofun
    · rw [Function.update_of_ne heq]
      exact hw.unspent i
  case collected => exact nofun

/-- **One node of one call.** -/
theorem resume (hw : Watched env request phase S) (hlive : S.pool.live k = true) :
    (∃ phase', Watched env request phase' (S.step env request (.resume k))) ∧
      S.hub.reads ≤ (S.pool.step k).shared.reads := by
  obtain ⟨update, a', -, hshared, ⟨hgrown, hmove⟩, hnext⟩ := hw.follows.step Grown.refl
    (@Grown.trans env request) (fun _ _ _ _ _ hstep => hstep.1) hlive
  rw [← hshared] at hgrown hmove
  refine ⟨⟨Function.update phase k a', ?_⟩, hgrown.reads⟩
  -- a poll that asks is the one the host waits for, and finds the key unspent
  have hunspent : phase k = .asked →
      S.hub.registrationStatus request.id ≠ some .CREDENTIAL_DELIVERED := by
    intro hasked
    exact hw.undelivered (hw.polls k (by rw [hasked]; exact nofun)) (by rw [hasked]; exact nofun)
  constructor
  case registered => exact hgrown.registered hw.registered
  case follows => exact hnext
  case fits =>
    refine Pool.forall_step
      (J := fun _ a thread => PollPhase.Fits request.id thread a) hlive hw.fits
      fun thread program shared hthread _ hshared => ?_
    rw [← hshared]
    exact hmove.fits (hw.fits k thread hthread)
  case polls =>
    intro i hphase
    by_cases heq : i = k
    · subst heq
      rw [Function.update_self] at hphase
      exact hw.polls i fun hidle => hphase (hmove.idle_iff.mpr hidle)
    · rw [Function.update_of_ne heq] at hphase
      exact hw.polls i hphase
  case waits =>
    intro j hcall
    obtain ⟨hlt, hphase⟩ := hw.waits j hcall
    refine ⟨Nat.lt_of_lt_of_eq hlt Pool.step_length.symm, ?_⟩
    by_cases heq : j = k
    · subst heq
      rw [Function.update_self]
      exact fun hidle => hphase (hmove.idle_iff.mp hidle)
    · rw [Function.update_of_ne heq]
      exact hphase
  case delivered =>
    intro hdelivered
    rcases hmove.delivered hdelivered with hbefore | hhanded
    · refine (hw.delivered hbefore).imp_left fun ⟨j, hj⟩ => ⟨j, ?_⟩
      by_cases heq : j = k
      · subst heq
        rw [Function.update_self]
        exact hmove.handed hj
      · rw [Function.update_of_ne heq]
        exact hj
    · exact .inl ⟨k, by rw [Function.update_self]; exact hhanded⟩
  case unspent =>
    intro i
    by_cases heq : i = k
    · subst heq
      rw [Function.update_self]
      rintro rfl
      rcases hmove.found with hbefore | ⟨hasked, hstatus⟩
      · exact hw.unspent i hbefore
      · exact hunspent hasked hstatus
    · rw [Function.update_of_ne heq]
      exact hw.unspent i
  case collected =>
    intro result hresult
    exact (hw.collected result hresult).mono hgrown.servers

/-- **What the host is answered**: a poll that found the request approved brings the key,
and any other poll does not. -/
theorem answered (hw : Watched env request phase S) (hcall : S.poller.call? = some k)
    {outcome : Except HubError Response} (houtcome : S.pool.outcome? k = some outcome) :
    ∃ result, outcome = .ok (.registrationResult result) ∧
      (S.pool.threads[k]?.bind (foundStatus request.id) = some .APPROVED ∧
          Handed env S.hub result ∨
        ∃ status, S.pool.threads[k]?.bind (foundStatus request.id) = some status ∧
          status ≠ .CREDENTIAL_DELIVERED ∧ phase k ≠ .handed ∧
          Withheld env request status S.hub result) := by
  obtain ⟨thread, hthread, hended⟩ := Option.bind_eq_some_iff.mp houtcome
  have hpost : Answers env request (phase k) S.hub outcome :=
    Proc.Follows.ended (hw.follows k thread hthread) (Grown.refl S.hub) hended
  have hfits := hw.fits k thread hthread
  rw [hthread, Option.bind_some]
  cases hphase : phase k with
  | asked =>
      rw [hphase] at hpost
      exact hpost.elim
  | found status =>
      rw [hphase] at hpost hfits
      obtain ⟨result, rfl, hwithheld⟩ := hpost
      refine ⟨result, rfl, .inr ⟨status, hfits.2, ?_, nofun, hwithheld⟩⟩
      rintro rfl
      exact hw.unspent k hphase
  | handed =>
      rw [hphase] at hpost hfits
      obtain ⟨result, rfl, hhanded⟩ := hpost
      exact ⟨result, rfl, .inl ⟨hfits.2, hhanded⟩⟩
  | idle => exact absurd hphase (hw.waits k hcall).2

/-- The check of the loop, while no key is spent. -/
theorem loop (hclock : Monotone env.clock) (hw : Watched env request phase S)
    (hended : ∀ k, S.poller.call? = some k → S.pool.outcome? k ≠ none)
    (hunspent : S.hub.registrationStatus request.id ≠ some .CREDENTIAL_DELIVERED) :
    Watched env request (fun _ => .idle) (S.loop env request) := by
  rcases Poller.check_cases request.expiresAt (S.date env) with ⟨-, hcheck⟩ | ⟨-, hcheck⟩
  · unfold Registering.loop
    rw [hcheck]
    exact (hw.read hclock).leave rfl hended (fun hspent => absurd hspent hunspent) nofun
  · unfold Registering.loop
    rw [hcheck]
    exact (hw.read hclock).leave rfl hended (fun hspent => absurd hspent hunspent) nofun

/-- **An answer arrives**: the host fails exactly if the answer brings no key, and is not in
time. -/
theorem deliver (hclock : Monotone env.clock) (hw : Watched env request phase S)
    (henabled : S.enabled env .deliver) :
    (∃ phase', Watched env request phase' (S.step env request .deliver)) ∧
      ((S.step env request .deliver).poller.error? = none ↔ S.InTime env request .deliver) := by
  obtain ⟨answer, hanswer⟩ := Option.isSome_iff_exists.mp henabled
  obtain ⟨k, hcall, hanswer⟩ := Option.bind_eq_some_iff.mp hanswer
  obtain ⟨outcome, houtcome⟩ : ∃ outcome, S.pool.outcome? k = some outcome := by
    cases houtcome : S.pool.outcome? k with
    | some outcome => exact ⟨outcome, rfl⟩
    | none => cases hanswer.symm.trans (answer?_of_none houtcome)
  have hended : ∀ j, S.poller.call? = some j → S.pool.outcome? j ≠ none := by
    intro j hj
    obtain rfl : k = j := Option.some.inj (hcall.symm.trans hj)
    rw [houtcome]
    exact nofun
  obtain ⟨result, rfl, hresult⟩ := hw.answered hcall houtcome
  have hstep : S.step env request .deliver = S.proceed env request (judge (.ok result)) := by
    simp only [Registering.step, hcall, Option.bind_some, answer?_of_outcome houtcome]
  -- for the call the host waits for, the condition is one implication
  have hin : S.InTime env request .deliver ↔
      (S.pool.threads[k]?.bind (foundStatus request.id) ≠ some .APPROVED →
        S.date env < request.expiresAt) := by
    unfold Registering.InTime
    rw [hcall]
    simp
  rw [hstep, hin]
  -- with the key the host returns, at any time
  rcases hresult with ⟨hfound, hhanded⟩ | ⟨status, hfound, hspent, hphase, hwithheld⟩
  · rw [judge_handed hhanded]
    refine ⟨⟨_, hw.leave rfl hended (fun _ => nofun) fun other hother => ?_⟩,
      iff_of_true rfl fun hnot => absurd hfound hnot⟩
    cases hother
    exact hhanded
  · have hunspent := hw.undelivered hcall hphase
    have hneed : S.pool.threads[k]?.bind (foundStatus request.id) ≠ some .APPROVED := by
      rw [hfound]
      exact fun heq => hwithheld.found (Option.some.inj heq)
    rw [forall_prop_of_true hneed]
    -- without it the host looks at the clock, or throws the status it was told
    rcases judge_withheld hwithheld hspent with hjudge | ⟨⟨error, hjudge⟩, hlate⟩
    · rw [hjudge]
      exact ⟨⟨_, hw.loop hclock hended hunspent⟩, Poller.check_error?_iff⟩
    · rw [hjudge]
      exact ⟨⟨_, hw.leave rfl hended (fun hstatus => absurd hstatus hunspent) nofun⟩,
        iff_of_false nofun hlate.not_gt⟩

/-- **The step lemma**: every step keeps the invariant, and the host fails exactly where the
times are missed. -/
theorem step (hclock : Monotone env.clock) (hcrypto : env.crypto.Documented)
    (hsecret : request.requestSecret ≠ []) (hw : Watched env request phase S)
    {action : RegisteringAction} (henabled : S.enabled env action) :
    (∃ phase', Watched env request phase' (S.step env request action)) ∧
      ((S.step env request action).poller.error? = none ↔
        S.poller.error? = none ∧ S.InTime env request action) := by
  cases action with
  | call =>
      have hpoller : S.poller = .called := Poller.eq_called henabled
      have hcall : S.poller.call? = none := by rw [hpoller]; rfl
      have hresult : S.poller.result? = none := by rw [hpoller]; rfl
      refine ⟨⟨_, hw.loop hclock (by simp [hcall]) (hw.unspent_of_idle hcall hresult)⟩, ?_⟩
      rw [hpoller]
      exact Poller.check_error?_iff.trans (and_iff_right rfl).symm
  | wake =>
      obtain ⟨wake, hwake, -⟩ := henabled
      have hpoller : S.poller = .sleeping wake := Poller.eq_sleeping hwake
      have hcall : S.poller.call? = none := by rw [hpoller]; rfl
      have hresult : S.poller.result? = none := by rw [hpoller]; rfl
      refine ⟨⟨_, hw.leave rfl (by simp [hcall])
        (fun hspent => absurd hspent (hw.unspent_of_idle hcall hresult)) nofun⟩, ?_⟩
      rw [hpoller]
      exact iff_of_true rfl ⟨rfl, trivial⟩
  | receive =>
      have hpoller : S.poller = .asking := Poller.eq_asking henabled
      refine ⟨⟨_, hw.receive henabled (getResult_polls hclock hcrypto hsecret hw.registered)⟩, ?_⟩
      rw [hpoller]
      exact iff_of_true rfl ⟨rfl, trivial⟩
  | deliver =>
      -- the host has not failed while it waits for an answer
      obtain ⟨hkept, hfails⟩ := hw.deliver hclock henabled
      obtain ⟨answer, hanswer⟩ := Option.isSome_iff_exists.mp henabled
      obtain ⟨k, hcall, -⟩ := Option.bind_eq_some_iff.mp hanswer
      exact ⟨hkept, hfails.trans (and_iff_right (Poller.error?_of_call? hcall)).symm⟩
  | decide ownerId =>
      exact ⟨⟨_, hw.serve (decideRegistration_polls hclock hcrypto hw.registered)⟩,
        (and_iff_left trivial).symm⟩
  | sweep ownerId =>
      exact ⟨⟨_, hw.serve (findPending_polls hclock)⟩, (and_iff_left trivial).symm⟩
  | resume k => exact ⟨(hw.resume henabled).1, (and_iff_left trivial).symm⟩
  | elapse => exact ⟨⟨_, hw.read hclock⟩, (and_iff_left trivial).symm⟩

/-- The clock does not go back. -/
theorem reads_le (hw : Watched env request phase S) {action : RegisteringAction}
    (henabled : S.enabled env action) :
    S.hub.reads ≤ (S.step env request action).hub.reads := by
  cases action with
  | resume k => exact (hw.resume henabled).2
  | call | elapse => exact Nat.le_succ _
  | wake | receive | decide | sweep => exact le_rfl
  | deliver =>
      unfold Registering.step
      dsimp only
      split
      · exact le_rfl
      · next answer _ =>
          rcases judge answer with error | _ | result
          · exact le_rfl
          · exact Nat.le_succ _
          · exact le_rfl

/-- **The host can go on**, or sleeps to a time that has not come. -/
theorem progress (hw : Watched env request phase S) (hended : S.poller.ended = false) :
    (∃ action, action.advances S.poller ∧ S.enabled env action) ∨
      ∃ wake, S.poller = .sleeping wake ∧ S.date env < wake := by
  cases hpoller : S.poller with
  | called =>
      refine .inl ⟨.call, trivial, ?_⟩
      show S.poller.isCalled = true
      simp only [hpoller, Poller.isCalled]
  | sleeping wake =>
      by_cases hwake : wake ≤ S.date env
      · refine .inl ⟨.wake, trivial, wake, ?_, hwake⟩
        simp only [hpoller, Poller.wake?, Option.mem_some]
      · exact .inr ⟨wake, rfl, not_le.mp hwake⟩
  | asking =>
      refine .inl ⟨.receive, trivial, ?_⟩
      show S.poller.isAsking = true
      simp only [hpoller, Poller.isAsking]
  | waiting k =>
      have hcall : S.poller.call? = some k := by rw [hpoller]; rfl
      have hthread := List.getElem?_eq_getElem (hw.waits k hcall).1
      cases hend : S.pool.outcome? k with
      | none =>
          -- the call is still at work
          refine .inl ⟨.resume k, rfl, Pool.live_iff.mpr ⟨_, hthread, ?_⟩⟩
          unfold Pool.outcome? at hend
          rw [hthread] at hend
          exact hend
      | some outcome =>
          obtain ⟨result, rfl, -⟩ := hw.answered hcall hend
          refine .inl ⟨.deliver, trivial, ?_⟩
          show (S.poller.call?.bind S.answer?).isSome = true
          rw [hcall, Option.bind_some, answer?_of_outcome hend, Option.isSome_some]
  | returned result =>
      rw [hpoller] at hended
      cases hended
  | threw error =>
      rw [hpoller] at hended
      cases hended

/-- **A host that has ended has the key of a server, or has failed.** -/
theorem collected_iff (hw : Watched env request phase S) (hended : S.poller.ended = true) :
    S.Collected env ↔ S.poller.error? = none := by
  cases hpoller : S.poller with
  | returned result =>
      have hhanded := hw.collected result hpoller
      exact iff_of_true ⟨result, hpoller, hhanded.status, hhanded.credential⟩ rfl
  | threw error =>
      refine iff_of_false (fun ⟨result, hresult, _⟩ => ?_) nofun
      rw [hpoller] at hresult
      cases hresult
  | called | sleeping wake | asking | waiting k =>
      rw [hpoller] at hended
      cases hended

end Watched

/-- Nothing was asked yet. -/
theorem Registering.Initial.watched (hstart : S.Initial env request) :
    Watched env request (fun _ => .idle) S where
  registered := by
    obtain ⟨row, hrow, hstatus, hhash, hexpiresAt⟩ := hstart.stored
    exact ⟨row, hrow, hhash, hexpiresAt, by rw [hstatus]; exact nofun,
      fun hexpired => (nomatch hstatus.symm.trans hexpired),
      fun happroved => (nomatch hstatus.symm.trans happroved)⟩
  follows i thread hthread := by
    rw [hstart.threads] at hthread
    cases hthread
  fits i thread hthread := by
    rw [hstart.threads] at hthread
    cases hthread
  polls i hphase := absurd rfl hphase
  waits k hcall := by
    rw [hstart.poller] at hcall
    cases hcall
  delivered hdelivered := by
    obtain ⟨row, hrow, hstatus, -⟩ := hstart.stored
    unfold Hub.registrationStatus at hdelivered
    rw [hrow, Option.map_some, hstatus] at hdelivered
    cases hdelivered
  unspent _ := nofun
  collected result hresult := by
    rw [hstart.poller] at hresult
    cases hresult

/-! ## The pace of the polls -/

/-- **How far the host is after `m` polls**: there were 2.5 seconds before each of them, and
all but the last of these passed before the time of the request. -/
structure Paced (env : Env) (request : CreatedRequest) (start : Time) (m : ℕ) (S : Registering) :
    Prop where
  bound : m ≠ 0 → start + POLL_INTERVAL_MS * m < request.expiresAt + POLL_INTERVAL_MS
  date : start + POLL_INTERVAL_MS * m ≤ S.date env
  sleeping : ∀ wake, S.poller = .sleeping wake →
    start + POLL_INTERVAL_MS * (m + 1) ≤ wake ∧ wake < request.expiresAt + POLL_INTERVAL_MS

/-- The host that sleeps after a step was asleep, or has just gone through the check. -/
theorem step_sleeping {action : RegisteringAction} {wake : Time}
    (hsleeping : (S.step env request action).poller = .sleeping wake) :
    S.poller = .sleeping wake ∨
      S.date env < request.expiresAt ∧ wake = S.date env + POLL_INTERVAL_MS := by
  have hcheck : (S.loop env request).poller = .sleeping wake →
      S.date env < request.expiresAt ∧ wake = S.date env + POLL_INTERVAL_MS := by
    intro hloop
    rcases Poller.check_cases request.expiresAt (S.date env) with ⟨hdate, heq⟩ | ⟨-, heq⟩
    · cases heq.symm.trans hloop
      exact ⟨hdate, rfl⟩
    · cases heq.symm.trans hloop
  cases action with
  | call => exact .inr (hcheck hsleeping)
  | wake => cases hsleeping
  | receive => cases hsleeping
  | deliver =>
      unfold Registering.step at hsleeping
      dsimp only at hsleeping
      split at hsleeping
      · exact .inl hsleeping
      · next answer _ =>
          generalize judge answer = judged at hsleeping
          rcases judged with error | _ | result
          · cases hsleeping
          · exact .inr (hcheck hsleeping)
          · cases hsleeping
  | decide | sweep | resume | elapse => exact .inl hsleeping

/-- **One step keeps the pace.** -/
theorem Paced.step {start : Time} {m : ℕ} (hp : Paced env request start m S)
    {action : RegisteringAction} (henabled : S.enabled env action)
    (hdate : S.date env ≤ (S.step env request action).date env) :
    Paced env request start (m + [action].count .wake) (S.step env request action) := by
  by_cases hwake : action = .wake
  · subst hwake
    obtain ⟨wake, hwake, hnow⟩ := henabled
    obtain ⟨hfar, hbound⟩ := hp.sleeping wake (Poller.eq_sleeping hwake)
    refine ⟨fun _ => lt_of_le_of_lt hfar hbound, hfar.trans hnow, fun other hother => ?_⟩
    cases hother
  · rw [List.count_singleton, if_neg (by simpa using hwake), Nat.add_zero]
    refine ⟨hp.bound, hp.date.trans hdate, fun wake hsleeping => ?_⟩
    rcases step_sleeping hsleeping with hbefore | ⟨hlive, rfl⟩
    · exact hp.sleeping wake hbefore
    · have hfar := hp.date
      rw [Nat.mul_succ, ← Nat.add_assoc]
      exact ⟨Nat.add_le_add_right hfar _, Nat.add_lt_add_right hlive _⟩

/-- **A run keeps the pace.** -/
theorem Watched.paced (hclock : Monotone env.clock) (hcrypto : env.crypto.Documented)
    (hsecret : request.requestSecret ≠ []) {start : Time} {m : ℕ} {actions : List RegisteringAction}
    (hw : Watched env request phase S) (hp : Paced env request start m S)
    (hruns : (Registering.machine env request).Runs S actions) :
    Paced env request start (m + actions.count .wake)
      ((Registering.machine env request).exec S actions) := by
  induction actions generalizing S phase m with
  | nil => exact hp
  | cons action actions ih =>
      obtain ⟨henabled, hruns⟩ := (Machine.runs_cons _ _ _ _).mp hruns
      obtain ⟨⟨phase', hnext⟩, -⟩ := hw.step hclock hcrypto hsecret henabled
      have hpaced := ih hnext (hp.step henabled (hclock (hw.reads_le henabled))) hruns
      rw [List.count_cons, ← Nat.add_assoc]
      rw [List.count_singleton, Nat.add_right_comm] at hpaced
      exact hpaced

end Steps

/-! ## The approval and the key -/

/-- **What `pollResult` does in a run.** -/
structure Registering.Polling (env : Env) (request : CreatedRequest) (S : Registering)
    (actions : List RegisteringAction) : Prop where
  /-- When it has ended, it has the key of an approved request exactly if the times were
  kept. -/
  collected_iff : ((machine env request).exec S actions).poller.ended = true →
    ((machine env request).exec S actions).Approved →
      (((machine env request).exec S actions).Collected env ↔
        ∀ visit ∈ (machine env request).visits S actions, visit.1.InTime env request visit.2)
  /-- It polls no more often than the time of the request allows. -/
  bound : actions.count .wake ≠ 0 → S.date env + POLL_INTERVAL_MS * actions.count .wake <
    request.expiresAt + POLL_INTERVAL_MS
  /-- While it has not ended, it can go on, or sleeps. -/
  progress : ((machine env request).exec S actions).poller.ended = false →
    (∃ action, action.advances ((machine env request).exec S actions).poller ∧
        ((machine env request).exec S actions).enabled env action) ∨
      ∃ wake, ((machine env request).exec S actions).poller = .sleeping wake ∧
        ((machine env request).exec S actions).date env < wake

/-- **When an approval is collected**: in every run from the creation of a request on, with
any approvals, sweeps and delays. -/
theorem approval_collected_iff {env : Env} {request : CreatedRequest} {S : Registering}
    {actions : List RegisteringAction} (hclock : Monotone env.clock)
    (hcrypto : env.crypto.Documented) (hstart : S.Initial env request)
    (hruns : (Registering.machine env request).Runs S actions) :
    Registering.Polling env request S actions := by
  have hsecret := hstart.secret
  have hstep : ∀ S action, (∃ phase, Watched env request phase S) → S.enabled env action →
      (∃ phase, Watched env request phase (S.step env request action)) ∧
        ((S.step env request action).poller.error? = none ↔
          S.poller.error? = none ∧ S.InTime env request action) :=
    fun S action ⟨phase, hw⟩ henabled => hw.step hclock hcrypto hsecret henabled
  -- the invariant at the end of the run
  obtain ⟨phase, hw⟩ : ∃ phase, Watched env request phase
      ((Registering.machine env request).exec S actions) :=
    Machine.exec_invariant (C := fun _ _ => True) ⟨_, hstart.watched⟩
      (fun S action hw henabled _ => (hstep S action hw henabled).1) hruns fun _ _ => trivial
  refine ⟨fun hended _ => ?_, ?_, hw.progress⟩
  · have hnone : S.poller.error? = none := by
      rw [hstart.poller]
      rfl
    rw [hw.collected_iff hended]
    exact (Machine.exec_iff (P := fun S => S.poller.error? = none) ⟨_, hstart.watched⟩
      (fun S action hw henabled => (hstep S action hw henabled).1)
      (fun S action hw henabled => (hstep S action hw henabled).2) hruns).trans
        (and_iff_right hnone)
  · -- no poll yet, and the host is awake
    have hpaced : Paced env request (S.date env) 0 S :=
      ⟨fun hnot => absurd rfl hnot, le_rfl, fun wake hwake => by
        rw [hstart.poller] at hwake
        cases hwake⟩
    have hbound := (hstart.watched.paced hclock hcrypto hsecret hpaced hruns).bound
    rw [Nat.zero_add] at hbound
    exact hbound

/-! ## From the creation of a request on -/

/-- The Hub with a host that has just been answered by it. -/
def Registering.created (h : Hub) : Registering := ⟨⟨h, []⟩, .called⟩

/-- **A request that the Hub created starts a run.** -/
theorem created_initial {env : Env} (hcrypto : env.crypto.Documented)
    {dto : CreateServerRegistrationRequestDto} {h : Hub} {registration : PublicRegistration}
    {requestSecret : JsString}
    (hanswer : h.answer env (.createRegistration dto) =
      .ok (.registrationCreated registration requestSecret)) :
    (Registering.created (h.after env (.createRegistration dto))).Initial env
      ⟨registration.id, requestSecret, registration.expiresAt⟩ := by
  have hrun : ∀ outcome h', (perform env (.createRegistration dto)).run h = (outcome, h') →
      outcome = .ok (.registrationCreated registration requestSecret) →
      (Registering.created h').Initial env
        ⟨registration.id, requestSecret, registration.expiresAt⟩ := by
    unfold perform ServerRegistrationsService.create
    dsimp only
    rw [Proc.run_bind, Proc.run_bind_of_ok (Proc.run_read _ h)]
    cases h.users.toList.find? fun row => row.2.email == dto.ownerEmail with
    | none =>
        rintro _ h' ⟨⟩
        exact nofun
    | some row =>
        rintro _ h' ⟨⟩ ⟨⟩
        refine ⟨rfl, rfl, hexEncode_ne_nil ?_, _,
          (Table.insert_apply _ _ _).trans (if_pos rfl), rfl,
          rfl, rfl⟩
        rw [hcrypto.random]
        decide
  exact hrun _ _ rfl hanswer

/-! ## Two runs -/

/-- The primitives as they answer in one registration, with digests of 32 bytes and tags of
16 elsewhere. -/
def NodeCrypto.documented : NodeCrypto where
  sha256 bytes := (NodeCrypto.sample.sha256 bytes).take 32
  randomBytes draw size := List.replicate size draw.toUInt8
  encrypt key iv plain :=
    if key = sampleCipherKey ∧ iv = List.replicate 12 3 ∧ plain = sampleKey then
      (sampleCiphertext, sampleTag)
    else (plain, List.replicate 16 0)
  decrypt key iv authTag data :=
    if key = sampleCipherKey ∧ iv = List.replicate 12 3 ∧ authTag = sampleTag ∧
      data = sampleCiphertext then some sampleKey
    else if authTag = List.replicate 16 0 then some data
    else none

/-- There is a cipher with the documented properties, so the hypotheses of the results can be met.
-/
theorem NodeCrypto.documented_documented : NodeCrypto.documented.Documented where
  aes key iv plain _ _ := by
    unfold NodeCrypto.documented
    dsimp only
    by_cases hsample : key = sampleCipherKey ∧ iv = List.replicate 12 3 ∧ plain = sampleKey
    · rw [if_pos hsample]
      dsimp only
      rw [if_pos ⟨hsample.1, hsample.2.1, rfl, rfl⟩, hsample.2.2]
    · rw [if_neg hsample]
      dsimp only
      rw [if_neg fun hother => absurd hother.2.2.1 (by decide), if_pos rfl]
  data key iv plain _ _ := by
    unfold NodeCrypto.documented
    dsimp only
    split
    · next hsample =>
        rw [hsample.2.2]
        decide
    · rfl
  authTag key iv plain _ _ := by
    unfold NodeCrypto.documented
    dsimp only
    split
    · decide
    · exact List.length_replicate
  digest bytes := by
    show ((NodeCrypto.sample.sha256 bytes).take 32).length = 32
    rw [List.length_take, Nat.min_eq_left]
    unfold NodeCrypto.sample
    dsimp only
    split_ifs
    · decide
    · decide
    · decide
    · rw [List.length_append, List.length_replicate]
      omega
  random draw size := List.length_replicate

/-- A registration at 0, and readings of the clock up to its time. -/
def registrationTimes : List Time := [0, 0, 1000, 200000, 300000, 599000, 599500, 599600]

/-- An environment with this cipher. -/
def Env.documented : Env :=
  { Env.sample with
    clock := fun n => registrationTimes[n]?.getD 600000
    crypto := .documented }

/-- Its clock does not go back. -/
theorem Env.documented_monotone : Monotone Env.documented.clock := by
  refine monotone_nat_of_le_succ fun n => ?_
  by_cases hn : n < registrationTimes.length
  · have hall : ∀ n < registrationTimes.length,
        Env.documented.clock n ≤ Env.documented.clock (n + 1) := by decide
    exact hall n hn
  · show registrationTimes[n]?.getD 600000 ≤ registrationTimes[n + 1]?.getD 600000
    rw [List.getElem?_eq_none (not_lt.mp hn), List.getElem?_eq_none (by omega)]

/-- A host that has just been answered: its request is number 0, and ends at 600000. -/
def Registering.sample : Registering :=
  .created (Hub.after Env.documented
    { Hub.sample with servers := Table.empty, workerProfiles := Table.empty }
    (.createRegistration ⟨js "u0", js "host", .UBUNTU, js "100.64.0.1", js "f"⟩))

/-- What `createRequest` has returned. -/
def CreatedRequest.sample : CreatedRequest := ⟨0, generateSecret NodeCrypto.documented 0, 600000⟩

theorem Registering.sample_initial :
    Registering.sample.Initial Env.documented CreatedRequest.sample := by
  obtain ⟨registration, requestSecret, hanswer, hrequest⟩ : ∃ registration requestSecret,
      Hub.answer Env.documented
          { Hub.sample with servers := Table.empty, workerProfiles := Table.empty }
          (.createRegistration ⟨js "u0", js "host", .UBUNTU, js "100.64.0.1", js "f"⟩) =
        .ok (.registrationCreated registration requestSecret) ∧
      CreatedRequest.mk registration.id requestSecret registration.expiresAt = .sample :=
    ⟨_, _, rfl, rfl⟩
  rw [← hrequest]
  exact created_initial NodeCrypto.documented_documented hanswer

/-- The first poll comes before the approval, and the second one after it. -/
def collectingRun : List RegisteringAction :=
  [.call, .wake, .receive, .resume 0, .resume 0, .deliver, .decide 0, .resume 1, .resume 1,
    .resume 1, .resume 1, .resume 1, .wake, .receive, .resume 2, .resume 2, .elapse, .deliver]

/-- The second poll is served at 599000, the approval at 599500, and the answer of the poll
arrives at 600000. -/
def orphaningRun : List RegisteringAction :=
  [.call, .wake, .receive, .resume 0, .resume 0, .deliver, .wake, .receive, .resume 1, .resume 1,
    .decide 0, .resume 2, .resume 2, .resume 2, .resume 2, .resume 2, .deliver]

/-- A key that is collected. -/
theorem approval_collected_iff_sample :
    ((Registering.machine Env.documented CreatedRequest.sample).exec .sample
        collectingRun).Approved ∧
      ((Registering.machine Env.documented CreatedRequest.sample).exec .sample
        collectingRun).Collected Env.documented := by
  have happroved : ((Registering.machine Env.documented CreatedRequest.sample).exec .sample
      collectingRun).Approved := ⟨1, by decide⟩
  have hpolling := approval_collected_iff Env.documented_monotone NodeCrypto.documented_documented
    Registering.sample_initial (show (Registering.machine Env.documented CreatedRequest.sample).Runs
      .sample collectingRun by decide)
  exact ⟨happroved, (hpolling.collected_iff (by decide) happroved).mpr (by decide)⟩

/-- **An approval that is orphaned**: it ends in `APPROVED` before the time of the request, and
the host that polled the whole time throws. -/
theorem approval_orphaned :
    Monotone Env.documented.clock ∧ Env.documented.crypto.Documented ∧
      Registering.sample.Initial Env.documented CreatedRequest.sample ∧
      (Registering.machine Env.documented CreatedRequest.sample).Runs .sample orphaningRun ∧
      ((Registering.machine Env.documented CreatedRequest.sample).exec .sample
        orphaningRun).poller.ended = true ∧
      ((Registering.machine Env.documented CreatedRequest.sample).exec .sample
        orphaningRun).Approved ∧
      ¬((Registering.machine Env.documented CreatedRequest.sample).exec .sample
        orphaningRun).Collected Env.documented := by
  refine ⟨Env.documented_monotone, NodeCrypto.documented_documented, Registering.sample_initial,
    by decide, by decide, ⟨2, by decide⟩, ?_⟩
  have hnone : ((Registering.machine Env.documented CreatedRequest.sample).exec .sample
      orphaningRun).poller.result?.isNone = true := by decide
  rintro ⟨result, hresult, -⟩
  rw [hresult] at hnone
  cases hnone

end CodeCaller
