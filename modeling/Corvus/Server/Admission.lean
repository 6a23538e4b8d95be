import Corvus.Gateway.LateCalls
import Corvus.Gateway.LimiterMemory
import Corvus.Refinement
import Corvus.Roster
import Corvus.Server.Parts

/-!
# How many requests get through

The limiter of a process is asked once for each request that counts, in the order the
requests take its mutex in, and what it answers decides how the request goes on.
So the bound on what the limiter grants to a client is a bound on the requests of
that client that get further in the process, however they interleave and however
late they come with the time they read before.
-/

namespace Corvus.Server

open Corvus.Gateway

variable {platform : Platform} {deployment : Deployment}

/-! ## The log of a limiter -/

theorem length_run (limiter : RateLimiter) (calls : List (ℚ × Gateway.Call)) :
    (limiter.run calls).length = calls.length := by
  unfold RateLimiter.run
  induction calls generalizing limiter with
  | nil => rfl
  | cons entry rest ih =>
      obtain ⟨now, call⟩ := entry
      simp only [RateLimiter.runWith, List.length_cons, ih]

/-- The answers to calls and one more. -/
theorem run_concat (limiter : RateLimiter) (calls : List (ℚ × Gateway.Call)) (now : ℚ)
    (call : Gateway.Call) :
    limiter.run (calls ++ [(now, call)]) =
      limiter.run calls ++ [((limiter.after calls).perform now call).1] := by
  unfold RateLimiter.run
  induction calls generalizing limiter with
  | nil => rfl
  | cons entry rest ih =>
      obtain ⟨time, first⟩ := entry
      simp only [List.cons_append, RateLimiter.runWith, ih, RateLimiter.after, List.foldl_cons]

/-- The limiter is as the calls in the log leave it, and the log has its answers. -/
def Logged (limiter : RateLimiter) (log : List ((ℚ × Gateway.Call) × Answer)) : Prop :=
  ∃ created asks, limiter = (RateLimiter.construct rateLimit created).after (allowCalls asks) ∧
    log = (allowCalls asks).zip
      ((RateLimiter.construct rateLimit created).run (allowCalls asks))

theorem logged_construct (created : ℚ) : Logged (RateLimiter.construct rateLimit created) [] :=
  ⟨created, [], rfl, rfl⟩

/-- The limiter is asked once more. -/
theorem Logged.allow {limiter : RateLimiter} {log : List ((ℚ × Gateway.Call) × Answer)}
    (logged : Logged limiter log) (now : ℚ) (key : String) :
    Logged (limiter.allow now key).2
      (log ++ [((now, .allow key), .allowed (limiter.allow now key).1)]) := by
  obtain ⟨created, asks, rfl, rfl⟩ := logged
  have more : allowCalls (asks ++ [(now, key)]) = allowCalls asks ++ [(now, .allow key)] :=
    List.map_append
  refine ⟨created, asks ++ [(now, key)], ?_, ?_⟩
  · rw [more, RateLimiter.after_append]
    rfl
  · rw [more, run_concat, List.zip_append (length_run _ _).symm]
    rfl

/-- A call in the log that was granted to a client in an interval. -/
def grantedIn (key : String) (start stop : ℚ) (entry : (ℚ × Gateway.Call) × Answer) : Bool :=
  entry.1.2 = .allow key ∧ entry.2 = .allowed true ∧ start ≤ entry.1.1 ∧ entry.1.1 ≤ stop

/-- With the default configuration buckets are full when they may be removed, for calls that
are late by almost five minutes. -/
theorem rateLimit_patientFor {lag : ℚ} (short : lag ≤ 295) : rateLimit.PatientFor lag where
  rate_nonneg := by norm_num [rateLimit]
  full_at_ttl := by
    norm_num [rateLimit]
    linarith

/-- What a limiter with the default configuration grants to a client. -/
theorem Logged.granted_le {limiter : RateLimiter} {log : List ((ℚ × Gateway.Call) × Answer)}
    (logged : Logged limiter log) (key : String) {lag start stop : ℚ} (lagNonneg : 0 ≤ lag)
    (short : lag ≤ 295) (late : Late lag (log.map fun entry => entry.1.1))
    (interval : start ≤ stop) :
    (log.countP (grantedIn key start stop) : ℚ) ≤ 100 + 10 * (stop - start + lag) := by
  obtain ⟨created, asks, _, rfl⟩ := logged
  have calls : ((allowCalls asks).zip ((RateLimiter.construct rateLimit created).run
      (allowCalls asks))).map Prod.fst = allowCalls asks :=
    List.map_fst_zip (length_run _ _).symm.le
  have times := congrArg (List.map Prod.fst) calls
  rw [List.map_map, allowCalls, List.map_map] at times
  exact grantedBy_construct_le (rateLimit_patientFor short) lagNonneg (times ▸ late) created
    interval

/-! ## Requests and their tickets -/

/-- The limiter has refused the request. -/
def TurnedAway : ServerPhase platform → Prop
  | .limited _ => True
  | .answered response none => response.status = 429
  | _ => False

section Log

variable (shared : ServerShared platform) (process : Nat) (now : ℚ) (key : String)

theorem allow_log :
    (shared.allow process now key).2.limiterCalls process = shared.limiterCalls process ++
      [((now, .allow key), .allowed (shared.allow process now key).1)] := by
  simp only [ServerShared.allow, Function.update_self]

/-- What is in a log stays there, at its place. -/
theorem allow_log_kept {other ticket : Nat} {entry : (ℚ × Gateway.Call) × Answer}
    (found : (shared.limiterCalls other)[ticket]? = some entry) :
    ((shared.allow process now key).2.limiterCalls other)[ticket]? = some entry := by
  by_cases same : other = process
  · subst same
    rw [allow_log, List.getElem?_append_left (List.getElem?_eq_some_iff.mp found).choose]
    exact found
  · simpa only [ServerShared.allow, Function.update_of_ne same] using found

theorem allow_logged (logged : ∀ process, Logged (shared.limiters process)
      (shared.limiterCalls process)) (other : Nat) :
    Logged ((shared.allow process now key).2.limiters other)
      ((shared.allow process now key).2.limiterCalls other) := by
  by_cases same : other = process
  · subst same
    rw [allow_log]
    simp only [ServerShared.allow, Function.update_self]
    exact (logged other).allow now key
  · simpa only [ServerShared.allow, Function.update_of_ne same] using logged other

end Log

section Steps

variable {call next : ServerCall platform} {choice : ServerChoice}
  {shared after : ServerShared platform}

theorem route_keeps (call : ServerCall platform) :
    (call.route deployment).incoming = call.incoming ∧
      (call.route deployment).ticket = call.ticket := by
  unfold ServerCall.route
  split <;> exact ⟨rfl, rfl⟩

theorem admit_keeps (call : ServerCall platform) (target : Target) (checkKey : Auth.KeyCheck)
    (systemNow : Int) :
    (call.authenticated deployment target checkKey systemNow).incoming = call.incoming ∧
      (call.authenticated deployment target checkKey systemNow).ticket = call.ticket := by
  unfold ServerCall.authenticated
  split <;> exact ⟨rfl, rfl⟩

/-- A step asks the limiter or leaves it alone.  The request is counted under the place its
call of the limiter has in the log. -/
theorem ServerStep.limiter (stepped : ServerStep deployment call choice shared next after) :
    next.incoming = call.incoming ∧
      ((next.ticket = call.ticket ∧ after.limiters = shared.limiters ∧
          after.limiterCalls = shared.limiterCalls ∧
          (TurnedAway call.phase → TurnedAway next.phase)) ∨
        (next.ticket = some (shared.limiterCalls call.incoming.process).length ∧
          after = (shared.allow call.incoming.process choice.steady
            (call.clientKey deployment)).2 ∧
          ((shared.allow call.incoming.process choice.steady (call.clientKey deployment)).1 =
            true ∨ TurnedAway next.phase))) := by
  have proceeds : ∀ {phase : ServerPhase platform}, call.phase = phase → ¬TurnedAway phase →
      TurnedAway call.phase → TurnedAway next.phase :=
    fun phaseEq notAway away => (notAway (phaseEq ▸ away)).elim
  cases stepped with
  | declaredTooLarge phaseEq | bodyTooLarge phaseEq | asked phaseEq | handled phaseEq
  | invoked phaseEq | finished phaseEq =>
      exact ⟨rfl, Or.inl ⟨rfl, rfl, rfl, proceeds phaseEq id⟩⟩
  | uncounted phaseEq =>
      obtain ⟨sameIncoming, sameTicket⟩ := @route_keeps _ deployment
        (call.identified choice.draws)
      exact ⟨sameIncoming, Or.inl ⟨sameTicket, rfl, rfl, proceeds phaseEq id⟩⟩
  | counted phaseEq nextEq =>
      rw [nextEq]
      split
      · rename_i granted
        obtain ⟨sameIncoming, sameTicket⟩ := @route_keeps _ deployment
          { call.identified choice.draws with
            ticket := some (shared.limiterCalls call.incoming.process).length }
        exact ⟨sameIncoming, Or.inr ⟨sameTicket, rfl, Or.inl granted⟩⟩
      · exact ⟨rfl, Or.inr ⟨rfl, rfl, Or.inr trivial⟩⟩
  | refused => exact ⟨rfl, Or.inl ⟨rfl, rfl, rfl, fun _ => rfl⟩⟩
  | @decided target checkKey decided =>
      obtain ⟨sameIncoming, sameTicket⟩ := @admit_keeps _ deployment call target checkKey
        choice.keys.systemNow
      refine ⟨sameIncoming, Or.inl ⟨sameTicket, rfl, rfl, ?_⟩⟩
      cases decided with
      | unasked _ phaseEq => exact proceeds phaseEq id
      | checked phaseEq => exact proceeds phaseEq id
  | validated phaseEq | served phaseEq =>
      exact ⟨rfl, Or.inl ⟨rfl, rfl, rfl, proceeds phaseEq id⟩⟩

end Steps

/-- The ticket of a request is the place of its call of the limiter in the log, and the call
was granted, or the request has been turned away. -/
def Ticketed (deployment : Deployment) (shared : ServerShared platform)
    (call : ServerCall platform) : Prop :=
  ∀ ticket, call.ticket = some ticket → ∃ time answer,
    (shared.limiterCalls call.incoming.process)[ticket]? =
        some ((time, .allow (call.clientKey deployment)), answer) ∧
      (answer = .allowed true ∨ TurnedAway call.phase)

theorem ticketObligations : Component.Obligations (server platform deployment) (fun _ _ => True)
    (fun shared => ∀ process, Logged (shared.limiters process) (shared.limiterCalls process))
    (Ticketed deployment) where
  initially shared fresh process := by
    obtain ⟨limiters, noCalls, _⟩ := fresh
    obtain ⟨start, isNew⟩ := limiters process
    rw [isNew, noCalls]
    exact logged_construct start
  entered _ _ _ _ _ _ given := by cases given
  advanced state id choice call next after holds _ found stepped := by
    have own := holds.calls id call found
    obtain ⟨sameIncoming, ⟨sameTicket, sameLimiters, sameLog, away⟩ | ⟨isTicket, rfl, granted⟩⟩ :=
      (ServerStep.of_step stepped).limiter
    · rw [sameLimiters, sameLog]
      refine ⟨holds.shared, fun ticket given => ?_⟩
      rw [sameTicket] at given
      obtain ⟨time, answer, inLog, decision⟩ := own ticket given
      refine ⟨time, answer, ?_, decision.imp_right away⟩
      simpa only [ServerCall.clientKey, sameLog, sameIncoming] using inLog
    · refine ⟨allow_logged _ _ _ _ holds.shared, fun ticket given => ?_⟩
      rw [isTicket] at given
      cases given
      refine ⟨choice.steady, _, ?_, granted.imp_left (congrArg Answer.allowed)⟩
      simp only [sameIncoming, ServerCall.clientKey, allow_log, List.getElem?_concat_length]
  undisturbed state id choice call next after holds _ found stepped other bystander _
      otherFound := by
    intro ticket given
    obtain ⟨time, answer, inLog, decision⟩ := holds.calls other bystander otherFound ticket given
    refine ⟨time, answer, ?_, decision⟩
    obtain ⟨_, ⟨_, _, sameLog, _⟩ | ⟨_, rfl, _⟩⟩ := (ServerStep.of_step stepped).limiter
    · rw [sameLog]
      exact inLog
    · exact allow_log_kept _ _ _ _ inLog
  happened state happening after holds _ happened := by
    cases happened
    exact ⟨holds.shared, fun id call found => holds.calls id call found⟩

/-! ## No two requests share a ticket -/

/-- A step does not give a request the ticket of another one. -/
theorem ServerStep.old_ticket {call next bystander : ServerCall platform}
    {choice : ServerChoice} {shared after : ServerShared platform} {ticket : Nat}
    (stepped : ServerStep deployment call choice shared next after)
    (ticketed : Ticketed deployment shared bystander)
    (sameProcess : bystander.incoming.process = call.incoming.process)
    (given : next.ticket = some ticket) (taken : bystander.ticket = some ticket) :
    call.ticket = some ticket := by
  obtain ⟨_, ⟨sameTicket, _⟩ | ⟨isTicket, _⟩⟩ := stepped.limiter
  · rw [← sameTicket, given]
  · obtain ⟨time, answer, inLog, _⟩ := ticketed ticket taken
    have inside := (List.getElem?_eq_some_iff.mp inLog).choose
    rw [given, Option.some.injEq] at isTicket
    rw [sameProcess] at inside
    omega

/-- Requests of one process that have the same ticket are the same. -/
def TicketsDistinct (state : ServerState platform) : Prop :=
  ∀ id other call bystander ticket, state.calls id = some call →
    state.calls other = some bystander → call.incoming.process = bystander.incoming.process →
    call.ticket = some ticket → bystander.ticket = some ticket → id = other

theorem ticketsDistinct_step {state next : ServerState platform} {event : ServerEvent}
    (ticketed : ∀ id call, state.calls id = some call → Ticketed deployment state.shared call)
    (distinct : TicketsDistinct state)
    (stepped : (server platform deployment).eventStep state event = some next) :
    TicketsDistinct next := by
  intro id other call bystander ticket found otherFound sameProcess given taken
  cases event with
  | start started incoming =>
      obtain ⟨_, rfl⟩ := Component.start_cases stepped
      have old : ∀ {id call}, Function.update state.calls started
          (some ((server platform deployment).enter incoming state.shared)) id = some call →
          call.ticket = some ticket → state.calls id = some call := by
        intro id call found given
        by_cases same : id = started
        · subst same
          rw [Function.update_self] at found
          cases found
          cases given
        · rwa [Function.update_of_ne same] at found
      exact distinct id other call bystander ticket (old found given) (old otherFound taken)
        sameProcess given taken
  | advance moving choice =>
      obtain ⟨before, moved, after, movingFound, callStepped, rfl⟩ :=
        Component.advance_cases stepped
      have step := ServerStep.of_step callStepped
      by_cases isMoving : id = moving <;> by_cases otherMoving : other = moving
      · rw [isMoving, otherMoving]
      · subst isMoving
        simp only [Function.update_self, Option.some.injEq] at found
        simp only [Function.update_of_ne otherMoving] at otherFound
        subst found
        rw [step.limiter.1] at sameProcess
        have own := step.old_ticket (ticketed other bystander otherFound) sameProcess.symm given
          taken
        exact distinct id other before bystander ticket movingFound otherFound sameProcess own
          taken
      · subst otherMoving
        simp only [Function.update_self, Option.some.injEq] at otherFound
        simp only [Function.update_of_ne isMoving] at found
        subst otherFound
        rw [step.limiter.1] at sameProcess
        have own := step.old_ticket (ticketed id call found) sameProcess taken given
        exact distinct id other call before ticket found movingFound sameProcess given own
      · simp only [Function.update_of_ne isMoving] at found
        simp only [Function.update_of_ne otherMoving] at otherFound
        exact distinct id other call bystander ticket found otherFound sameProcess given taken
  | stop stopped =>
      obtain rfl := Component.stop_cases stepped
      have old : ∀ {id} {call : ServerCall platform},
          Function.update state.calls stopped none id = some call → state.calls id = some call := by
        intro id call found
        by_cases same : id = stopped
        · subst same
          rw [Function.update_self] at found
          cases found
        · rwa [Function.update_of_ne same] at found
      exact distinct id other call bystander ticket (old found) (old otherFound) sameProcess given
        taken
  | happen happening =>
      obtain ⟨_, _, rfl⟩ := Component.happen_cases stepped
      exact distinct id other call bystander ticket found otherFound sameProcess given taken

theorem ticketsDistinct_of_reachable {state : ServerState platform}
    (reachable : (server platform deployment).machine.Reachable (fun _ _ => True) state) :
    TicketsDistinct state := by
  refine reachable.remember.invariant (fun start isInitial => ?_)
    (fun before event next distinct allowed stepped => ?_)
  · intro id other call bystander ticket found
    rw [isInitial.2] at found
    cases found
  · exact ticketsDistinct_step (ticketObligations.of_reachable allowed.2).calls distinct stepped

/-! ## The bound -/

/-- The limiter of the process was asked for the request in the interval, under the key, and
the request has not been turned away. -/
def LetThrough (deployment : Deployment) (process : Nat) (key : String) (start stop : ℚ)
    (state : ServerState platform) (id : Nat) : Prop :=
  ∃ call ticket entry, state.calls id = some call ∧ call.incoming.process = process ∧
    call.clientKey deployment = key ∧ ¬TurnedAway call.phase ∧ call.ticket = some ticket ∧
    (state.shared.limiterCalls process)[ticket]? = some entry ∧ start ≤ entry.1.1 ∧
    entry.1.1 ≤ stop

/-- However requests interleave: each of those that a process counts under one key and lets
through has a granted call of its own in the log, also when others are over by now.  And in an
interval no more calls are granted than a full bucket holds, what comes in during it, and what
comes in during the time requests take between clock and mutex. -/
theorem letThrough_le {state : ServerState platform}
    (reachable : (server platform deployment).machine.Reachable (fun _ _ => True) state)
    (process : Nat) (key : String) {lag start stop : ℚ} (lagNonneg : 0 ≤ lag)
    (short : lag ≤ 295)
    (late : Late lag ((state.shared.limiterCalls process).map fun entry => entry.1.1))
    (interval : start ≤ stop) (ids : Finset Nat)
    (through : ∀ id ∈ ids, LetThrough deployment process key start stop state id) :
    ids.card ≤ (state.shared.limiterCalls process).countP (grantedIn key start stop) ∧
      ((state.shared.limiterCalls process).countP (grantedIn key start stop) : ℚ) ≤
        100 + 10 * (stop - start + lag) := by
  have holds := ticketObligations.of_reachable reachable
  let ticketOf id := ((state.calls id).bind ServerCall.ticket).getD 0
  have distinct : Set.InjOn ticketOf ids := by
    intro id isIn other otherIn same
    obtain ⟨call, ticket, _, found, isProcess, _, _, given, _⟩ := through id isIn
    obtain ⟨bystander, taken, _, otherFound, otherProcess, _, _, otherGiven, _⟩ :=
      through other otherIn
    simp only [ticketOf, found, otherFound, Option.bind_some, given, otherGiven,
      Option.getD_some] at same
    subst same
    exact ticketsDistinct_of_reachable reachable id other call bystander ticket found otherFound
      (isProcess.trans otherProcess.symm) given otherGiven
  have granted : ∀ ticket ∈ ids.image ticketOf, ∃ entry,
      (state.shared.limiterCalls process)[ticket]? = some entry ∧
        grantedIn key start stop entry = true := by
    intro position isIn
    obtain ⟨id, idIn, rfl⟩ := Finset.mem_image.mp isIn
    obtain ⟨call, ticket, entry, found, rfl, rfl, notAway, given, inLog, from_, until_⟩ :=
      through id idIn
    obtain ⟨time, answer, ownLog, decision⟩ := holds.calls id call found ticket given
    rw [inLog, Option.some.injEq] at ownLog
    subst ownLog
    refine ⟨_, ?_, decide_eq_true ⟨rfl, decision.resolve_right notAway, from_, until_⟩⟩
    simpa only [ticketOf, found, Option.bind_some, given, Option.getD_some] using inLog
  have counted := Roster.card_le_countP granted
  rw [Finset.card_image_of_injOn distinct] at counted
  exact ⟨counted, (holds.shared process).granted_le key lagNonneg short late interval⟩

/-- The request is past the limiter and waits for its handler. -/
def onItsWay (deployment : Deployment) (process : Nat) (key : String) (ticket : Nat)
    (call : ServerCall platform) : Bool :=
  match call.phase with
  | .routed _ =>
      call.incoming.process = process ∧ call.clientKey deployment = key ∧
        call.ticket = some ticket
  | _ => false

theorem letThrough_of_onItsWay {state : ServerState platform} {process : Nat} {key : String}
    {start stop : ℚ} {id : Nat} (ticket : Nat)
    (onWay : (state.calls id).any (onItsWay deployment process key ticket) = true)
    (asked : ((state.shared.limiterCalls process)[ticket]?).any
      (fun entry => start ≤ entry.1.1 ∧ entry.1.1 ≤ stop) = true) :
    LetThrough deployment process key start stop state id := by
  obtain ⟨call, found, isOnWay⟩ := (Option.any_eq_true _ _).mp onWay
  obtain ⟨entry, inLog, inInterval⟩ := (Option.any_eq_true _ _).mp asked
  unfold onItsWay at isOnWay
  split at isOnWay
  · rename_i target isRouted
    obtain ⟨sameProcess, sameKey, given⟩ := of_decide_eq_true isOnWay
    obtain ⟨begun, isOpen⟩ := of_decide_eq_true inInterval
    exact ⟨call, ticket, entry, found, sameProcess, sameKey, isRouted ▸ not_false, given, inLog,
      begun, isOpen⟩
  · cases isOnWay

/-- Two requests of one client, of which the second has read the clock before the first and
takes the mutex after it, and one of another client. -/
def lateArrivals : List ServerEvent :=
  [.start 0 deletingRequest, .start 1 deletingRequest,
    .start 2 { deletingRequest with peer := "10.0.0.2" },
    .advance 0 { deletingChoice with steady := 5 }, .advance 1 { deletingChoice with steady := 4 },
    .advance 2 { deletingChoice with steady := 5 }]

def lateState : ServerState Platform.reference :=
  (server Platform.reference sampleDeployment).replay sampleShared lateArrivals

theorem letThrough_le_late :
    ({0, 1} : Finset Nat).card ≤
        (lateState.shared.limiterCalls 0).countP (grantedIn "10.0.0.1" 4 5) ∧
      ((lateState.shared.limiterCalls 0).countP (grantedIn "10.0.0.1" 4 5) : ℚ) ≤
        100 + 10 * (5 - 4 + 1) := by
  have reachable : (server Platform.reference sampleDeployment).machine.Reachable
      (fun _ _ => True) lateState :=
    Component.reachable_replay sampleShared_fresh (by decide +kernel)
      (Machine.allows_of_forall fun _ _ _ => trivial)
  have times : (lateState.shared.limiterCalls 0).map (fun entry => entry.1.1) = [5, 4, 5] := by
    decide +kernel
  have late : Late 1 ((lateState.shared.limiterCalls 0).map fun entry => entry.1.1) := by
    rw [times]
    norm_num [Late]
  refine @letThrough_le _ _ _ reachable 0 "10.0.0.1" 1 4 5 (by norm_num) (by norm_num) late
    (by norm_num) {0, 1} fun id isIn => ?_
  rcases Finset.mem_insert.mp isIn with rfl | isLast
  · exact letThrough_of_onItsWay 0 (by decide +kernel) (by decide +kernel)
  · obtain rfl := Finset.mem_singleton.mp isLast
    exact letThrough_of_onItsWay 1 (by decide +kernel) (by decide +kernel)

end Corvus.Server
