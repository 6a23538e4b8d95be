import Corvus.Db.RedisSetup

/-!
# Waiting between attempts to reconnect

`ensure_connected_locked` reads the clock before it tries to reconnect, and puts
the next attempt `kReconnectBackoff` after that reading.  An attempt that takes
its time to fail uses up the wait, so that the next one may follow at once.
-/

namespace Corvus.Db.RedisClient

/-- After an attempt that failed, the next ones keep their distance. -/
def BacksOff (client : RedisClient) : Prop :=
  client.attempts.Pairwise fun earlier later =>
    earlier.succeeded = false → earlier.ended + kReconnectBackoff ≤ later.started

instance (client : RedisClient) : Decidable client.BacksOff :=
  inferInstanceAs (Decidable (List.Pairwise _ _))

/-- No operation comes to a closed connection between `kReconnectBackoff` after the
start and `kReconnectBackoff` after the end of an attempt that failed. -/
def NoCallInGap (client : RedisClient) : ClientEvent → Prop
  | .operation _ _ => client.connection.isConnected = false →
      ∀ attempt ∈ client.attempts, attempt.succeeded = false →
        attempt.started + kReconnectBackoff ≤ client.now →
        attempt.ended + kReconnectBackoff ≤ client.now
  | _ => True

/-- Attempts take no longer than the time to connect allows. -/
def AttemptsTimeOut (client : RedisClient) : ClientEvent → Prop
  | .operation server _ => server.takes ≤ client.connection.config.connectTimeoutMs * 1000000
  | _ => True

variable {client : RedisClient}

/-! ## What a step does to the attempts -/

@[simp] theorem command_attempts (client : RedisClient) (reply : ServerReply) :
    (client.command reply).2.attempts = client.attempts ∧
      (client.command reply).2.nextReconnect = client.nextReconnect ∧
      (client.command reply).2.now = client.now := by
  rcases client.command_cases reply with ⟨_, same, _⟩ | ⟨context, _, _, after⟩
  · rw [same]
    exact ⟨rfl, rfl, rfl⟩
  · rw [after]
    exact ⟨rfl, rfl, rfl⟩

theorem commands_attempts (client : RedisClient) (replies : List ServerReply) :
    (client.commands replies).attempts = client.attempts ∧
      (client.commands replies).nextReconnect = client.nextReconnect ∧
      (client.commands replies).now = client.now := by
  induction replies generalizing client with
  | nil => exact ⟨rfl, rfl, rfl⟩
  | cons reply rest ih =>
      obtain ⟨attempts, next, now⟩ := command_attempts client reply
      unfold commands
      simp only
      split
      · obtain ⟨restAttempts, restNext, restNow⟩ := ih (client.command reply).2
        exact ⟨restAttempts.trans attempts, restNext.trans next, restNow.trans now⟩
      · exact ⟨attempts, next, now⟩

/-- An operation makes no attempt, or one on a closed connection when it is time. -/
theorem operation_attempts (client : RedisClient) (server : Handshake)
    (replies : List ServerReply) :
    ((client.operation server replies).attempts = client.attempts ∧
      (client.operation server replies).nextReconnect = client.nextReconnect ∧
      (client.operation server replies).now = client.now) ∨
    (client.connection.isConnected = false ∧ client.nextReconnect ≤ client.now ∧
      (client.operation server replies).now = client.now + server.takes ∧
      ∃ succeeded, (client.operation server replies).attempts =
          client.attempts ++ [⟨client.now, client.now + server.takes, succeeded⟩] ∧
        (client.operation server replies).nextReconnect =
          if succeeded then client.nextReconnect else client.now + kReconnectBackoff) := by
  unfold operation ensureConnected
  by_cases connected : client.connection.isConnected = true
  · simp only [connected, if_true]
    exact Or.inl (commands_attempts client replies)
  rw [Bool.not_eq_true] at connected
  by_cases early : client.now < client.nextReconnect
  · simp only [connected, early, if_true]
    exact Or.inl ⟨rfl, rfl, rfl⟩
  simp only [connected, early, if_false, Bool.false_eq_true]
  refine Or.inr ⟨trivial, Nat.le_of_not_lt early, ?_⟩
  cases outcome : (client.reconnect server).1 with
  | ok =>
      obtain ⟨attempts, next, now⟩ := commands_attempts
        { (client.reconnect server).2 with
          attempts := client.attempts ++
            [⟨client.now, (client.reconnect server).2.now, true⟩] } replies
      exact ⟨now, true, attempts, next⟩
  | error error => exact ⟨rfl, false, rfl, rfl⟩

/-! ## Runs -/

/-- Attempts have ended, and the time set for the next one is no earlier than
`kReconnectBackoff` after the start of any that failed. -/
structure Paced (client : RedisClient) : Prop where
  backsOff : client.BacksOff
  waits : ∀ attempt ∈ client.attempts, attempt.succeeded = false →
    attempt.started + kReconnectBackoff ≤ client.nextReconnect

/-- An attempt when it is time, outside the gaps of those before it. -/
theorem Paced.attempt {next : RedisClient} {ended : Nat} {succeeded : Bool}
    (paced : client.Paced) (isTime : client.nextReconnect ≤ client.now)
    (outside : ∀ attempt ∈ client.attempts, attempt.succeeded = false →
      attempt.started + kReconnectBackoff ≤ client.now →
      attempt.ended + kReconnectBackoff ≤ client.now)
    (attempts : next.attempts = client.attempts ++ [⟨client.now, ended, succeeded⟩])
    (nextReconnect : next.nextReconnect =
      if succeeded then client.nextReconnect else client.now + kReconnectBackoff) :
    next.Paced := by
  refine ⟨?_, fun attempt member failed => ?_⟩
  · rw [BacksOff, attempts, List.pairwise_append]
    refine ⟨paced.backsOff, List.pairwise_singleton _ _, fun earlier before later new failed => ?_⟩
    rw [List.mem_singleton.mp new]
    exact outside earlier before failed
      (Nat.le_trans (paced.waits earlier before failed) isTime)
  · rw [attempts, List.mem_append, List.mem_singleton] at member
    rcases member with before | rfl
    · have waits := paced.waits attempt before failed
      rw [nextReconnect]
      split <;> omega
    · obtain rfl : succeeded = false := failed
      rw [nextReconnect]
      exact Nat.le_refl _

theorem paced_of_reachable (reachable : redisClient.Reachable NoCallInGap client) :
    client.Paced := by
  refine reachable.invariant ?_ ?_
  · rintro client ⟨_, _, none, _⟩
    refine ⟨?_, fun attempt member => ?_⟩
    · rw [BacksOff, none]
      exact .nil
    · rw [none] at member
      cases member
  · intro client event next paced allowed stepped
    cases event with
    | pass span =>
        cases stepped
        exact ⟨paced.backsOff, paced.waits⟩
    | reconnect server =>
        cases stepped
        exact ⟨paced.backsOff, paced.waits⟩
    | command reply =>
        cases stepped
        obtain ⟨attempts, nextReconnect, _⟩ := command_attempts client reply
        refine ⟨?_, fun attempt member => ?_⟩
        · rw [BacksOff, attempts]
          exact paced.backsOff
        · rw [nextReconnect]
          exact paced.waits attempt (attempts ▸ member)
    | operation server replies =>
        cases stepped
        rcases operation_attempts client server replies with
          ⟨attempts, nextReconnect, _⟩ | ⟨closed, isTime, _, succeeded, attempts, nextReconnect⟩
        · refine ⟨?_, fun attempt member => ?_⟩
          · rw [BacksOff, attempts]
            exact paced.backsOff
          · rw [nextReconnect]
            exact paced.waits attempt (attempts ▸ member)
        · exact paced.attempt isTime (allowed closed) attempts nextReconnect

/-- While no operation comes to a closed connection in the gap that a slow attempt
leaves, attempts to reconnect back off. -/
theorem reconnects_backOff (reachable : redisClient.Reachable NoCallInGap client) :
    client.BacksOff :=
  (paced_of_reachable reachable).backsOff

/-! ## Attempts that take their time -/

/-- The connection breaks, an attempt to reconnect times out, and some time later the
next operation tries again. -/
def timesOut (pause : Nat) : List ClientEvent :=
  [.command .dropped,
    .operation { takes := 3000000000, connect := .refused "Connection timed out" } [],
    .pass pause, .operation {} [.accepted]]

/-- With two attempts that keep their distance. -/
theorem reconnects_backOff_timesOut :
    (after (timesOut 1000000000)).attempts.length = 2 ∧
      (after (timesOut 1000000000)).BacksOff := by
  refine ⟨rfl, reconnects_backOff (reachable_after rfl ?_)⟩
  refine ⟨trivial, fun _ stepped => ?_⟩
  cases stepped
  refine ⟨fun _ attempt member => (by cases member), fun _ stepped => ?_⟩
  cases stepped
  refine ⟨trivial, fun _ stepped => ?_⟩
  cases stepped
  exact ⟨fun _ => by decide, fun _ _ => trivial⟩

/-- In every run whose attempts end in time, they back off. -/
def AttemptsBackOff : Prop :=
  ∀ client, redisClient.Reachable AttemptsTimeOut client → client.BacksOff

/-- After an attempt of three seconds, the next one follows at once. -/
theorem not_attemptsBackOff : ¬AttemptsBackOff := by
  intro promise
  have reachable : redisClient.Reachable AttemptsTimeOut (after (timesOut 0)) := by
    refine reachable_after rfl ⟨trivial, fun _ stepped => ?_⟩
    cases stepped
    refine ⟨Nat.le_refl 3000000000, fun _ stepped => ?_⟩
    cases stepped
    refine ⟨trivial, fun _ stepped => ?_⟩
    cases stepped
    exact ⟨Nat.zero_le _, fun _ _ => trivial⟩
  exact absurd (promise _ reachable) (by decide)

end Corvus.Db.RedisClient
