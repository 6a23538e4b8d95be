import Corvus.Auth.ApiKeyCache

/-!
# When keys expire

A row of `api_keys` may carry an expiry.  Postgres stops returning the row when
it has passed; what Redis holds of it goes when its own time to live has.  Here
the calls of `validate` run on one clock, which Postgres, the validators and
Redis read at different moments and with different precision, and everything
they send succeeds.
-/

namespace Corvus.Auth

open Corvus.Db

/-! ## Rows -/

/-- A row of `api_keys`; `expiresAt` is in microseconds since the epoch. -/
structure ApiKeyRow where
  clientId : String
  scopes : String
  isActive : Bool := true
  expiresAt : Option Int
  deriving DecidableEq, Repr

/-- `extract(epoch FROM expires_at)::bigint`.  The cast goes to the nearest
second, from halves away from zero. -/
def epochSeconds (micros : Int) : Int :=
  if 0 ≤ micros then (micros + 500000) / 1000000 else -((500000 - micros) / 1000000)

/-- The row passes the filter of the query, with this `now()`. -/
def ApiKeyRow.counts (row : ApiKeyRow) (now : Int) : Bool :=
  row.isActive &&
    match row.expiresAt with
    | none => true
    | some expiresAt => decide (now < expiresAt)

/-- The columns of the query as a record.  The source has the expiry in nanoseconds in 64
bits, which end in the year 2262; here it does not overflow. -/
def ApiKeyRow.record (row : ApiKeyRow) : ApiKeyRecord where
  clientId := row.clientId
  scopes := row.scopes
  expiresAt := row.expiresAt.map fun expiresAt => epochSeconds expiresAt * 1000000000

/-- `make_pg_api_key_lookup` without failures.  Hashes are unique among rows, and
`now()` is the moment the transaction began. -/
def pgApiKeyLookup (rows : String → Option ApiKeyRow) (keyHash : String) (now : Int) :
    LookupOutcome :=
  .ok (((rows keyHash).filter fun row => row.counts now).map ApiKeyRow.record)

/-! ## One clock -/

/-- What the calls share, the rows of `api_keys`, and how far into its present
millisecond the clock is, in nanoseconds. -/
structure TimedService where
  service : KeyService
  rows : String → Option ApiKeyRow
  intoMillisecond : Fin 1000000

namespace TimedService

/-- The common clock, in nanoseconds since the epoch. -/
def clock (timed : TimedService) : Nat :=
  timed.service.redis.now * 1000000 + timed.intoMillisecond

/-- Let nanoseconds pass. -/
def pass (timed : TimedService) (span : Nat) : TimedService :=
  { timed with
    service := { timed.service with
      redis := timed.service.redis.advance ((timed.intoMillisecond + span) / 1000000) }
    intoMillisecond := ⟨(timed.intoMillisecond + span) % 1000000, Nat.mod_lt _ (by decide)⟩ }

@[simp] theorem clock_pass (timed : TimedService) (span : Nat) :
    (timed.pass span).clock = timed.clock + span := by
  simp only [clock, pass, ExpiringStore.now_advance]
  omega

end TimedService

/-- The next command of the phase depends on a reading of the clock taken before it
is sent: `now()` of the transaction, or the one in `cache_ttl_for`. -/
def ValidatePhase.readsClock : ValidatePhase → Bool
  | .lookup => true
  | .storeExpire _ _ => true
  | _ => false

/-- A call, when it started, and the reading its next command depends on. -/
structure TimedCall where
  call : ValidateCall
  enteredAt : Nat
  reading : Option Nat := none

namespace TimedCall

variable (sha256 : String → List UInt8)

/-- The answer to a step for which the clock read `reading`. -/
def answer (timed : TimedCall) (rows : String → Option ApiKeyRow) (reading : Nat) : Answer where
  lookup := pgApiKeyLookup rows (timed.call.hash sha256) (reading / 1000)
  systemNow := reading

/-- One step of `validate`: a reading of the clock, or the step it was taken for. -/
def step (timed : TimedCall) (world : TimedService) : Option (TimedCall × TimedService) :=
  if timed.call.phase.readsClock && timed.reading.isNone then
    some ({ timed with reading := some world.clock }, world)
  else
    match timed.call.step sha256
        (timed.answer sha256 world.rows (timed.reading.getD world.clock)) world.service with
    | none => none
    | some (next, after) =>
        some ({ timed with call := next, reading := none }, { world with service := after })

end TimedCall

/-- What happens besides the calls: time passes, and the row of a hash is put in,
changed or removed. -/
inductive TimedHappening where
  | pass (span : Nat)
  | alter (keyHash : String) (row : Option ApiKeyRow)

/-- The calls of any number of validators on one clock. -/
def timedValidation (sha256 : String → List UInt8) :
    Component TimedService ValidateRequest TimedCall Unit TimedHappening where
  initial world := world.service = .fresh ∧ world.rows = fun _ => none
  enter request world :=
    { call := { request, phase := .entered, startedAt := world.service.redis.now }
      enteredAt := world.clock }
  step timed _ world := timed.step sha256 world
  happen happening world :=
    match happening with
    | .pass span => some (world.pass span)
    | .alter keyHash row => some { world with rows := Function.update world.rows keyHash row }

abbrev TimedState := Concurrent TimedService TimedCall
abbrev TimedEvent := ConcurrentEvent ValidateRequest Unit TimedHappening

/-! ## Time and expiry -/

/-- The entry is gone by `expiry`: no clock that reads `expiry` or more sees it. -/
def EndsBefore (expiry : Int) (entry : Entry RedisValue) : Prop :=
  ∃ deadline, entry.expireAt = some deadline ∧ ((deadline : Int) + 1) * 1000 ≤ expiry

/-- What Redis keeps for `seconds` from its time `now` on is gone by `expiry`. -/
def LapsesBefore (expiry : Int) (now : Nat) (seconds : Int) : Prop :=
  (now + seconds * 1000 + 1) * 1000 ≤ expiry

instance (expiry : Int) (now : Nat) (seconds : Int) : Decidable (LapsesBefore expiry now seconds) :=
  inferInstanceAs (Decidable (_ ≤ _))

/-- Whole seconds from a reading of the clock to the expiry as the query returns it. -/
def secondsLeft (expiry : Int) (reading : Nat) : Int :=
  (epochSeconds expiry * 1000000000 - reading).tdiv 1000000000

/-- Call `id` has the `EXPIRE` of a store for this hash still ahead. -/
def ExpireAhead (sha256 : String → List UInt8) (state : TimedState) (id : Nat)
    (hash : String) : Prop :=
  ∃ timed record connection, state.calls id = some timed ∧ timed.call.hash sha256 = hash ∧
    timed.call.phase = .storeExpire record connection

/-- No call breaks off, and the row of this hash, while there is one, expires at
`expiry`. -/
def KeyExpires (hash : String) (expiry : Int) : TimedEvent → Prop
  | .stop _ => False
  | .happen (.alter keyHash row) =>
      keyHash = hash → ∀ found, row = some found → found.expiresAt = some expiry
  | _ => True

/-- Stores of this hash write before the expiry, their `EXPIRE` takes effect before
it, and what it sets is less than what is left: more than a second, and more than
`kCacheTtl` or the seconds counted from the reading. -/
def StoresInTime (sha256 : String → List UInt8) (hash : String) (expiry : Int)
    (state : TimedState) : TimedEvent → Prop
  | .advance id _ => ∀ timed, state.calls id = some timed → timed.call.hash sha256 = hash →
      (∀ record connection, timed.call.phase = .storeHmset record connection →
        (state.shared.clock : Int) < expiry * 1000) ∧
      ∀ record connection reading entry,
        timed.call.phase = .storeExpire record connection → timed.reading = some reading →
        state.shared.service.redis.lookup (redisKey hash) = some entry →
        LapsesBefore expiry state.shared.service.redis.now 1 ∧
          (LapsesBefore expiry state.shared.service.redis.now kCacheTtl ∨
            LapsesBefore expiry state.shared.service.redis.now (secondsLeft expiry reading))
  | .happen (.pass span) => expiry * 1000 ≤ state.shared.clock + span →
      ∀ id entry, ExpireAhead sha256 state id hash →
        state.shared.service.redis.lookup (redisKey hash) = some entry →
        EndsBefore expiry entry
  | _ => True

/-- The runs of the result: nothing fails, and stores are in time. -/
def TimelyRun (sha256 : String → List UInt8) (hash : String) (expiry : Int)
    (state : TimedState) (event : TimedEvent) : Prop :=
  KeyExpires hash expiry event ∧ StoresInTime sha256 hash expiry state event

variable {sha256 : String → List UInt8} {hash : String} {expiry : Int}

/-! ## What a step does -/

/-- A step takes the reading its command depends on, or takes a step of `validate`
with that reading, or with the present time if it depends on none. -/
theorem TimedCall.step_cases {timed next : TimedCall} {world after : TimedService}
    (stepped : timed.step sha256 world = some (next, after)) :
    (timed.call.phase.readsClock = true ∧ timed.reading = none ∧
      next = { timed with reading := some world.clock } ∧ after = world) ∨
    ∃ reading moved service,
      (timed.call.phase.readsClock = true → timed.reading = some reading) ∧
      timed.call.step sha256 (timed.answer sha256 world.rows reading) world.service =
        some (moved, service) ∧
      next = { timed with call := moved, reading := none } ∧
      after = { world with service } := by
  unfold TimedCall.step at stepped
  split at stepped
  · rename_i takes
    rw [Bool.and_eq_true, Option.isNone_iff_eq_none] at takes
    cases stepped
    exact Or.inl ⟨takes.1, takes.2, rfl, rfl⟩
  · rename_i taken
    split at stepped
    · cases stepped
    · rename_i moved service callStepped
      cases stepped
      refine Or.inr ⟨_, moved, service, fun reads => ?_, callStepped, rfl, rfl⟩
      cases readingEq : timed.reading with
      | none => simp [reads, readingEq] at taken
      | some reading => rfl

/-- Commands take no time. -/
theorem clock_of_step {call next : ValidateCall} {answer : Answer} {world : TimedService}
    {service : KeyService}
    (stepped : call.step sha256 answer world.service = some (next, service)) :
    TimedService.clock { world with service } = world.clock := by
  simp only [TimedService.clock, step_now stepped]

/-- The record a call carries. -/
def ValidatePhase.record? : ValidatePhase → Option ApiKeyRecord
  | .storeAcquire record | .storeHmset record _ | .storeExpire record _
  | .storeRelease record _ => some record
  | _ => none

@[simp] theorem record?_cacheFailed (call : ValidateCall) (what : String) :
    (call.cacheFailed what).phase.record? = none := by
  unfold ValidateCall.cacheFailed
  split <;> rfl

@[simp] theorem record?_cacheAnswered (call : ValidateCall) (cached : Option ApiKeyInfo) :
    (call.cacheAnswered cached).phase.record? = none := by
  unfold ValidateCall.cacheAnswered
  split
  · rfl
  · split <;> rfl

/-- A record comes from the lookup of the call. -/
theorem record?_of_step {call next : ValidateCall} {answer : Answer}
    {service after : KeyService} {record : ApiKeyRecord}
    (stepped : call.step sha256 answer service = some (next, after))
    (carried : next.phase.record? = some record) :
    call.phase.record? = some record ∨
      (call.phase = .lookup ∧ answer.lookup = .ok (some record)) := by
  cases ValidateCall.Step.of_step stepped with
  | found phaseEq looked =>
      cases carried
      exact Or.inr ⟨phaseEq, looked⟩
  | storing phaseEq | stored phaseEq | expires phaseEq =>
      exact Or.inl ((congrArg ValidatePhase.record? phaseEq).trans carried)
  | cacheLost | released => simp at carried
  | _ => cases carried

/-! ## Timed runs are runs -/

/-- The state without the clock and the rows. -/
def untimed (state : TimedState) : ValidationState where
  shared := state.shared.service
  calls id := (state.calls id).map TimedCall.call

/-- Whatever is sent gets an answer. -/
def AllAnswered : ValidationEvent → Prop
  | .advance _ answer => answer.connects = true ∧ answer.fault = .healthy
  | _ => True

theorem untimed_update (shared : TimedService) (calls : Nat → Option TimedCall) (id : Nat)
    (timed : Option TimedCall) :
    untimed { shared, calls := Function.update calls id timed } =
      { shared := shared.service
        calls := Function.update (fun other => (calls other).map TimedCall.call) id
          (timed.map TimedCall.call) } := by
  simp only [untimed, Concurrent.mk.injEq, true_and]
  funext other
  by_cases same : other = id
  · subst same
    simp
  · simp [Function.update_of_ne same]

/-- An event on the clock is at most one event without it. -/
theorem untimed_step {state next : TimedState} {event : TimedEvent}
    (stepped : (timedValidation sha256).eventStep state event = some next) :
    untimed next = untimed state ∨
      ∃ event, AllAnswered event ∧
        (validation sha256).eventStep (untimed state) event = some (untimed next) := by
  cases event with
  | start id request =>
      obtain ⟨free, rfl⟩ := Component.start_cases stepped
      refine Or.inr ⟨.start id request, trivial, ?_⟩
      simp only [Component.eventStep, untimed_update]
      simp [untimed, free, validation, timedValidation]
  | advance id choice =>
      obtain ⟨timed, moved, after, found, callStepped, rfl⟩ := Component.advance_cases stepped
      rcases TimedCall.step_cases callStepped with
        ⟨_, _, rfl, rfl⟩ | ⟨reading, call, service, _, serviceStepped, rfl, rfl⟩
      · left
        rw [untimed_update]
        simp only [untimed, Concurrent.mk.injEq, true_and]
        rw [Function.update_eq_self_iff, found]
        rfl
      · refine Or.inr ⟨.advance id (timed.answer sha256 state.shared.rows reading),
          ⟨rfl, rfl⟩, ?_⟩
        simp only [Component.eventStep, untimed_update]
        simp [untimed, found, validation, serviceStepped]
  | stop id =>
      obtain rfl := Component.stop_cases stepped
      refine Or.inr ⟨.stop id, trivial, ?_⟩
      simp only [Component.eventStep, untimed_update]
      rfl
  | happen happening =>
      obtain ⟨after, happened, rfl⟩ := Component.happen_cases stepped
      cases happening with
      | pass span =>
          cases happened
          exact Or.inr ⟨.happen (.tick _), trivial, rfl⟩
      | alter keyHash row =>
          cases happened
          exact Or.inl rfl

/-- Runs on the clock are runs without it in which everything is answered. -/
theorem untimed_reachable {guard : TimedState → TimedEvent → Prop} {state : TimedState}
    (reachable : (timedValidation sha256).machine.Reachable guard state) :
    (validation sha256).machine.Reachable (fun _ => AllAnswered) (untimed state) := by
  refine @Machine.Reachable.invariant _ _ _ _
    (fun state => (validation sha256).machine.Reachable (fun _ => AllAnswered) (untimed state))
    ?_ ?_ _ reachable
  · rintro state ⟨⟨fresh, _⟩, noCalls⟩
    refine ⟨untimed state, ⟨fresh, ?_⟩, .refl _⟩
    funext id
    simp [untimed, noCalls]
  · rintro state event next before _ stepped
    rcases untimed_step stepped with same | ⟨event, answered, untimedStepped⟩
    · rw [same]
      exact before
    · exact before.extend ((Machine.Runs.refl _).tail answered untimedStepped)

/-! ## Rows and lookups -/

/-- What the query returns belongs to a row that counts. -/
theorem row_of_pgApiKeyLookup {rows : String → Option ApiKeyRow} {now : Int}
    {record : ApiKeyRecord} (looked : pgApiKeyLookup rows hash now = .ok (some record)) :
    ∃ row, rows hash = some row ∧ row.counts now = true ∧ record = row.record := by
  simp only [pgApiKeyLookup, Except.ok.injEq, Option.map_eq_some_iff,
    Option.filter_eq_some_iff] at looked
  obtain ⟨row, ⟨found, counts⟩, rfl⟩ := looked
  exact ⟨row, found, counts, rfl⟩

/-- From its expiry on, a row does not count. -/
theorem ApiKeyRow.not_counts {row : ApiKeyRow} {now : Int}
    (expires : row.expiresAt = some expiry) (passed : expiry ≤ now) :
    row.counts now = false := by
  simp only [counts, expires, Bool.and_eq_false_iff, decide_eq_false_iff_not]
  exact Or.inr (by omega)

/-- A row that expires is not found from its expiry on. -/
theorem pgApiKeyLookup_expired {rows : String → Option ApiKeyRow} {reading : Nat}
    (expires : ∀ row, rows hash = some row → row.expiresAt = some expiry)
    (passed : expiry * 1000 ≤ reading) : pgApiKeyLookup rows hash (reading / 1000) = .ok none := by
  cases looked : (rows hash).filter fun row => row.counts (reading / 1000) with
  | none => simp [pgApiKeyLookup, looked]
  | some row =>
      obtain ⟨found, counts⟩ := Option.filter_eq_some_iff.mp looked
      rw [ApiKeyRow.not_counts (expires row found) (by omega)] at counts
      cases counts

/-! ## Calls that start late -/

/-- The call has no key in hand. -/
def EmptyHanded (call : ValidateCall) : Prop :=
  match call.phase with
  | .release _ fields => fields = []
  | .storeAcquire _ | .storeHmset _ _ | .storeExpire _ _ | .storeRelease _ _ => False
  | .done outcome => ∃ error, outcome = .error error
  | _ => True

/-- While Redis holds nothing for its key and the lookup finds nothing, a call stays
without a key. -/
theorem EmptyHanded.step {call next : ValidateCall} {answer : Answer}
    {service after : KeyService} (empty : EmptyHanded call)
    (cold : service.redis.lookup (call.rkey sha256) = none)
    (missed : call.phase = .lookup → answer.lookup = .ok none)
    (stepped : call.step sha256 answer service = some (next, after)) : EmptyHanded next := by
  cases ValidateCall.Step.of_step stepped with
  | refused => exact ⟨_, rfl⟩
  | cacheLost =>
      unfold ValidateCall.cacheFailed
      split
      · trivial
      · exact ⟨_, rfl⟩
  | replied _ reply =>
      simp only [RedisConnection.hgetall, cString_rkey, cold] at reply
      cases reply
      rfl
  | released phaseEq =>
      simp only [EmptyHanded, phaseEq] at empty
      subst empty
      simp only [cachedInfo, if_true, ValidateCall.cacheAnswered]
      split
      · trivial
      · exact ⟨_, rfl⟩
  | notFound => exact ⟨_, rfl⟩
  | found phaseEq looked =>
      rw [missed phaseEq] at looked
      cases looked
  | storing phaseEq | stored phaseEq | expires phaseEq | storeLost phaseEq
  | expiryLost phaseEq => simp [EmptyHanded, phaseEq] at empty
  | finished phaseEq =>
      rcases phaseEq with phaseEq | ⟨_, phaseEq | phaseEq | phaseEq⟩ <;>
        simp [EmptyHanded, phaseEq] at empty
  | _ => trivial

/-- What is known of a call: it started by now, what it carries expires when its row
does, and if it started from then on it has nothing. -/
structure OnTime (sha256 : String → List UInt8) (hash : String) (expiry : Int)
    (clock : Nat) (timed : TimedCall) : Prop where
  holds_open : HoldsOpen timed.call
  entered : timed.enteredAt ≤ clock
  read : ∀ reading, timed.reading = some reading → timed.enteredAt ≤ reading
  record : timed.call.hash sha256 = hash → ∀ record, timed.call.phase.record? = some record →
    record.expiresAt = some (epochSeconds expiry * 1000000000)
  late : timed.call.hash sha256 = hash → expiry * 1000 ≤ timed.enteredAt →
    EmptyHanded timed.call

theorem OnTime.later {clock after : Nat} {timed : TimedCall}
    (onTime : OnTime sha256 hash expiry clock timed) (ordered : clock ≤ after) :
    OnTime sha256 hash expiry after timed :=
  { onTime with entered := Nat.le_trans onTime.entered ordered }

/-- The rows of the hash expire at `expiry`, the calls are on time, and the entry of
the hash is gone by then or about to get its time to live. -/
structure Timely (sha256 : String → List UInt8) (hash : String) (expiry : Int)
    (state : TimedState) : Prop where
  rows : ∀ row, state.shared.rows hash = some row → row.expiresAt = some expiry
  calls : ∀ id timed, state.calls id = some timed →
    OnTime sha256 hash expiry state.shared.clock timed
  entry : ∀ entry, state.shared.service.redis.lookup (redisKey hash) = some entry →
    EndsBefore expiry entry ∨
      ((state.shared.clock : Int) < expiry * 1000 ∧ ∃ id, ExpireAhead sha256 state id hash)

/-- Nothing of the key is left in Redis from its expiry on. -/
theorem Timely.cold {state : TimedState} (timely : Timely sha256 hash expiry state)
    (passed : expiry * 1000 ≤ state.shared.clock) :
    state.shared.service.redis.lookup (redisKey hash) = none := by
  cases found : state.shared.service.redis.lookup (redisKey hash) with
  | none => rfl
  | some entry =>
      rcases timely.entry entry found with ⟨deadline, deadlineEq, ends⟩ | ⟨ahead, _⟩
      · have visible := ExpiringStore.visibleAt_of_lookup found
        have into := state.shared.intoMillisecond.isLt
        simp only [Entry.visibleAt, deadlineEq, decide_eq_true_eq] at visible
        simp only [TimedService.clock] at passed
        omega
      · omega

/-- One step of a call keeps it on time. -/
theorem Timely.onTime_of_step {state : TimedState} {id : Nat} {timed next : TimedCall}
    {after : TimedService} (timely : Timely sha256 hash expiry state)
    (found : state.calls id = some timed)
    (stepped : timed.step sha256 state.shared = some (next, after)) :
    OnTime sha256 hash expiry after.clock next := by
  have onTime := timely.calls id timed found
  rcases TimedCall.step_cases stepped with
    ⟨_, _, rfl, rfl⟩ | ⟨reading, moved, service, reads, callStepped, rfl, rfl⟩
  · exact { onTime with
      read := fun reading read => by
        cases read
        exact onTime.entered }
  · rw [clock_of_step callStepped]
    have sameHash : moved.hash sha256 = timed.call.hash sha256 := by
      rw [ValidateCall.hash, (ValidateCall.step_keeps callStepped).1, ValidateCall.hash]
    refine ⟨HoldsOpen.step callStepped, onTime.entered, fun _ none => (by cases none),
      fun own record carried => ?_, fun own isLate => ?_⟩
    · rw [sameHash] at own
      rcases record?_of_step callStepped carried with before | ⟨_, looked⟩
      · exact onTime.record own record before
      · obtain ⟨row, rowFound, _, rfl⟩ := row_of_pgApiKeyLookup looked
        rw [own] at rowFound
        simp [ApiKeyRow.record, timely.rows row rowFound]
    · rw [sameHash] at own
      have passed : expiry * 1000 ≤ state.shared.clock :=
        le_trans isLate (Int.ofNat_le.mpr onTime.entered)
      refine (onTime.late own isLate).step ?_ (fun phaseEq => ?_) callStepped
      · rw [ValidateCall.rkey, own]
        exact timely.cold passed
      · have taken := onTime.read reading (reads (by rw [phaseEq]; rfl))
        simp only [TimedCall.answer, own]
        exact pgApiKeyLookup_expired timely.rows
          (le_trans isLate (Int.ofNat_le.mpr taken))

/-! ## Entries end -/

/-- An `EXPIRE` that is in time leaves an entry that is gone by the expiry. -/
theorem endsBefore_of_expireKey {redis : Redis} {key : String} {record : ApiKeyRecord}
    {reading : Nat} {entry : Entry RedisValue}
    (expires : record.expiresAt = some (epochSeconds expiry * 1000000000))
    (second : LapsesBefore expiry redis.now 1)
    (left : LapsesBefore expiry redis.now kCacheTtl ∨
      LapsesBefore expiry redis.now (secondsLeft expiry reading))
    (found : (RedisConnection.expireKey key (cacheTtlFor record reading) redis).lookup key =
      some entry) : EndsBefore expiry entry := by
  have ttl : cacheTtlFor record reading = max (min kCacheTtl (secondsLeft expiry reading)) 1 := by
    simp only [cacheTtlFor, expires, secondsLeft]
  have positive := (cacheTtlFor_bounds record reading).1
  refine ⟨_, RedisConnection.expireAt_of_lookup_expireKey (by omega) found, ?_⟩
  simp only [LapsesBefore, RedisConnection.deadline] at second left ⊢
  omega

theorem ExpireAhead.of_ne {state next : TimedState} {id : Nat}
    (ahead : ExpireAhead sha256 state id hash) (same : next.calls id = state.calls id) :
    ExpireAhead sha256 next id hash := by
  obtain ⟨timed, record, connection, found, rest⟩ := ahead
  exact ⟨timed, record, connection, same.trans found, rest⟩

/-- The entry of the hash after a step of call `id`. -/
theorem Timely.entry_of_step {state : TimedState} {id : Nat} {timed next : TimedCall}
    {after : TimedService} (timely : Timely sha256 hash expiry state)
    (inTime : StoresInTime sha256 hash expiry state (.advance id ()))
    (found : state.calls id = some timed)
    (stepped : timed.step sha256 state.shared = some (next, after)) :
    ∀ entry, after.service.redis.lookup (redisKey hash) = some entry →
      EndsBefore expiry entry ∨ ((after.clock : Int) < expiry * 1000 ∧
        ∃ other, ExpireAhead sha256
          { shared := after, calls := Function.update state.calls id (some next) } other hash) := by
  intro entry entryFound
  rcases TimedCall.step_cases stepped with
    ⟨_, _, rfl, rfl⟩ | ⟨reading, moved, service, reads, callStepped, rfl, rfl⟩
  · -- A reading changes neither Redis nor the phase of the call.
    rcases timely.entry entry entryFound with ends | ⟨early, other, ahead⟩
    · exact Or.inl ends
    · refine Or.inr ⟨early, other, ?_⟩
      by_cases same : other = id
      · subst same
        obtain ⟨own, record, connection, ownFound, rest⟩ := ahead
        rw [found] at ownFound
        cases ownFound
        exact ⟨_, record, connection, Function.update_self _ _ _, rest⟩
      · exact ahead.of_ne (Function.update_of_ne same _ _)
  rw [clock_of_step callStepped]
  -- An entry that was there ends, or the `EXPIRE` ahead is another call's.
  have carried : state.shared.service.redis.lookup (redisKey hash) = some entry →
      ¬ExpireAhead sha256 state id hash →
      EndsBefore expiry entry ∨ ((state.shared.clock : Int) < expiry * 1000 ∧
        ∃ other, ExpireAhead sha256 { shared := { state.shared with service }
                                      calls := Function.update state.calls id
                                        (some { timed with call := moved, reading := none }) }
          other hash) := by
    intro before notOwn
    rcases timely.entry entry before with ends | ⟨early, other, ahead⟩
    · exact Or.inl ends
    · refine Or.inr ⟨early, other, ahead.of_ne (Function.update_of_ne ?_ _ _)⟩
      rintro rfl
      exact notOwn ahead
  by_cases expiring : ∃ record connection, timed.call.phase = .storeExpire record connection
  · obtain ⟨record, connection, phaseEq⟩ := expiring
    have connected : connection.connected = true := by
      simpa [HoldsOpen, phaseEq] using (timely.calls id timed found).holds_open
    have expired := ValidateCall.step_storeExpire phaseEq connected (Or.inl rfl) callStepped
    simp only [expired] at entryFound
    by_cases own : timed.call.hash sha256 = hash
    · left
      have readingEq := reads (by rw [phaseEq]; rfl)
      have expires := (timely.calls id timed found).record own record (by rw [phaseEq]; rfl)
      have isKey : timed.call.rkey sha256 = redisKey hash := by rw [ValidateCall.rkey, own]
      rw [isKey] at entryFound
      obtain ⟨before, beforeFound, _⟩ := RedisConnection.value_of_lookup_expireKey entryFound
      obtain ⟨second, left⟩ := (inTime timed found own).2 record connection reading before phaseEq
        readingEq beforeFound
      exact endsBefore_of_expireKey expires second left entryFound
    · have otherKey : redisKey hash ≠ timed.call.rkey sha256 :=
        fun same => own (redisKey_injective same).symm
      rw [RedisConnection.expireKey_lookup_of_ne otherKey] at entryFound
      refine carried entryFound ?_
      rintro ⟨_, _, _, ownFound, sameHash, _⟩
      rw [found] at ownFound
      cases ownFound
      exact own sameHash
  · have notOwn : ¬ExpireAhead sha256 state id hash := by
      rintro ⟨_, record, connection, ownFound, _, phaseEq⟩
      rw [found] at ownFound
      cases ownFound
      exact expiring ⟨record, connection, phaseEq⟩
    rcases ValidateCall.step_redis callStepped with
      same | ⟨record, connection, phaseEq, stored, next⟩ | ⟨record, connection, phaseEq, _⟩
    · simp only [same] at entryFound
      exact carried entryFound notOwn
    · simp only [stored] at entryFound
      rcases RedisConnection.lookup_hmset entryFound with untouched | ⟨isKey, _⟩
      · exact carried untouched notOwn
      · have own : timed.call.hash sha256 = hash := (redisKey_injective isKey).symm
        rcases next with ⟨_, opened, nextPhase⟩ | lost
        · refine Or.inr ⟨(inTime timed found own).1 record connection phaseEq, id, _, record,
            opened, Function.update_self _ _ _, ?_, nextPhase⟩
          rw [← own, ValidateCall.hash, (ValidateCall.step_keeps callStepped).1,
            ValidateCall.hash]
        · cases lost
    · exact (expiring ⟨record, connection, phaseEq⟩).elim

/-- One event of a run in which stores are in time. -/
theorem Timely.preserved {state next : TimedState} {event : TimedEvent}
    (timely : Timely sha256 hash expiry state)
    (allowed : TimelyRun sha256 hash expiry state event)
    (stepped : (timedValidation sha256).eventStep state event = some next) :
    Timely sha256 hash expiry next := by
  cases event with
  | start id request =>
      obtain ⟨free, rfl⟩ := Component.start_cases stepped
      refine ⟨timely.rows, fun other timed found => ?_, fun entry found => ?_⟩
      · by_cases same : other = id
        · subst same
          simp only [Function.update_self, Option.some.injEq] at found
          subst found
          exact ⟨trivial, Nat.le_refl _, fun _ none => (by cases none),
            fun _ _ carried => (by cases carried), fun _ _ => trivial⟩
        · simp only [Function.update_of_ne same] at found
          exact timely.calls other timed found
      · rcases timely.entry entry found with ends | ⟨early, other, ahead⟩
        · exact Or.inl ends
        · refine Or.inr ⟨early, other, ahead.of_ne (Function.update_of_ne ?_ _ _)⟩
          rintro rfl
          obtain ⟨_, _, _, calling, _⟩ := ahead
          rw [free] at calling
          cases calling
  | advance id choice =>
      obtain ⟨timed, moved, after, found, callStepped, rfl⟩ := Component.advance_cases stepped
      have sameRows : after.rows = state.shared.rows ∧ after.clock = state.shared.clock := by
        rcases TimedCall.step_cases callStepped with
          ⟨_, _, _, rfl⟩ | ⟨_, _, _, _, serviceStepped, _, rfl⟩
        · exact ⟨rfl, rfl⟩
        · exact ⟨rfl, clock_of_step serviceStepped⟩
      refine ⟨fun row rowFound => timely.rows row (sameRows.1 ▸ rowFound),
        fun other bystander otherFound => ?_,
        timely.entry_of_step allowed.2 found callStepped⟩
      by_cases same : other = id
      · subst same
        simp only [Function.update_self, Option.some.injEq] at otherFound
        subst otherFound
        exact timely.onTime_of_step found callStepped
      · simp only [Function.update_of_ne same] at otherFound
        exact (timely.calls other bystander otherFound).later (Nat.le_of_eq sameRows.2.symm)
  | stop id => exact allowed.1.elim
  | happen happening =>
      obtain ⟨after, happened, rfl⟩ := Component.happen_cases stepped
      cases happening with
      | pass span =>
          cases happened
          refine ⟨timely.rows, fun id timed found =>
            (timely.calls id timed found).later (by simp), fun entry found => ?_⟩
          have before := ExpiringStore.lookup_of_lookup_advance found
          rcases timely.entry entry before with ends | ⟨_, id, ahead⟩
          · exact Or.inl ends
          · by_cases reaches : expiry * 1000 ≤ state.shared.clock + span
            · exact Or.inl (allowed.2 reaches id entry ahead before)
            · refine Or.inr ⟨?_, id, ahead⟩
              simp only [TimedService.clock_pass]
              omega
      | alter keyHash row =>
          cases happened
          refine ⟨fun altered alteredFound => ?_, timely.calls, timely.entry⟩
          by_cases same : keyHash = hash
          · subst same
            simp only [Function.update_self] at alteredFound
            exact allowed.1 rfl altered alteredFound
          · simp only [Function.update_of_ne (Ne.symm same)] at alteredFound
            exact timely.rows altered alteredFound

theorem timely_of_reachable {state : TimedState}
    (reachable : (timedValidation sha256).machine.Reachable (TimelyRun sha256 hash expiry) state) :
    Timely sha256 hash expiry state := by
  refine reachable.invariant ?_ fun state event next timely allowed stepped =>
    timely.preserved allowed stepped
  rintro state ⟨⟨fresh, noRows⟩, noCalls⟩
  refine ⟨fun row found => ?_, fun id timed found => ?_, fun entry found => ?_⟩
  · rw [noRows] at found
    cases found
  · rw [noCalls] at found
    cases found
  · rw [fresh] at found
    cases found

/-! ## The result -/

/-- In a run in which stores are in time, no call that starts when the key has expired
returns it. -/
theorem expired_key_refused {state : TimedState} {id : Nat} {timed : TimedCall}
    (reachable : (timedValidation sha256).machine.Reachable (TimelyRun sha256 hash expiry) state)
    (found : state.calls id = some timed) (sameHash : timed.call.hash sha256 = hash)
    (expired : expiry * 1000 ≤ timed.enteredAt) (info : ApiKeyInfo) :
    timed.call.phase ≠ .done (.ok info) := by
  intro ended
  have empty := ((timely_of_reachable reachable).calls id timed found).late sameHash expired
  simp [EmptyHanded, ended] at empty

/-! ## Calls that do not wait -/

theorem TimedService.now_eq (timed : TimedService) :
    timed.service.redis.now = timed.clock / 1000000 := by
  have into := timed.intoMillisecond.isLt
  simp only [TimedService.clock]
  omega

/-- The clock stands still, and call `id` has read nothing else. -/
structure StandsAt (clock id : Nat) (state : TimedState) : Prop where
  clock_eq : state.shared.clock = clock
  reading_eq : ∀ timed reading, state.calls id = some timed → timed.reading = some reading →
    reading = clock

theorem StandsAt.preserved {clock id : Nat} {state next : TimedState}
    (stands : StandsAt clock id state)
    (stepped : (timedValidation sha256).eventStep state (.advance id ()) = some next) :
    StandsAt clock id next := by
  obtain ⟨timed, moved, after, found, callStepped, rfl⟩ := Component.advance_cases stepped
  rcases TimedCall.step_cases callStepped with
    ⟨_, _, rfl, rfl⟩ | ⟨_, _, _, _, serviceStepped, rfl, rfl⟩
  · refine ⟨stands.clock_eq, fun other reading otherFound read => ?_⟩
    simp only [Function.update_self, Option.some.injEq] at otherFound
    subst otherFound
    cases read
    exact stands.clock_eq
  · refine ⟨(clock_of_step serviceStepped).trans stands.clock_eq,
      fun other reading otherFound read => ?_⟩
    simp only [Function.update_self, Option.some.injEq] at otherFound
    subst otherFound
    cases read

/-- Calls that do not wait store in time, if the expiry is not rounded up to more than
what is left. -/
theorem allows_prompt {clock id steps : Nat} {state : TimedState}
    (stands : StandsAt clock id state) (early : (clock : Int) < expiry * 1000)
    (second : LapsesBefore expiry (clock / 1000000) 1)
    (left : LapsesBefore expiry (clock / 1000000) (secondsLeft expiry clock)) :
    (timedValidation sha256).machine.Allows (TimelyRun sha256 hash expiry) state
      (List.replicate steps (.advance id ())) := by
  refine Machine.allows_of_invariant stands (fun state stands event member => ?_)
    fun state event next member stands stepped => ?_
  · obtain rfl := List.eq_of_mem_replicate member
    refine ⟨trivial, fun timed found _ => ⟨fun _ _ _ => ?_, fun _ _ reading _ _ read _ => ?_⟩⟩
    · rw [stands.clock_eq]
      exact early
    · rw [TimedService.now_eq, stands.clock_eq, stands.reading_eq timed reading found read]
      exact ⟨second, Or.inr left⟩
  · obtain rfl := List.eq_of_mem_replicate member
    exact stands.preserved stepped

/-- Calls that start when the key has expired store nothing. -/
theorem allows_expired {id steps : Nat} {state : TimedState}
    (timely : Timely sha256 hash expiry state)
    (expired : ∀ timed, state.calls id = some timed → expiry * 1000 ≤ timed.enteredAt) :
    (timedValidation sha256).machine.Allows (TimelyRun sha256 hash expiry) state
      (List.replicate steps (.advance id ())) := by
  have allowed : ∀ state : TimedState, Timely sha256 hash expiry state →
      (∀ timed, state.calls id = some timed → expiry * 1000 ≤ timed.enteredAt) →
      TimelyRun sha256 hash expiry state (.advance id ()) := by
    refine fun state timely expired => ⟨trivial, fun timed found own => ?_⟩
    have empty := (timely.calls id timed found).late own (expired timed found)
    refine ⟨fun _ _ phaseEq => ?_, fun _ _ _ _ phaseEq => ?_⟩
    · simp [EmptyHanded, phaseEq] at empty
    · simp [EmptyHanded, phaseEq] at empty
  refine @Machine.allows_of_invariant _ _ _ _
    (fun state => Timely sha256 hash expiry state ∧
      ∀ timed, state.calls id = some timed → expiry * 1000 ≤ timed.enteredAt)
    _ state ⟨timely, expired⟩ (fun state holds event member => ?_)
    fun state event next member holds stepped => ?_
  · obtain rfl := List.eq_of_mem_replicate member
    exact allowed state holds.1 holds.2
  · obtain rfl := List.eq_of_mem_replicate member
    refine ⟨holds.1.preserved (allowed state holds.1 holds.2) stepped, fun timed found => ?_⟩
    obtain ⟨before, moved, after, beforeFound, callStepped, rfl⟩ :=
      Component.advance_cases stepped
    simp only [Function.update_self, Option.some.injEq] at found
    subst found
    have started := holds.2 before beforeFound
    rcases TimedCall.step_cases callStepped with
      ⟨_, _, rfl, _⟩ | ⟨_, _, _, _, _, rfl, _⟩ <;> exact started

/-! ## A key that is cached and expires -/

def startOfClock : TimedService where
  service := .fresh
  rows := fun _ => none
  intoMillisecond := 0

/-- In the second 1800000000 the key `k`, which expires at `expiry`, is validated and
stored. -/
def storingKey (expiry : Int) : List TimedEvent :=
  [.happen (.alter (hashKey (fun _ => digestOfK) "k")
      (some { clientId := "svc", scopes := "read", expiresAt := some expiry })),
    .happen (.pass 1800000000000000000), .start 0 { validator := 0, rawKey := "k" }] ++
  List.replicate 11 (.advance 0 ())

/-- Some nanoseconds later it is validated again, as far as `steps` go. -/
def validatingAgain (span steps : Nat) : List TimedEvent :=
  [.happen (.pass span), .start 1 { validator := 0, rawKey := "k" }] ++
  List.replicate steps (.advance 1 ())

/-- The second call when the key has expired: nothing in Redis, and no row. -/
def refusedCall : TimedCall where
  call :=
    { request := { validator := 0, rawKey := "k" }
      phase := .done (.error (.validation "Unknown, revoked or expired API key"))
      startedAt := 1800000010400
      lookedUp := some (.ok none)
      redisAnswered := true }
  enteredAt := 1800000010400000000

theorem allows_storingKey : (timedValidation fun _ => digestOfK).machine.Allows
    (TimelyRun (fun _ => digestOfK) (hashKey (fun _ => digestOfK) "k") 1800000010400000)
    (Component.fresh startOfClock) (storingKey 1800000010400000) := by
  refine Machine.Allows.append ?_ fun middle executed => ?_
  · refine ⟨⟨fun _ row same => by cases same; rfl, trivial⟩, fun _ stepped => ?_⟩
    cases stepped
    refine ⟨⟨trivial, fun _ id _ ahead => ?_⟩, fun _ stepped => ?_⟩
    · obtain ⟨_, _, _, found, _⟩ := ahead
      cases found
    · cases stepped
      exact ⟨⟨trivial, trivial⟩, fun _ _ => trivial⟩
  · cases executed
    refine @allows_prompt _ _ _ 1800000000000000000 _ _ _ ⟨rfl, fun _ _ found read => ?_⟩
      (by decide) (by decide) (by decide)
    cases found
    cases read

/-- With the store behind it, the key may expire. -/
theorem allows_validatingAgain {middle : TimedState}
    (executed : (timedValidation fun _ => digestOfK).machine.execute
      (Component.fresh startOfClock) (storingKey 1800000010400000) = some middle) :
    (timedValidation fun _ => digestOfK).machine.Allows
      (TimelyRun (fun _ => digestOfK) (hashKey (fun _ => digestOfK) "k") 1800000010400000)
      middle (validatingAgain 10400000000 6) := by
  have reachable : (timedValidation fun _ => digestOfK).machine.Reachable
      (TimelyRun (fun _ => digestOfK) (hashKey (fun _ => digestOfK) "k") 1800000010400000)
      middle :=
    ⟨_, ⟨⟨rfl, rfl⟩, rfl⟩, Machine.runs_of_execute executed allows_storingKey⟩
  have settled : ∀ id, ¬ExpireAhead (fun _ => digestOfK) middle id
      (hashKey (fun _ => digestOfK) "k") := by
    rintro id ⟨timed, record, connection, found, _, phaseEq⟩
    by_cases same : id = 0
    · subst same
      cases executed
      cases found
      cases phaseEq
    · rw [Component.calls_of_execute executed rfl (by simp [storingKey, same])] at found
      cases found
  have allowed : (timedValidation fun _ => digestOfK).machine.Allows
      (TimelyRun (fun _ => digestOfK) (hashKey (fun _ => digestOfK) "k") 1800000010400000)
      middle [.happen (.pass 10400000000), .start 1 { validator := 0, rawKey := "k" }] := by
    refine ⟨⟨trivial, fun _ id _ ahead => (settled id ahead).elim⟩, fun _ _ => ?_⟩
    exact ⟨⟨trivial, trivial⟩, fun _ _ => trivial⟩
  refine allowed.append fun later laterExecuted => ?_
  refine allows_expired
    (timely_of_reachable (reachable.extend (Machine.runs_of_execute laterExecuted allowed)))
    fun timed found => ?_
  cases executed
  cases laterExecuted
  cases found
  decide

/-- An expiry 10.4 seconds ahead leaves ten seconds in the cache. -/
theorem expired_key_refused_stored :
    refusedCall.call.phase ≠ .done (.ok { clientId := "svc", scopes := "read" }) := by
  have reachable : (timedValidation fun _ => digestOfK).machine.Reachable
      (TimelyRun (fun _ => digestOfK) (hashKey (fun _ => digestOfK) "k") 1800000010400000)
      ((timedValidation fun _ => digestOfK).replay startOfClock
        (storingKey 1800000010400000 ++ validatingAgain 10400000000 6)) :=
    Component.reachable_replay ⟨rfl, rfl⟩ rfl
      (allows_storingKey.append fun _ executed => allows_validatingAgain executed)
  have found : ((timedValidation fun _ => digestOfK).replay startOfClock
      (storingKey 1800000010400000 ++ validatingAgain 10400000000 6)).calls 1 =
      some refusedCall := rfl
  exact expired_key_refused reachable found rfl (by decide) _

/-- In every run without failures, calls that start when the key has expired do not
return it. -/
def KeysExpire (sha256 : String → List UInt8) : Prop :=
  ∀ hash expiry state, (timedValidation sha256).machine.Reachable
      (fun _ => KeyExpires hash expiry) state →
    ∀ id timed info, state.calls id = some timed → timed.call.hash sha256 = hash →
      expiry * 1000 ≤ timed.enteredAt → timed.call.phase ≠ .done (.ok info)

def returningCall : TimedCall where
  call :=
    { request := { validator := 0, rawKey := "k" }
      phase := .done (.ok { clientId := "svc", scopes := "read" })
      startedAt := 1800000010600
      redisAnswered := true }
  enteredAt := 1800000010600000000

/-- An expiry 10.6 seconds ahead is rounded up and leaves eleven seconds in the
cache. -/
theorem not_keysExpire : ¬KeysExpire fun _ => digestOfK := by
  intro promise
  have reachable : (timedValidation fun _ => digestOfK).machine.Reachable
      (fun _ => KeyExpires (hashKey (fun _ => digestOfK) "k") 1800000010600000)
      ((timedValidation fun _ => digestOfK).replay startOfClock
        (storingKey 1800000010600000 ++ validatingAgain 10600000000 4)) := by
    refine Component.reachable_replay ⟨rfl, rfl⟩ rfl (Machine.allows_of_forall ?_)
    intro event member _
    simp only [storingKey, validatingAgain, List.mem_append, List.mem_cons, List.not_mem_nil,
      or_false, List.mem_replicate] at member
    rcases member with ((rfl | rfl | rfl) | ⟨_, rfl⟩) | (rfl | rfl) | ⟨_, rfl⟩
    · intro _ row same
      cases same
      rfl
    all_goals trivial
  have found : ((timedValidation fun _ => digestOfK).replay startOfClock
      (storingKey 1800000010600000 ++ validatingAgain 10600000000 4)).calls 1 =
      some returningCall := rfl
  exact promise _ _ _ reachable 1 _ _ found rfl (by decide) rfl

end Corvus.Auth
