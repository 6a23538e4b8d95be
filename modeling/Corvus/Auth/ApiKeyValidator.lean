import Corvus.Concurrent
import Corvus.Hex
import Corvus.Db.CacheAside
import Corvus.Auth.Authenticator

/-!
# Validating API keys

A validator looks a key up in Redis and, when that gives nothing it may use, in
Postgres; what Postgres returns is stored in Redis for a short time.  The model
takes one step for each command sent to Redis, each connection taken or put
back, and each lookup, so that the calls of any number of validators interleave
at these points.
-/

namespace Corvus.Auth

open Corvus.Db

/-! ## Connections -/

/-- A `RedisConnection`; `connected` is its `is_connected()`. -/
structure Connection where
  connected : Bool := true
  deriving DecidableEq, Repr

/-- How a command on a connection ends.  An error reply leaves the connection
open; a missing reply closes it, whether or not the server ran the command. -/
inductive CommandFault where
  | healthy
  | errorReply
  | broken
  | replyLost
  deriving DecidableEq, Repr

namespace CommandFault

def fault : CommandFault → Fault
  | healthy => .healthy
  | errorReply => .refused
  | broken => .refused
  | replyLost => .replyLost

def staysConnected : CommandFault → Bool
  | healthy => true
  | errorReply => true
  | broken => false
  | replyLost => false

end CommandFault

/-- Send a command on a connection.  `none` is a `RedisCommandError`. -/
def Connection.send {Reply : Type} (connection : Connection) (command : Command Reply)
    (fault : CommandFault) (redis : Redis) : Option Reply × Connection × Redis :=
  if connection.connected then
    let outcome := command.issue fault.fault redis
    (outcome.1, { connected := fault.staysConnected }, outcome.2)
  else (none, connection, redis)

def kMaxIdleConnections : Nat := 8

/-- The loop of `acquire` over the idle connections, last parked first. -/
def takeIdle : List Connection → Option Connection × List Connection
  | [] => (none, [])
  | connection :: rest =>
      if connection.connected then (some connection, rest) else takeIdle rest

/-- `release`. -/
def parkIdle (connection : Connection) (idle : List Connection) : List Connection :=
  if connection.connected && decide (idle.length < kMaxIdleConnections) then
    connection :: idle
  else idle

/-! ## Records and keys -/

/-- What the lookup returns for a key that counts.  `expiresAt` is in
nanoseconds of the system clock. -/
structure ApiKeyRecord where
  clientId : String
  scopes : String
  expiresAt : Option Int
  deriving DecidableEq, Repr

def ApiKeyRecord.info (record : ApiKeyRecord) : ApiKeyInfo :=
  { clientId := record.clientId, scopes := record.scopes }

/-- A lookup finds a record, finds none, or throws. -/
abbrev LookupOutcome := Except ApiKeyError (Option ApiKeyRecord)

/-- `hash_key`: the digest in lower-case hexadecimal. -/
def hashKey (sha256 : String → List UInt8) (rawKey : String) : String :=
  String.ofList ((sha256 rawKey).flatMap hexByte)

/-- The digest of the key `k`. -/
def digestOfK : List UInt8 :=
  [130, 84, 195, 41, 169, 40, 80, 246, 213, 57, 221, 55, 111, 72, 22, 238, 39, 100, 81, 125,
    165, 224, 35, 85, 20, 175, 67, 49, 100, 72, 13, 122]

def redisKey (hash : String) : String := "corvus:apikeys:" ++ hash

def kSourceField : String := "src"
def kSourcePostgres : String := "pg"

/-- `kCacheTtl`, in seconds. -/
def kCacheTtl : Int := 60

/-- `cache_ttl_for`, with the reading of the system clock it takes.  Both times are
nanoseconds, which the source has in 64 bits; here their difference does not overflow. -/
def cacheTtlFor (record : ApiKeyRecord) (systemNow : Int) : Int :=
  let ttl :=
    match record.expiresAt with
    | none => kCacheTtl
    | some expiresAt => min kCacheTtl ((expiresAt - systemNow).tdiv 1000000000)
  max ttl 1

/-- The fields `store_in_cache` writes. -/
def storedFields (record : ApiKeyRecord) : List (String × String) :=
  [("client_id", record.clientId), ("scopes", record.scopes),
    (kSourceField, kSourcePostgres)]

/-- What `from_cache` makes of the fields it got. -/
def cachedInfo (hasLookup : Bool) (fields : List (String × String)) : Option ApiKeyInfo :=
  if fields = [] then none
  else if hasLookup && RedisConnection.findField fields kSourceField ≠ some kSourcePostgres then
    none
  else some
    { clientId := (RedisConnection.findField fields "client_id").getD ""
      scopes := (RedisConnection.findField fields "scopes").getD "" }

/-! ## The call -/

/-- Where a call of `validate` stands.  A connection in a phase is the one the
call holds. -/
inductive ValidatePhase where
  | entered
  | acquire
  | hgetall (connection : Connection)
  | reconnect
  | hgetallAgain (connection : Connection)
  | release (connection : Connection) (fields : List (String × String))
  | lookup
  | storeAcquire (record : ApiKeyRecord)
  | storeHmset (record : ApiKeyRecord) (connection : Connection)
  | storeExpire (record : ApiKeyRecord) (connection : Connection)
  | storeRelease (record : ApiKeyRecord) (connection : Connection)
  | done (outcome : Except ApiKeyError ApiKeyInfo)
  deriving DecidableEq

/-- What the outside world answers to one step: whether a new connection can be
opened, how the command goes, the text of the exception if there is one, what
the lookup does and what the system clock says. -/
structure Answer where
  connects : Bool := true
  fault : CommandFault := .healthy
  what : String := ""
  lookup : LookupOutcome := .ok none
  systemNow : Int := 0
  deriving DecidableEq

/-- The arguments of a call, and whether its validator has a lookup. -/
structure ValidateRequest where
  validator : Nat
  hasLookup : Bool := true
  rawKey : String
  deriving DecidableEq

/-- A call in progress.  The last three fields record, for stating results, when
the call started, what its own lookup did, and whether Redis has answered any of
its commands. -/
structure ValidateCall where
  request : ValidateRequest
  phase : ValidatePhase
  startedAt : Nat
  lookedUp : Option LookupOutcome := none
  redisAnswered : Bool := false
  deriving DecidableEq

/-- What all calls share: Redis, the idle connections of each validator, and the
record of all lookups by hash. -/
structure KeyService where
  redis : Redis
  idle : Nat → List Connection
  lookups : List (String × LookupOutcome)

/-- `acquire`: an idle connection, or a new one if that can be opened. -/
def KeyService.acquire (service : KeyService) (validator : Nat) (connects : Bool) :
    Option Connection × KeyService :=
  let taken := takeIdle (service.idle validator)
  (match taken.1 with
    | some connection => some connection
    | none => if connects then some {} else none,
    { service with idle := Function.update service.idle validator taken.2 })

/-- `release`. -/
def KeyService.release (service : KeyService) (validator : Nat) (connection : Connection) :
    KeyService :=
  { service with
    idle := Function.update service.idle validator
      (parkIdle connection (service.idle validator)) }

namespace ValidateCall

variable (sha256 : String → List UInt8)

/-- The hash a call works with. -/
def hash (call : ValidateCall) : String := hashKey sha256 call.request.rawKey

/-- The Redis key a call works with. -/
def rkey (call : ValidateCall) : String := redisKey (call.hash sha256)

def goTo (call : ValidateCall) (phase : ValidatePhase) : ValidateCall :=
  { call with phase }

def answered (call : ValidateCall) : ValidateCall :=
  { call with redisAnswered := true }

/-- The end of `validate`, with the record or the cached entry in hand. -/
def finish (call : ValidateCall) (info : ApiKeyInfo) : ValidateCall :=
  call.goTo (.done
    (if info.clientId = "" then .error (.validation "API key record missing client_id")
      else .ok info))

/-- `validate` after `from_cache` threw. -/
def cacheFailed (call : ValidateCall) (what : String) : ValidateCall :=
  if call.request.hasLookup then call.goTo .lookup
  else call.goTo (.done (.error
    (.backend ("Redis unavailable, cannot validate API key: " ++ what))))

/-- `validate` after `from_cache` returned. -/
def cacheAnswered (call : ValidateCall) (cached : Option ApiKeyInfo) : ValidateCall :=
  match cached with
  | some info => call.finish info
  | none =>
      if call.request.hasLookup then call.goTo .lookup
      else call.goTo (.done (.error (.validation "Unknown or revoked API key")))

/-- One step of `validate`. -/
def step (call : ValidateCall) (answer : Answer) (service : KeyService) :
    Option (ValidateCall × KeyService) :=
  match call.phase with
  | .entered =>
      if call.request.rawKey = "" then
        some (call.goTo (.done (.error (.validation "API key must not be empty"))), service)
      else some (call.goTo .acquire, service)
  | .acquire =>
      let acquired := service.acquire call.request.validator answer.connects
      match acquired.1 with
      | some connection => some (call.goTo (.hgetall connection), acquired.2)
      | none => some (call.cacheFailed answer.what, acquired.2)
  | .hgetall connection =>
      let sent := connection.send (RedisConnection.hgetall (call.rkey sha256))
        answer.fault service.redis
      match sent.1 with
      | some fields =>
          some (call.answered.goTo (.release sent.2.1 fields),
            { service with redis := sent.2.2 })
      | none =>
          if sent.2.1.connected then
            some (call.cacheFailed answer.what, { service with redis := sent.2.2 })
          else some (call.goTo .reconnect, { service with redis := sent.2.2 })
  | .reconnect =>
      if answer.connects then some (call.goTo (.hgetallAgain {}), service)
      else some (call.cacheFailed answer.what, service)
  | .hgetallAgain connection =>
      let sent := connection.send (RedisConnection.hgetall (call.rkey sha256))
        answer.fault service.redis
      match sent.1 with
      | some fields =>
          some (call.answered.goTo (.release sent.2.1 fields),
            { service with redis := sent.2.2 })
      | none => some (call.cacheFailed answer.what, { service with redis := sent.2.2 })
  | .release connection fields =>
      some (call.cacheAnswered (cachedInfo call.request.hasLookup fields),
        service.release call.request.validator connection)
  | .lookup =>
      let after := { service with
        lookups := service.lookups ++ [(call.hash sha256, answer.lookup)] }
      let call := { call with lookedUp := some answer.lookup }
      match answer.lookup with
      | .error error => some (call.goTo (.done (.error error)), after)
      | .ok none => some (call.goTo (.done (.error
          (.validation "Unknown, revoked or expired API key"))), after)
      | .ok (some record) => some (call.goTo (.storeAcquire record), after)
  | .storeAcquire record =>
      let acquired := service.acquire call.request.validator answer.connects
      match acquired.1 with
      | some connection => some (call.goTo (.storeHmset record connection), acquired.2)
      | none => some (call.finish record.info, acquired.2)
  | .storeHmset record connection =>
      let sent := connection.send
        (RedisConnection.hmset (call.rkey sha256) (storedFields record))
        answer.fault service.redis
      match sent.1 with
      | some () =>
          some (call.answered.goTo (.storeExpire record sent.2.1),
            { service with redis := sent.2.2 })
      | none => some (call.finish record.info, { service with redis := sent.2.2 })
  | .storeExpire record connection =>
      let sent := connection.send
        (RedisConnection.expire (call.rkey sha256) (cacheTtlFor record answer.systemNow))
        answer.fault service.redis
      match sent.1 with
      | some () =>
          some (call.answered.goTo (.storeRelease record sent.2.1),
            { service with redis := sent.2.2 })
      | none => some (call.finish record.info, { service with redis := sent.2.2 })
  | .storeRelease record connection =>
      some (call.finish record.info, service.release call.request.validator connection)
  | .done _ => none

end ValidateCall

/-! ## The system -/

/-- What happens to Redis besides the validators: time passes, and others write
or remove entries. -/
inductive RedisHappening where
  | tick (span : Nat)
  | write (key : String) (entry : Entry RedisValue)
  | remove (key : String)

def RedisHappening.apply (redis : Redis) : RedisHappening → Redis
  | .tick span => redis.advance span
  | .write key entry => redis.put key entry
  | .remove key => redis.erase key

/-- Every validator starts with the one connection its constructor tried out. -/
def KeyService.fresh : KeyService where
  redis := .empty
  idle := fun _ => [{}]
  lookups := []

/-- The calls of any number of validators that share one Redis. -/
def validation (sha256 : String → List UInt8) :
    Component KeyService ValidateRequest ValidateCall Answer RedisHappening where
  initial service := service = .fresh
  enter request service :=
    { request, phase := .entered, startedAt := service.redis.now }
  step call answer service := call.step sha256 answer service
  happen happening service :=
    some { service with redis := happening.apply service.redis }

abbrev ValidationState := Concurrent KeyService ValidateCall
abbrev ValidationEvent := ConcurrentEvent ValidateRequest Answer RedisHappening

/-! ## Keys -/

theorem nulFree_hashKey (sha256 : String → List UInt8) (rawKey : String) :
    NulFree (hashKey sha256 rawKey) := by
  simp only [NulFree, hashKey, String.toList_ofList, List.mem_flatMap, hexByte, not_exists,
    not_and, List.mem_cons, List.not_mem_nil, or_false, not_or]
  intro byte _
  exact ⟨(hexDigit_ne _ (byte_high_lt byte)).1.symm, (hexDigit_ne _ (byte_low_lt byte)).1.symm⟩

@[simp] theorem cString_rkey (sha256 : String → List UInt8) (call : ValidateCall) :
    cString (call.rkey sha256) = call.rkey sha256 := by
  apply cString_of_nulFree
  rw [ValidateCall.rkey, redisKey, nulFree_append]
  exact ⟨by decide, nulFree_hashKey sha256 _⟩

theorem redisKey_injective : Function.Injective redisKey := by
  intro left right equal
  apply String.toList_inj.mp
  have lists := congrArg String.toList equal
  simpa [redisKey, String.toList_append] using lists

/-- Entries are kept for a second at least and for `kCacheTtl` at most. -/
theorem cacheTtlFor_bounds (record : ApiKeyRecord) (systemNow : Int) :
    1 ≤ cacheTtlFor record systemNow ∧ cacheTtlFor record systemNow ≤ kCacheTtl := by
  unfold cacheTtlFor kCacheTtl
  cases record.expiresAt <;> simp only <;> omega

/-! ## What a step does -/

theorem connected_of_takeIdle {idle : List Connection} {connection : Connection}
    (taken : (takeIdle idle).1 = some connection) : connection.connected = true := by
  induction idle with
  | nil => cases taken
  | cons first rest ih =>
      simp only [takeIdle] at taken
      split at taken
      · rename_i connected
        cases taken
        exact connected
      · exact ih taken

theorem connected_of_acquire {service : KeyService} {validator : Nat} {connects : Bool}
    {connection : Connection}
    (acquired : (service.acquire validator connects).1 = some connection) :
    connection.connected = true := by
  simp only [KeyService.acquire] at acquired
  split at acquired
  · rename_i taken
    cases acquired
    exact connected_of_takeIdle taken
  · split at acquired
    · cases acquired
      rfl
    · cases acquired

@[simp] theorem acquire_redis (service : KeyService) (validator : Nat) (connects : Bool) :
    (service.acquire validator connects).2.redis = service.redis := rfl

@[simp] theorem acquire_lookups (service : KeyService) (validator : Nat) (connects : Bool) :
    (service.acquire validator connects).2.lookups = service.lookups := rfl

@[simp] theorem release_redis (service : KeyService) (validator : Nat)
    (connection : Connection) :
    (service.release validator connection).redis = service.redis := rfl

@[simp] theorem release_lookups (service : KeyService) (validator : Nat)
    (connection : Connection) :
    (service.release validator connection).lookups = service.lookups := rfl

/-- An answer means that the server ran the command and the connection is open. -/
theorem Connection.send_some {Reply : Type} {connection : Connection}
    {command : Command Reply} {fault : CommandFault} {redis : Redis} {reply : Reply}
    (answered : (connection.send command fault redis).1 = some reply) :
    connection.connected = true ∧ fault = .healthy ∧ (command redis).1 = some reply ∧
      (connection.send command fault redis).2 = ({}, (command redis).2) := by
  unfold Connection.send at answered ⊢
  split at answered
  · rename_i connected
    cases fault with
    | healthy => exact ⟨connected, rfl, answered, by simp [connected, CommandFault.fault,
        CommandFault.staysConnected]⟩
    | errorReply => cases answered
    | broken => cases answered
    | replyLost => cases answered
  · cases answered

/-- Without an answer the server either ran the command or did not see it. -/
theorem Connection.send_none {Reply : Type} {connection : Connection}
    {command : Command Reply} {fault : CommandFault} {redis : Redis}
    (failed : (connection.send command fault redis).1 = none) :
    (connection.send command fault redis).2.2 = redis ∨
      (connection.connected = true ∧ (fault = .replyLost ∨
          (fault = .healthy ∧ (command redis).1 = none)) ∧
        (connection.send command fault redis).2.2 = (command redis).2) := by
  unfold Connection.send at failed ⊢
  split at failed
  · rename_i connected
    cases fault with
    | healthy => exact Or.inr ⟨connected, Or.inr ⟨rfl, failed⟩, by simp [connected,
        CommandFault.fault]⟩
    | errorReply => exact Or.inl (by simp [connected, CommandFault.fault])
    | broken => exact Or.inl (by simp [connected, CommandFault.fault])
    | replyLost => exact Or.inr ⟨connected, Or.inl rfl, by simp [connected,
        CommandFault.fault, Command.issue]⟩
  · rename_i closed
    exact Or.inl (by simp [closed])

theorem hgetall_state (key : String) (redis : Redis) :
    (RedisConnection.hgetall key redis).2 = redis := by
  unfold RedisConnection.hgetall
  split
  · rfl
  · split <;> rfl

theorem hmset_state_of_none {key : String} {fields : List (String × String)} {redis : Redis}
    (failed : (RedisConnection.hmset key fields redis).1 = none) :
    (RedisConnection.hmset key fields redis).2 = redis := by
  unfold RedisConnection.hmset at failed ⊢
  split at failed
  · cases failed
  · split at failed
    · cases failed
    · rfl

theorem send_hgetall_state (connection : Connection) (key : String) (fault : CommandFault)
    (redis : Redis) :
    (connection.send (RedisConnection.hgetall key) fault redis).2.2 = redis := by
  cases reply : (connection.send (RedisConnection.hgetall key) fault redis).1 with
  | some fields =>
      obtain ⟨_, _, _, outcome⟩ := Connection.send_some reply
      rw [outcome, hgetall_state]
  | none =>
      rcases Connection.send_none reply with unseen | ⟨_, _, ran⟩
      · exact unseen
      · rw [ran, hgetall_state]

/-! ## Entries that come from Postgres -/

/-- Some field of the hash reads as `src` with the value `pg`. -/
def CarriesPg (entry : Entry RedisValue) : Prop :=
  ∃ fields, entry.value = .hash fields ∧ ∃ field ∈ fields,
    cString field.1 = kSourceField ∧ cString field.2 = kSourcePostgres

theorem CarriesPg.of_value {entry other : Entry RedisValue} (carries : CarriesPg entry)
    (same : entry.value = other.value) : CarriesPg other := by
  obtain ⟨fields, valueEq, marked⟩ := carries
  exact ⟨fields, same.symm.trans valueEq, marked⟩

/-- A validator with a lookup uses only entries that carry `src=pg`. -/
theorem carriesPg_of_cachedInfo {sha256 : String → List UInt8} {call : ValidateCall}
    {redis : Redis} {fields : List (String × String)} {info : ApiKeyInfo}
    (reply : (RedisConnection.hgetall (call.rkey sha256) redis).1 = some fields)
    (cached : cachedInfo true fields = some info) :
    ∃ entry stored, redis.lookup (call.rkey sha256) = some entry ∧
      entry.value = .hash stored ∧
      stored.map (fun field => (cString field.1, cString field.2)) = fields ∧
      CarriesPg entry := by
  unfold RedisConnection.hgetall at reply
  rw [cString_rkey] at reply
  split at reply
  · cases reply
    simp [cachedInfo] at cached
  · rename_i entry found
    split at reply
    · rename_i stored valueEq
      rw [Option.some.injEq] at reply
      refine ⟨entry, stored, found, valueEq, reply, stored, valueEq, ?_⟩
      simp only [cachedInfo, Bool.true_and, decide_eq_true_eq] at cached
      split_ifs at cached with isEmpty unmarked
      rw [not_not, ← reply, RedisConnection.findField, Option.map_eq_some_iff] at unmarked
      obtain ⟨copy, foundCopy, value⟩ := unmarked
      have name := List.find?_some foundCopy
      rw [beq_iff_eq] at name
      obtain ⟨field, member, rfl⟩ :=
        List.mem_map.mp (List.mem_reverse.mp (List.mem_of_find?_eq_some foundCopy))
      exact ⟨field, member, name, value⟩
    · cases reply

namespace ValidateCall

variable {sha256 : String → List UInt8}
variable {call next : ValidateCall} {answer : Answer} {service after : KeyService}

@[simp] theorem goTo_phase (phase : ValidatePhase) : (call.goTo phase).phase = phase := rfl

@[simp] theorem goTo_request (phase : ValidatePhase) :
    (call.goTo phase).request = call.request := rfl

@[simp] theorem finish_request (info : ApiKeyInfo) :
    (call.finish info).request = call.request := rfl

@[simp] theorem answered_request : call.answered.request = call.request := rfl

@[simp] theorem cacheFailed_request (what : String) :
    (call.cacheFailed what).request = call.request := by
  unfold cacheFailed
  split <;> rfl

@[simp] theorem cacheFailed_startedAt (what : String) :
    (call.cacheFailed what).startedAt = call.startedAt := by
  unfold cacheFailed
  split <;> rfl

@[simp] theorem cacheAnswered_request (cached : Option ApiKeyInfo) :
    (call.cacheAnswered cached).request = call.request := by
  unfold cacheAnswered
  split
  · rfl
  · split <;> rfl

@[simp] theorem cacheAnswered_startedAt (cached : Option ApiKeyInfo) :
    (call.cacheAnswered cached).startedAt = call.startedAt := by
  unfold cacheAnswered
  split
  · rfl
  · split <;> rfl

/-- What one step of `validate` does. -/
inductive Step (sha256 : String → List UInt8) (call : ValidateCall) (answer : Answer)
    (service : KeyService) : ValidateCall → KeyService → Prop where
  | refused (phaseEq : call.phase = .entered) (empty : call.request.rawKey = "") :
      Step sha256 call answer service
        (call.goTo (.done (.error (.validation "API key must not be empty")))) service
  | began (phaseEq : call.phase = .entered) :
      Step sha256 call answer service (call.goTo .acquire) service
  | acquired {connection : Connection} (phaseEq : call.phase = .acquire) :
      Step sha256 call answer service (call.goTo (.hgetall connection))
        (service.acquire call.request.validator answer.connects).2
  /-- `from_cache` throws. -/
  | cacheLost {after : KeyService}
      (phaseEq : call.phase = .acquire ∨ call.phase = .reconnect ∨ ∃ connection,
        call.phase = .hgetall connection ∨ call.phase = .hgetallAgain connection)
      (sameRedis : after.redis = service.redis) :
      Step sha256 call answer service (call.cacheFailed answer.what) after
  | replied {connection : Connection} {fields : List (String × String)}
      (phaseEq : call.phase = .hgetall connection ∨ call.phase = .hgetallAgain connection)
      (reply : (RedisConnection.hgetall (call.rkey sha256) service.redis).1 = some fields) :
      Step sha256 call answer service (call.answered.goTo (.release {} fields)) service
  | dropped {connection : Connection} (phaseEq : call.phase = .hgetall connection) :
      Step sha256 call answer service (call.goTo .reconnect) service
  | reconnected (phaseEq : call.phase = .reconnect) :
      Step sha256 call answer service (call.goTo (.hgetallAgain {})) service
  | released {connection : Connection} {fields : List (String × String)}
      (phaseEq : call.phase = .release connection fields) :
      Step sha256 call answer service
        (call.cacheAnswered (cachedInfo call.request.hasLookup fields))
        (service.release call.request.validator connection)
  | notFound {error : ApiKeyError} (phaseEq : call.phase = .lookup)
      (looked : answer.lookup = .error error ∨ answer.lookup = .ok none ∧
        error = .validation "Unknown, revoked or expired API key") :
      Step sha256 call answer service
        ({ call with lookedUp := some answer.lookup }.goTo (.done (.error error)))
        { service with lookups := service.lookups ++ [(call.hash sha256, answer.lookup)] }
  | found {record : ApiKeyRecord} (phaseEq : call.phase = .lookup)
      (looked : answer.lookup = .ok (some record)) :
      Step sha256 call answer service
        ({ call with lookedUp := some answer.lookup }.goTo (.storeAcquire record))
        { service with lookups := service.lookups ++ [(call.hash sha256, answer.lookup)] }
  | storing {record : ApiKeyRecord} {connection : Connection}
      (phaseEq : call.phase = .storeAcquire record) (opened : connection.connected = true) :
      Step sha256 call answer service (call.goTo (.storeHmset record connection))
        (service.acquire call.request.validator answer.connects).2
  | stored {record : ApiKeyRecord} {connection : Connection}
      (phaseEq : call.phase = .storeHmset record connection)
      (healthy : answer.fault = .healthy) :
      Step sha256 call answer service (call.answered.goTo (.storeExpire record {}))
        { service with
          redis := (RedisConnection.hmset (call.rkey sha256) (storedFields record)
            service.redis).2 }
  | expires {record : ApiKeyRecord} {connection : Connection}
      (phaseEq : call.phase = .storeExpire record connection) :
      Step sha256 call answer service (call.answered.goTo (.storeRelease record {}))
        { service with
          redis := RedisConnection.expireKey (call.rkey sha256)
            (cacheTtlFor record answer.systemNow) service.redis }
  /-- `store_in_cache` is over, or swallows an exception. -/
  | finished {record : ApiKeyRecord} {after : KeyService}
      (phaseEq : call.phase = .storeAcquire record ∨ ∃ connection,
        call.phase = .storeHmset record connection ∨
        call.phase = .storeExpire record connection ∨
        call.phase = .storeRelease record connection)
      (sameRedis : after.redis = service.redis) (sameLookups : after.lookups = service.lookups) :
      Step sha256 call answer service (call.finish record.info) after
  | storeLost {record : ApiKeyRecord} {connection : Connection}
      (phaseEq : call.phase = .storeHmset record connection)
      (lost : answer.fault = .replyLost) :
      Step sha256 call answer service (call.finish record.info)
        { service with
          redis := (RedisConnection.hmset (call.rkey sha256) (storedFields record)
            service.redis).2 }
  | expiryLost {record : ApiKeyRecord} {connection : Connection}
      (phaseEq : call.phase = .storeExpire record connection) :
      Step sha256 call answer service (call.finish record.info)
        { service with
          redis := RedisConnection.expireKey (call.rkey sha256)
            (cacheTtlFor record answer.systemNow) service.redis }

theorem Step.of_step (stepped : call.step sha256 answer service = some (next, after)) :
    Step sha256 call answer service next after := by
  unfold step at stepped
  cases phaseEq : call.phase <;> simp only [phaseEq] at stepped
  case entered =>
    split at stepped <;> cases stepped
    · rename_i empty
      exact .refused phaseEq empty
    · exact .began phaseEq
  case acquire =>
    split at stepped <;> cases stepped
    · exact .acquired phaseEq
    · exact .cacheLost (.inl phaseEq) rfl
  case hgetall connection =>
    split at stepped
    · rename_i fields answered
      obtain ⟨_, _, reply, outcome⟩ := Connection.send_some answered
      cases stepped
      rw [outcome, hgetall_state]
      exact .replied (.inl phaseEq) reply
    · split at stepped <;> cases stepped <;> rw [send_hgetall_state]
      · exact .cacheLost (.inr (.inr ⟨connection, .inl phaseEq⟩)) rfl
      · exact .dropped phaseEq
  case reconnect =>
    split at stepped <;> cases stepped
    · exact .reconnected phaseEq
    · exact .cacheLost (.inr (.inl phaseEq)) rfl
  case hgetallAgain connection =>
    split at stepped
    · rename_i fields answered
      obtain ⟨_, _, reply, outcome⟩ := Connection.send_some answered
      cases stepped
      rw [outcome, hgetall_state]
      exact .replied (.inr phaseEq) reply
    · cases stepped
      rw [send_hgetall_state]
      exact .cacheLost (.inr (.inr ⟨connection, .inr phaseEq⟩)) rfl
  case release connection fields =>
    cases stepped
    exact .released phaseEq
  case lookup =>
    split at stepped <;> cases stepped
    · rename_i looked
      exact .notFound phaseEq (.inl looked)
    · rename_i looked
      exact .notFound phaseEq (.inr ⟨looked, rfl⟩)
    · rename_i looked
      exact .found phaseEq looked
  case storeAcquire record =>
    split at stepped <;> cases stepped
    · rename_i taken
      exact .storing phaseEq (connected_of_acquire taken)
    · exact .finished (.inl phaseEq) rfl rfl
  case storeHmset record connection =>
    split at stepped
    · rename_i answered
      obtain ⟨_, healthy, _, outcome⟩ := Connection.send_some answered
      cases stepped
      rw [outcome]
      exact .stored phaseEq healthy
    · rename_i failed
      cases stepped
      have unchanged := @Step.finished sha256 call answer service record { service with
        redis := service.redis } (.inr ⟨connection, .inl phaseEq⟩) rfl rfl
      rcases Connection.send_none failed with unseen | ⟨_, lost | ⟨_, rejected⟩, ran⟩
      · rw [unseen]
        exact unchanged
      · rw [ran]
        exact .storeLost phaseEq lost
      · rw [ran, hmset_state_of_none rejected]
        exact unchanged
  case storeExpire record connection =>
    split at stepped
    · rename_i answered
      obtain ⟨_, _, _, outcome⟩ := Connection.send_some answered
      cases stepped
      simp only [outcome, RedisConnection.expire, cString_rkey]
      exact .expires phaseEq
    · rename_i failed
      cases stepped
      rcases Connection.send_none failed with unseen | ⟨_, _, ran⟩
      · rw [unseen]
        exact .finished (.inr ⟨connection, .inr (.inl phaseEq)⟩) rfl rfl
      · simp only [ran, RedisConnection.expire, cString_rkey]
        exact .expiryLost phaseEq
  case storeRelease record connection =>
    cases stepped
    exact .finished (.inr ⟨connection, .inr (.inr phaseEq)⟩) rfl rfl
  case done => cases stepped

/-- A step keeps the arguments of the call and the time it started. -/
theorem step_keeps (stepped : call.step sha256 answer service = some (next, after)) :
    next.request = call.request ∧ next.startedAt = call.startedAt := by
  unfold step at stepped
  cases phaseEq : call.phase <;> simp only [phaseEq] at stepped <;>
    (repeat' split at stepped) <;> cases stepped <;>
    exact ⟨by simp, by first | rfl | simp⟩

/-- Lookups are recorded in order and never forgotten. -/
theorem step_lookups (stepped : call.step sha256 answer service = some (next, after)) :
    (call.phase ≠ .lookup ∧ after.lookups = service.lookups) ∨
      (call.phase = .lookup ∧
        after.lookups = service.lookups ++ [(call.hash sha256, answer.lookup)]) := by
  unfold step at stepped
  cases phaseEq : call.phase <;> simp only [phaseEq] at stepped <;>
    (repeat' split at stepped) <;> cases stepped <;> simp

/-- A step changes Redis only by the `HMSET` and the `EXPIRE` of a store.  After
the `HMSET` the `EXPIRE` is next, unless its reply got lost. -/
theorem step_redis (stepped : call.step sha256 answer service = some (next, after)) :
    after.redis = service.redis ∨
      (∃ record connection, call.phase = .storeHmset record connection ∧
        after.redis = (RedisConnection.hmset (call.rkey sha256) (storedFields record)
          service.redis).2 ∧
        ((answer.fault = .healthy ∧ ∃ opened, next.phase = .storeExpire record opened) ∨
          answer.fault = .replyLost)) ∨
      (∃ record connection, call.phase = .storeExpire record connection ∧
        after.redis = RedisConnection.expireKey (call.rkey sha256)
          (cacheTtlFor record answer.systemNow) service.redis) := by
  cases Step.of_step stepped with
  | @stored record connection phaseEq healthy =>
      exact Or.inr (Or.inl ⟨record, connection, phaseEq, rfl, Or.inl ⟨healthy, _, rfl⟩⟩)
  | @storeLost record connection phaseEq lost =>
      exact Or.inr (Or.inl ⟨record, connection, phaseEq, rfl, Or.inr lost⟩)
  | @expires record connection phaseEq | @expiryLost record connection phaseEq =>
      exact Or.inr (Or.inr ⟨record, connection, phaseEq, rfl⟩)
  | cacheLost _ sameRedis | finished _ sameRedis => exact Or.inl sameRedis
  | _ => exact Or.inl rfl

@[simp] theorem cacheFailed_phase_ne_storeExpire (what : String) (record : ApiKeyRecord)
    (connection : Connection) :
    (call.cacheFailed what).phase ≠ .storeExpire record connection := by
  unfold cacheFailed
  split <;> simp

@[simp] theorem cacheAnswered_phase_ne_storeExpire (cached : Option ApiKeyInfo)
    (record : ApiKeyRecord) (connection : Connection) :
    (call.cacheAnswered cached).phase ≠ .storeExpire record connection := by
  unfold cacheAnswered
  split
  · simp [finish]
  · split <;> simp

/-- An `EXPIRE` is ahead only after the `HMSET` was answered. -/
theorem storeHmset_of_storeExpire {record : ApiKeyRecord} {opened : Connection}
    (stepped : call.step sha256 answer service = some (next, after))
    (ahead : next.phase = .storeExpire record opened) :
    (∃ connection, call.phase = .storeHmset record connection) ∧ answer.fault = .healthy := by
  cases Step.of_step stepped with
  | @stored stored connection phaseEq healthy =>
      cases ahead
      exact ⟨⟨connection, phaseEq⟩, healthy⟩
  | _ => simp [finish] at ahead

/-- The `EXPIRE` of a store takes effect when the server runs it. -/
theorem step_storeExpire {record : ApiKeyRecord} {connection : Connection}
    (phaseEq : call.phase = .storeExpire record connection)
    (connected : connection.connected = true)
    (ran : answer.fault = .healthy ∨ answer.fault = .replyLost)
    (stepped : call.step sha256 answer service = some (next, after)) :
    after.redis = RedisConnection.expireKey (call.rkey sha256)
      (cacheTtlFor record answer.systemNow) service.redis := by
  simp only [step, phaseEq] at stepped
  rcases ran with healthy | lost
  · simp only [Connection.send, connected, healthy, if_true, CommandFault.fault,
      Command.issue_healthy, RedisConnection.expire, cString_rkey] at stepped
    cases stepped
    rfl
  · simp only [Connection.send, connected, lost, if_true, CommandFault.fault,
      Command.issue, RedisConnection.expire, cString_rkey] at stepped
    cases stepped
    rfl

/-- An `EXPIRE` that is refused changes nothing. -/
theorem step_storeExpire_refused {record : ApiKeyRecord} {connection : Connection}
    (phaseEq : call.phase = .storeExpire record connection)
    (refused : answer.fault = .errorReply ∨ answer.fault = .broken)
    (stepped : call.step sha256 answer service = some (next, after)) :
    after.redis = service.redis := by
  simp only [step, phaseEq] at stepped
  rcases refused with errorReply | broken
  · simp only [Connection.send, errorReply, CommandFault.fault, Command.issue_refused] at stepped
    split at stepped <;> cases stepped <;> split <;> rfl
  · simp only [Connection.send, broken, CommandFault.fault, Command.issue_refused] at stepped
    split at stepped <;> cases stepped <;> split <;> rfl

end ValidateCall

end Corvus.Auth
