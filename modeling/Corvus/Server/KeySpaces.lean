import Corvus.Auth.ApiKeyValidator
import Corvus.Db.KeySpaces
import Corvus.Resources.CacheContent

/-!
# Who uses which keys

API keys and cached resources are kept under different prefixes.  So the
validators work on the part of Redis that holds API keys as if there were nothing
else, the resource service on the part with the cached resources, and neither
changes the part of the other.
-/

namespace Corvus.Server

open Corvus.Auth Corvus.Db Corvus.Resources

/-- The keys of the validators. -/
def apiKeySpace : String → Bool :=
  startsWithAny ["corvus:apikeys:"]

/-- The keys of the resource service. -/
def cacheSpace : String → Bool :=
  startsWithAny ["corvus:resource:", "corvus:ver:resource:"]

/-! ## Keys -/

@[simp] theorem apiKeySpace_redisKey (hash : String) : apiKeySpace (redisKey hash) = true :=
  startsWithAny_append (by simp) hash

@[simp] theorem cacheSpace_redisKey (hash : String) : cacheSpace (redisKey hash) = false :=
  startsWithAny_append_of_not (by decide) hash

theorem verKey_eq (clientId id : String) :
    verKey clientId id = "corvus:ver:resource:" ++ (clientId ++ ":" ++ id) := by
  apply String.toList_inj.mp
  simp [verKey, cacheKey, cacheConfig, CacheConfig.versionKey, String.toList_append]

@[simp] theorem cacheSpace_dataKey (clientId id : String) :
    cacheSpace (dataKey clientId id) = true := by
  rw [dataKey_eq]
  exact startsWithAny_append (by simp) _

@[simp] theorem cacheSpace_verKey (clientId id : String) :
    cacheSpace (verKey clientId id) = true := by
  rw [verKey_eq]
  exact startsWithAny_append (by simp) _

@[simp] theorem cacheSpace_cString_dataKey (clientId id : String) :
    cacheSpace (cString (dataKey clientId id)) = true := by
  rw [cString_dataKey]
  exact startsWithAny_append (by simp) _

@[simp] theorem cacheSpace_cString_verKey (clientId id : String) :
    cacheSpace (cString (verKey clientId id)) = true := by
  have fixed : NulFree "corvus:ver:resource:" := by decide
  rw [verKey_eq, cString_append_of_nulFree fixed]
  exact startsWithAny_append (by simp) _

@[simp] theorem apiKeySpace_dataKey (clientId id : String) :
    apiKeySpace (dataKey clientId id) = false := by
  rw [dataKey_eq]
  exact startsWithAny_append_of_not (by decide) _

@[simp] theorem apiKeySpace_verKey (clientId id : String) :
    apiKeySpace (verKey clientId id) = false := by
  rw [verKey_eq]
  exact startsWithAny_append_of_not (by decide) _

/-! ## The validators -/

/-- What the validators share, with the API keys as the only entries of Redis. -/
def apiKeysOf (service : KeyService) : KeyService :=
  { service with redis := service.redis.within apiKeySpace }

theorem Connection.send_within {Reply : Type} {keep : String → Bool} {command : Command Reply}
    (isLocal : LocalTo keep command) (connection : Connection) (fault : CommandFault)
    (redis : Redis) :
    connection.send command fault (redis.within keep) =
      ((connection.send command fault redis).1, (connection.send command fault redis).2.1,
        (connection.send command fault redis).2.2.within keep) := by
  unfold Connection.send
  split
  · simp only [Command.localTo_issue isLocal fault.fault redis]
  · rfl

section Validation

variable {sha256 : String → List UInt8} {call next : ValidateCall} {answer : Answer}
  {service after : KeyService}

/-- A step of a validation works on the API keys alone. -/
theorem validate_step_within :
    call.step sha256 answer (apiKeysOf service) =
      (call.step sha256 answer service).map fun moved => (moved.1, apiKeysOf moved.2) := by
  have kept : apiKeySpace (call.rkey sha256) = true := apiKeySpace_redisKey _
  have sent : apiKeySpace (cString (call.rkey sha256)) = true := by rw [cString_rkey, kept]
  have hgetall := fun connection => Connection.send_within (localTo_hgetall sent) connection
    answer.fault service.redis
  unfold ValidateCall.step
  cases phaseEq : call.phase with
  | entered =>
      simp only
      split <;> rfl
  | acquire =>
      simp only [KeyService.acquire, apiKeysOf]
      cases taken : (takeIdle (service.idle call.request.validator)).1 with
      | some connection => rfl
      | none => cases answer.connects <;> rfl
  | hgetall connection =>
      simp only [apiKeysOf, hgetall connection]
      split
      · rfl
      · split <;> rfl
  | reconnect =>
      simp only
      split <;> rfl
  | hgetallAgain connection =>
      simp only [apiKeysOf, hgetall connection]
      split <;> rfl
  | release connection fields => rfl
  | lookup =>
      simp only [apiKeysOf]
      cases answer.lookup with
      | error error => rfl
      | ok found => cases found <;> rfl
  | storeAcquire record =>
      simp only [KeyService.acquire, apiKeysOf]
      cases taken : (takeIdle (service.idle call.request.validator)).1 with
      | some connection => rfl
      | none => cases answer.connects <;> rfl
  | storeHmset record connection =>
      simp only [apiKeysOf, Connection.send_within (localTo_hmset kept (storedFields record))]
      split <;> rfl
  | storeExpire record connection =>
      simp only [apiKeysOf, Connection.send_within
        (localTo_expire sent (cacheTtlFor record answer.systemNow))]
      split <;> rfl
  | storeRelease record connection => rfl
  | done outcome => rfl

/-- A step of a validation leaves the cached resources alone. -/
theorem validate_step_spares (stepped : call.step sha256 answer service = some (next, after)) :
    after.redis.within cacheSpace = service.redis.within cacheSpace := by
  have notKept : cacheSpace (call.rkey sha256) = false := cacheSpace_redisKey _
  rcases ValidateCall.step_redis stepped with
    same | ⟨record, connection, _, stored, _⟩ | ⟨record, connection, _, expired⟩
  · rw [same]
  · rw [stored]
    exact within_hmset_of_not notKept _ _
  · rw [expired]
    exact within_expireKey_of_not notKept _ _

end Validation

/-! ## The resource service -/

section Resources

variable {platform : Platform} {store after : Store platform}
  {call next : Resources.Call platform} {choice : Choice}

/-- Redis and Postgres, with the cached resources as the only entries of Redis. -/
def cachedOf (store : Store platform) : Store platform :=
  { store with redis := store.redis.within cacheSpace }

theorem get_step_within (clientId id : String) :
    call.getStep clientId id choice (cachedOf store) =
      (call.getStep clientId id choice store).map fun moved => (moved.1, cachedOf moved.2) := by
  have readData := Command.localTo_issue
    (localTo_get (cacheSpace_cString_dataKey clientId id)) choice.redis store.redis
  have existsData := Command.localTo_issue
    (localTo_exists (cacheSpace_cString_dataKey clientId id)) choice.redis store.redis
  have readVersion := Command.localTo_issue
    (localTo_get (cacheSpace_cString_verKey clientId id)) choice.redis store.redis
  have put := fun expected value => Command.localTo_issue
    (localTo_kPutIfVersion (cacheSpace_dataKey clientId id) (cacheSpace_verKey clientId id)
      expected value (cacheConfig.effectiveTtl kResourceCacheTtlSeconds)) choice.redis store.redis
  unfold Call.getStep
  cases phaseEq : call.phase with
  | cacheGet =>
      simp only [cachedOf, CacheAside.getValue]
      rw [show cacheConfig.makeKey (cacheKey clientId id) = dataKey clientId id from rfl, readData]
      generalize (RedisConnection.get (dataKey clientId id)).issue choice.redis store.redis = sent
      obtain ⟨_ | value, redis⟩ := sent
      · rfl
      · simp only
        split <;> rfl
  | cacheExists =>
      simp only [cachedOf, CacheAside.getExists]
      rw [show cacheConfig.makeKey (cacheKey clientId id) = dataKey clientId id from rfl,
        existsData]
      generalize
        (RedisConnection.exists (dataKey clientId id)).issue choice.redis store.redis = sent
      obtain ⟨_ | count, redis⟩ := sent
      · rfl
      · simp only
        split <;> rfl
  | readVersion =>
      simp only [cachedOf, CacheAside.version]
      rw [show cacheConfig.versionKey (cacheKey clientId id) = verKey clientId id from rfl,
        readVersion]
      rfl
  | selectRow version =>
      simp only [cachedOf]
      split <;> rfl
  | putIfVersion version found =>
      simp only [cachedOf, CacheAside.putIfVersion]
      rw [show cacheConfig.makeKey (cacheKey clientId id) = dataKey clientId id from rfl,
        show cacheConfig.versionKey (cacheKey clientId id) = verKey clientId id from rfl, put]
      rfl
  | _ => rfl

theorem invalidate_within (clientId id : String) (outcome : Outcome) (commit : Nat) :
    call.invalidate clientId id outcome commit choice (cachedOf store) =
      ((call.invalidate clientId id outcome commit choice store).1,
        cachedOf (call.invalidate clientId id outcome commit choice store).2) := by
  have evict := Command.localTo_issue
    (@localTo_kInvalidateVersioned cacheSpace (dataKey clientId id) _
      (cacheSpace_verKey clientId id) cacheConfig.versionTtlSeconds) choice.redis store.redis
  simp only [Call.invalidate, cachedOf, CacheAside.invalidateVersioned]
  rw [show cacheConfig.makeKey (cacheKey clientId id) = dataKey clientId id from rfl,
    show cacheConfig.versionKey (cacheKey clientId id) = verKey clientId id from rfl, evict]

theorem cachedOf_commit {Found : Type} (executed : Executed platform Found) (result : Outcome) :
    (cachedOf store).commit executed result = cachedOf (store.commit executed result) := by
  unfold Store.commit
  split <;> rfl

/-- A step of the service works on the cached resources alone. -/
theorem service_step_within :
    call.step choice (cachedOf store) =
      (call.step choice store).map fun moved => (moved.1, cachedOf moved.2) := by
  unfold Call.step
  cases requestEq : call.request with
  | create clientId request =>
      simp only [Call.createStep]
      split
      · rw [cachedOf_commit]
        rfl
      · rfl
  | get clientId id => exact get_step_within clientId id
  | list clientId filter =>
      simp only [Call.listStep]
      split
      · simp only [cachedOf]
        split <;> rfl
      · rfl
  | update clientId id request =>
      simp only [Call.updateStep]
      split
      · rw [cachedOf_commit]
        simp only [cachedOf]
        split <;> rfl
      · rw [invalidate_within]
        rfl
      · rfl
  | remove clientId id =>
      simp only [Call.removeStep]
      split
      · rw [cachedOf_commit]
        simp only [cachedOf]
        split <;> rfl
      · rw [invalidate_within]
        rfl
      · rfl

/-- A step of the service leaves the API keys alone. -/
theorem service_step_spares (stepped : call.step choice store = some (next, after)) :
    after.redis.within apiKeySpace = store.redis.within apiKeySpace := by
  cases ServiceStep.of_step stepped with
  | @cached clientId id version found =>
      exact Command.spares_issue (spares_kPutIfVersion (apiKeySpace_dataKey clientId id) version
        (platform.dump (toJson found)) (cacheConfig.effectiveTtl kResourceCacheTtlSeconds))
        choice.redis store.redis
  | @invalidated clientId id =>
      exact Command.spares_issue (spares_kInvalidateVersioned (apiKeySpace_dataKey clientId id)
        (apiKeySpace_verKey clientId id) cacheConfig.versionTtlSeconds) choice.redis store.redis
  | _ => rfl

end Resources

end Corvus.Server
