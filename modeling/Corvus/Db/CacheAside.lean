import Corvus.Db.Redis

/-!
# The versioned cache-aside layer

`CacheAside` keeps serialised values under data keys.  Every data key has a
version key beside it, a counter that writers increment when they evict the
value.  A reader remembers the counter before it consults the database and
stores the value only while the counter still reads the same.

Each function here is one command or one script, so that callers can interleave
them; `CacheAside::get` is split into its `GET` and the `EXISTS` that follows an
empty reply.
-/

namespace Corvus.Db

/-- `CacheConfig` with the defaults of the source. -/
structure CacheConfig where
  defaultTtlSeconds : Int := 300
  keyPrefix : String := "corvus:"
  versionTtlSeconds : Int := 600

namespace CacheConfig

def makeKey (config : CacheConfig) (key : String) : String :=
  config.keyPrefix ++ key

def versionKey (config : CacheConfig) (key : String) : String :=
  config.keyPrefix ++ "ver:" ++ key

def effectiveTtl (config : CacheConfig) (ttlSeconds : Int) : Int :=
  if ttlSeconds < 0 then config.defaultTtlSeconds else ttlSeconds

theorem makeKey_injective (config : CacheConfig) :
    Function.Injective config.makeKey := by
  intro left right equal
  apply String.toList_inj.mp
  have lists := congrArg String.toList equal
  simpa [makeKey, String.toList_append] using lists

theorem versionKey_injective (config : CacheConfig) :
    Function.Injective config.versionKey := by
  intro left right equal
  apply String.toList_inj.mp
  have lists := congrArg String.toList equal
  simpa [versionKey, String.toList_append] using lists

end CacheConfig

namespace CacheAside

open RedisConnection

/-- What a script reads of the version key: `redis.call('GET', …) or '0'`.
`none` is the wrong-type error that aborts the script. -/
def currentVersion (verKey : String) (redis : Redis) : Option String :=
  match redis.lookup verKey with
  | none => some "0"
  | some entry => textOf entry.value

/-- The script `kPutIfVersion`. -/
def kPutIfVersion (dataKey verKey expected value : String) (ttl : Int) :
    Command Int := fun redis =>
  match currentVersion verKey redis with
  | none => (none, redis)
  | some current =>
      if current ≠ expected then (some 0, redis)
      else if 0 < ttl then
        (some 1, redis.put dataKey
          { value := .string value, expireAt := some (deadline redis.now ttl) })
      else (some 1, redis.put dataKey { value := .string value, expireAt := none })

/-- The script `kInvalidateVersioned`.  An error of `INCR`, its first command,
aborts it before anything has changed. -/
def kInvalidateVersioned (dataKey verKey : String) (ttl : Int) : Command Int :=
  fun redis =>
    match incr verKey redis with
    | none => (none, redis)
    | some counted => (some 1, (expireKey verKey ttl counted).erase dataKey)

/-- The first command of `CacheAside::get`. -/
def getValue (config : CacheConfig) (key : String) : Command String :=
  RedisConnection.get (config.makeKey key)

/-- The second command of `CacheAside::get`, sent when the first reply is
empty. -/
def getExists (config : CacheConfig) (key : String) : Command Nat :=
  RedisConnection.exists (config.makeKey key)

/-- The command of `CacheAside::put`. -/
def put (config : CacheConfig) (key value : String) (ttlSeconds : Int) : Command Unit :=
  RedisConnection.set (config.makeKey key) value (config.effectiveTtl ttlSeconds)

/-- The command of `CacheAside::invalidate`. -/
def invalidate (config : CacheConfig) (key : String) : Command Nat :=
  RedisConnection.del (config.makeKey key)

/-- `CacheAside::version`: an absent counter reads as `"0"`, a failed read as no
version at all. -/
def version (config : CacheConfig) (key : String) (fault : Fault) (redis : Redis) :
    Option String × Redis :=
  let outcome := (RedisConnection.get (config.versionKey key)).issue fault redis
  (outcome.1.map fun text => if text = "" then "0" else text, outcome.2)

/-- `CacheAside::put_if_version`. -/
def putIfVersion (config : CacheConfig) (key expectedVersion value : String)
    (ttlSeconds : Int) (fault : Fault) (redis : Redis) : Bool × Redis :=
  let script := kPutIfVersion (config.makeKey key) (config.versionKey key)
    expectedVersion value (config.effectiveTtl ttlSeconds)
  let outcome := script.issue fault redis
  (match outcome.1 with
    | none => false
    | some reply => reply != 0, outcome.2)

/-- `CacheAside::invalidate_versioned`. -/
def invalidateVersioned (config : CacheConfig) (key : String) (fault : Fault)
    (redis : Redis) : Bool × Redis :=
  let script := kInvalidateVersioned (config.makeKey key) (config.versionKey key)
    config.versionTtlSeconds
  let outcome := script.issue fault redis
  (outcome.1.isSome, outcome.2)

/-! ## What the scripts do to a key -/

/-- The effect of storing a value with a time to live. -/
def storeValue (dataKey value : String) (ttl : Int) (redis : Redis) : Redis :=
  redis.put dataKey
    { value := .string value
      expireAt := if 0 < ttl then some (deadline redis.now ttl) else none }

/-- A put either finds the expected version and stores the value, or changes
nothing. -/
theorem kPutIfVersion_cases (dataKey verKey expected value : String) (ttl : Int)
    (redis : Redis) :
    (currentVersion verKey redis = some expected ∧
        kPutIfVersion dataKey verKey expected value ttl redis =
          (some 1, storeValue dataKey value ttl redis)) ∨
      (currentVersion verKey redis ≠ some expected ∧
        (kPutIfVersion dataKey verKey expected value ttl redis = (some 0, redis) ∨
          kPutIfVersion dataKey verKey expected value ttl redis = (none, redis))) := by
  cases versionEq : currentVersion verKey redis with
  | none =>
      right
      exact ⟨by simp, Or.inr (by simp [kPutIfVersion, versionEq])⟩
  | some current =>
      by_cases same : current = expected
      · left
        subst same
        refine ⟨rfl, ?_⟩
        by_cases positive : 0 < ttl <;>
          simp [kPutIfVersion, versionEq, storeValue, positive]
      · right
        refine ⟨by simpa using same, Or.inl ?_⟩
        simp [kPutIfVersion, versionEq, same]

/-- A successful invalidation incremented the counter it found, or started a new
one, before it removed the value. -/
theorem kInvalidateVersioned_ok {dataKey verKey : String} {ttl : Int} {redis : Redis}
    {reply : Int} (answered : (kInvalidateVersioned dataKey verKey ttl redis).1 = some reply) :
    ∃ counted, incr verKey redis = some counted ∧
      (kInvalidateVersioned dataKey verKey ttl redis).2 =
        (expireKey verKey ttl counted).erase dataKey := by
  cases countedEq : incr verKey redis with
  | none => simp [kInvalidateVersioned, countedEq] at answered
  | some counted => exact ⟨counted, rfl, by simp [kInvalidateVersioned, countedEq]⟩

/-- The number a counter key holds, reading an absent one as zero. -/
def countAt (verKey : String) (redis : Redis) : Option Int :=
  match redis.lookup verKey with
  | none => some 0
  | some entry => integer? entry.value

/-- What `INCR` leaves under the counter key. -/
theorem incr_ok {verKey : String} {redis counted : Redis}
    (incremented : incr verKey redis = some counted) :
    ∃ count entry, countAt verKey redis = some count ∧
      entry.value = .integer (count + 1) ∧ counted = redis.put verKey entry ∧
      entry.visibleAt redis.now = true := by
  unfold incr at incremented
  unfold countAt
  cases found : redis.lookup verKey with
  | none =>
      simp only [found, Option.some.injEq] at incremented
      exact ⟨0, _, rfl, rfl, incremented.symm, rfl⟩
  | some entry =>
      simp only [found] at incremented
      cases countEq : integer? entry.value with
      | none => simp [countEq] at incremented
      | some count =>
          simp only [countEq] at incremented
          split at incremented
          · cases incremented
            have visible := ExpiringStore.visibleAt_of_lookup found
            exact ⟨count, _, countEq, rfl, rfl, visible⟩
          · cases incremented

/-- After an invalidation with a positive time to live, the counter is one higher
than before and lives for that long. -/
theorem lookup_version_of_invalidated {dataKey verKey : String} {ttl : Int}
    {redis : Redis} {reply : Int} (positive : 0 < ttl) (different : verKey ≠ dataKey)
    (answered : (kInvalidateVersioned dataKey verKey ttl redis).1 = some reply) :
    ∃ count, countAt verKey redis = some count ∧
      (kInvalidateVersioned dataKey verKey ttl redis).2.lookup verKey =
        some { value := .integer (count + 1)
               expireAt := some (deadline redis.now ttl) } := by
  obtain ⟨counted, incremented, stateEq⟩ := kInvalidateVersioned_ok answered
  obtain ⟨count, entry, countEq, valueEq, rfl, visible⟩ := incr_ok incremented
  refine ⟨count, countEq, ?_⟩
  rw [stateEq, ExpiringStore.lookup_erase_of_ne different, expireKey,
    ExpiringStore.lookup_put_self visible]
  simp only [positive, if_true, ExpiringStore.now_put, valueEq]
  apply ExpiringStore.lookup_put_self
  simp [Entry.visibleAt, deadline]

/-- An invalidation leaves no value behind. -/
theorem lookup_data_of_invalidated {dataKey verKey : String} {ttl : Int}
    {redis : Redis} {reply : Int}
    (answered : (kInvalidateVersioned dataKey verKey ttl redis).1 = some reply) :
    (kInvalidateVersioned dataKey verKey ttl redis).2.lookup dataKey = none := by
  obtain ⟨counted, _, stateEq⟩ := kInvalidateVersioned_ok answered
  rw [stateEq, ExpiringStore.lookup_erase_self]

/-- An invalidation touches its two keys only. -/
theorem lookup_other_of_invalidated {dataKey verKey other : String} {ttl : Int}
    {redis : Redis} (notData : other ≠ dataKey) (notVersion : other ≠ verKey) :
    (kInvalidateVersioned dataKey verKey ttl redis).2.lookup other =
      redis.lookup other := by
  cases incremented : incr verKey redis with
  | none => simp [kInvalidateVersioned, incremented]
  | some counted =>
      obtain ⟨_, _, _, _, rfl, _⟩ := incr_ok incremented
      simp only [kInvalidateVersioned, incremented]
      rw [ExpiringStore.lookup_erase_of_ne notData, expireKey_lookup_of_ne notVersion,
        ExpiringStore.lookup_put_of_ne notVersion]

/-- A put touches its data key only. -/
theorem lookup_other_of_put {dataKey verKey expected value other : String} {ttl : Int}
    {redis : Redis} (notData : other ≠ dataKey) :
    (kPutIfVersion dataKey verKey expected value ttl redis).2.lookup other =
      redis.lookup other := by
  rcases kPutIfVersion_cases dataKey verKey expected value ttl redis with
    ⟨_, stored⟩ | ⟨_, refused | failed⟩
  · rw [stored]
    exact ExpiringStore.lookup_put_of_ne notData
  · rw [refused]
  · rw [failed]

@[simp] theorem kInvalidateVersioned_now (dataKey verKey : String) (ttl : Int)
    (redis : Redis) :
    (kInvalidateVersioned dataKey verKey ttl redis).2.now = redis.now := by
  cases incremented : incr verKey redis with
  | none => simp [kInvalidateVersioned, incremented]
  | some counted =>
      obtain ⟨_, _, _, _, rfl, _⟩ := incr_ok incremented
      simp [kInvalidateVersioned, incremented]

@[simp] theorem kPutIfVersion_now (dataKey verKey expected value : String) (ttl : Int)
    (redis : Redis) :
    (kPutIfVersion dataKey verKey expected value ttl redis).2.now = redis.now := by
  rcases kPutIfVersion_cases dataKey verKey expected value ttl redis with
    ⟨_, stored⟩ | ⟨_, refused | failed⟩
  · rw [stored]
    rfl
  · rw [refused]
  · rw [failed]

end CacheAside

end Corvus.Db
