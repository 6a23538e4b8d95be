import Corvus.Resources.Handler

/-!
# What Redis holds for the service

Data keys and version keys never meet, and a data key determines the client and
the id it was made of, because accepted ids have one length.  So whatever a call
writes under its own keys leaves the entries of the others alone, and what is
known of every stored value is kept by every step.
-/

namespace Corvus.Resources

open Corvus.Db RedisConnection CacheAside

/-! ## Ids that passed `is_uuid` -/

theorem length_of_isUuid {id : String} (accepted : isUuid id = true) : id.toList.length = 36 := by
  simp only [isUuid, Bool.and_eq_true, beq_iff_eq] at accepted
  exact accepted.1

/-- An accepted id holds hexadecimal digits and dashes only. -/
theorem isUuid_chars {id : String} (accepted : isUuid id = true) {char : Char}
    (member : char ∈ id.toList) : char = '-' ∨ (hexValue? char).isSome = true := by
  simp only [isUuid, Bool.and_eq_true, List.all_eq_true] at accepted
  obtain ⟨position, inRange, charEq⟩ := List.getElem_of_mem member
  have indexed : (char, position) ∈ id.toList.zipIdx := by
    rw [List.mem_zipIdx_iff_getElem?, List.getElem?_eq_getElem inRange, charEq]
  have checked := accepted.2 _ indexed
  split at checked
  · exact Or.inl (by simpa using checked)
  · exact Or.inr checked

theorem nulFree_of_isUuid {id : String} (accepted : isUuid id = true) : NulFree id := by
  intro member
  rcases isUuid_chars accepted member with isDash | isHex
  · cases isDash
  · revert isHex
    decide

/-! ## Keys -/

theorem cacheKey_injective {client other id otherId : String}
    (sameLength : id.toList.length = otherId.toList.length)
    (same : cacheKey client id = cacheKey other otherId) : client = other ∧ id = otherId := by
  have lists := congrArg String.toList same
  simp only [cacheKey, String.toList_append, List.append_assoc, List.append_cancel_left_eq]
    at lists
  rw [← List.append_assoc, ← List.append_assoc] at lists
  obtain ⟨clients, ids⟩ := List.append_inj' lists sameLength
  exact ⟨String.toList_inj.mp (List.append_cancel_right clients), String.toList_inj.mp ids⟩

theorem dataKey_injective {client other id otherId : String}
    (accepted : isUuid id = true) (otherAccepted : isUuid otherId = true)
    (same : dataKey client id = dataKey other otherId) : client = other ∧ id = otherId :=
  cacheKey_injective ((length_of_isUuid accepted).trans (length_of_isUuid otherAccepted).symm)
    (cacheConfig.makeKey_injective same)

theorem dataKey_ne_versionKey (client id key : String) :
    dataKey client id ≠ cacheConfig.versionKey key := by
  intro same
  have lists := congrArg String.toList same
  simp [dataKey, cacheKey, cacheConfig, CacheConfig.makeKey, CacheConfig.versionKey,
    String.toList_append] at lists

theorem nulFree_dataKey {client id : String} :
    NulFree (dataKey client id) ↔ NulFree client ∧ NulFree id := by
  have fixed : NulFree "resource:" ∧ NulFree ":" ∧ NulFree "corvus:" := by decide
  simp [dataKey, cacheKey, cacheConfig, CacheConfig.makeKey, fixed]

theorem nulFree_verKey {client id : String} :
    NulFree (verKey client id) ↔ NulFree client ∧ NulFree id := by
  have fixed : NulFree "resource:" ∧ NulFree ":" ∧ NulFree "corvus:ver:" := by decide
  simp [verKey, cacheKey, cacheConfig, CacheConfig.versionKey, fixed]

theorem dataKey_eq (client id : String) :
    dataKey client id = "corvus:resource:" ++ (client ++ ":" ++ id) := by
  apply String.toList_inj.mp
  simp [dataKey, cacheKey, cacheConfig, CacheConfig.makeKey, String.toList_append]

/-- The key a read sends begins like every data key. -/
theorem cString_dataKey (client id : String) :
    cString (dataKey client id) = "corvus:resource:" ++ cString (client ++ ":" ++ id) := by
  have fixed : NulFree "corvus:resource:" := by decide
  rw [dataKey_eq, cString_append_of_nulFree fixed]

/-- A read finds a value if its key, cut at a NUL, is that of the value. -/
theorem cString_dataKey_eq {client id owner ownerId : String}
    (same : cString (dataKey client id) = dataKey owner ownerId) :
    cString (client ++ ":" ++ id) = owner ++ ":" ++ ownerId := by
  rw [cString_dataKey, dataKey_eq] at same
  have lists := congrArg String.toList same
  rw [String.toList_append, String.toList_append] at lists
  exact String.toList_inj.mp (List.append_cancel_left lists)

theorem cString_dataKey_ne_versionKey (client id key : String) :
    cString (dataKey client id) ≠ cacheConfig.versionKey key := by
  rw [cString_dataKey]
  intro same
  have lists := congrArg String.toList same
  simp [cacheConfig, CacheConfig.versionKey, String.toList_append] at lists

/-! ## What the scripts do to Redis -/

/-- A put changes nothing, or finds the version it expects and stores the value. -/
theorem putIfVersion_redis (key expected value : String) (ttl : Int) (fault : Fault)
    (redis : Redis) :
    (putIfVersion cacheConfig key expected value ttl fault redis).2 = redis ∨
      (currentVersion (cacheConfig.versionKey key) redis = some expected ∧
        (putIfVersion cacheConfig key expected value ttl fault redis).2 =
          storeValue (cacheConfig.makeKey key) value (cacheConfig.effectiveTtl ttl) redis) := by
  simp only [putIfVersion]
  rcases Command.issue_snd (kPutIfVersion (cacheConfig.makeKey key) (cacheConfig.versionKey key)
    expected value (cacheConfig.effectiveTtl ttl)) fault redis with unsent | ran
  · exact Or.inl unsent
  · rw [ran]
    rcases kPutIfVersion_cases (cacheConfig.makeKey key) (cacheConfig.versionKey key) expected
      value (cacheConfig.effectiveTtl ttl) redis with
      ⟨matched, stored⟩ | ⟨_, refused | failed⟩
    · exact Or.inr ⟨matched, by rw [stored]⟩
    · exact Or.inl (by rw [refused])
    · exact Or.inl (by rw [failed])

/-- An invalidation changes nothing and fails, or counts and evicts. -/
theorem invalidateVersioned_redis (key : String) (fault : Fault) (redis : Redis) :
    ((invalidateVersioned cacheConfig key fault redis).1 = false ∧
        (invalidateVersioned cacheConfig key fault redis).2 = redis) ∨
      ∃ reply, (kInvalidateVersioned (cacheConfig.makeKey key) (cacheConfig.versionKey key)
          cacheConfig.versionTtlSeconds redis).1 = some reply ∧
        (invalidateVersioned cacheConfig key fault redis).2 =
          (kInvalidateVersioned (cacheConfig.makeKey key) (cacheConfig.versionKey key)
            cacheConfig.versionTtlSeconds redis).2 := by
  simp only [invalidateVersioned]
  cases answered : (kInvalidateVersioned (cacheConfig.makeKey key) (cacheConfig.versionKey key)
    cacheConfig.versionTtlSeconds redis).1 with
  | none =>
      left
      have unchanged : (kInvalidateVersioned (cacheConfig.makeKey key)
          (cacheConfig.versionKey key) cacheConfig.versionTtlSeconds redis).2 = redis := by
        unfold kInvalidateVersioned at answered ⊢
        split
        · rfl
        · rename_i counted incremented
          simp [incremented] at answered
      cases fault <;> simp [Command.issue, answered, unchanged]
  | some reply =>
      cases fault with
      | healthy => exact Or.inr ⟨reply, rfl, rfl⟩
      | refused => exact Or.inl ⟨rfl, rfl⟩
      | replyLost => exact Or.inr ⟨reply, rfl, rfl⟩

/-- What is there after an invalidation: the counter, one higher, and what was there
before under other keys. -/
theorem lookup_of_invalidated {key other : String} {redis : Redis} {reply : Int}
    {entry : Entry RedisValue}
    (answered : (kInvalidateVersioned (cacheConfig.makeKey key) (cacheConfig.versionKey key)
      cacheConfig.versionTtlSeconds redis).1 = some reply)
    (found : (kInvalidateVersioned (cacheConfig.makeKey key) (cacheConfig.versionKey key)
      cacheConfig.versionTtlSeconds redis).2.lookup other = some entry) :
    other ≠ cacheConfig.makeKey key ∧
      ((other ≠ cacheConfig.versionKey key ∧ redis.lookup other = some entry) ∨
        (other = cacheConfig.versionKey key ∧ ∃ count,
          countAt (cacheConfig.versionKey key) redis = some count ∧
            entry.value = .integer (count + 1))) := by
  have notData : other ≠ cacheConfig.makeKey key := by
    rintro rfl
    rw [lookup_data_of_invalidated answered] at found
    cases found
  refine ⟨notData, ?_⟩
  by_cases isVersion : other = cacheConfig.versionKey key
  · subst isVersion
    obtain ⟨count, countEq, lookedUp⟩ :=
      lookup_version_of_invalidated (by decide) notData answered
    rw [lookedUp] at found
    cases found
    exact Or.inr ⟨rfl, count, countEq, rfl⟩
  · rw [lookup_other_of_invalidated notData isVersion] at found
    exact Or.inl ⟨isVersion, found⟩

/-! ## Everything in Redis -/

/-- Every entry is a cached value with the given property, under the data key of a
client and an id, or a counter that has counted. -/
def CacheHolds (good : String → String → String → Prop) (redis : Redis) : Prop :=
  ∀ key entry, redis.lookup key = some entry →
    (∃ client id text, key = dataKey client id ∧ entry.value = .string text ∧
      good client id text) ∨
    ∃ counted count, key = cacheConfig.versionKey counted ∧ entry.value = .integer count ∧
      1 ≤ count

namespace CacheHolds

variable {good better : String → String → String → Prop} {redis : Redis}

theorem empty : CacheHolds good .empty := by
  intro key entry found
  cases found

theorem mono (holds : CacheHolds good redis)
    (weaken : ∀ client id text, good client id text → better client id text) :
    CacheHolds better redis := by
  intro key entry found
  rcases holds key entry found with ⟨client, id, text, keyEq, valueEq, isGood⟩ | counter
  · exact Or.inl ⟨client, id, text, keyEq, valueEq, weaken client id text isGood⟩
  · exact Or.inr counter

/-- What a read of a data key finds. -/
theorem text_of_read (holds : CacheHolds good redis) {client id : String}
    {entry : Entry RedisValue}
    (found : redis.lookup (cString (dataKey client id)) = some entry) :
    ∃ owner ownerId text, cString (dataKey client id) = dataKey owner ownerId ∧
      entry.value = .string text ∧ good owner ownerId text := by
  rcases holds _ entry found with ⟨owner, ownerId, text, keyEq, valueEq, isGood⟩ |
    ⟨counted, _, keyEq, _⟩
  · exact ⟨owner, ownerId, text, keyEq, valueEq, isGood⟩
  · exact (cString_dataKey_ne_versionKey _ _ _ keyEq).elim

/-- What is cached under a data key. -/
theorem text_of_lookup (holds : CacheHolds good redis) {client id : String}
    {entry : Entry RedisValue} (found : redis.lookup (dataKey client id) = some entry) :
    ∃ owner ownerId text, dataKey client id = dataKey owner ownerId ∧
      entry.value = .string text ∧ good owner ownerId text := by
  rcases holds _ entry found with ⟨owner, ownerId, text, keyEq, valueEq, isGood⟩ |
    ⟨counted, _, keyEq, _⟩
  · exact ⟨owner, ownerId, text, keyEq, valueEq, isGood⟩
  · exact (dataKey_ne_versionKey _ _ _ keyEq).elim

/-- A version key holds nothing, which counts as zero, or a positive counter. -/
theorem counter (holds : CacheHolds good redis) (key : String) :
    ∃ count, 0 ≤ count ∧ countAt (cacheConfig.versionKey key) redis = some count ∧
      currentVersion (cacheConfig.versionKey key) redis = some count.repr := by
  cases found : redis.lookup (cacheConfig.versionKey key) with
  | none =>
      refine ⟨0, by decide, ?_, ?_⟩
      · simp [countAt, found]
      · simp only [currentVersion, found]
        rfl
  | some entry =>
      rcases holds _ entry found with ⟨_, _, _, keyEq, _⟩ | ⟨_, count, _, valueEq, positive⟩
      · exact (dataKey_ne_versionKey _ _ _ keyEq.symm).elim
      · refine ⟨count, by omega, ?_, ?_⟩
        · simp [countAt, found, valueEq, integer?]
        · simp [currentVersion, found, valueEq, textOf]

/-- A put stores a good value under the keys of a client and an id. -/
theorem put (holds : CacheHolds good redis) {client id expected value : String} {ttl : Int}
    {fault : Fault}
    (isGood : currentVersion (verKey client id) redis = some expected → good client id value) :
    CacheHolds good
      (putIfVersion cacheConfig (cacheKey client id) expected value ttl fault redis).2 := by
  rcases putIfVersion_redis (cacheKey client id) expected value ttl fault redis with
    unchanged | ⟨matched, stored⟩
  · rw [unchanged]
    exact holds
  · rw [stored]
    intro key entry found
    by_cases same : key = dataKey client id
    · subst same
      obtain rfl := ExpiringStore.eq_of_lookup_put_self found
      exact Or.inl ⟨client, id, value, rfl, rfl, isGood matched⟩
    · rw [storeValue, ExpiringStore.lookup_put_of_ne
        (show key ≠ cacheConfig.makeKey (cacheKey client id) from same)] at found
      exact holds key entry found

/-- After an invalidation, what is cached was cached before under another key. -/
theorem invalidated (holds : CacheHolds good redis) {client id : String} {fault : Fault}
    (keeps : ∀ owner ownerId text,
      ((invalidateVersioned cacheConfig (cacheKey client id) fault redis).1 = true →
        dataKey owner ownerId ≠ dataKey client id) →
      (∃ entry, redis.lookup (dataKey owner ownerId) = some entry) →
      good owner ownerId text → better owner ownerId text) :
    CacheHolds better
      (invalidateVersioned cacheConfig (cacheKey client id) fault redis).2 := by
  intro key entry found
  have kept : ∀ (before : redis.lookup key = some entry)
      (evicted : (invalidateVersioned cacheConfig (cacheKey client id) fault redis).1 = true →
        key ≠ dataKey client id),
      (∃ owner ownerId text, key = dataKey owner ownerId ∧ entry.value = .string text ∧
        better owner ownerId text) ∨
      ∃ counted count, key = cacheConfig.versionKey counted ∧ entry.value = .integer count ∧
        1 ≤ count := by
    intro before evicted
    rcases holds key entry before with ⟨owner, ownerId, text, rfl, valueEq, isGood⟩ | counter
    · exact Or.inl ⟨owner, ownerId, text, rfl, valueEq,
        keeps owner ownerId text evicted ⟨entry, before⟩ isGood⟩
    · exact Or.inr counter
  rcases invalidateVersioned_redis (cacheKey client id) fault redis with
    ⟨failed, unchanged⟩ | ⟨reply, answered, ran⟩
  · rw [unchanged] at found
    exact kept found fun succeeded => by rw [failed] at succeeded; cases succeeded
  · rw [ran] at found
    obtain ⟨notData, ⟨_, before⟩ | ⟨isVersion, count, countEq, valueEq⟩⟩ :=
      lookup_of_invalidated answered found
    · exact kept before fun _ => notData
    · obtain ⟨counted, nonneg, countedEq, _⟩ := holds.counter (cacheKey client id)
      rw [countEq] at countedEq
      cases countedEq
      exact Or.inr ⟨cacheKey client id, count + 1, isVersion, valueEq, by omega⟩

/-- Time and evictions only take entries away. -/
theorem happen (holds : CacheHolds good redis) (happening : CacheHappening) :
    CacheHolds good (happening.apply redis) := by
  intro key entry found
  cases happening with
  | tick span => exact holds key entry (ExpiringStore.lookup_of_lookup_advance found)
  | evict evicted => exact holds key entry (ExpiringStore.lookup_of_lookup_erase found).2

end CacheHolds

end Corvus.Resources
