import Corvus.Footprint
import Corvus.Db.CacheAside

/-!
# The Redis keys of the cache

Half of the operations print their key into a command, which ends it at its first
NUL, and the scripts get theirs with explicit lengths.  The version keys lie in the
namespace of the data keys.  Nothing here looks at any other character, so a key of
arbitrary bytes is covered as the string of the characters with their numbers.
-/

namespace Corvus.Db

open CacheAside RedisConnection

/-- The operations of `CacheAside` on a key. -/
inductive CacheOperation where
  | get
  | «exists»
  | put (value : String) (ttlSeconds : Int)
  | invalidate
  | version
  | putIfVersion (expectedVersion value : String) (ttlSeconds : Int)
  | invalidateVersioned

inductive CacheReply where
  | value (found : Option String)
  | flag (success : Bool)
  | version (token : Option String)
  deriving DecidableEq

namespace CacheOperation

/-- An operation on a healthy connection. -/
def run (config : CacheConfig) (key : String) : CacheOperation → Redis → CacheReply × Redis
  | .get, redis =>
      match (getValue config key redis).1 with
      | none => (.value none, redis)
      | some value =>
          if value = "" then
            match (getExists config key redis).1 with
            | none => (.value none, redis)
            | some count => (.value (if count = 0 then none else some value), redis)
          else (.value (some value), redis)
  | .exists, redis => (.flag ((getExists config key redis).1 == some 1), redis)
  | .put value ttlSeconds, redis =>
      (.flag true, (CacheAside.put config key value ttlSeconds redis).2)
  | .invalidate, redis => (.flag true, (CacheAside.invalidate config key redis).2)
  | .version, redis =>
      let read := CacheAside.version config key .healthy redis
      (.version read.1, read.2)
  | .putIfVersion expectedVersion value ttlSeconds, redis =>
      let outcome := CacheAside.putIfVersion config key expectedVersion value ttlSeconds
        .healthy redis
      (.flag outcome.1, outcome.2)
  | .invalidateVersioned, redis =>
      let outcome := CacheAside.invalidateVersioned config key .healthy redis
      (.flag outcome.1, outcome.2)

/-- The key of the value an operation reads, stores or removes. -/
def dataKey (config : CacheConfig) (key : String) : CacheOperation → Option String
  | .get => some (cString (config.makeKey key))
  | .exists => some (cString (config.makeKey key))
  | .put _ _ => some (cString (config.makeKey key))
  | .invalidate => some (cString (config.makeKey key))
  | .version => none
  | .putIfVersion _ _ _ => some (config.makeKey key)
  | .invalidateVersioned => some (config.makeKey key)

/-- The key of the version an operation reads, compares or increments. -/
def versionKey (config : CacheConfig) (key : String) : CacheOperation → Option String
  | .version => some (cString (config.versionKey key))
  | .putIfVersion _ _ _ => some (config.versionKey key)
  | .invalidateVersioned => some (config.versionKey key)
  | _ => none

/-- All keys of an operation. -/
def keys (config : CacheConfig) (key : String) (operation : CacheOperation) : Set String :=
  { name | operation.dataKey config key = some name ∨
    operation.versionKey config key = some name }

variable {config : CacheConfig} {key name second : String} {operation : CacheOperation}

theorem keys_of_data (isData : operation.dataKey config key = some name)
    (noVersion : operation.versionKey config key = none) :
    operation.keys config key = {name} := by
  ext other
  simp [keys, isData, noVersion, eq_comm]

theorem keys_of_version (noData : operation.dataKey config key = none)
    (isVersion : operation.versionKey config key = some name) :
    operation.keys config key = {name} := by
  ext other
  simp [keys, noData, isVersion, eq_comm]

theorem keys_of_both (isData : operation.dataKey config key = some name)
    (isVersion : operation.versionKey config key = some second) :
    operation.keys config key = {name, second} := by
  ext other
  simp [keys, isData, isVersion, eq_comm]

end CacheOperation

/-- The operations on a key agree on its data key and on its version key. -/
structure PathsAgree (config : CacheConfig) (key : String) : Prop where
  data : ∀ (left right : CacheOperation), ∀ name ∈ left.dataKey config key,
    ∀ other ∈ right.dataKey config key, name = other
  version : ∀ (left right : CacheOperation), ∀ name ∈ left.versionKey config key,
    ∀ other ∈ right.versionKey config key, name = other

/-- No operation on the one key touches a Redis key that one on the other touches. -/
def KeysApart (config : CacheConfig) (left right : String) : Prop :=
  ∀ (operation other : CacheOperation), ∀ name ∈ operation.keys config left,
    name ∉ other.keys config right

/-! ## What each operation touches -/

theorem makeKey_ne_versionKey (config : CacheConfig) {left right : String}
    (different : left ≠ "ver:" ++ right) : config.makeKey left ≠ config.versionKey right := by
  intro same
  rw [CacheConfig.versionKey, String.append_assoc] at same
  exact different (config.makeKey_injective same)

theorem ne_ver_append (key : String) : key ≠ "ver:" ++ key := by
  intro same
  have lengths := congrArg String.length same
  rw [String.length_append] at lengths
  exact absurd lengths (by simp)

section Touching

variable {config : CacheConfig} {key : String}

/-- A string stored for good. -/
def stored (text : String) : Entry RedisValue where
  value := .string text
  expireAt := none

/-- The store that holds one entry. -/
def holding (name : String) (entry : Entry RedisValue) : Redis :=
  (ExpiringStore.empty : Redis).put name entry

theorem lookup_holding (name text : String) :
    (holding name (stored text)).lookup name = some (stored text) :=
  ExpiringStore.lookup_put_self rfl

theorem lookup_holding_of_ne {name other : String} {entry : Entry RedisValue}
    (different : other ≠ name) : (holding name entry).lookup other = none := by
  rw [holding, ExpiringStore.lookup_put_of_ne different, ExpiringStore.lookup_empty]

/-- What follows from the store by one lookup touches the key looked up, if the reply
tells the empty store from one with some text. -/
theorem touches_of_lookup {run : Redis → CacheReply × Redis} {name text : String}
    (answer : Option (Entry RedisValue) → CacheReply)
    (runs : ∀ redis, run redis = (answer (redis.lookup name), redis))
    (tells : answer none ≠ answer (some (stored text))) : Touches run {name} where
  frame := by
    intro redis other _
    rw [runs]
  determined := by
    intro left right same
    rw [runs, runs, same name rfl]
  needed := by
    intro other member
    rw [Set.mem_singleton_iff.mp member]
    right
    refine ⟨ExpiringStore.empty, holding name (stored text), fun other different => ?_, ?_⟩
    · rw [lookup_holding_of_ne different, ExpiringStore.lookup_empty]
    · rw [runs, runs, lookup_holding, ExpiringStore.lookup_empty]
      exact tells

/-- With nothing in between, the two commands of `get` find out what is there. -/
theorem run_get (redis : Redis) : CacheOperation.run config key .get redis =
    (.value ((redis.lookup (cString (config.makeKey key))).bind fun entry =>
      textOf entry.value), redis) := by
  simp only [CacheOperation.run, getValue, getExists, RedisConnection.get,
    RedisConnection.exists]
  cases found : redis.lookup (cString (config.makeKey key)) with
  | none => rfl
  | some entry =>
      cases textEq : textOf entry.value with
      | none => simp only [textEq, Option.bind_some]
      | some text =>
          by_cases isEmpty : text = ""
          · simp [textEq, isEmpty]
          · simp [textEq, isEmpty]

theorem touches_get : Touches (CacheOperation.run config key .get)
    {cString (config.makeKey key)} := by
  apply @touches_of_lookup _ _ "text" (fun found =>
    .value (found.bind fun entry => textOf entry.value)) run_get
  decide

theorem touches_exists : Touches (CacheOperation.run config key .exists)
    {cString (config.makeKey key)} := by
  apply @touches_of_lookup _ _ "text" (fun found => .flag found.isSome)
  · intro redis
    simp only [CacheOperation.run, getExists, RedisConnection.exists]
    cases redis.lookup (cString (config.makeKey key)) with
    | none => rfl
    | some entry => rfl
  · decide

theorem touches_version : Touches (CacheOperation.run config key .version)
    {cString (config.versionKey key)} := by
  apply @touches_of_lookup _ _ "text" (fun found =>
    .version (found.elim (some "0") fun entry =>
      (textOf entry.value).map fun text => if text = "" then "0" else text))
  · intro redis
    simp only [CacheOperation.run, CacheAside.version, Command.issue_healthy, RedisConnection.get]
    cases redis.lookup (cString (config.versionKey key)) with
    | none => rfl
    | some entry => rfl
  · decide

theorem touches_put (value : String) (ttlSeconds : Int) :
    Touches (CacheOperation.run config key (.put value ttlSeconds))
      {cString (config.makeKey key)} where
  frame := by
    intro redis other notKey
    exact ExpiringStore.lookup_put_of_ne notKey
  determined := fun _ _ _ => rfl
  needed := by
    intro other member
    rw [Set.mem_singleton_iff.mp member]
    left
    refine ⟨ExpiringStore.empty, ?_⟩
    rw [ExpiringStore.lookup_empty]
    have visible : ∃ entry : Entry RedisValue,
        (CacheOperation.run config key (.put value ttlSeconds) ExpiringStore.empty).2.lookup
          (cString (config.makeKey key)) = some entry := by
      refine ⟨_, ExpiringStore.lookup_put_self ?_⟩
      split
      · simp [Entry.visibleAt, deadline]
      · rfl
    obtain ⟨entry, found⟩ := visible
    rw [found]
    exact Option.some_ne_none entry

theorem touches_invalidate : Touches (CacheOperation.run config key .invalidate)
    {cString (config.makeKey key)} where
  frame := by
    intro redis other notKey
    simp only [CacheOperation.run, CacheAside.invalidate, del]
    split
    · rfl
    · exact ExpiringStore.lookup_erase_of_ne notKey
  determined := fun _ _ _ => rfl
  needed := by
    intro other member
    rw [Set.mem_singleton_iff.mp member]
    left
    refine ⟨holding (cString (config.makeKey key)) (stored "text"), ?_⟩
    simp only [CacheOperation.run, CacheAside.invalidate, del, lookup_holding,
      ExpiringStore.lookup_erase_self]
    exact (Option.some_ne_none _).symm

/-- What the script finds under the version key decides whether it stores. -/
theorem putIfVersion_flag (expected value : String) (ttlSeconds : Int) (redis : Redis) :
    (putIfVersion config key expected value ttlSeconds .healthy redis).1 =
      (currentVersion (config.versionKey key) redis == some expected) := by
  rcases kPutIfVersion_cases (config.makeKey key) (config.versionKey key) expected value
    (config.effectiveTtl ttlSeconds) redis with ⟨same, stored⟩ | ⟨other, refused | failed⟩
  · simp [putIfVersion, stored, same]
  · simp [putIfVersion, refused, other]
  · simp [putIfVersion, failed, other]

theorem currentVersion_holding (name text : String) :
    currentVersion name (holding name (stored text)) = some text := by
  rw [currentVersion, lookup_holding]
  rfl

theorem touches_putIfVersion (expected value : String) (ttlSeconds : Int) :
    Touches (CacheOperation.run config key (.putIfVersion expected value ttlSeconds))
      {config.makeKey key, config.versionKey key} where
  frame := by
    intro redis other notKey
    apply lookup_other_of_put
    exact fun same => notKey (.inl same)
  determined := by
    intro left right same
    simp only [CacheOperation.run, putIfVersion_flag, currentVersion,
      same (config.versionKey key) (.inr rfl)]
  needed := by
    have different : config.makeKey key ≠ config.versionKey key :=
      makeKey_ne_versionKey config (ne_ver_append key)
    rintro other (isData | isVersion)
    · rw [isData]
      left
      -- The version is there, so that the value is stored.
      refine ⟨holding (config.versionKey key) (stored expected), ?_⟩
      rw [lookup_holding_of_ne different]
      rcases kPutIfVersion_cases (config.makeKey key) (config.versionKey key) expected value
          (config.effectiveTtl ttlSeconds) (holding (config.versionKey key) (stored expected))
        with ⟨_, done⟩ | ⟨other, _⟩
      · simp only [CacheOperation.run, putIfVersion, Command.issue_healthy, done, storeValue]
        rw [ExpiringStore.lookup_put_self]
        · exact Option.some_ne_none _
        · split
          · simp [Entry.visibleAt, deadline]
          · rfl
      · exact absurd (currentVersion_holding _ expected) other
    · rw [isVersion]
      right
      refine ⟨holding (config.versionKey key) (stored expected),
        holding (config.versionKey key) (stored (expected ++ "0")),
        fun other different => ?_, ?_⟩
      · rw [lookup_holding_of_ne different, lookup_holding_of_ne different]
      · simp only [CacheOperation.run, putIfVersion_flag, currentVersion_holding]
        have longer : expected ++ "0" ≠ expected := by
          intro same
          have lengths := congrArg String.length same
          rw [String.length_append] at lengths
          exact absurd lengths (by simp)
        simp [longer]

theorem invalidateVersioned_flag (redis : Redis) :
    (invalidateVersioned config key .healthy redis).1 =
      (incr (config.versionKey key) redis).isSome := by
  simp only [invalidateVersioned, Command.issue_healthy, kInvalidateVersioned]
  cases incr (config.versionKey key) redis with
  | none => rfl
  | some counted => rfl

theorem touches_invalidateVersioned :
    Touches (CacheOperation.run config key .invalidateVersioned)
      {config.makeKey key, config.versionKey key} where
  frame := by
    intro redis other notKey
    apply lookup_other_of_invalidated
    · exact fun same => notKey (.inl same)
    · exact fun same => notKey (.inr same)
  determined := by
    intro left right same
    have found := same (config.versionKey key) (.inr rfl)
    simp only [CacheOperation.run, invalidateVersioned_flag, incr, found]
    cases right.lookup (config.versionKey key) with
    | none => rfl
    | some entry =>
        dsimp only
        cases integer? entry.value with
        | none => rfl
        | some count =>
            dsimp only
            split
            · rfl
            · rfl
  needed := by
    have different : config.makeKey key ≠ config.versionKey key :=
      makeKey_ne_versionKey config (ne_ver_append key)
    rintro other (isData | isVersion)
    · rw [isData]
      left
      refine ⟨holding (config.makeKey key) (stored "text"), ?_⟩
      rw [lookup_holding]
      have absent : incr (config.versionKey key) (holding (config.makeKey key) (stored "text")) ≠
          none := by
        rw [incr, lookup_holding_of_ne different.symm]
        exact Option.some_ne_none _
      obtain ⟨counted, incremented⟩ := Option.ne_none_iff_exists'.mp absent
      simp only [CacheOperation.run, invalidateVersioned, Command.issue_healthy,
        kInvalidateVersioned, incremented, ExpiringStore.lookup_erase_self]
      exact (Option.some_ne_none _).symm
    · rw [isVersion]
      right
      -- A hash cannot be incremented.
      refine ⟨ExpiringStore.empty,
        holding (config.versionKey key) { value := .hash [], expireAt := none },
        fun other different => ?_, ?_⟩
      · rw [lookup_holding_of_ne different, ExpiringStore.lookup_empty]
      · have found : (holding (config.versionKey key)
            { value := .hash [], expireAt := none }).lookup (config.versionKey key) =
              some { value := .hash [], expireAt := none } :=
          ExpiringStore.lookup_put_self rfl
        simp only [CacheOperation.run, invalidateVersioned_flag, incr, found,
          ExpiringStore.lookup_empty, integer?]
        intro same
        cases same

/-- The keys of an operation are those it touches. -/
theorem touches_keys (config : CacheConfig) (key : String) (operation : CacheOperation) :
    Touches (operation.run config key) (operation.keys config key) := by
  cases operation with
  | get =>
      rw [CacheOperation.keys_of_data rfl rfl]
      exact touches_get
  | «exists» =>
      rw [CacheOperation.keys_of_data rfl rfl]
      exact touches_exists
  | put value ttlSeconds =>
      rw [CacheOperation.keys_of_data rfl rfl]
      exact touches_put value ttlSeconds
  | invalidate =>
      rw [CacheOperation.keys_of_data rfl rfl]
      exact touches_invalidate
  | version =>
      rw [CacheOperation.keys_of_version rfl rfl]
      exact touches_version
  | putIfVersion expected value ttlSeconds =>
      rw [CacheOperation.keys_of_both rfl rfl]
      exact touches_putIfVersion expected value ttlSeconds
  | invalidateVersioned =>
      rw [CacheOperation.keys_of_both rfl rfl]
      exact touches_invalidateVersioned

end Touching

/-! ## Which keys the operations share -/

theorem nulFree_of_pathsAgree {config : CacheConfig} {key : String}
    (agree : PathsAgree config key) : NulFree config.keyPrefix ∧ NulFree key := by
  have same := agree.data .get .invalidateVersioned _ rfl _ rfl
  exact nulFree_append.mp (cString_eq_self.mp same)

theorem pathsAgree_of_nulFree {config : CacheConfig} {key : String}
    (prefixFree : NulFree config.keyPrefix) (nulFree : NulFree key) :
    PathsAgree config key := by
  have data : cString (config.makeKey key) = config.makeKey key :=
    cString_of_nulFree (nulFree_append.mpr ⟨prefixFree, nulFree⟩)
  have colon : NulFree "ver:" := by decide
  have version : cString (config.versionKey key) = config.versionKey key :=
    cString_of_nulFree (nulFree_append.mpr ⟨nulFree_append.mpr ⟨prefixFree, colon⟩, nulFree⟩)
  have dataOf : ∀ operation : CacheOperation, ∀ name ∈ operation.dataKey config key,
      name = config.makeKey key := by
    intro operation name isName
    cases operation <;> simp_all [CacheOperation.dataKey]
  have versionOf : ∀ operation : CacheOperation, ∀ name ∈ operation.versionKey config key,
      name = config.versionKey key := by
    intro operation name isName
    cases operation <;> simp_all [CacheOperation.versionKey]
  constructor
  · intro left right name isName other isOther
    rw [dataOf left name isName, dataOf right other isOther]
  · intro left right name isName other isOther
    rw [versionOf left name isName, versionOf right other isOther]

/-- Where the paths agree, an operation touches the data key or the version key. -/
theorem mem_keys {config : CacheConfig} {key name : String} {operation : CacheOperation}
    (agree : PathsAgree config key) (touched : name ∈ operation.keys config key) :
    name = config.makeKey key ∨ name = config.versionKey key := by
  rcases touched with isData | isVersion
  · left
    exact agree.data operation .invalidateVersioned name isData _ rfl
  · right
    exact agree.version operation .invalidateVersioned name isVersion _ rfl

/-- There is no NUL in two keys, and neither is the name of the other's version. -/
def Separate (config : CacheConfig) (left right : String) : Prop :=
  NulFree config.keyPrefix ∧ NulFree left ∧ NulFree right ∧
    left ≠ "ver:" ++ right ∧ right ≠ "ver:" ++ left

theorem separate_of_keysApart {config : CacheConfig} {left right : String}
    (leftAgrees : PathsAgree config left) (rightAgrees : PathsAgree config right)
    (apart : left ≠ right → KeysApart config left right) : Separate config left right := by
  obtain ⟨prefixFree, leftFree⟩ := nulFree_of_pathsAgree leftAgrees
  refine ⟨prefixFree, leftFree, (nulFree_of_pathsAgree rightAgrees).2, ?_, ?_⟩
  · rintro rfl
    apply apart (ne_ver_append right).symm .invalidateVersioned .invalidateVersioned
      (config.makeKey ("ver:" ++ right)) (.inl rfl)
    right
    rw [CacheConfig.makeKey, ← String.append_assoc]
    rfl
  · rintro rfl
    apply apart (ne_ver_append left) .invalidateVersioned .invalidateVersioned
      (config.versionKey left) (.inr rfl)
    left
    rw [CacheConfig.versionKey, String.append_assoc]
    rfl

theorem Separate.keysApart {config : CacheConfig} {left right : String}
    (separate : Separate config left right) (different : left ≠ right) :
    KeysApart config left right := by
  obtain ⟨prefixFree, leftFree, rightFree, leftNot, rightNot⟩ := separate
  have leftAgrees := pathsAgree_of_nulFree prefixFree leftFree
  have rightAgrees := pathsAgree_of_nulFree prefixFree rightFree
  intro operation other name touched also
  rcases mem_keys leftAgrees touched with rfl | rfl
  · rcases mem_keys rightAgrees also with same | same
    · exact different (config.makeKey_injective same)
    · exact makeKey_ne_versionKey config leftNot same
  · rcases mem_keys rightAgrees also with same | same
    · exact makeKey_ne_versionKey config rightNot same.symm
    · exact different (config.versionKey_injective same)

/-! ## Where a value that is read comes from -/

/-- An operation of some client of the cache, or the passing of time. -/
inductive CacheMove where
  | call (key : String) (operation : CacheOperation)
  | pass (span : Nat)

def CacheMove.apply (config : CacheConfig) (redis : Redis) : CacheMove → Redis
  | .call key operation => (operation.run config key redis).2
  | .pass span => redis.advance span

/-- An operation that stores a value. -/
def CacheOperation.Stores (value : String) : CacheOperation → Prop
  | .put stored _ => stored = value
  | .putIfVersion _ stored _ => stored = value
  | _ => False

/-- What is under the data key after an operation was there, or has been stored by it. -/
theorem lookup_of_run {config : CacheConfig} {key : String} {redis : Redis}
    {operation : CacheOperation} {entry : Entry RedisValue}
    (nulFree : cString (config.makeKey key) = config.makeKey key)
    (found : (operation.run config key redis).2.lookup (config.makeKey key) = some entry) :
    redis.lookup (config.makeKey key) = some entry ∨
      ∃ value, entry.value = .string value ∧ operation.Stores value := by
  have isRead : ∀ reading : CacheOperation, (reading.run config key redis).2 = redis →
      operation = reading → redis.lookup (config.makeKey key) = some entry := by
    rintro _ same rfl
    rwa [same] at found
  cases operation with
  | get =>
      refine .inl (isRead .get ?_ rfl)
      rw [run_get]
  | «exists» => exact .inl (isRead .exists rfl rfl)
  | version =>
      refine .inl (isRead .version ?_ rfl)
      simp only [CacheOperation.run, CacheAside.version, Command.issue_healthy,
        RedisConnection.get]
      split
      · rfl
      · rfl
  | put value ttlSeconds =>
      right
      simp only [CacheOperation.run, CacheAside.put, RedisConnection.set, nulFree] at found
      rw [ExpiringStore.eq_of_lookup_put_self found]
      exact ⟨value, rfl, rfl⟩
  | invalidate =>
      simp only [CacheOperation.run, CacheAside.invalidate, del, nulFree] at found
      split at found
      · exact .inl found
      · rw [ExpiringStore.lookup_erase_self] at found
        cases found
  | putIfVersion expected value ttlSeconds =>
      simp only [CacheOperation.run, putIfVersion, Command.issue_healthy] at found
      rcases kPutIfVersion_cases (config.makeKey key) (config.versionKey key) expected value
          (config.effectiveTtl ttlSeconds) redis with ⟨_, done⟩ | ⟨_, refused | failed⟩
      · right
        rw [done] at found
        rw [ExpiringStore.eq_of_lookup_put_self found]
        exact ⟨value, rfl, rfl⟩
      · rw [refused] at found
        exact .inl found
      · rw [failed] at found
        exact .inl found
  | invalidateVersioned =>
      simp only [CacheOperation.run, invalidateVersioned, Command.issue_healthy,
        kInvalidateVersioned] at found
      split at found
      · exact .inl found
      · rw [ExpiringStore.lookup_erase_self] at found
        cases found

/-- What is under the data key of a key has been stored by an operation on this key. -/
theorem value_of_moves {config : CacheConfig} {key : String} {entry : Entry RedisValue}
    (moves : List CacheMove)
    (separate : ∀ other operation, .call other operation ∈ moves → Separate config key other)
    (found : (moves.foldl (CacheMove.apply config) ExpiringStore.empty).lookup
      (config.makeKey key) = some entry) :
    ∃ value operation, entry.value = .string value ∧ operation.Stores value ∧
      .call key operation ∈ moves := by
  induction moves using List.reverseRecOn generalizing entry with
  | nil => cases found
  | append_singleton earlier last ih =>
      have before : ∀ {entry : Entry RedisValue},
          (earlier.foldl (CacheMove.apply config) ExpiringStore.empty).lookup
              (config.makeKey key) = some entry →
            ∃ value operation, entry.value = .string value ∧ operation.Stores value ∧
              .call key operation ∈ earlier ++ [last] := by
        intro entry found
        obtain ⟨value, operation, isValue, stores, member⟩ := ih
          (fun other operation member =>
            separate other operation (List.mem_append_left _ member)) found
        exact ⟨value, operation, isValue, stores, List.mem_append_left _ member⟩
      rw [List.foldl_append] at found
      cases last with
      | pass span => exact before (ExpiringStore.lookup_of_lookup_advance found)
      | call other operation =>
          have apart := separate other operation
            (List.mem_append_right _ List.mem_cons_self)
          by_cases same : other = key
          · subst same
            have data : cString (config.makeKey other) = config.makeKey other :=
              cString_of_nulFree (nulFree_append.mpr ⟨apart.1, apart.2.1⟩)
            rcases lookup_of_run data found with kept | ⟨value, isValue, stores⟩
            · exact before kept
            · exact ⟨value, operation, isValue, stores,
                List.mem_append_right _ List.mem_cons_self⟩
          · have untouched : config.makeKey key ∉ operation.keys config other :=
              apart.keysApart (Ne.symm same) .invalidateVersioned operation
                (config.makeKey key) (.inl rfl)
            rw [List.foldl_cons, List.foldl_nil, CacheMove.apply,
              (touches_keys config other operation).frame _ _ untouched] at found
            exact before found

/-- All operations address the same Redis keys for one key, and different ones for
different keys, exactly when the keys are separate; then a value that is read was stored
under the very key. -/
theorem addresses_iff (config : CacheConfig) (left right : String) :
    (∀ (key : String) (operation : CacheOperation),
        Touches (operation.run config key) (operation.keys config key)) ∧
      ((PathsAgree config left ∧ PathsAgree config right ∧
          (left ≠ right → KeysApart config left right)) ↔ Separate config left right) ∧
      ∀ (moves : List CacheMove) (value : String),
        NulFree (config.makeKey left) →
        (∀ other operation, .call other operation ∈ moves → Separate config left other) →
        (CacheOperation.run config left .get
          (moves.foldl (CacheMove.apply config) ExpiringStore.empty)).1 =
            .value (some value) →
        ∃ operation : CacheOperation,
          operation.Stores value ∧ .call left operation ∈ moves := by
  refine ⟨touches_keys config, ⟨?_, ?_⟩, fun moves value nulFree separate read => ?_⟩
  · rintro ⟨leftAgrees, rightAgrees, apart⟩
    exact separate_of_keysApart leftAgrees rightAgrees apart
  · intro separate
    exact ⟨pathsAgree_of_nulFree separate.1 separate.2.1,
      pathsAgree_of_nulFree separate.1 separate.2.2.1, separate.keysApart⟩
  · rw [run_get, cString_of_nulFree nulFree] at read
    obtain ⟨entry, found, textEq⟩ := Option.bind_eq_some_iff.mp (CacheReply.value.inj read)
    obtain ⟨text, operation, isText, stores, member⟩ := value_of_moves moves separate found
    rw [isText] at textEq
    cases textEq
    exact ⟨operation, stores, member⟩

/-- Two resources of a client. -/
theorem addresses_iff_resources :
    PathsAgree {} "resource:a:b" ∧ KeysApart {} "resource:a:b" "resource:a:c" := by
  have separate : Separate {} "resource:a:b" "resource:a:c" := by
    refine ⟨?_, ?_, ?_, ?_, ?_⟩ <;> decide
  have addressed := (addresses_iff {} "resource:a:b" "resource:a:c").2.1.mpr separate
  exact ⟨addressed.1, addressed.2.2 (by decide)⟩

/-- The paths agree for every key, and no two keys meet. -/
def KeysAreAddressed : Prop :=
  ∀ (config : CacheConfig) (left right : String),
    PathsAgree config left ∧ PathsAgree config right ∧
      (left ≠ right → KeysApart config left right)

/-- A key as a `client_id` with a NUL makes it. -/
theorem not_keysAreAddressed : ¬KeysAreAddressed := by
  intro addressed
  have nulFree := (nulFree_of_pathsAgree (addressed {} "resource:a\x00b:c" "resource:a:c").1).2
  exact absurd nulFree (by decide)

end Corvus.Db
