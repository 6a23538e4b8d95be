import Corvus.Db.CacheAside
import Corvus.Partition

/-!
# Key spaces of one Redis

Several parts of the program keep entries in one Redis, each under keys that begin
with prefixes of its own.  A command that is sent for keys of one key space works
on the entries of that key space alone, and those of the others stay as they are.
-/

namespace Corvus.Db

open RedisConnection CacheAside

/-- The keys that begin with one of the prefixes. -/
def startsWithAny (prefixes : List String) (key : String) : Bool :=
  prefixes.any fun start => start.toList.isPrefixOf key.toList

theorem startsWithAny_append {prefixes : List String} {start : String}
    (member : start ∈ prefixes) (rest : String) :
    startsWithAny prefixes (start ++ rest) = true := by
  rw [startsWithAny, List.any_eq_true]
  refine ⟨start, member, ?_⟩
  rw [List.isPrefixOf_iff_prefix, String.toList_append]
  exact List.prefix_append _ _

/-- A key with one prefix has no prefix that is incomparable with it. -/
theorem startsWithAny_append_of_not {prefixes : List String} {start : String}
    (incomparable : ∀ other ∈ prefixes,
      ¬other.toList <+: start.toList ∧ ¬start.toList <+: other.toList) (rest : String) :
    startsWithAny prefixes (start ++ rest) = false := by
  rw [startsWithAny, List.any_eq_false]
  intro other member isPrefix
  rw [List.isPrefixOf_iff_prefix, String.toList_append] at isPrefix
  rcases List.prefix_or_prefix_of_prefix isPrefix (List.prefix_append _ _) with shorter | longer
  · exact (incomparable other member).1 shorter
  · exact (incomparable other member).2 longer

/-! ## Commands -/

variable {keep : String → Bool} {key dataKey verKey : String}

theorem Command.localTo_issue {Reply : Type} {command : Command Reply}
    (isLocal : LocalTo keep command) (fault : Fault) : LocalTo keep (command.issue fault) := by
  intro redis
  cases fault with
  | healthy => exact isLocal redis
  | refused => rfl
  | replyLost => simp only [Command.issue, isLocal redis]

theorem Command.spares_issue {Reply : Type} {command : Command Reply}
    (spares : Spares keep command) (fault : Fault) : Spares keep (command.issue fault) := by
  intro redis
  rcases Command.issue_snd command fault redis with unsent | ran
  · rw [unsent]
  · rw [ran]
    exact spares redis

theorem localTo_get (kept : keep (cString key) = true) :
    LocalTo keep (RedisConnection.get key) := by
  intro redis
  simp only [RedisConnection.get, redis.lookup_within kept]
  cases redis.lookup (cString key) <;> rfl

theorem localTo_exists (kept : keep (cString key) = true) :
    LocalTo keep (RedisConnection.exists key) := by
  intro redis
  simp only [RedisConnection.exists, redis.lookup_within kept]
  cases redis.lookup (cString key) <;> rfl

theorem localTo_hgetall (kept : keep (cString key) = true) :
    LocalTo keep (RedisConnection.hgetall key) := by
  intro redis
  simp only [RedisConnection.hgetall, redis.lookup_within kept]
  cases redis.lookup (cString key) with
  | none => rfl
  | some entry =>
      simp only
      cases entry.value <;> rfl

theorem localTo_hmset (kept : keep key = true) (fields : List (String × String)) :
    LocalTo keep (RedisConnection.hmset key fields) := by
  intro redis
  simp only [RedisConnection.hmset, redis.lookup_within kept]
  cases redis.lookup key with
  | none => simp only [redis.within_put _ kept]
  | some entry =>
      simp only
      cases entry.value with
      | hash old => simp only [redis.within_put _ kept]
      | string text | integer count => rfl

theorem expireKey_within (kept : keep key = true) (seconds : Int) (redis : Redis) :
    expireKey key seconds (redis.within keep) = (expireKey key seconds redis).within keep := by
  simp only [expireKey, redis.lookup_within kept]
  cases redis.lookup key with
  | none => rfl
  | some entry =>
      simp only
      split
      · rw [redis.within_put _ kept]
        rfl
      · rw [redis.within_erase]

theorem localTo_expire (kept : keep (cString key) = true) (seconds : Int) :
    LocalTo keep (RedisConnection.expire key seconds) := by
  intro redis
  simp only [RedisConnection.expire, expireKey_within kept]

theorem within_hmset_of_not (notKept : keep key = false) (fields : List (String × String)) :
    Spares keep (RedisConnection.hmset key fields) := by
  intro redis
  unfold RedisConnection.hmset
  split
  · exact redis.within_put_of_not _ notKept
  · split
    · exact redis.within_put_of_not _ notKept
    · rfl

theorem within_expireKey_of_not (notKept : keep key = false) (seconds : Int) (redis : Redis) :
    (expireKey key seconds redis).within keep = redis.within keep := by
  unfold expireKey
  split
  · rfl
  · split
    · exact redis.within_put_of_not _ notKept
    · exact redis.within_erase_of_not notKept

/-! ## Scripts -/

theorem currentVersion_within (kept : keep verKey = true) (redis : Redis) :
    currentVersion verKey (redis.within keep) = currentVersion verKey redis := by
  simp only [currentVersion, redis.lookup_within kept]

theorem localTo_kPutIfVersion (dataKept : keep dataKey = true) (verKept : keep verKey = true)
    (expected value : String) (ttl : Int) :
    LocalTo keep (kPutIfVersion dataKey verKey expected value ttl) := by
  intro redis
  simp only [kPutIfVersion, currentVersion_within verKept]
  cases currentVersion verKey redis with
  | none => rfl
  | some current =>
      simp only
      split
      · rfl
      · split
        · rw [redis.within_put _ dataKept]
          rfl
        · rw [redis.within_put _ dataKept]

theorem incr_within (kept : keep key = true) (redis : Redis) :
    incr key (redis.within keep) = (incr key redis).map fun after => after.within keep := by
  simp only [incr, redis.lookup_within kept]
  cases redis.lookup key with
  | none => simp only [Option.map_some, redis.within_put _ kept]
  | some entry =>
      simp only
      cases integer? entry.value with
      | none => rfl
      | some count =>
          simp only
          split
          · simp only [Option.map_some, redis.within_put _ kept]
          · rfl

theorem localTo_kInvalidateVersioned (verKept : keep verKey = true) (ttl : Int) :
    LocalTo keep (kInvalidateVersioned dataKey verKey ttl) := by
  intro redis
  simp only [kInvalidateVersioned, incr_within verKept]
  cases incr verKey redis with
  | none => rfl
  | some counted =>
      simp only [Option.map_some, expireKey_within verKept, ExpiringStore.within_erase]

theorem spares_kPutIfVersion (notKept : keep dataKey = false) (expected value : String)
    (ttl : Int) : Spares keep (kPutIfVersion dataKey verKey expected value ttl) := by
  intro redis
  rcases kPutIfVersion_cases dataKey verKey expected value ttl redis with
    ⟨_, stored⟩ | ⟨_, refused | failed⟩
  · rw [stored]
    exact redis.within_put_of_not _ notKept
  · rw [refused]
  · rw [failed]

theorem spares_kInvalidateVersioned (dataNotKept : keep dataKey = false)
    (verNotKept : keep verKey = false) (ttl : Int) :
    Spares keep (kInvalidateVersioned dataKey verKey ttl) := by
  intro redis
  simp only [kInvalidateVersioned]
  cases incremented : incr verKey redis with
  | none => rfl
  | some counted =>
      obtain ⟨_, _, _, _, rfl, _⟩ := incr_ok incremented
      simp only
      rw [ExpiringStore.within_erase_of_not _ dataNotKept, within_expireKey_of_not verNotKept,
        redis.within_put_of_not _ verNotKept]

end Corvus.Db
