import Corvus.Db.CacheAside

/-!
# Reading the cache while others write to it

`CacheAside::get` finds out with a second command whether an empty reply stands for
an absent key.  Other clients of the server act before, between and after the two
commands.  A read is right when its answer is what was under the key at some moment
of the call.
-/

namespace Corvus.Db

open CacheAside RedisConnection

/-- What other clients of the server do, and the time that passes. -/
inductive ForeignCommand where
  | set (name value : String) (ttlSeconds : Int)
  | del (name : String)
  | putIfVersion (dataKey verKey expected value : String) (ttlSeconds : Int)
  | invalidateVersioned (dataKey verKey : String) (ttlSeconds : Int)
  | pass (span : Nat)

def ForeignCommand.apply (redis : Redis) : ForeignCommand → Redis
  | .set name value ttlSeconds => storeValue name value ttlSeconds redis
  | .del name => redis.erase name
  | .putIfVersion dataKey verKey expected value ttlSeconds =>
      (kPutIfVersion dataKey verKey expected value ttlSeconds redis).2
  | .invalidateVersioned dataKey verKey ttlSeconds =>
      (kInvalidateVersioned dataKey verKey ttlSeconds redis).2
  | .pass span => redis.advance span

/-- The states a server goes through, the first one included. -/
def statesFrom (redis : Redis) : List ForeignCommand → List Redis
  | [] => [redis]
  | command :: rest => redis :: statesFrom (command.apply redis) rest

/-- One call of `get`: the state of the server when it begins, what others do before each
of its commands and before it returns, and how its commands go. -/
structure CacheRead where
  start : Redis
  beforeGet : List ForeignCommand
  getFault : Fault
  beforeExists : List ForeignCommand
  existsFault : Fault
  beforeReturn : List ForeignCommand

namespace CacheRead

/-- The server when the `GET` runs, which changes nothing. -/
def atGet (read : CacheRead) : Redis :=
  read.beforeGet.foldl ForeignCommand.apply read.start

/-- The server when the `EXISTS` runs, if it is sent. -/
def atExists (read : CacheRead) : Redis :=
  read.beforeExists.foldl ForeignCommand.apply read.atGet

/-- The states of the server during the call. -/
def moments (read : CacheRead) : List Redis :=
  statesFrom read.start read.beforeGet ++ statesFrom read.atGet read.beforeExists ++
    statesFrom read.atExists read.beforeReturn

variable (config : CacheConfig) (key : String) (read : CacheRead)

/-- The reply to the `GET` that arrives. -/
def getReply : Option String :=
  ((getValue config key).issue read.getFault read.atGet).1

/-- The reply to the `EXISTS` that arrives. -/
def existsReply : Option Nat :=
  ((getExists config key).issue read.existsFault read.atExists).1

/-- `CacheAside::get`. -/
def get : Option String :=
  match read.getReply config key with
  | none => none
  | some value =>
      if value = "" then
        match read.existsReply config key with
        | none => none
        | some count => if count = 0 then none else some value
      else some value

/-- Redis is healthy: the commands that are sent are answered, and not with an error. -/
def Healthy : Prop :=
  (read.getReply config key).isSome ∧
    (read.getReply config key = some "" → (read.existsReply config key).isSome)

/-- The value is under the key at some moment of the call. -/
def StoredDuring (value : String) : Prop :=
  ∃ moment ∈ read.moments, ∃ entry,
    moment.lookup (cString (config.makeKey key)) = some entry ∧
      textOf entry.value = some value

/-- Nothing is under the key at some moment of the call. -/
def AbsentDuring : Prop :=
  ∃ moment ∈ read.moments, moment.lookup (cString (config.makeKey key)) = none

/-- The answer is what was under the key at some moment of the call. -/
structure Linearizable : Prop where
  value : ∀ value, read.get config key = some value → read.StoredDuring config key value
  absence : read.Healthy config key → read.get config key = none →
    read.AbsentDuring config key

/-- The `GET` finds nothing and the `EXISTS` finds something, but it is not the empty
string at any moment. -/
def Overtaken : Prop :=
  (read.getFault = .healthy ∧ read.existsFault = .healthy) ∧
    read.atGet.lookup (cString (config.makeKey key)) = none ∧
    read.atExists.lookup (cString (config.makeKey key)) ≠ none ∧
    ¬read.StoredDuring config key ""

end CacheRead

theorem mem_statesFrom_start (redis : Redis) (commands : List ForeignCommand) :
    redis ∈ statesFrom redis commands := by
  cases commands with
  | nil => exact List.mem_cons_self
  | cons command rest => exact List.mem_cons_self

section Reading

variable {config : CacheConfig} {key : String} {read : CacheRead}

theorem atGet_mem_moments (read : CacheRead) : read.atGet ∈ read.moments := by
  apply List.mem_append_left
  apply List.mem_append_right
  exact mem_statesFrom_start _ _

theorem atExists_mem_moments (read : CacheRead) : read.atExists ∈ read.moments := by
  apply List.mem_append_right
  exact mem_statesFrom_start _ _

/-- A reply to the `EXISTS` counts what is there when it runs. -/
theorem existsReply_eq_some {count : Nat} (replied : read.existsReply config key = some count) :
    read.existsFault = .healthy ∧
      (count = 0 ↔ read.atExists.lookup (cString (config.makeKey key)) = none) := by
  obtain ⟨healthy, answered⟩ := Command.reply_of_issue replied
  refine ⟨healthy, ?_⟩
  simp only [getExists, RedisConnection.exists] at answered
  split at answered
  · rename_i absent
    cases answered
    exact iff_of_true rfl absent
  · rename_i entry found
    cases answered
    exact iff_of_false Nat.one_ne_zero (found ▸ Option.some_ne_none entry)

/-- A reply to the `GET` is what is there when it runs, or empty. -/
theorem getReply_eq_some {value : String} (replied : read.getReply config key = some value) :
    read.getFault = .healthy ∧
      (read.StoredDuring config key value ∨
        (read.atGet.lookup (cString (config.makeKey key)) = none ∧ value = "")) := by
  obtain ⟨healthy, answered⟩ := Command.reply_of_issue replied
  refine ⟨healthy, ?_⟩
  rcases get_reply answered with ⟨absent, isEmpty⟩ | ⟨entry, found, textEq⟩
  · exact .inr ⟨absent, isEmpty⟩
  · exact .inl ⟨read.atGet, atGet_mem_moments read, entry, found, textEq⟩

/-- A value that is returned was there, unless the read was overtaken. -/
theorem stored_of_get (notOvertaken : ¬read.Overtaken config key) {value : String}
    (returned : read.get config key = some value) : read.StoredDuring config key value := by
  unfold CacheRead.get at returned
  split at returned
  · cases returned
  · rename_i reply replied
    obtain ⟨getHealthy, stored | ⟨absent, rfl⟩⟩ := getReply_eq_some replied
    · have same : reply = value := by
        split at returned
        · split at returned
          · cases returned
          · split at returned
            · cases returned
            · exact Option.some.inj returned
        · exact Option.some.inj returned
      exact same ▸ stored
    · rw [if_pos rfl] at returned
      split at returned
      · cases returned
      · rename_i count counted
        obtain ⟨existsHealthy, zeroIff⟩ := existsReply_eq_some counted
        split at returned
        · cases returned
        · rename_i notZero
          cases returned
          by_contra notStored
          exact notOvertaken ⟨⟨getHealthy, existsHealthy⟩, absent,
            fun absentAgain => notZero (zeroIff.mpr absentAgain), notStored⟩

/-- With Redis healthy, nothing is returned only after the `EXISTS` found nothing. -/
theorem absent_of_get (healthy : read.Healthy config key)
    (returned : read.get config key = none) : read.AbsentDuring config key := by
  obtain ⟨value, replied⟩ := Option.isSome_iff_exists.mp healthy.1
  simp only [CacheRead.get, replied] at returned
  split at returned
  · rename_i isEmpty
    obtain ⟨count, counted⟩ := Option.isSome_iff_exists.mp (healthy.2 (isEmpty ▸ replied))
    simp only [counted] at returned
    split at returned
    · rename_i zero
      exact ⟨read.atExists, atExists_mem_moments read,
        (existsReply_eq_some counted).2.mp zero⟩
    · cases returned
  · cases returned

/-- A read that was overtaken returns the empty string. -/
theorem get_of_overtaken (overtaken : read.Overtaken config key) :
    read.get config key = some "" := by
  obtain ⟨⟨getHealthy, existsHealthy⟩, absent, present, _⟩ := overtaken
  obtain ⟨entry, found⟩ := Option.ne_none_iff_exists'.mp present
  have replied : read.getReply config key = some "" := by
    rw [CacheRead.getReply, getHealthy, Command.issue_healthy, getValue, RedisConnection.get,
      absent]
  have counted : read.existsReply config key = some 1 := by
    rw [CacheRead.existsReply, existsHealthy, Command.issue_healthy, getExists,
      RedisConnection.exists, found]
  simp only [CacheRead.get, replied, counted, if_true, Nat.one_ne_zero, if_false]

end Reading

/-- A read is linearizable exactly when it is not overtaken between its two commands. -/
theorem get_linearizable_iff (config : CacheConfig) (key : String) (read : CacheRead) :
    read.Linearizable config key ↔ ¬read.Overtaken config key := by
  constructor
  · intro linearizable overtaken
    exact overtaken.2.2.2 (linearizable.value "" (get_of_overtaken overtaken))
  · intro notOvertaken
    exact ⟨fun _ => stored_of_get notOvertaken, absent_of_get⟩

/-- Every read is linearizable. -/
def ReadsAreLinearizable : Prop :=
  ∀ (config : CacheConfig) (key : String) (read : CacheRead), read.Linearizable config key

/-- Another process stores a value between the two commands of a read. -/
def overtakenRead : CacheRead where
  start := ExpiringStore.empty
  beforeGet := []
  getFault := .healthy
  beforeExists := [.set "corvus:user" "alice" 300]
  existsFault := .healthy
  beforeReturn := []

theorem not_readsAreLinearizable : ¬ReadsAreLinearizable := by
  intro linearizable
  have empty : overtakenRead.get {} "user" = some "" := by decide +kernel
  obtain ⟨moment, member, entry, found, textEq⟩ :=
    (linearizable {} "user" overtakenRead).value "" empty
  have states : overtakenRead.moments = [.empty, .empty,
      storeValue "corvus:user" "alice" 300 .empty,
      storeValue "corvus:user" "alice" 300 .empty] := rfl
  rw [states] at member
  have keyEq : cString (({} : CacheConfig).makeKey "user") = "corvus:user" := by decide
  rw [keyEq] at found
  simp only [List.mem_cons, List.not_mem_nil, or_false] at member
  rcases member with rfl | rfl | rfl | rfl
  · cases found
  · cases found
  · rw [ExpiringStore.eq_of_lookup_put_self found] at textEq
    exact absurd textEq (by decide)
  · rw [ExpiringStore.eq_of_lookup_put_self found] at textEq
    exact absurd textEq (by decide)

end Corvus.Db
