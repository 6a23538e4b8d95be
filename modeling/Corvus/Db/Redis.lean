import Corvus.ExpiringStore
import Mathlib

/-!
# The Redis server and the commands sent to it

Strings are the program's `std::string` values.  hiredis formats a `%s` argument
up to its first NUL, while arguments passed with explicit lengths arrive whole;
`cString` marks the places where the first form is used.  Times are
milliseconds of the server's clock, time-to-live arguments are seconds.
-/

namespace Corvus.Db

/-- What a C string keeps of a `std::string`: everything before the first NUL. -/
def cString (text : String) : String :=
  String.ofList (text.toList.takeWhile fun char => char != '\x00')

/-- The string holds no NUL. -/
def NulFree (text : String) : Prop := '\x00' ∉ text.toList

instance (text : String) : Decidable (NulFree text) :=
  inferInstanceAs (Decidable (¬ _ ∈ _))

@[simp] theorem cString_of_nulFree {text : String} (nulFree : NulFree text) :
    cString text = text := by
  rw [cString, List.takeWhile_eq_self_iff.mpr, String.ofList_toList]
  intro char membership
  simp only [bne_iff_ne, ne_eq]
  rintro rfl
  exact nulFree membership

theorem nulFree_cString (text : String) : NulFree (cString text) := by
  intro member
  rw [cString, String.toList_ofList] at member
  simpa using List.mem_takeWhile_imp member

theorem cString_eq_self {text : String} : cString text = text ↔ NulFree text :=
  ⟨fun same => same ▸ nulFree_cString text, cString_of_nulFree⟩

@[simp] theorem nulFree_append {left right : String} :
    NulFree (left ++ right) ↔ NulFree left ∧ NulFree right := by
  simp [NulFree, String.toList_append, not_or]

/-- Text without a NUL does not end what follows it. -/
theorem cString_append_of_nulFree {left right : String} (nulFree : NulFree left) :
    cString (left ++ right) = left ++ cString right := by
  have whole : ∀ char ∈ left.toList, (char != '\x00') = true := by
    intro char member
    simp only [bne_iff_ne, ne_eq]
    rintro rfl
    exact nulFree member
  rw [cString, String.toList_append, List.takeWhile_append_of_pos whole, String.ofList_append,
    String.ofList_toList, cString]

/-- A NUL ends what follows it. -/
theorem cString_append_of_nul {left right : String} (hasNul : ¬NulFree left) :
    cString (left ++ right) = cString left := by
  have stops : ¬∀ char ∈ left.toList, (char != '\x00') = true := by
    intro all
    exact hasNul fun member => by simpa using all '\x00' member
  rw [cString, String.toList_append, List.takeWhile_append, if_neg, cString]
  intro whole
  exact stops (List.takeWhile_eq_self_iff.mp ((List.takeWhile_prefix _).eq_of_length whole))

/-- A counter never reads as the empty string. -/
@[simp] theorem repr_ne_empty (count : Int) : count.repr ≠ "" := by
  cases count with
  | ofNat magnitude => exact Nat.repr_ne_empty
  | negSucc magnitude =>
      intro empty
      have lists := congrArg String.toList empty
      simp [Int.repr, String.toList_append] at lists

/-- A value stored under a key.  Redis keeps counters as integers; reading one
yields its decimal text. -/
inductive RedisValue where
  | string (text : String)
  | integer (count : Int)
  | hash (fields : List (String × String))
  deriving DecidableEq, Repr

abbrev Redis := ExpiringStore String RedisValue

/-- A command computes a reply, or answers with an error, and may change the
server's state. -/
abbrev Command (Reply : Type) := Redis → Option Reply × Redis

/-- What can happen to a command on its way.  `refused` covers everything that
leaves the server untouched: no usable connection, a denied or failing command,
a connection that breaks before the command arrives.  With `replyLost` the
server runs the command, but the client sees a timeout or a broken connection. -/
inductive Fault where
  | healthy
  | refused
  | replyLost
  deriving DecidableEq, Repr

/-- Send one command.  `none` is every outcome the client reports as a failure. -/
def Command.issue {Reply : Type} (command : Command Reply) (fault : Fault)
    (redis : Redis) : Option Reply × Redis :=
  match fault with
  | .healthy => command redis
  | .refused => (none, redis)
  | .replyLost => (none, (command redis).2)

@[simp] theorem Command.issue_healthy {Reply : Type} (command : Command Reply)
    (redis : Redis) : command.issue .healthy redis = command redis := rfl

@[simp] theorem Command.issue_refused {Reply : Type} (command : Command Reply)
    (redis : Redis) : command.issue .refused redis = (none, redis) := rfl

/-- The server's state after a command is the state before it or the state the
command leaves. -/
theorem Command.issue_snd {Reply : Type} (command : Command Reply) (fault : Fault)
    (redis : Redis) :
    (command.issue fault redis).2 = redis ∨
      (command.issue fault redis).2 = (command redis).2 := by
  cases fault with
  | healthy => exact Or.inr rfl
  | refused => exact Or.inl rfl
  | replyLost => exact Or.inr rfl

/-- A reply that arrives is the command's own. -/
theorem Command.reply_of_issue {Reply : Type} {command : Command Reply}
    {fault : Fault} {redis : Redis} {reply : Reply}
    (arrived : (command.issue fault redis).1 = some reply) :
    fault = .healthy ∧ (command redis).1 = some reply := by
  cases fault with
  | healthy => exact ⟨rfl, arrived⟩
  | refused => cases arrived
  | replyLost => cases arrived

namespace RedisConnection

/-- Text of a value as `GET` returns it; a hash is a wrong-type error. -/
def textOf : RedisValue → Option String
  | .string text => some text
  | .integer count => some count.repr
  | .hash _ => none

/-- `GET %s`.  An absent key reads as the empty string. -/
def get (key : String) : Command String := fun redis =>
  match redis.lookup (cString key) with
  | none => (some "", redis)
  | some entry => (textOf entry.value, redis)

/-- `EXISTS %s`. -/
def «exists» (key : String) : Command Nat := fun redis =>
  match redis.lookup (cString key) with
  | none => (some 0, redis)
  | some _ => (some 1, redis)

/-- A reply to `GET` is the text of what is there, or empty. -/
theorem get_reply {key text : String} {redis : Redis}
    (replied : (RedisConnection.get key redis).1 = some text) :
    (redis.lookup (cString key) = none ∧ text = "") ∨
      ∃ entry, redis.lookup (cString key) = some entry ∧ textOf entry.value = some text := by
  unfold RedisConnection.get at replied
  split at replied
  · rename_i absent
    cases replied
    exact Or.inl ⟨absent, rfl⟩
  · rename_i entry found
    exact Or.inr ⟨entry, found, replied⟩

/-- Redis keeps the deadline of a key in absolute milliseconds. -/
def deadline (now : Nat) (seconds : Int) : Nat := now + seconds.toNat * 1000

/-- `EXPIRE key seconds`: no effect on an absent key, and a time to live that is
not positive deletes the key. -/
def expireKey (key : String) (seconds : Int) (redis : Redis) : Redis :=
  match redis.lookup key with
  | none => redis
  | some entry =>
      if 0 < seconds then
        redis.put key { entry with expireAt := some (deadline redis.now seconds) }
      else redis.erase key

/-- `EXPIRE %s %d`. -/
def expire (key : String) (seconds : Int) : Command Unit := fun redis =>
  (some (), expireKey (cString key) seconds redis)

/-- `SET %s %b`, with `EX %d` for a time to live that is positive. -/
def set (key value : String) (ttlSeconds : Int) : Command Unit := fun redis =>
  (some (), redis.put (cString key)
    { value := .string value
      expireAt := if 0 < ttlSeconds then some (deadline redis.now ttlSeconds) else none })

/-- `DEL %s`. -/
def del (key : String) : Command Nat := fun redis =>
  match redis.lookup (cString key) with
  | none => (some 0, redis)
  | some _ => (some 1, redis.erase (cString key))

/-- Read a stored value as the integer `INCR` works on: decimal text in its
canonical form. -/
def integer? : RedisValue → Option Int
  | .integer count => some count
  | .string text => text.toInt?.filter fun count => count.repr == text
  | .hash _ => none

/-- `INCR key`: an absent key counts from zero, and the key keeps its deadline.
Anything but a 64-bit integer below the maximum is an error. -/
def incr (key : String) (redis : Redis) : Option Redis :=
  match redis.lookup key with
  | none => some (redis.put key { value := .integer 1, expireAt := none })
  | some entry =>
      match integer? entry.value with
      | none => none
      | some count =>
          if count < 2 ^ 63 - 1 then
            some (redis.put key { entry with value := .integer (count + 1) })
          else none

/-- The fields of a hash after setting some of them. -/
def setFields (fields old : List (String × String)) : List (String × String) :=
  fields ++ old.filter fun field => !(fields.map Prod.fst).contains field.1

/-- `HMSET` through `redisCommandArgv`.  Setting fields keeps the deadline the
key already has. -/
def hmset (key : String) (fields : List (String × String)) : Command Unit :=
  fun redis =>
    match redis.lookup key with
    | none => (some (), redis.put key { value := .hash fields, expireAt := none })
    | some entry =>
        match entry.value with
        | .hash old =>
            (some (), redis.put key { entry with value := .hash (setFields fields old) })
        | _ => (none, redis)

/-- `HGETALL %s` as the client stores it: field names and values are copied up to
their first NUL, in reply order. -/
def hgetall (key : String) : Command (List (String × String)) := fun redis =>
  match redis.lookup (cString key) with
  | none => (some [], redis)
  | some entry =>
      match entry.value with
      | .hash fields =>
          (some (fields.map fun field => (cString field.1, cString field.2)), redis)
      | _ => (none, redis)

/-- Look a field up in the map built from an `HGETALL` reply; a later field of
the same name replaces an earlier one. -/
def findField (reply : List (String × String)) (name : String) : Option String :=
  (reply.reverse.find? fun field => field.1 == name).map Prod.snd

/-- A field that was just set reads as it was set. -/
theorem findField_setFields {fields old : List (String × String)} {name : String}
    (isSet : name ∈ fields.map Prod.fst) :
    findField (setFields fields old) name = findField fields name := by
  have others : ((old.filter fun field => !(fields.map Prod.fst).contains field.1).reverse.find?
      fun field => field.1 == name) = none := by
    rw [List.find?_eq_none]
    intro field member
    rw [List.mem_reverse, List.mem_filter] at member
    simp only [beq_iff_eq]
    rintro rfl
    simp [isSet] at member
  rw [findField, setFields, List.reverse_append, List.find?_append, others, Option.none_or,
    findField]

theorem expireKey_lookup_of_ne {key other : String} {seconds : Int} {redis : Redis}
    (different : other ≠ key) :
    (expireKey key seconds redis).lookup other = redis.lookup other := by
  unfold expireKey
  split
  · rfl
  · split
    · exact ExpiringStore.lookup_put_of_ne different
    · exact ExpiringStore.lookup_erase_of_ne different

@[simp] theorem expireKey_now (key : String) (seconds : Int) (redis : Redis) :
    (expireKey key seconds redis).now = redis.now := by
  unfold expireKey
  split
  · rfl
  · split <;> rfl

/-- `EXPIRE` keeps the value of an entry. -/
theorem value_of_lookup_expireKey {key other : String} {seconds : Int} {redis : Redis}
    {entry : Entry RedisValue}
    (found : (expireKey key seconds redis).lookup other = some entry) :
    ∃ before, redis.lookup other = some before ∧ before.value = entry.value := by
  by_cases same : other = key
  · subst same
    unfold expireKey at found
    split at found
    · exact ⟨entry, found, rfl⟩
    · rename_i before beforeFound
      split at found
      · obtain rfl := ExpiringStore.eq_of_lookup_put_self found
        exact ⟨before, beforeFound, rfl⟩
      · simp at found
  · refine ⟨entry, ?_, rfl⟩
    rwa [expireKey_lookup_of_ne same] at found

@[simp] theorem hmset_now (key : String) (fields : List (String × String)) (redis : Redis) :
    (hmset key fields redis).2.now = redis.now := by
  unfold hmset
  split
  · rfl
  · split <;> rfl

/-- An `EXPIRE` with a positive time to live sets the deadline of what is there. -/
theorem expireAt_of_lookup_expireKey {key : String} {seconds : Int} {redis : Redis}
    {entry : Entry RedisValue} (positive : 0 < seconds)
    (found : (expireKey key seconds redis).lookup key = some entry) :
    entry.expireAt = some (deadline redis.now seconds) := by
  unfold expireKey at found
  split at found
  · rename_i absent
    rw [absent] at found
    cases found
  · simp only [positive, if_true] at found
    obtain rfl := ExpiringStore.eq_of_lookup_put_self found
    rfl

/-- What an `HMSET` leaves under a key: what was there, or the fields set over
those of the entry it found. -/
theorem lookup_hmset {key other : String} {fields : List (String × String)} {redis : Redis}
    {entry : Entry RedisValue}
    (found : (hmset key fields redis).2.lookup other = some entry) :
    redis.lookup other = some entry ∨
      (other = key ∧ ∃ old, entry.value = .hash (setFields fields old) ∧
        ((redis.lookup key = none ∧ old = []) ∨
          ∃ before, redis.lookup key = some before ∧ before.value = .hash old ∧
            entry.expireAt = before.expireAt)) := by
  by_cases same : other = key
  · subst same
    unfold hmset at found
    split at found
    · right
      rename_i absent
      obtain rfl := ExpiringStore.eq_of_lookup_put_self found
      exact ⟨rfl, [], by simp [setFields], Or.inl ⟨absent, rfl⟩⟩
    · rename_i before beforeFound
      split at found
      · right
        rename_i old valueEq
        obtain rfl := ExpiringStore.eq_of_lookup_put_self found
        exact ⟨rfl, old, rfl, Or.inr ⟨before, beforeFound, valueEq, rfl⟩⟩
      · exact Or.inl found
  · left
    unfold hmset at found
    split at found
    · rwa [ExpiringStore.lookup_put_of_ne same] at found
    · split at found
      · rwa [ExpiringStore.lookup_put_of_ne same] at found
      · exact found

end RedisConnection

end Corvus.Db
