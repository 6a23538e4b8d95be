import Corvus.Db.CacheAside

/-!
# Invalidating a prefix

`invalidate_prefix` asks the server for the keys that match a pattern, a batch at a
time, and deletes each key of each batch.  The pattern is the prefix itself with a
star behind it, and both the pattern and the keys pass through C strings.

How the server matches patterns and in what batches it reports keys is a parameter.
-/

namespace Corvus.Db

open CacheAside RedisConnection

/-- A reply to `SCAN`: the cursor to go on with, and a batch of keys. -/
structure ScanReply where
  cursor : Nat
  keys : List String
  deriving DecidableEq

/-- The pattern as it reaches the server. -/
def scanPattern (config : CacheConfig) (keyPrefix : String) : String :=
  cString (config.makeKey keyPrefix ++ "*")

/-- The inner loop: `redis_.del(keys->element[i]->str)`. -/
def deleteKeys (keys : List String) (redis : Redis) : Redis :=
  keys.foldl (fun redis key => (del (cString key) redis).2) redis

/-- The loop of `invalidate_prefix`, for the replies the server gives one after the
other: the cursors sent with their replies, and what is left. -/
def scanLoop (cursor : Nat) : List ScanReply → Redis → List (Nat × ScanReply) × Redis
  | [], redis => ([], redis)
  | reply :: rest, redis =>
      -- `std::stoll` throws, which ends the loop.
      if 2 ^ 63 ≤ reply.cursor then ([(cursor, reply)], redis)
      else
        let after := deleteKeys reply.keys redis
        if reply.cursor = 0 then ([(cursor, reply)], after)
        else
          let later := scanLoop reply.cursor rest after
          ((cursor, reply) :: later.1, later.2)

/-- `CacheAside::invalidate_prefix` on a healthy connection. -/
def invalidatePrefix (replies : List ScanReply) (redis : Redis) :
    List (Nat × ScanReply) × Redis :=
  scanLoop 0 replies redis

/-! ## What the server promises -/

/-- An iteration begins with the given cursor, goes on with the cursor that was returned,
and ends when it is zero. -/
def FullIteration : Nat → List (Nat × ScanReply) → Prop
  | _, [] => False
  | expected, (sent, reply) :: rest =>
      sent = expected ∧ if reply.cursor = 0 then rest = [] else FullIteration reply.cursor rest

/-- What `SCAN` reports in an iteration, while keys are only deleted: keys that match, and
every one that matches and is there throughout, in any order and any number of times. -/
structure Enumerates (glob : String → String → Bool) (pattern : String) (before : Redis)
    (rounds : List (Nat × ScanReply)) (after : Redis) : Prop where
  reported : ∀ round ∈ rounds, ∀ key ∈ round.2.keys,
    glob pattern key = true ∧ before.lookup key ≠ none
  complete : FullIteration 0 rounds → ∀ key, glob pattern key = true →
    before.lookup key ≠ none → after.lookup key ≠ none → ∃ round ∈ rounds, key ∈ round.2.keys

/-- Text that stands for itself in a pattern. -/
def Plain (text : String) : Prop :=
  ∀ char ∈ text.toList, char ∉ ['*', '?', '[', '\\', '\x00']

instance (text : String) : Decidable (Plain text) :=
  List.decidableBAll (fun char => char ∉ ['*', '?', '[', '\\', '\x00']) text.toList

/-- A star matches everything, and plain text itself. -/
def GlobServer (glob : String → String → Bool) : Prop :=
  ∀ literal key, Plain literal →
    (glob (literal ++ "*") key = true ↔ literal.toList <+: key.toList)

/-! ## What the loop does -/

/-- The key starts with the prefix. -/
def StartsWith (config : CacheConfig) (keyPrefix key : String) : Prop :=
  (config.makeKey keyPrefix).toList <+: key.toList

theorem cString_cString (text : String) : cString (cString text) = cString text :=
  cString_of_nulFree (nulFree_cString text)

theorem lookup_del (key other : String) (redis : Redis) :
    (del (cString key) redis).2.lookup other =
      if other = cString key then none else redis.lookup other := by
  rw [del, cString_cString]
  split
  · rename_i absent
    split
    · rename_i same
      rw [same, absent]
    · rfl
  · split
    · rename_i same
      rw [same, ExpiringStore.lookup_erase_self]
    · rename_i different
      exact ExpiringStore.lookup_erase_of_ne different

/-- A key is gone after a batch if it is one of the batch as far as a NUL. -/
theorem lookup_deleteKeys (keys : List String) (redis : Redis) (key : String) :
    (deleteKeys keys redis).lookup key =
      if key ∈ keys.map cString then none else redis.lookup key := by
  induction keys generalizing redis with
  | nil => rfl
  | cons first rest ih =>
      have unfolded : deleteKeys (first :: rest) redis =
          deleteKeys rest (del (cString first) redis).2 := rfl
      rw [unfolded, ih, lookup_del, List.map_cons]
      by_cases inRest : key ∈ rest.map cString
      · simp [inRest]
      · by_cases same : key = cString first
        · simp [same]
        · simp [same, inRest]

/-- The keys that are reported in the rounds, as far as a NUL. -/
def deletedIn (rounds : List (Nat × ScanReply)) : List String :=
  (rounds.flatMap fun round => round.2.keys).map cString

section Loop

variable {replies : List ScanReply}

/-- What the loop leaves, when every cursor fits. -/
theorem lookup_scanLoop (fits : ∀ reply ∈ replies, reply.cursor < 2 ^ 63) (cursor : Nat)
    (redis : Redis) (key : String) :
    (scanLoop cursor replies redis).2.lookup key =
      if key ∈ deletedIn (scanLoop cursor replies redis).1 then none else redis.lookup key := by
  induction replies generalizing cursor redis with
  | nil => rfl
  | cons reply rest ih =>
      have small : ¬2 ^ 63 ≤ reply.cursor := Nat.not_le.mpr (fits reply List.mem_cons_self)
      simp only [scanLoop, small, if_false]
      split
      · rw [lookup_deleteKeys]
        simp [deletedIn]
      · rw [ih (fun other member => fits other (List.mem_cons_of_mem _ member)),
          lookup_deleteKeys]
        simp only [deletedIn, List.flatMap_cons, List.map_append, List.mem_append]
        by_cases inRest : key ∈
            ((scanLoop reply.cursor rest (deleteKeys reply.keys redis)).1.flatMap
              fun round => round.2.keys).map cString
        · simp [inRest]
        · simp [inRest]

/-- The loop iterates as the server asks for: from cursor zero until it is zero again. -/
theorem fullIteration_scanLoop (fits : ∀ reply ∈ replies, reply.cursor < 2 ^ 63)
    (finishes : ∃ reply ∈ replies, reply.cursor = 0) (cursor : Nat) (redis : Redis) :
    FullIteration cursor (scanLoop cursor replies redis).1 := by
  induction replies generalizing cursor redis with
  | nil =>
      obtain ⟨_, member, _⟩ := finishes
      cases member
  | cons reply rest ih =>
      have small : ¬2 ^ 63 ≤ reply.cursor := Nat.not_le.mpr (fits reply List.mem_cons_self)
      simp only [scanLoop, small, if_false]
      split
      · rename_i atEnd
        exact ⟨rfl, by rw [if_pos atEnd]⟩
      · rename_i notYet
        refine ⟨rfl, ?_⟩
        rw [if_neg notYet]
        apply ih fun other member => fits other (List.mem_cons_of_mem _ member)
        obtain ⟨last, member, atEnd⟩ := finishes
        rcases List.mem_cons.mp member with rfl | inRest
        · exact absurd atEnd notYet
        · exact ⟨last, inRest, atEnd⟩

variable {glob : String → String → Bool} {config : CacheConfig} {keyPrefix : String}
variable {redis : Redis}

/-- The keys that are gone are those that match, as far as a NUL. -/
theorem gone_iff (fits : ∀ reply ∈ replies, reply.cursor < 2 ^ 63)
    (finishes : ∃ reply ∈ replies, reply.cursor = 0)
    (server : Enumerates glob (scanPattern config keyPrefix) redis
      (invalidatePrefix replies redis).1 (invalidatePrefix replies redis).2)
    {key : String} (present : redis.lookup key ≠ none) :
    (invalidatePrefix replies redis).2.lookup key = none ↔
      ∃ reported, redis.lookup reported ≠ none ∧
        glob (scanPattern config keyPrefix) reported = true ∧ cString reported = key := by
  have left : ∀ other, (invalidatePrefix replies redis).2.lookup other =
      if other ∈ deletedIn (invalidatePrefix replies redis).1 then none
      else redis.lookup other := lookup_scanLoop fits 0 redis
  constructor
  · intro gone
    rw [left] at gone
    split at gone
    · rename_i deleted
      obtain ⟨reported, inRounds, rfl⟩ := List.mem_map.mp deleted
      obtain ⟨round, isRound, inBatch⟩ := List.mem_flatMap.mp inRounds
      obtain ⟨matching, wasPresent⟩ := server.reported round isRound reported inBatch
      exact ⟨reported, wasPresent, matching, rfl⟩
    · exact absurd gone present
  · rintro ⟨reported, wasPresent, matching, rfl⟩
    by_cases gone : (invalidatePrefix replies redis).2.lookup reported = none
    · -- What is deleted holds no NUL.
      have deleted : reported ∈ deletedIn (invalidatePrefix replies redis).1 := by
        by_contra notDeleted
        rw [left, if_neg notDeleted] at gone
        exact wasPresent gone
      obtain ⟨other, _, rfl⟩ := List.mem_map.mp deleted
      rw [cString_cString]
      exact gone
    · obtain ⟨round, isRound, inBatch⟩ := server.complete
        (fullIteration_scanLoop fits finishes 0 redis) reported matching wasPresent gone
      rw [left, if_pos]
      exact List.mem_map_of_mem (List.mem_flatMap.mpr ⟨round, isRound, inBatch⟩)

end Loop

/-! ## Which keys the pattern stands for -/

/-- The keys that are gone are those that start with the prefix. -/
def RemovesExactly (config : CacheConfig) (keyPrefix : String) (before after : Redis) : Prop :=
  ∀ key, before.lookup key ≠ none →
    (after.lookup key = none ↔ StartsWith config keyPrefix key)

/-- The pattern stands for the prefix: a key that starts with it is, as far as a NUL, one
that matches, and a key that matches is, as far as a NUL, none that does not start with
it. -/
structure PatternFits (glob : String → String → Bool) (config : CacheConfig)
    (keyPrefix : String) (redis : Redis) : Prop where
  reaches : ∀ key, redis.lookup key ≠ none → StartsWith config keyPrefix key →
    ∃ reported, redis.lookup reported ≠ none ∧
      glob (scanPattern config keyPrefix) reported = true ∧ cString reported = key
  spares : ∀ reported, redis.lookup reported ≠ none →
    glob (scanPattern config keyPrefix) reported = true →
    redis.lookup (cString reported) ≠ none → StartsWith config keyPrefix (cString reported)

/-- A prefix that is plain text fits, unless keys that start with it hold a NUL. -/
theorem patternFits_of_plain {glob : String → String → Bool} {config : CacheConfig}
    {keyPrefix : String} {redis : Redis} (documented : GlobServer glob)
    (plain : Plain (config.makeKey keyPrefix))
    (nulFree : ∀ key, redis.lookup key ≠ none → StartsWith config keyPrefix key → NulFree key) :
    PatternFits glob config keyPrefix redis := by
  have prefixFree : NulFree (config.makeKey keyPrefix) := by
    intro isNul
    exact plain '\x00' isNul (by decide)
  have star : NulFree "*" := by decide
  have pattern : scanPattern config keyPrefix = config.makeKey keyPrefix ++ "*" :=
    cString_of_nulFree (nulFree_append.mpr ⟨prefixFree, star⟩)
  have matches_iff : ∀ key, glob (scanPattern config keyPrefix) key = true ↔
      StartsWith config keyPrefix key := by
    intro key
    rw [pattern]
    exact documented _ key plain
  constructor
  · intro key present starts
    exact ⟨key, present, (matches_iff key).mpr starts,
      cString_of_nulFree (nulFree key present starts)⟩
  · intro reported present matching _
    have starts := (matches_iff reported).mp matching
    rw [cString_of_nulFree (nulFree reported present starts)]
    exact starts

/-- After any full iteration exactly the keys with the prefix are gone if and only if the
pattern stands for the prefix, which it does for plain text and keys without a NUL. -/
theorem removesExactly_iff {glob : String → String → Bool} {config : CacheConfig}
    {keyPrefix : String} {redis : Redis} {replies : List ScanReply}
    (fits : ∀ reply ∈ replies, reply.cursor < 2 ^ 63)
    (finishes : ∃ reply ∈ replies, reply.cursor = 0)
    (server : Enumerates glob (scanPattern config keyPrefix) redis
      (invalidatePrefix replies redis).1 (invalidatePrefix replies redis).2) :
    (RemovesExactly config keyPrefix redis (invalidatePrefix replies redis).2 ↔
        PatternFits glob config keyPrefix redis) ∧
      (GlobServer glob → Plain (config.makeKey keyPrefix) →
        (∀ key, redis.lookup key ≠ none → StartsWith config keyPrefix key → NulFree key) →
        PatternFits glob config keyPrefix redis) := by
  refine ⟨⟨fun removes => ⟨?_, ?_⟩, fun patternFits key present => ?_⟩, patternFits_of_plain⟩
  · intro key present starts
    exact (gone_iff fits finishes server present).mp ((removes key present).mpr starts)
  · intro reported present matching isKey
    exact (removes _ isKey).mp ((gone_iff fits finishes server isKey).mpr
      ⟨reported, present, matching, rfl⟩)
  · rw [gone_iff fits finishes server present]
    constructor
    · rintro ⟨reported, wasPresent, matching, rfl⟩
      exact patternFits.spares reported wasPresent matching present
    · exact patternFits.reaches key present

/-! ## A server with stars and question marks -/

/-- Stars and question marks of a pattern; classes and escapes are left out. -/
def globChars : List Char → List Char → Bool
  | [] => fun key => key.isEmpty
  | char :: rest => fun key =>
      if char = '*' then key.tails.any (globChars rest)
      else
        match key with
        | [] => false
        | other :: others => (char == '?' || other == char) && globChars rest others

def glob (pattern key : String) : Bool :=
  globChars pattern.toList key.toList

theorem glob_documented : GlobServer glob := by
  intro literal key plain
  rw [glob, String.toList_append]
  unfold Plain at plain
  generalize literal.toList = chars at plain
  generalize key.toList = text
  induction chars generalizing text with
  | nil =>
      have star : globChars ['*'] text = true := by
        simp only [globChars, if_true, List.any_eq_true]
        exact ⟨[], by simp, rfl⟩
      exact iff_of_true star List.nil_prefix
  | cons char rest ih =>
      have special := plain char List.mem_cons_self
      simp only [List.mem_cons, List.not_mem_nil, or_false, not_or] at special
      simp only [List.cons_append, globChars, special.1, if_false]
      cases text with
      | nil => simp
      | cons other others =>
          have tail : globChars (rest ++ ['*']) others = true ↔ rest <+: others :=
            ih (fun char member => plain char (List.mem_cons_of_mem _ member)) others
          have notMark : (char == '?') = false := beq_eq_false_iff_ne.mpr special.2.1
          rw [List.cons_prefix_cons, Bool.and_eq_true, notMark, Bool.false_or, beq_iff_eq]
          exact and_congr eq_comm tail

/-- A store with one text under each of some keys. -/
def storeOf (keys : List String) : Redis where
  now := 0
  entries key := if key ∈ keys then some { value := .string "text", expireAt := none } else none

theorem lookup_storeOf {keys : List String} {key : String} :
    (storeOf keys).lookup key ≠ none ↔ key ∈ keys := by
  unfold storeOf ExpiringStore.lookup
  by_cases member : key ∈ keys
  · simp [member, Entry.visibleAt]
  · simp [member]

/-- Two batches, of which the second repeats a key of the first. -/
def twoBatches : List ScanReply :=
  [⟨5, ["corvus:user:1"]⟩, ⟨0, ["corvus:user:2", "corvus:user:1"]⟩]

def users : Redis :=
  storeOf ["corvus:user:1", "corvus:user:2", "corvus:key"]

theorem removesExactly_users :
    RemovesExactly {} "user:" users (invalidatePrefix twoBatches users).2 := by
  have rounds : (invalidatePrefix twoBatches users).1 =
      [(0, ⟨5, ["corvus:user:1"]⟩), (5, ⟨0, ["corvus:user:2", "corvus:user:1"]⟩)] := rfl
  have server : Enumerates glob (scanPattern {} "user:") users
      (invalidatePrefix twoBatches users).1 (invalidatePrefix twoBatches users).2 := by
    rw [rounds]
    constructor
    · decide +kernel
    · intro _ key matching present _
      have isKey := lookup_storeOf.mp present
      simp only [List.mem_cons, List.not_mem_nil, or_false] at isKey
      rcases isKey with rfl | rfl | rfl
      · exact ⟨_, List.mem_cons_self, by decide⟩
      · exact ⟨_, List.mem_cons_of_mem _ List.mem_cons_self, by decide⟩
      · exact absurd matching (by decide +kernel)
  have exactly := removesExactly_iff (by decide) (by decide) server
  refine exactly.1.mpr (exactly.2 glob_documented (by decide +kernel) fun key present _ => ?_)
  have isKey := lookup_storeOf.mp present
  simp only [List.mem_cons, List.not_mem_nil, or_false] at isKey
  rcases isKey with rfl | rfl | rfl <;> decide

/-- The keys with the prefix are gone, and no others, for every server that matches
patterns as documented. -/
def PrefixesAreRemoved : Prop :=
  ∀ (glob : String → String → Bool) (config : CacheConfig) (keyPrefix : String)
    (redis : Redis) (replies : List ScanReply), GlobServer glob →
    (∀ reply ∈ replies, reply.cursor < 2 ^ 63) → (∃ reply ∈ replies, reply.cursor = 0) →
    Enumerates glob (scanPattern config keyPrefix) redis (invalidatePrefix replies redis).1
      (invalidatePrefix replies redis).2 →
    RemovesExactly config keyPrefix redis (invalidatePrefix replies redis).2

/-- A question mark in the prefix stands for any character. -/
theorem not_prefixesAreRemoved : ¬PrefixesAreRemoved := by
  intro removed
  have rounds : (invalidatePrefix [⟨0, ["corvus:ab"]⟩] (storeOf ["corvus:ab"])).1 =
      [(0, ⟨0, ["corvus:ab"]⟩)] := rfl
  have server : Enumerates glob (scanPattern {} "a?") (storeOf ["corvus:ab"])
      (invalidatePrefix [⟨0, ["corvus:ab"]⟩] (storeOf ["corvus:ab"])).1
      (invalidatePrefix [⟨0, ["corvus:ab"]⟩] (storeOf ["corvus:ab"])).2 := by
    rw [rounds]
    constructor
    · decide +kernel
    · intro _ key _ present _
      obtain rfl := List.mem_singleton.mp (lookup_storeOf.mp present)
      exact ⟨_, List.mem_cons_self, List.mem_cons_self⟩
  have removes := removed glob {} "a?" (storeOf ["corvus:ab"]) [⟨0, ["corvus:ab"]⟩]
    glob_documented (by decide) (by decide) server "corvus:ab"
    (lookup_storeOf.mpr List.mem_cons_self)
  have gone : (invalidatePrefix [⟨0, ["corvus:ab"]⟩] (storeOf ["corvus:ab"])).2.lookup
      "corvus:ab" = none := by decide +kernel
  have starts : StartsWith {} "a?" "corvus:ab" := removes.mp gone
  unfold StartsWith at starts
  revert starts
  decide

end Corvus.Db
