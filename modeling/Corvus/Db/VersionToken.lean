import Corvus.Machine
import Corvus.Db.CacheAside

/-!
# How long a version token is good for

A reader holds the version it read as a token and expects its put to be refused
once a writer has invalidated the key.  Redis drops the counter when its time to
live runs out, and the next invalidation starts counting at one again, so a
token can come back while a reader still holds it.  This module determines
exactly when a put within the counter's time to live accepts an outdated token.
-/

namespace Corvus.Db.VersionToken

open RedisConnection CacheAside

/-- One command on the server, or the passing of time. -/
inductive CacheEvent where
  | tick (span : Nat)
  | version (key : String)
  | putIfVersion (key expectedVersion value : String) (ttlSeconds : Int)
  | invalidateVersioned (key : String)
  deriving DecidableEq, Repr

/-- Calls take effect on the server one at a time; an invalidation is an event
when its script runs to its end. -/
def cacheStep (config : CacheConfig) (redis : Redis) : CacheEvent → Option Redis
  | .tick span => some (redis.advance span)
  | .version key => some (version config key .healthy redis).2
  | .putIfVersion key expectedVersion value ttlSeconds =>
      some (putIfVersion config key expectedVersion value ttlSeconds .healthy redis).2
  | .invalidateVersioned key =>
      match invalidateVersioned config key .healthy redis with
      | (true, next) => some next
      | (false, _) => none

/-- The calls of any number of processes, from an empty server on. -/
def cacheMachine (config : CacheConfig) : Machine Redis CacheEvent where
  initial redis := redis = ExpiringStore.empty
  step := cacheStep config

@[simp] theorem cacheMachine_step (config : CacheConfig) :
    (cacheMachine config).step = cacheStep config := rfl

/-- No call uses the version key of `key` as a data key, so that only the
counter's own time to live can drop it. -/
def SparesCounter (config : CacheConfig) (key : String) (_ : Redis) :
    CacheEvent → Prop
  | .putIfVersion other _ _ _ => config.versionKey key ≠ config.makeKey other
  | .invalidateVersioned other => config.versionKey key ≠ config.makeKey other
  | _ => True

instance (config : CacheConfig) (key : String) (redis : Redis) (event : CacheEvent) :
    Decidable (SparesCounter config key redis event) := by
  cases event <;> unfold SparesCounter <;> infer_instance

/-- The number the counter of `key` stands at, zero when Redis holds none. -/
def counter (config : CacheConfig) (key : String) (redis : Redis) : Int :=
  (countAt (config.versionKey key) redis).getD 0

/-- The put stores nothing and returns false. -/
def Refused (config : CacheConfig) (key token value : String) (ttlSeconds : Int)
    (redis : Redis) : Prop :=
  putIfVersion config key token value ttlSeconds .healthy redis = (false, redis)

variable {config : CacheConfig} {key : String}

/-- The counter stands at `count` and cannot run out before `horizon`. -/
def CounterHeld (config : CacheConfig) (key : String) (count : Int) (horizon : Nat)
    (redis : Redis) : Prop :=
  ∃ expiry, redis.lookup (config.versionKey key) =
      some { value := .integer count, expireAt := some expiry } ∧ horizon ≤ expiry

theorem CounterHeld.currentVersion {count : Int} {horizon : Nat} {redis : Redis}
    (held : CounterHeld config key count horizon redis) :
    currentVersion (config.versionKey key) redis = some count.repr := by
  obtain ⟨expiry, found, _⟩ := held
  simp [CacheAside.currentVersion, found, textOf]

theorem CounterHeld.counter_eq {count : Int} {horizon : Nat} {redis : Redis}
    (held : CounterHeld config key count horizon redis) :
    counter config key redis = count := by
  obtain ⟨expiry, found, _⟩ := held
  simp [counter, countAt, found, integer?]

/-! ## What one event does to the counter -/

/-- An invalidation that is an event ran its script to the end. -/
theorem invalidated_of_cacheStep {other : String} {redis next : Redis}
    (stepped : cacheStep config redis (.invalidateVersioned other) = some next) :
    ∃ reply, (kInvalidateVersioned (config.makeKey other) (config.versionKey other)
        config.versionTtlSeconds redis).1 = some reply ∧
      next = (kInvalidateVersioned (config.makeKey other) (config.versionKey other)
        config.versionTtlSeconds redis).2 := by
  simp only [cacheStep] at stepped
  split at stepped
  case h_1 ran =>
      cases stepped
      simp only [invalidateVersioned, Command.issue_healthy, Prod.mk.injEq,
        Option.isSome_iff_exists] at ran
      obtain ⟨⟨reply, answered⟩, rfl⟩ := ran
      exact ⟨reply, answered, rfl⟩
  case h_2 => cases stepped

theorem cacheStep_now {redis next : Redis} {event : CacheEvent}
    (stepped : cacheStep config redis event = some next) : redis.now ≤ next.now := by
  cases event with
  | tick span =>
      cases stepped
      exact Nat.le_add_right _ _
  | version other =>
      cases stepped
      simp [version, RedisConnection.get]
      split <;> exact Nat.le_refl _
  | putIfVersion other expected value ttl =>
      cases stepped
      simp [putIfVersion]
  | invalidateVersioned other =>
      obtain ⟨_, _, rfl⟩ := invalidated_of_cacheStep stepped
      simp

/-- Events other than an invalidation of the key put nothing new under its
counter. -/
theorem lookup_of_cacheStep {redis next : Redis} {event : CacheEvent}
    {entry : Entry RedisValue}
    (stepped : cacheStep config redis event = some next)
    (spares : SparesCounter config key redis event)
    (other : event ≠ .invalidateVersioned key)
    (found : next.lookup (config.versionKey key) = some entry) :
    redis.lookup (config.versionKey key) = some entry := by
  cases event with
  | tick span =>
      cases stepped
      exact ExpiringStore.lookup_of_lookup_advance found
  | version read =>
      cases stepped
      simp only [version, RedisConnection.get, Command.issue_healthy] at found
      split at found <;> exact found
  | putIfVersion written expected value ttl =>
      cases stepped
      rwa [putIfVersion, Command.issue_healthy, lookup_other_of_put spares] at found
  | invalidateVersioned written =>
      obtain ⟨_, _, rfl⟩ := invalidated_of_cacheStep stepped
      rwa [lookup_other_of_invalidated spares] at found
      intro same
      exact other (by rw [config.versionKey_injective same])

/-- Events other than an invalidation of the key leave its counter entry as it
is, as long as it does not run out. -/
theorem lookup_cacheStep {redis next : Redis} {event : CacheEvent}
    {entry : Entry RedisValue}
    (stepped : cacheStep config redis event = some next)
    (spares : SparesCounter config key redis event)
    (other : event ≠ .invalidateVersioned key)
    (found : redis.lookup (config.versionKey key) = some entry)
    (visible : entry.visibleAt next.now = true) :
    next.lookup (config.versionKey key) = some entry := by
  cases event with
  | tick span =>
      cases stepped
      exact ExpiringStore.lookup_advance_of_visibleAt found visible
  | version read =>
      cases stepped
      simp only [version, RedisConnection.get, Command.issue_healthy]
      split <;> exact found
  | putIfVersion written expected value ttl =>
      cases stepped
      rwa [putIfVersion, Command.issue_healthy, lookup_other_of_put spares]
  | invalidateVersioned written =>
      obtain ⟨_, _, rfl⟩ := invalidated_of_cacheStep stepped
      rwa [lookup_other_of_invalidated spares]
      intro same
      exact other (by rw [config.versionKey_injective same])

/-- An invalidation adds one to the counter and renews its time to live. -/
theorem counterHeld_of_invalidated {redis next : Redis}
    (positive : 0 < config.versionTtlSeconds)
    (stepped : cacheStep config redis (.invalidateVersioned key) = some next)
    (spares : SparesCounter config key redis (.invalidateVersioned key)) :
    CounterHeld config key (counter config key redis + 1)
      (deadline redis.now config.versionTtlSeconds) next := by
  obtain ⟨reply, answered, rfl⟩ := invalidated_of_cacheStep stepped
  obtain ⟨count, countEq, found⟩ :=
    lookup_version_of_invalidated positive spares answered
  exact ⟨_, by simpa [counter, countEq] using found, Nat.le_refl _⟩

/-! ## A reader's window -/

/-- Time does not run backwards along replayed events. -/
theorem execute_now {events : List CacheEvent} {redis last : Redis}
    (replayed : (cacheMachine config).execute redis events = some last) :
    redis.now ≤ last.now := by
  induction events generalizing redis with
  | nil =>
      cases replayed
      exact Nat.le_refl _
  | cons event rest ih =>
      simp only [Machine.execute, cacheMachine_step, Option.bind_eq_some_iff] at replayed
      obtain ⟨next, stepped, restReplayed⟩ := replayed
      exact Nat.le_trans (cacheStep_now stepped) (ih restReplayed)

/-- While a held counter cannot run out, it counts the invalidations. -/
theorem counterHeld_of_execute {events : List CacheEvent} {redis last : Redis}
    {count : Int} {horizon opened : Nat}
    (positive : 0 < config.versionTtlSeconds)
    (window : horizon = deadline opened config.versionTtlSeconds)
    (started : opened ≤ redis.now) (ended : last.now < horizon)
    (replayed : (cacheMachine config).execute redis events = some last)
    (spares : (cacheMachine config).Allows (SparesCounter config key) redis events)
    (held : CounterHeld config key count horizon redis) :
    CounterHeld config key (count + events.count (.invalidateVersioned key))
      horizon last := by
  induction events generalizing redis count with
  | nil =>
      cases replayed
      simpa using held
  | cons event rest ih =>
      simp only [Machine.execute, cacheMachine_step, Option.bind_eq_some_iff] at replayed
      obtain ⟨next, stepped, restReplayed⟩ := replayed
      have nextStarted := Nat.le_trans started (cacheStep_now stepped)
      have restSpares := spares.2 next stepped
      by_cases invalidates : event = .invalidateVersioned key
      · subst invalidates
        obtain ⟨expiry, found, later⟩ := counterHeld_of_invalidated positive stepped spares.1
        have renewed : CounterHeld config key (count + 1) horizon next := by
          rw [held.counter_eq] at found
          refine ⟨expiry, found, ?_⟩
          simp only [deadline] at later window
          omega
        have counted := ih nextStarted restReplayed restSpares renewed
        have total : count + 1 + (rest.count (.invalidateVersioned key) : Int) =
            count + (((.invalidateVersioned key :: rest).count
              (.invalidateVersioned key) : Nat) : Int) := by
          rw [List.count_cons_self]
          omega
        rwa [total] at counted
      · obtain ⟨expiry, found, later⟩ := held
        have visible : ({ value := .integer count, expireAt := some expiry } :
            Entry RedisValue).visibleAt next.now = true := by
          have reached := execute_now restReplayed
          simp only [Entry.visibleAt, decide_eq_true_eq]
          omega
        have kept := lookup_cacheStep stepped spares.1 invalidates found visible
        rw [List.count_cons_of_ne invalidates]
        exact ih nextStarted restReplayed restSpares ⟨expiry, kept, later⟩

/-- A put checks the counter's decimal text against the token. -/
theorem refused_iff_of_counterHeld {count : Int} {horizon : Nat} {redis : Redis}
    {token value : String} {ttlSeconds : Int}
    (held : CounterHeld config key count horizon redis) :
    Refused config key token value ttlSeconds redis ↔ token ≠ count.repr := by
  unfold Refused putIfVersion
  simp only [Command.issue_healthy]
  rcases kPutIfVersion_cases (config.makeKey key) (config.versionKey key) token value
      (config.effectiveTtl ttlSeconds) redis with
    ⟨same, stored⟩ | ⟨different, refused | failed⟩
  · rw [held.currentVersion, Option.some.injEq] at same
    rw [stored]
    simp [same]
  · rw [held.currentVersion, ne_eq, Option.some.injEq] at different
    rw [refused]
    simpa [eq_comm] using different
  · rw [held.currentVersion, ne_eq, Option.some.injEq] at different
    rw [failed]
    simpa [eq_comm] using different

/-- The token a reader took comes back: the counter an invalidation found and the
invalidations since spell it again. -/
def TokenReturned (config : CacheConfig) (key token : String) (atInvalidation : Redis)
    (invalidations : Nat) : Prop :=
  token = (counter config key atInvalidation + invalidations).repr

/-- A put within one time to live of the version read, with an invalidation in
between, is refused exactly when its token has not come back.  The token may be
any string, so nothing is assumed about how it was read. -/
theorem putIfVersion_refused_iff {before after : List CacheEvent}
    {atRead atInvalidation atPut : Redis} {token value : String} {ttlSeconds : Int}
    (readToInvalidation :
      (cacheMachine config).execute atRead before = some atInvalidation)
    (invalidationToPut : (cacheMachine config).execute atInvalidation
      (.invalidateVersioned key :: after) = some atPut)
    (spares : (cacheMachine config).Allows (SparesCounter config key) atInvalidation
      (.invalidateVersioned key :: after))
    (inTime : atPut.now < deadline atRead.now config.versionTtlSeconds) :
    Refused config key token value ttlSeconds atPut ↔
      ¬TokenReturned config key token atInvalidation
        (after.count (.invalidateVersioned key) + 1) := by
  have readFirst := execute_now readToInvalidation
  have putLast := execute_now invalidationToPut
  have positive : 0 < config.versionTtlSeconds := by
    simp only [deadline] at inTime
    omega
  simp only [Machine.execute, cacheMachine_step, Option.bind_eq_some_iff] at invalidationToPut
  obtain ⟨invalidated, stepped, replayed⟩ := invalidationToPut
  obtain ⟨expiry, found, later⟩ := counterHeld_of_invalidated positive stepped spares.1
  have held : CounterHeld config key (counter config key atInvalidation + 1)
      (deadline atRead.now config.versionTtlSeconds) invalidated := by
    refine ⟨expiry, found, ?_⟩
    simp only [deadline] at later ⊢
    omega
  have counted := counterHeld_of_execute positive rfl
    (Nat.le_trans readFirst (cacheStep_now stepped)) inTime replayed
    (spares.2 invalidated stepped) held
  rw [refused_iff_of_counterHeld counted, TokenReturned]
  have total : counter config key atInvalidation + 1 +
        (after.count (.invalidateVersioned key) : Int) =
      counter config key atInvalidation +
        ((after.count (.invalidateVersioned key) + 1 : Nat) : Int) := by
    omega
  rw [total]

/-- One invalidation, then nothing until the last instant of the counter. -/
def lapsingEvents : List CacheEvent := [.invalidateVersioned "k", .tick 600000]

def lapsingRead : Redis :=
  ((cacheMachine {}).execute .empty lapsingEvents).getD .empty

/-- The counter runs out and a second writer starts it again at one. -/
def lapsingWindow : List CacheEvent := [.tick 1, .invalidateVersioned "k"]

def lapsingPut : Redis :=
  ((cacheMachine {}).execute lapsingRead lapsingWindow).getD .empty

theorem spares_lapsing (redis : Redis) :
    SparesCounter {} "k" redis (.invalidateVersioned "k") := by
  have different : CacheConfig.versionKey {} "k" ≠ CacheConfig.makeKey {} "k" := by decide
  exact different

theorem putIfVersion_refused_iff_lapsing :
    Refused {} "k" "1" "stale" 60 lapsingPut ↔
      ¬TokenReturned {} "k" "1" (lapsingRead.advance 1) 1 := by
  have toInvalidation : (cacheMachine {}).execute lapsingRead [.tick 1] =
      some (lapsingRead.advance 1) := rfl
  have toPut : (cacheMachine {}).execute (lapsingRead.advance 1)
      [.invalidateVersioned "k"] = some lapsingPut := rfl
  exact putIfVersion_refused_iff toInvalidation toPut
    ⟨spares_lapsing _, fun _ _ => trivial⟩ (by decide)

/-! ## Tokens as they are read -/

/-- The counter key holds an integer if it holds anything. -/
def CounterIsInteger (config : CacheConfig) (key : String) (redis : Redis) : Prop :=
  ∀ entry, redis.lookup (config.versionKey key) = some entry →
    ∃ count, entry.value = .integer count

theorem counterIsInteger_of_reachable {redis : Redis}
    (reachable : (cacheMachine config).Reachable (SparesCounter config key) redis)
    (positive : 0 < config.versionTtlSeconds) :
    CounterIsInteger config key redis := by
  refine reachable.invariant ?_ ?_
  · rintro redis rfl entry found
    simp at found
  · intro redis event next integers spares stepped entry found
    by_cases invalidates : event = .invalidateVersioned key
    · subst invalidates
      obtain ⟨expiry, written, _⟩ := counterHeld_of_invalidated positive stepped spares
      rw [written] at found
      cases found
      exact ⟨_, rfl⟩
    · exact integers entry (lookup_of_cacheStep stepped spares invalidates found)

/-- Between invalidations the counter key changes only by being dropped. -/
theorem lookup_of_execute {events : List CacheEvent} {redis last : Redis}
    {entry : Entry RedisValue}
    (replayed : (cacheMachine config).execute redis events = some last)
    (spares : (cacheMachine config).Allows (SparesCounter config key) redis events)
    (quiet : .invalidateVersioned key ∉ events)
    (found : last.lookup (config.versionKey key) = some entry) :
    redis.lookup (config.versionKey key) = some entry := by
  induction events generalizing redis with
  | nil =>
      cases replayed
      exact found
  | cons event rest ih =>
      simp only [Machine.execute, cacheMachine_step, Option.bind_eq_some_iff] at replayed
      obtain ⟨next, stepped, restReplayed⟩ := replayed
      rw [List.mem_cons, not_or] at quiet
      have before := ih restReplayed (spares.2 next stepped) quiet.2
      exact lookup_of_cacheStep stepped spares.1 (Ne.symm quiet.1) before

/-- A token read from a counter comes back exactly when Redis has dropped the
counter by the first invalidation after the read, and exactly as many
invalidations follow as the token says. -/
theorem tokenReturned_iff_dropped {before : List CacheEvent}
    {atRead atInvalidation : Redis} {token : String} {invalidations : Nat}
    (nulFree : NulFree (config.versionKey key))
    (positive : 0 < config.versionTtlSeconds) (invalidated : 0 < invalidations)
    (reachable : (cacheMachine config).Reachable (SparesCounter config key) atRead)
    (read : (version config key .healthy atRead).1 = some token)
    (readToInvalidation :
      (cacheMachine config).execute atRead before = some atInvalidation)
    (spares : (cacheMachine config).Allows (SparesCounter config key) atRead before)
    (quiet : .invalidateVersioned key ∉ before) :
    TokenReturned config key token atInvalidation invalidations ↔
      atInvalidation.lookup (config.versionKey key) = none ∧
        token = (invalidations : Int).repr := by
  simp only [version, RedisConnection.get, Command.issue_healthy,
    cString_of_nulFree nulFree] at read
  cases still : atInvalidation.lookup (config.versionKey key) with
  | none => simp [TokenReturned, counter, countAt, still]
  | some entry =>
      have atReadFound := lookup_of_execute readToInvalidation spares quiet still
      obtain ⟨count, valueEq⟩ :=
        counterIsInteger_of_reachable reachable positive entry atReadFound
      simp only [atReadFound, valueEq, textOf, Option.map_some,
        repr_ne_empty, if_false, Option.some.injEq] at read
      subst read
      simp only [TokenReturned, counter, countAt, still, valueEq, integer?,
        Option.getD_some, reduceCtorEq, false_and, iff_false]
      intro same
      have equal := Int.repr_injective same
      omega

/-! ## The token that comes back -/

/-- A token is refused whenever some invalidation ran after it was read, within
one time to live of the put. -/
def TokensNeverReturn (config : CacheConfig) : Prop :=
  ∀ (key token value : String) (ttlSeconds : Int) (window : List CacheEvent)
    (atRead atPut : Redis),
    (cacheMachine config).Reachable (SparesCounter config key) atRead →
    version config key .healthy atRead = (some token, atRead) →
    (cacheMachine config).execute atRead window = some atPut →
    (cacheMachine config).Allows (SparesCounter config key) atRead window →
    .invalidateVersioned key ∈ window →
    atPut.now < deadline atRead.now config.versionTtlSeconds →
    Refused config key token value ttlSeconds atPut

/-- The token `1`, read in the counter's last millisecond, is accepted two events
later although an invalidation lies in between. -/
theorem not_tokensNeverReturn : ¬TokensNeverReturn {} := by
  intro promise
  have read : version {} "k" .healthy lapsingRead = (some "1", lapsingRead) := rfl
  have reachable : (cacheMachine {}).Reachable (SparesCounter {} "k") lapsingRead := by
    have replayed : (cacheMachine {}).execute .empty lapsingEvents =
        some lapsingRead := rfl
    refine ⟨.empty, rfl, Machine.runs_of_execute replayed ?_⟩
    exact ⟨spares_lapsing _, fun _ _ => ⟨trivial, fun _ _ => trivial⟩⟩
  have allowed : (cacheMachine {}).Allows (SparesCounter {} "k") lapsingRead
      lapsingWindow :=
    ⟨trivial, fun _ _ => ⟨spares_lapsing _, fun _ _ => trivial⟩⟩
  have refused := promise "k" "1" "stale" 60 lapsingWindow lapsingRead lapsingPut
    reachable read rfl allowed (by decide) (by decide)
  have accepted : (putIfVersion {} "k" "1" "stale" 60 .healthy lapsingPut).1 = true := rfl
  rw [Refused] at refused
  rw [refused] at accepted
  cases accepted

end Corvus.Db.VersionToken
