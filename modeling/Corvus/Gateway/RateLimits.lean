import Corvus.Gateway.RateLimiter
import Mathlib.Tactic.NormNum

/-!
# What the rate limiter grants a client

Each client has an allowance of its own.  The limiter keeps it in the client's
bucket, or keeps no bucket when the client has never called or has not called
for so long that the allowance is full again.
-/

namespace Corvus.Gateway

/-! ## The allowance of one client -/

/-- The allowance of a client at a time. -/
def RateLimitConfig.level (config : RateLimitConfig) (own : Option (Fill ℚ)) (now : ℚ) : ℚ :=
  Allowance.level (config.maxTokens : ℚ) config.refillRate own now

/-- Use one token of the allowance. -/
def RateLimitConfig.take (config : RateLimitConfig) (own : Option (Fill ℚ)) (now : ℚ) :
    Bool × Option (Fill ℚ) :=
  Allowance.take (config.maxTokens : ℚ) config.refillRate own now

/-- How long to wait with so many tokens. -/
def RateLimitConfig.retryFrom (config : RateLimitConfig) (tokens : ℚ) : WithTop ℤ :=
  if 1 ≤ tokens then 0
  else if config.refillRate = 0 then ⊤
  else (⌈(1 - tokens) / config.refillRate⌉ : ℤ)

/-- The answers to a client that is alone. -/
def serve (config : RateLimitConfig) (own : Option (Fill ℚ)) (now : ℚ) :
    Call → Answer × Option (Fill ℚ)
  | .allow _ => (.allowed (config.take own now).1, (config.take own now).2)
  | .remaining _ => (.remaining (max 0 ⌊config.level own now⌋).toNat, own)
  | .retryAfter _ => (.retryAfter (config.retryFrom (config.level own now)), own)

def serveAll (config : RateLimitConfig) : Option (Fill ℚ) → List (ℚ × Call) → List Answer
  | _, [] => []
  | own, (now, call) :: rest =>
      (serve config own now call).1 :: serveAll config (serve config own now call).2 rest

/-- Refilling is not negative, and a bucket is full by the time it may be removed. -/
structure RateLimitConfig.Patient (config : RateLimitConfig) : Prop where
  rate_nonneg : 0 ≤ config.refillRate
  full_at_ttl : (config.maxTokens : ℚ) ≤ config.refillRate * config.entryTtl

/-! ## What the limiter keeps -/

/-- What the limiter has for a client shows its allowance. -/
def ShowsAllowance (config : RateLimitConfig) (now : ℚ) :
    Option TokenBucket → Option (Fill ℚ) → Prop
  | none, none => True
  | none, some fill =>
      Allowance.Refilled (config.maxTokens : ℚ) config.refillRate fill now
  | some bucket, some fill =>
      bucket.tokens = fill.tokens ∧ bucket.lastRefill = fill.since ∧
        bucket.lastAccess = fill.since
  | some _, none => False

/-- The limiter shows the allowance of a client, as it is from a time on. -/
structure Tracks (limiter : RateLimiter) (config : RateLimitConfig) (key : String)
    (own : Option (Fill ℚ)) (now : ℚ) : Prop where
  config_eq : limiter.config = config
  sound : Allowance.Sound (config.maxTokens : ℚ) own now
  shows : ShowsAllowance config now (limiter.buckets.lookup key) own

section Lookup

variable {buckets : List (String × TokenBucket)} {key other : String}

theorem lookup_filter (keep : String × TokenBucket → Bool)
    (nodup : (buckets.map Prod.fst).Nodup) :
    (buckets.filter keep).lookup key =
      (buckets.lookup key).filter fun bucket => keep (key, bucket) := by
  induction buckets with
  | nil => rfl
  | cons entry rest ih =>
      obtain ⟨name, bucket⟩ := entry
      rw [List.map_cons, List.nodup_cons] at nodup
      by_cases same : key = name
      · subst same
        rw [List.lookup_cons_self, Option.filter_some]
        cases kept : keep (key, bucket) with
        | true =>
            rw [List.filter_cons_of_pos kept, List.lookup_cons_self]
            rfl
        | false =>
            rw [List.filter_cons_of_neg (by simp [kept])]
            have absent : (rest.filter keep).lookup key = none := by
              rw [List.lookup_eq_none_iff]
              rintro ⟨name, value⟩ member
              have found : name ∈ rest.map Prod.fst :=
                List.mem_map_of_mem (List.mem_filter.mp member).1
              simp only [bne_iff_ne, ne_eq]
              rintro rfl
              exact nodup.1 found
            rw [absent]
            rfl
      · have skipped : (key == name) = false := beq_eq_false_iff_ne.mpr same
        rw [List.lookup_cons, skipped]
        cases kept : keep (name, bucket) with
        | true =>
            rw [List.filter_cons_of_pos kept, List.lookup_cons, skipped]
            exact ih nodup.2
        | false =>
            rw [List.filter_cons_of_neg (by simp [kept])]
            exact ih nodup.2

end Lookup

namespace RateLimiter

theorem lookup_put_self (limiter : RateLimiter) (key : String) (bucket : TokenBucket) :
    (limiter.put key bucket).buckets.lookup key = some bucket :=
  List.lookup_cons_self

theorem lookup_put_of_ne (limiter : RateLimiter) {key other : String} (bucket : TokenBucket)
    (different : other ≠ key) :
    (limiter.put key bucket).buckets.lookup other = limiter.buckets.lookup other := by
  have skipped : (other == key) = false := beq_eq_false_iff_ne.mpr different
  simp only [put]
  rw [List.lookup_cons, skipped]
  simp only
  rw [lookup_filter _ limiter.keys_nodup]
  cases limiter.buckets.lookup other with
  | none => rfl
  | some found => simp [Option.filter_some, different]

@[simp] theorem config_put (limiter : RateLimiter) (key : String) (bucket : TokenBucket) :
    (limiter.put key bucket).config = limiter.config := rfl

@[simp] theorem config_maybeCleanup (limiter : RateLimiter) (now : ℚ) :
    (limiter.maybeCleanup now).config = limiter.config := by
  unfold maybeCleanup
  split <;> rfl

theorem config_allowUncleaned (limiter : RateLimiter) (now : ℚ) (key : String) :
    (limiter.allowUncleaned now key).2.config = limiter.config := by
  simp only [allowUncleaned]
  split
  · rfl
  · rfl

end RateLimiter

/-! ## The limiter answers from the allowance -/

/-- Refilling a bucket brings it to the level of the allowance. -/
theorem refill_shows {config : RateLimitConfig} {now later : ℚ} {bucket : TokenBucket}
    {fill : Fill ℚ} (sound : Allowance.Sound (config.maxTokens : ℚ) (some fill) now)
    (ordered : now ≤ later) (shows : ShowsAllowance config now (some bucket) (some fill)) :
    (RateLimiter.refill config bucket later).tokens = config.level (some fill) later ∧
      (RateLimiter.refill config bucket later).lastRefill = later := by
  obtain ⟨tokens, lastRefill, _⟩ := shows
  obtain ⟨_, bounded, before⟩ := sound fill rfl
  unfold RateLimiter.refill
  split
  · rename_i notLater
    rw [lastRefill] at notLater
    have same : fill.since = later := le_antisymm (before.trans ordered) (by linarith)
    refine ⟨?_, lastRefill.trans same⟩
    rw [tokens, ← same]
    exact (Allowance.level_since bounded).symm
  · refine ⟨?_, rfl⟩
    simp only [tokens, lastRefill]
    rfl

/-- Without a bucket the allowance is full. -/
theorem level_of_absent {config : RateLimitConfig} (patient : config.Patient)
    {now later : ℚ} {own : Option (Fill ℚ)} (ordered : now ≤ later)
    (shows : ShowsAllowance config now none own) :
    config.level own later = config.maxTokens := by
  cases own with
  | none => rfl
  | some fill => exact Allowance.level_of_refilled patient.rate_nonneg shows ordered

section Steps

variable {config : RateLimitConfig} {limiter : RateLimiter} {key other : String}
variable {own : Option (Fill ℚ)} {now after : ℚ}

theorem Tracks.of_le (patient : config.Patient) (tracks : Tracks limiter config key own now)
    (ordered : now ≤ after) : Tracks limiter config key own after := by
  refine ⟨tracks.config_eq, tracks.sound.of_le ordered, ?_⟩
  have shows := tracks.shows
  cases found : limiter.buckets.lookup key with
  | some bucket =>
      rw [found] at shows
      cases own with
      | none => exact shows
      | some fill => exact shows
  | none =>
      rw [found] at shows
      cases own with
      | none => trivial
      | some fill =>
          have gained : (now - fill.since) * config.refillRate ≤
              (after - fill.since) * config.refillRate :=
            mul_le_mul_of_nonneg_right (sub_le_sub_right ordered _) patient.rate_nonneg
          exact le_trans shows (add_le_add_right gained _)

/-- The bucket `allow` works on is at the level of the allowance. -/
theorem Tracks.bucketFor (patient : config.Patient)
    (tracks : Tracks limiter config key own now) :
    (limiter.bucketFor now key).tokens = config.level own now ∧
      (limiter.bucketFor now key).lastRefill = now := by
  have shows := tracks.shows
  unfold RateLimiter.bucketFor
  rw [tracks.config_eq]
  cases found : limiter.buckets.lookup key with
  | none =>
      rw [found] at shows
      exact ⟨(level_of_absent patient (le_refl now) shows).symm, rfl⟩
  | some bucket =>
      rw [found] at shows
      cases own with
      | none => exact shows.elim
      | some fill => exact refill_shows tracks.sound (le_refl now) shows

/-- `allow`, apart from the cleanup, takes from the allowance of its client. -/
theorem Tracks.allowUncleaned (patient : config.Patient)
    (tracks : Tracks limiter config key own now) :
    (limiter.allowUncleaned now key).1 = (config.take own now).1 ∧
      Tracks (limiter.allowUncleaned now key).2 config key (config.take own now).2 now := by
  obtain ⟨tokens, lastRefill⟩ := tracks.bucketFor patient
  have capacityNonneg : (0 : ℚ) ≤ config.maxTokens := Nat.cast_nonneg _
  have sound : Allowance.Sound (config.maxTokens : ℚ) (config.take own now).2 now :=
    Allowance.sound_take capacityNonneg patient.rate_nonneg tracks.sound (le_refl now)
  simp only [RateLimitConfig.take, Allowance.take] at sound ⊢
  simp only [RateLimitConfig.level] at tokens
  simp only [RateLimiter.allowUncleaned, tokens, lastRefill]
  split
  · rename_i enough
    rw [if_pos enough] at sound
    refine ⟨rfl, tracks.config_eq, sound, ?_⟩
    rw [RateLimiter.lookup_put_self]
    exact ⟨rfl, rfl, rfl⟩
  · rename_i tooFew
    rw [if_neg tooFew] at sound
    refine ⟨rfl, tracks.config_eq, sound, ?_⟩
    rw [RateLimiter.lookup_put_self]
    exact ⟨rfl, rfl, rfl⟩

theorem Tracks.put_of_ne {bucket : TokenBucket} (tracks : Tracks limiter config key own now)
    (different : key ≠ other) : Tracks (limiter.put other bucket) config key own now := by
  refine ⟨tracks.config_eq, tracks.sound, ?_⟩
  rw [RateLimiter.lookup_put_of_ne limiter bucket different]
  exact tracks.shows

theorem Tracks.allowUncleaned_of_ne (tracks : Tracks limiter config key own now)
    (different : key ≠ other) :
    Tracks (limiter.allowUncleaned now other).2 config key own now := by
  simp only [RateLimiter.allowUncleaned]
  split <;> exact tracks.put_of_ne different

/-- A bucket is removed only when its allowance is full. -/
theorem Tracks.maybeCleanup (patient : config.Patient)
    (tracks : Tracks limiter config key own now) :
    Tracks (limiter.maybeCleanup now) config key own now := by
  unfold RateLimiter.maybeCleanup
  split
  · exact tracks
  · refine ⟨tracks.config_eq, tracks.sound, ?_⟩
    have shows := tracks.shows
    simp only
    rw [lookup_filter _ limiter.keys_nodup, tracks.config_eq]
    cases found : limiter.buckets.lookup key with
    | none =>
        rw [found] at shows
        exact shows
    | some bucket =>
        rw [found] at shows
        rw [Option.filter_some]
        split
        · exact shows
        · rename_i removed
          cases own with
          | none => exact shows.elim
          | some fill =>
              obtain ⟨_, _, lastAccess⟩ := shows
              have unused : (config.entryTtl : ℚ) < now - fill.since := by
                simp only [RateLimiter.keeps, lastAccess, Bool.not_eq_true,
                  decide_eq_false_iff_not, not_not] at removed
                exact removed
              have nonneg := (tracks.sound fill rfl).1
              have gained : config.refillRate * config.entryTtl ≤
                  config.refillRate * (now - fill.since) :=
                mul_le_mul_of_nonneg_left unused.le patient.rate_nonneg
              have full := patient.full_at_ttl
              change (config.maxTokens : ℚ) ≤
                fill.tokens + (now - fill.since) * config.refillRate
              rw [mul_comm (now - fill.since)]
              linarith

/-- What is asked without changing anything is answered from the allowance. -/
theorem Tracks.remaining (patient : config.Patient)
    (tracks : Tracks limiter config key own now) :
    limiter.remaining now key = (max 0 ⌊config.level own now⌋).toNat := by
  have shows := tracks.shows
  unfold RateLimiter.remaining
  rw [tracks.config_eq]
  cases found : limiter.buckets.lookup key with
  | none =>
      rw [found] at shows
      rw [level_of_absent patient (le_refl now) shows]
      simp
  | some bucket =>
      rw [found] at shows
      cases own with
      | none => exact shows.elim
      | some fill =>
          simp only
          rw [(refill_shows tracks.sound (le_refl now) shows).1]

theorem Tracks.retryAfter (patient : config.Patient) (someTokens : 1 ≤ config.maxTokens)
    (tracks : Tracks limiter config key own now) :
    limiter.retryAfter now key = config.retryFrom (config.level own now) := by
  have shows := tracks.shows
  unfold RateLimiter.retryAfter
  rw [tracks.config_eq]
  cases found : limiter.buckets.lookup key with
  | none =>
      rw [found] at shows
      have enough : (1 : ℚ) ≤ config.maxTokens := by exact_mod_cast someTokens
      rw [level_of_absent patient (le_refl now) shows, RateLimitConfig.retryFrom, if_pos enough]
  | some bucket =>
      rw [found] at shows
      cases own with
      | none => exact shows.elim
      | some fill =>
          simp only
          rw [(refill_shows tracks.sound (le_refl now) shows).1]
          rfl

end Steps

/-! ## Runs -/

/-- The calls whose answers show the allowance: an absent bucket is answered like a full
one, and a full one has a token. -/
def Call.Answerable (config : RateLimitConfig) : Call → Prop
  | .retryAfter _ => 1 ≤ config.maxTokens
  | _ => True

/-- A way to perform calls that answers each client from its allowance. -/
structure Follows (config : RateLimitConfig)
    (perform : RateLimiter → ℚ → Call → Answer × RateLimiter) : Prop where
  own : ∀ limiter own now call, Tracks limiter config call.key own now →
    call.Answerable config →
    (perform limiter now call).1 = (serve config own now call).1 ∧
      Tracks (perform limiter now call).2 config call.key (serve config own now call).2 now
  others : ∀ limiter key own now call, Tracks limiter config key own now → key ≠ call.key →
    Tracks (perform limiter now call).2 config key own now

theorem follows_performUncleaned {config : RateLimitConfig} (patient : config.Patient) :
    Follows config RateLimiter.performUncleaned := by
  constructor
  · intro limiter own now call tracks answerable
    cases call with
    | allow key =>
        obtain ⟨granted, after⟩ := tracks.allowUncleaned patient
        exact ⟨congrArg Answer.allowed granted, after⟩
    | remaining key => exact ⟨congrArg Answer.remaining (tracks.remaining patient), tracks⟩
    | retryAfter key =>
        exact ⟨congrArg Answer.retryAfter (tracks.retryAfter patient answerable), tracks⟩
  · intro limiter key own now call tracks different
    cases call with
    | allow other => exact tracks.allowUncleaned_of_ne different
    | remaining other => exact tracks
    | retryAfter other => exact tracks

theorem follows_perform {config : RateLimitConfig} (patient : config.Patient) :
    Follows config RateLimiter.perform := by
  constructor
  · intro limiter own now call tracks answerable
    cases call with
    | allow key =>
        obtain ⟨granted, after⟩ := (tracks.maybeCleanup patient).allowUncleaned patient
        exact ⟨congrArg Answer.allowed granted, after⟩
    | remaining key => exact ⟨congrArg Answer.remaining (tracks.remaining patient), tracks⟩
    | retryAfter key =>
        exact ⟨congrArg Answer.retryAfter (tracks.retryAfter patient answerable), tracks⟩
  · intro limiter key own now call tracks different
    cases call with
    | allow other => exact (tracks.maybeCleanup patient).allowUncleaned_of_ne different
    | remaining other => exact tracks
    | retryAfter other => exact tracks

/-- A new limiter shows the allowances of clients that have never called. -/
theorem tracks_construct (config : RateLimitConfig) (key : String) (start now : ℚ) :
    Tracks (RateLimiter.construct config start) config key none now :=
  ⟨rfl, (fun _ eq => nomatch eq), trivial⟩

section Run

variable {config : RateLimitConfig}
variable {perform : RateLimiter → ℚ → Call → Answer × RateLimiter}

/-- The calls for a client. -/
def callsFor (key : String) (calls : List (ℚ × Call)) : List (ℚ × Call) :=
  calls.filter fun entry => entry.2.key = key

def allowCalls (calls : List (ℚ × String)) : List (ℚ × Call) :=
  calls.map fun entry => (entry.1, .allow entry.2)

/-- The answers to a client are those of its allowance, whatever others call. -/
theorem answersFor_runWith (patient : config.Patient) (follows : Follows config perform)
    {calls : List (ℚ × Call)} {limiter : RateLimiter} {key : String} {own : Option (Fill ℚ)}
    {now : ℚ} (ordered : InOrder calls) (future : ∀ entry ∈ calls, now ≤ entry.1)
    (answerable : ∀ entry ∈ calls, entry.2.Answerable config)
    (tracks : Tracks limiter config key own now) :
    answersFor key calls (RateLimiter.runWith perform limiter calls) =
      serveAll config own (callsFor key calls) := by
  induction calls generalizing limiter own now with
  | nil => rfl
  | cons entry rest ih =>
      obtain ⟨time, call⟩ := entry
      obtain ⟨later, restOrdered⟩ := List.pairwise_cons.mp ordered
      have atTime := tracks.of_le patient (future _ List.mem_cons_self)
      have restAnswerable : ∀ entry ∈ rest, entry.2.Answerable config :=
        fun entry member => answerable entry (List.mem_cons_of_mem _ member)
      simp only [answersFor, RateLimiter.runWith, List.zip_cons_cons, callsFor]
      by_cases isOwn : call.key = key
      · subst isOwn
        obtain ⟨answer, after⟩ :=
          follows.own limiter own time call atTime (answerable _ List.mem_cons_self)
        rw [List.filter_cons_of_pos (by simp), List.filter_cons_of_pos (by simp),
          List.map_cons, serveAll, answer]
        exact congrArg _ (ih restOrdered later restAnswerable after)
      · have after := follows.others limiter key own time call atTime (Ne.symm isOwn)
        rw [List.filter_cons_of_neg (by simpa using isOwn),
          List.filter_cons_of_neg (by simpa using isOwn)]
        exact ih restOrdered later restAnswerable after

/-- What a client is granted in an interval is what it takes from its allowance. -/
theorem admittedIn_runWith (patient : config.Patient) (follows : Follows config perform)
    {calls : List (ℚ × String)} {limiter : RateLimiter} {key : String}
    {own : Option (Fill ℚ)} {now start stop : ℚ}
    (ordered : calls.Pairwise fun earlier later => earlier.1 ≤ later.1)
    (future : ∀ entry ∈ calls, now ≤ entry.1) (tracks : Tracks limiter config key own now) :
    admittedIn key start stop (allowCalls calls)
        (RateLimiter.runWith perform limiter (allowCalls calls)) =
      Allowance.takenIn (config.maxTokens : ℚ) config.refillRate start stop own
        ((calls.filter fun entry => entry.2 = key).map Prod.fst) := by
  induction calls generalizing limiter own now with
  | nil => rfl
  | cons entry rest ih =>
      obtain ⟨time, client⟩ := entry
      obtain ⟨later, restOrdered⟩ := List.pairwise_cons.mp ordered
      have atTime := tracks.of_le patient (future _ List.mem_cons_self)
      simp only [admittedIn, allowCalls, List.map_cons, RateLimiter.runWith,
        List.zip_cons_cons, List.countP_cons]
      by_cases isOwn : client = key
      · subst isOwn
        obtain ⟨answer, after⟩ := follows.own limiter own time (.allow client) atTime trivial
        rw [List.filter_cons_of_pos (by simp), List.map_cons, Allowance.takenIn, Nat.add_comm]
        congr 1
        · simp only [answer, serve, RateLimitConfig.take, Answer.allowed.injEq, true_and,
            decide_eq_true_eq]
        · exact ih restOrdered later after
      · have after := follows.others limiter key own time (.allow client) atTime (Ne.symm isOwn)
        rw [List.filter_cons_of_neg (by simpa using isOwn)]
        have notOwn : ¬(Call.allow client = .allow key) := fun same =>
          isOwn (Call.allow.inj same)
        simp only [notOwn, false_and, decide_false, Bool.false_eq_true, if_false, Nat.add_zero]
        exact ih restOrdered later after

end Run

/-- Some time is before all calls. -/
theorem exists_before {Request : Type} (calls : List (ℚ × Request)) :
    ∃ now, ∀ entry ∈ calls, now ≤ entry.1 := by
  induction calls with
  | nil => exact ⟨0, fun entry member => nomatch member⟩
  | cons first rest ih =>
      obtain ⟨now, before⟩ := ih
      refine ⟨min first.1 now, fun entry member => ?_⟩
      rcases List.mem_cons.mp member with rfl | inRest
      · exact min_le_left _ _
      · exact (min_le_right _ _).trans (before entry inRest)

/-- With a rate that is not negative, no client is granted more in an interval than a full
bucket and what is refilled meanwhile. -/
theorem admitted_le {config : RateLimitConfig} (nonneg : 0 ≤ config.refillRate)
    (enough : (config.maxTokens : ℚ) ≤ config.refillRate * config.entryTtl)
    {calls : List (ℚ × String)}
    (ordered : calls.Pairwise fun earlier later => earlier.1 ≤ later.1)
    (created start stop : ℚ) (interval : start ≤ stop) (key : String) :
    (admittedIn key start stop (allowCalls calls)
        ((RateLimiter.construct config created).run (allowCalls calls)) : ℚ) ≤
      config.maxTokens + config.refillRate * (stop - start) := by
  have patient : config.Patient := ⟨nonneg, enough⟩
  have capacityNonneg : (0 : ℚ) ≤ config.maxTokens := Nat.cast_nonneg _
  obtain ⟨now, future⟩ := exists_before calls
  have tracks := tracks_construct config key created now
  have times : ((calls.filter fun entry => entry.2 = key).map Prod.fst).Pairwise (· ≤ ·) :=
    List.pairwise_map.mpr (ordered.sublist List.filter_sublist)
  have laterTimes : ∀ time ∈ (calls.filter fun entry => entry.2 = key).map Prod.fst,
      now ≤ time := by
    intro time member
    obtain ⟨entry, kept, rfl⟩ := List.mem_map.mp member
    exact future entry (List.mem_filter.mp kept).1
  rw [RateLimiter.run, admittedIn_runWith patient (follows_perform patient) ordered future tracks]
  exact Allowance.takenIn_le capacityNonneg nonneg tracks.sound times laterTimes interval

/-- The default configuration, with clients that call at the same time. -/
theorem admitted_le_default :
    (admittedIn "a" 0 1 (allowCalls [(0, "a"), (0, "b"), (1, "a")])
        ((RateLimiter.construct {} 0).run (allowCalls [(0, "a"), (0, "b"), (1, "a")])) : ℚ) ≤
      100 + 10 * (1 - 0) :=
  @admitted_le {} (by norm_num) (by norm_num) _ (by simp) 0 0 1 (by norm_num) "a"

/-- The bound on what is granted, for all configurations with the stated relation. -/
def GrantsAreBounded : Prop :=
  ∀ (config : RateLimitConfig) (calls : List (ℚ × String)) (created start stop : ℚ)
    (key : String),
    (config.maxTokens : ℚ) ≤ config.refillRate * config.entryTtl →
    calls.Pairwise (fun earlier later => earlier.1 ≤ later.1) → start ≤ stop →
    (admittedIn key start stop (allowCalls calls)
        ((RateLimiter.construct config created).run (allowCalls calls)) : ℚ) ≤
      config.maxTokens + config.refillRate * (stop - start)

/-- A rate and a time to live that are both negative. -/
def negativeConfig : RateLimitConfig where
  maxTokens := 1
  refillRate := -1
  cleanupInterval := 0
  entryTtl := -1

theorem not_grantsAreBounded : ¬GrantsAreBounded := by
  intro bounded
  -- Every call removes the bucket of the call before it.
  have bound := bounded negativeConfig [(0, "a"), (0, "a")] 0 0 0 "a"
    (by norm_num [negativeConfig]) (by simp) (le_refl 0)
  have granted : admittedIn "a" 0 0 (allowCalls [(0, "a"), (0, "a")])
      ((RateLimiter.construct negativeConfig 0).run (allowCalls [(0, "a"), (0, "a")])) = 2 := by
    decide +kernel
  rw [granted] at bound
  norm_num [negativeConfig] at bound

/-! ## Clients and each other -/

/-- The answers to a client depend on its own calls only, and not on the cleanups. -/
theorem answers_independent {config : RateLimitConfig} (nonneg : 0 ≤ config.refillRate)
    (someTokens : 1 ≤ config.maxTokens)
    (enough : (config.maxTokens : ℚ) ≤ config.refillRate * config.entryTtl)
    {left right : List (ℚ × Call)} (leftOrdered : InOrder left) (rightOrdered : InOrder right)
    {key : String} (same : callsFor key left = callsFor key right)
    (leftCreated rightCreated created : ℚ) :
    answersFor key left ((RateLimiter.construct config leftCreated).run left) =
        answersFor key right ((RateLimiter.construct config rightCreated).run right) ∧
      answersFor key left ((RateLimiter.construct config leftCreated).run left) =
        answersFor key left ((RateLimiter.construct config created).runUncleaned left) := by
  have patient : config.Patient := ⟨nonneg, enough⟩
  have answerable : ∀ call : Call, call.Answerable config := by
    intro call
    cases call with
    | retryAfter _ => exact someTokens
    | allow _ => trivial
    | remaining _ => trivial
  obtain ⟨leftNow, leftFuture⟩ := exists_before left
  obtain ⟨rightNow, rightFuture⟩ := exists_before right
  have leftAnswers :
      answersFor key left ((RateLimiter.construct config leftCreated).run left) =
        serveAll config none (callsFor key left) :=
    answersFor_runWith patient (follows_perform patient) leftOrdered leftFuture
      (fun entry _ => answerable entry.2) (tracks_construct config key leftCreated leftNow)
  have rightAnswers :
      answersFor key right ((RateLimiter.construct config rightCreated).run right) =
        serveAll config none (callsFor key right) :=
    answersFor_runWith patient (follows_perform patient) rightOrdered rightFuture
      (fun entry _ => answerable entry.2) (tracks_construct config key rightCreated rightNow)
  have uncleaned :
      answersFor key left ((RateLimiter.construct config created).runUncleaned left) =
        serveAll config none (callsFor key left) :=
    answersFor_runWith patient (follows_performUncleaned patient) leftOrdered leftFuture
      (fun entry _ => answerable entry.2) (tracks_construct config key created leftNow)
  rw [leftAnswers, rightAnswers, uncleaned, same]
  exact ⟨rfl, rfl⟩

/-- A client alone, and beside another one. -/
theorem answers_independent_default :
    answersFor "a" [(0, .allow "a"), (700, .remaining "a")]
        ((RateLimiter.construct {} 0).run [(0, .allow "a"), (700, .remaining "a")]) =
      answersFor "a" [(0, .allow "a"), (650, .allow "b"), (700, .remaining "a")]
        ((RateLimiter.construct {} 0).run
          [(0, .allow "a"), (650, .allow "b"), (700, .remaining "a")]) :=
  (@answers_independent {} (by norm_num) (by norm_num) (by norm_num)
    [(0, .allow "a"), (700, .remaining "a")]
    [(0, .allow "a"), (650, .allow "b"), (700, .remaining "a")]
    (by simp [InOrder]) (by simp [InOrder]; norm_num) "a" (by decide +kernel) 0 0 0).1

/-- The independence of clients, for all configurations with the stated relation. -/
def ClientsAreIndependent : Prop :=
  ∀ (config : RateLimitConfig) (left right : List (ℚ × Call)) (key : String)
    (leftCreated rightCreated created : ℚ),
    1 ≤ config.maxTokens →
    (config.maxTokens : ℚ) ≤ config.refillRate * config.entryTtl →
    InOrder left → InOrder right → callsFor key left = callsFor key right →
    answersFor key left ((RateLimiter.construct config leftCreated).run left) =
        answersFor key right ((RateLimiter.construct config rightCreated).run right) ∧
      answersFor key left ((RateLimiter.construct config leftCreated).run left) =
        answersFor key left ((RateLimiter.construct config created).runUncleaned left)

theorem not_clientsAreIndependent : ¬ClientsAreIndependent := by
  intro independent
  -- The other client's call removes a bucket that is not full.
  have same := (independent negativeConfig [(0, .allow "a"), (0, .remaining "a")]
    [(0, .allow "a"), (0, .allow "b"), (0, .remaining "a")] "a" 0 0 0 (le_refl 1)
    (by norm_num [negativeConfig]) (by simp [InOrder]) (by simp [InOrder])
    (by decide +kernel)).1
  revert same
  decide +kernel

end Corvus.Gateway
