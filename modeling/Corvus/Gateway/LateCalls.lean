import Corvus.Gateway.RateLimits

/-!
# Calls that take the mutex late

`allow` reads the clock before it takes the mutex, so that the calls need not come in the
order of their times.  A late call refills nothing, and finds what earlier ones have
refilled past its time.

What a client can still be granted is bounded by what its bucket holds at the earliest
time a call may yet come with, and by what comes in from there to the last one.
-/

namespace Corvus.Gateway

/-- Of calls with these times none comes later than by `lag`, as when no request takes longer
from reading the clock to having the mutex. -/
def Late (lag : ℚ) (times : List ℚ) : Prop :=
  times.Pairwise fun earlier later => earlier ≤ later + lag

theorem Late.of_cons {lag now : ℚ} {client : String} {rest : List (ℚ × String)}
    (late : Late lag (((now, client) :: rest).map Prod.fst)) :
    (∀ entry ∈ rest, now ≤ entry.1 + lag) ∧ Late lag (rest.map Prod.fst) := by
  obtain ⟨after, restLate⟩ := List.pairwise_cons.mp late
  exact ⟨fun entry member => after entry.1 (List.mem_map_of_mem member), restLate⟩

/-- Refilling is not negative, and a bucket is full by the time it may be removed, also for
calls that are late. -/
structure RateLimitConfig.PatientFor (config : RateLimitConfig) (lag : ℚ) : Prop where
  rate_nonneg : 0 ≤ config.refillRate
  full_at_ttl : (config.maxTokens : ℚ) ≤ config.refillRate * (config.entryTtl - 2 * lag)

/-- What a bucket holds, since its last refill. -/
def TokenBucket.fill (bucket : TokenBucket) : Fill ℚ where
  tokens := bucket.tokens
  since := bucket.lastRefill

/-- The bucket was refilled by a call up to the latest one, and the call that used it last was
not too late for that. -/
structure TokenBucket.Held (config : RateLimitConfig) (lag latest : ℚ) (bucket : TokenBucket) :
    Prop where
  nonneg : 0 ≤ bucket.tokens
  le_capacity : bucket.tokens ≤ config.maxTokens
  refilled : bucket.lastRefill ≤ latest
  accessed : bucket.lastRefill ≤ bucket.lastAccess + lag

/-- The bucket of a client, as calls up to the latest one have left it. -/
structure Holds (limiter : RateLimiter) (config : RateLimitConfig) (key : String)
    (lag latest : ℚ) : Prop where
  config_eq : limiter.config = config
  held : ∀ bucket, limiter.buckets.lookup key = some bucket → bucket.Held config lag latest

/-- What the bucket of a client holds at a time, also one before its last refill. -/
def RateLimiter.standing (limiter : RateLimiter) (key : String) (floor : ℚ) : ℚ :=
  limiter.config.level ((limiter.buckets.lookup key).map TokenBucket.fill) floor

section Steps

variable {config : RateLimitConfig} {limiter : RateLimiter} {key other : String}
variable {lag latest now : ℚ}

theorem TokenBucket.Held.of_le {bucket : TokenBucket} (held : bucket.Held config lag latest)
    {later : ℚ} (ordered : latest ≤ later) : bucket.Held config lag later :=
  ⟨held.nonneg, held.le_capacity, held.refilled.trans ordered, held.accessed⟩

theorem Holds.of_le (holds : Holds limiter config key lag latest) {later : ℚ}
    (ordered : latest ≤ later) : Holds limiter config key lag later :=
  ⟨holds.config_eq, fun bucket found => (holds.held bucket found).of_le ordered⟩

theorem holds_construct (config : RateLimitConfig) (key : String) (created lag latest : ℚ) :
    Holds (RateLimiter.construct config created) config key lag latest :=
  ⟨rfl, fun _ found => nomatch found⟩

theorem Holds.sound (holds : Holds limiter config key lag latest) :
    Allowance.Sound (config.maxTokens : ℚ)
      ((limiter.buckets.lookup key).map TokenBucket.fill) latest := by
  intro fill isFill
  obtain ⟨bucket, found, rfl⟩ := Option.map_eq_some_iff.mp isFill
  have held := holds.held bucket found
  exact ⟨held.nonneg, held.le_capacity, held.refilled⟩

/-- Refilling is that of the bucket's level. -/
theorem fill_refill (config : RateLimitConfig) (bucket : TokenBucket) (now : ℚ) :
    (RateLimiter.refill config bucket now).fill =
      Allowance.refill (config.maxTokens : ℚ) config.refillRate bucket.fill now := by
  unfold RateLimiter.refill Allowance.refill
  rw [apply_ite TokenBucket.fill]
  rfl

/-- A bucket that a cleanup removes is full at the earliest time a call may yet come with. -/
theorem TokenBucket.Held.full_of_removed {bucket : TokenBucket}
    (held : bucket.Held config lag latest) (patient : config.PatientFor lag)
    (removed : (config.entryTtl : ℚ) < now - bucket.lastAccess) :
    Allowance.Refilled (config.maxTokens : ℚ) config.refillRate bucket.fill (now - lag) := by
  have idle : (config.entryTtl : ℚ) - 2 * lag ≤ now - lag - bucket.lastRefill := by
    have accessed := held.accessed
    linarith
  have gained : config.refillRate * (config.entryTtl - 2 * lag) ≤
      config.refillRate * (now - lag - bucket.lastRefill) :=
    mul_le_mul_of_nonneg_left idle patient.rate_nonneg
  have nonneg := held.nonneg
  have full := patient.full_at_ttl
  change (config.maxTokens : ℚ) ≤
    bucket.tokens + (now - lag - bucket.lastRefill) * config.refillRate
  rw [mul_comm (now - lag - bucket.lastRefill)]
  linarith

/-- A cleanup leaves the bucket, or removes a full one. -/
theorem Holds.maybeCleanup (patient : config.PatientFor lag)
    (holds : Holds limiter config key lag latest) (now : ℚ) :
    Holds (limiter.maybeCleanup now) config key lag latest ∧
      ∀ floor, now - lag ≤ floor →
        (limiter.maybeCleanup now).standing key floor = limiter.standing key floor := by
  unfold RateLimiter.maybeCleanup
  split
  · exact ⟨holds, fun _ _ => rfl⟩
  · have kept := @lookup_filter limiter.buckets key (RateLimiter.keeps limiter.config now)
      limiter.keys_nodup
    refine ⟨⟨holds.config_eq, fun bucket found => ?_⟩, fun floor reached => ?_⟩
    · rw [kept, Option.filter_eq_some_iff] at found
      exact holds.held bucket found.1
    · unfold RateLimiter.standing
      rw [kept]
      cases found : limiter.buckets.lookup key with
      | none => rfl
      | some bucket =>
          rw [Option.filter_some]
          split
          · rfl
          · rename_i removed
            simp only [RateLimiter.keeps, Bool.not_eq_true, decide_eq_false_iff_not,
              not_not] at removed
            rw [holds.config_eq] at removed ⊢
            have full := (holds.held bucket found).full_of_removed patient removed
            exact (Allowance.level_of_refilled patient.rate_nonneg full reached).symm

/-- The bucket `allow` works on, for a call that is not too late: it holds no more than there
was, at any time. -/
theorem Holds.bucketFor (patient : config.PatientFor lag)
    (holds : Holds limiter config key lag latest) (reached : now ≤ latest)
    (onTime : latest ≤ now + lag) :
    { limiter.bucketFor now key with lastAccess := now }.Held config lag latest ∧
      now ≤ (limiter.bucketFor now key).lastRefill ∧
      ∀ floor, config.level (some (limiter.bucketFor now key).fill) floor ≤
        limiter.standing key floor := by
  have capacityNonneg : (0 : ℚ) ≤ config.maxTokens := Nat.cast_nonneg _
  unfold RateLimiter.bucketFor RateLimiter.standing
  rw [holds.config_eq]
  cases found : limiter.buckets.lookup key with
  | none =>
      refine ⟨⟨capacityNonneg, le_refl _, reached, reached.trans onTime⟩, le_refl now,
        fun floor => ?_⟩
      exact Allowance.level_le (some _) floor
  | some bucket =>
      obtain ⟨nonneg, bounded, refilled, _⟩ := holds.held bucket found
      have isFill := fill_refill config bucket now
      have tokens := congrArg Fill.tokens isFill
      have since := congrArg Fill.since isFill
      simp only [TokenBucket.fill] at tokens since
      refine ⟨⟨?_, ?_, ?_, ?_⟩, ?_, fun floor => ?_⟩
      · exact tokens.symm ▸ Allowance.refill_tokens_nonneg capacityNonneg patient.rate_nonneg
          nonneg
      · exact tokens.symm ▸ Allowance.refill_tokens_le bounded
      · exact since.symm ▸ Allowance.refill_since_le refilled reached
      · exact since.symm ▸ Allowance.refill_since_le (refilled.trans onTime)
          (reached.trans onTime)
      · exact since.symm ▸ Allowance.le_refill_since
      · rw [Option.map_some]
        simp only [isFill]
        exact Allowance.level_refill_le floor

/-- A granted call takes one token from what its bucket holds at the earliest time a call may
yet come with. -/
theorem Holds.allowUncleaned (patient : config.PatientFor lag)
    (holds : Holds limiter config key lag latest) (reached : now ≤ latest)
    (onTime : latest ≤ now + lag) :
    ∃ bucket, (limiter.allowUncleaned now key).2.buckets.lookup key = some bucket ∧
      bucket.Held config lag latest ∧ now ≤ bucket.lastRefill ∧
      bucket.tokens + (if (limiter.allowUncleaned now key).1 = true then 1 else 0) ≤
        config.maxTokens ∧
      config.level (some bucket.fill) (latest - lag) +
          (if (limiter.allowUncleaned now key).1 = true then 1 else 0) ≤
        limiter.standing key (latest - lag) := by
  obtain ⟨held, since, holdsNoMore⟩ := holds.bucketFor patient reached onTime
  have before : latest - lag ≤ (limiter.bucketFor now key).lastRefill :=
    (sub_le_iff_le_add.mpr onTime).trans since
  simp only [RateLimiter.allowUncleaned]
  split
  · rename_i enough
    have spent := @Allowance.level_spend _ _ _ _ _ _ (limiter.bucketFor now key).fill
      patient.rate_nonneg held.le_capacity _ before
    refine ⟨_, RateLimiter.lookup_put_self _ _ _, ⟨sub_nonneg.mpr enough, ?_, held.refilled,
      held.accessed⟩, since, ?_, ?_⟩
    · exact (sub_le_self _ zero_le_one).trans held.le_capacity
    · rw [if_pos rfl, sub_add_cancel]
      exact held.le_capacity
    · rw [if_pos rfl]
      exact spent.le.trans (holdsNoMore _)
  · refine ⟨_, RateLimiter.lookup_put_self _ _ _, held, since, ?_, ?_⟩
    · rw [if_neg Bool.false_ne_true, add_zero]
      exact held.le_capacity
    · rw [if_neg Bool.false_ne_true, add_zero]
      exact holdsNoMore _

theorem Holds.allowUncleaned_of_ne (holds : Holds limiter config key lag latest) (now : ℚ)
    (different : key ≠ other) :
    Holds (limiter.allowUncleaned now other).2 config key lag latest ∧
      ∀ floor, (limiter.allowUncleaned now other).2.standing key floor =
        limiter.standing key floor := by
  have same : (limiter.allowUncleaned now other).2.buckets.lookup key =
      limiter.buckets.lookup key := by
    simp only [RateLimiter.allowUncleaned]
    split <;> exact RateLimiter.lookup_put_of_ne _ _ different
  have sameConfig := limiter.config_allowUncleaned now other
  refine ⟨⟨sameConfig.trans holds.config_eq, fun bucket found => ?_⟩, fun floor => ?_⟩
  · exact holds.held bucket (same ▸ found)
  · rw [RateLimiter.standing, RateLimiter.standing, same, sameConfig]

/-- The call of a client itself, cleanup included, with the latest time as it is then. -/
theorem Holds.allow_own (patient : config.PatientFor lag) (lagNonneg : 0 ≤ lag)
    (holds : Holds limiter config key lag latest) (onTime : latest ≤ now + lag) :
    ∃ bucket, (limiter.allow now key).2.buckets.lookup key = some bucket ∧
      bucket.Held config lag (max latest now) ∧ now ≤ bucket.lastRefill ∧
      bucket.tokens + (if (limiter.allow now key).1 = true then 1 else 0) ≤
        config.maxTokens ∧
      config.level (some bucket.fill) (max latest now - lag) +
          (if (limiter.allow now key).1 = true then 1 else 0) ≤
        limiter.standing key (max latest now - lag) := by
  have reached : now ≤ max latest now := le_max_right _ _
  have stillOnTime : max latest now ≤ now + lag :=
    max_le onTime (le_add_of_nonneg_right lagNonneg)
  obtain ⟨cleaned, sameStanding⟩ :=
    (holds.of_le (le_max_left latest now)).maybeCleanup patient now
  obtain ⟨bucket, found, held, since, spent, remains⟩ :=
    cleaned.allowUncleaned patient reached stillOnTime
  rw [sameStanding _ (sub_le_sub_right reached lag)] at remains
  exact ⟨bucket, found, held, since, spent, remains⟩

theorem Holds.config_allow (holds : Holds limiter config key lag latest) (client : String) :
    (limiter.allow now client).2.config = config :=
  (RateLimiter.config_allowUncleaned _ _ _).trans
    ((RateLimiter.config_maybeCleanup _ _).trans holds.config_eq)

/-- What a client's bucket holds at the earliest time a call may yet come with rises by what
comes in, as that time does. -/
theorem Holds.standing_later (patient : config.PatientFor lag)
    (holds : Holds limiter config key lag latest) {later : ℚ} (ordered : latest ≤ later) :
    limiter.standing key (later - lag) ≤
      limiter.standing key (latest - lag) + config.refillRate * (later - latest) := by
  have bound : config.level _ _ ≤ config.level _ _ + _ :=
    Allowance.level_later patient.rate_nonneg
      ((limiter.buckets.lookup key).map TokenBucket.fill) (sub_le_sub_right ordered lag)
  rw [sub_sub_sub_cancel_right] at bound
  rw [RateLimiter.standing, RateLimiter.standing, holds.config_eq]
  exact bound

/-- What one call does to the bound of a client: it takes what it grants to the client, and
what comes in raises it when the latest time does. -/
theorem Holds.allow (patient : config.PatientFor lag) (lagNonneg : 0 ≤ lag)
    (holds : Holds limiter config key lag latest) (onTime : latest ≤ now + lag)
    (client : String) :
    Holds (limiter.allow now client).2 config key lag (max latest now) ∧
      (limiter.allow now client).2.standing key (max latest now - lag) +
          (if client = key ∧ (limiter.allow now client).1 = true then 1 else 0) ≤
        limiter.standing key (latest - lag) +
          config.refillRate * (max latest now - latest) := by
  have later : latest ≤ max latest now := le_max_left _ _
  have risen := holds.standing_later patient later
  by_cases own : client = key
  · subst own
    obtain ⟨bucket, found, held, _, _, remains⟩ := holds.allow_own patient lagNonneg onTime
    refine ⟨⟨holds.config_allow client, fun other isOther => ?_⟩, ?_⟩
    · obtain rfl := Option.some.inj (found.symm.trans isOther)
      exact held
    · rw [RateLimiter.standing, holds.config_allow, found, Option.map_some]
      simp only [true_and]
      exact remains.trans risen
  · obtain ⟨cleaned, sameStanding⟩ := (holds.of_le later).maybeCleanup patient now
    obtain ⟨others, sameOthers⟩ := cleaned.allowUncleaned_of_ne now (Ne.symm own)
    refine ⟨others, ?_⟩
    rw [if_neg fun granted => own granted.1, add_zero, RateLimiter.allow, sameOthers,
      sameStanding _ (sub_le_sub_right (le_max_right latest now) lag)]
    exact risen

/-- After a call that is granted, its client has one token less than a full bucket and what
comes in since that call. -/
theorem Holds.allow_granted (patient : config.PatientFor lag) (lagNonneg : 0 ≤ lag)
    (holds : Holds limiter config key lag latest) (onTime : latest ≤ now + lag)
    (granted : (limiter.allow now key).1 = true) :
    (limiter.allow now key).2.standing key (max latest now - lag) + 1 ≤
      config.maxTokens + config.refillRate * (max latest now - lag - now) := by
  obtain ⟨bucket, found, _, since, spent, _⟩ := holds.allow_own patient lagNonneg onTime
  rw [if_pos granted] at spent
  rw [RateLimiter.standing, holds.config_allow, found, Option.map_some]
  have unfilled : config.level (some bucket.fill) (max latest now - lag) ≤
      bucket.tokens + (max latest now - lag - bucket.lastRefill) * config.refillRate :=
    min_le_right _ _
  have shorter : (max latest now - lag - bucket.lastRefill) * config.refillRate ≤
      config.refillRate * (max latest now - lag - now) := by
    rw [mul_comm]
    exact mul_le_mul_of_nonneg_left (sub_le_sub_left since _) patient.rate_nonneg
  linarith

end Steps

/-! ## Runs -/

section Runs

variable {config : RateLimitConfig} {limiter : RateLimiter} {key : String}
variable {lag latest start stop : ℚ} {calls : List (ℚ × String)}

/-- What is granted to a client in an interval by the calls. -/
def grantedBy (limiter : RateLimiter) (key : String) (start stop : ℚ)
    (calls : List (ℚ × String)) : Nat :=
  admittedIn key start stop (allowCalls calls) (limiter.run (allowCalls calls))

theorem grantedBy_cons (limiter : RateLimiter) (now : ℚ) (client : String) :
    grantedBy limiter key start stop ((now, client) :: calls) =
      grantedBy (limiter.allow now client).2 key start stop calls +
        if (client = key ∧ (limiter.allow now client).1 = true) ∧ start ≤ now ∧ now ≤ stop
        then 1 else 0 := by
  simp only [grantedBy, admittedIn, allowCalls, List.map_cons, RateLimiter.run,
    RateLimiter.runWith, List.zip_cons_cons, List.countP_cons, RateLimiter.perform,
    Call.allow.injEq, Answer.allowed.injEq, decide_eq_true_eq, and_assoc]

@[simp] theorem grantedBy_nil (limiter : RateLimiter) :
    grantedBy limiter key start stop [] = 0 := rfl

theorem grantedBy_eq_zero (late : ∀ entry ∈ calls, stop < entry.1) :
    grantedBy limiter key start stop calls = 0 := by
  induction calls generalizing limiter with
  | nil => rfl
  | cons entry rest ih =>
      obtain ⟨now, client⟩ := entry
      have past : ¬now ≤ stop := not_le.mpr (late _ List.mem_cons_self)
      rw [grantedBy_cons, if_neg fun counted => past counted.2.2, Nat.add_zero]
      exact ih fun entry member => late entry (List.mem_cons_of_mem _ member)

/-- After a call that is too late for the interval to be still open, none counts. -/
theorem grantedBy_closed {now : ℚ} {client : String} (lagNonneg : 0 ≤ lag)
    (late : Late lag (((now, client) :: calls).map Prod.fst)) (closed : stop + lag < now) :
    grantedBy limiter key start stop ((now, client) :: calls) = 0 := by
  obtain ⟨after, _⟩ := late.of_cons
  apply grantedBy_eq_zero
  intro entry member
  rcases List.mem_cons.mp member with rfl | inRest
  · exact (le_add_of_nonneg_right lagNonneg).trans_lt closed
  · exact lt_of_add_lt_add_right (closed.trans_le (after entry inRest))

theorem Holds.nonneg (patient : config.PatientFor lag) (lagNonneg : 0 ≤ lag)
    (inside : latest ≤ stop + lag) (holds : Holds limiter config key lag latest) :
    0 ≤ limiter.standing key (latest - lag) +
      config.refillRate * (stop + lag - (latest - lag)) := by
  have nonneg := Allowance.level_nonneg (Nat.cast_nonneg _) patient.rate_nonneg
    (holds.sound.of_le inside)
  have bound : config.level _ _ ≤ config.level _ _ + _ :=
    Allowance.level_later patient.rate_nonneg
      ((limiter.buckets.lookup key).map TokenBucket.fill)
      ((sub_le_self latest lagNonneg).trans inside)
  rw [RateLimiter.standing, holds.config_eq]
  exact nonneg.trans bound

/-- From any call on, what is granted was there for the earliest calls that may yet come, or
comes in. -/
theorem grantedBy_le_standing (patient : config.PatientFor lag) (lagNonneg : 0 ≤ lag)
    (late : Late lag (calls.map Prod.fst)) (onTime : ∀ entry ∈ calls, latest ≤ entry.1 + lag)
    (inside : latest ≤ stop + lag) (holds : Holds limiter config key lag latest) :
    (grantedBy limiter key start stop calls : ℚ) ≤
      limiter.standing key (latest - lag) +
        config.refillRate * (stop + lag - (latest - lag)) := by
  induction calls generalizing limiter latest with
  | nil =>
      rw [grantedBy_nil, Nat.cast_zero]
      exact holds.nonneg patient lagNonneg inside
  | cons entry rest ih =>
      obtain ⟨now, client⟩ := entry
      rcases lt_or_ge (stop + lag) now with closed | isOpen
      · rw [grantedBy_closed lagNonneg late closed, Nat.cast_zero]
        exact holds.nonneg patient lagNonneg inside
      · obtain ⟨after, restLate⟩ := late.of_cons
        have nowOnTime : latest ≤ now + lag := onTime _ List.mem_cons_self
        obtain ⟨restHolds, spent⟩ := holds.allow patient lagNonneg nowOnTime client
        have restBound := ih restLate
          (fun entry member => max_le (onTime entry (List.mem_cons_of_mem _ member))
            (after entry member))
          (max_le inside isOpen) restHolds
        have counted : ((if (client = key ∧ (limiter.allow now client).1 = true) ∧
            start ≤ now ∧ now ≤ stop then 1 else 0 : Nat) : ℚ) ≤
            if client = key ∧ (limiter.allow now client).1 = true then 1 else 0 := by
          split
          · rename_i granted
            rw [if_pos granted.1, Nat.cast_one]
          · split <;> norm_num
        have split : config.refillRate * (stop + lag - (latest - lag)) =
            config.refillRate * (max latest now - latest) +
              config.refillRate * (stop + lag - (max latest now - lag)) := by ring
        rw [grantedBy_cons, Nat.cast_add]
        linarith

/-- In an interval no client is granted more than a full bucket, what comes in during it, and
what comes in during the time that calls are late by. -/
theorem grantedBy_le (patient : config.PatientFor lag) (lagNonneg : 0 ≤ lag)
    (late : Late lag (calls.map Prod.fst)) (onTime : ∀ entry ∈ calls, latest ≤ entry.1 + lag)
    (interval : start ≤ stop) (holds : Holds limiter config key lag latest) :
    (grantedBy limiter key start stop calls : ℚ) ≤
      config.maxTokens + config.refillRate * (stop - start + lag) := by
  have nonneg : 0 ≤ (config.maxTokens : ℚ) + config.refillRate * (stop - start + lag) :=
    add_nonneg (Nat.cast_nonneg _)
      (mul_nonneg patient.rate_nonneg (add_nonneg (sub_nonneg.mpr interval) lagNonneg))
  induction calls generalizing limiter latest with
  | nil =>
      rw [grantedBy_nil, Nat.cast_zero]
      exact nonneg
  | cons entry rest ih =>
      obtain ⟨now, client⟩ := entry
      obtain ⟨after, restLate⟩ := late.of_cons
      have nowOnTime : latest ≤ now + lag := onTime _ List.mem_cons_self
      obtain ⟨restHolds, _⟩ := holds.allow patient lagNonneg nowOnTime client
      have restOnTime : ∀ entry ∈ rest, max latest now ≤ entry.1 + lag := fun entry member =>
        max_le (onTime entry (List.mem_cons_of_mem _ member)) (after entry member)
      by_cases counted : (client = key ∧ (limiter.allow now client).1 = true) ∧
          start ≤ now ∧ now ≤ stop
      -- From the first call that counts on, its bucket has what it has left, and what comes in.
      · obtain ⟨⟨rfl, granted⟩, begun, isOpen⟩ := counted
        have inside : max latest now ≤ stop + lag :=
          max_le (nowOnTime.trans (add_le_add_left isOpen lag))
            (isOpen.trans (le_add_of_nonneg_right lagNonneg))
        have restBound : (grantedBy (limiter.allow now client).2 client start stop rest : ℚ) ≤
            _ := grantedBy_le_standing patient lagNonneg restLate restOnTime inside restHolds
        have left := holds.allow_granted patient lagNonneg nowOnTime granted
        have shorter : config.refillRate * (max latest now - lag - now) +
            config.refillRate * (stop + lag - (max latest now - lag)) ≤
              config.refillRate * (stop - start + lag) := by
          rw [← mul_add]
          refine mul_le_mul_of_nonneg_left ?_ patient.rate_nonneg
          linarith
        rw [grantedBy_cons, if_pos ⟨⟨rfl, granted⟩, begun, isOpen⟩, Nat.cast_add, Nat.cast_one]
        linarith
      · rw [grantedBy_cons, if_neg counted, Nat.add_zero]
        exact ih restLate restOnTime restHolds

/-- A new limiter, whatever order its calls come in. -/
theorem grantedBy_construct_le (patient : config.PatientFor lag) (lagNonneg : 0 ≤ lag)
    (late : Late lag (calls.map Prod.fst)) (created : ℚ) (interval : start ≤ stop) :
    (grantedBy (RateLimiter.construct config created) key start stop calls : ℚ) ≤
      config.maxTokens + config.refillRate * (stop - start + lag) := by
  obtain ⟨first, before⟩ := exists_before calls
  exact grantedBy_le patient lagNonneg late
    (fun entry member => (before entry member).trans (le_add_of_nonneg_right lagNonneg)) interval
    (holds_construct config key created lag first)

end Runs

end Corvus.Gateway
