import Corvus.Allowance
import Mathlib.Data.Rat.Floor
import Mathlib.Order.WithBot

/-!
# The rate limiter

A token bucket for each client, in exact rationals.  Times are seconds of the
steady clock; a call of the limiter is one step, as it has the mutex throughout.
`allow` removes buckets that have not been used for a while before it looks for
that of its client.
-/

namespace Corvus.Gateway

structure RateLimitConfig where
  maxTokens : Nat := 100
  refillRate : ℚ := 10
  /-- In seconds. -/
  cleanupInterval : Int := 300
  /-- In seconds. -/
  entryTtl : Int := 600

/-- Per-client token bucket state. -/
structure TokenBucket where
  tokens : ℚ
  lastRefill : ℚ
  lastAccess : ℚ

/-- The map of the buckets has each key once. -/
structure RateLimiter where
  config : RateLimitConfig
  buckets : List (String × TokenBucket)
  keys_nodup : (buckets.map Prod.fst).Nodup
  lastCleanup : ℚ

namespace RateLimiter

/-- `RateLimiter::RateLimiter`, at a time of the steady clock. -/
def construct (config : RateLimitConfig) (now : ℚ) : RateLimiter where
  config
  buckets := []
  keys_nodup := List.nodup_nil
  lastCleanup := now

theorem nodup_keys_filter {buckets : List (String × TokenBucket)}
    (keep : String × TokenBucket → Bool) (nodup : (buckets.map Prod.fst).Nodup) :
    ((buckets.filter keep).map Prod.fst).Nodup :=
  nodup.sublist (List.filter_sublist.map Prod.fst)

/-- `buckets_[key] = bucket` -/
def put (limiter : RateLimiter) (key : String) (bucket : TokenBucket) : RateLimiter where
  config := limiter.config
  buckets := (key, bucket) :: limiter.buckets.filter fun entry => entry.1 ≠ key
  keys_nodup := by
    rw [List.map_cons, List.nodup_cons]
    refine ⟨fun member => ?_, nodup_keys_filter _ limiter.keys_nodup⟩
    obtain ⟨entry, kept, same⟩ := List.mem_map.mp member
    simpa [same] using (List.mem_filter.mp kept).2
  lastCleanup := limiter.lastCleanup

def refill (config : RateLimitConfig) (bucket : TokenBucket) (now : ℚ) : TokenBucket :=
  if now - bucket.lastRefill ≤ 0 then
    bucket
  else
    { bucket with
      tokens := min (config.maxTokens : ℚ)
        (bucket.tokens + (now - bucket.lastRefill) * config.refillRate)
      lastRefill := now }

/-- Whether `maybe_cleanup` leaves a bucket. -/
def keeps (config : RateLimitConfig) (now : ℚ) (entry : String × TokenBucket) : Bool :=
  ¬(config.entryTtl : ℚ) < now - entry.2.lastAccess

def maybeCleanup (limiter : RateLimiter) (now : ℚ) : RateLimiter :=
  if now - limiter.lastCleanup < limiter.config.cleanupInterval then
    limiter
  else
    { config := limiter.config
      buckets := limiter.buckets.filter (keeps limiter.config now)
      keys_nodup := nodup_keys_filter _ limiter.keys_nodup
      lastCleanup := now }

/-- The bucket `allow` works on: a new one, or that of the client refilled. -/
def bucketFor (limiter : RateLimiter) (now : ℚ) (key : String) : TokenBucket :=
  match limiter.buckets.lookup key with
  | none => { tokens := limiter.config.maxTokens, lastRefill := now, lastAccess := now }
  | some bucket => refill limiter.config bucket now

/-- `allow` after `maybe_cleanup`. -/
def allowUncleaned (limiter : RateLimiter) (now : ℚ) (key : String) : Bool × RateLimiter :=
  let bucket := { limiter.bucketFor now key with lastAccess := now }
  if 1 ≤ bucket.tokens then
    (true, limiter.put key { bucket with tokens := bucket.tokens - 1 })
  else
    (false, limiter.put key bucket)

def allow (limiter : RateLimiter) (now : ℚ) (key : String) : Bool × RateLimiter :=
  (limiter.maybeCleanup now).allowUncleaned now key

def remaining (limiter : RateLimiter) (now : ℚ) (key : String) : Nat :=
  match limiter.buckets.lookup key with
  | none => limiter.config.maxTokens
  | some bucket => (max 0 ⌊(refill limiter.config bucket now).tokens⌋).toNat

/-- In seconds; without any refill the division gives infinity. -/
def retryAfter (limiter : RateLimiter) (now : ℚ) (key : String) : WithTop ℤ :=
  match limiter.buckets.lookup key with
  | none => 0
  | some bucket =>
      let tokens := (refill limiter.config bucket now).tokens
      if 1 ≤ tokens then 0
      else if limiter.config.refillRate = 0 then ⊤
      else (⌈(1 - tokens) / limiter.config.refillRate⌉ : ℤ)

end RateLimiter

/-! ## Runs -/

inductive Call where
  | allow (key : String)
  | remaining (key : String)
  | retryAfter (key : String)
  deriving DecidableEq

def Call.key : Call → String
  | .allow key | .remaining key | .retryAfter key => key

inductive Answer where
  | allowed (granted : Bool)
  | remaining (tokens : Nat)
  | retryAfter (seconds : WithTop ℤ)
  deriving DecidableEq

namespace RateLimiter

def perform (limiter : RateLimiter) (now : ℚ) : Call → Answer × RateLimiter
  | .allow key => (.allowed (limiter.allow now key).1, (limiter.allow now key).2)
  | .remaining key => (.remaining (limiter.remaining now key), limiter)
  | .retryAfter key => (.retryAfter (limiter.retryAfter now key), limiter)

/-- The same calls on a limiter that never cleans up. -/
def performUncleaned (limiter : RateLimiter) (now : ℚ) : Call → Answer × RateLimiter
  | .allow key => (.allowed (limiter.allowUncleaned now key).1, (limiter.allowUncleaned now key).2)
  | .remaining key => (.remaining (limiter.remaining now key), limiter)
  | .retryAfter key => (.retryAfter (limiter.retryAfter now key), limiter)

/-- The answers to calls at the given times, for one way to perform a call. -/
def runWith (perform : RateLimiter → ℚ → Call → Answer × RateLimiter) :
    RateLimiter → List (ℚ × Call) → List Answer
  | _, [] => []
  | limiter, (now, call) :: rest =>
      (perform limiter now call).1 :: runWith perform (perform limiter now call).2 rest

def run (limiter : RateLimiter) (calls : List (ℚ × Call)) : List Answer :=
  runWith perform limiter calls

def runUncleaned (limiter : RateLimiter) (calls : List (ℚ × Call)) : List Answer :=
  runWith performUncleaned limiter calls

/-- The limiter as the calls leave it. -/
def after (limiter : RateLimiter) (calls : List (ℚ × Call)) : RateLimiter :=
  calls.foldl (fun limiter entry => (limiter.perform entry.1 entry.2).2) limiter

end RateLimiter

/-- The answers to the calls for a client. -/
def answersFor (key : String) (calls : List (ℚ × Call)) (answers : List Answer) :
    List Answer :=
  ((calls.zip answers).filter fun entry => entry.1.2.key = key).map Prod.snd

/-- The number of `allow` calls for a client in an interval that return true. -/
def admittedIn (key : String) (start stop : ℚ) (calls : List (ℚ × Call))
    (answers : List Answer) : Nat :=
  (calls.zip answers).countP fun entry =>
    entry.1.2 = .allow key ∧ entry.2 = .allowed true ∧ start ≤ entry.1.1 ∧ entry.1.1 ≤ stop

/-- The times of the calls do not decrease. -/
def InOrder (calls : List (ℚ × Call)) : Prop :=
  calls.Pairwise fun earlier later => earlier.1 ≤ later.1

end Corvus.Gateway
