import Corvus.Gateway.RateLimits
import Mathlib.Data.Finset.Card
import Mathlib.Data.Finset.Dedup

/-!
# What the rate limiter remembers

A cleanup leaves the buckets used within the time to live, and the next one is due
after the interval.  In between, buckets only become younger by being used, so no
bucket is ever older than both together.  Each of them was used by a call of its
own client, and each client has one.
-/

namespace Corvus.Gateway

namespace RateLimiter

theorem mem_put {limiter : RateLimiter} {key : String} {bucket : TokenBucket}
    {entry : String × TokenBucket} (member : entry ∈ (limiter.put key bucket).buckets) :
    entry = (key, bucket) ∨ entry ∈ limiter.buckets := by
  rcases List.mem_cons.mp member with own | kept
  · exact .inl own
  · exact .inr (List.mem_filter.mp kept).1

/-- The call leaves its own bucket used now, and no bucket that was not there. -/
theorem mem_allowUncleaned {limiter : RateLimiter} {now : ℚ} {key : String}
    {entry : String × TokenBucket}
    (member : entry ∈ (limiter.allowUncleaned now key).2.buckets) :
    (entry.2.lastAccess, entry.1) = (now, key) ∨ entry ∈ limiter.buckets := by
  simp only [allowUncleaned] at member
  split at member
  · apply (mem_put member).imp_left
    rintro rfl
    rfl
  · apply (mem_put member).imp_left
    rintro rfl
    rfl

theorem lastCleanup_allowUncleaned (limiter : RateLimiter) (now : ℚ) (key : String) :
    (limiter.allowUncleaned now key).2.lastCleanup = limiter.lastCleanup := by
  simp only [allowUncleaned]
  split
  · rfl
  · rfl

theorem after_append (limiter : RateLimiter) (left right : List (ℚ × Call)) :
    limiter.after (left ++ right) = (limiter.after left).after right :=
  List.foldl_append

end RateLimiter

/-- Since the last cleanup, every bucket in the limiter was used within the time to live
before it, by one of the calls. -/
structure Swept (config : RateLimitConfig) (limiter : RateLimiter)
    (calls : List (ℚ × String)) (now : ℚ) : Prop where
  config_eq : limiter.config = config
  cleaned : limiter.lastCleanup ≤ now
  accessed : ∀ entry ∈ limiter.buckets,
    limiter.lastCleanup - max 0 (config.entryTtl : ℚ) ≤ entry.2.lastAccess
  called : ∀ entry ∈ limiter.buckets, (entry.2.lastAccess, entry.1) ∈ calls

section Sweeping

variable {config : RateLimitConfig} {limiter : RateLimiter} {calls : List (ℚ × String)}
variable {now later : ℚ}

/-- After `maybe_cleanup` the last cleanup is not longer ago than the interval. -/
theorem Swept.maybeCleanup (swept : Swept config limiter calls now) (ordered : now ≤ later) :
    Swept config (limiter.maybeCleanup later) calls later ∧
      later - (limiter.maybeCleanup later).lastCleanup ≤ max 0 (config.cleanupInterval : ℚ) := by
  unfold RateLimiter.maybeCleanup
  split
  · rename_i early
    rw [swept.config_eq] at early
    exact ⟨⟨swept.config_eq, swept.cleaned.trans ordered, swept.accessed, swept.called⟩,
      early.le.trans (le_max_right _ _)⟩
  · refine ⟨⟨swept.config_eq, le_refl later, fun entry member => ?_, fun entry member =>
      swept.called entry (List.mem_filter.mp member).1⟩, ?_⟩
    · have kept : later - entry.2.lastAccess ≤ config.entryTtl := by
        simpa only [RateLimiter.keeps, decide_eq_true_eq, not_lt, swept.config_eq] using
          (List.mem_filter.mp member).2
      exact sub_le_comm.mp (kept.trans (le_max_right _ _))
    · rw [sub_self]
      exact le_max_left _ _

theorem Swept.allow (swept : Swept config limiter calls now) (ordered : now ≤ later)
    (key : String) :
    Swept config (limiter.allow later key).2 (calls ++ [(later, key)]) later ∧
      later - (limiter.allow later key).2.lastCleanup ≤
        max 0 (config.cleanupInterval : ℚ) := by
  obtain ⟨cleaned, due⟩ := swept.maybeCleanup ordered
  unfold RateLimiter.allow
  refine ⟨⟨?_, ?_, fun entry member => ?_, fun entry member => ?_⟩, ?_⟩
  · rw [RateLimiter.config_allowUncleaned]
    exact cleaned.config_eq
  · rw [RateLimiter.lastCleanup_allowUncleaned]
    exact cleaned.cleaned
  · rw [RateLimiter.lastCleanup_allowUncleaned]
    rcases RateLimiter.mem_allowUncleaned member with own | other
    · have used : entry.2.lastAccess = later := congrArg Prod.fst own
      rw [used]
      exact (sub_le_self _ (le_max_left _ _)).trans cleaned.cleaned
    · exact cleaned.accessed entry other
  · rcases RateLimiter.mem_allowUncleaned member with own | other
    · exact List.mem_append_right _ (List.mem_singleton.mpr own)
    · exact List.mem_append_left _ (cleaned.called entry other)
  · rw [RateLimiter.lastCleanup_allowUncleaned]
    exact due

/-- Every run keeps the limiter swept. -/
theorem Swept.after (swept : Swept config limiter calls now) {more : List (ℚ × String)}
    (ordered : more.Pairwise fun earlier later => earlier.1 ≤ later.1)
    (since : ∀ entry ∈ more, now ≤ entry.1) (untilLater : ∀ entry ∈ more, entry.1 ≤ later)
    (inside : now ≤ later) :
    Swept config (limiter.after (allowCalls more)) (calls ++ more) later := by
  induction more generalizing limiter calls now with
  | nil =>
      rw [List.append_nil]
      exact ⟨swept.config_eq, swept.cleaned.trans inside, swept.accessed, swept.called⟩
  | cons first rest ih =>
      obtain ⟨time, key⟩ := first
      rw [List.pairwise_cons] at ordered
      have next : Swept config (limiter.allow time key).2 (calls ++ [(time, key)]) time :=
        (swept.allow (since _ List.mem_cons_self) key).1
      have finished := ih next ordered.2 ordered.1
        (fun entry member => untilLater entry (List.mem_cons_of_mem _ member))
        (untilLater _ List.mem_cons_self)
      rw [List.append_assoc] at finished
      exact finished

end Sweeping

end Corvus.Gateway
