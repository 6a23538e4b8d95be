import Corvus.Gateway.RateLimits

/-!
# How long a client is told to wait

`retry_after` refills a copy of the bucket of the client, and `allow` later refills
the bucket itself from the time of its last use.  Both come to the level of the
client's allowance, which rises by the rate from one to the other.  What the
limiter does for others meanwhile removes the bucket only when it is full.
-/

namespace Corvus.Gateway

section Waiting

variable {config : RateLimitConfig} {limiter : RateLimiter} {key : String}
variable {own : Option (Fill ℚ)} {now : ℚ}

/-- Calls that do not use the allowance of a client leave it. -/
theorem Tracks.perform_of_not_allow (patient : config.Patient)
    (tracks : Tracks limiter config key own now) {call : Call} (notOwn : call ≠ .allow key) :
    Tracks (limiter.perform now call).2 config key own now := by
  cases call with
  | allow other =>
      have different : key ≠ other := fun same => notOwn (congrArg Call.allow same.symm)
      exact (follows_perform patient).others limiter key own now (.allow other) tracks different
  | remaining other => exact tracks
  | retryAfter other => exact tracks

theorem Tracks.perform (patient : config.Patient) (tracks : Tracks limiter config key own now)
    (call : Call) : ∃ left, Tracks (limiter.perform now call).2 config key left now := by
  by_cases isOwn : call = .allow key
  · subst isOwn
    exact ⟨_, ((follows_perform patient).own limiter own now (.allow key) tracks trivial).2⟩
  · exact ⟨own, tracks.perform_of_not_allow patient isOwn⟩

/-- After any calls the limiter shows some allowance of the client. -/
theorem Tracks.after (patient : config.Patient) {calls : List (ℚ × Call)} {last : ℚ}
    (ordered : InOrder calls) (since : ∀ entry ∈ calls, now ≤ entry.1)
    (untilLast : ∀ entry ∈ calls, entry.1 ≤ last) (inside : now ≤ last)
    (tracks : Tracks limiter config key own now) :
    ∃ left, Tracks (limiter.after calls) config key left last := by
  induction calls generalizing limiter own now with
  | nil => exact ⟨own, tracks.of_le patient inside⟩
  | cons first rest ih =>
      obtain ⟨time, call⟩ := first
      rw [InOrder, List.pairwise_cons] at ordered
      have atTime : Tracks limiter config key own time :=
        tracks.of_le patient (since _ List.mem_cons_self)
      obtain ⟨left, next⟩ := atTime.perform patient call
      exact ih ordered.2 ordered.1
        (fun entry member => untilLast entry (List.mem_cons_of_mem _ member))
        (untilLast _ List.mem_cons_self) next

/-- While others call, the allowance of the client is left as it was. -/
theorem Tracks.after_meanwhile (patient : config.Patient) {calls : List (ℚ × Call)} {last : ℚ}
    (ordered : InOrder calls) (since : ∀ entry ∈ calls, now ≤ entry.1)
    (untilLast : ∀ entry ∈ calls, entry.1 ≤ last) (inside : now ≤ last)
    (others : ∀ entry ∈ calls, entry.2 ≠ .allow key)
    (tracks : Tracks limiter config key own now) :
    Tracks (limiter.after calls) config key own last := by
  induction calls generalizing limiter now with
  | nil => exact tracks.of_le patient inside
  | cons first rest ih =>
      obtain ⟨time, call⟩ := first
      rw [InOrder, List.pairwise_cons] at ordered
      have atTime : Tracks limiter config key own time :=
        tracks.of_le patient (since _ List.mem_cons_self)
      have next : Tracks (limiter.perform time call).2 config key own time :=
        atTime.perform_of_not_allow patient (others _ List.mem_cons_self)
      exact ih ordered.2 ordered.1
        (fun entry member => untilLast entry (List.mem_cons_of_mem _ member))
        (untilLast _ List.mem_cons_self)
        (fun entry member => others entry (List.mem_cons_of_mem _ member)) next

/-- `allow` grants exactly when there is a token in the allowance. -/
theorem Tracks.allow_iff (patient : config.Patient) (tracks : Tracks limiter config key own now) :
    (limiter.allow now key).1 = true ↔ 1 ≤ config.level own now := by
  have granted : (limiter.allow now key).1 = (config.take own now).1 :=
    ((tracks.maybeCleanup patient).allowUncleaned patient).1
  rw [granted, RateLimitConfig.take, Allowance.take, RateLimitConfig.level]
  split
  · rename_i enough
    exact ⟨fun _ => enough, fun _ => rfl⟩
  · rename_i tooFew
    exact ⟨fun taken => Bool.noConfusion taken, fun enough => absurd enough tooFew⟩

end Waiting

/-- The whole seconds that are answered are those after which there is a token. -/
theorem retryFrom_exact {config : RateLimitConfig} (someTokens : 1 ≤ config.maxTokens)
    (refills : 0 < config.refillRate) (own : Option (Fill ℚ)) (now : ℚ) :
    ∃ seconds : ℕ, config.retryFrom (config.level own now) = (seconds : ℤ) ∧
      (∀ later, now + seconds ≤ later → 1 ≤ config.level own later) ∧
      ∀ early : ℕ, early < seconds → ¬1 ≤ config.level own (now + early) := by
  have capacity : (1 : ℚ) ≤ config.maxTokens := by exact_mod_cast someTokens
  unfold RateLimitConfig.retryFrom
  split
  · rename_i enough
    refine ⟨0, rfl, fun later past => ?_, fun early below => absurd below (Nat.not_lt_zero _)⟩
    have ordered : now ≤ later := by simpa using past
    exact enough.trans (Allowance.level_mono refills.le own ordered)
  · rename_i notEnough
    have tooFew : config.level own now < 1 := not_le.mp notEnough
    have reached : ∀ later, 1 ≤ config.level own later ↔
        (1 - config.level own now) / config.refillRate ≤ later - now := fun later =>
      Allowance.one_le_level_iff refills capacity own tooFew
    have wait : 0 ≤ (1 - config.level own now) / config.refillRate :=
      div_nonneg (sub_nonneg.mpr tooFew.le) refills.le
    obtain ⟨seconds, ceil⟩ := Int.eq_ofNat_of_zero_le (Int.ceil_nonneg wait)
    have enoughIff : ∀ whole : ℕ, seconds ≤ whole ↔
        (1 - config.level own now) / config.refillRate ≤ whole := by
      intro whole
      rw [← Int.ofNat_le, ← ceil, Int.ceil_le, Int.cast_natCast]
    rw [if_neg refills.ne']
    refine ⟨seconds, congrArg _ ceil, fun later past => ?_, fun early below => ?_⟩
    · rw [reached]
      exact ((enoughIff seconds).mp le_rfl).trans (le_sub_iff_add_le'.mpr past)
    · rw [reached, add_sub_cancel_left, ← enoughIff]
      exact not_le.mpr below

/-- After any run, a client that waits for the answered seconds is let through, and one
that comes a whole number of seconds earlier is not, whatever the other clients do. -/
theorem retry_after_exact {config : RateLimitConfig} (someTokens : 1 ≤ config.maxTokens)
    (refills : 0 < config.refillRate)
    (enough : (config.maxTokens : ℚ) ≤ config.refillRate * config.entryTtl)
    {calls : List (ℚ × Call)} {created asked : ℚ} {key : String}
    (ordered : InOrder (calls ++ [(asked, .retryAfter key)])) :
    ∃ seconds : ℕ,
      ((RateLimiter.construct config created).after calls).retryAfter asked key =
          (seconds : ℤ) ∧
        ∀ (meanwhile : List (ℚ × Call)) (retried : ℚ),
          (∀ entry ∈ meanwhile, entry.2 ≠ .allow key) →
          InOrder ((asked, .retryAfter key) :: meanwhile ++ [(retried, .allow key)]) →
          (asked + seconds ≤ retried →
            ((((RateLimiter.construct config created).after calls).after meanwhile).allow
              retried key).1 = true) ∧
          ∀ early : ℕ, early < seconds → retried = asked + early →
            ((((RateLimiter.construct config created).after calls).after meanwhile).allow
              retried key).1 = false := by
  have patient : config.Patient := ⟨refills.le, enough⟩
  have callsOrdered := List.pairwise_append.mp ordered
  obtain ⟨past, before⟩ := exists_before (calls ++ [(asked, Call.retryAfter key)])
  have fromPast : past ≤ asked := before (asked, .retryAfter key)
    (List.mem_append_right _ List.mem_cons_self)
  obtain ⟨own, tracks⟩ := (tracks_construct config key created past).after patient
    callsOrdered.1 (fun entry member => before entry (List.mem_append_left _ member))
    (fun entry member => callsOrdered.2.2 entry member _ List.mem_cons_self) fromPast
  obtain ⟨seconds, answered, late, early⟩ := retryFrom_exact someTokens refills own asked
  refine ⟨seconds, (tracks.retryAfter patient someTokens).trans answered,
    fun meanwhile retried others inOrder => ?_⟩
  rw [List.cons_append, InOrder, List.pairwise_cons] at inOrder
  have meanwhileOrdered := List.pairwise_append.mp inOrder.2
  have atRetry := tracks.after_meanwhile patient meanwhileOrdered.1
    (fun entry member => inOrder.1 entry (List.mem_append_left _ member))
    (fun entry member => meanwhileOrdered.2.2 entry member _ List.mem_cons_self)
    (inOrder.1 (retried, .allow key) (List.mem_append_right _ List.mem_cons_self)) others
  refine ⟨fun waited => ?_, fun whole below same => ?_⟩
  · rw [atRetry.allow_iff patient]
    exact late retried waited
  · rw [← Bool.not_eq_true, atRetry.allow_iff patient, same]
    exact early whole below

/-- One token for each ten seconds; another client calls during the wait. -/
theorem retry_after_exact_slow :
    ∃ seconds : ℕ,
      ((RateLimiter.construct { maxTokens := 1, refillRate := 1 / 10 } 0).after
          [(0, .allow "a"), (1, .allow "a")]).retryAfter 3 "a" = (seconds : ℤ) ∧
        (3 + (seconds : ℚ) ≤ 700 →
          ((((RateLimiter.construct { maxTokens := 1, refillRate := 1 / 10 } 0).after
            [(0, .allow "a"), (1, .allow "a")]).after [(650, .allow "b")]).allow
              700 "a").1 = true) := by
  obtain ⟨seconds, answered, exactWait⟩ :=
    @retry_after_exact { maxTokens := 1, refillRate := 1 / 10 } (le_refl 1) (by norm_num)
      (by norm_num) [(0, .allow "a"), (1, .allow "a")] 0 3 "a" (by norm_num [InOrder])
  exact ⟨seconds, answered, (exactWait [(650, .allow "b")] 700 (by simp)
    (by norm_num [InOrder])).1⟩

end Corvus.Gateway
