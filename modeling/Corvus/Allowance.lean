import Mathlib.Algebra.Order.Field.Basic
import Mathlib.Tactic.Linarith
import Mathlib.Tactic.Ring

/-!
# Token buckets over an ordered field

A bucket holds up to `capacity` tokens and gains `rate` of them in a unit of
time.  It is kept as its level when it was last used; a bucket that has never
been used is full.

What is taken from a bucket in an interval was in it at the beginning or has
been gained since.
-/

namespace Corvus

universe u

/-- The level of a bucket when it was last used. -/
structure Fill (K : Type u) where
  tokens : K
  since : K

namespace Allowance

variable {K : Type u} [Field K] [LinearOrder K]
variable {capacity rate : K}

/-- The tokens in the bucket at a time. -/
def level (capacity rate : K) : Option (Fill K) → K → K
  | none, _ => capacity
  | some fill, now => min capacity (fill.tokens + (now - fill.since) * rate)

/-- Take a token, if there is one. -/
def take (capacity rate : K) (bucket : Option (Fill K)) (now : K) : Bool × Option (Fill K) :=
  if 1 ≤ level capacity rate bucket now then
    (true, some { tokens := level capacity rate bucket now - 1, since := now })
  else
    (false, some { tokens := level capacity rate bucket now, since := now })

/-- Refill a bucket for a use that may be earlier than one it was already refilled for: then
nothing comes in. -/
def refill (capacity rate : K) (fill : Fill K) (now : K) : Fill K :=
  if now - fill.since ≤ 0 then
    fill
  else
    { tokens := min capacity (fill.tokens + (now - fill.since) * rate)
      since := now }

/-- The tokens taken at the given times that fall into an interval. -/
def takenIn (capacity rate start stop : K) : Option (Fill K) → List K → Nat
  | _, [] => 0
  | bucket, now :: rest =>
      (if (take capacity rate bucket now).1 = true ∧ start ≤ now ∧ now ≤ stop then 1 else 0) +
        takenIn capacity rate start stop (take capacity rate bucket now).2 rest

/-- The bucket was last used by then, and held some amount up to its capacity. -/
def Sound (capacity : K) (bucket : Option (Fill K)) (now : K) : Prop :=
  ∀ fill, bucket = some fill → 0 ≤ fill.tokens ∧ fill.tokens ≤ capacity ∧ fill.since ≤ now

/-! ## Levels, and what they decide -/

theorem level_le (bucket : Option (Fill K)) (now : K) :
    level capacity rate bucket now ≤ capacity := by
  cases bucket with
  | none => exact le_refl _
  | some fill => exact min_le_left _ _

/-- At the time of its last use the level of a bucket is what it was left with. -/
theorem level_since {fill : Fill K} (bounded : fill.tokens ≤ capacity) :
    level capacity rate (some fill) fill.since = fill.tokens := by
  simp only [level, sub_self, zero_mul, add_zero]
  exact min_eq_right bounded

theorem takenIn_eq_zero {start stop : K} {bucket : Option (Fill K)} {times : List K}
    (late : ∀ time ∈ times, stop < time) : takenIn capacity rate start stop bucket times = 0 := by
  induction times generalizing bucket with
  | nil => rfl
  | cons now rest ih =>
      have past : ¬now ≤ stop := not_le.mpr (late now List.mem_cons_self)
      rw [takenIn, if_neg fun counted => past counted.2.2, Nat.zero_add]
      exact ih fun time member => late time (List.mem_cons_of_mem _ member)

theorem Sound.of_le {bucket : Option (Fill K)} {now later : K}
    (sound : Sound capacity bucket now) (ordered : now ≤ later) :
    Sound capacity bucket later := fun fill eq =>
  ⟨(sound fill eq).1, (sound fill eq).2.1, (sound fill eq).2.2.trans ordered⟩

/-- A bucket that is not full gains everything that comes in, until it is full. -/
theorem level_later_eq (bucket : Option (Fill K)) {now later : K}
    (notFull : level capacity rate bucket now < capacity) :
    level capacity rate bucket later =
      min capacity (level capacity rate bucket now + rate * (later - now)) := by
  cases bucket with
  | none => exact absurd notFull (lt_irrefl _)
  | some fill =>
      have unbounded : level capacity rate (some fill) now =
          fill.tokens + (now - fill.since) * rate := by
        apply min_eq_right
        exact (min_lt_iff.mp notFull).resolve_left (lt_irrefl _) |>.le
      rw [unbounded]
      simp only [level]
      ring_nf

theorem refill_since_le {fill : Fill K} {now bound : K} (before : fill.since ≤ bound)
    (inside : now ≤ bound) :
    (refill capacity rate fill now).since ≤ bound := by
  unfold refill
  split
  · exact before
  · exact inside

theorem refill_tokens_le {fill : Fill K} {now : K} (bounded : fill.tokens ≤ capacity) :
    (refill capacity rate fill now).tokens ≤ capacity := by
  unfold refill
  split
  · exact bounded
  · exact min_le_left _ _

variable [IsStrictOrderedRing K]

theorem level_nonneg (capacityNonneg : 0 ≤ capacity) (rateNonneg : 0 ≤ rate)
    {bucket : Option (Fill K)} {now : K} (sound : Sound capacity bucket now) :
    0 ≤ level capacity rate bucket now := by
  cases bucket with
  | none => exact capacityNonneg
  | some fill =>
      obtain ⟨nonneg, _, before⟩ := sound fill rfl
      have gained : 0 ≤ (now - fill.since) * rate :=
        mul_nonneg (sub_nonneg.mpr before) rateNonneg
      exact le_min capacityNonneg (add_nonneg nonneg gained)

/-- In a while a bucket gains what comes in, or less when it is full. -/
theorem level_later (rateNonneg : 0 ≤ rate) (bucket : Option (Fill K)) {now later : K}
    (ordered : now ≤ later) :
    level capacity rate bucket later ≤
      level capacity rate bucket now + rate * (later - now) := by
  have gained : 0 ≤ rate * (later - now) := mul_nonneg rateNonneg (sub_nonneg.mpr ordered)
  cases bucket with
  | none => exact le_add_of_nonneg_right gained
  | some fill =>
      simp only [level]
      rcases min_choice capacity (fill.tokens + (now - fill.since) * rate) with full | notFull
      · rw [full]
        exact (min_le_left _ _).trans (le_add_of_nonneg_right gained)
      · rw [notFull]
        refine (min_le_right _ _).trans (le_of_eq ?_)
        ring

theorem level_mono (rateNonneg : 0 ≤ rate) (bucket : Option (Fill K)) {now later : K}
    (ordered : now ≤ later) :
    level capacity rate bucket now ≤ level capacity rate bucket later := by
  cases bucket with
  | none => exact le_refl _
  | some fill =>
      apply min_le_min_left
      have more : (now - fill.since) * rate ≤ (later - fill.since) * rate :=
        mul_le_mul_of_nonneg_right (sub_le_sub_right ordered _) rateNonneg
      exact add_le_add_right more _

/-- With less than one token, there is one again after the time one token less what is
there takes to come in. -/
theorem one_le_level_iff (ratePos : 0 < rate) (someTokens : 1 ≤ capacity)
    (bucket : Option (Fill K)) {now later : K}
    (tooFew : level capacity rate bucket now < 1) :
    1 ≤ level capacity rate bucket later ↔
      (1 - level capacity rate bucket now) / rate ≤ later - now := by
  rw [level_later_eq bucket (tooFew.trans_le someTokens), le_min_iff, div_le_iff₀ ratePos,
    sub_le_iff_le_add', mul_comm (later - now)]
  exact and_iff_right someTokens

/-! ## What a take leaves -/

theorem sound_take (capacityNonneg : 0 ≤ capacity) (rateNonneg : 0 ≤ rate)
    {bucket : Option (Fill K)} {now later : K} (sound : Sound capacity bucket now)
    (ordered : now ≤ later) : Sound capacity (take capacity rate bucket now).2 later := by
  have nonneg := level_nonneg capacityNonneg rateNonneg sound
  have bounded : level capacity rate bucket now ≤ capacity := level_le bucket now
  intro fill taken
  unfold take at taken
  split at taken
  · rename_i enough
    cases taken
    exact ⟨sub_nonneg.mpr enough, (sub_le_self _ zero_le_one).trans bounded, ordered⟩
  · cases taken
    exact ⟨nonneg, bounded, ordered⟩

/-- Taking a token lowers the level by one, and otherwise it stays. -/
theorem level_take {bucket : Option (Fill K)} {now : K} :
    level capacity rate (take capacity rate bucket now).2 now +
        (if (take capacity rate bucket now).1 = true then 1 else 0) =
      level capacity rate bucket now := by
  have bounded : level capacity rate bucket now ≤ capacity := level_le bucket now
  unfold take
  split
  · have lower : level capacity rate bucket now - 1 ≤ capacity :=
      (sub_le_self _ zero_le_one).trans bounded
    rw [if_pos rfl]
    refine (congrArg (· + 1) (level_since lower)).trans ?_
    exact sub_add_cancel _ _
  · rw [if_neg Bool.false_ne_true, add_zero]
    exact level_since bounded

/-! ## What is taken in an interval -/

/-- From any time on, what is taken was in the bucket or has been gained. -/
theorem takenIn_le_level (capacityNonneg : 0 ≤ capacity) (rateNonneg : 0 ≤ rate)
    {start stop now : K} {bucket : Option (Fill K)} {times : List K}
    (sound : Sound capacity bucket now) (ordered : times.Pairwise (· ≤ ·))
    (later : ∀ time ∈ times, now ≤ time) (inside : now ≤ stop) :
    (takenIn capacity rate start stop bucket times : K) ≤
      level capacity rate bucket now + rate * (stop - now) := by
  induction times generalizing bucket now with
  | nil =>
      have nonneg : 0 ≤ level capacity rate bucket now :=
        level_nonneg capacityNonneg rateNonneg sound
      have gained : 0 ≤ rate * (stop - now) := mul_nonneg rateNonneg (sub_nonneg.mpr inside)
      simpa [takenIn] using add_nonneg nonneg gained
  | cons time rest ih =>
      rw [List.pairwise_cons] at ordered
      have after : now ≤ time := later time List.mem_cons_self
      rcases lt_or_ge stop time with past | within
      · have none : takenIn capacity rate start stop bucket (time :: rest) = 0 := by
          apply takenIn_eq_zero
          intro other member
          rcases List.mem_cons.mp member with rfl | inRest
          · exact past
          · exact past.trans_le (ordered.1 other inRest)
        have nonneg : 0 ≤ level capacity rate bucket now :=
          level_nonneg capacityNonneg rateNonneg sound
        have gained : 0 ≤ rate * (stop - now) := mul_nonneg rateNonneg (sub_nonneg.mpr inside)
        rw [none, Nat.cast_zero]
        exact add_nonneg nonneg gained
      · have soundLater : Sound capacity bucket time := sound.of_le after
        have soundAfter : Sound capacity (take capacity rate bucket time).2 time :=
          sound_take capacityNonneg rateNonneg soundLater (le_refl _)
        have restBound := ih soundAfter ordered.2 ordered.1 within
        have risen : level capacity rate bucket time ≤
            level capacity rate bucket now + rate * (time - now) :=
          level_later rateNonneg bucket after
        have lowered : level capacity rate (take capacity rate bucket time).2 time +
            (if (take capacity rate bucket time).1 = true then 1 else 0) =
          level capacity rate bucket time := level_take
        have counted : ((if (take capacity rate bucket time).1 = true ∧ start ≤ time ∧
              time ≤ stop then 1 else 0 : Nat) : K) ≤
            if (take capacity rate bucket time).1 = true then 1 else 0 := by
          split
          · rename_i taken
            rw [if_pos taken.1, Nat.cast_one]
          · split
            · simp
            · simp
        rw [takenIn, Nat.cast_add]
        have split : rate * (stop - now) = rate * (time - now) + rate * (stop - time) := by
          ring
        linarith

/-- In an interval, no more is taken than the capacity and what is gained in it. -/
theorem takenIn_le (capacityNonneg : 0 ≤ capacity) (rateNonneg : 0 ≤ rate)
    {start stop now : K} {bucket : Option (Fill K)} {times : List K}
    (sound : Sound capacity bucket now) (ordered : times.Pairwise (· ≤ ·))
    (later : ∀ time ∈ times, now ≤ time) (interval : start ≤ stop) :
    (takenIn capacity rate start stop bucket times : K) ≤
      capacity + rate * (stop - start) := by
  have gained : 0 ≤ rate * (stop - start) := mul_nonneg rateNonneg (sub_nonneg.mpr interval)
  induction times generalizing bucket now with
  | nil => simpa [takenIn] using add_nonneg capacityNonneg gained
  | cons time rest ih =>
      have restOrdered := List.pairwise_cons.mp ordered
      have after : now ≤ time := later time List.mem_cons_self
      have soundLater : Sound capacity bucket time := sound.of_le after
      have fromTime : ∀ other ∈ time :: rest, time ≤ other := by
        intro other member
        rcases List.mem_cons.mp member with rfl | inRest
        · exact le_refl _
        · exact restOrdered.1 other inRest
      rcases lt_or_ge time start with early | inside
      · have notCounted : ¬((take capacity rate bucket time).1 = true ∧ start ≤ time ∧
            time ≤ stop) := fun counted => absurd counted.2.1 (not_le.mpr early)
        rw [takenIn, if_neg notCounted, Nat.zero_add]
        exact ih (sound_take capacityNonneg rateNonneg soundLater (le_refl _)) restOrdered.2
          restOrdered.1
      · rcases lt_or_ge stop time with past | within
        · have none : takenIn capacity rate start stop bucket (time :: rest) = 0 :=
            takenIn_eq_zero fun other member => past.trans_le (fromTime other member)
          rw [none, Nat.cast_zero]
          exact add_nonneg capacityNonneg gained
        · have bound : (takenIn capacity rate start stop bucket (time :: rest) : K) ≤
              level capacity rate bucket time + rate * (stop - time) :=
            takenIn_le_level capacityNonneg rateNonneg soundLater ordered fromTime within
          have shorter : rate * (stop - time) ≤ rate * (stop - start) :=
            mul_le_mul_of_nonneg_left (sub_le_sub_left inside stop) rateNonneg
          have full : level capacity rate bucket time ≤ capacity := level_le bucket time
          linarith

/-! ## Buckets that are full -/

/-- The bucket has had the time to fill up. -/
def Refilled (capacity rate : K) (fill : Fill K) (now : K) : Prop :=
  capacity ≤ fill.tokens + (now - fill.since) * rate

/-- A bucket that has filled up is as good as one that has never been used. -/
theorem level_of_refilled (rateNonneg : 0 ≤ rate) {fill : Fill K} {now later : K}
    (refilled : Refilled capacity rate fill now) (ordered : now ≤ later) :
    level capacity rate (some fill) later = level capacity rate none later := by
  have more : (now - fill.since) * rate ≤ (later - fill.since) * rate :=
    mul_le_mul_of_nonneg_right (sub_le_sub_right ordered _) rateNonneg
  exact min_eq_left (refilled.trans (add_le_add_right more _))

/-! ## Uses out of order -/

section Refill

variable {fill : Fill K} {now : K}

theorem le_refill_since : now ≤ (refill capacity rate fill now).since := by
  unfold refill
  split
  · rename_i notLater
    exact sub_nonpos.mp notLater
  · exact le_refl _

theorem refill_tokens_nonneg (capacityNonneg : 0 ≤ capacity) (rateNonneg : 0 ≤ rate)
    (nonneg : 0 ≤ fill.tokens) : 0 ≤ (refill capacity rate fill now).tokens := by
  unfold refill
  split
  · exact nonneg
  · rename_i isLater
    have gained : 0 ≤ (now - fill.since) * rate := mul_nonneg (not_le.mp isLater).le rateNonneg
    exact le_min capacityNonneg (add_nonneg nonneg gained)

/-- Refilling adds nothing to what a bucket has at any time, earlier or later. -/
theorem level_refill_le (floor : K) :
    level capacity rate (some (refill capacity rate fill now)) floor ≤
      level capacity rate (some fill) floor := by
  unfold refill
  split
  · exact le_refl _
  · have filled : min capacity (fill.tokens + (now - fill.since) * rate) ≤
        fill.tokens + (now - fill.since) * rate := min_le_right _ _
    have joined : fill.tokens + (now - fill.since) * rate + (floor - now) * rate =
        fill.tokens + (floor - fill.since) * rate := by ring
    refine min_le_min_left _ ?_
    rw [← joined]
    exact add_le_add_left filled _

/-- A token that is taken is missing at every time up to the last refill. -/
theorem level_spend (rateNonneg : 0 ≤ rate) (bounded : fill.tokens ≤ capacity) {floor : K}
    (before : floor ≤ fill.since) :
    level capacity rate (some { fill with tokens := fill.tokens - 1 }) floor + 1 =
      level capacity rate (some fill) floor := by
  have lost : (floor - fill.since) * rate ≤ 0 :=
    mul_nonpos_of_nonpos_of_nonneg (sub_nonpos.mpr before) rateNonneg
  have below : fill.tokens + (floor - fill.since) * rate ≤ capacity := by linarith
  simp only [level]
  rw [min_eq_right below, min_eq_right (by linarith)]
  ring

end Refill

end Allowance

end Corvus
