import Corvus.Db.PgPool

/-!
# The accounting of the pool

`total_` is adjusted on six paths.  Each of them keeps it equal to the number of
connections that are idle or owned by a handle, and no connection is in two
places.
-/

namespace Corvus.Db

/-- The connection a handle owns. -/
def Handle.conn? : Handle → Option Nat
  | .live conn | .lent conn => conn
  | .returning conn _ => some conn
  | .notifying _ | .gone => none

namespace PgPool

/-- The live handles whose connection passes a test. -/
def ownersWhere (pool : PgPool) (test : Option Nat → Bool) : Nat :=
  pool.handles.countP fun handle => test handle.conn?

/-- The live handles that own a connection. -/
def owners (pool : PgPool) : Nat :=
  pool.ownersWhere Option.isSome

/-- The live handles that own this connection. -/
def ownersOf (pool : PgPool) (conn : Nat) : Nat :=
  pool.ownersWhere (· == some conn)

/-- The books of a pool are right. -/
structure Balanced (pool : PgPool) : Prop where
  total_eq : pool.total = pool.idle.length + pool.owners
  total_le : pool.total ≤ pool.config.maxConnections
  no_underflow : pool.underflow = false

/-- A connection is in one place at most, and what has been handed out has been returned
once for each time, but for the last time while a handle owns it. -/
structure Tracked (pool : PgPool) : Prop where
  one_place : ∀ conn, pool.idle.count conn + pool.ownersOf conn ≤ 1
  not_made : ∀ conn, pool.made ≤ conn → pool.idle.count conn + pool.ownersOf conn = 0
  returned_once : ∀ conn,
    pool.handedOut.count conn = pool.returned.count conn + pool.ownersOf conn

/-! ## Counting -/

/-- With room below the limit, and no more idle than counted, `total_` counts. -/
theorem total_count {pool : PgPool} (room : pool.total < pool.config.maxConnections) :
    pool.count.total = pool.total + 1 := by
  have limit := pool.config.max_lt
  exact Nat.mod_eq_of_lt (by omega)

theorem total_uncount {pool : PgPool} (positive : 0 < pool.total) :
    pool.uncount.total + 1 = pool.total ∧ pool.uncount.underflow = pool.underflow := by
  constructor
  · simp only [uncount]
    rw [if_neg (Nat.ne_of_gt positive)]
    omega
  · simp only [uncount, Bool.or_eq_left_iff_imp, beq_iff_eq]
    omega

/-! ## The loop of `acquire` -/

/-- What the loop leaves alone. -/
structure SameUsers (pool after : PgPool) : Prop where
  config : after.config = pool.config
  dead : after.dead = pool.dead
  handles : after.handles = pool.handles
  calls : after.calls = pool.calls
  handedOut : after.handedOut = pool.handedOut
  returned : after.returned = pool.returned

theorem SameUsers.trans {first second third : PgPool} (left : SameUsers first second)
    (right : SameUsers second third) : SameUsers first third :=
  ⟨right.config.trans left.config, right.dead.trans left.dead,
    right.handles.trans left.handles, right.calls.trans left.calls,
    right.handedOut.trans left.handedOut, right.returned.trans left.returned⟩

/-- What the loop does to the books: it never changes how much the pool can still hand
out, but for the connection it finds. -/
structure LoopSpec (pool : PgPool) (attempts : List Attempt) (found : Found)
    (after : PgPool) : Prop where
  users : SameUsers pool after
  total_le : after.total ≤ pool.config.maxConnections
  idle_le : after.idle.length ≤ after.total
  underflow : after.underflow = pool.underflow
  idle_sublist : after.idle.Sublist pool.idle
  outcome : match found with
    | .connection conn =>
        after.idle.length + 1 + pool.total = pool.idle.length + after.total ∧
          ((conn :: after.idle).Sublist pool.idle ∧ after.made = pool.made ∨
            conn = pool.made ∧ after.made = pool.made + 1)
    | .failed _ =>
        after.idle = [] ∧ after.total < pool.config.maxConnections ∧
          pool.total = pool.idle.length + after.total ∧ after.made = pool.made ∧
          (∀ conn ∈ pool.idle, conn ∈ pool.dead) ∧ .connected ∉ attempts
    | .nothing => pool.idle = [] ∧ pool.total = pool.config.maxConnections ∧ after = pool

@[simp] theorem pop_idle (pool : PgPool) : pool.pop.idle = pool.idle.tail := rfl

theorem sameUsers_pop_uncount (pool : PgPool) : SameUsers pool pool.pop.uncount :=
  ⟨rfl, rfl, rfl, rfl, rfl, rfl⟩

/-- A dead connection that cannot be replaced is dropped and uncounted. -/
theorem LoopSpec.drop {pool after : PgPool} {conn : Nat} {rest : List Nat}
    {more : List Attempt} {what : String} {found : Found} (idleEq : pool.idle = conn :: rest)
    (isDead : conn ∈ pool.dead)
    (totals : pool.pop.uncount.total + 1 = pool.total ∧
      pool.pop.uncount.underflow = pool.underflow)
    (bounded : pool.total ≤ pool.config.maxConnections)
    (spec : LoopSpec pool.pop.uncount more found after) :
    LoopSpec pool (.refused what :: more) found after := by
  have popped : pool.pop.uncount.idle = rest := by
    change pool.idle.tail = rest
    rw [idleEq, List.tail_cons]
  have length : pool.idle.length = rest.length + 1 := by rw [idleEq, List.length_cons]
  have shorter : rest.Sublist pool.idle := idleEq ▸ List.sublist_cons_self conn rest
  refine ⟨(sameUsers_pop_uncount pool).trans spec.users, spec.total_le, spec.idle_le,
    spec.underflow.trans totals.2, ?_, ?_⟩
  · exact spec.idle_sublist.trans (popped ▸ shorter)
  have outcome := spec.outcome
  cases found with
  | connection obtained =>
      obtain ⟨balance, origin⟩ := outcome
      rw [popped] at balance origin
      refine ⟨by omega, ?_⟩
      rcases origin with ⟨isIdle, made⟩ | isNew
      · exact .inl ⟨isIdle.trans shorter, made⟩
      · exact .inr isNew
  | failed reason =>
      obtain ⟨empty, room, balance, made, allDead, noneConnected⟩ := outcome
      rw [popped] at balance allDead
      refine ⟨empty, room, by omega, made, fun other member => ?_, fun member => ?_⟩
      · rw [idleEq] at member
        rcases List.mem_cons.mp member with rfl | later
        · exact isDead
        · exact allDead other later
      · rcases List.mem_cons.mp member with same | later
        · cases same
        · exact noneConnected later
  | nothing =>
      -- A dropped connection leaves room, so the loop does not wait after it.
      have full : pool.pop.uncount.total = pool.config.maxConnections := outcome.2.1
      omega

theorem acquireLoop_spec {idle : List Nat} {attempts : List Attempt} {pool after : PgPool}
    {found : Found} (idleEq : pool.idle = idle) (counted : idle.length ≤ pool.total)
    (bounded : pool.total ≤ pool.config.maxConnections)
    (ran : acquireLoop idle attempts pool = some (found, after)) :
    LoopSpec pool attempts found after := by
  induction idle generalizing pool attempts with
  | nil =>
      unfold acquireLoop at ran
      split at ran
      · rename_i room
        split at ran
        · cases ran
          have total : pool.make.count.total = pool.total + 1 := total_count room
          have empty : pool.make.count.idle = [] := idleEq
          refine ⟨⟨rfl, rfl, rfl, rfl, rfl, rfl⟩, by omega, ?_, rfl, List.Sublist.refl _, ?_⟩
          · rw [empty]
            exact Nat.zero_le _
          · refine ⟨?_, .inr ⟨rfl, rfl⟩⟩
            rw [empty, idleEq, total]
            omega
        · cases ran
          refine ⟨⟨rfl, rfl, rfl, rfl, rfl, rfl⟩, bounded, idleEq ▸ counted, rfl,
            List.Sublist.refl _, idleEq, room, ?_, rfl, ?_, by simp⟩
          · rw [idleEq]
            simp
          · intro conn member
            rw [idleEq] at member
            cases member
        · cases ran
      · rename_i full
        split at ran
        · cases ran
          exact ⟨⟨rfl, rfl, rfl, rfl, rfl, rfl⟩, bounded, idleEq ▸ counted, rfl,
            List.Sublist.refl _, idleEq, by omega, rfl⟩
        · cases ran
  | cons conn rest ih =>
      have popped : pool.pop.idle = rest := by rw [pop_idle, idleEq, List.tail_cons]
      rw [List.length_cons] at counted
      unfold acquireLoop at ran
      split at ran
      · split at ran
        · cases ran
          refine ⟨⟨rfl, rfl, rfl, rfl, rfl, rfl⟩, bounded, ?_, rfl, ?_, ?_, .inl ⟨?_, rfl⟩⟩
          · rw [popped]
            exact Nat.le_of_succ_le counted
          · rw [pop_idle]
            exact List.tail_sublist _
          · change pool.pop.idle.length + 1 + pool.total = pool.idle.length + pool.total
            rw [popped, idleEq, List.length_cons]
          · have same : conn :: pool.pop.idle = pool.idle := by rw [popped, idleEq]
            exact same ▸ List.Sublist.refl _
        · cases ran
      · rename_i isDead
        split at ran
        · cases ran
          refine ⟨⟨rfl, rfl, rfl, rfl, rfl, rfl⟩, bounded, ?_, rfl, ?_, ?_, .inr ⟨rfl, rfl⟩⟩
          · change pool.pop.idle.length ≤ pool.total
            rw [popped]
            exact Nat.le_of_succ_le counted
          · exact List.tail_sublist _
          · change pool.pop.idle.length + 1 + pool.total = pool.idle.length + pool.total
            rw [popped, idleEq, List.length_cons]
        · rename_i what more
          have totals : pool.pop.uncount.total + 1 = pool.total ∧
              pool.pop.uncount.underflow = pool.underflow :=
            @total_uncount pool.pop (Nat.lt_of_lt_of_le (Nat.succ_pos _) counted)
          refine LoopSpec.drop idleEq (by simpa using isDead) totals bounded
            (ih popped ?_ ?_ ran)
          · omega
          · have config : pool.pop.uncount.config = pool.config := rfl
            rw [config]
            omega
        · cases ran

/-! ## Steps that leave the books alone -/

/-- The books say the same, whatever else has changed. -/
structure SameBooks (pool after : PgPool) : Prop where
  config : after.config = pool.config
  idle : after.idle = pool.idle
  total : after.total = pool.total
  made : after.made = pool.made
  underflow : after.underflow = pool.underflow
  handedOut : after.handedOut = pool.handedOut
  returned : after.returned = pool.returned
  owners : ∀ test : Option Nat → Bool, test none = false →
    after.ownersWhere test = pool.ownersWhere test

theorem SameBooks.balanced {pool after : PgPool} (same : SameBooks pool after)
    (balanced : Balanced pool) : Balanced after := by
  have owners : after.owners = pool.owners := same.owners _ rfl
  refine ⟨?_, ?_, same.underflow.trans balanced.no_underflow⟩
  · rw [same.total, same.idle, owners, balanced.total_eq]
  · rw [same.total, same.config]
    exact balanced.total_le

theorem SameBooks.tracked {pool after : PgPool} (same : SameBooks pool after)
    (tracked : Tracked pool) : Tracked after := by
  have owners : ∀ conn, after.ownersOf conn = pool.ownersOf conn :=
    fun conn => same.owners _ rfl
  refine ⟨fun conn => ?_, fun conn unmade => ?_, fun conn => ?_⟩
  · rw [same.idle, owners]
    exact tracked.one_place conn
  · rw [same.made] at unmade
    rw [same.idle, owners]
    exact tracked.not_made conn unmade
  · rw [same.handedOut, same.returned, owners]
    exact tracked.returned_once conn

theorem SameBooks.trans {first second third : PgPool} (left : SameBooks first second)
    (right : SameBooks second third) : SameBooks first third where
  config := right.config.trans left.config
  idle := right.idle.trans left.idle
  total := right.total.trans left.total
  made := right.made.trans left.made
  underflow := right.underflow.trans left.underflow
  handedOut := right.handedOut.trans left.handedOut
  returned := right.returned.trans left.returned
  owners test empty := (right.owners test empty).trans (left.owners test empty)

theorem sameBooks_calls (pool : PgPool) (calls : List AcquireCall) :
    SameBooks pool { pool with calls } :=
  ⟨rfl, rfl, rfl, rfl, rfl, rfl, rfl, fun _ _ => rfl⟩

theorem sameBooks_setHandle {pool : PgPool} {id : Nat} {old : Handle} (new : Handle)
    (found : pool.handles[id]? = some old) (same : new.conn? = old.conn?) :
    SameBooks pool (pool.setHandle id new) :=
  ⟨rfl, rfl, rfl, rfl, rfl, rfl, rfl, fun _ _ =>
    Roster.countP_set_same found (by rw [same])⟩

/-- A connection goes from one handle to another that has none. -/
theorem sameBooks_moveConnection {pool : PgPool} {target source : Nat} {old from_ : Handle}
    {conn : Option Nat} (foundTarget : pool.handles[target]? = some old)
    (foundSource : pool.handles[source]? = some from_) (different : target ≠ source)
    (empty : old.conn? = none) (owned : from_.conn? = conn) :
    SameBooks pool (pool.moveConnection target source conn) := by
  refine ⟨rfl, rfl, rfl, rfl, rfl, rfl, rfl, fun test _ => ?_⟩
  refine Roster.countP_exchange foundTarget foundSource different ?_
  rw [empty, owned]
  exact Nat.add_comm _ _

theorem sameBooks_moveConstruct {pool : PgPool} {source : Nat} {conn : Option Nat}
    (found : pool.handles[source]? = some (.live conn)) :
    SameBooks pool { pool.setHandle source (.live none) with
      handles := (pool.setHandle source (.live none)).handles ++ [.live conn] } := by
  refine ⟨rfl, rfl, rfl, rfl, rfl, rfl, rfl, fun test empty => ?_⟩
  have emptied : (pool.setHandle source (.live none)).ownersWhere test +
      (test conn).toNat = pool.ownersWhere test + (test none).toNat :=
    Roster.countP_set_add found
  rw [empty] at emptied
  simp only [ownersWhere] at emptied ⊢
  rw [Roster.countP_append_one]
  exact emptied

/-! ## The steps that change them -/

/-- A stretch of `acquire` keeps the books right. -/
theorem Balanced.proceed {pool after : PgPool} {attempts : List Attempt}
    {call : AcquireCall} (balanced : Balanced pool)
    (ran : pool.proceed attempts = some (call, after)) : Balanced after := by
  have counted : pool.idle.length ≤ pool.total := by
    rw [balanced.total_eq]
    exact Nat.le_add_right _ _
  have total := balanced.total_eq
  unfold PgPool.proceed at ran
  split at ran
  · cases ran
  · rename_i conn found looped
    cases ran
    have spec := acquireLoop_spec rfl counted balanced.total_le looped
    obtain ⟨balance, _⟩ := spec.outcome
    have owners : (found.handOut conn).owners = pool.owners + 1 := by
      simp only [PgPool.owners, ownersWhere, handOut]
      rw [Roster.countP_append_one, spec.users.handles]
      rfl
    refine ⟨?_, ?_, spec.underflow.trans balanced.no_underflow⟩
    · rw [owners]
      change found.total = found.idle.length + (pool.owners + 1)
      omega
    · change found.total ≤ found.config.maxConnections
      rw [spec.users.config]
      exact spec.total_le
  · rename_i what found looped
    cases ran
    have spec := acquireLoop_spec rfl counted balanced.total_le looped
    obtain ⟨empty, _, balance, _⟩ := spec.outcome
    have owners : after.owners = pool.owners := by
      simp only [PgPool.owners, ownersWhere, spec.users.handles]
    refine ⟨?_, ?_, spec.underflow.trans balanced.no_underflow⟩
    · rw [owners, empty, List.length_nil]
      omega
    · rw [spec.users.config]
      exact spec.total_le
  · rename_i found looped
    cases ran
    have spec := acquireLoop_spec rfl counted balanced.total_le looped
    obtain ⟨_, _, rfl⟩ := spec.outcome
    exact balanced

/-- Popping a connection, or dropping some, moves none to another place. -/
theorem Tracked.fewer {pool after : PgPool} (tracked : Tracked pool)
    (users : SameUsers pool after) (sublist : after.idle.Sublist pool.idle)
    (made : after.made = pool.made) : Tracked after := by
  have owners : ∀ conn, after.ownersOf conn = pool.ownersOf conn := by
    intro conn
    simp only [ownersOf, ownersWhere, users.handles]
  refine ⟨fun conn => ?_, fun conn unmade => ?_, fun conn => ?_⟩
  · have fewer := sublist.count_le conn
    have place := tracked.one_place conn
    rw [owners]
    omega
  · have fewer := sublist.count_le conn
    have nowhere := tracked.not_made conn (made ▸ unmade)
    rw [owners]
    omega
  · rw [users.handedOut, users.returned, owners]
    exact tracked.returned_once conn

/-- A connection that was idle, or has just been made, is handed out. -/
theorem Tracked.handOut {pool found : PgPool} {conn : Nat} (tracked : Tracked pool)
    (users : SameUsers pool found) (sublist : found.idle.Sublist pool.idle)
    (origin : (conn :: found.idle).Sublist pool.idle ∧ found.made = pool.made ∨
      conn = pool.made ∧ found.made = pool.made + 1) : Tracked (found.handOut conn) := by
  have owners : ∀ other, (found.handOut conn).ownersOf other =
      pool.ownersOf other + (some conn == some other).toNat := by
    intro other
    simp only [ownersOf, ownersWhere, PgPool.handOut]
    rw [Roster.countP_append_one, users.handles]
    rfl
  have handedOut : ∀ other, (found.handOut conn).handedOut.count other =
      pool.handedOut.count other + (some conn == some other).toNat := by
    intro other
    simp only [PgPool.handOut, users.handedOut, List.count_append, List.count_singleton]
    by_cases same : conn = other <;> simp [same]
  have idle : (found.handOut conn).idle = found.idle := rfl
  have made : (found.handOut conn).made = found.made := rfl
  refine ⟨fun other => ?_, fun other unmade => ?_, fun other => ?_⟩
  · rw [idle, owners]
    have fewer := sublist.count_le other
    have place := tracked.one_place other
    by_cases same : conn = other
    · subst same
      simp only [beq_self_eq_true, Bool.toNat_true]
      rcases origin with ⟨wasIdle, _⟩ | ⟨isNew, _⟩
      · have more := wasIdle.count_le conn
        rw [List.count_cons_self] at more
        omega
      · have nowhere := tracked.not_made conn (Nat.le_of_eq isNew.symm)
        omega
    · have apart : (some conn == some other) = false :=
        beq_eq_false_iff_ne.mpr fun eq => same (Option.some.inj eq)
      rw [apart, Bool.toNat_false]
      omega
  · rw [idle, owners]
    rw [made] at unmade
    have fewer := sublist.count_le other
    have known : pool.made ≤ other ∧ conn ≠ other := by
      rcases origin with ⟨wasIdle, same⟩ | ⟨isNew, more⟩
      · rw [same] at unmade
        refine ⟨unmade, fun same => ?_⟩
        have nowhere := tracked.not_made other unmade
        have more := wasIdle.count_le other
        rw [same, List.count_cons_self] at more
        omega
      · omega
    have nowhere := tracked.not_made other known.1
    have apart : (some conn == some other) = false :=
      beq_eq_false_iff_ne.mpr fun eq => known.2 (Option.some.inj eq)
    rw [apart, Bool.toNat_false]
    omega
  · have returned : (found.handOut conn).returned = pool.returned := users.returned
    rw [handedOut, returned, owners, tracked.returned_once other]
    omega

theorem Tracked.proceed {pool after : PgPool} {attempts : List Attempt}
    {call : AcquireCall} (balanced : Balanced pool) (tracked : Tracked pool)
    (ran : pool.proceed attempts = some (call, after)) : Tracked after := by
  have counted : pool.idle.length ≤ pool.total := by
    rw [balanced.total_eq]
    exact Nat.le_add_right _ _
  unfold PgPool.proceed at ran
  split at ran
  · cases ran
  · rename_i conn found looped
    cases ran
    have spec := acquireLoop_spec rfl counted balanced.total_le looped
    exact tracked.handOut spec.users spec.idle_sublist spec.outcome.2
  · rename_i what found looped
    cases ran
    have spec := acquireLoop_spec rfl counted balanced.total_le looped
    exact tracked.fewer spec.users spec.idle_sublist spec.outcome.2.2.2.1
  · rename_i found looped
    cases ran
    have spec := acquireLoop_spec rfl counted balanced.total_le looped
    obtain ⟨_, _, rfl⟩ := spec.outcome
    exact tracked

theorem giveBack_open {pool : PgPool} {conn : Nat} (isOpen : conn ∉ pool.dead) :
    pool.giveBack conn = { pool.logReturn conn with idle := pool.idle ++ [conn] } :=
  if_pos isOpen

theorem giveBack_dead {pool : PgPool} {conn : Nat} (isDead : conn ∈ pool.dead) :
    pool.giveBack conn = (pool.logReturn conn).uncount :=
  if_neg (not_not_intro isDead)

/-- What `return_connection` changes: the connection leaves its handle, and either it is
idle or it is not counted any more. -/
structure GivenBack (pool after : PgPool) (conn : Nat) : Prop where
  config : after.config = pool.config
  made : after.made = pool.made
  handedOut : after.handedOut = pool.handedOut
  returned : after.returned = pool.returned ++ [conn]
  owners : ∀ test : Option Nat → Bool, test none = false →
    after.ownersWhere test + (test (some conn)).toNat = pool.ownersWhere test
  kept : conn ∉ pool.dead ∧ after.idle = pool.idle ++ [conn] ∧ after.total = pool.total ∧
      after.underflow = pool.underflow ∨
    conn ∈ pool.dead ∧ after.idle = pool.idle ∧ after.total + 1 = pool.total ∧
      after.underflow = pool.underflow

theorem ownersWhere_returned {pool : PgPool} {id conn : Nat} {after : AfterReturn}
    {test : Option Nat → Bool} (found : pool.handles[id]? = some (.returning conn after))
    (empty : test none = false) :
    ((pool.handles.set id (.notifying after)).countP fun handle => test handle.conn?) +
      (test (some conn)).toNat = pool.ownersWhere test := by
  have changed : ((pool.handles.set id (.notifying after)).countP fun handle =>
        test handle.conn?) + (test (some conn)).toNat =
      (pool.handles.countP fun handle => test handle.conn?) + (test none).toNat :=
    Roster.countP_set_add found
  rw [empty] at changed
  exact changed

theorem givenBack {pool : PgPool} {id conn : Nat} {after : AfterReturn}
    (balanced : Balanced pool) (found : pool.handles[id]? = some (.returning conn after)) :
    GivenBack pool ((pool.giveBack conn).setHandle id (.notifying after)) conn := by
  have owned : 0 < pool.owners := Roster.countP_pos found rfl
  have total := balanced.total_eq
  by_cases isDead : conn ∈ pool.dead
  · have counted : 0 < pool.total := by omega
    obtain ⟨fewer, same⟩ := @total_uncount (pool.logReturn conn) counted
    rw [giveBack_dead isDead]
    exact ⟨rfl, rfl, rfl, rfl, fun _ empty => ownersWhere_returned found empty,
      .inr ⟨isDead, rfl, fewer, same⟩⟩
  · rw [giveBack_open isDead]
    exact ⟨rfl, rfl, rfl, rfl, fun _ empty => ownersWhere_returned found empty,
      .inl ⟨isDead, rfl, rfl, rfl⟩⟩

theorem Balanced.givenBack {pool after : PgPool} {conn : Nat} (balanced : Balanced pool)
    (given : GivenBack pool after conn) : Balanced after := by
  have owners : after.owners + 1 = pool.owners := given.owners _ rfl
  have total := balanced.total_eq
  have bounded := balanced.total_le
  rw [← given.config] at bounded
  rcases given.kept with ⟨_, idle, same, underflow⟩ | ⟨_, idle, fewer, underflow⟩
  · refine ⟨?_, same ▸ bounded, underflow.trans balanced.no_underflow⟩
    rw [idle, List.length_append, List.length_singleton]
    omega
  · refine ⟨?_, by omega, underflow.trans balanced.no_underflow⟩
    rw [idle]
    omega

theorem Tracked.givenBack {pool after : PgPool} {conn : Nat} (tracked : Tracked pool)
    (given : GivenBack pool after conn) : Tracked after := by
  have owners : ∀ other, after.ownersOf other + (some conn == some other).toNat =
      pool.ownersOf other := fun other => given.owners _ rfl
  have idle : ∀ other, after.idle.count other ≤
      pool.idle.count other + (some conn == some other).toNat := by
    intro other
    rcases given.kept with ⟨_, same, _⟩ | ⟨_, same, _⟩
    · rw [same, List.count_append, List.count_singleton]
      by_cases same : conn = other <;> simp [same]
    · rw [same]
      exact Nat.le_add_right _ _
  refine ⟨fun other => ?_, fun other unmade => ?_, fun other => ?_⟩
  · have place := tracked.one_place other
    have before := idle other
    have now := owners other
    omega
  · have nowhere := tracked.not_made other (given.made ▸ unmade)
    have before := idle other
    have now := owners other
    omega
  · have once := tracked.returned_once other
    have now := owners other
    have count : after.returned.count other =
        pool.returned.count other + (some conn == some other).toNat := by
      rw [given.returned, List.count_append, List.count_singleton]
      by_cases same : conn = other <;> simp [same]
    rw [given.handedOut, count, once]
    omega

/-! ## Every step -/

/-- The books are right and every connection is where it should be. -/
structure Accounted (pool : PgPool) : Prop where
  balanced : Balanced pool
  tracked : Tracked pool

theorem SameBooks.accounted {pool after : PgPool} (same : SameBooks pool after)
    (accounted : Accounted pool) : Accounted after :=
  ⟨same.balanced accounted.balanced, same.tracked accounted.tracked⟩

theorem Accounted.proceed {pool after : PgPool} {attempts : List Attempt}
    {call : AcquireCall} (accounted : Accounted pool)
    (ran : pool.proceed attempts = some (call, after)) : Accounted after :=
  ⟨accounted.balanced.proceed ran, accounted.tracked.proceed accounted.balanced ran⟩

theorem sameBooks_wake {pool woke : PgPool} {woken : Option Nat}
    (wakes : pool.wake woken = some woke) : SameBooks pool woke := by
  cases woken with
  | none =>
      simp only [wake] at wakes
      split at wakes
      · cases wakes
      · cases wakes
        exact sameBooks_calls _ _
  | some id =>
      simp only [wake] at wakes
      split at wakes
      · cases wakes
        exact sameBooks_calls _ _
      · cases wakes

theorem sameBooks_finishReturn {pool next : PgPool} {handle : Nat} {after : AfterReturn}
    (found : pool.handles[handle]? = some (.notifying after))
    (finished : pool.finishReturn handle after = some next) : SameBooks pool next := by
  cases after with
  | destroy =>
      cases finished
      exact sameBooks_setHandle .gone found rfl
  | assign source =>
      simp only [finishReturn] at finished
      split at finished
      · rename_i conn lent
        cases finished
        refine sameBooks_moveConnection found lent ?_ rfl rfl
        rintro rfl
        rw [found] at lent
        cases lent
      · cases finished

theorem handles_wake {pool woke : PgPool} {woken : Option Nat}
    (wakes : pool.wake woken = some woke) : woke.handles = pool.handles := by
  cases woken <;> simp only [wake] at wakes <;> split at wakes <;> cases wakes <;> rfl

theorem Accounted.step {pool next : PgPool} {event : PoolEvent} (accounted : Accounted pool)
    (stepped : pool.step event = some next) : Accounted next := by
  cases Step.of_step stepped with
  | entered ran => exact (sameBooks_calls _ _).accounted (accounted.proceed ran)
  | unblocked _ => exact (sameBooks_calls pool _).accounted accounted
  | gaveUp _ => exact (sameBooks_calls pool _).accounted accounted
  | resumed _ ran => exact (sameBooks_calls _ _).accounted (accounted.proceed ran)
  | moveConstructed found => exact (sameBooks_moveConstruct found).accounted accounted
  | selfAssigned => exact accounted
  | assigned foundTarget foundSource different =>
      exact (sameBooks_moveConnection foundTarget foundSource different rfl rfl).accounted
        accounted
  | @replacing target source conn new foundTarget foundSource different =>
      have still : (pool.setHandle target (.returning conn (.assign source))).handles[source]? =
          some (.live new) := by
        rw [handles_setHandle_of_ne different, foundSource]
      have emptied := sameBooks_setHandle (.returning conn (.assign source)) foundTarget rfl
      have lent := sameBooks_setHandle (.lent new) still rfl
      exact (emptied.trans lent).accounted accounted
  | destroying found =>
      exact (sameBooks_setHandle (.returning _ .destroy) found rfl).accounted accounted
  | destroyedEmpty found => exact (sameBooks_setHandle .gone found rfl).accounted accounted
  | gaveBack found =>
      have given := PgPool.givenBack accounted.balanced found
      exact ⟨accounted.balanced.givenBack given, accounted.tracked.givenBack given⟩
  | @notified handle _ after woke _ found wakes finished =>
      have still : woke.handles[handle]? = some (.notifying after) := by
        rw [handles_wake wakes, found]
      exact ((sameBooks_wake wakes).trans (sameBooks_finishReturn still finished)).accounted
        accounted
  | died _ =>
      exact ⟨⟨accounted.balanced.total_eq, accounted.balanced.total_le,
        accounted.balanced.no_underflow⟩, ⟨accounted.tracked.one_place,
        accounted.tracked.not_made, accounted.tracked.returned_once⟩⟩

/-! ## The constructor, and every run -/

/-- A pool under construction: no handles yet, and as many connections as counted. -/
structure Filling (pool : PgPool) : Prop where
  idle_eq : pool.idle = List.range pool.made
  total_eq : pool.total = pool.made
  handles_nil : pool.handles = []
  calls_nil : pool.calls = []
  handedOut_nil : pool.handedOut = []
  returned_nil : pool.returned = []
  no_underflow : pool.underflow = false

theorem Filling.accounted {pool : PgPool} (filling : Filling pool)
    (bounded : pool.made ≤ pool.config.maxConnections) : Accounted pool := by
  have owners : ∀ test, pool.ownersWhere test = 0 := by
    intro test
    rw [ownersWhere, filling.handles_nil]
    rfl
  refine ⟨⟨?_, filling.total_eq ▸ bounded, filling.no_underflow⟩, ⟨?_, ?_, ?_⟩⟩
  · rw [PgPool.owners, owners, filling.idle_eq, List.length_range, filling.total_eq,
      Nat.add_zero]
  · intro conn
    rw [ownersOf, owners, filling.idle_eq, Nat.add_zero]
    exact List.nodup_iff_count.mp List.nodup_range conn
  · intro conn unmade
    rw [ownersOf, owners, filling.idle_eq, Nat.add_zero]
    exact List.count_eq_zero_of_not_mem (by simpa using unmade)
  · intro conn
    rw [ownersOf, owners, filling.handedOut_nil, filling.returned_nil]
    rfl

theorem Filling.fill {rounds : Nat} {attempts : List Attempt} {pool after : PgPool}
    (filling : Filling pool) (bounded : pool.made + rounds ≤ pool.config.maxConnections)
    (filled : fill rounds attempts pool = some (.ok after)) :
    Filling after ∧ after.made ≤ after.config.maxConnections := by
  induction rounds generalizing pool attempts with
  | zero =>
      simp only [PgPool.fill] at filled
      split at filled <;> cases filled
      exact ⟨filling, bounded⟩
  | succ rounds ih =>
      simp only [PgPool.fill] at filled
      split at filled
      · have room : pool.push.total < pool.push.config.maxConnections := by
          change pool.total < pool.config.maxConnections
          rw [filling.total_eq]
          omega
        have idle : pool.push.count.idle = List.range pool.push.count.made := by
          change pool.idle ++ [pool.made] = List.range (pool.made + 1)
          rw [filling.idle_eq, List.range_succ]
        have total : pool.push.count.total = pool.push.count.made := by
          rw [total_count room]
          change pool.total + 1 = pool.made + 1
          rw [filling.total_eq]
        refine ih ⟨idle, total, filling.handles_nil, filling.calls_nil,
          filling.handedOut_nil, filling.returned_nil, filling.no_underflow⟩ ?_ filled
        change pool.made + 1 + rounds ≤ pool.config.maxConnections
        omega
      · cases filled
      · cases filled

/-- What the constructor leaves. -/
theorem filling_of_construct {config : PoolConfig} {attempts : List Attempt}
    {pool : PgPool} (constructed : construct config attempts = some (.ok pool)) :
    Filling pool ∧ pool.made ≤ pool.config.maxConnections := by
  unfold construct at constructed
  split at constructed
  · cases constructed
  · split at constructed
    · cases constructed
    · rename_i bounds
      split at constructed
      · cases constructed
      · have empty : Filling {
            config, idle := [], total := 0, dead := [], made := 0, handles := [], calls := [],
            underflow := false, handedOut := [], returned := [] } :=
          ⟨rfl, rfl, rfl, rfl, rfl, rfl, rfl⟩
        refine empty.fill ?_ constructed
        change 0 + config.minConnections ≤ config.maxConnections
        omega

/-- A pool that has been constructed is in order. -/
theorem accounted_of_construct {config : PoolConfig} {attempts : List Attempt}
    {pool : PgPool} (constructed : construct config attempts = some (.ok pool)) :
    Accounted pool := by
  obtain ⟨filling, bounded⟩ := filling_of_construct constructed
  exact filling.accounted bounded

/-- Whatever the threads and the connections do, the books of the pool are right. -/
theorem pool_accounting {pool : PgPool}
    (reachable : machine.Reachable (fun _ _ => True) pool) : Accounted pool := by
  refine @Machine.Reachable.invariant _ _ _ _ Accounted ?_ ?_ _ reachable
  · rintro start ⟨config, attempts, constructed⟩
    exact accounted_of_construct constructed
  · intro state event next accounted _ stepped
    exact accounted.step stepped

/-! ## A pool of two -/

def sampleConfig : PoolConfig where
  connectionString := "host=localhost"
  minConnections := 1
  maxConnections := 2

/-- The pool of the configuration, with its one connection. -/
def samplePool : PgPool where
  config := sampleConfig
  idle := [0]
  total := 1
  dead := []
  made := 1
  handles := []
  calls := []
  underflow := false
  handedOut := []
  returned := []

theorem samplePool_initial : machine.initial samplePool :=
  ⟨sampleConfig, [.connected], rfl⟩

/-- The pool after a list of events. -/
def runSample (events : List PoolEvent) : PgPool :=
  (machine.execute samplePool events).getD samplePool

theorem runSample_reachable {guard : PgPool → PoolEvent → Prop} {events : List PoolEvent}
    (possible : (machine.execute samplePool events).isSome = true)
    (allowed : machine.Allows guard samplePool events) :
    machine.Reachable guard (runSample events) := by
  obtain ⟨last, replayed⟩ := Option.isSome_iff_exists.mp possible
  refine ⟨samplePool, samplePool_initial, ?_⟩
  rw [runSample, replayed, Option.getD_some]
  exact Machine.runs_of_execute replayed allowed

/-- The idle connection dies, is replaced, and the replacement is given back. -/
def replaceAndReturn : List PoolEvent :=
  [.die 0, .acquire [.connected], .destroy 0, .giveBack 0]

theorem pool_accounting_return :
    (runSample replaceAndReturn).returned = [1] ∧ Accounted (runSample replaceAndReturn) :=
  ⟨by decide, pool_accounting (runSample_reachable rfl
    (Machine.allows_of_forall fun _ _ _ => trivial))⟩

end PgPool

end Corvus.Db
