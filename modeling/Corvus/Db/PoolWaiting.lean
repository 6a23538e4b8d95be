import Corvus.Db.PoolAccounting

/-!
# Waiting for a connection

What the pool could still hand out changes with the connections that are given
back and taken, and with nothing else.  Every connection given back comes with
one `notify_one`; whoever is woken up by it and leaves `acquire` by an exception
takes the signal along.  A wait that times out throws without another look at
the pool.
-/

namespace Corvus.Db

/-- What a waiting call saw. -/
def AcquireCall.look? : AcquireCall → Option Look
  | .blocked seen | .waking _ seen => some seen
  | _ => none

namespace PgPool

/-- The calls of `acquire` that are blocked in the wait. -/
def blocked (pool : PgPool) : Nat :=
  pool.calls.countP AcquireCall.isBlocked

/-- The notifications on their way: not issued yet, or not acted on yet. -/
def notifications (pool : PgPool) : Nat :=
  pool.handles.countP Handle.isNotifying + pool.calls.countP AcquireCall.isNotified

/-- How many connections the pool could hand out. -/
def spare (pool : PgPool) : Nat :=
  pool.idle.length + (pool.config.maxConnections - pool.total)

/-- Nobody sleeps while there is something to hand out and no notification under way. -/
def NoLostWakeup (pool : PgPool) : Prop :=
  0 < pool.blocked → pool.notifications = 0 →
    pool.idle = [] ∧ pool.total = pool.config.maxConnections

/-- A notified call that finds something to hand out while others sleep gets it: its wait
does not time out, and an idle connection is open or one can be made. -/
def SignalsUsed (pool : PgPool) : PoolEvent → Prop
  | .resume id timedOut attempts =>
      ∀ look, pool.calls[id]? = some (.waking true look) →
        0 < pool.spare → 0 < pool.blocked →
        timedOut = false ∧
          ((∃ conn ∈ pool.idle, conn ∉ pool.dead) ∨ Attempt.connected ∈ attempts)
  | _ => True

theorem spare_eq_zero_iff {pool : PgPool} (balanced : Balanced pool) :
    pool.spare = 0 ↔ pool.idle = [] ∧ pool.total = pool.config.maxConnections := by
  have bounded := balanced.total_le
  rw [spare, Nat.add_eq_zero_iff, List.length_eq_zero_iff]
  constructor
  · rintro ⟨empty, full⟩
    exact ⟨empty, by omega⟩
  · rintro ⟨empty, full⟩
    exact ⟨empty, by omega⟩

/-! ## What a stretch of `acquire` takes -/

/-- How a stretch of `acquire` ends, in terms of what the pool could hand out. -/
inductive Proceeds (pool : PgPool) (attempts : List Attempt) : AcquireCall → PgPool → Prop where
  | took {after : PgPool} {conn : Nat} :
      after.calls = pool.calls → after.config = pool.config →
      after.handles.countP Handle.isNotifying = pool.handles.countP Handle.isNotifying →
      after.spare + 1 = pool.spare → after.handedOut = pool.handedOut ++ [conn] →
      after.returned = pool.returned →
      Proceeds pool attempts (.returned pool.handles.length) after
  | failed {after : PgPool} {what : String} :
      after.calls = pool.calls → after.config = pool.config → after.handles = pool.handles →
      after.spare = pool.spare → 0 < pool.spare → after.handedOut = pool.handedOut →
      after.returned = pool.returned → (∀ conn ∈ pool.idle, conn ∈ pool.dead) →
      Attempt.connected ∉ attempts →
      Proceeds pool attempts (.threw (connectError what)) after
  | waits : pool.spare = 0 → Proceeds pool attempts (.blocked pool.look) pool

theorem proceeds {pool after : PgPool} {attempts : List Attempt} {call : AcquireCall}
    (balanced : Balanced pool) (ran : pool.proceed attempts = some (call, after)) :
    Proceeds pool attempts call after := by
  have total := balanced.total_eq
  have bounded := balanced.total_le
  have counted : pool.idle.length ≤ pool.total := by omega
  unfold proceed at ran
  split at ran
  · cases ran
  · rename_i conn found looped
    cases ran
    have spec := acquireLoop_spec rfl counted bounded looped
    have balance := spec.outcome.1
    have below := spec.total_le
    rw [spec.users.handles]
    refine @Proceeds.took _ _ _ conn spec.users.calls spec.users.config ?_ ?_ ?_ spec.users.returned
    · rw [handOut, Roster.countP_append_one, spec.users.handles]
      rfl
    · change found.idle.length + (found.config.maxConnections - found.total) + 1 = _
      rw [spec.users.config, spare]
      omega
    · rw [handOut, spec.users.handedOut]
  · rename_i what found looped
    cases ran
    have spec := acquireLoop_spec rfl counted bounded looped
    obtain ⟨empty, room, balance, _, allDead, noneConnected⟩ := spec.outcome
    have same : after.spare = pool.spare := by
      rw [spare, spare, spec.users.config, empty, List.length_nil]
      omega
    have more : 0 < pool.spare := by
      rw [spare]
      omega
    exact .failed spec.users.calls spec.users.config spec.users.handles same more
      spec.users.handedOut spec.users.returned allDead noneConnected
  · rename_i found looped
    cases ran
    have spec := acquireLoop_spec rfl counted bounded looped
    obtain ⟨empty, full, rfl⟩ := spec.outcome
    exact .waits ((spare_eq_zero_iff balanced).mpr ⟨empty, full⟩)

/-! ## Every connection to hand out has its notification -/

/-- While calls are blocked, there is a notification for all that could be handed out. -/
def Covered (pool : PgPool) : Prop :=
  0 < pool.blocked → pool.spare ≤ pool.notifications

theorem Covered.noLostWakeup {pool : PgPool} (covered : Covered pool)
    (balanced : Balanced pool) : NoLostWakeup pool := by
  intro sleeping silent
  have nothing := covered sleeping
  rw [silent, Nat.le_zero_eq] at nothing
  exact (spare_eq_zero_iff balanced).mp nothing

/-- A step that changes only handles, none of which is or comes to be notifying. -/
theorem Covered.of_handles {pool after : PgPool} (covered : Covered pool)
    (spare : after.spare = pool.spare) (calls : after.calls = pool.calls)
    (handles : after.handles.countP Handle.isNotifying =
      pool.handles.countP Handle.isNotifying) : Covered after := by
  intro sleeping
  rw [blocked, calls] at sleeping
  rw [spare, notifications, handles, calls]
  exact covered sleeping

theorem Covered.setHandle {pool : PgPool} {id : Nat} {old : Handle} (new : Handle)
    (covered : Covered pool) (found : pool.handles[id]? = some old)
    (same : new.isNotifying = old.isNotifying) : Covered (pool.setHandle id new) :=
  covered.of_handles rfl rfl (Roster.countP_set_same found same)

theorem Covered.moveConnection {pool : PgPool} {target source : Nat} {old from_ : Handle}
    {conn : Option Nat} (covered : Covered pool)
    (foundTarget : pool.handles[target]? = some old)
    (foundSource : pool.handles[source]? = some from_) (different : target ≠ source)
    (quietTarget : old.isNotifying = false) (quietSource : from_.isNotifying = false) :
    Covered (pool.moveConnection target source conn) := by
  refine covered.of_handles rfl rfl (Roster.countP_exchange foundTarget foundSource different ?_)
  rw [quietTarget, quietSource]
  rfl

/-- A call that is blocked or woken up takes another state. -/
theorem countP_setCall {pool : PgPool} {id : Nat} {old : AcquireCall} (new : AcquireCall)
    (found : pool.calls[id]? = some old) :
    (pool.setCall id new).blocked + old.isBlocked.toNat =
        pool.blocked + new.isBlocked.toNat ∧
      (pool.setCall id new).notifications + old.isNotified.toNat =
        pool.notifications + new.isNotified.toNat := by
  have sleeping : (pool.setCall id new).blocked + old.isBlocked.toNat =
      pool.blocked + new.isBlocked.toNat := Roster.countP_set_add found
  have notified : (pool.calls.set id new).countP AcquireCall.isNotified +
      old.isNotified.toNat = pool.calls.countP AcquireCall.isNotified +
        new.isNotified.toNat := Roster.countP_set_add found
  refine ⟨sleeping, ?_⟩
  simp only [notifications, setCall]
  omega

/-- A new call of `acquire` takes from what the notifications cover, or finds nothing. -/
theorem Covered.acquire {pool after : PgPool} {attempts : List Attempt} {call : AcquireCall}
    (covered : Covered pool) (ends : Proceeds pool attempts call after) :
    Covered { after with calls := after.calls ++ [call] } := by
  cases ends with
  | took calls config handles spare =>
      intro sleeping
      simp only [blocked, notifications, calls, handles] at sleeping ⊢
      rw [Roster.countP_append_one] at sleeping ⊢
      have before := covered sleeping
      change after.spare ≤ _
      simp only [notifications] at before
      omega
  | failed calls config handles spare =>
      intro sleeping
      simp only [blocked, notifications, calls, handles] at sleeping ⊢
      rw [Roster.countP_append_one] at sleeping ⊢
      have before := covered sleeping
      change after.spare ≤ _
      simp only [notifications] at before
      omega
  | waits nothing =>
      intro _
      change pool.spare ≤ _
      rw [nothing]
      exact Nat.zero_le _

/-- A call that was woken up leaves `acquire`, and its notification is used up. -/
theorem leaves {pool after : PgPool} {id : Nat} {notified : Bool} {seen : Look}
    {call : AcquireCall} (found : pool.calls[id]? = some (.waking notified seen))
    (calls : after.calls = pool.calls)
    (handles : after.handles.countP Handle.isNotifying =
      pool.handles.countP Handle.isNotifying)
    (awake : call.isBlocked = false) (done : call.isNotified = false) :
    (after.setCall id call).blocked = pool.blocked ∧
      (after.setCall id call).notifications + notified.toNat = pool.notifications := by
  obtain ⟨sleepers, signals⟩ := countP_setCall call found
  rw [awake] at sleepers
  rw [done] at signals
  constructor
  · simp only [blocked, setCall, calls]
    exact sleepers
  · simp only [notifications, setCall, calls, handles]
    exact signals

/-- A call that was woken up uses its notification, or there is nothing to use it on. -/
theorem Covered.resume {pool after : PgPool} {attempts : List Attempt} {call : AcquireCall}
    {id : Nat} {notified : Bool} {seen : Look} (covered : Covered pool)
    (found : pool.calls[id]? = some (.waking notified seen))
    (used : notified = true → 0 < pool.spare → 0 < pool.blocked →
      (∃ conn ∈ pool.idle, conn ∉ pool.dead) ∨ Attempt.connected ∈ attempts)
    (ends : Proceeds pool attempts call after) : Covered (after.setCall id call) := by
  cases ends with
  | took calls config handles spare =>
      obtain ⟨sleepers, signals⟩ :=
        @leaves _ _ _ _ _ (.returned pool.handles.length) found calls handles rfl rfl
      intro sleeping
      have before := covered (sleepers ▸ sleeping)
      have one : notified.toNat ≤ 1 := Bool.toNat_le notified
      change after.spare ≤ _
      omega
  | @failed _ what calls config handles spare more handedOut returned allDead noneConnected =>
      obtain ⟨sleepers, signals⟩ :=
        @leaves _ _ _ _ _ (.threw (connectError what)) found calls (by rw [handles]) rfl rfl
      intro sleeping
      have sleepingBefore := sleepers ▸ sleeping
      have before := covered sleepingBefore
      change after.spare ≤ _
      cases notified with
      | false =>
          rw [Bool.toNat_false] at signals
          omega
      | true =>
          rcases used rfl more sleepingBefore with ⟨conn, member, isOpen⟩ | isConnected
          · exact absurd (allDead conn member) isOpen
          · exact absurd isConnected noneConnected
  | waits nothing =>
      intro _
      change pool.spare ≤ _
      rw [nothing]
      exact Nat.zero_le _

/-- A wait that times out: nobody is blocked then, there is nothing to hand out, or the
call had not been notified. -/
theorem Covered.unblock {pool : PgPool} {id : Nat} {seen : Look} (covered : Covered pool)
    (found : pool.calls[id]? = some (.blocked seen)) :
    Covered (pool.setCall id (.waking false seen)) := by
  obtain ⟨sleepers, signals⟩ := countP_setCall (.waking false seen) found
  intro sleeping
  have fewer : (pool.setCall id (.waking false seen)).blocked + 1 = pool.blocked := sleepers
  have same : (pool.setCall id (.waking false seen)).notifications = pool.notifications :=
    signals
  have before := covered (by omega)
  rw [same]
  exact before

theorem Covered.timeOut {pool : PgPool} {id : Nat} {notified : Bool} {seen : Look}
    (covered : Covered pool) (found : pool.calls[id]? = some (.waking notified seen))
    (unused : notified = true → 0 < pool.spare → pool.blocked = 0) :
    Covered (pool.setCall id (.threw pool.exhausted)) := by
  obtain ⟨sleepers, signals⟩ :=
    @leaves _ pool _ _ _ (.threw pool.exhausted) found rfl rfl rfl rfl
  intro sleeping
  rw [sleepers] at sleeping
  have before := covered sleeping
  change pool.spare ≤ _
  cases notified with
  | false =>
      rw [Bool.toNat_false] at signals
      omega
  | true =>
      rcases Nat.eq_zero_or_pos pool.spare with nothing | more
      · rw [nothing]
        exact Nat.zero_le _
      · have nobody := unused rfl more
        omega

theorem giveBack_users (pool : PgPool) (conn : Nat) :
    (pool.giveBack conn).handles = pool.handles ∧ (pool.giveBack conn).calls = pool.calls := by
  unfold PgPool.giveBack
  split <;> exact ⟨rfl, rfl⟩

/-- What is given back can be handed out. -/
theorem GivenBack.spare {pool after : PgPool} {conn : Nat} (given : GivenBack pool after conn)
    (balanced : Balanced pool) : after.spare = pool.spare + 1 := by
  have bounded := balanced.total_le
  rw [PgPool.spare, PgPool.spare, given.config]
  rcases given.kept with ⟨_, idle, total, _⟩ | ⟨_, idle, total, _⟩
  · rw [idle, total, List.length_append, List.length_singleton]
    omega
  · rw [idle]
    omega

/-- A connection given back is announced. -/
theorem Covered.giveBack {pool : PgPool} {id conn : Nat} {after : AfterReturn}
    (covered : Covered pool) (balanced : Balanced pool)
    (found : pool.handles[id]? = some (.returning conn after)) :
    Covered ((pool.giveBack conn).setHandle id (.notifying after)) := by
  have spare := (givenBack balanced found).spare balanced
  obtain ⟨handles, calls⟩ := giveBack_users pool conn
  have announced : (pool.handles.set id (.notifying after)).countP Handle.isNotifying + 0 =
      pool.handles.countP Handle.isNotifying + 1 := Roster.countP_set_add found
  have sleepers : ((pool.giveBack conn).setHandle id (.notifying after)).blocked =
      pool.blocked := by
    simp only [blocked, PgPool.setHandle, calls]
  have signals : ((pool.giveBack conn).setHandle id (.notifying after)).notifications =
      pool.notifications + 1 := by
    simp only [notifications, PgPool.setHandle, handles, calls]
    omega
  intro sleeping
  have before := covered (sleepers ▸ sleeping)
  omega

/-- The end of `return_connection` is the end of its notification. -/
theorem finishReturn_signals {pool next : PgPool} {handle : Nat} {after : AfterReturn}
    (found : pool.handles[handle]? = some (.notifying after))
    (finished : pool.finishReturn handle after = some next) :
    next.spare = pool.spare ∧ next.blocked = pool.blocked ∧
      next.notifications + 1 = pool.notifications := by
  cases after with
  | destroy =>
      cases finished
      have ended : (pool.handles.set handle .gone).countP Handle.isNotifying + 1 =
          pool.handles.countP Handle.isNotifying := Roster.countP_set_add found
      refine ⟨rfl, rfl, ?_⟩
      simp only [notifications, PgPool.setHandle]
      omega
  | assign source =>
      simp only [finishReturn] at finished
      split at finished
      · rename_i conn lent
        cases finished
        have different : handle ≠ source := by
          rintro rfl
          rw [found] at lent
          cases lent
        have ended : (pool.handles.set handle (.live conn)).countP Handle.isNotifying + 1 =
            pool.handles.countP Handle.isNotifying := Roster.countP_set_add found
        have still : (pool.handles.set handle (.live conn))[source]? = some (.lent conn) := by
          rw [List.getElem?_set_ne different, lent]
        have quiet : ((pool.handles.set handle (.live conn)).set source
              (.live none)).countP Handle.isNotifying =
            (pool.handles.set handle (.live conn)).countP Handle.isNotifying :=
          Roster.countP_set_same still rfl
        refine ⟨rfl, rfl, ?_⟩
        simp only [notifications, PgPool.moveConnection, PgPool.setHandle]
        omega
      · cases finished

/-- `notify_one` passes its signal to a blocked call if there is one. -/
theorem wake_signals {pool woke : PgPool} {woken : Option Nat}
    (wakes : pool.wake woken = some woke) :
    woke.spare = pool.spare ∧ (pool.blocked = 0 ∧ woke = pool ∨
      woke.blocked + 1 = pool.blocked ∧ woke.notifications = pool.notifications + 1) := by
  cases woken with
  | none =>
      simp only [wake] at wakes
      split at wakes
      · cases wakes
      · rename_i nobody
        cases wakes
        refine ⟨rfl, .inl ⟨?_, rfl⟩⟩
        rw [blocked, List.countP_eq_zero]
        intro call member isBlocked
        exact nobody (List.any_eq_true.mpr ⟨call, member, isBlocked⟩)
  | some id =>
      simp only [wake] at wakes
      split at wakes
      · rename_i seen found
        cases wakes
        obtain ⟨sleepers, signals⟩ := countP_setCall (.waking true seen) found
        exact ⟨rfl, .inr ⟨sleepers, signals⟩⟩
      · cases wakes

theorem Covered.notify {pool woke next : PgPool} {handle : Nat} {woken : Option Nat}
    {after : AfterReturn} (covered : Covered pool)
    (found : pool.handles[handle]? = some (.notifying after))
    (wakes : pool.wake woken = some woke)
    (finished : woke.finishReturn handle after = some next) : Covered next := by
  have still : woke.handles[handle]? = some (.notifying after) := by
    rw [handles_wake wakes, found]
  obtain ⟨sameSpare, sleepers, ended⟩ := finishReturn_signals still finished
  obtain ⟨spare, outcome⟩ := wake_signals wakes
  intro sleeping
  rcases outcome with ⟨nobody, rfl⟩ | ⟨fewer, passed⟩
  · omega
  · have before := covered (by omega)
    omega

theorem Covered.step {pool next : PgPool} {event : PoolEvent} (covered : Covered pool)
    (accounted : Accounted pool) (used : SignalsUsed pool event)
    (stepped : pool.step event = some next) : Covered next := by
  cases Step.of_step stepped with
  | entered ran => exact covered.acquire (proceeds accounted.balanced ran)
  | unblocked found => exact covered.unblock found
  | gaveUp found =>
      refine covered.timeOut found fun isNotified more => ?_
      rcases Nat.eq_zero_or_pos pool.blocked with nobody | sleeping
      · exact nobody
      · have inTime := (used _ (isNotified ▸ found) more sleeping).1
        cases inTime
  | resumed found ran =>
      exact covered.resume found
        (fun isNotified more sleeping => (used _ (isNotified ▸ found) more sleeping).2)
        (proceeds accounted.balanced ran)
  | moveConstructed found =>
      refine (covered.setHandle (.live none) found rfl).of_handles rfl rfl ?_
      exact Roster.countP_append_one
  | selfAssigned => exact covered
  | assigned foundTarget foundSource different =>
      exact covered.moveConnection foundTarget foundSource different rfl rfl
  | @replacing target source conn new foundTarget foundSource different =>
      have still : (pool.setHandle target (.returning conn (.assign source))).handles[source]? =
          some (.live new) := by
        rw [handles_setHandle_of_ne different, foundSource]
      have emptied := covered.setHandle (.returning conn (.assign source)) foundTarget rfl
      exact emptied.setHandle (.lent new) still rfl
  | destroying found => exact covered.setHandle (.returning _ .destroy) found rfl
  | destroyedEmpty found => exact covered.setHandle .gone found rfl
  | gaveBack found => exact covered.giveBack accounted.balanced found
  | notified found wakes finished => exact covered.notify found wakes finished
  | died _ => exact covered

/-- When a pool comes up nobody waits for it. -/
theorem covered_of_construct {config : PoolConfig} {attempts : List Attempt}
    {pool : PgPool} (constructed : construct config attempts = some (.ok pool)) :
    Covered pool := by
  intro sleeping
  rw [blocked, (filling_of_construct constructed).1.calls_nil] at sleeping
  cases sleeping

/-- As long as every notified call that finds something to hand out gets it, no wake-up is
lost. -/
theorem no_lost_wakeup {pool : PgPool}
    (reachable : machine.Reachable SignalsUsed pool) : NoLostWakeup pool := by
  have invariant : Accounted pool ∧ Covered pool := by
    refine @Machine.Reachable.invariant _ _ _ _
      (fun state => Accounted state ∧ Covered state) ?_ ?_ _ reachable
    · rintro start ⟨config, attempts, constructed⟩
      exact ⟨accounted_of_construct constructed, covered_of_construct constructed⟩
    · rintro state event next ⟨accounted, covered⟩ used stepped
      exact ⟨accounted.step stepped, covered.step accounted used stepped⟩
  exact invariant.2.noLostWakeup invariant.1.balanced

/-- Both connections are handed out, two calls wait, and one connection is given back. -/
def giveBackToWaiting : List PoolEvent :=
  [.acquire [], .acquire [.connected], .acquire [], .acquire [], .destroy 0, .giveBack 0,
    .notify 0 (some 2)]

/-- The notified call takes the connection, and the other one goes on sleeping. -/
def signalUsed : PgPool :=
  ((runSample giveBackToWaiting).step (.resume 2 false [])).getD (runSample giveBackToWaiting)

theorem no_lost_wakeup_used :
    0 < signalUsed.blocked ∧ signalUsed.notifications = 0 ∧ NoLostWakeup signalUsed := by
  have notified : machine.Reachable SignalsUsed (runSample giveBackToWaiting) := by
    refine runSample_reachable rfl (Machine.allows_of_forall fun event member _ => ?_)
    simp only [giveBackToWaiting, List.mem_cons, List.not_mem_nil, or_false] at member
    rcases member with rfl | rfl | rfl | rfl | rfl | rfl | rfl <;> trivial
  have used : SignalsUsed (runSample giveBackToWaiting) (.resume 2 false []) :=
    fun _ _ _ _ => ⟨rfl, .inl ⟨0, by decide, by decide⟩⟩
  have reachable : machine.Reachable SignalsUsed signalUsed :=
    notified.extend ((Machine.Runs.refl (runSample giveBackToWaiting)).tail used rfl)
  exact ⟨by decide, by decide, no_lost_wakeup reachable⟩

/-- No wake-up is lost, whatever the threads and the connections do. -/
def WakeupsAreNotLost : Prop :=
  ∀ pool, machine.Reachable (fun _ _ => True) pool → NoLostWakeup pool

/-- The notified call has the mutex only after its deadline. -/
def signalTakenAlong : List PoolEvent :=
  giveBackToWaiting ++ [.resume 2 true []]

theorem not_wakeupsAreNotLost : ¬WakeupsAreNotLost := by
  intro kept
  have nothing := kept (runSample signalTakenAlong)
    (runSample_reachable rfl (Machine.allows_of_forall fun _ _ _ => trivial))
    (by decide) (by decide)
  exact absurd nothing.1 (by decide)

/-! ## What a timeout says -/

/-- The pool has nothing to hand out. -/
def Exhausted (pool : PgPool) : Prop :=
  pool.idle = [] ∧ pool.total = pool.config.maxConnections

/-- As many connections have been handed out as have been given back since this call
found the pool exhausted. -/
def TakenAgain (pool : PgPool) (id : Nat) : Prop :=
  ∃ notified seen, pool.calls[id]? = some (.waking notified seen) ∧
    pool.returned.length - seen.returned = pool.handedOut.length - seen.handedOut

/-- What can be handed out follows from what has been given back and handed out, and each
waiting call saw an exhausted pool. -/
structure Flows (pool : PgPool) : Prop where
  flow : pool.spare + pool.handedOut.length =
    pool.config.maxConnections + pool.returned.length
  looks : ∀ call ∈ pool.calls, ∀ seen, call.look? = some seen →
    seen.handedOut = pool.config.maxConnections + seen.returned ∧
      seen.returned ≤ pool.returned.length ∧ seen.handedOut ≤ pool.handedOut.length

/-- A later state, in which waiting calls wait still or have just begun to. -/
theorem Flows.later {pool after : PgPool} (flows : Flows pool)
    (config : after.config = pool.config)
    (flow : after.spare + after.handedOut.length =
      pool.config.maxConnections + after.returned.length)
    (returned : pool.returned.length ≤ after.returned.length)
    (handedOut : pool.handedOut.length ≤ after.handedOut.length)
    (looks : ∀ call ∈ after.calls, ∀ seen, call.look? = some seen →
      (∃ old ∈ pool.calls, old.look? = some seen) ∨
        seen = pool.look ∧ pool.spare = 0) : Flows after := by
  refine ⟨config ▸ flow, fun call member seen looked => ?_⟩
  rw [config]
  rcases looks call member seen looked with ⟨old, oldMember, oldLooked⟩ | ⟨rfl, nothing⟩
  · obtain ⟨full, before, earlier⟩ := flows.looks old oldMember seen oldLooked
    exact ⟨full, Nat.le_trans before returned, Nat.le_trans earlier handedOut⟩
  · have now := flows.flow
    rw [nothing, Nat.zero_add] at now
    exact ⟨now, returned, handedOut⟩

theorem Flows.setCall {pool : PgPool} {id : Nat} {old new : AcquireCall}
    (flows : Flows pool) (found : pool.calls[id]? = some old)
    (looked : ∀ seen, new.look? = some seen → old.look? = some seen) :
    Flows (pool.setCall id new) := by
  refine flows.later rfl flows.flow (Nat.le_refl _) (Nat.le_refl _)
    fun call member seen isSeen => .inl ?_
  rcases List.mem_or_eq_of_mem_set member with before | rfl
  · exact ⟨call, before, isSeen⟩
  · exact ⟨old, List.mem_of_getElem? found, looked seen isSeen⟩

/-- The books on what has come and gone, after a stretch of `acquire`. -/
theorem Proceeds.flow {pool after : PgPool} {attempts : List Attempt} {call : AcquireCall}
    (ends : Proceeds pool attempts call after) (flows : Flows pool) :
    after.config = pool.config ∧ after.calls = pool.calls ∧
      after.returned = pool.returned ∧
      pool.handedOut.length ≤ after.handedOut.length ∧
      after.spare + after.handedOut.length =
        pool.config.maxConnections + after.returned.length ∧
      ∀ seen, call.look? = some seen → seen = pool.look ∧ pool.spare = 0 := by
  have before := flows.flow
  cases ends with
  | took calls config handles spare handedOut returned =>
      refine ⟨config, calls, returned, ?_, ?_, fun seen looked => nomatch looked⟩
      · rw [handedOut, List.length_append]
        exact Nat.le_add_right _ _
      · rw [handedOut, returned, List.length_append, List.length_singleton]
        omega
  | failed calls config handles spare more handedOut returned =>
      refine ⟨config, calls, returned, Nat.le_of_eq (by rw [handedOut]), ?_,
        fun seen looked => nomatch looked⟩
      rw [handedOut, returned, spare]
      exact before
  | waits nothing =>
      refine ⟨rfl, rfl, rfl, Nat.le_refl _, before, fun seen looked => ?_⟩
      cases looked
      exact ⟨rfl, nothing⟩

theorem flow_finishReturn {pool next : PgPool} {handle : Nat} {after : AfterReturn}
    (finished : pool.finishReturn handle after = some next) :
    next.config = pool.config ∧ next.calls = pool.calls ∧ next.spare = pool.spare ∧
      next.handedOut = pool.handedOut ∧ next.returned = pool.returned := by
  cases after with
  | destroy =>
      cases finished
      exact ⟨rfl, rfl, rfl, rfl, rfl⟩
  | assign source =>
      simp only [finishReturn] at finished
      split at finished <;> cases finished
      exact ⟨rfl, rfl, rfl, rfl, rfl⟩

/-- A step that changes only handles. -/
theorem Flows.of_handles {pool after : PgPool} (flows : Flows pool)
    (same : after.config = pool.config ∧ after.calls = pool.calls ∧
      after.spare = pool.spare ∧ after.handedOut = pool.handedOut ∧
      after.returned = pool.returned) : Flows after := by
  obtain ⟨config, calls, spare, handedOut, returned⟩ := same
  refine flows.later config ?_ (Nat.le_of_eq (by rw [returned]))
    (Nat.le_of_eq (by rw [handedOut])) fun call member seen looked => ?_
  · rw [spare, handedOut, returned]
    exact flows.flow
  · rw [calls] at member
    exact .inl ⟨call, member, looked⟩

theorem Flows.wake {pool woke : PgPool} {woken : Option Nat} (flows : Flows pool)
    (wakes : pool.wake woken = some woke) : Flows woke := by
  cases woken with
  | none =>
      simp only [PgPool.wake] at wakes
      split at wakes <;> cases wakes
      exact flows
  | some id =>
      simp only [PgPool.wake] at wakes
      split at wakes
      · rename_i seen found
        cases wakes
        exact flows.setCall found fun _ looked => looked
      · cases wakes

theorem Flows.step {pool next : PgPool} {event : PoolEvent} (flows : Flows pool)
    (accounted : Accounted pool) (stepped : pool.step event = some next) : Flows next := by
  cases Step.of_step stepped with
  | entered ran =>
      obtain ⟨config, calls, returned, handedOut, flow, looks⟩ :=
        (proceeds accounted.balanced ran).flow flows
      refine flows.later config flow (Nat.le_of_eq (by rw [returned])) handedOut ?_
      intro other member seen looked
      rcases List.mem_append.mp member with before | isNew
      · exact .inl ⟨other, calls ▸ before, looked⟩
      · rw [List.mem_singleton.mp isNew] at looked
        exact .inr (looks seen looked)
  | unblocked found => exact flows.setCall found fun _ looked => looked
  | gaveUp found => exact flows.setCall found fun _ looked => nomatch looked
  | resumed found ran =>
      obtain ⟨config, calls, returned, handedOut, flow, looks⟩ :=
        (proceeds accounted.balanced ran).flow flows
      refine flows.later config flow
        (Nat.le_of_eq (congrArg List.length returned.symm)) handedOut ?_
      intro other member seen looked
      rcases List.mem_or_eq_of_mem_set member with before | rfl
      · exact .inl ⟨other, calls ▸ before, looked⟩
      · exact .inr (looks seen looked)
  | @gaveBack handle conn after found =>
      have given := givenBack accounted.balanced found
      have spare := given.spare accounted.balanced
      have before := flows.flow
      refine flows.later given.config ?_ ?_ (Nat.le_of_eq (by rw [given.handedOut]))
        fun call member seen looked => .inl ?_
      · rw [spare, given.handedOut, given.returned, List.length_append, List.length_singleton]
        omega
      · rw [given.returned, List.length_append]
        exact Nat.le_add_right _ _
      · have calls : ((pool.giveBack conn).setHandle handle (.notifying after)).calls =
          pool.calls := (giveBack_users pool conn).2
        rw [calls] at member
        exact ⟨call, member, looked⟩
  | notified found wakes finished =>
      exact (flows.wake wakes).of_handles (flow_finishReturn finished)
  | selfAssigned => exact flows
  | moveConstructed | assigned | replacing | destroying | destroyedEmpty | died =>
      exact flows.of_handles ⟨rfl, rfl, rfl, rfl, rfl⟩

theorem flows_of_construct {config : PoolConfig} {attempts : List Attempt} {pool : PgPool}
    (constructed : construct config attempts = some (.ok pool)) : Flows pool := by
  obtain ⟨filling, bounded⟩ := filling_of_construct constructed
  refine ⟨?_, fun call member => ?_⟩
  · rw [spare, filling.idle_eq, filling.total_eq, filling.handedOut_nil,
      filling.returned_nil, List.length_range, List.length_nil]
    omega
  · rw [filling.calls_nil] at member
    cases member

/-- What a call throws when its wait times out is true exactly if what has been given back
since it found the pool exhausted has been handed out again. -/
theorem exhausted_iff_takenAgain {pool next : PgPool} {id : Nat} {attempts : List Attempt}
    (reachable : machine.Reachable (fun _ _ => True) pool)
    (stepped : pool.step (.resume id true attempts) = some next) :
    Exhausted next ↔ TakenAgain pool id := by
  have invariant : Accounted pool ∧ Flows pool := by
    refine @Machine.Reachable.invariant _ _ _ _
      (fun state => Accounted state ∧ Flows state) ?_ ?_ _ reachable
    · rintro start ⟨config, attempts, constructed⟩
      exact ⟨accounted_of_construct constructed, flows_of_construct constructed⟩
    · rintro state event next ⟨accounted, flows⟩ _ stepped
      exact ⟨accounted.step stepped, flows.step accounted stepped⟩
  obtain ⟨accounted, flows⟩ := invariant
  simp only [PgPool.step, if_true] at stepped
  split at stepped
  · rename_i notified seen found
    split at stepped <;> cases stepped
    obtain ⟨full, before, earlier⟩ := flows.looks _ (List.mem_of_getElem? found) seen rfl
    have flow := flows.flow
    have exhausted : Exhausted (pool.setCall id (.threw pool.exhausted)) ↔ pool.spare = 0 :=
      (spare_eq_zero_iff accounted.balanced).symm
    rw [exhausted]
    constructor
    · intro nothing
      refine ⟨notified, seen, found, ?_⟩
      omega
    · rintro ⟨_, other, otherFound, again⟩
      rw [found] at otherFound
      cases otherFound
      omega
  · cases stepped

/-- A connection is given back, taken by the notified call, and the other one times out. -/
def takenAgain : List PoolEvent :=
  giveBackToWaiting ++ [.resume 2 false [], .unblock 3]

theorem exhausted_taken_again : ∃ next,
    (runSample takenAgain).step (.resume 3 true []) = some next ∧ Exhausted next := by
  have reachable : machine.Reachable (fun _ _ => True) (runSample takenAgain) :=
    runSample_reachable rfl (Machine.allows_of_forall fun _ _ _ => trivial)
  have again : TakenAgain (runSample takenAgain) 3 := ⟨false, ⟨0, 2⟩, rfl, rfl⟩
  have stepped : (runSample takenAgain).step (.resume 3 true []) =
      some ((runSample takenAgain).setCall 3 (.threw (runSample takenAgain).exhausted)) := rfl
  exact ⟨_, stepped, (exhausted_iff_takenAgain reachable stepped).mpr again⟩

/-- What a call throws when its wait times out is true, whenever that is. -/
def ExhaustionIsTrue : Prop :=
  ∀ (pool next : PgPool) (id : Nat) (attempts : List Attempt),
    machine.Reachable (fun _ _ => True) pool →
    pool.step (.resume id true attempts) = some next → Exhausted next

/-- A connection is given back after the deadline, before the call has the mutex. -/
def givenBackMeanwhile : List PoolEvent :=
  [.acquire [], .acquire [.connected], .acquire [], .unblock 2, .destroy 0, .giveBack 0]

theorem not_exhaustionIsTrue : ¬ExhaustionIsTrue := by
  intro isTrue
  have exhausted := isTrue (runSample givenBackMeanwhile) _ 2 []
    (runSample_reachable rfl (Machine.allows_of_forall fun _ _ _ => trivial)) rfl
  exact absurd exhausted.1 (by decide)

end PgPool

end Corvus.Db
