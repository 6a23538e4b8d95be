import Corvus.Machine
import Corvus.Roster
import Mathlib.Algebra.Group.Nat.Defs

/-!
# The pool of Postgres connections

`acquire` and `return_connection` work under one mutex, and a waiting `acquire`
lets go of it.  A step of the model is one stretch of code between taking the
mutex and letting go of it, or one action of a thread that touches nothing
shared, so the states of the model are those in which the mutex is free.

A connection leaves its handle when `return_connection` has the mutex: nobody
but the thread that gives it back can see it before.  The fields `underflow`,
`handedOut` and `returned` are there for the statements only, and so is the
`Look` of a waiting call.
-/

namespace Corvus.Db

structure PoolConfig where
  connectionString : String
  minConnections : Nat := 2
  maxConnections : Nat := 10
  /-- In milliseconds. -/
  acquireTimeout : Int := 5000
  max_lt : maxConnections < 2 ^ 64 := by decide

inductive PoolError where
  | dbConfigError (what : String)
  | dbPoolExhausted (what : String)
  deriving DecidableEq

/-- How `make_connection` ends: a connection, or an exception with a message. -/
inductive Attempt where
  | connected
  | refused (what : String)
  deriving DecidableEq

/-- What the destruction of the old value of a handle is part of. -/
inductive AfterReturn where
  | destroy
  | assign (source : Nat)
  deriving DecidableEq

/-- A `PgConnection`: the connection it owns, and what is being done to it. -/
inductive Handle where
  | live (conn : Option Nat)
  /-- In `return_connection`, before the mutex is taken. -/
  | returning (conn : Nat) (after : AfterReturn)
  /-- In `return_connection`, before `notify_one`. -/
  | notifying (after : AfterReturn)
  /-- The source of a move-assignment under way. -/
  | lent (conn : Option Nat)
  | gone
  deriving DecidableEq

/-- How much had been returned and handed out when a call found the pool exhausted. -/
structure Look where
  returned : Nat
  handedOut : Nat
  deriving DecidableEq

/-- A call of `acquire`. -/
inductive AcquireCall where
  /-- In `wait_until`. -/
  | blocked (look : Look)
  /-- Woken up, by `notify_one` or by itself, and taking the mutex again. -/
  | waking (notified : Bool) (look : Look)
  | returned (handle : Nat)
  | threw (error : PoolError)
  deriving DecidableEq

structure PgPool where
  config : PoolConfig
  idle : List Nat
  total : Nat
  /-- The connections that are not open any more. -/
  dead : List Nat
  /-- How many connections have been made. -/
  made : Nat
  handles : List Handle
  calls : List AcquireCall
  underflow : Bool
  handedOut : List Nat
  returned : List Nat

namespace PgPool

/-- `++total_` -/
def count (pool : PgPool) : PgPool :=
  { pool with total := (pool.total + 1) % 2 ^ 64 }

/-- `--total_` -/
def uncount (pool : PgPool) : PgPool :=
  { pool with
    total := if pool.total = 0 then 2 ^ 64 - 1 else pool.total - 1
    underflow := pool.underflow || pool.total == 0 }

/-- A connection comes up, open. -/
def make (pool : PgPool) : PgPool :=
  { pool with made := pool.made + 1 }

/-- `idle_.push(make_connection())` -/
def push (pool : PgPool) : PgPool :=
  { pool.make with idle := pool.idle ++ [pool.made] }

/-- `make_connection` turns what goes wrong into a `DbConfigError`. -/
def connectError (what : String) : PoolError :=
  .dbConfigError ("Failed to connect to PostgreSQL: " ++ what)

/-- The loop of the constructor. -/
def fill : Nat → List Attempt → PgPool → Option (Except PoolError PgPool)
  | 0, attempts, pool =>
      match attempts with
      | [] => some (.ok pool)
      | _ => none
  | rounds + 1, attempts, pool =>
      match attempts with
      | .connected :: more => fill rounds more pool.push.count
      | [.refused what] => some (.error (connectError what))
      | _ => none

/-- `PgPool::PgPool`, for the results of its calls of `make_connection` in order. -/
def construct (config : PoolConfig) (attempts : List Attempt) :
    Option (Except PoolError PgPool) :=
  if config.minConnections = 0 then
    some (.error (.dbConfigError "min_connections must be at least 1"))
  else if config.maxConnections < config.minConnections then
    some (.error (.dbConfigError "max_connections must be >= min_connections"))
  else if config.connectionString = "" then
    some (.error (.dbConfigError "connection_string must not be empty"))
  else
    fill config.minConnections attempts {
      config, idle := [], total := 0, dead := [], made := 0, handles := [], calls := [],
      underflow := false, handedOut := [], returned := [] }

/-- How a stretch of `acquire` ends: with a connection, with what `make_connection`
throws, or in the wait. -/
inductive Found where
  | connection (conn : Nat)
  | failed (what : String)
  | nothing

/-- `idle_.pop()` -/
def pop (pool : PgPool) : PgPool :=
  { pool with idle := pool.idle.tail }

/-- The loop of `acquire` up to a `return`, a `throw` or the wait, for the idle
connections and the results of its calls of `make_connection` in order. -/
def acquireLoop : List Nat → List Attempt → PgPool → Option (Found × PgPool)
  | conn :: rest, attempts, pool =>
      if conn ∉ pool.dead then
        match attempts with
        | [] => some (.connection conn, pool.pop)
        | _ => none
      else
        match attempts with
        | [.connected] => some (.connection pool.made, pool.pop.make)
        | .refused _ :: more => acquireLoop rest more pool.pop.uncount
        | _ => none
  | [], attempts, pool =>
      if pool.total < pool.config.maxConnections then
        match attempts with
        | [.connected] => some (.connection pool.made, pool.make.count)
        | [.refused what] => some (.failed what, pool)
        | _ => none
      else
        match attempts with
        | [] => some (.nothing, pool)
        | _ => none

/-- The new handle that `acquire` returns. -/
def handOut (pool : PgPool) (conn : Nat) : PgPool :=
  { pool with
    handles := pool.handles ++ [.live (some conn)]
    handedOut := pool.handedOut ++ [conn] }

def available (pool : PgPool) : Nat := pool.idle.length

def size (pool : PgPool) : Nat := pool.total

def look (pool : PgPool) : Look where
  returned := pool.returned.length
  handedOut := pool.handedOut.length

/-- What a call of `acquire` does with the mutex, and what becomes of the call. -/
def proceed (pool : PgPool) (attempts : List Attempt) : Option (AcquireCall × PgPool) :=
  match acquireLoop pool.idle attempts pool with
  | none => none
  | some (.connection conn, after) =>
      some (.returned after.handles.length, after.handOut conn)
  | some (.failed what, after) => some (.threw (connectError what), after)
  | some (.nothing, after) => some (.blocked after.look, after)

/-- What `acquire` throws when the wait times out. -/
def exhausted (pool : PgPool) : PoolError :=
  .dbPoolExhausted ("No PostgreSQL connection available after " ++
    toString pool.config.acquireTimeout ++ "ms")

def setCall (pool : PgPool) (id : Nat) (call : AcquireCall) : PgPool :=
  { pool with calls := pool.calls.set id call }

def setHandle (pool : PgPool) (id : Nat) (handle : Handle) : PgPool :=
  { pool with handles := pool.handles.set id handle }

def logReturn (pool : PgPool) (conn : Nat) : PgPool :=
  { pool with returned := pool.returned ++ [conn] }

/-- `return_connection` while it has the mutex. -/
def giveBack (pool : PgPool) (conn : Nat) : PgPool :=
  if conn ∉ pool.dead then
    { pool.logReturn conn with idle := pool.idle ++ [conn] }
  else
    (pool.logReturn conn).uncount

/-- `conn_ = std::move(other.conn_)`, and the assignment is over. -/
def moveConnection (pool : PgPool) (target source : Nat) (conn : Option Nat) : PgPool :=
  (pool.setHandle target (.live conn)).setHandle source (.live none)

end PgPool

inductive PoolEvent where
  /-- A call of `acquire` begins. -/
  | acquire (attempts : List Attempt)
  /-- A wait ends without a notification: by its deadline or for no reason. -/
  | unblock (call : Nat)
  /-- A call that was woken up has the mutex again. -/
  | resume (call : Nat) (timedOut : Bool) (attempts : List Attempt)
  | moveConstruct (source : Nat)
  | moveAssign (target source : Nat)
  | destroy (handle : Nat)
  | giveBack (handle : Nat)
  /-- `notify_one`, which wakes up a blocked call if there is one. -/
  | notify (handle : Nat) (woken : Option Nat)
  | die (conn : Nat)

def AcquireCall.isBlocked : AcquireCall → Bool
  | .blocked _ => true
  | _ => false

/-- The call has been notified and has not been able to act on it. -/
def AcquireCall.isNotified : AcquireCall → Bool
  | .waking notified _ => notified
  | _ => false

def Handle.isNotifying : Handle → Bool
  | .notifying _ => true
  | _ => false

namespace PgPool

/-- `notify_one` with a given call to wake up. -/
def wake (pool : PgPool) : Option Nat → Option PgPool
  | none => if pool.calls.any AcquireCall.isBlocked then none else some pool
  | some id =>
      match pool.calls[id]? with
      | some (.blocked look) => some (pool.setCall id (.waking true look))
      | _ => none

/-- The thread that was in `return_connection` goes on. -/
def finishReturn (pool : PgPool) (handle : Nat) : AfterReturn → Option PgPool
  | .destroy => some (pool.setHandle handle .gone)
  | .assign source =>
      match pool.handles[source]? with
      | some (.lent conn) => some (pool.moveConnection handle source conn)
      | _ => none

def step (pool : PgPool) : PoolEvent → Option PgPool
  | .acquire attempts =>
      match pool.proceed attempts with
      | none => none
      | some (call, after) => some { after with calls := after.calls ++ [call] }
  | .unblock id =>
      match pool.calls[id]? with
      | some (.blocked look) => some (pool.setCall id (.waking false look))
      | _ => none
  | .resume id timedOut attempts =>
      match pool.calls[id]? with
      | some (.waking _ _) =>
          if timedOut then
            match attempts with
            | [] => some (pool.setCall id (.threw pool.exhausted))
            | _ => none
          else
            match pool.proceed attempts with
            | none => none
            | some (call, after) => some (after.setCall id call)
      | _ => none
  | .moveConstruct source =>
      match pool.handles[source]? with
      | some (.live conn) =>
          let emptied := pool.setHandle source (.live none)
          some { emptied with handles := emptied.handles ++ [.live conn] }
      | _ => none
  | .moveAssign target source =>
      match pool.handles[target]?, pool.handles[source]? with
      | some (.live old), some (.live new) =>
          if target = source then
            some pool
          else
            match old with
            | some conn => some ((pool.setHandle target
                (.returning conn (.assign source))).setHandle source (.lent new))
            | none => some (pool.moveConnection target source new)
      | _, _ => none
  | .destroy handle =>
      match pool.handles[handle]? with
      | some (.live (some conn)) => some (pool.setHandle handle (.returning conn .destroy))
      | some (.live none) => some (pool.setHandle handle .gone)
      | _ => none
  | .giveBack handle =>
      match pool.handles[handle]? with
      | some (.returning conn after) =>
          some ((pool.giveBack conn).setHandle handle (.notifying after))
      | _ => none
  | .notify handle woken =>
      match pool.handles[handle]? with
      | some (.notifying after) =>
          match pool.wake woken with
          | none => none
          | some woke => woke.finishReturn handle after
      | _ => none
  | .die conn =>
      if conn < pool.made then some { pool with dead := conn :: pool.dead } else none

/-- All that can happen to a pool that has been constructed. -/
def machine : Machine PgPool PoolEvent where
  initial pool := ∃ config attempts, construct config attempts = some (.ok pool)
  step := step

/-! ## What a step does -/

theorem handles_setHandle_of_ne {pool : PgPool} {id other : Nat} {handle : Handle}
    (different : id ≠ other) :
    (pool.setHandle id handle).handles[other]? = pool.handles[other]? :=
  List.getElem?_set_ne different

/-- What an event does to a pool in which it can happen. -/
inductive Step (pool : PgPool) : PoolEvent → PgPool → Prop where
  | entered {attempts : List Attempt} {call : AcquireCall} {after : PgPool}
      (ran : pool.proceed attempts = some (call, after)) :
      Step pool (.acquire attempts) { after with calls := after.calls ++ [call] }
  | unblocked {id : Nat} {seen : Look} (found : pool.calls[id]? = some (.blocked seen)) :
      Step pool (.unblock id) (pool.setCall id (.waking false seen))
  | gaveUp {id : Nat} {notified : Bool} {seen : Look}
      (found : pool.calls[id]? = some (.waking notified seen)) :
      Step pool (.resume id true []) (pool.setCall id (.threw pool.exhausted))
  | resumed {id : Nat} {notified : Bool} {seen : Look} {attempts : List Attempt}
      {call : AcquireCall} {after : PgPool}
      (found : pool.calls[id]? = some (.waking notified seen))
      (ran : pool.proceed attempts = some (call, after)) :
      Step pool (.resume id false attempts) (after.setCall id call)
  | moveConstructed {source : Nat} {conn : Option Nat}
      (found : pool.handles[source]? = some (.live conn)) :
      Step pool (.moveConstruct source) { pool.setHandle source (.live none) with
        handles := (pool.setHandle source (.live none)).handles ++ [.live conn] }
  | selfAssigned (handle : Nat) : Step pool (.moveAssign handle handle) pool
  | assigned {target source : Nat} {new : Option Nat}
      (foundTarget : pool.handles[target]? = some (.live none))
      (foundSource : pool.handles[source]? = some (.live new)) (different : target ≠ source) :
      Step pool (.moveAssign target source) (pool.moveConnection target source new)
  | replacing {target source conn : Nat} {new : Option Nat}
      (foundTarget : pool.handles[target]? = some (.live (some conn)))
      (foundSource : pool.handles[source]? = some (.live new)) (different : target ≠ source) :
      Step pool (.moveAssign target source) ((pool.setHandle target
        (.returning conn (.assign source))).setHandle source (.lent new))
  | destroying {handle conn : Nat} (found : pool.handles[handle]? = some (.live (some conn))) :
      Step pool (.destroy handle) (pool.setHandle handle (.returning conn .destroy))
  | destroyedEmpty {handle : Nat} (found : pool.handles[handle]? = some (.live none)) :
      Step pool (.destroy handle) (pool.setHandle handle .gone)
  | gaveBack {handle conn : Nat} {after : AfterReturn}
      (found : pool.handles[handle]? = some (.returning conn after)) :
      Step pool (.giveBack handle) ((pool.giveBack conn).setHandle handle (.notifying after))
  | notified {handle : Nat} {woken : Option Nat} {after : AfterReturn} {woke next : PgPool}
      (found : pool.handles[handle]? = some (.notifying after))
      (wakes : pool.wake woken = some woke)
      (finished : woke.finishReturn handle after = some next) :
      Step pool (.notify handle woken) next
  | died {conn : Nat} (made : conn < pool.made) :
      Step pool (.die conn) { pool with dead := conn :: pool.dead }

theorem Step.of_step {pool next : PgPool} {event : PoolEvent}
    (stepped : pool.step event = some next) : Step pool event next := by
  cases event with
  | acquire attempts =>
      simp only [step] at stepped
      split at stepped
      · cases stepped
      · rename_i call after ran
        cases stepped
        exact .entered ran
  | unblock id =>
      simp only [step] at stepped
      split at stepped
      · rename_i seen found
        cases stepped
        exact .unblocked found
      · cases stepped
  | resume id timedOut attempts =>
      simp only [step] at stepped
      split at stepped
      · rename_i notified seen found
        cases timedOut with
        | true =>
            simp only [if_true] at stepped
            split at stepped <;> cases stepped
            exact .gaveUp found
        | false =>
            simp only [Bool.false_eq_true, if_false] at stepped
            split at stepped
            · cases stepped
            · rename_i call after ran
              cases stepped
              exact .resumed found ran
      · cases stepped
  | moveConstruct source =>
      simp only [step] at stepped
      split at stepped
      · rename_i conn found
        cases stepped
        exact .moveConstructed found
      · cases stepped
  | moveAssign target source =>
      simp only [step] at stepped
      split at stepped
      · rename_i old new foundTarget foundSource
        split at stepped
        · rename_i same
          cases stepped
          exact same ▸ .selfAssigned target
        · rename_i different
          cases old with
          | none =>
              cases stepped
              exact .assigned foundTarget foundSource different
          | some conn =>
              cases stepped
              exact .replacing foundTarget foundSource different
      · cases stepped
  | destroy handle =>
      simp only [step] at stepped
      split at stepped
      · rename_i conn found
        cases stepped
        exact .destroying found
      · rename_i found
        cases stepped
        exact .destroyedEmpty found
      · cases stepped
  | giveBack handle =>
      simp only [step] at stepped
      split at stepped
      · rename_i conn after found
        cases stepped
        exact .gaveBack found
      · cases stepped
  | notify handle woken =>
      simp only [step] at stepped
      split at stepped
      · rename_i after found
        split at stepped
        · cases stepped
        · rename_i woke wakes
          exact .notified found wakes stepped
      · cases stepped
  | die conn =>
      simp only [step] at stepped
      split at stepped
      · rename_i made
        cases stepped
        exact .died made
      · cases stepped

end PgPool

end Corvus.Db
