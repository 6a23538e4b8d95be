import Corvus.Concurrent
import Corvus.Db.CacheAside
import Corvus.Resources.Repository

/-!
# The resource service

Calls of the service read and write resources in Postgres and keep single
resources in Redis.  The model takes one step for each Redis command or script
and one for each transaction, so that the calls of any number of processes
interleave at these points.
-/

namespace Corvus.Resources

open Corvus.Db

/-! ## The cache -/

/-- `ResourceService::cache_key`. -/
def cacheKey (clientId id : String) : String :=
  "resource:" ++ clientId ++ ":" ++ id

def kResourceCacheTtlSeconds : Int := 60

/-- The service is given a cache with the default configuration. -/
def cacheConfig : CacheConfig := {}

/-- The key a cached resource is stored under. -/
def dataKey (clientId id : String) : String :=
  cacheConfig.makeKey (cacheKey clientId id)

/-- The key of the version beside it. -/
def verKey (clientId id : String) : String :=
  cacheConfig.versionKey (cacheKey clientId id)

/-! ## Requests and outcomes -/

inductive Request where
  | create (clientId : String) (request : CreateResourceRequest)
  | get (clientId id : String)
  | list (clientId : String) (filter : ListFilter)
  | update (clientId id : String) (request : UpdateResourceRequest)
  | remove (clientId id : String)

def Request.clientId : Request → String
  | .create clientId _ => clientId
  | .get clientId _ => clientId
  | .list clientId _ => clientId
  | .update clientId _ _ => clientId
  | .remove clientId _ => clientId

/-- The exceptions of the service; `other` is every one its callers do not tell
apart. -/
inductive ServiceError where
  | notFound (message : String)
  | alreadyExists (message : String)
  | invalidCursor (error : InvalidCursorError)
  | other
  deriving DecidableEq

inductive Reply where
  | resource (resource : Resource)
  | page (result : ListResult)
  | removed

abbrev Outcome := Except ServiceError Reply

def notFound (id : String) : Outcome :=
  .error (.notFound ("Resource not found: " ++ id))

/-- What `create` makes of an exception of the repository. -/
def createError (request : CreateResourceRequest) : RepositoryError → ServiceError
  | .uniqueViolation => .alreadyExists ("A resource named '" ++ request.name ++ "' already exists")
  | .invalidCursor error => .invalidCursor error
  | .other => .other

/-- What `create` makes of the answer of the repository. -/
def createOutcome (request : CreateResourceRequest) : Except RepositoryError Resource → Outcome
  | .ok resource => .ok (.resource resource)
  | .error error => .error (createError request error)

/-- What `update` makes of an exception of the repository. -/
def updateError (request : UpdateResourceRequest) : RepositoryError → ServiceError
  | .uniqueViolation => .alreadyExists
      (match request.name with
        | some name => "A resource named '" ++ name ++ "' already exists"
        | none => "Update would violate a uniqueness constraint")
  | .invalidCursor error => .invalidCursor error
  | .other => .other

/-- Other operations let the exceptions of the repository through. -/
def passError : RepositoryError → ServiceError
  | .uniqueViolation => .other
  | .invalidCursor error => .invalidCursor error
  | .other => .other

/-- What `get` makes of the answer of `find_by_id`. -/
def readOutcome (id : String) : Except RepositoryError (Option Resource) → Outcome
  | .ok (some resource) => .ok (.resource resource)
  | .ok none => notFound id
  | .error error => .error (passError error)

/-- What `get` makes of a cached value. -/
def decodeCached (platform : Platform) (text : String) : Outcome :=
  match (platform.parse text).bind fromJson with
  | some resource => .ok (.resource resource)
  | none => .error .other

/-! ## The shared state -/

/-- A transaction that changed the table: the table it replaced, and what the written
resource reads as from then on. -/
structure Commit (platform : Platform) where
  replaced : Table platform
  result : Outcome

/-- Redis and Postgres.  The last two fields record, for stating results, the
transactions that changed the table and which of them belong to writes that have
returned. -/
structure Store (platform : Platform) where
  redis : Redis
  database : Database platform
  commits : List (Commit platform)
  returned : List Nat

variable {platform : Platform}

/-- A read of the database as it is now. -/
def Store.view (store : Store platform) (clientId id : String) : Outcome :=
  readOutcome id (findById store.database clientId id)

/-- The state after a transaction that changed the table. -/
def Store.wrote (store : Store platform) (resources : Table platform) (result : Outcome) :
    Store platform :=
  { store with
    database := { store.database with resources }
    commits := store.commits ++ [{ replaced := store.database.resources, result }] }

/-- Take over what a transaction wrote, if anything. -/
def Store.commit {Answer : Type} (store : Store platform) (executed : Executed platform Answer)
    (result : Outcome) : Store platform :=
  match executed.written with
  | none => store
  | some resources => store.wrote resources result

/-- A transaction on a faulty connection.  One that is refused never ran; one whose
reply is lost may have committed. -/
def Executed.under {Answer : Type} (executed : Executed platform Answer) :
    Fault → Executed platform Answer
  | .healthy => executed
  | .refused => { answer := .error .other }
  | .replyLost => { executed with answer := .error .other }

/-! ## Calls -/

/-- Where a call stands.  `version` is the token a reader holds, `commit` the number of
the transaction a writer made, `outcome` what it is going to return. -/
inductive Phase where
  | insertRow
  | cacheGet
  | cacheExists
  | readVersion
  | selectRow (version : Option String)
  | putIfVersion (version : String) (found : Resource)
  | selectPage
  | writeRow
  | invalidateVersioned (outcome : Outcome) (commit : Nat)
  | done (outcome : Outcome)

/-- A call in progress.  The last two fields record the table and the returned writes
at its start. -/
structure Call (platform : Platform) where
  request : Request
  phase : Phase
  startedOn : Table platform
  startedAfter : List Nat

/-- What a step leaves open: how its Redis command and its transaction go, and what
the database adds to a row. -/
structure Choice where
  redis : Fault := .healthy
  sql : Fault := .healthy
  stamp : Stamp

def Request.firstPhase : Request → Phase
  | .create _ _ => .insertRow
  | .get _ _ => .cacheGet
  | .list _ _ => .selectPage
  | .update _ _ _ => .writeRow
  | .remove _ _ => .writeRow

namespace Call

def goTo (call : Call platform) (phase : Phase) : Call platform :=
  { call with phase }

def finish (call : Call platform) (outcome : Outcome) : Call platform :=
  call.goTo (.done outcome)

/-- `ResourceService::create`. -/
def createStep (call : Call platform) (clientId : String) (request : CreateResourceRequest)
    (choice : Choice) (store : Store platform) : Option (Call platform × Store platform) :=
  match call.phase with
  | .insertRow =>
      let executed := create store.database clientId request choice.stamp
      some (call.finish (createOutcome request (executed.under choice.sql).answer),
        store.commit (executed.under choice.sql) (createOutcome request executed.answer))
  | _ => none

/-- `ResourceService::get`. -/
def getStep (call : Call platform) (clientId id : String) (choice : Choice)
    (store : Store platform) : Option (Call platform × Store platform) :=
  let key := cacheKey clientId id
  match call.phase with
  | .cacheGet =>
      let sent := (CacheAside.getValue cacheConfig key).issue choice.redis store.redis
      let after := { store with redis := sent.2 }
      match sent.1 with
      | none => some (call.goTo .readVersion, after)
      | some value =>
          if value = "" then some (call.goTo .cacheExists, after)
          else some (call.finish (decodeCached platform value), after)
  | .cacheExists =>
      let sent := (CacheAside.getExists cacheConfig key).issue choice.redis store.redis
      let after := { store with redis := sent.2 }
      match sent.1 with
      | none => some (call.goTo .readVersion, after)
      | some count =>
          if count = 0 then some (call.goTo .readVersion, after)
          else some (call.finish (decodeCached platform ""), after)
  | .readVersion =>
      let read := CacheAside.version cacheConfig key choice.redis store.redis
      some (call.goTo (.selectRow read.1), { store with redis := read.2 })
  | .selectRow version =>
      let executed : Executed platform (Option Resource) :=
        { answer := findById store.database clientId id }
      match (executed.under choice.sql).answer, version with
      | .ok (some found), some version => some (call.goTo (.putIfVersion version found), store)
      | answer, _ => some (call.finish (readOutcome id answer), store)
  | .putIfVersion version found =>
      let put := CacheAside.putIfVersion cacheConfig key version (platform.dump (toJson found))
        kResourceCacheTtlSeconds choice.redis store.redis
      some (call.finish (.ok (.resource found)), { store with redis := put.2 })
  | _ => none

/-- `ResourceService::list`. -/
def listStep (call : Call platform) (clientId : String) (filter : ListFilter)
    (choice : Choice) (store : Store platform) : Option (Call platform × Store platform) :=
  match call.phase with
  | .selectPage =>
      let executed : Executed platform ListResult :=
        { answer := list store.database clientId filter }
      match (executed.under choice.sql).answer with
      | .ok result => some (call.finish (.ok (.page result)), store)
      | .error error => some (call.finish (.error (passError error)), store)
  | _ => none

/-- The end of a write: evict the cached value.  A failure is logged only. -/
def invalidate (call : Call platform) (clientId id : String) (outcome : Outcome)
    (commit : Nat) (choice : Choice) (store : Store platform) :
    Call platform × Store platform :=
  let evicted := CacheAside.invalidateVersioned cacheConfig (cacheKey clientId id)
    choice.redis store.redis
  (call.finish outcome,
    { store with redis := evicted.2, returned := store.returned ++ [commit] })

/-- `ResourceService::update`. -/
def updateStep (call : Call platform) (clientId id : String) (request : UpdateResourceRequest)
    (choice : Choice) (store : Store platform) : Option (Call platform × Store platform) :=
  match call.phase with
  | .writeRow =>
      let executed := update store.database clientId id request choice.stamp
      let after := store.commit (executed.under choice.sql) (readOutcome id executed.answer)
      match (executed.under choice.sql).answer with
      | .error error => some (call.finish (.error (updateError request error)), after)
      | .ok none => some (call.finish (notFound id), after)
      | .ok (some updated) =>
          some (call.goTo (.invalidateVersioned (.ok (.resource updated)) store.commits.length),
            after)
  | .invalidateVersioned outcome commit =>
      some (call.invalidate clientId id outcome commit choice store)
  | _ => none

/-- `ResourceService::remove`. -/
def removeStep (call : Call platform) (clientId id : String) (choice : Choice)
    (store : Store platform) : Option (Call platform × Store platform) :=
  match call.phase with
  | .writeRow =>
      let executed := remove store.database clientId id
      let after := store.commit (executed.under choice.sql) (notFound id)
      match (executed.under choice.sql).answer with
      | .error error => some (call.finish (.error (passError error)), after)
      | .ok false => some (call.finish (notFound id), after)
      | .ok true =>
          some (call.goTo (.invalidateVersioned (.ok .removed) store.commits.length), after)
  | .invalidateVersioned outcome commit =>
      some (call.invalidate clientId id outcome commit choice store)
  | _ => none

/-- One step of a call. -/
def step (call : Call platform) (choice : Choice) (store : Store platform) :
    Option (Call platform × Store platform) :=
  match call.request with
  | .create clientId request => call.createStep clientId request choice store
  | .get clientId id => call.getStep clientId id choice store
  | .list clientId filter => call.listStep clientId filter choice store
  | .update clientId id request => call.updateStep clientId id request choice store
  | .remove clientId id => call.removeStep clientId id choice store

end Call

/-! ## The system -/

/-- What happens to Redis besides the calls. -/
inductive CacheHappening where
  | tick (span : Nat)
  | evict (key : String)
  deriving DecidableEq

def CacheHappening.apply (redis : Redis) : CacheHappening → Redis
  | .tick span => redis.advance span
  | .evict key => redis.erase key

/-- The calls of any number of processes that share one Redis and one Postgres,
from an empty Redis and any database on. -/
def resourceService (platform : Platform) :
    Component (Store platform) Request (Call platform) Choice CacheHappening where
  initial store := store.redis = .empty ∧ store.commits = [] ∧ store.returned = []
  enter request store :=
    { request, phase := request.firstPhase, startedOn := store.database.resources,
      startedAfter := store.returned }
  step call choice store := call.step choice store
  happen happening store := some { store with redis := happening.apply store.redis }

abbrev ServiceState (platform : Platform) := Concurrent (Store platform) (Call platform)
abbrev ServiceEvent := ConcurrentEvent Request Choice CacheHappening

/-! ## What a step does -/

/-- What an `UPDATE` or `DELETE` of a client's row makes of the table, and what the row
reads as from then on. -/
inductive RowWritten (table : Table platform) (clientId id : String) :
    Table platform → Outcome → Prop where
  | replaced {client uuid : Uuid} {old new : Row platform} {resources : Table platform}
      (clientEq : uuidParam clientId = some client) (uuidEq : uuidParam id = some uuid)
      (found : table.find client uuid = some old) (sameId : new.id = old.id)
      (sameClient : new.clientId = old.clientId)
      (stored : table.replace new = some resources) :
      RowWritten table clientId id resources (readOutcome id ((decodeRow new).map some))
  | deleted {client uuid : Uuid} {old : Row platform}
      (clientEq : uuidParam clientId = some client) (uuidEq : uuidParam id = some uuid)
      (found : table.find client uuid = some old) :
      RowWritten table clientId id (table.delete client uuid) (notFound id)

/-- After a write the resource reads as the write says. -/
theorem RowWritten.view {database : Database platform} {clientId id : String}
    {resources : Table platform} {result : Outcome}
    (change : RowWritten database.resources clientId id resources result) :
    readOutcome id (findById { database with resources } clientId id) = result := by
  cases change with
  | @replaced client uuid old new _ clientEq uuidEq found sameId sameClient stored =>
      obtain ⟨oldIn, ofClient, ofId⟩ := Table.find_eq_some.mp found
      have foundNew := Table.find_replace_self stored oldIn sameId.symm
      rw [sameClient, ofClient, sameId, ofId] at foundNew
      simp only [findById, clientEq, uuidEq, foundNew]
  | @deleted client uuid old clientEq uuidEq found =>
      simp only [findById, clientEq, uuidEq, Table.find_delete_self]
      rfl

/-- A write on a row: the requests `update` and `remove`. -/
def Request.Writes (request : Request) (clientId id : String) : Prop :=
  (∃ changes, request = .update clientId id changes) ∨ request = .remove clientId id

/-- What one step of a call can do. -/
inductive ServiceStep (call : Call platform) (choice : Choice) (store : Store platform) :
    Call platform → Store platform → Prop where
  | notCreated {clientId : String} {request : CreateResourceRequest} (error : ServiceError)
      (requestEq : call.request = .create clientId request) :
      ServiceStep call choice store (call.finish (.error error)) store
  | created {clientId : String} {request : CreateResourceRequest} {client : Uuid}
      {metadata : platform.Jsonb} {resources : Table platform} {next : Call platform}
      {result : Outcome}
      (requestEq : call.request = .create clientId request)
      (clientEq : uuidParam clientId = some client)
      (inserted : store.database.resources.insert
        (newRow client request metadata choice.stamp) = some resources)
      (nextEq : (∃ resource, next = call.finish (.ok (.resource resource)) ∧
          rowToResource (newRow client request metadata choice.stamp) = some resource) ∨
        ∃ error, next = call.finish (.error error)) :
      ServiceStep call choice store next (store.wrote resources result)
  | listed {clientId : String} {filter : ListFilter} {result : ListResult}
      (requestEq : call.request = .list clientId filter)
      (answered : list store.database clientId filter = .ok result) :
      ServiceStep call choice store (call.finish (.ok (.page result))) store
  | notListed {clientId : String} {filter : ListFilter} (error : ServiceError)
      (requestEq : call.request = .list clientId filter) :
      ServiceStep call choice store (call.finish (.error error)) store
  | missed {clientId id : String} (requestEq : call.request = .get clientId id)
      (phaseEq : call.phase = .cacheGet ∨ call.phase = .cacheExists) :
      ServiceStep call choice store (call.goTo .readVersion) store
  | gotEmpty {clientId id : String} (requestEq : call.request = .get clientId id)
      (phaseEq : call.phase = .cacheGet)
      (reply : (CacheAside.getValue cacheConfig (cacheKey clientId id) store.redis).1 = some "") :
      ServiceStep call choice store (call.goTo .cacheExists) store
  | hit {clientId id text : String} (requestEq : call.request = .get clientId id)
      (phaseEq : call.phase = .cacheGet)
      (reply : (CacheAside.getValue cacheConfig (cacheKey clientId id) store.redis).1 = some text)
      (notEmpty : text ≠ "") :
      ServiceStep call choice store (call.finish (decodeCached platform text)) store
  | hitEmpty {clientId id : String} {count : Nat} (requestEq : call.request = .get clientId id)
      (phaseEq : call.phase = .cacheExists)
      (reply : (CacheAside.getExists cacheConfig (cacheKey clientId id) store.redis).1 =
        some count) (present : count ≠ 0) :
      ServiceStep call choice store (call.finish (decodeCached platform "")) store
  | versionRead {clientId id : String} (requestEq : call.request = .get clientId id)
      (phaseEq : call.phase = .readVersion) :
      ServiceStep call choice store
        (call.goTo (.selectRow (CacheAside.version cacheConfig (cacheKey clientId id)
          choice.redis store.redis).1)) store
  | selected {clientId id version : String} {found : Resource}
      (requestEq : call.request = .get clientId id)
      (phaseEq : call.phase = .selectRow (some version))
      (read : findById store.database clientId id = .ok (some found)) :
      ServiceStep call choice store (call.goTo (.putIfVersion version found)) store
  | answered {clientId id : String} {version : Option String}
      {answer : Except RepositoryError (Option Resource)}
      (requestEq : call.request = .get clientId id) (phaseEq : call.phase = .selectRow version)
      (read : answer = findById store.database clientId id ∨
        choice.sql ≠ .healthy ∧ answer = .error .other) :
      ServiceStep call choice store (call.finish (readOutcome id answer)) store
  | cached {clientId id version : String} {found : Resource}
      (requestEq : call.request = .get clientId id)
      (phaseEq : call.phase = .putIfVersion version found) :
      ServiceStep call choice store (call.finish (.ok (.resource found)))
        { store with
          redis := (CacheAside.putIfVersion cacheConfig (cacheKey clientId id) version
            (platform.dump (toJson found)) kResourceCacheTtlSeconds choice.redis
            store.redis).2 }
  | notWritten {clientId id : String} (error : ServiceError)
      (requestEq : call.request.Writes clientId id) (phaseEq : call.phase = .writeRow) :
      ServiceStep call choice store (call.finish (.error error)) store
  | written {clientId id : String} {resources : Table platform} {result : Outcome}
      {next : Call platform} (requestEq : call.request.Writes clientId id)
      (phaseEq : call.phase = .writeRow)
      (change : RowWritten store.database.resources clientId id resources result)
      (nextEq : (∃ outcome,
          next = call.goTo (.invalidateVersioned outcome store.commits.length) ∧
            (outcome = .ok .removed ∨ outcome = result)) ∨
        ∃ error, next = call.finish (.error error)) :
      ServiceStep call choice store next (store.wrote resources result)
  | invalidated {clientId id : String} {outcome : Outcome} {commit : Nat}
      (requestEq : call.request.Writes clientId id)
      (phaseEq : call.phase = .invalidateVersioned outcome commit) :
      ServiceStep call choice store (call.finish outcome)
        { store with
          redis := (CacheAside.invalidateVersioned cacheConfig (cacheKey clientId id)
            choice.redis store.redis).2
          returned := store.returned ++ [commit] }

/-- The commands of a read leave Redis as it is. -/
theorem get_state (key : String) (redis : Redis) : (RedisConnection.get key redis).2 = redis := by
  unfold RedisConnection.get
  split <;> rfl

theorem exists_state (key : String) (redis : Redis) :
    (RedisConnection.exists key redis).2 = redis := by
  unfold RedisConnection.exists
  split <;> rfl

theorem issue_state {Reply : Type} {command : Command Reply} {redis : Redis}
    (reads : (command redis).2 = redis) (fault : Fault) :
    (command.issue fault redis).2 = redis := by
  cases fault <;> simp [Command.issue, reads]

/-- A transaction that fails writes nothing, and its failure is what the caller sees. -/
theorem under_failed {Answer : Type} (error : RepositoryError) (fault : Fault) :
    ∃ seen, ({ answer := .error error } : Executed platform Answer).under fault =
      { answer := .error seen } := by
  cases fault with
  | healthy => exact ⟨error, rfl⟩
  | refused => exact ⟨.other, rfl⟩
  | replyLost => exact ⟨.other, rfl⟩

variable {call next : Call platform} {choice : Choice} {store after : Store platform}

theorem ServiceStep.of_create {clientId : String} {request : CreateResourceRequest}
    (requestEq : call.request = .create clientId request)
    (stepped : call.createStep clientId request choice store = some (next, after)) :
    ServiceStep call choice store next after := by
  unfold Call.createStep at stepped
  split at stepped
  case h_2 => cases stepped
  case h_1 =>
      rcases create_cases store.database clientId request choice.stamp with
        ⟨error, failed⟩ | ⟨client, metadata, resources, clientEq, _, inserted, executed⟩
      · obtain ⟨seen, underEq⟩ := @under_failed platform Resource error choice.sql
        rw [failed] at stepped
        simp only [underEq, Store.commit, createOutcome, Option.some.injEq, Prod.mk.injEq]
          at stepped
        obtain ⟨rfl, rfl⟩ := stepped
        exact .notCreated _ requestEq
      · rw [executed] at stepped
        cases sql : choice.sql with
        | healthy =>
            simp only [sql, Executed.under, Store.commit, Option.some.injEq, Prod.mk.injEq]
              at stepped
            obtain ⟨rfl, rfl⟩ := stepped
            refine .created requestEq clientEq inserted ?_
            unfold decodeRow
            cases decoded : rowToResource (newRow client request metadata choice.stamp) with
            | some resource => exact Or.inl ⟨resource, rfl, rfl⟩
            | none => exact Or.inr ⟨_, rfl⟩
        | refused =>
            simp only [sql, Executed.under, Store.commit, Option.some.injEq, Prod.mk.injEq]
              at stepped
            obtain ⟨rfl, rfl⟩ := stepped
            exact .notCreated _ requestEq
        | replyLost =>
            simp only [sql, Executed.under, Store.commit, Option.some.injEq, Prod.mk.injEq]
              at stepped
            obtain ⟨rfl, rfl⟩ := stepped
            exact .created requestEq clientEq inserted (Or.inr ⟨_, rfl⟩)

theorem ServiceStep.of_list {clientId : String} {filter : ListFilter}
    (requestEq : call.request = .list clientId filter)
    (stepped : call.listStep clientId filter choice store = some (next, after)) :
    ServiceStep call choice store next after := by
  unfold Call.listStep at stepped
  split at stepped
  case h_2 => cases stepped
  case h_1 =>
      simp only at stepped
      split at stepped
      · rename_i result answered
        cases stepped
        refine .listed requestEq ?_
        cases sql : choice.sql with
        | healthy => simpa [sql, Executed.under] using answered
        | refused => simp [sql, Executed.under] at answered
        | replyLost => simp [sql, Executed.under] at answered
      · cases stepped
        exact .notListed _ requestEq

theorem ServiceStep.of_get {clientId id : String} (requestEq : call.request = .get clientId id)
    (stepped : call.getStep clientId id choice store = some (next, after)) :
    ServiceStep call choice store next after := by
  have getState := issue_state (get_state (cacheConfig.makeKey (cacheKey clientId id))
    store.redis) choice.redis
  have existsState := issue_state (exists_state (cacheConfig.makeKey (cacheKey clientId id))
    store.redis) choice.redis
  have versionState := issue_state (get_state (cacheConfig.versionKey (cacheKey clientId id))
    store.redis) choice.redis
  unfold Call.getStep at stepped
  cases phaseEq : call.phase <;> simp only [phaseEq] at stepped
  case cacheGet =>
    simp only [CacheAside.getValue, getState] at stepped
    split at stepped
    · cases stepped
      exact .missed requestEq (Or.inl phaseEq)
    · rename_i value arrived
      obtain ⟨_, reply⟩ := Command.reply_of_issue arrived
      split at stepped
      · rename_i empty
        cases stepped
        exact .gotEmpty requestEq phaseEq (empty ▸ reply)
      · rename_i notEmpty
        cases stepped
        exact .hit requestEq phaseEq reply notEmpty
  case cacheExists =>
    simp only [CacheAside.getExists, existsState] at stepped
    split at stepped
    · cases stepped
      exact .missed requestEq (Or.inr phaseEq)
    · rename_i count arrived
      obtain ⟨_, reply⟩ := Command.reply_of_issue arrived
      split at stepped
      · cases stepped
        exact .missed requestEq (Or.inr phaseEq)
      · rename_i present
        cases stepped
        exact .hitEmpty requestEq phaseEq reply present
  case readVersion =>
    cases stepped
    have same : { store with redis :=
        (CacheAside.version cacheConfig (cacheKey clientId id) choice.redis store.redis).2 } =
        store := by
      rw [show (CacheAside.version cacheConfig (cacheKey clientId id) choice.redis
        store.redis).2 = store.redis from versionState]
    rw [same]
    exact .versionRead requestEq phaseEq
  case selectRow version =>
    split at stepped
    · rename_i found version answerEq
      cases stepped
      refine .selected requestEq phaseEq ?_
      cases sql : choice.sql with
      | healthy => simpa [sql, Executed.under] using answerEq
      | refused => simp [sql, Executed.under] at answerEq
      | replyLost => simp [sql, Executed.under] at answerEq
    · cases stepped
      refine .answered requestEq phaseEq ?_
      cases sql : choice.sql with
      | healthy => exact Or.inl rfl
      | refused => exact Or.inr ⟨by simp, rfl⟩
      | replyLost => exact Or.inr ⟨by simp, rfl⟩
  case putIfVersion version found =>
    cases stepped
    exact .cached requestEq phaseEq
  all_goals cases stepped

theorem ServiceStep.of_update {clientId id : String} {request : UpdateResourceRequest}
    (requestEq : call.request = .update clientId id request)
    (stepped : call.updateStep clientId id request choice store = some (next, after)) :
    ServiceStep call choice store next after := by
  have writes : call.request.Writes clientId id := Or.inl ⟨request, requestEq⟩
  unfold Call.updateStep at stepped
  split at stepped
  case h_1 phaseEq =>
      rcases update_cases store.database clientId id request choice.stamp with
        ⟨error, failed⟩ | ⟨_, _, _, _, _, absent⟩ |
          ⟨client, uuid, metadata, old, resources, clientEq, uuidEq, _, found, stored, executed⟩
      · obtain ⟨seen, underEq⟩ := @under_failed platform (Option Resource) error choice.sql
        simp only [failed, underEq, Store.commit] at stepped
        cases stepped
        exact .notWritten _ writes phaseEq
      · rw [absent] at stepped
        cases sql : choice.sql <;> simp only [sql, Executed.under, Store.commit] at stepped <;>
          cases stepped <;> exact .notWritten _ writes phaseEq
      · rw [executed] at stepped
        have change : RowWritten store.database.resources clientId id resources
            (readOutcome id
              ((decodeRow (updatedRow old request metadata choice.stamp)).map some)) :=
          .replaced clientEq uuidEq found rfl rfl stored
        cases sql : choice.sql with
        | healthy =>
            simp only [sql, Executed.under, Store.commit] at stepped
            cases decoded : decodeRow (updatedRow old request metadata choice.stamp) with
            | error error =>
                rw [decoded] at stepped change
                cases stepped
                exact .written writes phaseEq change (Or.inr ⟨_, rfl⟩)
            | ok updated =>
                rw [decoded] at stepped change
                cases stepped
                exact .written writes phaseEq change (Or.inl ⟨_, rfl, Or.inr rfl⟩)
        | refused =>
            simp only [sql, Executed.under, Store.commit] at stepped
            cases stepped
            exact .notWritten _ writes phaseEq
        | replyLost =>
            simp only [sql, Executed.under, Store.commit] at stepped
            cases stepped
            exact .written writes phaseEq change (Or.inr ⟨_, rfl⟩)
  case h_2 outcome commit phaseEq =>
      cases stepped
      exact .invalidated writes phaseEq
  case h_3 => cases stepped

theorem ServiceStep.of_remove {clientId id : String}
    (requestEq : call.request = .remove clientId id)
    (stepped : call.removeStep clientId id choice store = some (next, after)) :
    ServiceStep call choice store next after := by
  have writes : call.request.Writes clientId id := Or.inr requestEq
  unfold Call.removeStep at stepped
  split at stepped
  case h_1 phaseEq =>
      rcases remove_cases store.database clientId id with
        ⟨error, failed⟩ | ⟨_, _, _, _, _, absent⟩ |
          ⟨client, uuid, old, clientEq, uuidEq, found, executed⟩
      · obtain ⟨seen, underEq⟩ := @under_failed platform Bool error choice.sql
        simp only [failed, underEq, Store.commit] at stepped
        cases stepped
        exact .notWritten _ writes phaseEq
      · rw [absent] at stepped
        cases sql : choice.sql <;> simp only [sql, Executed.under, Store.commit] at stepped <;>
          cases stepped <;> exact .notWritten _ writes phaseEq
      · rw [executed] at stepped
        have change := RowWritten.deleted clientEq uuidEq found
        cases sql : choice.sql with
        | healthy =>
            simp only [sql, Executed.under, Store.commit] at stepped
            cases stepped
            exact .written writes phaseEq change (Or.inl ⟨_, rfl, Or.inl rfl⟩)
        | refused =>
            simp only [sql, Executed.under, Store.commit] at stepped
            cases stepped
            exact .notWritten _ writes phaseEq
        | replyLost =>
            simp only [sql, Executed.under, Store.commit] at stepped
            cases stepped
            exact .written writes phaseEq change (Or.inr ⟨_, rfl⟩)
  case h_2 outcome commit phaseEq =>
      cases stepped
      exact .invalidated writes phaseEq
  case h_3 => cases stepped

theorem ServiceStep.of_step (stepped : call.step choice store = some (next, after)) :
    ServiceStep call choice store next after := by
  unfold Call.step at stepped
  cases requestEq : call.request with
  | create clientId request => exact .of_create requestEq (by rwa [requestEq] at stepped)
  | get clientId id => exact .of_get requestEq (by rwa [requestEq] at stepped)
  | list clientId filter => exact .of_list requestEq (by rwa [requestEq] at stepped)
  | update clientId id request => exact .of_update requestEq (by rwa [requestEq] at stepped)
  | remove clientId id => exact .of_remove requestEq (by rwa [requestEq] at stepped)

/-- A call keeps what it was started with. -/
theorem ServiceStep.keeps (stepped : ServiceStep call choice store next after) :
    next.request = call.request ∧ next.startedOn = call.startedOn ∧
      next.startedAfter = call.startedAfter := by
  cases stepped
  case created requestEq clientEq inserted nextEq =>
    rcases nextEq with ⟨_, rfl, _⟩ | ⟨_, rfl⟩ <;> exact ⟨rfl, rfl, rfl⟩
  case written requestEq phaseEq change nextEq =>
    rcases nextEq with ⟨_, rfl, _⟩ | ⟨_, rfl⟩ <;> exact ⟨rfl, rfl, rfl⟩
  all_goals exact ⟨rfl, rfl, rfl⟩

/-- A read that finds a value under its key ends with it. -/
theorem Call.step_of_hit (roundTrips : platform.RoundTrips) {clientId id : String}
    {resource : Resource} (isValue : platform.IsValue resource.metadata)
    (isGet : call.request = .get clientId id) (phaseEq : call.phase = .cacheGet)
    (healthy : choice.redis = .healthy)
    (reply : CacheAside.getValue cacheConfig (cacheKey clientId id) store.redis =
      (some (platform.dump (toJson resource)), store.redis)) :
    call.step choice store = some (call.finish (.ok (.resource resource)), store) := by
  have notEmpty := roundTrips.dump_ne_empty (isValue_toJson isValue)
  have decoded : decodeCached platform (platform.dump (toJson resource)) =
      .ok (.resource resource) := by
    simp [decodeCached, roundTrips.parse_dump _ (isValue_toJson isValue)]
  simp only [Call.step, isGet, Call.getStep, phaseEq, healthy, Command.issue_healthy, reply,
    notEmpty, if_false, decoded]

/-- So the call of the service does, whichever calls are under way. -/
theorem resourceService_hit (roundTrips : platform.RoundTrips) {state : ServiceState platform}
    {reader : Nat} (found : state.calls reader = some call)
    {clientId id : String} {resource : Resource} (isValue : platform.IsValue resource.metadata)
    (isGet : call.request = .get clientId id) (phaseEq : call.phase = .cacheGet)
    (healthy : choice.redis = .healthy)
    (reply : CacheAside.getValue cacheConfig (cacheKey clientId id) state.shared.redis =
      (some (platform.dump (toJson resource)), state.shared.redis)) :
    (resourceService platform).eventStep state (.advance reader choice) = some { state with
      calls := Function.update state.calls reader
        (some (call.finish (.ok (.resource resource)))) } :=
  Component.eventStep_advance found
    (Call.step_of_hit roundTrips isValue isGet phaseEq healthy reply)

/-! ## A small system -/

def sampleClient : Uuid := ⟨List.replicate 15 0 ++ [10], rfl⟩

def sampleId : Uuid := ⟨List.replicate 15 0 ++ [11], rfl⟩

def sampleClientText : String := "00000000-0000-0000-0000-00000000000a"

def sampleIdText : String := "00000000-0000-0000-0000-00000000000b"

/-- Midnight of some day of a year. -/
def sampleTime (year : Nat) (isDate : IsDate year 1 2 := by decide) : Timestamp where
  year
  month := 1
  day := 2
  isDate
  hour := 0
  minute := 0
  second := 0
  micro := 0

def sampleRow : Row Platform.reference where
  id := sampleId
  clientId := sampleClient
  kind := "vm"
  name := "web"
  status := "up"
  metadata := Json.object []
  createdAt := sampleTime 2024
  updatedAt := sampleTime 2024

/-- The row as a resource. -/
def sampleResource : Resource where
  id := uuidOut sampleId
  clientId := uuidOut sampleClient
  kind := "vm"
  name := "web"
  status := "up"
  metadata := .object []
  createdAt := (sampleTime 2024).toChar
  updatedAt := (sampleTime 2024).toChar

theorem isValue_sampleResource {platform : Platform} :
    platform.IsValue sampleResource.metadata :=
  .object .nil (by simp)

/-- An empty Redis and a table with one row. -/
def sampleStore : Store Platform.reference where
  redis := .empty
  database :=
    { clients := fun _ => true
      resources := { rows := [sampleRow], ids_unique := by simp, names_unique := by simp } }
  commits := []
  returned := []

def sampleNow : Timestamp :=
  sampleTime 2025

def sampleChoice : Choice where
  stamp := { freshId := sampleId, now := sampleNow }

end Corvus.Resources
