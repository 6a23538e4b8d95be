import Corvus.Machine

/-!
# Setting up a Redis connection

`reconnect` opens a context, authenticates and selects the database, and throws
when one of the three fails.  Whether a connection is open is read off the
context alone: its `err` is set when no reply arrives, and stays clear when the
server answers with an error.

The fields `authenticated` and `selected` of a context and `sentOn` and `attempts`
of a client are there for the statements only.
-/

namespace Corvus.Db

structure RedisConfig where
  host : String := "localhost"
  port : Int := 6379
  connectTimeoutMs : Nat := 3000
  password : String := ""
  db : Int := 0
  deriving DecidableEq, Repr

structure RedisConfigError where
  what : String
  deriving DecidableEq, Repr

/-- Why a command throws. -/
inductive RedisCommandError where
  | notOpen
  | nullReply
  | failed (text : String)
  deriving DecidableEq, Repr

/-- What comes back for a command: a reply that is no error, an error, or nothing
before the timeout or the end of the connection. -/
inductive ServerReply where
  | accepted
  | error (text : String)
  | dropped
  deriving DecidableEq, Repr

/-- A `redisContext`: whether its `err` is set, and which commands of the set-up
the server has acknowledged since it was opened. -/
structure RedisContext where
  err : Bool := false
  authenticated : Bool := false
  selected : Bool := false
  deriving DecidableEq, Repr

/-- `redisCommand`.  A context with an error sends nothing. -/
def RedisContext.exchange (context : RedisContext) (reply : ServerReply) :
    ServerReply × RedisContext :=
  if context.err then (.dropped, context)
  else
    match reply with
    | .accepted => (.accepted, context)
    | .error text => (.error text, context)
    | .dropped => (.dropped, { context with err := true })

structure RedisConnection where
  config : RedisConfig
  ctx : Option RedisContext
  deriving DecidableEq, Repr

/-- How `redisConnectWithTimeout` ends. -/
inductive ConnectResult where
  | notAllocated
  | refused (errstr : String)
  | opened
  deriving DecidableEq, Repr

/-- What `reconnect` meets at its four stages, and how long it takes in all. -/
structure Handshake where
  takes : Nat := 0
  connect : ConnectResult := .opened
  timeoutsApply : Bool := true
  auth : ServerReply := .accepted
  select : ServerReply := .accepted
  deriving DecidableEq, Repr

/-- What `authenticate` and `select_db` share: unless there is nothing to ask for, a
command whose acknowledgement counts, and the beginning of the text when it fails. -/
def RedisContext.request (context : RedisContext) (unneeded : Prop) [Decidable unneeded]
    (reply : ServerReply) (failed : String) (acknowledge : RedisContext → RedisContext) :
    Except RedisConfigError Unit × RedisContext :=
  if unneeded then (.ok (), context)
  else
    let exchanged := context.exchange reply
    match exchanged.1 with
    | .accepted => (.ok (), acknowledge exchanged.2)
    | .error text => (.error ⟨failed ++ text⟩, exchanged.2)
    | .dropped => (.error ⟨failed ++ "null reply"⟩, exchanged.2)

namespace RedisConnection

def isConnected (connection : RedisConnection) : Bool :=
  match connection.ctx with
  | none => false
  | some context => !context.err

def authenticate (config : RedisConfig) (context : RedisContext) (reply : ServerReply) :
    Except RedisConfigError Unit × RedisContext :=
  context.request (config.password = "") reply "Redis AUTH failed: " fun context =>
    { context with authenticated := true }

def selectDb (config : RedisConfig) (context : RedisContext) (reply : ServerReply) :
    Except RedisConfigError Unit × RedisContext :=
  context.request (config.db = 0) reply ("Redis SELECT " ++ config.db.repr ++ " failed: ")
    fun context => { context with selected := true }

/-- `reconnect`.  The old context is freed first; a context that could be opened is
kept, whatever follows. -/
def reconnect (connection : RedisConnection) (server : Handshake) :
    Except RedisConfigError Unit × RedisConnection :=
  let config := connection.config
  match server.connect with
  | .notAllocated =>
      (.error ⟨"Failed to allocate Redis context for " ++ config.host ++ ":" ++
        config.port.repr⟩, { config, ctx := none })
  | .refused errstr =>
      (.error ⟨"Redis connection failed to" ++ config.host ++ ":" ++ config.port.repr ++
        ": " ++ errstr⟩, { config, ctx := none })
  | .opened =>
      let authenticated := authenticate config { err := !server.timeoutsApply } server.auth
      match authenticated.1 with
      | .error error => (.error error, { config, ctx := some authenticated.2 })
      | .ok () =>
          let selected := selectDb config authenticated.2 server.select
          (selected.1, { config, ctx := some selected.2 })

/-- The constructor.  When it throws there is no connection. -/
def ofConfig (config : RedisConfig) (server : Handshake) :
    Except RedisConfigError RedisConnection :=
  match ({ config, ctx := none } : RedisConnection).reconnect server with
  | (.ok (), connection) => .ok connection
  | (.error error, _) => .error error

end RedisConnection

/-! ## Clients -/

/-- An attempt of `ensure_connected_locked` to reconnect. -/
structure ReconnectAttempt where
  started : Nat
  ended : Nat
  succeeded : Bool
  deriving DecidableEq, Repr

/-- A `CacheAside` and its connection.  Times are nanoseconds of the steady clock;
`sentOn` holds the context each command was sent on, as it was then. -/
structure RedisClient where
  connection : RedisConnection
  now : Nat := 0
  nextReconnect : Nat := 0
  sentOn : List RedisContext := []
  attempts : List ReconnectAttempt := []
  deriving DecidableEq, Repr

/-- In nanoseconds. -/
def kReconnectBackoff : Nat := 1000000000

namespace RedisClient

def reconnect (client : RedisClient) (server : Handshake) :
    Except RedisConfigError Unit × RedisClient :=
  let outcome := client.connection.reconnect server
  (outcome.1, { client with connection := outcome.2, now := client.now + server.takes })

/-- Any command of `RedisConnection`: `check_connection`, then one exchange. -/
def command (client : RedisClient) (reply : ServerReply) :
    Except RedisCommandError Unit × RedisClient :=
  match client.connection.ctx with
  | none => (.error .notOpen, client)
  | some context =>
      if context.err then (.error .notOpen, client)
      else
        let exchanged := context.exchange reply
        let after :=
          { client with
            connection := { client.connection with ctx := some exchanged.2 }
            sentOn := client.sentOn ++ [context] }
        match exchanged.1 with
        | .accepted => (.ok (), after)
        | .error text => (.error (.failed text), after)
        | .dropped => (.error .nullReply, after)

/-- `ensure_connected_locked`.  The clock is read once, before the attempt. -/
def ensureConnected (client : RedisClient) (server : Handshake) : Bool × RedisClient :=
  if client.connection.isConnected then (true, client)
  else if client.now < client.nextReconnect then (false, client)
  else
    let outcome := client.reconnect server
    let attempt := { started := client.now, ended := outcome.2.now, succeeded := outcome.1.isOk }
    let after := { outcome.2 with attempts := client.attempts ++ [attempt] }
    match outcome.1 with
    | .ok () => (true, after)
    | .error _ => (false, { after with nextReconnect := client.now + kReconnectBackoff })

/-- Commands one after another, up to the first that throws. -/
def commands (client : RedisClient) : List ServerReply → RedisClient
  | [] => client
  | reply :: rest =>
      let outcome := client.command reply
      match outcome.1 with
      | .ok () => outcome.2.commands rest
      | .error _ => outcome.2

/-- An operation of `CacheAside`.  Most send one command; `get` sends a second one
after an empty reply, `invalidate_prefix` as many as it finds keys and pages. -/
def operation (client : RedisClient) (server : Handshake) (replies : List ServerReply) :
    RedisClient :=
  let ensured := client.ensureConnected server
  if ensured.1 then ensured.2.commands replies else ensured.2

end RedisClient

inductive ClientEvent where
  | pass (span : Nat)
  | reconnect (server : Handshake)
  | command (reply : ServerReply)
  | operation (server : Handshake) (replies : List ServerReply)

def RedisClient.step (client : RedisClient) : ClientEvent → Option RedisClient
  | .pass span => some { client with now := client.now + span }
  | .reconnect server => some (client.reconnect server).2
  | .command reply => some (client.command reply).2
  | .operation server replies => some (client.operation server replies)

/-- A client on a connection whose constructor has returned. -/
def redisClient : Machine RedisClient ClientEvent where
  initial client := client.nextReconnect = 0 ∧ client.sentOn = [] ∧ client.attempts = [] ∧
    ∃ config server, RedisConnection.ofConfig config server = .ok client.connection
  step client event := client.step event

/-! ## What is promised -/

/-- What the configuration asks for has been acknowledged on the context. -/
def RedisContext.SetUp (config : RedisConfig) (context : RedisContext) : Prop :=
  (config.password ≠ "" → context.authenticated = true) ∧
    (config.db ≠ 0 → context.selected = true)

instance (config : RedisConfig) (context : RedisContext) :
    Decidable (context.SetUp config) :=
  inferInstanceAs (Decidable (_ ∧ _))

/-- The connection is not open, or set up. -/
def RedisConnection.SetUp (connection : RedisConnection) : Prop :=
  ∀ context, connection.ctx = some context → context.err = false →
    context.SetUp connection.config

/-- On a context that opens, neither `AUTH` nor `SELECT` is answered with an error. -/
def Handshake.NoErrorReply (server : Handshake) (config : RedisConfig) : Prop :=
  server.connect = .opened → server.timeoutsApply = true →
    (config.password ≠ "" → ∀ text, server.auth ≠ .error text) ∧
      (config.db ≠ 0 → (config.password = "" ∨ server.auth = .accepted) →
        ∀ text, server.select ≠ .error text)

/-- Whenever the client reconnects, neither `AUTH` nor `SELECT` is answered with an
error. -/
def HandshakesSucceedOrDrop (client : RedisClient) : ClientEvent → Prop
  | .reconnect server => server.NoErrorReply client.connection.config
  | .operation server _ => client.connection.isConnected = false →
      client.nextReconnect ≤ client.now → server.NoErrorReply client.connection.config
  | _ => True

/-! ## What a step does -/

/-- A command of the set-up is acknowledged as far as it is needed, or refused on a
context that stays open, or leaves the context closed. -/
theorem RedisContext.request_cases (context : RedisContext) (unneeded : Prop)
    [Decidable unneeded] (reply : ServerReply) (failed : String)
    (acknowledge : RedisContext → RedisContext) :
    (context.err = false ∧ (¬unneeded → reply = .accepted) ∧
      context.request unneeded reply failed acknowledge =
        (.ok (), if unneeded then context else acknowledge context)) ∨
    (context.err = false ∧ ¬unneeded ∧ ∃ text, reply = .error text ∧
      context.request unneeded reply failed acknowledge = (.error ⟨failed ++ text⟩, context)) ∨
    ((context.err = true ∨ ¬unneeded ∧ reply = .dropped) ∧
      (context.request unneeded reply failed acknowledge).2.err = true) := by
  by_cases skipped : unneeded
  · cases errEq : context.err with
    | true => exact Or.inr (Or.inr ⟨Or.inl rfl, by simp [request, skipped, errEq]⟩)
    | false => exact Or.inl ⟨rfl, fun needed => (needed skipped).elim, by simp [request, skipped]⟩
  · cases errEq : context.err with
    | true => exact Or.inr (Or.inr ⟨Or.inl rfl, by simp [request, skipped, exchange, errEq]⟩)
    | false =>
        cases reply with
        | accepted => exact Or.inl ⟨rfl, fun _ => rfl, by simp [request, skipped, exchange, errEq]⟩
        | error text =>
            exact Or.inr (Or.inl ⟨rfl, skipped, text, rfl, by
              simp [request, skipped, exchange, errEq]⟩)
        | dropped =>
            exact Or.inr (Or.inr ⟨Or.inr ⟨skipped, rfl⟩, by
              simp [request, skipped, exchange, errEq]⟩)

/-- A closed context stays closed. -/
theorem RedisContext.request_of_err {context : RedisContext} (closed : context.err = true)
    (unneeded : Prop) [Decidable unneeded] (reply : ServerReply) (failed : String)
    (acknowledge : RedisContext → RedisContext) :
    (context.request unneeded reply failed acknowledge).2.err = true := by
  rcases context.request_cases unneeded reply failed acknowledge with
    ⟨isOpen, _⟩ | ⟨isOpen, _⟩ | ⟨_, stillClosed⟩
  · rw [closed] at isOpen
    cases isOpen
  · rw [closed] at isOpen
    cases isOpen
  · exact stillClosed

namespace RedisConnection

@[simp] theorem reconnect_config (connection : RedisConnection) (server : Handshake) :
    (connection.reconnect server).2.config = connection.config := by
  unfold reconnect
  split
  · rfl
  · rfl
  · simp only
    split <;> rfl

theorem setUp_of_err {config : RedisConfig} {context : RedisContext}
    (closed : context.err = true) : SetUp { config, ctx := some context } := by
  intro other same isOpen
  cases same
  rw [closed] at isOpen
  cases isOpen

/-- After `selectDb` on a context that has all it needs so far, the connection is set
up or not open, exactly if the server has not answered with an error. -/
theorem setUp_selectDb_iff {config : RedisConfig} {context : RedisContext}
    (isOpen : context.err = false)
    (authenticated : config.password ≠ "" → context.authenticated = true)
    (fresh : context.selected = false) (reply : ServerReply) :
    SetUp { config, ctx := some (selectDb config context reply).2 } ↔
      (config.db ≠ 0 → ∀ text, reply ≠ .error text) := by
  rcases context.request_cases (config.db = 0) reply
      ("Redis SELECT " ++ config.db.repr ++ " failed: ")
      (fun context => { context with selected := true }) with
    ⟨_, accepted, outcome⟩ | ⟨_, needed, text, refused, outcome⟩ | ⟨why, closed⟩
  · refine ⟨fun _ needed text => by simp [accepted needed], fun _ after same _ => ?_⟩
    rw [selectDb, outcome] at same
    cases same
    by_cases needed : config.db = 0
    · rw [if_pos needed]
      exact ⟨authenticated, fun db => (db needed).elim⟩
    · rw [if_neg needed]
      exact ⟨authenticated, fun _ => rfl⟩
  · rw [selectDb, outcome]
    refine ⟨fun setUp => ?_, fun noError => (noError needed text refused).elim⟩
    have selected := (setUp context rfl isOpen).2 needed
    rw [fresh] at selected
    cases selected
  · refine ⟨fun _ _ text refused => ?_, fun _ => setUp_of_err closed⟩
    rcases why with wasClosed | ⟨_, dropped⟩
    · rw [isOpen] at wasClosed
      cases wasClosed
    · rw [dropped] at refused
      cases refused

/-- After `reconnect` the connection is set up or not open, exactly if the server has
not answered with an error on a context that opened. -/
theorem setUp_reconnect_iff (connection : RedisConnection) (server : Handshake) :
    (connection.reconnect server).2.SetUp ↔ server.NoErrorReply connection.config := by
  unfold reconnect
  split
  · rename_i failed
    exact ⟨fun _ opened => by simp [failed] at opened, fun _ _ none => by cases none⟩
  · rename_i errstr refused
    exact ⟨fun _ opened => by simp [refused] at opened, fun _ _ none => by cases none⟩
  rename_i opened
  rcases RedisContext.request_cases { err := !server.timeoutsApply }
      (connection.config.password = "") server.auth "Redis AUTH failed: "
      (fun context => { context with authenticated := true }) with
    ⟨isOpen, accepted, outcome⟩ | ⟨isOpen, password, text, refused, outcome⟩ | ⟨why, closed⟩
  · have applied : server.timeoutsApply = true := by simpa using isOpen
    simp only [authenticate, outcome]
    rw [setUp_selectDb_iff]
    · refine ⟨fun noError _ _ => ⟨fun password text => by simp [accepted password],
        fun db _ => noError db⟩, fun noError db => (noError opened applied).2 db ?_⟩
      by_cases password : connection.config.password = ""
      · exact Or.inl password
      · exact Or.inr (accepted password)
    · split <;> exact isOpen
    · intro password
      rw [if_neg password]
    · split <;> rfl
  · have applied : server.timeoutsApply = true := by simpa using isOpen
    simp only [authenticate, outcome]
    refine ⟨fun setUp => ?_, fun noError => ?_⟩
    · have authenticated := (setUp _ rfl isOpen).1 password
      cases authenticated
    · exact ((noError opened applied).1 password text refused).elim
  · have vacuous : server.NoErrorReply connection.config := by
      intro _ applied
      rcases why with wasClosed | ⟨password, dropped⟩
      · simp [applied] at wasClosed
      · refine ⟨fun _ text => by simp [dropped], fun _ known => ?_⟩
        rcases known with none | accepted
        · exact (password none).elim
        · rw [dropped] at accepted
          cases accepted
    refine ⟨fun _ => vacuous, fun _ => ?_⟩
    simp only
    split
    · exact setUp_of_err closed
    · exact setUp_of_err (RedisContext.request_of_err closed _ _ _ _)

/-- `reconnect` throws on any error reply. -/
theorem noErrorReply_of_reconnect {connection : RedisConnection} {server : Handshake}
    (succeeded : (connection.reconnect server).1 = .ok ()) :
    server.NoErrorReply connection.config := by
  intro opened applied
  simp only [reconnect, opened, authenticate, selectDb] at succeeded
  rcases RedisContext.request_cases { err := !server.timeoutsApply }
      (connection.config.password = "") server.auth "Redis AUTH failed: "
      (fun context => { context with authenticated := true }) with
    ⟨isOpen, accepted, outcome⟩ | ⟨_, _, _, _, outcome⟩ | ⟨wasClosed | ⟨password, dropped⟩, _⟩
  · refine ⟨fun password text => by simp [accepted password], fun db _ text refused => ?_⟩
    simp only [outcome] at succeeded
    rcases RedisContext.request_cases
        (if connection.config.password = "" then { err := !server.timeoutsApply }
          else { err := !server.timeoutsApply, authenticated := true })
        (connection.config.db = 0) server.select
        ("Redis SELECT " ++ connection.config.db.repr ++ " failed: ")
        (fun context => { context with selected := true }) with
      ⟨_, selectAccepted, _⟩ | ⟨_, _, _, _, selectOutcome⟩ | ⟨wasClosed | ⟨_, dropped⟩, _⟩
    · rw [selectAccepted db] at refused
      cases refused
    · rw [selectOutcome] at succeeded
      cases succeeded
    · split at wasClosed <;> simp [applied] at wasClosed
    · rw [dropped] at refused
      cases refused
  · simp [outcome] at succeeded
  · simp [applied] at wasClosed
  · refine ⟨fun _ text => by simp [dropped], fun _ known => ?_⟩
    rcases known with none | accepted
    · exact (password none).elim
    · rw [dropped] at accepted
      cases accepted

end RedisConnection

/-! ## Runs -/

namespace RedisClient

/-- The connection is set up or not open, and every command was sent on a context that
was set up. -/
structure Safe (client : RedisClient) : Prop where
  connection : client.connection.SetUp
  sent : ∀ context ∈ client.sentOn, context.SetUp client.connection.config

variable {client : RedisClient}

theorem Safe.reconnect {server : Handshake} (safe : client.Safe)
    (noError : server.NoErrorReply client.connection.config) :
    (client.reconnect server).2.Safe := by
  refine ⟨(RedisConnection.setUp_reconnect_iff _ _).mpr noError, fun context member => ?_⟩
  simp only [RedisClient.reconnect, RedisConnection.reconnect_config]
  exact safe.sent context member

/-- A command is sent on an open context only, and leaves it open or closes it. -/
theorem command_cases (client : RedisClient) (reply : ServerReply) :
    (client.connection.isConnected = false ∧ (client.command reply).2 = client ∧
      (client.command reply).1 = .error .notOpen) ∨
    ∃ context, client.connection.ctx = some context ∧ context.err = false ∧
      (client.command reply).2 =
        { client with
          connection :=
            { client.connection with ctx := some { context with err := reply = .dropped } }
          sentOn := client.sentOn ++ [context] } := by
  unfold command RedisConnection.isConnected
  cases ctxEq : client.connection.ctx with
  | none => exact Or.inl ⟨rfl, rfl, rfl⟩
  | some context =>
      cases errEq : context.err with
      | true => exact Or.inl ⟨by simp [errEq], by simp [errEq], by simp [errEq]⟩
      | false =>
          refine Or.inr ⟨context, rfl, errEq, ?_⟩
          have same : { context with err := false } = context := by rw [← errEq]
          cases reply <;> simp [RedisContext.exchange, errEq, same]

theorem Safe.command (safe : client.Safe) (reply : ServerReply) :
    (client.command reply).2.Safe := by
  rcases client.command_cases reply with ⟨_, same, _⟩ | ⟨context, found, isOpen, after⟩
  · rw [same]
    exact safe
  · have setUp := safe.connection context found isOpen
    rw [after]
    refine ⟨fun other same _ => ?_, fun other member => ?_⟩
    · cases same
      exact setUp
    · rcases List.mem_append.mp member with before | new
      · exact safe.sent other before
      · rw [List.mem_singleton.mp new]
        exact setUp

theorem Safe.commands {replies : List ServerReply} (safe : client.Safe) :
    (client.commands replies).Safe := by
  induction replies generalizing client with
  | nil => exact safe
  | cons reply rest ih =>
      unfold RedisClient.commands
      simp only
      split
      · exact ih (safe.command reply)
      · exact safe.command reply

theorem Safe.ensureConnected {server : Handshake} (safe : client.Safe)
    (noError : client.connection.isConnected = false → client.nextReconnect ≤ client.now →
      server.NoErrorReply client.connection.config) :
    (client.ensureConnected server).2.Safe := by
  unfold RedisClient.ensureConnected
  split
  · exact safe
  · rename_i notConnected
    split
    · exact safe
    · rename_i elapsed
      have after := safe.reconnect
        (noError (Bool.eq_false_iff.mpr notConnected) (Nat.le_of_not_lt elapsed))
      simp only
      split <;> exact ⟨after.connection, after.sent⟩

theorem Safe.operation {server : Handshake} {replies : List ServerReply} (safe : client.Safe)
    (noError : client.connection.isConnected = false → client.nextReconnect ≤ client.now →
      server.NoErrorReply client.connection.config) :
    (client.operation server replies).Safe := by
  have ensured := safe.ensureConnected noError
  unfold RedisClient.operation
  simp only
  split
  · exact ensured.commands
  · exact ensured

/-- A constructor that returns has set the connection up. -/
theorem setUp_of_ofConfig {config : RedisConfig} {server : Handshake}
    {connection : RedisConnection}
    (constructed : RedisConnection.ofConfig config server = .ok connection) :
    connection.SetUp := by
  unfold RedisConnection.ofConfig at constructed
  split at constructed
  · rename_i opened outcome
    cases constructed
    have succeeded : (({ config, ctx := none } : RedisConnection).reconnect server).1 = .ok () := by
      rw [outcome]
    have setUp := (RedisConnection.setUp_reconnect_iff _ server).mpr
      (RedisConnection.noErrorReply_of_reconnect succeeded)
    rwa [outcome] at setUp
  · cases constructed

theorem safe_of_reachable (reachable : redisClient.Reachable HandshakesSucceedOrDrop client) :
    client.Safe := by
  refine reachable.invariant ?_ ?_
  · rintro client ⟨_, noneSent, _, config, server, constructed⟩
    exact ⟨setUp_of_ofConfig constructed, by simp [noneSent]⟩
  · intro client event next safe allowed stepped
    cases event with
    | pass span =>
        cases stepped
        exact ⟨safe.connection, safe.sent⟩
    | reconnect server =>
        cases stepped
        exact safe.reconnect allowed
    | command reply =>
        cases stepped
        exact safe.command reply
    | operation server replies =>
        cases stepped
        exact safe.operation allowed

/-- When no handshake is answered with an error, an open connection is set up, and
commands have gone out on such connections only. -/
theorem connected_setUp (reachable : redisClient.Reachable HandshakesSucceedOrDrop client) :
    (client.connection.isConnected = true → ∃ context, client.connection.ctx = some context ∧
      context.SetUp client.connection.config) ∧
    ∀ context ∈ client.sentOn, context.SetUp client.connection.config := by
  have safe := safe_of_reachable reachable
  refine ⟨fun connected => ?_, safe.sent⟩
  unfold RedisConnection.isConnected at connected
  split at connected
  · cases connected
  · rename_i context found
    exact ⟨context, found, safe.connection context found (by simpa using connected)⟩

/-! ## A server that comes back -/

/-- Commands go to database 2 of a server with a password. -/
def guardedConfig : RedisConfig := { password := "secret", db := 2 }

def constructed : RedisClient where
  connection :=
    { config := guardedConfig
      ctx := some { authenticated := true, selected := true } }

/-- The connection breaks, and the next operation but one reconnects. -/
def comesBack (server : Handshake) : List ClientEvent :=
  [.command .dropped, .operation server [.accepted], .operation {} [.accepted]]

/-- The client after a list of events. -/
def after (events : List ClientEvent) : RedisClient :=
  (redisClient.execute constructed events).getD constructed

theorem constructed_initial : redisClient.initial constructed :=
  ⟨rfl, rfl, rfl, guardedConfig, {}, rfl⟩

theorem reachable_after {guard : RedisClient → ClientEvent → Prop} {events : List ClientEvent}
    (possible : (redisClient.execute constructed events).isSome = true)
    (allowed : redisClient.Allows guard constructed events) :
    redisClient.Reachable guard (after events) := by
  obtain ⟨last, executed⟩ := Option.isSome_iff_exists.mp possible
  refine ⟨constructed, constructed_initial, ?_⟩
  rw [after, executed, Option.getD_some]
  exact Machine.runs_of_execute executed allowed

theorem connected_setUp_comesBack :
    ∃ context, (after (comesBack {})).connection.ctx = some context ∧
      context.SetUp guardedConfig := by
  have accepts : ∀ config, ({} : Handshake).NoErrorReply config :=
    fun _ _ _ => ⟨fun _ _ => by simp, fun _ _ _ => by simp⟩
  have reachable : redisClient.Reachable HandshakesSucceedOrDrop (after (comesBack {})) := by
    refine reachable_after rfl (Machine.allows_of_forall fun event member client => ?_)
    simp only [comesBack, List.mem_cons, List.not_mem_nil, or_false] at member
    rcases member with rfl | rfl | rfl
    · trivial
    · exact fun _ _ => accepts _
    · exact fun _ _ => accepts _
  exact (connected_setUp reachable).1 rfl

/-- Whatever the server answers, an open connection is set up. -/
def ConnectedIsSetUp : Prop :=
  ∀ client, redisClient.Reachable (fun _ _ => True) client →
    (client.connection.isConnected = true → ∃ context, client.connection.ctx = some context ∧
      context.SetUp client.connection.config) ∧
    ∀ context ∈ client.sentOn, context.SetUp client.connection.config

/-- The server comes back without a password and answers `AUTH` with an error. -/
def unprotected : Handshake where
  auth := .error "ERR AUTH <password> called without any password configured"

theorem not_connectedIsSetUp : ¬ConnectedIsSetUp := by
  intro promise
  have reachable : redisClient.Reachable (fun _ _ => True) (after (comesBack unprotected)) :=
    reachable_after rfl (Machine.allows_of_forall fun _ _ _ => trivial)
  have sent : ({} : RedisContext) ∈ (after (comesBack unprotected)).sentOn := by decide
  exact absurd ((promise _ reachable).2 {} sent) (by decide)

end RedisClient

end Corvus.Db
