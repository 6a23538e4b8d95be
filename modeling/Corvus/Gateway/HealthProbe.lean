import Corvus.Lines
import Corvus.Resources.Cursor

/-!
# The health probe

The probe sends a request over a non-blocking socket and reads until it has the first
line of the reply.  It waits before each of its calls, until a deadline.  A turn is one
wait and the call after it, so a run of the probe is a sequence of turns, and what the
reply is cut into is in the turns.
-/

namespace Corvus.Gateway

open Corvus.Lines Corvus.Resources

structure HealthProbeResult where
  healthy : Bool
  detail : List UInt8
  deriving DecidableEq

/-- `fail`. -/
def fail (why : List UInt8) : HealthProbeResult where
  healthy := false
  detail := why

/-! ## What the calls return -/

/-- How the address, the socket and `connect` turn out. -/
inductive Opening where
  | badAddress
  | noSocket (error : String)
  | refused (error : String)
  | inProgress
  | connected

/-- What `poll` returns for the socket; `reported` is whether an event that is waited
for, or a hang-up, is among those reported. -/
inductive Poll where
  | ready (reported : Bool)
  | timedOut
  | interrupted
  | failed

/-- What `send` returns. -/
inductive Sent where
  | bytes (count : Nat)
  | retry
  | failed (error : String)

/-- What `recv` returns.  The buffer takes up to 256 bytes: `more` after the first. -/
inductive Received where
  | bytes (more : Fin 256)
  | retry
  | failed (error : String)

/-- The milliseconds to the deadline when a wait reads the clock, what `poll` returns,
and what the next call returns if the wait is over. -/
structure Turn where
  left : Int
  poll : Poll
  connectError : Option String := none
  sent : Sent := .retry
  received : Received := .retry

/-- A call of `probe_http_health`, and what it meets. -/
structure Probe where
  host : String
  path : String
  opening : Opening
  reply : Feed UInt8
  turns : Nat → Turn

/-! ## The probe -/

/-- `remaining_ms`. -/
def remainingMs (left : Int) : Int :=
  if 0 < left then left else 0

/-- A turn of the loop of `wait_for`: what it returns, or that it goes round again. -/
def Turn.waitFor (turn : Turn) : Option Bool :=
  if remainingMs turn.left = 0 then some false
  else
    match turn.poll with
    | .ready reported => some reported
    | .timedOut => some false
    | .interrupted => none
    | .failed => some false

/-- `"\r\n"`. -/
def crlf : UInt8 × UInt8 := (13, 10)

/-- The check of the status line, once the reading is over. -/
def checkStatus (head : List UInt8) : HealthProbeResult :=
  let statusLine := firstLine crlf head
  if (bytesOf "HTTP/1.").isPrefixOf statusLine = false ∨ statusLine.length < 12 then
    fail (bytesOf "malformed response: '" ++ statusLine ++ bytesOf "'")
  else
    { healthy := (statusLine.drop 9).take 3 == bytesOf "200"
      detail := statusLine }

/-- Where the probe stands. -/
inductive ProbePhase where
  | connecting
  | sending (sent : Nat)
  | reading (head : List UInt8)
  | done (result : HealthProbeResult)

namespace Probe

/-- The text that is sent. -/
def request (probe : Probe) : List UInt8 :=
  bytesOf ("GET " ++ probe.path ++ " HTTP/1.1\r\n" ++ "Host: " ++ probe.host ++ "\r\n" ++
    "User-Agent: corvus-health-check\r\n" ++ "Connection: close\r\n\r\n")

/-- The condition of the loop that reads, and what follows it. -/
def readOn (head : List UInt8) : ProbePhase :=
  if findMark crlf head = none ∧ head.length < 1024 then .reading head
  else .done (checkStatus head)

/-- The condition of the loop that sends. -/
def sendOn (probe : Probe) (sent : Nat) : ProbePhase :=
  if sent < probe.request.length then .sending sent else readOn []

/-- Up to the first wait. -/
def start (probe : Probe) : ProbePhase :=
  match probe.opening with
  | .badAddress => .done (fail (bytesOf ("invalid IPv4 address: " ++ probe.host)))
  | .noSocket error => .done (fail (bytesOf ("socket: " ++ error)))
  | .refused error => .done (fail (bytesOf ("connect: " ++ error)))
  | .inProgress => .connecting
  | .connected => probe.sendOn 0

/-- A turn.  A wait that goes round again leaves everything as it is. -/
def step (probe : Probe) (turn : Turn) : ProbePhase → ProbePhase
  | .connecting =>
      match turn.waitFor with
      | none => .connecting
      | some false => .done (fail (bytesOf "connect timed out"))
      | some true =>
          match turn.connectError with
          | some error => .done (fail (bytesOf ("connect: " ++ error)))
          | none => probe.sendOn 0
  | .sending sent =>
      match turn.waitFor with
      | none => .sending sent
      | some false => .done (fail (bytesOf "send timed out"))
      | some true =>
          match turn.sent with
          | .retry => .sending sent
          | .failed error => .done (fail (bytesOf ("send: " ++ error)))
          | .bytes count => probe.sendOn (sent + min count (probe.request.length - sent))
  | .reading head =>
      match turn.waitFor with
      | none => .reading head
      | some false => .done (fail (bytesOf "no response before deadline"))
      | some true =>
          match turn.received with
          | .retry => .reading head
          | .failed error => .done (fail (bytesOf ("recv: " ++ error)))
          | .bytes more =>
              let piece := probe.reply.slice head.length (more.val + 1)
              if piece = [] then .done (checkStatus head) else readOn (head ++ piece)
  | .done result => .done result

/-- The phase after some turns. -/
def phaseAt (probe : Probe) : Nat → ProbePhase
  | 0 => probe.start
  | turn + 1 => probe.step (probe.turns turn) (probe.phaseAt turn)

end Probe

/-! ## What a reply says -/

/-- The first line begins with `HTTP/1.`, and its bytes 9 to 11 are `200`. -/
structure Healthy (reply : Feed UInt8) : Prop where
  starts : ∀ position < 7, reply.line? crlf position = (bytesOf "HTTP/1.")[position]?
  long : reply.line? crlf 11 ≠ none
  ok : ∀ position < 3, reply.line? crlf (9 + position) = (bytesOf "200")[position]?

theorem length_bytesOf_http : (bytesOf "HTTP/1.").length = 7 := by
  decide

theorem length_bytesOf_ok : (bytesOf "200").length = 3 := by
  decide

/-- The check, byte by byte. -/
theorem checkStatus_healthy_iff (head : List UInt8) : (checkStatus head).healthy = true ↔
    (∀ position < 7, (firstLine crlf head)[position]? = (bytesOf "HTTP/1.")[position]?) ∧
      (firstLine crlf head)[11]? ≠ none ∧
      ∀ position < 3, (firstLine crlf head)[9 + position]? = (bytesOf "200")[position]? := by
  have starts : (bytesOf "HTTP/1.").isPrefixOf (firstLine crlf head) = true ↔
      ∀ position < 7, (firstLine crlf head)[position]? = (bytesOf "HTTP/1.")[position]? := by
    rw [List.isPrefixOf_iff_prefix, List.prefix_iff_getElem?]
    refine forall_congr' fun position => ⟨fun same within => ?_, fun same inside => ?_⟩
    · have inside : position < (bytesOf "HTTP/1.").length := length_bytesOf_http ▸ within
      rw [same inside, List.getElem?_eq_getElem inside]
    · rw [same (length_bytesOf_http ▸ inside), List.getElem?_eq_getElem inside]
  have long : ¬(firstLine crlf head).length < 12 ↔ (firstLine crlf head)[11]? ≠ none := by
    rw [Ne, List.getElem?_eq_none_iff]
    omega
  have ok : ((firstLine crlf head).drop 9).take 3 = bytesOf "200" ↔
      ∀ position < 3, (firstLine crlf head)[9 + position]? = (bytesOf "200")[position]? := by
    constructor
    · intro same position within
      rw [← same, List.getElem?_take, if_pos within, List.getElem?_drop]
    · intro same
      apply List.ext_getElem?
      intro position
      rw [List.getElem?_take, List.getElem?_drop]
      by_cases within : position < 3
      · rw [if_pos within, same position within]
      · rw [if_neg within, List.getElem?_eq_none (by rw [length_bytesOf_ok]; omega)]
  rw [← starts, ← long, ← ok, checkStatus]
  split
  · rename_i malformed
    refine ⟨fun healthy => (by cases healthy), ?_⟩
    rintro ⟨isPrefix, isLong, _⟩
    rcases malformed with notPrefix | short
    · rw [isPrefix] at notPrefix
      cases notPrefix
    · exact (isLong short).elim
  · rename_i wellFormed
    rw [not_or, Bool.not_eq_false] at wellFormed
    rw [beq_iff_eq]
    exact ⟨fun same => ⟨wellFormed.1, wellFormed.2, same⟩, fun healthy => healthy.2.2⟩

/-- The beginning of the reply that was read decides: it is the whole reply, or has the first
line in it, or is longer than what is looked at. -/
theorem healthy_of_read {reply : Feed UInt8} {head : List UInt8}
    (read : reply.take head.length = head)
    (enough : reply = .ends head ∨ findMark crlf head ≠ none ∨ 1024 ≤ head.length) :
    (checkStatus head).healthy = true ↔ Healthy reply := by
  have same : ∀ position < 12, (firstLine crlf head)[position]? = reply.line? crlf position := by
    intro position within
    have taken := @line?_take _ _ crlf reply head.length position
    rw [read] at taken
    refine taken ?_
    rcases enough with ended | found | long
    · exact Or.inl ended
    · exact Or.inr (Or.inl (Option.ne_none_iff_exists'.mp found))
    · exact Or.inr (Or.inr (by omega))
  rw [checkStatus_healthy_iff]
  constructor
  · rintro ⟨starts, long, ok⟩
    refine ⟨fun position within => ?_, ?_, fun position within => ?_⟩
    · rw [← same position (by omega), starts position within]
    · rwa [← same 11 (by decide)]
    · rw [← same (9 + position) (by omega), ok position within]
  · rintro ⟨starts, long, ok⟩
    refine ⟨fun position within => ?_, ?_, fun position within => ?_⟩
    · rw [same position (by omega), starts position within]
    · rwa [same 11 (by decide)]
    · rw [same (9 + position) (by omega), ok position within]

/-! ## Turns before the deadline -/

/-- The wait ends before the deadline or is interrupted, and `recv` does not fail. -/
def Turn.InTime (turn : Turn) : Prop :=
  0 < turn.left ∧
    (turn.poll = .interrupted ∨ turn.poll = .ready true ∧ ∀ error, turn.received ≠ .failed error)

/-- `recv` brings bytes of the reply, or that there are no more. -/
def Turn.Brings (turn : Turn) : Prop :=
  turn.poll = .ready true ∧ ∃ more, turn.received = .bytes more

namespace Probe

variable {probe : Probe}

/-- From a turn on the reply is delivered in time, as long as it is read, and whatever
comes in between, more of it comes. -/
structure Delivers (probe : Probe) (start : Nat) : Prop where
  inTime : ∀ turn ≥ start, ∀ head, probe.phaseAt turn = .reading head →
    (probe.turns turn).InTime
  goesOn : ∀ turn, ∃ later ≥ turn, (probe.turns later).Brings

/-- The probe is reading the reply from its beginning, or has come to the right result. -/
def ReadSoFar (probe : Probe) : ProbePhase → Prop
  | .reading head =>
      probe.reply.take head.length = head ∧ findMark crlf head = none ∧ head.length < 1024
  | .done result => result.healthy = true ↔ Healthy probe.reply
  | _ => False

theorem readSoFar_readOn {head : List UInt8} (read : probe.reply.take head.length = head) :
    probe.ReadSoFar (readOn head) := by
  unfold readOn
  by_cases goesOn : findMark crlf head = none ∧ head.length < 1024
  · rw [if_pos goesOn]
    exact ⟨read, goesOn⟩
  · rw [if_neg goesOn]
    refine healthy_of_read read (Or.inr ?_)
    by_cases noMark : findMark crlf head = none
    · exact Or.inr (Nat.le_of_not_lt fun short => goesOn ⟨noMark, short⟩)
    · exact Or.inl noMark

/-- A turn in time leaves what was read, adds a piece to it, or finds that nothing more
comes. -/
theorem step_reading {turn : Turn} {head : List UInt8} (inTime : turn.InTime) :
    probe.step turn (.reading head) = .reading head ∧ ¬turn.Brings ∨
      ∃ more : Fin 256, probe.step turn (.reading head) =
        if probe.reply.slice head.length (more.val + 1) = [] then .done (checkStatus head)
        else readOn (head ++ probe.reply.slice head.length (more.val + 1)) := by
  obtain ⟨early, interrupted | ⟨ready, works⟩⟩ := inTime
  · left
    refine ⟨?_, fun brings => ?_⟩
    · simp [step, Turn.waitFor, remainingMs, early, early.ne', interrupted]
    · have ready := brings.1
      rw [interrupted] at ready
      cases ready
  · have waited : turn.waitFor = some true := by
      simp [Turn.waitFor, remainingMs, early, early.ne', ready]
    simp only [step, waited]
    cases received : turn.received with
    | retry =>
        refine Or.inl ⟨rfl, fun brings => ?_⟩
        obtain ⟨_, more, isBytes⟩ := brings
        rw [received] at isBytes
        cases isBytes
    | failed error => exact (works error received).elim
    | bytes more => exact Or.inr ⟨more, rfl⟩

/-- A turn in time keeps what was read. -/
theorem readSoFar_step {turn : Turn} {head : List UInt8} (inTime : turn.InTime)
    (read : probe.ReadSoFar (.reading head)) :
    probe.ReadSoFar (probe.step turn (.reading head)) := by
  rcases @step_reading probe turn head inTime with ⟨same, _⟩ | ⟨more, stepped⟩
  · rw [same]
    exact read
  · rw [stepped]
    by_cases nothing : probe.reply.slice head.length (more.val + 1) = []
    · have ended := Feed.eq_ends_of_slice nothing
      rw [read.1] at ended
      rw [if_pos nothing]
      exact healthy_of_read read.1 (Or.inl ended)
    · have longer : head ++ probe.reply.slice head.length (more.val + 1) =
          probe.reply.take (head.length + (more.val + 1)) := by
        rw [← Feed.take_append_slice, read.1]
      rw [if_neg nothing, longer]
      exact readSoFar_readOn (Feed.take_length_take _ _)

/-- A turn in time loses nothing, and brings the reading further if `recv` brings bytes. -/
theorem step_progress {turn : Turn} {head : List UInt8} (inTime : turn.InTime) :
    (∃ result, probe.step turn (.reading head) = .done result) ∨
      ∃ longer, probe.step turn (.reading head) = .reading longer ∧
        head.length ≤ longer.length ∧ (turn.Brings → head.length < longer.length) := by
  rcases @step_reading probe turn head inTime with ⟨same, nothing⟩ | ⟨more, stepped⟩
  · exact Or.inr ⟨head, same, Nat.le_refl _, fun brings => (nothing brings).elim⟩
  · rw [stepped]
    by_cases nothing : probe.reply.slice head.length (more.val + 1) = []
    · rw [if_pos nothing]
      exact Or.inl ⟨_, rfl⟩
    · have longer : head.length <
          (head ++ probe.reply.slice head.length (more.val + 1)).length := by
        rw [List.length_append]
        have := List.length_pos_of_ne_nil nothing
        omega
      rw [if_neg nothing, readOn]
      split
      · exact Or.inr ⟨_, rfl, longer.le, fun _ => longer⟩
      · exact Or.inl ⟨_, rfl⟩

/-! ## Runs of the probe -/

section Delivered

variable {start : Nat}

theorem readSoFar_run (delivers : probe.Delivers start)
    (started : probe.phaseAt start = .reading []) (turns : Nat) :
    probe.ReadSoFar (probe.phaseAt (start + turns)) := by
  induction turns with
  | zero =>
      rw [Nat.add_zero, started]
      exact ⟨by cases probe.reply <;> rfl, by decide, by decide⟩
  | succ turns ih =>
      rw [Nat.add_succ, phaseAt]
      cases phaseEq : probe.phaseAt (start + turns) with
      | connecting =>
          rw [phaseEq] at ih
          exact ih.elim
      | sending sent =>
          rw [phaseEq] at ih
          exact ih.elim
      | reading head =>
          rw [phaseEq] at ih
          exact readSoFar_step (delivers.inTime _ (Nat.le_add_right start turns) head phaseEq) ih
      | done result =>
          rw [phaseEq] at ih
          exact ih

/-- Until the probe is done, what was read stays. -/
theorem read_stays (delivers : probe.Delivers start) {turn : Nat} (after : start ≤ turn)
    {head : List UInt8} (reading : probe.phaseAt turn = .reading head) (turns : Nat) :
    (∃ result, probe.phaseAt (turn + turns) = .done result) ∨
      ∃ longer, probe.phaseAt (turn + turns) = .reading longer ∧
        head.length ≤ longer.length := by
  induction turns with
  | zero => exact Or.inr ⟨head, reading, Nat.le_refl _⟩
  | succ turns ih =>
      rw [Nat.add_succ, phaseAt]
      rcases ih with ⟨result, doneEq⟩ | ⟨longer, readingEq, grown⟩
      · rw [doneEq]
        exact Or.inl ⟨result, rfl⟩
      · rw [readingEq]
        rcases @step_progress probe _ longer (delivers.inTime _ (by omega) longer readingEq) with
          done | ⟨further, stepped, more, _⟩
        · exact Or.inl done
        · exact Or.inr ⟨further, stepped, grown.trans more⟩

/-- The probe is done, or has read as much as one likes. -/
theorem reads_on (delivers : probe.Delivers start)
    (started : probe.phaseAt start = .reading []) (size : Nat) :
    ∃ turn ≥ start, (∃ result, probe.phaseAt turn = .done result) ∨
      ∃ head, probe.phaseAt turn = .reading head ∧ size ≤ head.length := by
  induction size with
  | zero => exact ⟨start, Nat.le_refl _, Or.inr ⟨[], started, Nat.le_refl _⟩⟩
  | succ size ih =>
      obtain ⟨turn, after, done | ⟨head, reading, enough⟩⟩ := ih
      · exact ⟨turn, after, Or.inl done⟩
      · obtain ⟨later, afterTurn, brings⟩ := delivers.goesOn turn
        obtain ⟨turns, rfl⟩ := Nat.exists_eq_add_of_le afterTurn
        rcases read_stays delivers after reading turns with done | ⟨longer, readingEq, grown⟩
        · exact ⟨turn + turns, by omega, Or.inl done⟩
        · refine ⟨turn + turns + 1, by omega, ?_⟩
          rw [phaseAt, readingEq]
          rcases @step_progress probe _ longer (delivers.inTime _ (by omega) longer readingEq)
            with done | ⟨further, stepped, _, more⟩
          · exact Or.inl done
          · exact Or.inr ⟨further, stepped, by have := more brings; omega⟩

/-- A reply that is delivered in time is read up to a result. -/
theorem read_ends (delivers : probe.Delivers start)
    (started : probe.phaseAt start = .reading []) :
    ∃ turn result, probe.phaseAt turn = .done result ∧
      (result.healthy = true ↔ Healthy probe.reply) := by
  obtain ⟨turn, after, reached⟩ := reads_on delivers started 1024
  obtain ⟨turns, rfl⟩ := Nat.exists_eq_add_of_le after
  have read := readSoFar_run delivers started turns
  rcases reached with ⟨result, doneEq⟩ | ⟨head, readingEq, enough⟩
  · rw [doneEq] at read
    exact ⟨_, result, doneEq, read⟩
  · rw [readingEq] at read
    have short := read.2.2
    omega

end Delivered

/-- At a wait after the deadline the probe ends. -/
theorem ends_when_late {turn : Nat} (late : (probe.turns turn).left ≤ 0) :
    ∃ result, probe.phaseAt (turn + 1) = .done result := by
  have waited : (probe.turns turn).waitFor = some false := by
    simp [Turn.waitFor, remainingMs, Int.not_lt.mpr late]
  rw [phaseAt]
  cases probe.phaseAt turn with
  | connecting => exact ⟨_, by rw [step, waited]⟩
  | sending sent => exact ⟨_, by rw [step, waited]⟩
  | reading head => exact ⟨_, by rw [step, waited]⟩
  | done result => exact ⟨result, rfl⟩

end Probe

/-- However the reply is cut into pieces, the probe comes to a result, and it is healthy
exactly if the first line of the reply says so.  And no probe goes on after its deadline,
whatever its calls return. -/
theorem probe_verdict (probe : Probe) :
    (∀ start, probe.phaseAt start = .reading [] → probe.Delivers start →
      ∃ turn result, probe.phaseAt turn = .done result ∧
        (result.healthy = true ↔ Healthy probe.reply)) ∧
      ∀ turn, (probe.turns turn).left ≤ 0 →
        ∃ result, probe.phaseAt (turn + 1) = .done result :=
  ⟨fun _ started delivers => Probe.read_ends delivers started, fun _ => Probe.ends_when_late⟩

/-- A server that answers, byte by byte, with an interruption before each. -/
def sampleProbe : Probe where
  host := "127.0.0.1"
  path := "/health"
  opening := .connected
  reply := .ends (bytesOf "HTTP/1.1 200 OK\r\n\r\n")
  turns
    | 0 => { left := 2000, poll := .ready true, sent := .bytes 200 }
    | turn + 1 =>
        if turn % 2 = 0 then { left := 1999, poll := .interrupted }
        else { left := 1999, poll := .ready true, received := .bytes 0 }

theorem probe_verdict_ok :
    (∃ turn result, sampleProbe.phaseAt turn = .done result ∧ result.healthy = true) ∧
      ∃ result, ({ sampleProbe with turns := fun _ => { left := 0, poll := .timedOut } } :
        Probe).phaseAt 1 = .done result := by
  have delivers : sampleProbe.Delivers 1 := by
    constructor
    · rintro (_ | turn) after head _
      · cases after
      · simp only [sampleProbe]
        split
        · exact ⟨by decide, Or.inl rfl⟩
        · exact ⟨by decide, Or.inr ⟨rfl, fun _ failed => by cases failed⟩⟩
    · intro turn
      have odd : ¬(2 * turn + 1) % 2 = 0 := by omega
      refine ⟨2 * turn + 1 + 1, by omega, ?_⟩
      simp only [sampleProbe, if_neg odd]
      exact ⟨rfl, _, rfl⟩
  have healthy : Healthy sampleProbe.reply := ⟨by decide, by decide, by decide⟩
  obtain ⟨turn, result, doneEq, verdict⟩ := (probe_verdict sampleProbe).1 1 rfl delivers
  exact ⟨⟨turn, result, doneEq, verdict.mpr healthy⟩, (probe_verdict _).2 0 (Int.le_refl 0)⟩

end Corvus.Gateway
