import Corvus.Api.Response
import Corvus.Gateway.RateLimits
import Corvus.Trim
import Mathlib.Algebra.Order.BigOperators.Group.List

/-!
# Which bucket a request counts against

A request from a trusted proxy counts against the first element of the
`X-Forwarded-For` header, any other one against the address of its peer.  A proxy
appends the address it sees to what the client has sent, so the first element is
the client's to choose.
-/

namespace Corvus.Gateway

open Corvus.Api Corvus.Trim

/-- The characters of `" \t"`. -/
def isBlank (char : Char) : Bool :=
  char == ' ' || char == '\t'

/-- The entry without the blanks around it, unless there is nothing else. -/
def trimmedEntry (entry : List Char) : Option String :=
  match firstNot isBlank entry, lastNot isBlank entry with
  | some first, some last => some (String.ofList (slice entry first (last - first + 1)))
  | _, _ => none

/-- The loop of `trusted_proxies`, from a position of the value on. -/
def proxiesFrom (value : List Char) (start : Nat) : List String :=
  if start ≤ value.length then
    match (value.drop start).findIdx? (· == ',') with
    | none => (trimmedEntry (slice value start (value.length - start))).toList
    | some offset =>
        (trimmedEntry (slice value start offset)).toList ++
          proxiesFrom value (start + offset + 1)
  else
    []
  termination_by value.length + 1 - start

/-- `trusted_proxies`, for the value of `CORVUS_TRUSTED_PROXIES`. -/
def trustedProxies (raw : Option String) : List String :=
  match raw with
  | none => []
  | some value => if value = "" then [] else proxiesFrom value.toList 0

/-- `client_key_from_request`, for the address of the peer and the header. -/
def clientKeyFromRequest (proxies : List String) (peer xff : String) : String :=
  if peer ∉ proxies then
    peer
  else if xff = "" then
    peer
  else
    let ip := match xff.toList.findIdx? (· == ',') with
      | some comma => slice xff.toList 0 comma
      | none => xff.toList
    match firstNot isBlank ip, lastNot isBlank ip with
    | some start, some stop => String.ofList (slice ip start (stop - start + 1))
    | _, _ => peer

/-- A request as the rate limit sees it. -/
structure Arrival where
  path : String
  peer : String
  forwardedFor : String
  info : ResponseMeta

/-- `std::to_string(static_cast<int>(seconds))`; infinity has no such text. -/
def retryHeader : WithTop ℤ → String
  | none => ""
  | some seconds => toString seconds

/-- The answer to a request the limiter refuses. -/
def tooManyRequests (limiter : RateLimiter) (later : ℚ) (key : String) (info : ResponseMeta) :
    Response :=
  (((respondError .tooManyRequests "Rate limit exceeded. Try again later." info).addHeader
    "X-RateLimit-Limit" (toString limiter.config.maxTokens)).addHeader
    "X-RateLimit-Remaining" "0").addHeader "Retry-After"
      (retryHeader (limiter.retryAfter later key))

/-- `register_rate_limit_middleware`: answer a request, or let it through.  The clock is
read in `allow` and again in `retry_after`. -/
def rateLimitAdvice (proxies : List String) (limiter : RateLimiter) (now later : ℚ)
    (arrival : Arrival) : Option Response × RateLimiter :=
  if arrival.path = "/health" ∨ arrival.path = "/ready" then
    (none, limiter)
  else
    let key := clientKeyFromRequest proxies arrival.peer arrival.forwardedFor
    let (granted, after) := limiter.allow now key
    if granted then
      (none, after)
    else
      (some (tooManyRequests after later key arrival.info), after)

/-! ## The first element -/

/-- What stands before the first comma, without the blanks around it. -/
def firstElement (header : String) : List Char :=
  trim isBlank (header.toList.takeWhile fun char => char != ',')

/-- Whom the first element names: a client, or the peer if it is blank. -/
def firstName (peer header : String) : String :=
  if firstElement header = [] then peer else String.ofList (firstElement header)

/-- The header a proxy forwards: what the client sent, and the address it sees. -/
def forwarded (sent address : String) : String :=
  if sent = "" then address else sent ++ ", " ++ address

theorem takeWhile_eq_slice (text : List Char) :
    (match text.findIdx? (· == ',') with
      | some comma => slice text 0 comma
      | none => text) = text.takeWhile fun char => char != ',' := by
  induction text with
  | nil => rfl
  | cons char rest ih =>
      rw [List.findIdx?_cons, List.takeWhile_cons, bne, ← ih]
      cases char == ',' with
      | true => rfl
      | false => cases rest.findIdx? (· == ',') <;> rfl

/-- Behind a trusted proxy the key is the name of the first element. -/
theorem clientKey_of_trusted {proxies : List String} {peer : String}
    (trusted : peer ∈ proxies) (xff : String) :
    clientKeyFromRequest proxies peer xff = firstName peer xff := by
  unfold clientKeyFromRequest
  rw [if_neg (not_not_intro trusted)]
  split
  · rename_i empty
    rw [empty]
    rfl
  · simp only [takeWhile_eq_slice]
    rw [firstName, firstElement]
    cases first : firstNot isBlank (xff.toList.takeWhile fun char => char != ',') with
    | none => rw [if_pos (firstNot_eq_none_iff.mp first)]
    | some start =>
        cases last : lastNot isBlank (xff.toList.takeWhile fun char => char != ',') with
        | none => rw [if_pos (lastNot_eq_none_iff.mp last)]
        | some stop =>
            have named : trim isBlank (xff.toList.takeWhile fun char => char != ',') ≠ [] := by
              intro blank
              rw [firstNot_eq_none_iff.mpr blank] at first
              cases first
            rw [if_neg named]
            exact congrArg String.ofList (slice_eq_trim first last)

/-- What the proxy appends is not in the first element. -/
theorem firstElement_forwarded {sent : String} (nonempty : sent ≠ "") (address : String) :
    firstElement (forwarded sent address) = firstElement sent := by
  have comma : ∀ text : List Char,
      (text ++ ',' :: ' ' :: address.toList).takeWhile (fun char => char != ',') =
        text.takeWhile fun char => char != ',' := by
    intro text
    induction text with
    | nil => rfl
    | cons char rest ih => simp only [List.cons_append, List.takeWhile_cons, ih]
  rw [firstElement, firstElement, forwarded, if_neg nonempty, String.toList_append,
    String.toList_append, List.append_assoc]
  exact congrArg (trim isBlank) (comma sent.toList)

/-- The header of the request begins with what the client sends, or with its address if it
sends nothing. -/
def leading (sent address : String) : String :=
  if sent = "" then address else sent

/-- Behind a trusted proxy, two headers lead to the same key exactly if their first elements
name the same client. -/
theorem same_key_iff_same_name {proxies : List String} {peer : String}
    (trusted : peer ∈ proxies) (address first second : String) :
    clientKeyFromRequest proxies peer (forwarded first address) =
        clientKeyFromRequest proxies peer (forwarded second address) ↔
      firstName peer (leading first address) = firstName peer (leading second address) := by
  have named : ∀ sent, firstName peer (forwarded sent address) =
      firstName peer (leading sent address) := by
    intro sent
    by_cases empty : sent = ""
    · rw [forwarded, leading, if_pos empty, if_pos empty]
    · rw [firstName, firstName, firstElement_forwarded empty, leading, if_neg empty]
  rw [clientKey_of_trusted trusted, clientKey_of_trusted trusted, named, named]

/-- A text a client can make its key: not empty, without a comma, and not blank at its
ends. -/
structure Nameable (name : String) : Prop where
  nonempty : name ≠ ""
  noComma : ',' ∉ name.toList
  front : ∀ char, name.toList.head? = some char → isBlank char = false
  back : ∀ char, name.toList.getLast? = some char → isBlank char = false

/-- A client behind a trusted proxy chooses its key. -/
theorem clientKey_chosen {proxies : List String} {peer name : String}
    (trusted : peer ∈ proxies) (nameable : Nameable name) (address : String) :
    clientKeyFromRequest proxies peer (forwarded name address) = name := by
  have whole : name.toList.takeWhile (fun char => char != ',') = name.toList := by
    rw [List.takeWhile_eq_self_iff]
    intro char member
    rw [bne_iff_ne]
    rintro rfl
    exact nameable.noComma member
  have element : firstElement name = name.toList := by
    rw [firstElement, whole]
    exact trim_eq_self nameable.front nameable.back
  have some_ : name.toList ≠ [] := fun empty =>
    nameable.nonempty (String.toList_inj.mp empty)
  rw [clientKey_of_trusted trusted, firstName, firstElement_forwarded nameable.nonempty,
    element, if_neg some_, String.ofList_toList]

/-- So clients can have as many buckets as they can think of names. -/
theorem keys_differ {proxies : List String} {peer first second : String}
    (trusted : peer ∈ proxies) (firstNameable : Nameable first) (secondNameable : Nameable second)
    (different : first ≠ second) (address : String) :
    clientKeyFromRequest proxies peer (forwarded first address) ≠
      clientKeyFromRequest proxies peer (forwarded second address) := by
  rw [clientKey_chosen trusted firstNameable, clientKey_chosen trusted secondNameable]
  exact different

/-- A client that has no bucket is let through. -/
theorem allow_of_absent {limiter : RateLimiter} {key : String} (now : ℚ)
    (someTokens : 1 ≤ limiter.config.maxTokens) (absent : limiter.buckets.lookup key = none) :
    (limiter.allow now key).1 = true := by
  have stillAbsent : (limiter.maybeCleanup now).buckets.lookup key = none := by
    unfold RateLimiter.maybeCleanup
    split
    · exact absent
    · simp only
      rw [lookup_filter _ limiter.keys_nodup, absent]
      rfl
  have enough : (1 : ℚ) ≤ limiter.config.maxTokens := by exact_mod_cast someTokens
  simp only [RateLimiter.allow, RateLimiter.allowUncleaned, RateLimiter.bucketFor, stillAbsent,
    RateLimiter.config_maybeCleanup]
  rw [if_pos enough]

/-- Some name is not a key of the limiter. -/
theorem exists_new_name (limiter : RateLimiter) :
    ∃ name, Nameable name ∧ limiter.buckets.lookup name = none := by
  let lengths := limiter.buckets.map fun entry => entry.1.toList.length
  let name := String.ofList (List.replicate (lengths.sum + 1) 'x')
  have chars : name.toList = List.replicate (lengths.sum + 1) 'x' := String.toList_ofList
  refine ⟨name, ⟨?_, ?_, ?_, ?_⟩, ?_⟩
  · intro empty
    rw [empty] at chars
    cases chars
  · rw [chars]
    intro member
    cases List.eq_of_mem_replicate member
  · intro char first
    rw [chars, List.replicate_succ] at first
    cases first
    rfl
  · intro char last
    rw [chars] at last
    rw [List.eq_of_mem_replicate (List.mem_of_getLast? last)]
    rfl
  · rw [List.lookup_eq_none_iff]
    intro entry member
    rw [bne_iff_ne]
    intro same
    have bounded : entry.1.toList.length ≤ lengths.sum :=
      List.single_le_sum (by simp) _ (List.mem_map_of_mem member)
    rw [← same, chars, List.length_replicate] at bounded
    omega

/-- Behind a trusted proxy a client gets any request through, whatever it has used up. -/
theorem exists_header_let_through {proxies : List String} {peer : String}
    (trusted : peer ∈ proxies) (limiter : RateLimiter)
    (someTokens : 1 ≤ limiter.config.maxTokens) (now later : ℚ) (path address : String)
    (info : ResponseMeta) :
    ∃ sent, (rateLimitAdvice proxies limiter now later
      { path, peer, forwardedFor := forwarded sent address, info }).1 = none := by
  obtain ⟨name, nameable, absent⟩ := exists_new_name limiter
  refine ⟨name, ?_⟩
  unfold rateLimitAdvice
  split
  · rfl
  · simp only [clientKey_chosen trusted nameable address]
    rw [if_pos (allow_of_absent now someTokens absent)]

theorem same_key_iff_same_name_blanks :
    clientKeyFromRequest ["10.0.0.1"] "10.0.0.1" (forwarded " 192.0.2.1" "203.0.113.7") =
      clientKeyFromRequest ["10.0.0.1"] "10.0.0.1"
        (forwarded "192.0.2.1,192.0.2.2" "203.0.113.7") :=
  (same_key_iff_same_name (List.mem_singleton.mpr rfl) "203.0.113.7" " 192.0.2.1"
    "192.0.2.1,192.0.2.2").mpr (by decide +kernel)

/-- Behind a trusted proxy the key does not depend on what the client sends. -/
def KeysAreNotChosen : Prop :=
  ∀ (proxies : List String) (peer address first second : String), peer ∈ proxies →
    clientKeyFromRequest proxies peer (forwarded first address) =
      clientKeyFromRequest proxies peer (forwarded second address)

theorem not_keysAreNotChosen : ¬KeysAreNotChosen := by
  intro fixed
  have same := fixed ["10.0.0.1"] "10.0.0.1" "203.0.113.7" "" "192.0.2.1"
    (List.mem_singleton.mpr rfl)
  revert same
  decide +kernel

end Corvus.Gateway
