import Prsm.Foundations.Coroutine
import Prsm.Foundations.Dict
import Prsm.Foundations.PyValue

/-!
# `GossipProtocol`: frames and digest responses

A live frame is checked against the nonces seen within a window; an entry of a digest
response is checked against the log in the database.  The subscribers, the network and
the database are requests, and other tasks run at each of them.

`accepted` and `delivered` are no fields of the source: they record which nonces the
barrier let through and which messages were handed to subscribers, the latest first.
-/

namespace Prsm.Gossip

open Foundations

/-- The dedup window and cap, and how many callbacks are subscribed to a subtype. -/
structure Config where
  window : ℚ
  window_pos : 0 < window
  cap : ℕ
  subscribers : String → ℕ

/-- An entry of a digest response.  `origin` is the authenticated one. -/
structure Entry where
  nonce : String
  subtype : String
  payload : PyValue
  origin : String
  claimedOrigin : String
  attestation : Option PyValue

/-- A gossip message.  `origin` is the authenticated one, and `messages` are the entries
in the data of a digest response. -/
structure Frame where
  nonce : String
  subtype : String
  data : PyValue
  origin : String
  ttl : ℕ
  attestation : Option PyValue
  messages : List Entry

/-- A row of `gossip_log`, without its key. -/
structure LogRow where
  subtype : String
  origin : String
  payload : PyValue
  ttl : ℕ
  attestation : Option PyValue
  receivedAt : ℚ

/-- What the lookup of a nonce comes to. -/
inductive Lookup
  | raised
  | answered (isLogged : Bool)
  deriving DecidableEq

/-- How a message came to be delivered: a caught-up entry with its lookup, if its nonce
was looked up. -/
inductive Path
  | live
  | catchUp (lookup : Option Lookup)
  deriving DecidableEq

structure Delivery where
  nonce : String
  subtype : String
  path : Path
  time : ℚ

structure Node where
  clock : ℚ
  seen : List (String × ℚ)
  pendingDigest : Dict String ℚ
  log : Dict String LogRow
  accepted : List (String × ℚ)
  delivered : List Delivery

inductive Request
  | callback (subtype : String) (index : ℕ) (data : PyValue) (origin : String)
  | logGossip (nonce subtype origin : String) (payload : PyValue) (ttl : ℕ)
      (attestation : Option PyValue)
  | gossipNonceExists (nonce : String)
  | forward (frame : Frame)
  | answerDigest (frame : Frame) (peer : String)
  | sendDigest (peer : String)
  | sleep (seconds : {d : ℚ // 0 ≤ d})

@[reducible] def Answer : Request → Type
  | .gossipNonceExists _ => Lookup
  | _ => Unit

@[reducible] def Method (α : Type) : Type := Coroutine Node Request Answer Empty α

open Coroutine (ask)

section Barrier

variable (c : Config)

/-- The loop that drops the oldest nonces while they are out of the window. -/
def pruned (now : ℚ) (seen : List (String × ℚ)) : List (String × ℚ) :=
  seen.dropWhile fun entry => c.window < now - entry.2

/-- The loop that drops the oldest nonces beyond the cap. -/
def capped (seen : List (String × ℚ)) : List (String × ℚ) :=
  seen.drop (seen.length - c.cap)

/-- Whether the nonce is among those of the window. -/
def Node.isSeen (s : Node) (nonce : String) : Bool :=
  ((pruned c s.clock s.seen).map Prod.fst).contains nonce

def Node.prune (s : Node) : Node :=
  { s with seen := pruned c s.clock s.seen }

def Node.accept (s : Node) (nonce : String) : Node :=
  { s with
    seen := capped c (pruned c s.clock s.seen ++ [(nonce, s.clock)])
    accepted := (nonce, s.clock) :: s.accepted }

def isReplayedGossip (nonce : String) : Method Bool := do
  if ← Coroutine.gets fun s => s.isSeen c nonce then do
    Coroutine.modify fun s => s.prune c
    pure true
  else do
    Coroutine.modify fun s => s.accept c nonce
    pure false

end Barrier

/-! ## Delivery -/

def Node.record (s : Node) (nonce subtype : String) (path : Path) : Node :=
  { s with delivered := ⟨nonce, subtype, path, s.clock⟩ :: s.delivered }

/-- The loop over the callbacks, whose exceptions are caught. -/
def callbacks (subtype : String) (data : PyValue) (origin : String) : ℕ → Method Unit
  | 0 => pure ()
  | n + 1 => do
      callbacks subtype data origin n
      ask (Request.callback subtype n data origin)

def deliver (c : Config) (nonce subtype : String) (data : PyValue) (origin : String)
    (path : Path) : Method Unit := do
  Coroutine.modify fun s => s.record nonce subtype path
  callbacks subtype data origin (c.subscribers subtype)

section Handlers

variable (c : Config)

/-- The log keeps everything but heartbeats. -/
def persist (frame : Frame) : Method Unit := do
  if frame.subtype ≠ "heartbeat" then
    ask (Request.logGossip frame.nonce frame.subtype frame.origin frame.data frame.ttl
      frame.attestation)

def propagate (frame : Frame) : Method Unit := do
  if 1 < frame.ttl then
    ask (Request.forward { frame with ttl := frame.ttl - 1 })

/-- The part of `_handle_gossip` after the barrier. -/
def handleFresh (frame : Frame) : Method Unit := do
  deliver c frame.nonce frame.subtype frame.data frame.origin .live
  persist frame
  propagate frame

/-- `_is_duplicate`: a lookup that raises counts as no. -/
def isDuplicate : Option Lookup → Bool
  | some (.answered isLogged) => isLogged
  | _ => false

def lookUp (nonce : String) : Method (Option Lookup) := do
  if nonce = "" then
    pure none
  else do
    let lookup ← ask (Request.gossipNonceExists nonce)
    pure (some lookup)

def notLogged : List String := ["heartbeat", "digest_request", "digest_response"]

/-- The body of the loop over the messages of a digest response. -/
def handleEntry (entry : Entry) : Method Unit := do
  if entry.subtype = "" || !entry.payload.truthy then
    pure ()
  else do
    let lookup ← lookUp entry.nonce
    if isDuplicate lookup then
      pure ()
    else do
      deliver c entry.nonce entry.subtype entry.payload entry.origin (.catchUp lookup)
      if entry.subtype ∉ notLogged then
        ask (Request.logGossip entry.nonce entry.subtype entry.origin entry.payload 1
          (if entry.origin = entry.claimedOrigin then entry.attestation else none))

def handleEntries : List Entry → Method Unit
  | [] => pure ()
  | entry :: rest => do
      handleEntry c entry
      handleEntries rest

def maxDigestResponseMessages : ℕ := 200

def handleDigestResponse (frame : Frame) (peer : String) : Method Unit := do
  let expiry ← Coroutine.gets fun s => s.pendingDigest.get? peer
  Coroutine.modify fun s => { s with pendingDigest := s.pendingDigest.erase peer }
  let now ← Coroutine.gets Node.clock
  match expiry with
  | none => pure ()
  | some expiry =>
      if expiry ≤ now then
        pure ()
      else
        handleEntries c (frame.messages.take maxDigestResponseMessages)

def handleGossip (frame : Frame) (peer : String) : Method Unit := do
  if frame.subtype = "" then
    pure ()
  else if frame.subtype = "digest_request" then
    ask (Request.answerDigest frame peer)
  else if frame.subtype = "digest_response" then
    handleDigestResponse c frame peer
  else if frame.nonce = "" then
    handleFresh c frame
  else if ← isReplayedGossip c frame.nonce then
    pure ()
  else
    handleFresh c frame

def digestRequestTtl : ℚ := 300

def requestDigest (peer : String) : Method Unit := do
  ask (Request.sendDigest peer)
  let now ← Coroutine.gets Node.clock
  Coroutine.modify fun s => { s with
    pendingDigest := (Dict.ofEntries
      (s.pendingDigest.entries.filter fun p => now < p.2)).set peer (now + digestRequestTtl) }

end Handlers

/-! ## The node among its peers -/

/-- A call of the node, or time that passes. -/
inductive Call
  | gossip (frame : Frame) (peer : String)
  | requestDigest (peer : String)
  | wait (seconds : {d : ℚ // 0 ≤ d})

/-- The answers: `raises` is whether a lookup fails. -/
def serve (raises : Bool) (s : Node) : (r : Request) → Option (Answer r × Node)
  | .logGossip nonce subtype origin payload ttl attestation =>
      some ((), { s with
        log := match s.log.get? nonce with
          | some _ => s.log
          | none => s.log.set nonce ⟨subtype, origin, payload, ttl, attestation, s.clock⟩ })
  | .gossipNonceExists nonce =>
      some (if raises then .raised else .answered (s.log.get? nonce).isSome, s)
  | .sleep seconds => some ((), { s with clock := s.clock + seconds })
  | .callback _ _ _ _ => some ((), s)
  | .forward _ => some ((), s)
  | .answerDigest _ _ => some ((), s)
  | .sendDigest _ => some ((), s)

def program (c : Config) : Program Node Request Answer Empty Unit Call Bool where
  body := fun _ call =>
    match call with
    | .gossip frame peer => handleGossip c frame peer
    | .requestDigest peer => requestDigest peer
    | .wait seconds => ask (Request.sleep seconds)
  serve := fun _ raises s r => serve raises s r
  restart := fun _ => none

@[reducible] def NodePool : Type := Pool Node Request Answer Empty Unit Call

/-- The node before any message, with the log of earlier runs. -/
def start (log : Dict String LogRow) (clock : ℚ) : NodePool :=
  ⟨⟨clock, [], ∅, log, [], []⟩, []⟩

end Prsm.Gossip
