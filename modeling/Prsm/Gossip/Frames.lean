import Prsm.Foundations.Requests
import Prsm.Gossip.Node
import Prsm.Settlement.Receipt

/-!
# `GossipProtocol`: who is taken for the author of a frame

The handlers as they read an untyped frame.  A claimed origin counts if a key that hashes to
it signed the message; otherwise a live frame is the peer's of the connection, and an entry
of a digest response is put down to the `sender_id` of the frame.
-/

namespace Prsm.Gossip.Frames

open Foundations
open Evm (Bytes)
open Json (field pyEq)
open Settlement (utf8 b64decode)

/-- `sha256(…).hexdigest()`, and the check of an Ed25519 signature by the bytes of the key,
which is false where the key or the signature cannot be read. -/
structure Library where
  sha256Hex : Bytes → String
  ed25519Verify : Bytes → Bytes → Bytes → Bool

structure Config extends Gossip.Config where
  hasLedger : Bool

structure P2PMessage where
  senderId : Json
  payload : Json
  ttl : Json
  nonce : Json

/-- A connection with the identity its handshake authenticated. -/
structure PeerConnection where
  peerId : String
  peerId_ne : peerId ≠ ""

/-! ## The origin -/

section Origin

variable (lib : Library)

def gossipOriginSigningBytes (subtype data origin originTime nonce : Json) : Bytes :=
  utf8 (Json.dumps (.object
    [("subtype", subtype), ("data", data), ("origin", origin), ("origin_time", originTime),
      ("nonce", nonce)]))

def nodeIdOf (key : Bytes) : String :=
  ((lib.sha256Hex key).take 32).toString

/-- `base64.b64decode` of a value, which raises unless it is a string that can be decoded. -/
def decoded : Json → Option Bytes
  | .str text => b64decode text
  | _ => none

def verifySignature (publicKey : Json) (data : Bytes) (signature : Json) : Bool :=
  match decoded publicKey, decoded signature with
  | some key, some sig => lib.ed25519Verify key data sig
  | _, _ => false

/-- `_authenticate_origin`, of the fields of a payload. -/
def authenticateOrigin (payload : List (String × Json)) (nonce fallbackSenderId : Json) :
    Json :=
  let claimed := field payload "origin" .null
  let pubkey := field payload "origin_pubkey" (.str "")
  let sig := field payload "origin_sig" (.str "")
  if !(claimed.truthy && pubkey.truthy && sig.truthy) then fallbackSenderId
  else
    match decoded pubkey with
    | none => fallbackSenderId
    | some key =>
        if !pyEq (.str (nodeIdOf lib key)) claimed then fallbackSenderId
        else
          let signed := gossipOriginSigningBytes (field payload "subtype" (.str ""))
            (field payload "data" (.object [])) claimed (field payload "origin_time" .null) nonce
          if verifySignature lib pubkey signed sig then claimed else fallbackSenderId

def attestationFromPayload (payload : List (String × Json)) : Option Json :=
  let pubkey := field payload "origin_pubkey" (.str "")
  let sig := field payload "origin_sig" (.str "")
  if !(pubkey.truthy && sig.truthy) then none
  else
    some (.object [("origin_time", field payload "origin_time" .null),
      ("origin_pubkey", pubkey), ("origin_sig", sig)])

/-- The payload that a caught-up message is verified as; its attestation has no fields to
read where it is neither a dictionary nor empty. -/
def verifyPayload (subtype data claimedOrigin attestation : Json) :
    Option (List (String × Json)) :=
  match if attestation.truthy then attestation else .object [] with
  | .object att =>
      some [("subtype", subtype), ("data", data), ("origin", claimedOrigin),
        ("origin_time", field att "origin_time" .null),
        ("origin_pubkey", field att "origin_pubkey" (.str "")),
        ("origin_sig", field att "origin_sig" (.str ""))]
  | _ => none

def authenticateCatchupOrigin (subtype data claimedOrigin attestation nonce fallbackSenderId :
    Json) : Option Json :=
  (verifyPayload subtype data claimedOrigin attestation).map fun payload =>
    authenticateOrigin lib payload nonce fallbackSenderId

end Origin

/-! ## The handlers -/

/-- The state that the handlers read before their first await. -/
structure Node where
  clock : ℚ
  seen : List (Json × ℚ)
  pendingDigest : Dict String ℚ

/-- A callback is not given the nonce; it is kept here to say which message is delivered. -/
inductive Request
  | callback (index : ℕ) (subtype data origin nonce : Json)
  | logGossip (nonce subtype origin payload ttl : Json) (attestation : Option Json)
  | gossipNonceExists (nonce : Json)
  | forward (message : P2PMessage)
  | answerDigest (message : P2PMessage) (peer : PeerConnection)

@[reducible] def Answer : Request → Type
  | .gossipNonceExists _ => Lookup
  | _ => Unit

inductive PyError
  | attributeError
  | typeError

@[reducible] def Method (α : Type) : Type := Coroutine Node Request Answer PyError α

open Coroutine (ask)

section Handlers

variable (lib : Library) (c : Config)

/-- How many callbacks are subscribed; the subtype must be hashable. -/
def subscribersOf (subtype : Json) : Option ℕ :=
  match subtype with
  | .str s => some (c.subscribers s)
  | other => if other.hashable then some 0 else none

def isReplayedGossip (nonce : Json) : Method Bool := do
  let s ← Coroutine.gets id
  let live := s.seen.dropWhile fun entry => c.window < s.clock - entry.2
  Coroutine.modify fun s => { s with seen := live }
  if !nonce.hashable then throw .typeError
  else if live.any fun entry => pyEq entry.1 nonce then pure true
  else do
    let grown := live ++ [(nonce, s.clock)]
    Coroutine.modify fun s => { s with seen := grown.drop (grown.length - c.cap) }
    pure false

/-- The loop over the callbacks, whose exceptions are caught. -/
def callbacks (subtype data origin nonce : Json) : ℕ → Method Unit
  | 0 => pure ()
  | n + 1 => do
      callbacks subtype data origin nonce n
      ask (Request.callback n subtype data origin nonce)

/-- Whether `subtype not in names`. -/
def noneOf (names : List String) (subtype : Json) : Bool :=
  names.all fun name => !pyEq (.str name) subtype

/-- Whether the number of hops left is above one; `none` where it is not a number. -/
def aboveOne (ttl : Json) : Option Bool :=
  match ttl with
  | .float x => some (match x.value with
      | some q => 1 < q
      | none => x.text = "inf")
  | other => other.number.map fun q => 1 < q

/-- The log keeps everything but heartbeats. -/
def persist (msg : P2PMessage) (payload : List (String × Json)) (subtype data origin : Json) :
    Method Unit := do
  if c.hasLedger && noneOf ["heartbeat"] subtype then
    ask (Request.logGossip msg.nonce subtype origin data msg.ttl
      (attestationFromPayload payload))

/-- The frame goes on with one hop less. -/
def propagate (msg : P2PMessage) : Method Unit := do
  match aboveOne msg.ttl with
  | none => throw .typeError
  | some true => ask (Request.forward msg)
  | some false => pure ()

/-- The part of `_handle_gossip` after the barrier. -/
def handleFresh (msg : P2PMessage) (payload : List (String × Json))
    (subtype data origin : Json) : Method Unit := do
  match subscribersOf c subtype with
  | none => throw .typeError
  | some count => do
      callbacks subtype data origin msg.nonce count
      persist c msg payload subtype data origin
      propagate msg

/-- An entry of a digest response with its authenticated origin. -/
structure EntryView where
  subtype : Json
  payload : Json
  nonce : Json
  claimedOrigin : Json
  attestation : Json
  origin : Json

/-- The fields of an entry, or `none` where reading them raises. -/
def readEntry (senderId : Json) : Json → Option EntryView
  | .object fields => do
      let subtype := field fields "subtype" (.str "")
      let payload := field fields "payload" (.object [])
      let nonce := field fields "nonce" (.str "")
      let attestation := field fields "attestation" .null
      let origin ← authenticateCatchupOrigin lib subtype payload
        (field fields "origin" senderId) attestation nonce senderId
      pure ⟨subtype, payload, nonce, field fields "origin" .null, attestation, origin⟩
  | _ => none

/-- `nonce and await self._is_duplicate(nonce)`. -/
def lookUp (nonce : Json) : Method Bool := do
  if !nonce.truthy || !c.hasLedger then pure false
  else do
    let lookup ← ask (Request.gossipNonceExists nonce)
    pure (isDuplicate (some lookup))

/-- The part of the loop over the messages that hands one on. -/
def deliverEntry (entry : EntryView) (count : ℕ) : Method Unit := do
  callbacks entry.subtype entry.payload entry.origin entry.nonce count
  if c.hasLedger && noneOf notLogged entry.subtype then
    ask (Request.logGossip entry.nonce entry.subtype entry.origin entry.payload (.int 1)
      (if pyEq entry.origin entry.claimedOrigin then some entry.attestation else none))

/-- The body of the loop, whose exceptions are caught. -/
def handleEntry (senderId entry : Json) : Method Unit := do
  match readEntry lib senderId entry with
  | none => pure ()
  | some entry =>
      if !entry.subtype.truthy || !entry.payload.truthy then pure ()
      else do
        let isLogged ← lookUp c entry.nonce
        if isLogged then pure ()
        else
          match subscribersOf c entry.subtype with
          | none => pure ()
          | some count => deliverEntry c entry count

def handleEntries (senderId : Json) : List Json → Method Unit
  | [] => pure ()
  | entry :: rest => do
      handleEntry lib c senderId entry
      handleEntries senderId rest

/-- The messages of a digest response, after the request was found to be pending.  Every path
logs the first characters of the `sender_id`, which raises unless it can be sliced. -/
def handleMessages (senderId data : Json) : Method Unit := do
  match data with
  | .object fields =>
      if !senderId.sliceable then throw .typeError
      else
        match field fields "messages" (.array []) with
        | .array items => handleEntries lib c senderId (items.take maxDigestResponseMessages)
        | _ => pure ()
  | _ => throw .attributeError

def handleDigestResponse (senderId data : Json) (peer : PeerConnection) : Method Unit := do
  let s ← Coroutine.gets id
  Coroutine.modify fun s => { s with pendingDigest := s.pendingDigest.erase peer.peerId }
  match s.pendingDigest.get? peer.peerId with
  | none => pure ()
  | some expiry =>
      if expiry ≤ s.clock then pure ()
      else handleMessages lib c senderId data

def handleGossip (msg : P2PMessage) (peer : PeerConnection) : Method Unit := do
  match msg.payload with
  | .object payload =>
      let subtype := field payload "subtype" (.str "")
      let data := field payload "data" (.object [])
      let origin := authenticateOrigin lib payload msg.nonce (.str peer.peerId)
      if !subtype.truthy then pure ()
      else if pyEq subtype (.str "digest_request") then ask (Request.answerDigest msg peer)
      else if pyEq subtype (.str "digest_response") then
        handleDigestResponse lib c msg.senderId data peer
      else if !msg.nonce.truthy then handleFresh c msg payload subtype data origin
      else do
        let isReplayed ← isReplayedGossip c msg.nonce
        if isReplayed then pure ()
        else handleFresh c msg payload subtype data origin
  | _ => throw .attributeError

end Handlers

end Prsm.Gossip.Frames
