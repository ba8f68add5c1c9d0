import Prsm.Gossip.Frames

/-!
# Authenticated origins

Whatever a live frame holds, its origin is the peer of the connection or attested.  An entry
of a digest response without a valid attestation is put down to the `sender_id` of the
frame, which the transport does not bind to the peer for gossip.
-/

namespace Prsm
namespace Foundations
namespace Json

theorem eq_str_of_pyEq {s : String} {x : Json} (h : pyEq (.str s) x = true) : x = .str s := by
  cases x with
  | str t =>
      have hSame : s = t := by simpa [pyEq] using h
      rw [hSame]
  | _ => simp [pyEq] at h

theorem eq_str_of_pyEq_right {s : String} {x : Json} (h : pyEq x (.str s) = true) :
    x = .str s := by
  cases x with
  | str t =>
      have hSame : t = s := by simpa [pyEq] using h
      rw [hSame]
  | float x => cases hValue : x.value <;> simp [pyEq, hValue, number] at h
  | _ => simp [pyEq, number] at h

end Json
end Foundations

namespace Gossip
namespace Frames

open Foundations
open Evm (Bytes)
open Json (field pyEq)

/-- A message that is handed on, with its origin. -/
structure Attribution where
  subtype : Json
  data : Json
  origin : Json
  nonce : Json

/-- What a request hands to a subscriber or to the log. -/
def Request.attribution : Request → Option Attribution
  | .callback _ subtype data origin nonce => some ⟨subtype, data, origin, nonce⟩
  | .logGossip nonce subtype origin payload _ _ => some ⟨subtype, payload, origin, nonce⟩
  | _ => none

/-- A key that hashes to the origin signed exactly this message. -/
def SignedByOrigin (lib : Library) (signed : Bytes → Bytes → Prop) (a : Attribution) : Prop :=
  ∃ key originTime, a.origin = .str (nodeIdOf lib key) ∧
    signed key (gossipOriginSigningBytes a.subtype a.data a.origin originTime a.nonce)

/-- The origin is the peer of the connection, or signed the message. -/
def Genuine (lib : Library) (signed : Bytes → Bytes → Prop) (peer : PeerConnection)
    (a : Attribution) : Prop :=
  a.origin = .str peer.peerId ∨ SignedByOrigin lib signed a

/-- All that the handler can hand on when it is called in the state is genuine. -/
def AllGenuine (lib : Library) (c : Config) (signed : Bytes → Bytes → Prop) (s : Node)
    (msg : P2PMessage) (peer : PeerConnection) : Prop :=
  ∀ r a, ((handleGossip lib c msg peer).settle s).2.Requests r → r.attribution = some a →
    Genuine lib signed peer a

/-! ## Valid attestations -/

/-- The fields hold a claimed origin and a signature by a key that hashes to it. -/
def isAttested (lib : Library) (payload : List (String × Json)) (nonce : Json) : Bool :=
  let claimed := field payload "origin" .null
  let pubkey := field payload "origin_pubkey" (.str "")
  let sig := field payload "origin_sig" (.str "")
  claimed.truthy && pubkey.truthy && sig.truthy &&
    (match decoded pubkey with
      | some key =>
          pyEq (.str (nodeIdOf lib key)) claimed &&
            verifySignature lib pubkey
              (gossipOriginSigningBytes (field payload "subtype" (.str ""))
                (field payload "data" (.object [])) claimed (field payload "origin_time" .null)
                nonce) sig
      | none => false)

/-- The entry of a digest response carries a valid attestation. -/
def isAttestedEntry (lib : Library) (senderId : Json) : Json → Bool
  | .object fields =>
      match verifyPayload (field fields "subtype" (.str "")) (field fields "payload" (.object []))
          (field fields "origin" senderId) (field fields "attestation" .null) with
      | some payload => isAttested lib payload (field fields "nonce" (.str ""))
      | none => false
  | _ => false

section Attestation

variable {lib : Library} {signed : Bytes → Bytes → Prop}

theorem authenticateOrigin_eq (payload : List (String × Json)) (nonce fallback : Json) :
    authenticateOrigin lib payload nonce fallback =
      if isAttested lib payload nonce then field payload "origin" .null else fallback := by
  unfold authenticateOrigin isAttested
  dsimp only
  generalize field payload "origin" .null = claimed
  generalize field payload "origin_pubkey" (.str "") = pubkey
  generalize field payload "origin_sig" (.str "") = sig
  by_cases hPresent : (claimed.truthy && pubkey.truthy && sig.truthy) = true
  · simp only [hPresent, Bool.true_and, Bool.not_true, Bool.false_eq_true, if_false]
    cases decoded pubkey with
    | none => simp
    | some key =>
        cases hClaimed : pyEq (.str (nodeIdOf lib key)) claimed <;> simp [hClaimed]
  · rw [Bool.not_eq_true] at hPresent
    simp [hPresent]

theorem signedByOrigin_of_isAttested
    (hUnforgeable : ∀ key data sig, lib.ed25519Verify key data sig = true → signed key data)
    {payload : List (String × Json)} {nonce : Json} (h : isAttested lib payload nonce = true) :
    SignedByOrigin lib signed
      ⟨field payload "subtype" (.str ""), field payload "data" (.object []),
        field payload "origin" .null, nonce⟩ := by
  unfold isAttested at h
  dsimp only at h
  rw [Bool.and_eq_true] at h
  obtain ⟨-, h⟩ := h
  cases hKey : decoded (field payload "origin_pubkey" (.str "")) with
  | none => simp [hKey] at h
  | some key =>
      simp only [hKey, Bool.and_eq_true] at h
      obtain ⟨hClaimed, hVerified⟩ := h
      refine ⟨key, field payload "origin_time" .null, Json.eq_str_of_pyEq hClaimed, ?_⟩
      unfold verifySignature at hVerified
      rw [hKey] at hVerified
      cases hSig : decoded (field payload "origin_sig" (.str "")) with
      | none => simp [hSig] at hVerified
      | some sig =>
          simp only [hSig] at hVerified
          exact hUnforgeable key _ sig hVerified

def EntryView.attribution (e : EntryView) : Attribution :=
  ⟨e.subtype, e.payload, e.origin, e.nonce⟩

theorem readEntry_spec
    (hUnforgeable : ∀ key data sig, lib.ed25519Verify key data sig = true → signed key data)
    {senderId entry : Json} {e : EntryView} (h : readEntry lib senderId entry = some e) :
    (isAttestedEntry lib senderId entry = true ∧ SignedByOrigin lib signed e.attribution) ∨
      (isAttestedEntry lib senderId entry = false ∧ e.origin = senderId) := by
  cases entry with
  | object fields =>
      unfold readEntry authenticateCatchupOrigin at h
      cases hPayload : verifyPayload (field fields "subtype" (.str ""))
          (field fields "payload" (.object [])) (field fields "origin" senderId)
          (field fields "attestation" .null) with
      | none => simp [hPayload] at h
      | some payload =>
          have hFields : field payload "subtype" (.str "") = field fields "subtype" (.str "") ∧
              field payload "data" (.object []) = field fields "payload" (.object []) := by
            unfold verifyPayload at hPayload
            split at hPayload
            · rw [← Option.some.inj hPayload]
              exact ⟨rfl, rfl⟩
            · cases hPayload
          simp only [hPayload, Option.map_some, Option.bind_eq_bind, Option.bind_some,
            Option.pure_def, Option.some.injEq, authenticateOrigin_eq] at h
          have hEntry : isAttestedEntry lib senderId (.object fields) =
              isAttested lib payload (field fields "nonce" (.str "")) := by
            simp [isAttestedEntry, hPayload]
          rw [hEntry, ← h]
          cases hAttested : isAttested lib payload (field fields "nonce" (.str "")) with
          | true =>
              have hSigned := signedByOrigin_of_isAttested hUnforgeable hAttested
              rw [hFields.1, hFields.2] at hSigned
              exact Or.inl ⟨rfl, by simpa [EntryView.attribution] using hSigned⟩
          | false => exact Or.inr ⟨rfl, by simp⟩
  | _ => cases h

end Attestation

/-! ## What is handed on -/

/-- Some answers lead to a request that hands the message on. -/
def Attributes {α : Type} (a : Attribution) (p : Method α) : Prop :=
  ∃ r, p.Requests r ∧ r.attribution = some a

section Attributes

variable {lib : Library} {c : Config} {a : Attribution} {α β : Type}

theorem not_attributes_pure (x : α) : ¬ Attributes a (pure x : Method α) :=
  fun ⟨_, h, _⟩ => h

theorem not_attributes_raised (e : PyError) :
    ¬ Attributes a (Coroutine.raised e : Method α) :=
  fun ⟨_, h, _⟩ => h

theorem attributes_bind {p : Method α} {f : α → Method β} :
    Attributes a (p >>= f) ↔
      Attributes a p ∨ ∃ x, p.CanEnd (.ok x) ∧ Attributes a (f x) := by
  unfold Attributes
  rw [Coroutine.bind_eq]
  simp only [Coroutine.requests_bind]
  constructor
  · rintro ⟨r, h | ⟨x, hEnd, h⟩, hr⟩
    · exact Or.inl ⟨r, h, hr⟩
    · exact Or.inr ⟨x, hEnd, r, h, hr⟩
  · rintro (⟨r, h, hr⟩ | ⟨x, hEnd, r, h, hr⟩)
    · exact ⟨r, Or.inl h, hr⟩
    · exact ⟨r, Or.inr ⟨x, hEnd, h⟩, hr⟩

theorem attributes_ask {r : Request} :
    Attributes a (Coroutine.ask r : Method (Answer r)) ↔ r.attribution = some a := by
  unfold Attributes Coroutine.ask
  simp [Coroutine.Requests]

theorem attributes_callback (index : ℕ) (subtype data origin nonce : Json) :
    Attributes (α := Unit) a (Coroutine.ask (Request.callback index subtype data origin nonce)) ↔
      a = ⟨subtype, data, origin, nonce⟩ := by
  apply attributes_ask.trans
  rw [Request.attribution, Option.some.injEq, eq_comm]

theorem attributes_logGossip (nonce subtype origin payload ttl : Json)
    (attestation : Option Json) :
    Attributes (α := Unit) a (Coroutine.ask
      (Request.logGossip nonce subtype origin payload ttl attestation)) ↔
        a = ⟨subtype, payload, origin, nonce⟩ := by
  apply attributes_ask.trans
  rw [Request.attribution, Option.some.injEq, eq_comm]

theorem callbacks_spec (subtype data origin nonce : Json) (count : ℕ) :
    (callbacks subtype data origin nonce count).CanEnd (.ok ()) ∧
      (Attributes a (callbacks subtype data origin nonce count) ↔
        0 < count ∧ a = ⟨subtype, data, origin, nonce⟩) := by
  induction count with
  | zero =>
      refine ⟨rfl, ?_⟩
      simp [callbacks, not_attributes_pure]
  | succ n ih =>
      obtain ⟨hEnd, hBefore⟩ := ih
      constructor
      · rw [callbacks, Coroutine.bind_eq, Coroutine.canEnd_bind]
        exact Or.inl ⟨(), hEnd, (), rfl⟩
      · rw [callbacks, attributes_bind, hBefore]
        simp only [attributes_callback]
        constructor
        · rintro (⟨-, rfl⟩ | ⟨-, -, rfl⟩) <;> simp
        · rintro ⟨-, rfl⟩
          exact Or.inr ⟨(), hEnd, rfl⟩

/-- The entry is handed to a subscriber or to the log, unless it is logged already. -/
def HandedOn (c : Config) (e : EntryView) : Prop :=
  e.subtype.truthy = true ∧ e.payload.truthy = true ∧
    ∃ count, subscribersOf c e.subtype = some count ∧
      (0 < count ∨ (c.hasLedger && noneOf notLogged e.subtype) = true)

theorem deliverEntry_spec (e : EntryView) (count : ℕ) :
    (deliverEntry c e count).CanEnd (.ok ()) ∧
      (Attributes a (deliverEntry c e count) ↔
        (0 < count ∨ (c.hasLedger && noneOf notLogged e.subtype) = true) ∧
          a = e.attribution) := by
  obtain ⟨hEnd, hCallbacks⟩ :=
    callbacks_spec (a := a) e.subtype e.payload e.origin e.nonce count
  unfold deliverEntry
  constructor
  · rw [Coroutine.bind_eq, Coroutine.canEnd_bind]
    refine Or.inl ⟨(), hEnd, ?_⟩
    split
    · exact ⟨(), rfl⟩
    · rfl
  · rw [attributes_bind, hCallbacks]
    cases hLogged : c.hasLedger && noneOf notLogged e.subtype with
    | true =>
        simp only [if_true, attributes_logGossip]
        constructor
        · rintro (⟨-, rfl⟩ | ⟨-, -, rfl⟩) <;> exact ⟨Or.inr trivial, rfl⟩
        · rintro ⟨-, rfl⟩
          exact Or.inr ⟨(), hEnd, rfl⟩
    | false =>
        simp only [Bool.false_eq_true, if_false, not_attributes_pure, and_false, exists_false,
          or_false]
        rfl

theorem lookUp_spec (nonce : Json) :
    (lookUp c nonce).CanEnd (.ok false) ∧ ¬ Attributes a (lookUp c nonce) := by
  unfold lookUp
  split
  · exact ⟨rfl, not_attributes_pure false⟩
  · refine ⟨⟨.raised, rfl⟩, ?_⟩
    rw [attributes_bind, attributes_ask]
    simp [Request.attribution, not_attributes_pure]

theorem handleEntry_spec (senderId entry : Json) :
    (handleEntry lib c senderId entry).CanEnd (.ok ()) ∧
      (Attributes a (handleEntry lib c senderId entry) ↔
        ∃ e, readEntry lib senderId entry = some e ∧ HandedOn c e ∧ a = e.attribution) := by
  unfold handleEntry
  cases hRead : readEntry lib senderId entry with
  | none => exact ⟨rfl, by simp [not_attributes_pure]⟩
  | some e =>
      simp only [Option.some.injEq, exists_eq_left']
      unfold HandedOn
      cases hShown : !e.subtype.truthy || !e.payload.truthy with
      | true =>
          refine ⟨rfl, ?_⟩
          rw [Bool.or_eq_true, Bool.not_eq_true', Bool.not_eq_true'] at hShown
          simp only [if_true, not_attributes_pure, false_iff]
          rintro ⟨⟨hSubtype, hPayload, -⟩, -⟩
          rw [hSubtype, hPayload] at hShown
          simp at hShown
      | false =>
          rw [Bool.or_eq_false_iff, Bool.not_eq_false', Bool.not_eq_false'] at hShown
          obtain ⟨hLookUp, hQuiet⟩ := lookUp_spec (c := c) (a := a) e.nonce
          simp only [Bool.false_eq_true, if_false, hShown, true_and]
          cases hCount : subscribersOf c e.subtype with
          | none =>
              constructor
              · rw [Coroutine.bind_eq, Coroutine.canEnd_bind]
                exact Or.inl ⟨false, hLookUp, rfl⟩
              · rw [attributes_bind]
                simp only [hQuiet, false_or]
                constructor
                · rintro ⟨isLogged, -, h⟩
                  cases isLogged <;> exact absurd h (not_attributes_pure ())
                · rintro ⟨⟨count, hSome, -⟩, -⟩
                  cases hSome
          | some count =>
              obtain ⟨hEnd, hDeliver⟩ := deliverEntry_spec (c := c) (a := a) e count
              constructor
              · rw [Coroutine.bind_eq, Coroutine.canEnd_bind]
                exact Or.inl ⟨false, hLookUp, hEnd⟩
              · rw [attributes_bind]
                simp only [hQuiet, false_or, Option.some.injEq, exists_eq_left']
                constructor
                · rintro ⟨isLogged, -, h⟩
                  cases isLogged with
                  | true => exact absurd h (not_attributes_pure ())
                  | false => exact hDeliver.mp h
                · intro h
                  exact ⟨false, hLookUp, hDeliver.mpr h⟩

theorem handleEntries_spec (senderId : Json) (entries : List Json) :
    (handleEntries lib c senderId entries).CanEnd (.ok ()) ∧
      (Attributes a (handleEntries lib c senderId entries) ↔
        ∃ entry ∈ entries, ∃ e, readEntry lib senderId entry = some e ∧ HandedOn c e ∧
          a = e.attribution) := by
  induction entries with
  | nil => exact ⟨rfl, by simp [handleEntries, not_attributes_pure]⟩
  | cons entry rest ih =>
      obtain ⟨hEnd, hEntry⟩ : _ ∧ (Attributes a (handleEntry lib c senderId entry) ↔ _) :=
        handleEntry_spec senderId entry
      constructor
      · rw [handleEntries, Coroutine.bind_eq, Coroutine.canEnd_bind]
        exact Or.inl ⟨(), hEnd, ih.1⟩
      · rw [handleEntries, attributes_bind, hEntry, List.exists_mem_cons_iff]
        apply or_congr_right
        rw [← ih.2]
        exact ⟨fun ⟨_, _, h⟩ => h, fun h => ⟨(), hEnd, h⟩⟩

end Attributes

/-! ## The handler -/

/-- The request for a digest of the peer waits for an answer. -/
def isPending (s : Node) (peer : PeerConnection) : Bool :=
  (s.pendingDigest.get? peer.peerId).any fun expiry => s.clock < expiry

/-- The messages in the data of a digest response that are looked at. -/
def messagesOf (senderId data : Json) : List Json :=
  match data with
  | .object fields =>
      if senderId.sliceable then
        match field fields "messages" (.array []) with
        | .array items => items.take maxDigestResponseMessages
        | _ => []
      else []
  | _ => []

/-- The entries that are worked through: those of an answer, in time, to a digest request that
was sent to the peer. -/
def admittedEntries (s : Node) (msg : P2PMessage) (peer : PeerConnection) : List Json :=
  match msg.payload with
  | .object payload =>
      if pyEq (field payload "subtype" (.str "")) (.str "digest_response") && isPending s peer then
        messagesOf msg.senderId (field payload "data" (.object []))
      else []
  | _ => []

section Handler

variable {lib : Library} {c : Config} {signed : Bytes → Bytes → Prop} {a : Attribution}
  {s : Node} {msg : P2PMessage} {peer : PeerConnection}

/-- The call, from the state it is made in, hands the message on. -/
def HandsOn (lib : Library) (c : Config) (s : Node) (msg : P2PMessage) (peer : PeerConnection)
    (a : Attribution) : Prop :=
  ∃ r, ((handleGossip lib c msg peer).settle s).2.Requests r ∧ r.attribution = some a

theorem attributes_of_settle {α : Type} {p : Method α}
    (h : ∃ r, (p.settle s).2.Requests r ∧ r.attribution = some a) : Attributes a p := by
  obtain ⟨r, hRequests, hr⟩ := h
  exact ⟨r, hRequests.of_settle, hr⟩

/-- Nothing but one message is handed on. -/
def HandsOnly {α : Type} (b : Attribution) (p : Method α) : Prop :=
  ∀ a, Attributes a p → a = b

theorem HandsOnly.bind {α β : Type} {b : Attribution} {p : Method α} {f : α → Method β}
    (h : HandsOnly b p) (hNext : ∀ x, HandsOnly b (f x)) : HandsOnly b (p >>= f) := by
  intro a ha
  rcases attributes_bind.mp ha with ha | ⟨x, -, ha⟩
  · exact h a ha
  · exact hNext x a ha

theorem handsOnly_quiet {α : Type} {b : Attribution} {p : Method α}
    (h : ∀ a, ¬ Attributes a p) : HandsOnly b p :=
  fun a ha => absurd ha (h a)

theorem handsOnly_handleFresh (payload : List (String × Json)) (subtype data origin : Json) :
    HandsOnly ⟨subtype, data, origin, msg.nonce⟩
      (handleFresh c msg payload subtype data origin) := by
  have hPersist : HandsOnly ⟨subtype, data, origin, msg.nonce⟩
      (persist c msg payload subtype data origin) := by
    unfold persist
    split
    · exact fun a ha => (attributes_logGossip _ _ _ _ _ _).mp ha
    · exact handsOnly_quiet fun a => not_attributes_pure _
  have hPropagate : ∀ a, ¬ Attributes a (propagate msg) := by
    intro a
    unfold propagate
    split
    · exact not_attributes_raised _
    · rintro ⟨r, rfl | ⟨_, h⟩, hr⟩
      · cases hr
      · exact h
    · exact not_attributes_pure _
  unfold handleFresh
  cases subscribersOf c subtype with
  | none => exact handsOnly_quiet fun a => not_attributes_raised _
  | some count =>
      apply HandsOnly.bind
      · exact fun a ha => ((callbacks_spec _ _ _ _ count).2.mp ha).2
      · exact fun _ => hPersist.bind fun _ => handsOnly_quiet hPropagate

theorem not_attributes_isReplayedGossip (nonce : Json) :
    ¬ Attributes a (isReplayedGossip c nonce) := by
  rintro ⟨r, ⟨s, h⟩, -⟩
  have hEnd : ¬ Coroutine.Requests r (if (!nonce.hashable) = true then throw .typeError
      else if ((s.seen.dropWhile fun entry => c.window < s.clock - entry.2).any
          fun entry => pyEq entry.1 nonce) = true then pure true
      else do
        let grown := (s.seen.dropWhile fun entry => c.window < s.clock - entry.2) ++
          [(nonce, s.clock)]
        Coroutine.modify fun s => { s with seen := grown.drop (grown.length - c.cap) }
        pure false : Method Bool) := by
    split
    · exact id
    · split
      · exact id
      · exact id
  exact hEnd h

theorem genuine_of_live
    (hUnforgeable : ∀ key data sig, lib.ed25519Verify key data sig = true → signed key data)
    (payload : List (String × Json)) :
    Genuine lib signed peer
      ⟨field payload "subtype" (.str ""), field payload "data" (.object []),
        authenticateOrigin lib payload msg.nonce (.str peer.peerId), msg.nonce⟩ := by
  rw [authenticateOrigin_eq]
  split
  · next hAttested => exact Or.inr (signedByOrigin_of_isAttested hUnforgeable hAttested)
  · exact Or.inl rfl

theorem stateless_callbacks (subtype data origin nonce : Json) (count : ℕ) :
    Coroutine.Stateless (callbacks subtype data origin nonce count) := by
  induction count with
  | zero => trivial
  | succ n ih => exact Coroutine.stateless_bind ih fun _ _ => trivial

theorem stateless_handleEntries (senderId : Json) (entries : List Json) :
    Coroutine.Stateless (handleEntries lib c senderId entries) := by
  induction entries with
  | nil => trivial
  | cons entry rest ih =>
      apply Coroutine.stateless_bind _ fun _ => ih
      unfold handleEntry
      split
      · trivial
      · split
        · trivial
        · apply Coroutine.stateless_bind
          · unfold lookUp
            split
            · trivial
            · exact fun _ => trivial
          · intro isLogged
            cases isLogged
            · simp only [Bool.false_eq_true, if_false]
              split
              · trivial
              · apply Coroutine.stateless_bind (stateless_callbacks _ _ _ _ _)
                intro _
                split
                · exact fun _ => trivial
                · trivial
            · trivial

theorem handleMessages_spec (senderId data : Json) :
    (∃ r, ((handleMessages lib c senderId data).settle s).2.Requests r ∧
        r.attribution = some a) ↔
      ∃ entry ∈ messagesOf senderId data, ∃ e,
        readEntry lib senderId entry = some e ∧ HandedOn c e ∧ a = e.attribution := by
  have hStateless : Coroutine.Stateless (handleMessages lib c senderId data) := by
    unfold handleMessages
    split
    · split
      · trivial
      · split
        · exact stateless_handleEntries _ _
        · trivial
    · trivial
  simp only [hStateless.requests_settle]
  show Attributes a (handleMessages lib c senderId data) ↔ _
  unfold handleMessages messagesOf
  cases data with
  | object fields =>
      cases senderId.sliceable with
      | false => simp [throw, throwThe, MonadExceptOf.throw, not_attributes_raised]
      | true =>
          simp only [Bool.not_true, Bool.false_eq_true, if_false, if_true]
          cases field fields "messages" (.array []) with
          | array items => exact (handleEntries_spec _ _).2
          | _ => simp [not_attributes_pure]
  | _ => simp [throw, throwThe, MonadExceptOf.throw, not_attributes_raised]

theorem handleDigestResponse_spec (senderId data : Json) :
    (∃ r, ((handleDigestResponse lib c senderId data peer).settle s).2.Requests r ∧
        r.attribution = some a) ↔
      isPending s peer = true ∧ ∃ entry ∈ messagesOf senderId data, ∃ e,
        readEntry lib senderId entry = some e ∧ HandedOn c e ∧ a = e.attribution := by
  -- the state is read and the peer's request taken out before anything else
  simp only [handleDigestResponse, Coroutine.bind_eq, Coroutine.gets, Coroutine.modify,
    Coroutine.bind_read, Coroutine.bind_write, Coroutine.bind_returned, Coroutine.settle, id]
  unfold isPending
  cases s.pendingDigest.get? peer.peerId with
  | none => simp [pure, Coroutine.settle, Coroutine.Requests]
  | some expiry =>
      by_cases hTime : expiry ≤ s.clock
      · have hLate : ¬ s.clock < expiry := not_lt.mpr hTime
        simp [hTime, hLate, pure, Coroutine.settle, Coroutine.Requests]
      · have hInTime : s.clock < expiry := not_le.mp hTime
        simp only [hTime, if_false, handleMessages_spec, Option.any_some, hInTime,
          decide_true, true_and]

theorem handsOn_cases
    (hUnforgeable : ∀ key data sig, lib.ed25519Verify key data sig = true → signed key data) :
    (HandsOn lib c s msg peer a → Genuine lib signed peer a ∨
      ∃ entry ∈ admittedEntries s msg peer, ∃ e,
        readEntry lib msg.senderId entry = some e ∧ HandedOn c e ∧ a = e.attribution) ∧
    ((∃ entry ∈ admittedEntries s msg peer, ∃ e,
        readEntry lib msg.senderId entry = some e ∧ HandedOn c e ∧ a = e.attribution) →
      HandsOn lib c s msg peer a) := by
  unfold HandsOn admittedEntries handleGossip
  cases hPayload : msg.payload with
  | object payload =>
      simp only
      by_cases hResponse : pyEq (field payload "subtype" (.str "")) (.str "digest_response") = true
      · have hSubtype := Json.eq_str_of_pyEq_right hResponse
        have hTruthy : (!Json.truthy (.str "digest_response")) = false := by decide
        have hRequest : pyEq (.str "digest_response") (.str "digest_request") = false := by
          simp [pyEq]
        have hSame : pyEq (.str "digest_response") (.str "digest_response") = true := by
          simp [pyEq]
        simp only [hSubtype, hTruthy, hRequest, hSame, Bool.false_eq_true, if_false, if_true,
          handleDigestResponse_spec, Bool.true_and]
        cases isPending s peer with
        | false => simp
        | true =>
            simp only [if_true, true_and]
            exact ⟨Or.inr, id⟩
      · rw [Bool.not_eq_true] at hResponse
        simp only [hResponse, Bool.false_and, Bool.false_eq_true, if_false, List.not_mem_nil,
          false_and, exists_false, false_implies, and_true, or_false]
        intro h
        -- the origin of the live frame, whatever the barrier says
        have hFresh : ∀ b, Attributes b (handleFresh c msg payload
            (field payload "subtype" (.str "")) (field payload "data" (.object []))
            (authenticateOrigin lib payload msg.nonce (.str peer.peerId))) →
              Genuine lib signed peer b := by
          intro b hb
          rw [handsOnly_handleFresh payload _ _ _ b hb]
          exact genuine_of_live hUnforgeable payload
        have hAttributes := attributes_of_settle h
        split at hAttributes
        · exact absurd hAttributes (not_attributes_pure ())
        · split at hAttributes
          · obtain ⟨r, rfl | ⟨_, hNone⟩, hr⟩ := hAttributes
            · cases hr
            · exact hNone.elim
          · split at hAttributes
            · exact hFresh a hAttributes
            · rcases attributes_bind.mp hAttributes with hBarrier | ⟨isReplayed, -, hRest⟩
              · exact absurd hBarrier (not_attributes_isReplayedGossip _)
              · cases isReplayed with
                | true => exact absurd hRest (not_attributes_pure ())
                | false => exact hFresh a hRest
  | _ => simp [throw, throwThe, MonadExceptOf.throw, Coroutine.settle, Coroutine.Requests]

/-- All origins handed on are genuine exactly if every admitted entry that can reach a
subscriber or the log has a valid attestation, or is from the `sender_id` all the same. -/
theorem origins_genuine_iff
    (hUnforgeable : ∀ key data sig, lib.ed25519Verify key data sig = true → signed key data) :
    AllGenuine lib c signed s msg peer ↔
      ∀ entry ∈ admittedEntries s msg peer, ∀ e, readEntry lib msg.senderId entry = some e →
        HandedOn c e → isAttestedEntry lib msg.senderId entry = true ∨
          Genuine lib signed peer ⟨e.subtype, e.payload, msg.senderId, e.nonce⟩ := by
  constructor
  · intro h entry hEntry e hRead hHanded
    have hHandsOn : HandsOn lib c s msg peer e.attribution :=
      (handsOn_cases hUnforgeable).2 ⟨entry, hEntry, e, hRead, hHanded, rfl⟩
    obtain ⟨r, hRequests, hr⟩ := hHandsOn
    rcases readEntry_spec hUnforgeable hRead with ⟨hAttested, -⟩ | ⟨-, hOrigin⟩
    · exact Or.inl hAttested
    · have hGenuine := h r e.attribution hRequests hr
      rw [EntryView.attribution, hOrigin] at hGenuine
      exact Or.inr hGenuine
  · intro h r a hRequests hr
    rcases (handsOn_cases hUnforgeable).1 ⟨r, hRequests, hr⟩ with
      hGenuine | ⟨entry, hEntry, e, hRead, hHanded, rfl⟩
    · exact hGenuine
    · rcases readEntry_spec hUnforgeable hRead with ⟨-, hSigned⟩ | ⟨hPlain, hOrigin⟩
      · exact Or.inr hSigned
      · rcases h entry hEntry e hRead hHanded with hAttested | hGenuine
        · rw [hPlain] at hAttested
          cases hAttested
        · rw [EntryView.attribution, hOrigin]
          exact hGenuine

end Handler

/-! ## An entry under another name -/

namespace Sample

/-- One key, of which one signature is known. -/
def lib : Library where
  sha256Hex := fun key =>
    if key = [1] then "a3f1c2d4e5b60718293a4b5c6d7e8f90112233445566778899aabbccddeeff00"
    else "0000000000000000000000000000000000000000000000000000000000000000"
  ed25519Verify := fun key _ sig => key = [1] && sig = [2]

def signed : Bytes → Bytes → Prop := fun key _ => key = [1]

theorem hour_pos : (0 : ℚ) < 3600 := by norm_num

def config : Config where
  window := 3600
  window_pos := hour_pos
  cap := 100000
  subscribers := fun subtype => if subtype = "job_offer" then 1 else 0
  hasLedger := true

def peer : PeerConnection where
  peerId := "5e884898da28047151d0e56f8dc62927"
  peerId_ne := by decide

/-- A request to the peer is pending. -/
def node : Node where
  clock := 1000
  seen := []
  pendingDigest := (∅ : Dict String ℚ).set peer.peerId 1300

def victim : Json := .str "9f86d081884c7d659a2feaa0c55ad015"

def offer : Json :=
  .object [("job_id", .str "job-1")]

/-- The answer of the peer, with another node's id as `sender_id`. -/
def response : P2PMessage where
  senderId := victim
  payload := .object [("subtype", .str "digest_response"),
    ("data", .object [("messages", .array [.object [("subtype", .str "job_offer"),
      ("payload", offer), ("nonce", .str "00112233aabbccdd")]])])]
  ttl := .int 1
  nonce := .str "ffeeddcc00112233"

theorem unforgeable : ∀ key data sig, lib.ed25519Verify key data sig = true →
    signed key data := by
  intro key data sig h
  simp only [lib, Bool.and_eq_true, decide_eq_true_iff] at h
  exact h.1

theorem origins_genuine_response_iff :
    AllGenuine lib config signed node response peer ↔
      ∀ entry ∈ admittedEntries node response peer, ∀ e,
        readEntry lib response.senderId entry = some e → HandedOn config e →
          isAttestedEntry lib response.senderId entry = true ∨
            Genuine lib signed peer ⟨e.subtype, e.payload, response.senderId, e.nonce⟩ :=
  origins_genuine_iff unforgeable

/-- The subscribers to job offers are told that the victim made the offer of the peer. -/
theorem offer_under_victim :
    ((handleGossip lib config response peer).settle node).2.Requests
        (.callback 0 (.str "job_offer") offer victim (.str "00112233aabbccdd")) ∧
      ¬ Genuine lib signed peer ⟨.str "job_offer", offer, victim, .str "00112233aabbccdd"⟩ := by
  constructor
  · exact Or.inr ⟨.answered false, Or.inl rfl⟩
  · rintro (h | ⟨key, originTime, h, hSigned⟩)
    · have hSame := Json.str.inj h
      exact absurd hSame (by decide)
    · have hSame := Json.str.inj h
      rw [show key = [1] from hSigned] at hSame
      exact absurd hSame (by decide +kernel)

end Sample

end Frames
end Gossip
end Prsm
