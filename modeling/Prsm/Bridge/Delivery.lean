import Prsm.Bridge.Inbound

/-!
# Which transfers can be delivered

The bridge that a transfer leaves numbers it among the transfers of its user.  The security
contract of the destination wants every number at most once for each source chain.  So the
first transfers of two users to one destination exclude each other, and in general two
transfers with the same number.
-/

namespace Prsm.Bridge

open Foundations Evm
open BridgeSecurity (BridgeMessage)

/-- In whatever order the transfers are delivered, each with the signatures of the
validators, every delivery succeeds, and none succeeds a second time. -/
def Deliverable (crypto : Crypto) (dest : Uint 256) (w : World) (security : BridgeSecurity.State)
    (transfers : List Transfer) : Prop :=
  ∀ rs : List Relay, (rs.map (·.transfer)).Perm transfers →
    (∀ r ∈ rs, Endorsed crypto dest w.bridge.self security r) →
      ∃ w', deliverAll crypto w rs = some w' ∧
        ∀ r ∈ rs, ∀ env signatures,
          step crypto w' (.bridgeIn env r.transfer.message signatures) = none

/-- The transfers of a run from one chain to another, with their numbers among all the
transfers of their users. -/
def World.transfersBetween (w : World) (source dest : Uint 256) : List (Transfer × Nat) :=
  w.numberedTransfers.filter fun e => e.1.sourceChain = source ∧ e.1.destinationChain = dest

/-- Every transfer carries something. -/
def CarrySomething (transfers : List (Transfer × Nat)) : Prop :=
  ∀ e ∈ transfers, 0 < e.1.gross ∧ e.1.feeBps < 10000

/-- No two users have a transfer with the same number. -/
def NumbersDiffer (transfers : List (Transfer × Nat)) : Prop :=
  ∀ e ∈ transfers, ∀ e' ∈ transfers, e.1.user ≠ e'.1.user → e.2 ≠ e'.2

/-- The byte strings that are hashed on the way of a transfer: for its identifier, for its
message, and for what is signed. -/
def Transfer.hashed (crypto : Crypto) (dest : Uint 256) (bridge : Address)
    (security : BridgeSecurity.State) (t : Transfer) : List Bytes :=
  [t.preimage, t.message.encode crypto,
    typedDataBytes (security.domainSeparator crypto ⟨dest, bridge⟩)
      (crypto.keccak256 (t.message.encode crypto))]

/-- The hash function has no collision among the given byte strings. -/
def CollisionFree (crypto : Crypto) (inputs : List Bytes) : Prop :=
  ∀ x ∈ inputs, ∀ y ∈ inputs, crypto.keccak256 x = crypto.keccak256 y → x = y

/-! ## Transfers with different nonces are apart -/

section Apart

variable {crypto : Crypto} {dest : Uint 256} {bridge : Address}
  {security : BridgeSecurity.State} {t t' : Transfer}

theorem nonce_eq_of_preimage (hTransfer : t.WellFormed crypto) (hTransfer' : t'.WellFormed crypto)
    (h : t.preimage = t'.preimage) : t.nonce = t'.nonce := by
  -- The nonce is the third word from the end.
  have hTimestamp := (List.append_inj' h (by simp)).1
  have hNonce := (List.append_inj' hTimestamp (by simp)).1
  have hWord := (List.append_inj' hNonce (by simp)).2
  exact abiWord_injective hTransfer.nonce_lt hTransfer'.nonce_lt hWord

theorem encode_components_lt (m : BridgeMessage) :
    ∀ x ∈ [(BridgeSecurity.bridgeMessageTypehash crypto).val, m.recipient.val, m.amount.val,
      m.sourceChainId.val, m.sourceTxId.val, m.nonce.val], x < 2 ^ 256 := by
  intro x hMem
  simp only [List.mem_cons, List.not_mem_nil, or_false] at hMem
  rcases hMem with rfl | rfl | rfl | rfl | rfl | rfl
  · exact Fin.isLt _
  · exact (Fin.isLt _).trans (Nat.pow_lt_pow_right (by norm_num) (by norm_num))
  · exact Fin.isLt _
  · exact Fin.isLt _
  · exact Fin.isLt _
  · exact Fin.isLt _

theorem nonce_eq_of_encode {m m' : BridgeMessage} (h : m.encode crypto = m'.encode crypto) :
    m.nonce = m'.nonce := by
  have hList : [(BridgeSecurity.bridgeMessageTypehash crypto).val, m.recipient.val, m.amount.val,
      m.sourceChainId.val, m.sourceTxId.val, m.nonce.val] =
        [(BridgeSecurity.bridgeMessageTypehash crypto).val, m'.recipient.val, m'.amount.val,
          m'.sourceChainId.val, m'.sourceTxId.val, m'.nonce.val] :=
    abiEncode_injective rfl (encode_components_lt m) (encode_components_lt m') h
  simp only [List.cons.injEq] at hList
  exact Fin.ext hList.2.2.2.2.2.1

theorem apart_of_nonce_ne {transfers : List Transfer}
    (hFree : CollisionFree crypto (transfers.flatMap (·.hashed crypto dest bridge security)))
    (hMem : t ∈ transfers) (hMem' : t' ∈ transfers) (hTransfer : t.WellFormed crypto)
    (hTransfer' : t'.WellFormed crypto) (hNonce : t.nonce ≠ t'.nonce) :
    Apart crypto dest bridge security t t' := by
  have hHashed : ∀ s ∈ transfers, ∀ x ∈ s.hashed crypto dest bridge security,
      x ∈ transfers.flatMap (·.hashed crypto dest bridge security) :=
    fun s hs x hx => List.mem_flatMap.mpr ⟨s, hs, hx⟩
  have hMessage : t.message.nonce ≠ t'.message.nonce := by
    intro hSame
    apply hNonce
    rw [← hTransfer.message_nonce, ← hTransfer'.message_nonce, hSame]
  -- Equal identifiers would have equal preimages, equal hashes equal messages.
  refine ⟨?_, hMessage, ?_⟩
  · intro hSame
    rw [hTransfer.transactionId_eq, hTransfer'.transactionId_eq] at hSame
    exact hNonce (nonce_eq_of_preimage hTransfer hTransfer'
      (hFree _ (hHashed t hMem _ (by simp [Transfer.hashed])) _
        (hHashed t' hMem' _ (by simp [Transfer.hashed])) hSame))
  · intro hSame
    have hBytes := hFree _ (hHashed t hMem _ (by simp [Transfer.hashed])) _
      (hHashed t' hMem' _ (by simp [Transfer.hashed])) hSame
    have hStruct := typedDataBytes_injective hBytes
    have hEncoded := hFree _ (hHashed t hMem _ (by simp [Transfer.hashed])) _
      (hHashed t' hMem' _ (by simp [Transfer.hashed])) hStruct
    exact hMessage (nonce_eq_of_encode hEncoded)

end Apart

section Condition

variable {crypto : Crypto} {source dest : Uint 256} {w ws : World} {bridge : Address}
  {security : BridgeSecurity.State} {transfers transfers' : List Transfer}

theorem mem_transfersBetween {e : Transfer × Nat} :
    e ∈ w.transfersBetween source dest ↔
      e ∈ w.numberedTransfers ∧ e.1.sourceChain = source ∧ e.1.destinationChain = dest := by
  simp [World.transfersBetween]

theorem nonces_pairwise (hSent : SentWellFormed crypto ws)
    (hNumbers : NumbersDiffer (ws.transfersBetween source dest)) :
    ((ws.transfersBetween source dest).map (·.1)).Pairwise fun t t' => t.nonce ≠ t'.nonce := by
  rw [List.pairwise_map]
  have hPairwise : (ws.transfersBetween source dest).Pairwise
      fun e e' => e.1.user = e'.1.user → e.2 ≠ e'.2 := (numbered_pairwise ws.sent).filter _
  refine hPairwise.imp_of_mem fun {e e'} hMem hMem' hSameUser => ?_
  rw [hSent.numbers e.1 e.2 (mem_transfersBetween.mp hMem).1,
    hSent.numbers e'.1 e'.2 (mem_transfersBetween.mp hMem').1]
  -- One user numbers its own transfers apart; other users need the hypothesis.
  by_cases hUser : e.1.user = e'.1.user
  · exact hSameUser hUser
  · exact hNumbers e hMem e' hMem' hUser

theorem Apart.symm {t t' : Transfer} (h : Apart crypto dest bridge security t t') :
    Apart crypto dest bridge security t' t :=
  ⟨h.id_ne.symm, h.nonce_ne.symm, h.hash_ne.symm⟩

theorem Ready.perm (h : Ready crypto dest source w security transfers)
    (hPerm : transfers'.Perm transfers) : Ready crypto dest source w security transfers' := by
  have hSum : (transfers'.map (·.amount)).sum = (transfers.map (·.amount)).sum :=
    (hPerm.map _).sum_eq
  refine ⟨h.security_eq, h.running, h.supported, h.token_running, h.minter, ?_, ?_, ?_, ?_, ?_⟩
  · rw [hSum]
    exact h.room
  · rw [hSum]
    exact h.total_lt
  · exact fun t hMem => h.new_id t (hPerm.mem_iff.mp hMem)
  · exact fun t hMem => h.new_nonce t (hPerm.mem_iff.mp hMem)
  · exact fun t hMem => h.new_hash t (hPerm.mem_iff.mp hMem)

theorem exists_relays
    (hSigned : ∀ t ∈ transfers, ∃ r : Relay, r.transfer = t ∧
      Endorsed crypto dest bridge security r) :
    ∃ rs : List Relay, rs.map (·.transfer) = transfers ∧
      ∀ r ∈ rs, Endorsed crypto dest bridge security r := by
  induction transfers with
  | nil => exact ⟨[], rfl, fun _ hMem => absurd hMem List.not_mem_nil⟩
  | cons t rest ih =>
      obtain ⟨r, hTransfer, hEndorsed⟩ := hSigned t List.mem_cons_self
      obtain ⟨rs, hMap, hAll⟩ :=
        ih fun later hLater => hSigned later (List.mem_cons_of_mem _ hLater)
      refine ⟨r :: rs, by rw [List.map_cons, hTransfer, hMap], ?_⟩
      intro some hMem
      rcases List.mem_cons.mp hMem with rfl | hLater
      · exact hEndorsed
      · exact hAll some hLater

theorem condition_of_deliverable (hSent : SentWellFormed crypto ws)
    (hSigned : ∀ t ∈ (ws.transfersBetween source dest).map (·.1),
      ∃ r : Relay, r.transfer = t ∧ Endorsed crypto dest w.bridge.self security r)
    (hDeliverable : Deliverable crypto dest w security
      ((ws.transfersBetween source dest).map (·.1))) :
    CarrySomething (ws.transfersBetween source dest) ∧
      NumbersDiffer (ws.transfersBetween source dest) := by
  -- Deliver them in the order they are listed in.
  obtain ⟨rs, hMap, hEndorsed⟩ := exists_relays hSigned
  obtain ⟨w', hAll, -⟩ := hDeliverable rs (List.Perm.of_eq hMap) hEndorsed
  have hRelay : ∀ e ∈ ws.transfersBetween source dest, ∃ r ∈ rs, r.transfer = e.1 := by
    intro e hMem
    have hTransfer : e.1 ∈ rs.map (·.transfer) := hMap ▸ List.mem_map_of_mem hMem
    exact List.mem_map.mp hTransfer
  have hFormed : ∀ e ∈ ws.transfersBetween source dest, e.1.WellFormed crypto :=
    fun e hMem => hSent.transfers e.1 (mem_of_mem_numbered (mem_transfersBetween.mp hMem).1)
  have hSource : ∀ r ∈ rs, r.transfer.sourceChain = source := by
    intro r hMem
    have hTransfer : r.transfer ∈ (ws.transfersBetween source dest).map (·.1) :=
      hMap ▸ List.mem_map_of_mem hMem
    obtain ⟨e, hEvent, hSame⟩ := List.mem_map.mp hTransfer
    rw [← hSame]
    exact (mem_transfersBetween.mp hEvent).2.1
  obtain ⟨hAmounts, -, hPairwise⟩ := deliverAll_eq_some hAll hSource
  constructor
  · intro e hMem
    obtain ⟨r, hRelayed, hTransfer⟩ := hRelay e hMem
    have hAmount := hAmounts r hRelayed
    rw [hTransfer] at hAmount
    have hValue := (hFormed e hMem).message_amount
    rw [← (hFormed e hMem).amount_pos_iff, ← hValue]
    exact Nat.pos_of_ne_zero fun hZero => hAmount (Fin.ext hZero)
  · intro e hMem e' hMem' hUsers hNumbers
    obtain ⟨r, hRelayed, hTransfer⟩ := hRelay e hMem
    obtain ⟨r', hRelayed', hTransfer'⟩ := hRelay e' hMem'
    have hNonces : e.1.nonce = e'.1.nonce := by
      rw [hSent.numbers e.1 e.2 (mem_transfersBetween.mp hMem).1,
        hSent.numbers e'.1 e'.2 (mem_transfersBetween.mp hMem').1, hNumbers]
    have hNodup : (rs.map (·.transfer.message.nonce)).Nodup := List.pairwise_map.mpr hPairwise
    -- Both events would be delivered under one nonce.
    have hSame : r = r' := by
      apply List.inj_on_of_nodup_map hNodup hRelayed hRelayed'
      rw [hTransfer, hTransfer', Transfer.message, Transfer.message, hNonces]
    subst hSame
    exact hUsers (by rw [← hTransfer, ← hTransfer'])

theorem deliverable_of_condition (hSent : SentWellFormed crypto ws)
    (hReady : Ready crypto dest source w security
      ((ws.transfersBetween source dest).map (·.1)))
    (hFree : CollisionFree crypto (((ws.transfersBetween source dest).map (·.1)).flatMap
      (·.hashed crypto dest w.bridge.self security)))
    (hCarry : CarrySomething (ws.transfersBetween source dest))
    (hNumbers : NumbersDiffer (ws.transfersBetween source dest)) :
    Deliverable crypto dest w security ((ws.transfersBetween source dest).map (·.1)) := by
  intro rs hPerm hEndorsed
  have hFormed : ∀ t ∈ (ws.transfersBetween source dest).map (·.1),
      t.WellFormed crypto ∧ 0 < t.amount ∧ t.sourceChain = source := by
    intro t hMem
    obtain ⟨e, hEvent, rfl⟩ := List.mem_map.mp hMem
    obtain ⟨hNumbered, hSource, -⟩ := mem_transfersBetween.mp hEvent
    have hTransfer := hSent.transfers e.1 (mem_of_mem_numbered hNumbered)
    exact ⟨hTransfer, hTransfer.amount_pos_iff.mpr (hCarry e hEvent), hSource⟩
  have hApart : (rs.map (·.transfer)).Pairwise (Apart crypto dest w.bridge.self security) := by
    rw [hPerm.pairwise_iff Apart.symm]
    exact (nonces_pairwise hSent hNumbers).imp_of_mem fun hMem hMem' hNonce =>
      apart_of_nonce_ne hFree hMem hMem' (hFormed _ hMem).1 (hFormed _ hMem').1 hNonce
  obtain ⟨w', hAll⟩ := deliverAll_of_ready (hReady.perm hPerm) hEndorsed
    (fun r hMem => hFormed r.transfer (hPerm.mem_iff.mp (List.mem_map_of_mem hMem))) hApart
  refine ⟨w', hAll, fun r hMem env signatures => ?_⟩
  exact deliver_refused (deliverAll_processed hAll hMem)

end Condition

/-- The transfers of a run from one chain to another can all be delivered, in every order
and once each, to a bridge that is ready for them and whose validators sign them, exactly
when each carries something and no two users have transfers of the same number among
them. -/
theorem outbound_deliverable_iff {crypto : Crypto} (d : Deployment crypto) (inputs : List Input)
    (source dest : Uint 256) (w : World) (security : BridgeSecurity.State) :
    let sent := ((machine crypto).run d.world inputs).transfersBetween source dest
    Ready crypto dest source w security (sent.map (·.1)) →
      (∀ t ∈ sent.map (·.1), ∃ r : Relay, r.transfer = t ∧
        Endorsed crypto dest w.bridge.self security r) →
      CollisionFree crypto
        ((sent.map (·.1)).flatMap (·.hashed crypto dest w.bridge.self security)) →
      (Deliverable crypto dest w security (sent.map (·.1)) ↔
        CarrySomething sent ∧ NumbersDiffer sent) := by
  intro sent hReady hSigned hFree
  have hSent := sentWellFormed_run d inputs
  constructor
  · exact condition_of_deliverable hSent hSigned
  · rintro ⟨hCarry, hNumbers⟩
    exact deliverable_of_condition hSent hReady hFree hCarry hNumbers

/-! ## Two runs

On chain `1` the users `3` and `4` send to chain `10`, where nothing has been delivered
yet. -/

def freshWorld (chainId : Uint 256) : World :=
  (freshDeployment chainId).world

/-- A call of `bridgeOut` on chain `1`. -/
def sendTo (destinationChain : Uint 256) (user : Address) (timestamp : Nat) : Input :=
  .bridgeOut ⟨smallBlock timestamp, 1, user⟩ 100 destinationChain

/-- The transfer of such a call to chain `10`, with the given nonce. -/
def transferOf (user : Address) (timestamp nonce : Nat) : Transfer :=
  ⟨user, 100, 100, timestamp, 1, 99, 10, nonce,
    namedSignerCrypto.keccak256 (transferPreimage user 100 10 nonce timestamp 1)⟩

/-- The transfer with the signature of the validator on chain `10`. -/
def relayOf (t : Transfer) : Relay :=
  ⟨t, ⟨smallBlock 100, 10, 7⟩,
    [BridgeSecurity.signedEntry
      (t.messageHash namedSignerCrypto 10 200 (BridgeSecurity.freshState 10)) 5 5]⟩

theorem freshWorld_ready {transfers : List Transfer}
    (hSum : 2000 + (transfers.map (·.amount)).sum ≤ FtnsToken.maxSupply) :
    Ready namedSignerCrypto 10 1 (freshWorld 10) (BridgeSecurity.freshState 10) transfers where
  security_eq := rfl
  running := rfl
  supported := by decide +kernel
  token_running := rfl
  minter := by decide +kernel
  room := hSum
  total_lt := by
    have hMax : FtnsToken.maxSupply < 2 ^ 256 := by norm_num [FtnsToken.maxSupply]
    show 0 + _ < 2 ^ 256
    omega
  new_id := fun _ _ => rfl
  new_nonce := fun _ _ => rfl
  new_hash := fun _ _ => rfl

theorem relayOf_endorsed {t : Transfer}
    (hCount : BridgeSecurity.countBridgeSignatures namedSignerCrypto ⟨10, 200⟩
      (BridgeSecurity.freshState 10) t.message (relayOf t).signatures = .ok (1, [])) :
    Endorsed namedSignerCrypto 10 200 (BridgeSecurity.freshState 10) (relayOf t) := by
  obtain ⟨-, hRecovers, hCard⟩ := BridgeSecurity.countBridgeSignatures_iff.mp ⟨[], hCount⟩
  exact ⟨rfl, hRecovers, hCard.le⟩

def firstTransfersRun : List Input := [sendTo 10 3 50, sendTo 10 4 60]

theorem firstTransfersRun_transfers :
    ((machine namedSignerCrypto).run (freshWorld 1) firstTransfersRun).transfersBetween 1 10 =
      [(transferOf 4 60 1, 1), (transferOf 3 50 1, 1)] := by
  decide +kernel

/-- The bridge of the destination is ready for both transfers and both are signed, but the
second delivery is refused. -/
theorem outbound_not_deliverable_firstTransfersRun :
    let sent := ((machine namedSignerCrypto).run (freshWorld 1) firstTransfersRun).transfersBetween
      1 10
    Ready namedSignerCrypto 10 1 (freshWorld 10) (BridgeSecurity.freshState 10) (sent.map (·.1)) ∧
      (∀ t ∈ sent.map (·.1), ∃ r : Relay, r.transfer = t ∧
        Endorsed namedSignerCrypto 10 200 (BridgeSecurity.freshState 10) r) ∧
      ¬ Deliverable namedSignerCrypto 10 (freshWorld 10) (BridgeSecurity.freshState 10)
        (sent.map (·.1)) := by
  intro sent
  have hSent : sent.map (·.1) = [transferOf 4 60 1, transferOf 3 50 1] := by
    show (World.transfersBetween _ 1 10).map _ = _
    rw [firstTransfersRun_transfers]
    rfl
  rw [hSent]
  have hFour := relayOf_endorsed (t := transferOf 4 60 1) (by decide +kernel)
  have hThree := relayOf_endorsed (t := transferOf 3 50 1) (by decide +kernel)
  refine ⟨freshWorld_ready (by norm_num [transferOf, FtnsToken.maxSupply]), ?_, ?_⟩
  · intro t hMem
    simp only [List.mem_cons, List.not_mem_nil, or_false] at hMem
    rcases hMem with rfl | rfl
    · exact ⟨_, rfl, hFour⟩
    · exact ⟨_, rfl, hThree⟩
  · intro hDeliverable
    obtain ⟨w', hAll, -⟩ := hDeliverable
      [relayOf (transferOf 4 60 1), relayOf (transferOf 3 50 1)] (List.Perm.refl _)
      (by
        intro r hMem
        simp only [List.mem_cons, List.not_mem_nil, or_false] at hMem
        rcases hMem with rfl | rfl
        · exact hFour
        · exact hThree)
    have hRefused : (deliverAll namedSignerCrypto (freshWorld 10)
        [relayOf (transferOf 4 60 1), relayOf (transferOf 3 50 1)]).isSome = false := by
      decide +kernel
    rw [hAll] at hRefused
    cases hRefused

/-- The user `3` has sent to another chain before, so that the numbers differ. -/
def differentNumbersRun : List Input := [sendTo 137 3 40, sendTo 10 3 50, sendTo 10 4 60]

theorem differentNumbersRun_transfers :
    ((machine namedSignerCrypto).run (freshWorld 1) differentNumbersRun).transfersBetween 1 10 =
      [(transferOf 4 60 1, 1), (transferOf 3 50 2, 2)] := by
  decide +kernel

theorem outbound_deliverable_differentNumbersRun :
    Deliverable namedSignerCrypto 10 (freshWorld 10) (BridgeSecurity.freshState 10)
      [transferOf 4 60 1, transferOf 3 50 2] := by
  have hIff := outbound_deliverable_iff (freshDeployment 1) differentNumbersRun 1 10
    (freshWorld 10) (BridgeSecurity.freshState 10)
  have hSent := differentNumbersRun_transfers
  simp only [freshWorld] at hSent hIff
  rw [hSent] at hIff
  refine (hIff (freshWorld_ready (by norm_num [transferOf, FtnsToken.maxSupply])) ?_ ?_).mpr
    ⟨?_, ?_⟩
  · intro t hMem
    simp only [List.map_cons, List.map_nil, List.mem_cons, List.not_mem_nil, or_false] at hMem
    rcases hMem with rfl | rfl
    · exact ⟨_, rfl, relayOf_endorsed (by decide +kernel)⟩
    · exact ⟨_, rfl, relayOf_endorsed (by decide +kernel)⟩
  · show ∀ x ∈ _, ∀ y ∈ _, _ → x = y
    decide +kernel
  · unfold CarrySomething
    decide +kernel
  · unfold NumbersDiffer
    decide +kernel

end Prsm.Bridge
