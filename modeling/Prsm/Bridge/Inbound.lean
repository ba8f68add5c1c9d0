import Prsm.Bridge.Outbound

/-!
# Delivering a list of transfers

Relayers take announced transfers to the bridge of the destination, each with the
signatures of the validators there.  A list of them can be delivered when the bridge is
ready for all of them and no two have the same nonce, identifier or hash.
-/

namespace Prsm.Bridge

open Foundations Evm
open BridgeSecurity (BridgeMessage ValidatorSignature hashBridgeMessage signers malformedSigners)

/-- A transfer with the call of `bridgeIn` that is to deliver it. -/
structure Relay where
  transfer : Transfer
  env : Env
  signatures : List ValidatorSignature

def Relay.input (r : Relay) : Input :=
  .bridgeIn r.env r.transfer.message r.signatures

/-- One delivery after the other, none of which may be refused. -/
def deliverAll (crypto : Crypto) : World → List Relay → Option World
  | w, [] => some w
  | w, r :: rest =>
      match step crypto w r.input with
      | some w' => deliverAll crypto w' rest
      | none => none

/-- The hash that validators sign for a transfer to the chain `dest`, where the bridge is
at `bridge`. -/
def Transfer.messageHash (crypto : Crypto) (dest : Uint 256) (bridge : Address)
    (security : BridgeSecurity.State) (t : Transfer) : Bytes32 :=
  hashBridgeMessage crypto ⟨dest, bridge⟩ security t.message

/-- Enough validators have signed the transfer, and all their entries can be recovered. -/
structure Endorsed (crypto : Crypto) (dest : Uint 256) (bridge : Address)
    (security : BridgeSecurity.State) (r : Relay) : Prop where
  chain_eq : r.env.chainId = dest
  recovers : malformedSigners crypto security
    (r.transfer.messageHash crypto dest bridge security) r.signatures = ∅
  enough : security.signatureThreshold ≤
    (signers crypto security (r.transfer.messageHash crypto dest bridge security)
      r.signatures).card

/-- A bridge that can take in the transfers from `source` one by one: it is not paused,
knows the chain, may mint, has room for the sum, and has seen none of them. -/
structure Ready (crypto : Crypto) (dest source : Uint 256) (w : World)
    (security : BridgeSecurity.State) (transfers : List Transfer) : Prop where
  security_eq : w.security = some security
  running : w.bridge.paused = false
  supported : w.bridge.supportedChains source = true
  token_running : w.token.paused = false
  minter : w.token.hasRole .minter w.bridge.self = true
  room : w.token.totalSupply + (transfers.map (·.amount)).sum ≤ FtnsToken.maxSupply
  total_lt : w.bridge.totalBridgedIn + (transfers.map (·.amount)).sum < 2 ^ 256
  new_id : ∀ t ∈ transfers, w.bridge.processedSourceTx t.transactionId = false
  new_nonce : ∀ t ∈ transfers, security.usedNonces source t.message.nonce = false
  new_hash : ∀ t ∈ transfers,
    security.processedBridgeTx (t.messageHash crypto dest w.bridge.self security) = false

/-- Two transfers that the destination can tell apart in all three ways. -/
structure Apart (crypto : Crypto) (dest : Uint 256) (bridge : Address)
    (security : BridgeSecurity.State) (t t' : Transfer) : Prop where
  id_ne : t.transactionId ≠ t'.transactionId
  nonce_ne : t.message.nonce ≠ t'.message.nonce
  hash_ne : t.messageHash crypto dest bridge security ≠ t'.messageHash crypto dest bridge security

/-! ## One delivery -/

/-- The world after the delivery of `m`, which `security` has verified. -/
def World.afterDelivery (w : World) (security : BridgeSecurity.State) (messageHash : Bytes32)
    (m : BridgeMessage) : World :=
  { w with
    bridge := { w.bridge with
      processedSourceTx := Function.update w.bridge.processedSourceTx m.sourceTxId true
      totalBridgedIn := w.bridge.totalBridgedIn + m.amount }
    securities := Function.update w.securities w.bridge.bridgeSecurity
      (some (security.consume messageHash m))
    token := w.token.minted m.recipient m.amount
    delivered :=
      ⟨w.bridge.bridgeSecurity, messageHash, m, w.token.ledger.balanceOf m.recipient,
        (w.token.minted m.recipient m.amount).ledger.balanceOf m.recipient⟩ :: w.delivered }

section One

variable {crypto : Crypto} {dest source : Uint 256} {w w' : World}
  {security : BridgeSecurity.State} {r : Relay} {rest : List Transfer}

theorem deliver_eq_some {env : Env} {m : BridgeMessage} {signatures : List ValidatorSignature}
    (h : step crypto w (.bridgeIn env m signatures) = some w') :
    ∃ security messageHash, w.security = some security ∧ m.amount ≠ 0 ∧
      w.bridge.processedSourceTx m.sourceTxId = false ∧
      security.usedNonces m.sourceChainId m.nonce = false ∧
      w'.security = some (security.consume messageHash m) ∧
      w'.bridge.processedSourceTx =
        Function.update w.bridge.processedSourceTx m.sourceTxId true := by
  cases accepted_of_step h with
  | @bridgeIn _ _ _ security security' s t events hSecurity hCall =>
      obtain ⟨hAddress, hCountable, hConsumed, -⟩ := bridgeIn_eq_ok hCall
      simp only [bridgeIn, bind_eq_ok_iff, require_eq_ok_iff, pure_eq_ok_iff,
        Prod.mk.injEq] at hCall
      obtain ⟨-, -, -, -, -, hAmount, -, -, -, hNew, result, -, -, -, minted, -, total, -, rfl,
        -⟩ := hCall
      refine ⟨security, hashBridgeMessage crypto (env.callSecurity w.bridge) security m, hSecurity,
        hAmount, hNew, hCountable.unused, ?_, rfl⟩
      simp only [World.security, Function.update_self, hConsumed]

theorem deliver_refused {env : Env} {m : BridgeMessage} {signatures : List ValidatorSignature}
    (hProcessed : w.bridge.processedSourceTx m.sourceTxId = true) :
    step crypto w (.bridgeIn env m signatures) = none := by
  cases hStep : step crypto w (.bridgeIn env m signatures) with
  | none => rfl
  | some w' =>
      obtain ⟨-, -, -, -, hNew, -⟩ := deliver_eq_some hStep
      rw [hProcessed] at hNew
      cases hNew

theorem deliver_of_ready (hReady : Ready crypto dest source w security (r.transfer :: rest))
    (hEndorsed : Endorsed crypto dest w.bridge.self security r)
    (hTransfer : r.transfer.WellFormed crypto) (hAmount : 0 < r.transfer.amount)
    (hSource : r.transfer.sourceChain = source) :
    step crypto w r.input = some (w.afterDelivery security
      (r.transfer.messageHash crypto dest w.bridge.self security) r.transfer.message) := by
  have hEnv : r.env.callSecurity w.bridge = ⟨dest, w.bridge.self⟩ := by
    rw [Env.callSecurity, hEndorsed.chain_eq]
  have hEnough : security.signatureThreshold ≤ r.signatures.length := by
    have hCard : (signers crypto security
        (r.transfer.messageHash crypto dest w.bridge.self security) r.signatures).card ≤
          (BridgeSecurity.verdicts crypto
            (r.transfer.messageHash crypto dest w.bridge.self security) r.signatures).length :=
      card_keysDecided_le
    rw [BridgeSecurity.verdicts, List.length_map] at hCard
    exact hEndorsed.enough.trans hCard
  -- The checks against replay.
  have hUnused := hReady.new_nonce _ List.mem_cons_self
  rw [← hSource] at hUnused
  have hCountable : BridgeSecurity.Countable crypto ⟨dest, w.bridge.self⟩ security
      r.transfer.message r.signatures :=
    ⟨hReady.new_hash _ List.mem_cons_self, hUnused, hEnough⟩
  obtain ⟨count, hCard⟩ : ∃ count, count = (signers crypto security
      (r.transfer.messageHash crypto dest w.bridge.self security) r.signatures).card := ⟨_, rfl⟩
  have hThreshold := hEndorsed.enough
  rw [← hCard] at hThreshold
  obtain ⟨events, hCount⟩ := BridgeSecurity.countBridgeSignatures_iff.mpr
    ⟨hCountable, hEndorsed.recovers, hCard⟩
  obtain ⟨hVerify, -⟩ := BridgeSecurity.verifyBridgeSignatures_accepts_iff.mpr
    ⟨count, events, hCount, hThreshold, rfl⟩
  -- Then the mint, for which there is room.
  have hValue := hTransfer.message_amount
  have hRoom := hReady.room
  have hTotal := hReady.total_lt
  simp only [List.map_cons, List.sum_cons] at hRoom hTotal
  have hMint : FtnsToken.mintReward w.bridge.self w.token r.transfer.message.recipient
      r.transfer.message.amount =
        .ok (w.token.minted r.transfer.message.recipient r.transfer.message.amount) := by
    refine FtnsToken.mintReward_eq_ok_iff.mpr
      ⟨hReady.minter, ?_, hTransfer.user_ne_zero, hReady.token_running, rfl⟩
    rw [hValue]
    omega
  have hNonzero : r.transfer.message.amount ≠ 0 := by
    intro hZero
    rw [hZero] at hValue
    exact absurd hValue (by simp; omega)
  have hSupported := hReady.supported
  rw [← hSource] at hSupported
  rw [← hEnv] at hVerify
  obtain ⟨emitted, hCall⟩ := bridgeIn_of_verified hReady.running hTransfer.user_ne_zero hNonzero
    hSupported (hReady.new_id _ List.mem_cons_self) hVerify rfl hMint
    (by rw [hValue]; omega)
  simp only [Relay.input, step, hReady.security_eq]
  rw [hCall, hEnv]
  rfl

theorem ready_after (hReady : Ready crypto dest source w security (r.transfer :: rest))
    (hTransfer : r.transfer.WellFormed crypto) (hSource : r.transfer.sourceChain = source)
    (hApart : ∀ t ∈ rest, Apart crypto dest w.bridge.self security r.transfer t) :
    Ready crypto dest source
      (w.afterDelivery security (r.transfer.messageHash crypto dest w.bridge.self security)
        r.transfer.message)
      (security.consume (r.transfer.messageHash crypto dest w.bridge.self security)
        r.transfer.message) rest := by
  have hValue := hTransfer.message_amount
  have hRoom := hReady.room
  have hTotal := hReady.total_lt
  simp only [List.map_cons, List.sum_cons] at hRoom hTotal
  refine ⟨?_, hReady.running, hReady.supported, hReady.token_running, hReady.minter, ?_, ?_, ?_,
    ?_, ?_⟩
  · simp only [World.security, World.afterDelivery, Function.update_self]
  · show w.token.totalSupply + r.transfer.message.amount.val + _ ≤ _
    omega
  · show w.bridge.totalBridgedIn + r.transfer.message.amount.val + _ < _
    omega
  · intro t hMem
    show Function.update w.bridge.processedSourceTx r.transfer.transactionId true
      t.transactionId = false
    rw [Function.update_of_ne (hApart t hMem).id_ne.symm]
    exact hReady.new_id t (List.mem_cons_of_mem _ hMem)
  · intro t hMem
    show Function.update security.usedNonces r.transfer.sourceChain (Function.update
      (security.usedNonces r.transfer.sourceChain) r.transfer.message.nonce true) source
        t.message.nonce = false
    rw [hSource, Function.update_self, Function.update_of_ne (hApart t hMem).nonce_ne.symm]
    exact hReady.new_nonce t (List.mem_cons_of_mem _ hMem)
  · intro t hMem
    show Function.update security.processedBridgeTx
      (r.transfer.messageHash crypto dest w.bridge.self security) true
        (t.messageHash crypto dest w.bridge.self security) = false
    rw [Function.update_of_ne (hApart t hMem).hash_ne.symm]
    exact hReady.new_hash t (List.mem_cons_of_mem _ hMem)

end One

/-! ## All of them -/

section All

variable {crypto : Crypto} {dest source : Uint 256} {w w' : World}
  {security : BridgeSecurity.State} {rs : List Relay}

theorem deliverAll_processed_mono (h : deliverAll crypto w rs = some w') {id : Bytes32}
    (hProcessed : w.bridge.processedSourceTx id = true) :
    w'.bridge.processedSourceTx id = true := by
  induction rs generalizing w with
  | nil => exact Option.some.inj h ▸ hProcessed
  | cons r rest ih =>
      simp only [deliverAll] at h
      split at h
      case h_2 => cases h
      case h_1 next hStep =>
        obtain ⟨-, -, -, -, -, -, -, hMarked⟩ := deliver_eq_some hStep
        refine ih h ?_
        rw [hMarked]
        by_cases hSame : id = r.transfer.message.sourceTxId
        · rw [hSame, Function.update_self]
        · rw [Function.update_of_ne hSame, hProcessed]

theorem deliverAll_processed (h : deliverAll crypto w rs = some w') {r : Relay} (hMem : r ∈ rs) :
    w'.bridge.processedSourceTx r.transfer.message.sourceTxId = true := by
  induction rs generalizing w with
  | nil => exact absurd hMem List.not_mem_nil
  | cons first rest ih =>
      simp only [deliverAll] at h
      split at h
      case h_2 => cases h
      case h_1 next hStep =>
        rcases List.mem_cons.mp hMem with rfl | hLater
        · obtain ⟨-, -, -, -, -, -, -, hMarked⟩ := deliver_eq_some hStep
          refine deliverAll_processed_mono h ?_
          rw [hMarked, Function.update_self]
        · exact ih h hLater

theorem deliverAll_of_ready
    (hReady : Ready crypto dest source w security (rs.map (·.transfer)))
    (hEndorsed : ∀ r ∈ rs, Endorsed crypto dest w.bridge.self security r)
    (hTransfers : ∀ r ∈ rs, r.transfer.WellFormed crypto ∧ 0 < r.transfer.amount ∧
      r.transfer.sourceChain = source)
    (hApart : (rs.map (·.transfer)).Pairwise (Apart crypto dest w.bridge.self security)) :
    ∃ w', deliverAll crypto w rs = some w' := by
  induction rs generalizing w security with
  | nil => exact ⟨w, rfl⟩
  | cons r rest ih =>
      rw [List.map_cons] at hReady hApart
      obtain ⟨hHere, hRest⟩ := List.pairwise_cons.mp hApart
      obtain ⟨hTransfer, hAmount, hSource⟩ := hTransfers r List.mem_cons_self
      have hStep := deliver_of_ready hReady (hEndorsed r List.mem_cons_self) hTransfer hAmount
        hSource
      have hNext := ready_after hReady hTransfer hSource hHere
      simp only [deliverAll, hStep]
      -- Consuming a message changes neither the validators nor what they sign.
      exact ih hNext
        (fun later hLater =>
          let hSigned := hEndorsed later (List.mem_cons_of_mem _ hLater)
          ⟨hSigned.chain_eq, hSigned.recovers, hSigned.enough⟩)
        (fun later hLater => hTransfers later (List.mem_cons_of_mem _ hLater))
        (hRest.imp fun hPair => ⟨hPair.id_ne, hPair.nonce_ne, hPair.hash_ne⟩)

theorem deliverAll_eq_some (h : deliverAll crypto w rs = some w')
    (hSource : ∀ r ∈ rs, r.transfer.sourceChain = source) :
    (∀ r ∈ rs, r.transfer.message.amount ≠ 0) ∧
      (∀ security, w.security = some security →
        ∀ r ∈ rs, security.usedNonces source r.transfer.message.nonce = false) ∧
      rs.Pairwise fun r r' => r.transfer.message.nonce ≠ r'.transfer.message.nonce := by
  induction rs generalizing w with
  | nil =>
      exact ⟨fun _ hMem => absurd hMem List.not_mem_nil,
        fun _ _ _ hMem => absurd hMem List.not_mem_nil, List.Pairwise.nil⟩
  | cons r rest ih =>
      simp only [deliverAll] at h
      split at h
      case h_2 => cases h
      case h_1 next hStep =>
        obtain ⟨security, messageHash, hSecurity, hAmount, -, hUnused, hAfter, -⟩ :=
          deliver_eq_some hStep
        have hHere : r.transfer.message.sourceChainId = source := hSource r List.mem_cons_self
        -- The later nonces are unused after this delivery, which has used its own.
        obtain ⟨hAmounts, hFresh, hPairwise⟩ :=
          ih h fun later hLater => hSource later (List.mem_cons_of_mem _ hLater)
        have hOthers : ∀ later ∈ rest,
            later.transfer.message.nonce ≠ r.transfer.message.nonce ∧
              security.usedNonces source later.transfer.message.nonce = false := by
          intro later hLater
          have hNonce := hFresh _ hAfter later hLater
          simp only [BridgeSecurity.State.consume, hHere, Function.update_self] at hNonce
          by_cases hSame : later.transfer.message.nonce = r.transfer.message.nonce
          · rw [hSame, Function.update_self] at hNonce
            cases hNonce
          · rw [Function.update_of_ne hSame] at hNonce
            exact ⟨hSame, hNonce⟩
        refine ⟨?_, ?_, ?_⟩
        · intro some hMem
          rcases List.mem_cons.mp hMem with rfl | hLater
          · exact hAmount
          · exact hAmounts some hLater
        · intro before hBefore some hMem
          obtain rfl := Option.some.inj (hSecurity.symm.trans hBefore)
          rcases List.mem_cons.mp hMem with rfl | hLater
          · exact hHere ▸ hUnused
          · exact (hOthers some hLater).2
        · exact List.pairwise_cons.mpr
            ⟨fun later hLater => (hOthers later hLater).1.symm, hPairwise⟩

end All

end Prsm.Bridge
