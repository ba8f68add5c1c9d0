import Prsm.Bridge.World

/-!
# Consumed messages and minted amounts

A message that the security contract has marked as processed cannot be verified again, so
it should be marked only when its amount is minted.  `bridgeIn` does the two together.
But anyone may call `verifyBridgeSignatures`, and a call with enough signatures marks the
message and mints nothing.
-/

namespace Prsm.Bridge

open Foundations Evm
open BridgeSecurity (BridgeMessage ValidatorSignature hashBridgeMessage Consumes)

/-- The recipient's balance has grown by the amount. -/
def Delivery.Minted (d : Delivery) : Prop :=
  d.balanceAfter = d.balanceBefore + d.message.amount

/-- A security contract has marked as processed only messages that `bridgeIn` has
delivered, and has only used the nonces of such messages. -/
def ConsumedWereMinted (w : World) : Prop :=
  ∀ contract s, w.securities contract = some s →
    (∀ messageHash, s.processedBridgeTx messageHash = true →
      ∃ d ∈ w.delivered, d.security = contract ∧ d.messageHash = messageHash ∧ d.Minted) ∧
    ∀ sourceChain nonce, s.usedNonces sourceChain nonce = true →
      ∃ d ∈ w.delivered, d.security = contract ∧ d.message.sourceChainId = sourceChain ∧
        d.message.nonce = nonce ∧ d.Minted

/-- Nobody calls `verifyBridgeSignatures` directly with enough signers. -/
def NotTakenDirectly (crypto : Crypto) (w : World) (i : Input) : Prop :=
  ∀ env contract c s, i = .security env contract c → w.securities contract = some s →
    ¬ Consumes crypto env s c

/-! ## What a step does to the records -/

variable {crypto : Crypto} {w w' : World} {i : Input}

/-- The records of the security contracts are those of before. -/
def SameRecords (w w' : World) : Prop :=
  ∀ contract, (w'.securities contract).map (fun s => (s.processedBridgeTx, s.usedNonces)) =
    (w.securities contract).map fun s => (s.processedBridgeTx, s.usedNonces)

/-- A contract that had not used the message or its nonce has now. -/
structure Consumed (w w' : World) (contract : Address) (messageHash : Bytes32)
    (m : BridgeMessage) : Prop where
  consumed : ∃ s, w.securities contract = some s ∧ s.processedBridgeTx messageHash = false ∧
    s.usedNonces m.sourceChainId m.nonce = false ∧
    w'.securities = Function.update w.securities contract (some (s.consume messageHash m))

/-- The three things that a step can do to what is used and what is delivered. -/
inductive RecordChange (crypto : Crypto) (w : World) (i : Input) (w' : World) : Prop
  | unchanged (hAllowed : NotTakenDirectly crypto w i) (hRecords : SameRecords w w')
      (hDelivered : w'.delivered = w.delivered)
  | taken (hTaken : ¬ NotTakenDirectly crypto w i) (contract : Address) (messageHash : Bytes32)
      (m : BridgeMessage) (hConsumed : Consumed w w' contract messageHash m)
      (hDelivered : w'.delivered = w.delivered)
  | delivered (hAllowed : NotTakenDirectly crypto w i) (d : Delivery) (hMinted : d.Minted)
      (hConsumed : Consumed w w' d.security d.messageHash d.message)
      (hDelivered : w'.delivered = d :: w.delivered)

theorem SameRecords.of_eq (h : w'.securities = w.securities) : SameRecords w w' :=
  fun contract => by rw [h]

theorem SameRecords.before (h : SameRecords w w') {contract : Address}
    {s' : BridgeSecurity.State} (hSecurity : w'.securities contract = some s') :
    ∃ s, w.securities contract = some s ∧ s'.processedBridgeTx = s.processedBridgeTx ∧
      s'.usedNonces = s.usedNonces := by
  have hMap := h contract
  rw [hSecurity, Option.map_some, eq_comm, Option.map_eq_some_iff] at hMap
  obtain ⟨s, hBefore, hSame⟩ := hMap
  obtain ⟨hProcessed, hNonces⟩ := Prod.mk.inj hSame
  exact ⟨s, hBefore, hProcessed.symm, hNonces.symm⟩

theorem SameRecords.symm (h : SameRecords w w') : SameRecords w' w :=
  fun contract => (h contract).symm

theorem step_recordChange (h : step crypto w i = some w') : RecordChange crypto w i w' := by
  cases accepted_of_step h with
  | bridgeOut =>
      exact .unchanged (fun _ _ _ _ hInput => nomatch hInput) (SameRecords.of_eq rfl) rfl
  | @bridgeIn env m signatures security security' s t events hSecurity hCall =>
      obtain ⟨-, hCountable, rfl, hMint⟩ := bridgeIn_eq_ok hCall
      obtain ⟨-, -, -, -, rfl⟩ := FtnsToken.mintReward_eq_ok_iff.mp hMint
      refine .delivered (fun _ _ _ _ hInput => nomatch hInput)
        ⟨w.bridge.bridgeSecurity,
          hashBridgeMessage crypto (env.callSecurity w.bridge) security m, m, _, _⟩ ?_
        ⟨security, hSecurity, hCountable.unprocessed, hCountable.unused, rfl⟩ rfl
      exact FtnsToken.minted_balanceOf w.token m.recipient m.amount
  | admin =>
      exact .unchanged (fun _ _ _ _ hInput => nomatch hInput) (SameRecords.of_eq rfl) rfl
  | @security env contract c security security' events hSecurity hCall =>
      -- A direct call: either it leaves the records alone, or it takes a message.
      rcases BridgeSecurity.call_records hCall with
        ⟨hSafe, hProcessed, hNonces⟩ | ⟨hConsumes, m, signatures, rfl, hCountable, rfl⟩
      · refine .unchanged ?_ ?_ rfl
        · rintro _ _ _ s ⟨rfl, rfl, rfl⟩ hSame
          obtain rfl := Option.some.inj (hSecurity.symm.trans hSame)
          exact hSafe
        · intro other
          by_cases hOther : other = contract
          · subst hOther
            simp [hSecurity, hProcessed, hNonces]
          · simp [hOther]
      · refine .taken (fun hAllowed => ?_) contract _ m
          ⟨security, hSecurity, hCountable.unprocessed, hCountable.unused, rfl⟩ rfl
        exact hAllowed env contract _ security rfl hSecurity hConsumes
  | token =>
      exact .unchanged (fun _ _ _ _ hInput => nomatch hInput) (SameRecords.of_eq rfl) rfl

/-- What has been delivered is marked as processed. -/
def DeliveredAreProcessed (w : World) : Prop :=
  ∀ d ∈ w.delivered, ∃ s, w.securities d.security = some s ∧
    s.processedBridgeTx d.messageHash = true

section Consumed

variable {contract : Address} {messageHash : Bytes32} {m : BridgeMessage}

theorem Consumed.processed_mono (h : Consumed w w' contract messageHash m) {other : Address}
    {otherHash : Bytes32} {s : BridgeSecurity.State} (hSecurity : w.securities other = some s)
    (hProcessed : s.processedBridgeTx otherHash = true) :
    ∃ s', w'.securities other = some s' ∧ s'.processedBridgeTx otherHash = true := by
  obtain ⟨before, hBefore, -, -, hAfter⟩ := h.consumed
  by_cases hOther : other = contract
  · subst hOther
    obtain rfl := Option.some.inj (hBefore.symm.trans hSecurity)
    refine ⟨before.consume messageHash m, by rw [hAfter, Function.update_self], ?_⟩
    by_cases hHash : otherHash = messageHash
    · simp [BridgeSecurity.State.consume, hHash]
    · simp [BridgeSecurity.State.consume, hHash, hProcessed]
  · exact ⟨s, by rw [hAfter, Function.update_of_ne hOther, hSecurity], hProcessed⟩

theorem Consumed.processed (h : Consumed w w' contract messageHash m) :
    ∃ s', w'.securities contract = some s' ∧ s'.processedBridgeTx messageHash = true := by
  obtain ⟨before, -, -, -, hAfter⟩ := h.consumed
  exact ⟨before.consume messageHash m, by rw [hAfter, Function.update_self],
    by simp [BridgeSecurity.State.consume]⟩

theorem Consumed.not_delivered (h : Consumed w w' contract messageHash m)
    (hInv : DeliveredAreProcessed w) {d : Delivery} (hMem : d ∈ w.delivered)
    (hContract : d.security = contract) : d.messageHash ≠ messageHash := by
  rintro rfl
  obtain ⟨before, hBefore, hFresh, -, -⟩ := h.consumed
  obtain ⟨s, hSecurity, hProcessed⟩ := hInv d hMem
  rw [hContract] at hSecurity
  obtain rfl := Option.some.inj (hBefore.symm.trans hSecurity)
  rw [hFresh] at hProcessed
  cases hProcessed

theorem Consumed.records_after (h : Consumed w w' contract messageHash m) {other : Address}
    {s' : BridgeSecurity.State} (hSecurity : w'.securities other = some s') :
    ∃ s, w.securities other = some s ∧
      (∀ otherHash, s'.processedBridgeTx otherHash = true →
        s.processedBridgeTx otherHash = true ∨ (other = contract ∧ otherHash = messageHash)) ∧
      ∀ sourceChain nonce, s'.usedNonces sourceChain nonce = true →
        s.usedNonces sourceChain nonce = true ∨
          (other = contract ∧ sourceChain = m.sourceChainId ∧ nonce = m.nonce) := by
  obtain ⟨before, hBefore, -, -, hAfter⟩ := h.consumed
  rw [hAfter] at hSecurity
  by_cases hOther : other = contract
  · subst hOther
    rw [Function.update_self] at hSecurity
    obtain rfl := Option.some.inj hSecurity
    refine ⟨before, hBefore, ?_, ?_⟩
    · intro otherHash hProcessed
      by_cases hHash : otherHash = messageHash
      · exact .inr ⟨rfl, hHash⟩
      · simp only [BridgeSecurity.State.consume, Function.update_of_ne hHash] at hProcessed
        exact .inl hProcessed
    · intro sourceChain nonce hUsed
      simp only [BridgeSecurity.State.consume] at hUsed
      by_cases hChain : sourceChain = m.sourceChainId
      · subst hChain
        rw [Function.update_self] at hUsed
        by_cases hNonce : nonce = m.nonce
        · exact .inr ⟨rfl, rfl, hNonce⟩
        · rw [Function.update_of_ne hNonce] at hUsed
          exact .inl hUsed
      · rw [Function.update_of_ne hChain] at hUsed
        exact .inl hUsed
  · rw [Function.update_of_ne hOther] at hSecurity
    exact ⟨s', hSecurity, fun _ => .inl, fun _ _ => .inl⟩

end Consumed

theorem DeliveredAreProcessed.step (hInv : DeliveredAreProcessed w)
    (h : step crypto w i = some w') : DeliveredAreProcessed w' := by
  intro d hMem
  cases step_recordChange h with
  | unchanged hAllowed hRecords hDelivered =>
      rw [hDelivered] at hMem
      obtain ⟨s, hSecurity, hProcessed⟩ := hInv d hMem
      obtain ⟨s', hAfter, hSame, -⟩ := hRecords.symm.before hSecurity
      exact ⟨s', hAfter, by rw [← hSame]; exact hProcessed⟩
  | taken hTaken contract messageHash m hConsumed hDelivered =>
      rw [hDelivered] at hMem
      obtain ⟨s, hSecurity, hProcessed⟩ := hInv d hMem
      exact hConsumed.processed_mono hSecurity hProcessed
  | delivered hAllowed latest hMinted hConsumed hDelivered =>
      rw [hDelivered, List.mem_cons] at hMem
      rcases hMem with rfl | hMem
      · exact hConsumed.processed
      · obtain ⟨s, hSecurity, hProcessed⟩ := hInv d hMem
        exact hConsumed.processed_mono hSecurity hProcessed

theorem consumedWereMinted_step_iff (hInv : DeliveredAreProcessed w) (hP : ConsumedWereMinted w)
    (h : step crypto w i = some w') : ConsumedWereMinted w' ↔ NotTakenDirectly crypto w i := by
  cases step_recordChange h with
  | unchanged hAllowed hRecords hDelivered =>
      refine ⟨fun _ => hAllowed, fun _ contract s' hSecurity => ?_⟩
      obtain ⟨s, hBefore, hProcessed, hNonces⟩ := hRecords.before hSecurity
      rw [hProcessed, hNonces, hDelivered]
      exact hP contract s hBefore
  | taken hTaken contract messageHash m hConsumed hDelivered =>
      refine ⟨fun hKept => ?_, fun hAllowed => absurd hAllowed hTaken⟩
      obtain ⟨s', hSecurity, hProcessed⟩ := hConsumed.processed
      -- The message taken would have to be delivered already, when it was still fresh.
      obtain ⟨d, hMem, hContract, hHash, -⟩ := (hKept contract s' hSecurity).1 _ hProcessed
      rw [hDelivered] at hMem
      exact absurd hHash (hConsumed.not_delivered hInv hMem hContract)
  | delivered hAllowed latest hMinted hConsumed hDelivered =>
      refine ⟨fun _ => hAllowed, fun _ contract s' hSecurity => ?_⟩
      obtain ⟨s, hBefore, hProcessed, hNonces⟩ := hConsumed.records_after hSecurity
      obtain ⟨hOldProcessed, hOldNonces⟩ := hP contract s hBefore
      rw [hDelivered]
      constructor
      · intro messageHash hAfter
        rcases hProcessed messageHash hAfter with hOld | ⟨rfl, rfl⟩
        · obtain ⟨d, hMem, hRest⟩ := hOldProcessed messageHash hOld
          exact ⟨d, List.mem_cons_of_mem _ hMem, hRest⟩
        · exact ⟨latest, List.mem_cons_self, rfl, rfl, hMinted⟩
      · intro sourceChain nonce hAfter
        rcases hNonces sourceChain nonce hAfter with hOld | ⟨rfl, rfl, rfl⟩
        · obtain ⟨d, hMem, hRest⟩ := hOldNonces sourceChain nonce hOld
          exact ⟨d, List.mem_cons_of_mem _ hMem, hRest⟩
        · exact ⟨latest, List.mem_cons_self, rfl, rfl, rfl, hMinted⟩

theorem Deployment.consumedWereMinted (d : Deployment crypto) : ConsumedWereMinted d.world := by
  intro contract s hSecurity
  obtain ⟨env, admin, threshold, validators, hConstruct⟩ := d.initialised contract s hSecurity
  obtain ⟨hProcessed, hNonces⟩ := BridgeSecurity.construct_records hConstruct
  rw [hProcessed, hNonces]
  exact ⟨fun _ hUsed => Bool.noConfusion hUsed, fun _ _ hUsed => Bool.noConfusion hUsed⟩

/-- In a run from the deployment, every message that is marked as processed has been minted
throughout exactly when no accepted step takes a message from its security contract
directly. -/
theorem consumed_were_minted_iff (d : Deployment crypto) (inputs : List Input) :
    (machine crypto).EveryState ConsumedWereMinted d.world inputs ↔
      (machine crypto).EveryStep (NotTakenDirectly crypto) d.world inputs :=
  (machine crypto).everyState_iff_everyStep DeliveredAreProcessed ConsumedWereMinted
    (NotTakenDirectly crypto) (fun _ _ _ hInv hNext => hInv.step hNext)
    (fun _ _ _ hInv hP hNext => consumedWereMinted_step_iff hInv hP hNext)
    (fun _ hMem => absurd hMem List.not_mem_nil) d.consumedWereMinted inputs

/-! ## A run that loses a message -/

def signedMessageHash : Bytes32 :=
  hashBridgeMessage namedSignerCrypto ⟨10, 200⟩ (BridgeSecurity.freshState 10)
    BridgeSecurity.unusedMessage

def validatorSignatures : List ValidatorSignature :=
  [BridgeSecurity.signedEntry signedMessageHash 5 5]

def takeMessage : Input :=
  .security ⟨10, 666⟩ 100
    (.verifyBridgeSignatures BridgeSecurity.unusedMessage validatorSignatures)

def deliverMessage : Input :=
  .bridgeIn ⟨smallBlock 100, 10, 7⟩ BridgeSecurity.unusedMessage validatorSignatures

/-- Before the stranger's call the message can be delivered.  After it the message is
marked as processed, nothing has been minted, and the delivery is refused. -/
theorem consumed_not_minted_takenRun :
    ¬ (machine namedSignerCrypto).EveryState ConsumedWereMinted (freshDeployment 10).world
        [takeMessage] ∧
      (step namedSignerCrypto (freshDeployment 10).world deliverMessage).isSome ∧
      step namedSignerCrypto
        ((machine namedSignerCrypto).run (freshDeployment 10).world [takeMessage]) deliverMessage =
          none := by
  refine ⟨fun hKept => ?_, by decide +kernel, ?_⟩
  · have hProcessed : (((machine namedSignerCrypto).run (freshDeployment 10).world
        [takeMessage]).securities 100).map (·.processedBridgeTx signedMessageHash) =
          some true := by decide +kernel
    have hNothing : ((machine namedSignerCrypto).run (freshDeployment 10).world
        [takeMessage]).delivered.length = 0 := by decide +kernel
    obtain ⟨s, hSecurity, hHere⟩ := Option.map_eq_some_iff.mp hProcessed
    obtain ⟨d, hMem, -⟩ := (hKept.last 100 s hSecurity).1 signedMessageHash hHere
    rw [List.length_eq_zero_iff.mp hNothing] at hMem
    exact absurd hMem List.not_mem_nil
  · rw [← Option.isNone_iff_eq_none]
    decide +kernel

end Prsm.Bridge
