import Prsm.Bridge.World

/-!
# The transfers that a bridge has announced

Every call of `bridgeOut` carries a nonce: the number of the transfer among those of its
user, counted from the deployment.  `sentWellFormed_run` has this and what else a transfer
is known by, for every run.
-/

namespace Prsm.Bridge

open Foundations Evm
open BridgeSecurity (BridgeMessage ValidatorSignature)

/-- What the identifier of a transfer is the hash of. -/
def Transfer.preimage (t : Transfer) : Bytes :=
  transferPreimage t.user t.gross t.destinationChain t.nonce t.timestamp t.sourceChain

/-- The message that validators sign on the destination: the fields of the event. -/
def Transfer.message (t : Transfer) : BridgeMessage :=
  ⟨t.user, Fin.ofNat _ t.amount, t.sourceChain, t.transactionId, Fin.ofNat _ t.nonce⟩

/-- What holds of every transfer by itself. -/
structure Transfer.WellFormed (crypto : Crypto) (t : Transfer) : Prop where
  user_ne_zero : t.user ≠ 0
  gross_lt : t.gross < 2 ^ 256
  nonce_lt : t.nonce < 2 ^ 256
  fee_le : t.gross * t.feeBps / 10000 ≤ t.gross
  amount_eq : t.amount = t.gross - t.gross * t.feeBps / 10000
  transactionId_eq : t.transactionId = crypto.keccak256 t.preimage

/-- The transfers with their numbers among those of their users. -/
def World.numberedTransfers (w : World) : List (Transfer × Nat) :=
  numbered Transfer.user w.sent

/-- What holds of the transfers of a run. -/
structure SentWellFormed (crypto : Crypto) (w : World) : Prop where
  transfers : ∀ t ∈ w.sent, t.WellFormed crypto
  numbers : ∀ t k, (t, k) ∈ w.numberedTransfers → t.nonce = k
  counters : ∀ user, w.bridge.userBridgeOutNonce user = w.sent.countP fun t => t.user = user

section Transfer

variable {crypto : Crypto} {t : Transfer}

theorem Transfer.WellFormed.amount_lt (h : t.WellFormed crypto) : t.amount < 2 ^ 256 := by
  have hGross := h.gross_lt
  rw [h.amount_eq]
  omega

theorem Transfer.WellFormed.message_nonce (h : t.WellFormed crypto) :
    t.message.nonce.val = t.nonce :=
  Nat.mod_eq_of_lt h.nonce_lt

theorem Transfer.WellFormed.message_amount (h : t.WellFormed crypto) :
    t.message.amount.val = t.amount :=
  Nat.mod_eq_of_lt h.amount_lt

theorem Transfer.WellFormed.amount_pos_iff (h : t.WellFormed crypto) :
    0 < t.amount ↔ 0 < t.gross ∧ t.feeBps < 10000 := by
  have hFee := h.fee_le
  rw [h.amount_eq]
  constructor
  · intro hLeft
    refine ⟨by omega, ?_⟩
    -- A rate of the whole or more takes everything.
    by_contra hWhole
    have hAll : t.gross ≤ t.gross * t.feeBps / 10000 := by
      rw [Nat.le_div_iff_mul_le (by norm_num)]
      exact Nat.mul_le_mul_left _ (by omega)
    omega
  · rintro ⟨hGross, hRate⟩
    have hPart : t.gross * t.feeBps / 10000 < t.gross := by
      rw [Nat.div_lt_iff_lt_mul (by norm_num)]
      exact Nat.mul_lt_mul_of_pos_left hRate hGross
    omega

end Transfer

/-- What the contract has counted, and the transactions that it has marked. -/
structure Books where
  nonces : Address → Nat
  processed : Bytes32 → Bool
  outbound : Nat
  inbound : Nat
  fees : Nat

def State.books (s : State) : Books :=
  ⟨s.userBridgeOutNonce, s.processedSourceTx, s.totalBridgedOut, s.totalBridgedIn,
    s.totalFeesCollected⟩

section Calls

variable {crypto : Crypto} {env : Env} {s s' : State} {security security' : BridgeSecurity.State}
  {t t' : FtnsToken.State} {events : List Event}

theorem bridgeOut_eq_ok {amount destinationChain : Uint 256}
    (h : bridgeOut crypto env s security t amount destinationChain = .ok (s', t', events)) :
    ∃ messageHash, env.sender ≠ 0 ∧ amount.val * s.bridgeFeeBps / 10000 ≤ amount ∧
      s.userBridgeOutNonce env.sender + 1 < 2 ^ 256 ∧
      s'.userBridgeOutNonce = Function.update s.userBridgeOutNonce env.sender
        (s.userBridgeOutNonce env.sender + 1) ∧
      events = [.bridgeOut env.sender (amount - amount.val * s.bridgeFeeBps / 10000)
        (amount.val * s.bridgeFeeBps / 10000) destinationChain
        (s.userBridgeOutNonce env.sender + 1)
        (crypto.keccak256 (transferPreimage env.sender amount destinationChain
          (s.userBridgeOutNonce env.sender + 1) env.timestamp env.chainId)) messageHash] := by
  simp only [bridgeOut, bind_eq_ok_iff, raise_eq_ok_iff, checkedMul_eq_ok_iff,
    checkedSub_eq_ok_iff, checkedAdd_eq_ok_iff, pure_eq_ok_iff, Prod.mk.injEq] at h
  obtain ⟨-, -, -, -, -, -, -, -, -, -, -, -, product, ⟨-, rfl⟩, left, ⟨hFee, rfl⟩, nonce,
    ⟨hNonce, rfl⟩, moved, hMove, burnt, -, ⟨paid, fees⟩, -, total, -, rfl, -, rfl⟩ := h
  refine ⟨_, ?_, hFee, hNonce, rfl, rfl⟩
  -- The token refuses to move anything from the zero address.
  simp only [FtnsToken.transferFrom, FtnsToken.move, bind_eq_ok_iff, require_eq_ok_iff] at hMove
  obtain ⟨spent, -, -, hSender, -⟩ := hMove
  exact hSender

theorem adminCall_books {c : AdminCall} (h : adminCall env s c = .ok (s', events)) :
    s'.books = s.books := by
  cases c with
  | setChainSupport chainId supported =>
      simp only [adminCall, setChainSupport, bind_eq_ok_iff, pure_eq_ok_iff, Prod.mk.injEq] at h
      obtain ⟨-, -, rfl, -⟩ := h
      rfl
  | setBridgeLimits minBridgeAmount maxBridgeAmount =>
      simp only [adminCall, setBridgeLimits, bind_eq_ok_iff, pure_eq_ok_iff, Prod.mk.injEq] at h
      obtain ⟨-, -, -, -, rfl, -⟩ := h
      rfl
  | setBridgeFee bridgeFeeBps feeRecipient =>
      simp only [adminCall, setBridgeFee, bind_eq_ok_iff, pure_eq_ok_iff, Prod.mk.injEq] at h
      obtain ⟨-, -, -, -, -, -, rfl, -⟩ := h
      rfl
  | setBridgeSecurity bridgeSecurity =>
      simp only [adminCall, setBridgeSecurity, bind_eq_ok_iff, pure_eq_ok_iff,
        Prod.mk.injEq] at h
      obtain ⟨-, -, -, -, rfl, -⟩ := h
      rfl
  | pause =>
      simp only [adminCall, pause, bind_eq_ok_iff, pure_eq_ok_iff, Prod.mk.injEq] at h
      obtain ⟨_, ⟨-, -, -, -, rfl⟩, rfl, -⟩ := h
      rfl
  | unpause =>
      simp only [adminCall, unpause, bind_eq_ok_iff, pure_eq_ok_iff, Prod.mk.injEq] at h
      obtain ⟨_, ⟨-, -, -, -, rfl⟩, rfl, -⟩ := h
      rfl
  | access accessCall =>
      simp only [adminCall, bind_eq_ok_iff, pure_eq_ok_iff, Prod.mk.injEq] at h
      obtain ⟨access, -, rfl, -⟩ := h
      rfl

theorem adminCall_userBridgeOutNonce {c : AdminCall} (h : adminCall env s c = .ok (s', events)) :
    s'.userBridgeOutNonce = s.userBridgeOutNonce :=
  congrArg Books.nonces (adminCall_books h)

theorem bridgeIn_userBridgeOutNonce {m : BridgeMessage} {signatures : List ValidatorSignature}
    (h : bridgeIn crypto env s security t m signatures = .ok (s', security', t', events)) :
    s'.userBridgeOutNonce = s.userBridgeOutNonce := by
  simp only [bridgeIn, bind_eq_ok_iff, pure_eq_ok_iff, Prod.mk.injEq] at h
  obtain ⟨-, -, -, -, -, -, -, -, -, -, result, -, -, -, minted, -, total, -, rfl, -⟩ := h
  rfl

end Calls

variable {crypto : Crypto} {w w' : World} {i : Input}

theorem step_sent (h : step crypto w i = some w') :
    (w'.sent = w.sent ∧ w'.bridge.userBridgeOutNonce = w.bridge.userBridgeOutNonce) ∨
    ∃ t : Transfer, w'.sent = t :: w.sent ∧ t.WellFormed crypto ∧
      t.nonce = w.bridge.userBridgeOutNonce t.user + 1 ∧
      w'.bridge.userBridgeOutNonce =
        Function.update w.bridge.userBridgeOutNonce t.user t.nonce := by
  cases accepted_of_step h with
  | @bridgeOut env amount destinationChain security s t events hSecurity hCall =>
      right
      obtain ⟨messageHash, hSender, hFee, hNonce, hCounter, rfl⟩ := bridgeOut_eq_ok hCall
      exact ⟨_, rfl, ⟨hSender, amount.isLt, hNonce, hFee, rfl, rfl⟩, rfl, hCounter⟩
  | bridgeIn hSecurity hCall => exact .inl ⟨rfl, bridgeIn_userBridgeOutNonce hCall⟩
  | admin hCall => exact .inl ⟨rfl, adminCall_userBridgeOutNonce hCall⟩
  | security => exact .inl ⟨rfl, rfl⟩
  | token => exact .inl ⟨rfl, rfl⟩

theorem SentWellFormed.step (hInv : SentWellFormed crypto w) (h : step crypto w i = some w') :
    SentWellFormed crypto w' := by
  rcases step_sent h with ⟨hSent, hCounters⟩ | ⟨t, hSent, hTransfer, hNonce, hCounters⟩
  · refine ⟨?_, ?_, ?_⟩
    · rw [hSent]
      exact hInv.transfers
    · rw [World.numberedTransfers, hSent]
      exact hInv.numbers
    · rw [hSent, hCounters]
      exact hInv.counters
  · refine ⟨?_, ?_, ?_⟩
    · rw [hSent]
      intro other hMem
      rcases List.mem_cons.mp hMem with rfl | hOlder
      · exact hTransfer
      · exact hInv.transfers other hOlder
    · intro other k hMem
      rw [World.numberedTransfers, hSent, numbered_cons, List.mem_cons] at hMem
      rcases hMem with hHere | hOlder
      · obtain ⟨rfl, rfl⟩ := Prod.mk.inj hHere
        rw [hNonce, hInv.counters]
      · exact hInv.numbers other k hOlder
    · intro user
      rw [hSent, hCounters, List.countP_cons]
      by_cases hUser : user = t.user
      · subst hUser
        rw [Function.update_self, hNonce, hInv.counters]
        simp
      · have hOther : ¬ t.user = user := fun hSame => hUser hSame.symm
        rw [Function.update_of_ne hUser, hInv.counters]
        simp [hOther]

theorem Deployment.sentWellFormed (d : Deployment crypto) : SentWellFormed crypto d.world := by
  refine ⟨fun _ hMem => absurd hMem List.not_mem_nil, fun _ _ hMem => absurd hMem List.not_mem_nil,
    fun user => ?_⟩
  have hConstructed := d.constructed
  simp only [construct, bind_eq_ok_iff, pure_eq_ok_iff] at hConstructed
  obtain ⟨-, -, hState⟩ := hConstructed
  show d.state.userBridgeOutNonce user = 0
  rw [← hState]

theorem sentWellFormed_run (d : Deployment crypto) (inputs : List Input) :
    SentWellFormed crypto ((machine crypto).run d.world inputs) :=
  (machine crypto).run_invariant (SentWellFormed crypto)
    (fun _ _ _ hInv hNext => hInv.step hNext) d.sentWellFormed inputs

end Prsm.Bridge
