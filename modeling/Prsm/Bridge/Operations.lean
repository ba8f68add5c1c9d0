import Prsm.BridgeSecurity.Operations
import Prsm.FtnsToken.Operations

/-!
# `FTNSBridge`: storage and functions

The bridge burns tokens that leave for another chain and announces the transfer in an
event.  On the other chain the validators sign what the event says, and the bridge there
mints it once the signatures have been verified.

The token and the security contract are passed through as values.  Both of the functions that
call them are guarded against re-entry, and neither callee calls back.  `security` is the
contract at the address that the bridge has stored.
-/

namespace Prsm.Bridge

open Foundations Evm
open BridgeSecurity (BridgeMessage ValidatorSignature)

inductive Role
  | defaultAdmin
  | bridgeAdmin
  | operator
  deriving DecidableEq

structure State where
  access : AccessControl Role
  paused : Bool
  /-- `address(this)`. -/
  self : Address
  /-- The address of the `BridgeSecurity` contract. -/
  bridgeSecurity : Address
  minBridgeAmount : Nat
  maxBridgeAmount : Nat
  bridgeFeeBps : Nat
  feeRecipient : Address
  supportedChains : Uint 256 → Bool
  userBridgeOutNonce : Address → Nat
  processedSourceTx : Bytes32 → Bool
  totalBridgedOut : Nat
  totalBridgedIn : Nat
  totalFeesCollected : Nat

inductive Event
  | bridgeOut (user : Address) (amount fee : Nat) (destinationChain : Uint 256) (nonce : Nat)
      (transactionId bridgeMessageHash : Bytes32)
  | bridgeIn (message : BridgeMessage) (transactionId : Bytes32)
  | chainSupportUpdated (chainId : Uint 256) (supported : Bool)
  | bridgeLimitsUpdated (minAmount maxAmount : Nat)
  | bridgeFeeUpdated (feeBps : Nat) (feeRecipient : Address)
  | bridgeSecurityUpdated (oldSecurity newSecurity : Address)
  | security (event : BridgeSecurity.Event)

inductive Error
  | platform (e : PlatformError)
  | access (e : AccessControlError Role)
  | token (e : FtnsToken.Error)
  | security (e : BridgeSecurity.Error)
  /-- A call to an address that has no code. -/
  | noCode
  | invalidAmount
  | invalidAddress
  | chainNotSupported
  | insufficientBalance
  | insufficientAllowance
  | transactionAlreadyProcessed
  | signatureVerificationFailed
  | bridgeLimitExceeded
  | bridgeLimitNotMet
  | reverted (reason : String)

/-- What one transaction sees of the world outside the contracts' storage. -/
structure Env where
  block : Block
  /-- `block.chainid`. -/
  chainId : Uint 256
  sender : Address

def Env.timestamp (env : Env) : Nat := env.block.timestamp

/-- What the security contract sees when the bridge calls it. -/
def Env.callSecurity (env : Env) (s : State) : BridgeSecurity.Env :=
  ⟨env.chainId, s.self⟩

def panic : Error := .platform .panicArithmetic

def State.whenNotPaused (s : State) : Except Error Unit :=
  raise .platform (Evm.whenNotPaused s.paused)

/-- The `onlyBridgeAdmin` modifier. -/
def State.onlyBridgeAdmin (s : State) (env : Env) : Except Error Unit :=
  require (s.access.hasRole .bridgeAdmin env.sender = true)
    (.reverted "FTNSBridge: caller is not bridge admin")

/-- The initialiser. -/
def construct (self admin ftnsToken bridgeSecurity feeRecipient : Address)
    (minBridgeAmount maxBridgeAmount bridgeFeeBps : Uint 256) : Except Error State := do
  require (¬ (admin = 0 ∨ ftnsToken = 0 ∨ bridgeSecurity = 0 ∨ feeRecipient = 0)) .invalidAddress
  pure
    { access := { hasRole := fun _ account => account = admin }
      paused := false
      self := self
      bridgeSecurity := bridgeSecurity
      minBridgeAmount := minBridgeAmount
      maxBridgeAmount := maxBridgeAmount
      bridgeFeeBps := bridgeFeeBps
      feeRecipient := feeRecipient
      supportedChains := fun chainId => [1, 137, 56, 42161, 10].contains chainId
      userBridgeOutNonce := fun _ => 0
      processedSourceTx := fun _ => false
      totalBridgedOut := 0
      totalBridgedIn := 0
      totalFeesCollected := 0 }

/-! ## Bridging out -/

/-- The preimage of the identifier of a transfer, in packed encoding. -/
def transferPreimage (user : Address) (amount : Nat) (destinationChain : Uint 256)
    (nonce timestamp : Nat) (chainId : Uint 256) : Bytes :=
  packedAddress user ++ abiWord amount ++ abiWord destinationChain ++ abiWord nonce ++
    abiWord timestamp ++ abiWord chainId

/-- The part of `bridgeOut` that pays the fee, with the new total of fees. -/
def mintFee (s : State) (t : FtnsToken.State) (fee : Nat) :
    Except Error (FtnsToken.State × Nat) :=
  if 0 < fee then do
    let t' ← raise .token (FtnsToken.mintReward s.self t s.feeRecipient fee)
    let totalFeesCollected ← checkedAdd 256 panic s.totalFeesCollected fee
    pure (t', totalFeesCollected)
  else pure (t, s.totalFeesCollected)

/-- The token never answers `false` to `transferFrom`, so the source's `TransferFailed`
cannot occur. -/
def bridgeOut (crypto : Crypto) (env : Env) (s : State) (security : BridgeSecurity.State)
    (t : FtnsToken.State) (amount destinationChain : Uint 256) :
    Except Error (State × FtnsToken.State × List Event) := do
  s.whenNotPaused
  require (s.minBridgeAmount ≤ amount.val) .bridgeLimitNotMet
  require (amount.val ≤ s.maxBridgeAmount) .bridgeLimitExceeded
  require (s.supportedChains destinationChain = true) .chainNotSupported
  require (amount.val ≤ t.ledger.balanceOf env.sender) .insufficientBalance
  require (amount.val ≤ t.ledger.allowance env.sender s.self) .insufficientAllowance
  let product ← checkedMul 256 panic amount s.bridgeFeeBps
  let fee := product / 10000
  let bridgeAmount ← checkedSub panic amount.val fee
  -- `++userBridgeOutNonce[msg.sender]`: the counter belongs to the user.
  let nonce ← checkedAdd 256 panic (s.userBridgeOutNonce env.sender) 1
  let transactionId := crypto.keccak256
    (transferPreimage env.sender amount destinationChain nonce env.timestamp env.chainId)
  let structHash := crypto.keccak256 (abiEncode
    [BridgeSecurity.bridgeMessageTypehash crypto, env.sender, bridgeAmount, env.chainId,
      transactionId, nonce])
  let bridgeMessageHash := typedDataHash crypto.keccak256
    (security.domainSeparator crypto (env.callSecurity s)) structHash
  -- The whole amount is burnt and the fee is minted anew.
  let t₁ ← raise .token (FtnsToken.transferFrom s.self t env.sender s.self amount)
  let t₂ ← raise .token (FtnsToken.burnFrom s.self t₁ s.self amount)
  let (t₃, totalFeesCollected) ← mintFee s t₂ fee
  let totalBridgedOut ← checkedAdd 256 panic s.totalBridgedOut bridgeAmount
  pure ({ s with
      userBridgeOutNonce := Function.update s.userBridgeOutNonce env.sender nonce
      totalFeesCollected := totalFeesCollected
      totalBridgedOut := totalBridgedOut },
    t₃,
    [.bridgeOut env.sender bridgeAmount fee destinationChain nonce transactionId
      bridgeMessageHash])

/-! ## Bridging in -/

def bridgeIn (crypto : Crypto) (env : Env) (s : State) (security : BridgeSecurity.State)
    (t : FtnsToken.State) (m : BridgeMessage) (signatures : List ValidatorSignature) :
    Except Error (State × BridgeSecurity.State × FtnsToken.State × List Event) := do
  s.whenNotPaused
  require (m.recipient ≠ 0) .invalidAddress
  require (m.amount ≠ 0) .invalidAmount
  require (s.supportedChains m.sourceChainId = true) .chainNotSupported
  require (s.processedSourceTx m.sourceTxId = false) .transactionAlreadyProcessed
  -- The security contract consumes the message in this call.
  let result ← raise .security
    (BridgeSecurity.verifyBridgeSignatures crypto (env.callSecurity s) security m signatures)
  require (result.isValid = true) .signatureVerificationFailed
  let t' ← raise .token (FtnsToken.mintReward s.self t m.recipient m.amount)
  let totalBridgedIn ← checkedAdd 256 panic s.totalBridgedIn m.amount
  let transactionId := crypto.keccak256 (packedAddress m.recipient ++ abiWord m.amount ++
    abiWord m.sourceChainId ++ abiWord m.sourceTxId ++ abiWord env.timestamp)
  pure ({ s with
      processedSourceTx := Function.update s.processedSourceTx m.sourceTxId true
      totalBridgedIn := totalBridgedIn },
    result.state, t', result.events.map .security ++ [.bridgeIn m transactionId])

/-- The view that asks whether `bridgeIn` would succeed. -/
def checkBridgeIn (crypto : Crypto) (env : Env) (s : State) (security : BridgeSecurity.State)
    (m : BridgeMessage) (signatures : List ValidatorSignature) : Except Error (Bool × Nat) :=
  if m.recipient = 0 ∨ m.amount = 0 then
    pure (false, 0)
  else if s.supportedChains m.sourceChainId = false then
    pure (false, 0)
  else if s.processedSourceTx m.sourceTxId = true then
    pure (false, 0)
  else
    raise .security
      (BridgeSecurity.checkBridgeSignatures crypto (env.callSecurity s) security m signatures)

/-! ## Administration -/

def setChainSupport (env : Env) (s : State) (chainId : Uint 256) (supported : Bool) :
    Except Error (State × List Event) := do
  s.onlyBridgeAdmin env
  pure ({ s with supportedChains := Function.update s.supportedChains chainId supported },
    [.chainSupportUpdated chainId supported])

def setBridgeLimits (env : Env) (s : State) (minBridgeAmount maxBridgeAmount : Uint 256) :
    Except Error (State × List Event) := do
  s.onlyBridgeAdmin env
  require (¬ (minBridgeAmount = 0 ∨ maxBridgeAmount ≤ minBridgeAmount)) .invalidAmount
  pure ({ s with minBridgeAmount := minBridgeAmount, maxBridgeAmount := maxBridgeAmount },
    [.bridgeLimitsUpdated minBridgeAmount maxBridgeAmount])

def setBridgeFee (env : Env) (s : State) (bridgeFeeBps : Uint 256) (feeRecipient : Address) :
    Except Error (State × List Event) := do
  s.onlyBridgeAdmin env
  require (bridgeFeeBps.val ≤ 1000) (.reverted "Fee cannot exceed 10%")
  require (feeRecipient ≠ 0) .invalidAddress
  pure ({ s with bridgeFeeBps := bridgeFeeBps, feeRecipient := feeRecipient },
    [.bridgeFeeUpdated bridgeFeeBps feeRecipient])

def setBridgeSecurity (env : Env) (s : State) (bridgeSecurity : Address) :
    Except Error (State × List Event) := do
  raise .access (s.access.onlyRole env.sender .defaultAdmin)
  require (bridgeSecurity ≠ 0) .invalidAddress
  pure ({ s with bridgeSecurity := bridgeSecurity },
    [.bridgeSecurityUpdated s.bridgeSecurity bridgeSecurity])

def pause (env : Env) (s : State) : Except Error State := do
  s.onlyBridgeAdmin env
  s.whenNotPaused
  pure { s with paused := true }

def unpause (env : Env) (s : State) : Except Error State := do
  s.onlyBridgeAdmin env
  raise .platform (whenPaused s.paused)
  pure { s with paused := false }

inductive AdminCall
  | setChainSupport (chainId : Uint 256) (supported : Bool)
  | setBridgeLimits (minBridgeAmount maxBridgeAmount : Uint 256)
  | setBridgeFee (bridgeFeeBps : Uint 256) (feeRecipient : Address)
  | setBridgeSecurity (bridgeSecurity : Address)
  | pause
  | unpause
  | access (call : AccessControl.Call Role)

/-- The functions that concern nothing but the bridge's own storage. -/
def adminCall (env : Env) (s : State) : AdminCall → Except Error (State × List Event)
  | .setChainSupport chainId supported => setChainSupport env s chainId supported
  | .setBridgeLimits minBridgeAmount maxBridgeAmount =>
      setBridgeLimits env s minBridgeAmount maxBridgeAmount
  | .setBridgeFee bridgeFeeBps feeRecipient => setBridgeFee env s bridgeFeeBps feeRecipient
  | .setBridgeSecurity bridgeSecurity => setBridgeSecurity env s bridgeSecurity
  | .pause => do
      let s' ← pause env s
      pure (s', [])
  | .unpause => do
      let s' ← unpause env s
      pure (s', [])
  | .access accessCall => do
      let access ← raise .access (s.access.call .defaultAdmin env.sender accessCall)
      pure ({ s with access := access }, [])

end Prsm.Bridge
