import Prsm.Evm.Contracts

/-!
# `BridgeSecurity`: storage and functions

The validators of a bridge sign messages that say what to mint on this chain.  The
contract keeps the set of validators and the number of signatures that a message needs,
counts the signatures of a message, and remembers which messages and which nonces have
been used.

`verifyBridgeSignatures` counts and consumes; `checkBridgeSignatures` is the view that only
counts.  Of a validator that appears twice, the loop of the first counts the first entry, and the
loop of the second the first that is valid.
-/

namespace Prsm.BridgeSecurity

open Foundations Evm

inductive Role
  | defaultAdmin
  | validator
  | bridgeOperator
  deriving DecidableEq

structure BridgeMessage where
  recipient : Address
  amount : Uint 256
  sourceChainId : Uint 256
  sourceTxId : Bytes32
  nonce : Uint 256
  deriving DecidableEq

structure ValidatorSignature where
  validator : Address
  r : Bytes32
  s : Bytes32
  v : Uint 8

structure State where
  access : AccessControl Role
  /-- `address(this)`. -/
  self : Address
  signatureThreshold : Nat
  totalValidators : Nat
  isValidator : Address → Bool
  processedBridgeTx : Bytes32 → Bool
  /-- By source chain and nonce. -/
  usedNonces : Uint 256 → Uint 256 → Bool
  /-- `_domainSeparator`, as computed by the initialiser. -/
  storedDomainSeparator : Bytes32
  /-- `_chainId`, the chain that the initialiser ran on. -/
  storedChainId : Uint 256

inductive Event
  | validatorAdded (validator : Address) (totalValidators : Nat)
  | validatorRemoved (validator : Address) (totalValidators : Nat)
  | signatureThresholdUpdated (oldThreshold newThreshold : Nat)
  | bridgeTransactionVerified (messageHash : Bytes32) (message : BridgeMessage)
      (signatureCount : Nat)
  | signatureVerificationFailed (messageHash : Bytes32) (validator : Address) (reason : String)
  | duplicateSignatureDetected (messageHash : Bytes32) (validator : Address)
  deriving DecidableEq

inductive Error
  | platform (e : PlatformError)
  | access (e : AccessControlError Role)
  | ecdsa (e : EcdsaError)
  | invalidSignatureThreshold
  | invalidValidatorAddress
  | validatorAlreadyExists
  | validatorNotFound
  | insufficientSignatures (required provided : Nat)
  | bridgeTransactionAlreadyProcessed
  | nonceAlreadyUsed
  | reverted (reason : String)
  deriving DecidableEq

structure Env where
  /-- `block.chainid`. -/
  chainId : Uint 256
  sender : Address

def panic : Error := .platform .panicArithmetic

/-- The `onlyAdmin` modifier. -/
def State.onlyAdmin (s : State) (env : Env) : Except Error Unit :=
  require (s.access.hasRole .defaultAdmin env.sender = true)
    (.reverted "BridgeSecurity: caller is not admin")

/-! ## Hashes -/

def domainTypehash : Bytes32 := 0x8b73c3c69bb8fe3d512ecc4cf759cc79239f7b179b0ffacaa9a75d522b39400f

/-- `BRIDGE_MESSAGE_TYPEHASH_V2`. -/
def bridgeMessageTypehash (crypto : Crypto) : Bytes32 :=
  crypto.keccak256 (literalBytes ("BridgeMessage(address recipient,uint256 amount," ++
    "uint256 sourceChainId,bytes32 sourceTxId,uint256 nonce)"))

def computeDomainSeparator (crypto : Crypto) (self : Address) (chainId : Uint 256) : Bytes32 :=
  crypto.keccak256 (abiEncode
    [domainTypehash, crypto.keccak256 (literalBytes "PRSM Bridge Security"),
      crypto.keccak256 (literalBytes "1"), chainId, self])

/-- `domainSeparator`: the stored one, unless the chain has changed its identifier. -/
def State.domainSeparator (crypto : Crypto) (s : State) (env : Env) : Bytes32 :=
  if env.chainId = s.storedChainId then s.storedDomainSeparator
  else computeDomainSeparator crypto s.self env.chainId

/-- The encoding of a message that its `structHash` is the hash of. -/
def BridgeMessage.encode (crypto : Crypto) (m : BridgeMessage) : Bytes :=
  abiEncode [bridgeMessageTypehash crypto, m.recipient, m.amount, m.sourceChainId, m.sourceTxId,
    m.nonce]

def hashBridgeMessage (crypto : Crypto) (env : Env) (s : State) (m : BridgeMessage) : Bytes32 :=
  typedDataHash crypto.keccak256 (s.domainSeparator crypto env)
    (crypto.keccak256 (m.encode crypto))

/-! ## Signatures -/

/-- `_verifySignature`.  It reverts on a signature that nobody can have made. -/
def verifySignature (crypto : Crypto) (messageHash : Bytes32) (sig : ValidatorSignature) :
    Except Error Bool := do
  let signer ← raise .ecdsa (recover crypto messageHash sig.v sig.r sig.s)
  pure (signer = sig.validator)

/-- The body of the loop in `verifyBridgeSignatures`, where `earlier` are the entries
before this one. -/
def verifyEntry (crypto : Crypto) (s : State) (messageHash : Bytes32)
    (earlier : List ValidatorSignature) (sig : ValidatorSignature) (count : Nat)
    (events : List Event) : Except Error (Nat × List Event) :=
  if s.isValidator sig.validator = false then
    pure (count, events ++ [.signatureVerificationFailed messageHash sig.validator
      "Not a registered validator"])
  -- The source compares with every earlier entry, valid or not.
  else if sig.validator ∈ earlier.map (·.validator) then
    pure (count, events ++ [.duplicateSignatureDetected messageHash sig.validator])
  else do
    let sigValid ← verifySignature crypto messageHash sig
    if sigValid = true then
      pure (count + 1, events)
    else
      pure (count, events ++ [.signatureVerificationFailed messageHash sig.validator
        "Invalid cryptographic signature"])

/-- The loop in `verifyBridgeSignatures`. -/
def verifyEntries (crypto : Crypto) (s : State) (messageHash : Bytes32)
    (earlier : List ValidatorSignature) :
    List ValidatorSignature → Nat → List Event → Except Error (Nat × List Event)
  | [], count, events => pure (count, events)
  | sig :: rest, count, events => do
      let (count', events') ← verifyEntry crypto s messageHash earlier sig count events
      verifyEntries crypto s messageHash (earlier ++ [sig]) rest count' events'

/-- `verifyBridgeSignatures` up to the end of its loop: the checks against replay, the
length, and the number of valid signatures. -/
def countBridgeSignatures (crypto : Crypto) (env : Env) (s : State) (m : BridgeMessage)
    (signatures : List ValidatorSignature) : Except Error (Nat × List Event) := do
  let messageHash := hashBridgeMessage crypto env s m
  require (s.processedBridgeTx messageHash = false) .bridgeTransactionAlreadyProcessed
  require (s.usedNonces m.sourceChainId m.nonce = false) .nonceAlreadyUsed
  require (s.signatureThreshold ≤ signatures.length)
    (.insufficientSignatures s.signatureThreshold signatures.length)
  verifyEntries crypto s messageHash [] signatures 0 []

/-- The message is marked as processed and its nonce as used. -/
def State.consume (s : State) (messageHash : Bytes32) (m : BridgeMessage) : State :=
  { s with
    processedBridgeTx := Function.update s.processedBridgeTx messageHash true
    usedNonces := Function.update s.usedNonces m.sourceChainId
      (Function.update (s.usedNonces m.sourceChainId) m.nonce true) }

/-- What `verifyBridgeSignatures` returns, with the state and the events it leaves. -/
structure Verification where
  messageHash : Bytes32
  isValid : Bool
  state : State
  events : List Event

def verifyBridgeSignatures (crypto : Crypto) (env : Env) (s : State) (m : BridgeMessage)
    (signatures : List ValidatorSignature) : Except Error Verification := do
  let messageHash := hashBridgeMessage crypto env s m
  let (count, events) ← countBridgeSignatures crypto env s m signatures
  -- Too few valid signatures do not revert: the call returns `false` and consumes nothing.
  if count < s.signatureThreshold then
    pure ⟨messageHash, false, s,
      events ++ [.signatureVerificationFailed messageHash 0 "Insufficient valid signatures"]⟩
  else
    pure ⟨messageHash, true, s.consume messageHash m,
      events ++ [.bridgeTransactionVerified messageHash m count]⟩

/-! ## The view -/

/-- The body of the loop in `checkBridgeSignatures`, where `seenValidators` have had a
valid entry. -/
def checkEntry (crypto : Crypto) (s : State) (messageHash : Bytes32)
    (seenValidators : List Address) (sig : ValidatorSignature) : Except Error (List Address) :=
  if s.isValidator sig.validator = false then
    pure seenValidators
  -- Only an entry that was valid is in `seenValidators`.
  else if sig.validator ∈ seenValidators then
    pure seenValidators
  else do
    let sigValid ← verifySignature crypto messageHash sig
    if sigValid = true then pure (seenValidators ++ [sig.validator]) else pure seenValidators

/-- The loop in `checkBridgeSignatures`. -/
def checkEntries (crypto : Crypto) (s : State) (messageHash : Bytes32) :
    List ValidatorSignature → List Address → Except Error (List Address)
  | [], seenValidators => pure seenValidators
  | sig :: rest, seenValidators => do
      let seenValidators' ← checkEntry crypto s messageHash seenValidators sig
      checkEntries crypto s messageHash rest seenValidators'

/-- Whether the message could be verified, and the number of valid signatures. -/
def checkBridgeSignatures (crypto : Crypto) (env : Env) (s : State) (m : BridgeMessage)
    (signatures : List ValidatorSignature) : Except Error (Bool × Nat) := do
  let messageHash := hashBridgeMessage crypto env s m
  if s.processedBridgeTx messageHash = true then
    pure (false, 0)
  else if s.usedNonces m.sourceChainId m.nonce = true then
    pure (false, 0)
  else
    -- The view does not look at the length of the list.
    let seenValidators ← checkEntries crypto s messageHash signatures []
    pure (decide (s.signatureThreshold ≤ seenValidators.length), seenValidators.length)

/-! ## Administration -/

/-- `_addValidator`. -/
def registerValidator (s : State) (validator : Address) : Except Error (State × List Event) := do
  require (validator ≠ 0) .invalidValidatorAddress
  require (s.isValidator validator = false) .validatorAlreadyExists
  let totalValidators ← checkedAdd 256 panic s.totalValidators 1
  pure ({ s with
      isValidator := Function.update s.isValidator validator true
      totalValidators := totalValidators },
    [.validatorAdded validator totalValidators])

def addValidator (env : Env) (s : State) (validator : Address) :
    Except Error (State × List Event) := do
  s.onlyAdmin env
  registerValidator s validator

/-- The threshold comes down to the number of validators, unless the last one has left.
The event reports one above the new threshold as the old one. -/
def removeValidator (env : Env) (s : State) (validator : Address) :
    Except Error (State × List Event) := do
  s.onlyAdmin env
  require (s.isValidator validator = true) .validatorNotFound
  let totalValidators ← checkedSub panic s.totalValidators 1
  let removed := { s with
    isValidator := Function.update s.isValidator validator false
    totalValidators := totalValidators }
  if totalValidators < s.signatureThreshold ∧ 0 < totalValidators then
    pure ({ removed with signatureThreshold := totalValidators },
      [.signatureThresholdUpdated (totalValidators + 1) totalValidators,
        .validatorRemoved validator totalValidators])
  else
    pure (removed, [.validatorRemoved validator totalValidators])

def setSignatureThreshold (env : Env) (s : State) (newThreshold : Uint 256) :
    Except Error (State × List Event) := do
  s.onlyAdmin env
  require (¬ (newThreshold.val = 0 ∨ s.totalValidators < newThreshold.val))
    .invalidSignatureThreshold
  pure ({ s with signatureThreshold := newThreshold },
    [.signatureThresholdUpdated s.signatureThreshold newThreshold])

/-- The loop of the initialiser. -/
def registerValidators : List Address → State → List Event → Except Error (State × List Event)
  | [], s, events => pure (s, events)
  | validator :: rest, s, events => do
      let (s', added) ← registerValidator s validator
      registerValidators rest s' (events ++ added)

/-- The initialiser. -/
def construct (crypto : Crypto) (env : Env) (self admin : Address) (initialThreshold : Uint 256)
    (initialValidators : List Address) : Except Error State := do
  require (admin ≠ 0) .invalidValidatorAddress
  require (¬ (initialThreshold.val = 0 ∨ initialValidators.length < initialThreshold.val))
    .invalidSignatureThreshold
  let (s, _) ← registerValidators initialValidators
    { access := { hasRole := fun role account =>
        account = admin ∧ (role = .defaultAdmin ∨ role = .bridgeOperator) }
      self := self
      signatureThreshold := initialThreshold
      totalValidators := 0
      isValidator := fun _ => false
      processedBridgeTx := fun _ => false
      usedNonces := fun _ _ => false
      storedDomainSeparator := 0
      storedChainId := 0 } []
  pure { s with
    storedChainId := env.chainId
    storedDomainSeparator := computeDomainSeparator crypto self env.chainId }

inductive Call
  | verifyBridgeSignatures (m : BridgeMessage) (signatures : List ValidatorSignature)
  | addValidator (validator : Address)
  | removeValidator (validator : Address)
  | setSignatureThreshold (newThreshold : Uint 256)
  | access (call : AccessControl.Call Role)

def call (crypto : Crypto) (env : Env) (s : State) : Call → Except Error (State × List Event)
  | .verifyBridgeSignatures m signatures => do
      let result ← verifyBridgeSignatures crypto env s m signatures
      pure (result.state, result.events)
  | .addValidator validator => addValidator env s validator
  | .removeValidator validator => removeValidator env s validator
  | .setSignatureThreshold newThreshold => setSignatureThreshold env s newThreshold
  | .access accessCall => do
      let access ← raise .access (s.access.call .defaultAdmin env.sender accessCall)
      pure ({ s with access := access }, [])

end Prsm.BridgeSecurity
