import Prsm.Bridge.Operations
import Prsm.BridgeSecurity.ViewAgreement
import Prsm.Foundations.Machine

/-!
# A chain with a bridge

The bridge, its token and the security contracts of one chain, under calls of all of them
by anyone.  The bridge calls one security contract, and its admin can name another, so all
there are belong to the world.

Two lists record what has happened and no contract keeps: the messages that `bridgeIn` has
delivered, with the recipient's balance before and after, and the transfers that
`bridgeOut` has announced.  The latest is first in both.
-/

namespace Prsm.Bridge

open Foundations Evm
open BridgeSecurity (BridgeMessage ValidatorSignature hashBridgeMessage)

/-- One successful call of `bridgeIn`. -/
structure Delivery where
  /-- The security contract that verified the message. -/
  security : Address
  messageHash : Bytes32
  message : BridgeMessage
  balanceBefore : Nat
  balanceAfter : Nat

/-- One successful call of `bridgeOut`: what it was called with, and what its event
announced. -/
structure Transfer where
  user : Address
  /-- The amount before the fee. -/
  gross : Nat
  feeBps : Nat
  timestamp : Nat
  sourceChain : Uint 256
  amount : Nat
  destinationChain : Uint 256
  nonce : Nat
  transactionId : Bytes32
  deriving DecidableEq

/-- The transfer that an event of a call of `bridgeOut` announces. -/
def Transfer.ofEvent (env : Env) (s : State) (gross : Uint 256) : Event → Option Transfer
  | .bridgeOut user amount _ destinationChain nonce transactionId _ =>
      some ⟨user, gross, s.bridgeFeeBps, env.timestamp, env.chainId, amount, destinationChain,
        nonce, transactionId⟩
  | _ => none

structure World where
  bridge : State
  securities : Address → Option BridgeSecurity.State
  token : FtnsToken.State
  delivered : List Delivery
  sent : List Transfer

/-- A call of one of the contracts by anyone. -/
inductive Input
  | bridgeOut (env : Env) (amount destinationChain : Uint 256)
  | bridgeIn (env : Env) (m : BridgeMessage) (signatures : List ValidatorSignature)
  | admin (env : Env) (call : AdminCall)
  | security (env : BridgeSecurity.Env) (contract : Address) (call : BridgeSecurity.Call)
  | token (sender : Address) (call : FtnsToken.Call)

/-- The security contract that the bridge calls. -/
def World.security (w : World) : Option BridgeSecurity.State :=
  w.securities w.bridge.bridgeSecurity

/-- One transaction. -/
def step (crypto : Crypto) (w : World) : Input → Option World
  | .bridgeOut env amount destinationChain =>
      match w.security with
      | none => none
      | some security =>
          match bridgeOut crypto env w.bridge security w.token amount destinationChain with
          | .ok (s, t, events) =>
              some { w with
                bridge := s
                token := t
                sent := events.filterMap (Transfer.ofEvent env w.bridge amount) ++ w.sent }
          | .error _ => none
  | .bridgeIn env m signatures =>
      match w.security with
      | none => none
      | some security =>
          match bridgeIn crypto env w.bridge security w.token m signatures with
          | .ok (s, security', t, _) =>
              some { w with
                bridge := s
                securities := Function.update w.securities w.bridge.bridgeSecurity (some security')
                token := t
                delivered :=
                  ⟨w.bridge.bridgeSecurity,
                    hashBridgeMessage crypto (env.callSecurity w.bridge) security m, m,
                    w.token.ledger.balanceOf m.recipient, t.ledger.balanceOf m.recipient⟩ ::
                  w.delivered }
          | .error _ => none
  | .admin env c =>
      match adminCall env w.bridge c with
      | .ok (s, _) => some { w with bridge := s }
      | .error _ => none
  | .security env contract c =>
      match w.securities contract with
      | none => none
      | some security =>
          match BridgeSecurity.call crypto env security c with
          | .ok (security', _) =>
              some { w with
                securities := Function.update w.securities contract (some security') }
          | .error _ => none
  | .token sender c =>
      match FtnsToken.call sender w.token c with
      | .ok t => some { w with token := t }
      | .error _ => none

def machine (crypto : Crypto) : Machine World Input where
  step := step crypto

/-- A transaction that does not revert is a call that returned. -/
inductive Accepted (crypto : Crypto) (w : World) : Input → World → Prop
  | bridgeOut {env : Env} {amount destinationChain : Uint 256} {security : BridgeSecurity.State}
      {s : State} {t : FtnsToken.State} {events : List Event}
      (hSecurity : w.security = some security)
      (hCall : bridgeOut crypto env w.bridge security w.token amount destinationChain =
        .ok (s, t, events)) :
      Accepted crypto w (.bridgeOut env amount destinationChain)
        { w with
          bridge := s
          token := t
          sent := events.filterMap (Transfer.ofEvent env w.bridge amount) ++ w.sent }
  | bridgeIn {env : Env} {m : BridgeMessage} {signatures : List ValidatorSignature}
      {security security' : BridgeSecurity.State} {s : State} {t : FtnsToken.State}
      {events : List Event} (hSecurity : w.security = some security)
      (hCall : bridgeIn crypto env w.bridge security w.token m signatures =
        .ok (s, security', t, events)) :
      Accepted crypto w (.bridgeIn env m signatures)
        { w with
          bridge := s
          securities := Function.update w.securities w.bridge.bridgeSecurity (some security')
          token := t
          delivered :=
            ⟨w.bridge.bridgeSecurity,
              hashBridgeMessage crypto (env.callSecurity w.bridge) security m, m,
              w.token.ledger.balanceOf m.recipient, t.ledger.balanceOf m.recipient⟩ ::
            w.delivered }
  | admin {env : Env} {c : AdminCall} {s : State} {events : List Event}
      (hCall : adminCall env w.bridge c = .ok (s, events)) :
      Accepted crypto w (.admin env c) { w with bridge := s }
  | security {env : BridgeSecurity.Env} {contract : Address} {c : BridgeSecurity.Call}
      {security security' : BridgeSecurity.State} {events : List BridgeSecurity.Event}
      (hSecurity : w.securities contract = some security)
      (hCall : BridgeSecurity.call crypto env security c = .ok (security', events)) :
      Accepted crypto w (.security env contract c)
        { w with securities := Function.update w.securities contract (some security') }
  | token {sender : Address} {c : FtnsToken.Call} {t : FtnsToken.State}
      (hCall : FtnsToken.call sender w.token c = .ok t) :
      Accepted crypto w (.token sender c) { w with token := t }

theorem accepted_of_step {crypto : Crypto} {w w' : World} {i : Input}
    (h : step crypto w i = some w') : Accepted crypto w i w' := by
  cases i with
  | bridgeOut env amount destinationChain =>
      simp only [step] at h
      split at h
      · cases h
      case h_2 security hSecurity =>
        split at h
        case h_2 => cases h
        case h_1 s t events hCall =>
          obtain rfl := Option.some.inj h
          exact .bridgeOut hSecurity hCall
  | bridgeIn env m signatures =>
      simp only [step] at h
      split at h
      · cases h
      case h_2 security hSecurity =>
        split at h
        case h_2 => cases h
        case h_1 s security' t events hCall =>
          obtain rfl := Option.some.inj h
          exact .bridgeIn hSecurity hCall
  | admin env c =>
      simp only [step] at h
      split at h
      case h_2 => cases h
      case h_1 s events hCall =>
        obtain rfl := Option.some.inj h
        exact .admin hCall
  | security env contract c =>
      simp only [step] at h
      split at h
      · cases h
      case h_2 security hSecurity =>
        split at h
        case h_2 => cases h
        case h_1 security' events hCall =>
          obtain rfl := Option.some.inj h
          exact .security hSecurity hCall
  | token sender c =>
      simp only [step] at h
      split at h
      case h_2 => cases h
      case h_1 t hCall =>
        obtain rfl := Option.some.inj h
        exact .token hCall

/-- A deployed bridge with its token, and the security contracts of the chain, as they
were initialised. -/
structure Deployment (crypto : Crypto) where
  self : Address
  admin : Address
  ftnsToken : Address
  bridgeSecurity : Address
  feeRecipient : Address
  minBridgeAmount : Uint 256
  maxBridgeAmount : Uint 256
  bridgeFeeBps : Uint 256
  state : State
  constructed : construct self admin ftnsToken bridgeSecurity feeRecipient minBridgeAmount
    maxBridgeAmount bridgeFeeBps = .ok state
  securities : Address → Option BridgeSecurity.State
  initialised : ∀ contract s, securities contract = some s →
    ∃ env admin threshold validators,
      BridgeSecurity.construct crypto env contract admin threshold validators = .ok s
  token : FtnsToken.State

def Deployment.world {crypto : Crypto} (d : Deployment crypto) : World :=
  ⟨d.state, d.securities, d.token, [], []⟩

/-! ## A concrete chain

For the statements about single runs: a security contract at `100`, whose validator is
`5`, and a bridge at `200`. -/

def freshBridge : State where
  access := { hasRole := fun _ account => account = 9 }
  paused := false
  self := 200
  bridgeSecurity := 100
  minBridgeAmount := 1
  maxBridgeAmount := 1000000
  bridgeFeeBps := 100
  feeRecipient := 8
  supportedChains := fun chainId => [1, 137, 56, 42161, 10].contains chainId
  userBridgeOutNonce := fun _ => 0
  processedSourceTx := fun _ => false
  totalBridgedOut := 0
  totalBridgedIn := 0
  totalFeesCollected := 0

theorem freshBridge_constructed :
    construct 200 9 300 100 8 1 1000000 100 = .ok freshBridge := rfl

def freshSecurities (chainId : Uint 256) : Address → Option BridgeSecurity.State :=
  Function.update (fun _ => none) 100 (some (BridgeSecurity.freshState chainId))

theorem freshSecurities_initialised (chainId : Uint 256) (contract : Address)
    (s : BridgeSecurity.State) (h : freshSecurities chainId contract = some s) :
    ∃ env admin threshold validators,
      BridgeSecurity.construct namedSignerCrypto env contract admin threshold validators =
        .ok s := by
  unfold freshSecurities at h
  by_cases hContract : contract = 100
  · subst hContract
    rw [Function.update_self] at h
    obtain rfl := Option.some.inj h
    exact ⟨_, _, _, _, BridgeSecurity.freshState_constructed chainId⟩
  · rw [Function.update_of_ne hContract] at h
    cases h

/-- The token, of which the accounts `3` and `4` hold a thousand each and have approved
the bridge. -/
def freshToken : FtnsToken.State where
  ledger :=
    { balanceOf := fun account => if account = 3 ∨ account = 4 then 1000 else 0
      allowance := fun owner spender =>
        if (owner = 3 ∨ owner = 4) ∧ spender = 200 then 1000 else 0 }
  totalSupply := 2000
  hasRole := fun role account => account = 200 ∧ (role = .minter ∨ role = .burner)
  paused := false

def freshDeployment (chainId : Uint 256) : Deployment namedSignerCrypto where
  self := 200
  admin := 9
  ftnsToken := 300
  bridgeSecurity := 100
  feeRecipient := 8
  minBridgeAmount := 1
  maxBridgeAmount := 1000000
  bridgeFeeBps := 100
  state := freshBridge
  constructed := freshBridge_constructed
  securities := freshSecurities chainId
  initialised := freshSecurities_initialised chainId
  token := freshToken

/-! ## What the calls of the bridge have done -/

variable {crypto : Crypto} {env : Env} {s s' : State} {security security' : BridgeSecurity.State}
  {t t' : FtnsToken.State} {events : List Event}

theorem bridgeIn_eq_ok {m : BridgeMessage} {signatures : List ValidatorSignature}
    (h : bridgeIn crypto env s security t m signatures = .ok (s', security', t', events)) :
    s'.bridgeSecurity = s.bridgeSecurity ∧
      BridgeSecurity.Countable crypto (env.callSecurity s) security m signatures ∧
      security' =
        security.consume (hashBridgeMessage crypto (env.callSecurity s) security m) m ∧
      FtnsToken.mintReward s.self t m.recipient m.amount = .ok t' := by
  simp only [bridgeIn, bind_eq_ok_iff, raise_eq_ok_iff, require_eq_ok_iff, pure_eq_ok_iff,
    Prod.mk.injEq] at h
  obtain ⟨-, -, -, -, -, -, -, -, -, -, result, hVerify, -, hValid, minted, hMint, -, -, rfl, rfl,
    rfl, -⟩ := h
  obtain ⟨count, signed, hCount, -, hResult⟩ :=
    BridgeSecurity.verifyBridgeSignatures_accepts_iff.mp ⟨hVerify, hValid⟩
  obtain ⟨hCountable, -, -⟩ := BridgeSecurity.countBridgeSignatures_iff.mp ⟨signed, hCount⟩
  exact ⟨rfl, hCountable, congrArg BridgeSecurity.Verification.state hResult, hMint⟩

theorem bridgeIn_of_verified {m : BridgeMessage} {signatures : List ValidatorSignature}
    {result : BridgeSecurity.Verification} (hRunning : s.paused = false)
    (hRecipient : m.recipient ≠ 0) (hAmount : m.amount ≠ 0)
    (hSupported : s.supportedChains m.sourceChainId = true)
    (hNew : s.processedSourceTx m.sourceTxId = false)
    (hVerify : BridgeSecurity.verifyBridgeSignatures crypto (env.callSecurity s) security m
      signatures = .ok result) (hValid : result.isValid = true)
    (hMint : FtnsToken.mintReward s.self t m.recipient m.amount = .ok t')
    (hTotal : s.totalBridgedIn + m.amount < 2 ^ 256) :
    ∃ events, bridgeIn crypto env s security t m signatures =
      .ok ({ s with
          processedSourceTx := Function.update s.processedSourceTx m.sourceTxId true
          totalBridgedIn := s.totalBridgedIn + m.amount }, result.state, t', events) := by
  simp only [bridgeIn, State.whenNotPaused, bind_eq_ok_iff, raise_eq_ok_iff, require_eq_ok_iff,
    whenNotPaused_eq_ok_iff, checkedAdd_eq_ok_iff, pure_eq_ok_iff]
  exact ⟨_, (), hRunning, (), hRecipient, (), hAmount, (), hSupported, (), hNew, result, hVerify,
    (), hValid, t', hMint, _, ⟨hTotal, rfl⟩, rfl⟩

end Prsm.Bridge
