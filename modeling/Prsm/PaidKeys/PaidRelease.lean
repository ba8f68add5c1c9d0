import Prsm.Foundations.Machine
import Prsm.PaidKeys.Contracts

/-!
# A key is released to those who paid for it

The two contracts, the registry of creators and the token run together, and the
transactions that succeeded are kept with the state before and after each.  `Sound` says what
holds between the transactions: the contract remembers a payment exactly if there was one,
and holds what it owes.
-/

namespace Prsm.PaidKeys

open Foundations Evm

/-- The storage of the contracts involved. -/
structure Chain where
  keys : KeyDistribution.State
  verifier : ContentAccessVerifier.State
  registry : ProvenanceRegistryV2.State
  token : Token

inductive Call
  | keys (call : KeyDistribution.Call)
  | verifier (call : ContentAccessVerifier.Call)
  | registry (call : ProvenanceRegistryV2.Call)
  | token (call : Token.Call)

inductive Event
  | keys (e : KeyDistribution.Event)
  | verifier (e : ContentAccessVerifier.Event)
  | registry (e : ProvenanceRegistryV2.Event)
  deriving DecidableEq

/-- One transaction, and what the environment makes of it. -/
structure Input where
  block : Block
  sender : Address
  /-- The token returns `false` on a transfer. -/
  tokenDeclines : Bool
  /-- What other contracts answer that a record may name as its verifier. -/
  others : KeyDistribution.Verifiers
  call : Call

/-- A transaction that succeeded. -/
structure Transaction where
  sender : Address
  call : Call
  before : Chain
  after : Chain
  events : List Event

/-- The chain, and its transactions from the newest to the oldest. -/
structure World where
  chain : Chain
  history : List Transaction

section Step

variable (keccak256 : Keccak)

/-- The verifier at its own address, and other contracts elsewhere. -/
def Chain.verifiers (c : Chain) (others : KeyDistribution.Verifiers) : KeyDistribution.Verifiers :=
  fun address payer contentHash feeWei =>
    if address = c.verifier.self then
      some (ContentAccessVerifier.verifyPayment keccak256 c.verifier payer contentHash feeWei)
    else others address payer contentHash feeWei

/-- The new state and the events of a transaction that does not revert.  The verifier's own
address sends none. -/
def Chain.execute (c : Chain) (i : Input) : Option (Chain × List Event) :=
  match i.call with
  | .keys call =>
      match KeyDistribution.call (c.verifiers keccak256 i.others) i.sender c.keys call with
      | .ok (keys, events) => some ({ c with keys := keys }, events.map .keys)
      | .error _ => none
  | .verifier call =>
      match ContentAccessVerifier.call keccak256 ⟨i.sender, i.tokenDeclines⟩ c.registry
          c.verifier c.token call with
      | .ok (verifier, token, events) =>
          some ({ c with verifier := verifier, token := token }, events.map .verifier)
      | .error _ => none
  | .registry call =>
      match ProvenanceRegistryV2.call ⟨i.block, i.sender⟩ c.registry call with
      | .ok (registry, events) => some ({ c with registry := registry }, events.map .registry)
      | .error _ => none
  | .token call =>
      if i.sender = c.verifier.self then none
      else
        match c.token.call i.sender call with
        | .ok token => some ({ c with token := token }, [])
        | .error _ => none

def step (w : World) (i : Input) : Option World := do
  let (after, events) ← w.chain.execute keccak256 i
  some ⟨after, ⟨i.sender, i.call, w.chain, after, events⟩ :: w.history⟩

def machine : Machine World Input where
  step := step keccak256

end Step

/-- The contracts as they are deployed.  The verifier's address is new, so nobody has an
allowance from it; registry and token have been in use. -/
structure Deployment where
  self : Address
  initialOwner : Address
  ftns : Address
  registryAddress : Address
  keys : KeyDistribution.State
  keysConstructed : KeyDistribution.construct initialOwner = .ok keys
  verifier : ContentAccessVerifier.State
  verifierConstructed : ContentAccessVerifier.construct self ftns registryAddress = .ok verifier
  registry : ProvenanceRegistryV2.State
  token : Token
  unspendable : token.Unspendable self

def Deployment.world (d : Deployment) : World := ⟨⟨d.keys, d.verifier, d.registry, d.token⟩, []⟩

def Deployment.after (keccak256 : Keccak) (d : Deployment) (inputs : List Input) : World :=
  (machine keccak256).run d.world inputs

/-! ## Charges and hashed strings -/

/-- Payer, content and fee of a transaction that pays for access and leaves the payer with
less than before. -/
def Transaction.charge (tx : Transaction) : Option (Address × Bytes32 × Uint 256) :=
  match tx.call with
  | .verifier (.payForAccess contentHash feeWei) =>
      if tx.after.token.balanceOf tx.sender < tx.before.token.balanceOf tx.sender then
        some (tx.sender, contentHash, feeWei)
      else none
  | _ => none

/-- What a transaction hashes in the verifier. -/
def Input.hashed (c : Chain) (i : Input) : List Bytes :=
  match i.call with
  | .verifier (.payForAccess contentHash feeWei) =>
      [ContentAccessVerifier.preimage i.sender contentHash feeWei]
  | .keys (.release contentHash recipient) =>
      if (c.keys.records contentHash).royalty = c.verifier.self then
        [ContentAccessVerifier.preimage recipient contentHash
          (c.keys.records contentHash).releaseFeeFtnsWei]
      else []
  | _ => []

/-- What a run hashes in the verifier. -/
def hashedAlong (keccak256 : Keccak) : World → List Input → List Bytes
  | _, [] => []
  | w, i :: is => i.hashed w.chain ++ hashedAlong keccak256 ((machine keccak256).exec w i) is

theorem everyStep_hashed {keccak256 : Keccak} {hashed : Set Bytes} {w : World}
    {inputs : List Input} (h : ∀ x ∈ hashedAlong keccak256 w inputs, x ∈ hashed) :
    (machine keccak256).EveryStep (fun w i => ∀ x ∈ i.hashed w.chain, x ∈ hashed) w inputs := by
  induction inputs generalizing w with
  | nil => exact Machine.everyStep_nil _
  | cons i is ih =>
      simp only [hashedAlong, List.mem_append] at h
      rw [Machine.everyStep_cons]
      exact ⟨fun _ x hx => h x (.inl hx), ih fun x hx => h x (.inr hx)⟩

/-- A sender that is charged pays exactly the fee to the verifier. -/
structure Transaction.Pays (tx : Transaction) (payer address : Address) (feeWei : Nat) : Prop where
  payer_balance : tx.after.token.balanceOf payer + feeWei = tx.before.token.balanceOf payer
  verifier_balance : tx.after.token.balanceOf address = tx.before.token.balanceOf address + feeWei

/-- The creator that the registry names for some content. -/
def Chain.creatorOf (c : Chain) (contentHash : Bytes32) : Address :=
  (ProvenanceRegistryV2.getCreatorAndRate c.registry contentHash).1

/-- The creator of the content is credited with the fee, and nobody else with anything. -/
def Transaction.Credits (tx : Transaction) (contentHash : Bytes32) (feeWei : Nat) : Prop :=
  tx.after.verifier.claimable = Function.update tx.before.verifier.claimable
    (tx.before.creatorOf contentHash)
    (tx.before.verifier.claimable (tx.before.creatorOf contentHash) + feeWei)

variable {keccak256 : Keccak} {hashed : Set Bytes} {address : Address} {c c' : Chain} {i : Input}
  {events : List Event} {w w' : World}

/-- The changes of verifier and token. -/
inductive Change (keccak256 : Keccak) (c : Chain) (i : Input) (c' : Chain) : Prop
  | charged (contentHash : Bytes32) (feeWei : Uint 256)
      (hCall : i.call = .verifier (.payForAccess contentHash feeWei))
      (hCharge : ContentAccessVerifier.Charge keccak256 ⟨i.sender, i.tokenDeclines⟩ c.registry
        c.verifier c.token contentHash feeWei c'.verifier c'.token)
  | claimed (hCall : i.call = .verifier .claim)
      (hLe : c.verifier.claimable i.sender ≤ c.verifier.totalClaimable)
      (hTransfer : c.token.transfer i.tokenDeclines c.verifier.self i.sender
        (c.verifier.claimable i.sender) = .ok (true, c'.token))
      (hState : c'.verifier = { c.verifier with
        claimable := Function.update c.verifier.claimable i.sender 0
        totalClaimable := c.verifier.totalClaimable - c.verifier.claimable i.sender })
  | kept (hVerifier : c'.verifier = c.verifier) (hToken : c'.token = c.token)
  | token (call : Token.Call) (hCall : i.call = .token call) (hSender : i.sender ≠ c.verifier.self)
      (hVerifier : c'.verifier = c.verifier) (hToken : c.token.call i.sender call = .ok c'.token)

theorem execute_change (h : c.execute keccak256 i = some (c', events)) :
    Change keccak256 c i c' := by
  unfold Chain.execute at h
  split at h
  case h_1 call hCall =>
    split at h
    · cases h
      exact .kept rfl rfl
    · cases h
  case h_2 call hCall =>
    split at h
    case h_1 verifier token events' hResult =>
      cases h
      cases call with
      | payForAccess contentHash feeWei =>
          rcases ContentAccessVerifier.payForAccess_eq_ok hResult with
            ⟨hVerifier, hToken, -⟩ | hCharge
          · exact .kept hVerifier hToken
          · exact .charged contentHash feeWei hCall hCharge
      | claim =>
          obtain ⟨hLe, hTransfer, hState⟩ := ContentAccessVerifier.claim_eq_ok hResult
          exact .claimed hCall hLe hTransfer hState
    case h_2 => cases h
  case h_3 call hCall =>
    split at h
    · cases h
      exact .kept rfl rfl
    · cases h
  case h_4 call hCall =>
    split at h
    case isTrue => cases h
    case isFalse hSender =>
      split at h
      case h_1 token hResult =>
        cases h
        exact .token call hCall hSender rfl hResult
      case h_2 => cases h

theorem execute_keyReleased (h : c.execute keccak256 i = some (c', events))
    {contentHash : Bytes32} {recipient : Address} {encryptedKey : Bytes}
    (hEvent : .keys (.keyReleased contentHash recipient encryptedKey) ∈ events) :
    i.call = .keys (.release contentHash recipient) ∧
      c.verifiers keccak256 i.others (c.keys.records contentHash).royalty recipient contentHash
        (c.keys.records contentHash).releaseFeeFtnsWei = some true := by
  unfold Chain.execute at h
  split at h
  case h_1 call hCall =>
    split at h
    case h_1 keys events' hResult =>
      cases h
      obtain ⟨e, hMem, hSame⟩ := List.mem_map.mp hEvent
      cases hSame
      obtain ⟨rfl, hVerified⟩ := KeyDistribution.call_keyReleased hResult hMem
      exact ⟨hCall, hVerified⟩
    case h_2 => cases h
  case h_2 call hCall =>
    split at h
    · cases h
      simp at hEvent
    · cases h
  case h_3 call hCall =>
    split at h
    · cases h
      simp at hEvent
    · cases h
  case h_4 call hCall =>
    split at h
    · cases h
    · split at h
      · cases h
        simp at hEvent
      · cases h

theorem charge_eq_some {tx : Transaction} {payer : Address} {contentHash : Bytes32}
    {feeWei : Uint 256} :
    tx.charge = some (payer, contentHash, feeWei) ↔
      tx.call = .verifier (.payForAccess contentHash feeWei) ∧ tx.sender = payer ∧
        tx.after.token.balanceOf tx.sender < tx.before.token.balanceOf tx.sender := by
  unfold Transaction.charge
  split
  case h_1 contentHash' feeWei' hCall =>
    split
    case isTrue hLess =>
      simp only [hCall, Option.some.injEq, Prod.mk.injEq, hLess, and_true, Call.verifier.injEq,
        ContentAccessVerifier.Call.payForAccess.injEq]
      tauto
    case isFalse hNot => simp [hNot]
  case h_2 hOther =>
    constructor
    · intro h
      cases h
    · rintro ⟨hCall, -⟩
      exact absurd hCall (hOther contentHash feeWei)

/-! ## What the verifier owes -/

/-- The counter is the sum of what can be claimed, and the verifier holds that much. -/
structure Funded (address : Address) (c : Chain) : Prop where
  self_eq : c.verifier.self = address
  unspendable : c.token.Unspendable address
  total : c.verifier.totalClaimable = ∑ account, c.verifier.claimable account
  covered : c.verifier.totalClaimable ≤ c.token.balanceOf address

theorem sum_claimable_update (claimable : Address → Nat) (account : Address) (amount : Nat) :
    (∑ a, Function.update claimable account amount a) + claimable account =
      (∑ a, claimable a) + amount :=
  sum_update_entry (fun _ (balance : Nat) => balance) claimable account amount

theorem Funded.change (hc : Funded address c)
    (h : Change keccak256 c i c') : Funded address c' := by
  have hSelf := hc.self_eq
  have hTotal := hc.total
  cases h with
  | charged contentHash feeWei hCall hCharge =>
      have hState := hCharge.state
      have hTransfer := hCharge.transfer
      rw [hSelf] at hTransfer
      have hMove : OwedMove address c.verifier.totalClaimable c.token c'.verifier.totalClaimable
          c'.token := .deposit hCharge.positive hTransfer (by rw [hState])
      obtain ⟨hCovered, hUnspendable⟩ := hMove.covered hc.unspendable hc.covered
      refine ⟨by rw [hState, ← hSelf], hUnspendable, ?_, hCovered⟩
      have hSum := sum_claimable_update c.verifier.claimable
        (c.registry.contents contentHash).creator
        (c.verifier.claimable (c.registry.contents contentHash).creator + feeWei)
      rw [hState]
      show c.verifier.totalClaimable + feeWei.val = ∑ a, Function.update _ _ _ a
      omega
  | claimed hCall hLe hTransfer hState =>
      rw [hSelf] at hTransfer
      have hMove : OwedMove address c.verifier.totalClaimable c.token c'.verifier.totalClaimable
          c'.token := .payment hTransfer (by rw [hState]; exact (Nat.sub_add_cancel hLe).le)
      obtain ⟨hCovered, hUnspendable⟩ := hMove.covered hc.unspendable hc.covered
      refine ⟨by rw [hState, ← hSelf], hUnspendable, ?_, hCovered⟩
      have hSum := sum_claimable_update c.verifier.claimable i.sender 0
      rw [hState]
      show c.verifier.totalClaimable - c.verifier.claimable i.sender =
        ∑ a, Function.update _ _ _ a
      omega
  | kept hVerifier hToken =>
      refine ⟨by rw [hVerifier, hSelf], by rw [hToken]; exact hc.unspendable,
        by rw [hVerifier, hTotal], ?_⟩
      rw [hVerifier, hToken]
      exact hc.covered
  | token call hCall hSender hVerifier hToken =>
      rw [hSelf] at hSender
      obtain ⟨hBalance, hUnspendable⟩ := Token.call_of_other hSender hc.unspendable hToken
      refine ⟨by rw [hVerifier, hSelf], hUnspendable, by rw [hVerifier, hTotal], ?_⟩
      rw [hVerifier]
      exact hc.covered.trans hBalance

/-! ## What the verifier remembers -/

/-- The entry of the newest transaction. -/
def transactionOf (c : Chain) (i : Input) (c' : Chain) (events : List Event) : Transaction :=
  ⟨i.sender, i.call, c, c', events⟩

/-- Whether the verifier has recorded a payment. -/
def Chain.recorded (keccak256 : Keccak) (c : Chain) (payment : Address × Bytes32 × Uint 256) :
    Bool :=
  ContentAccessVerifier.verifyPayment keccak256 c.verifier payment.1 payment.2.1 payment.2.2

/-- The string that a payment is hashed from. -/
def preimageOf (payment : Address × Bytes32 × Uint 256) : Bytes :=
  ContentAccessVerifier.preimage payment.1 payment.2.1 payment.2.2

theorem preimageOf_injective : Function.Injective preimageOf := by
  rintro ⟨payer, contentHash, feeWei⟩ ⟨payer', contentHash', feeWei'⟩ h
  obtain ⟨rfl, rfl, rfl⟩ := ContentAccessVerifier.preimage_injective h
  rfl

/-- What a charge does: the payment was not recorded, is recorded from then on and no other
is, the payer pays the verifier, and the creator is credited. -/
structure Charged (keccak256 : Keccak) (address : Address) (tx : Transaction)
    (payment : Address × Bytes32 × Uint 256) : Prop where
  unpaid : tx.before.recorded keccak256 payment = false
  paid : ∀ other, tx.after.recorded keccak256 other = true ↔
    tx.before.recorded keccak256 other = true ∨
      keccak256 (preimageOf other) = keccak256 (preimageOf payment)
  pays : tx.Pays payment.1 address payment.2.2
  credits : tx.Credits payment.2.1 payment.2.2

theorem execute_charge (hc : Funded address c) (h : c.execute keccak256 i = some (c', events)) :
    ((transactionOf c i c' events).charge = none ∧
        ∀ payment, c'.recorded keccak256 payment = c.recorded keccak256 payment) ∨
      ∃ payment, (transactionOf c i c' events).charge = some payment ∧
        preimageOf payment ∈ i.hashed c ∧
        Charged keccak256 address (transactionOf c i c' events) payment := by
  cases execute_change h with
  | charged contentHash feeWei hCall hCharge =>
      have hTransfer := hCharge.transfer
      rw [hc.self_eq] at hTransfer
      obtain ⟨hAllowance, hEnough, hBalance, -⟩ := Token.transferFrom_eq_true hTransfer
      have hPositive := hCharge.positive
      -- The verifier has approved nobody, so it is not the payer.
      have hSender : i.sender ≠ address := by
        intro hSame
        rw [hSame, hc.unspendable] at hAllowance
        omega
      have hPayer : c'.token.balanceOf i.sender + feeWei.val = c.token.balanceOf i.sender := by
        rw [hBalance, Token.move_balanceOf_sender hSender]
        exact Nat.sub_add_cancel hEnough
      refine .inr ⟨(i.sender, contentHash, feeWei), ?_, ?_, hCharge.unpaid, ?_, ?_, ?_⟩
      · refine charge_eq_some.mpr ⟨hCall, rfl, ?_⟩
        show c'.token.balanceOf i.sender < c.token.balanceOf i.sender
        omega
      · simp [Input.hashed, hCall, preimageOf]
      · intro other
        show c'.verifier.paid _ = true ↔ c.verifier.paid _ = true ∨ _
        rw [hCharge.state]
        show Function.update c.verifier.paid _ true _ = true ↔ _
        rw [Function.update_apply]
        split
        case isTrue hSame => exact iff_of_true rfl (.inr hSame)
        case isFalse hOther => exact (or_iff_left hOther).symm
      · refine ⟨hPayer, ?_⟩
        show c'.token.balanceOf address = c.token.balanceOf address + feeWei.val
        rw [hBalance, Token.move_balanceOf_recipient hSender]
      · show c'.verifier.claimable = _
        rw [hCharge.state]
        rfl
  | claimed hCall hLe hTransfer hState =>
      refine .inl ⟨?_, fun payment => ?_⟩
      · simp [Transaction.charge, transactionOf, hCall]
      · show c'.verifier.paid _ = c.verifier.paid _
        rw [hState]
  | kept hVerifier hToken =>
      refine .inl ⟨?_, fun payment => ?_⟩
      · rw [Option.eq_none_iff_forall_ne_some]
        rintro ⟨payer, contentHash, feeWei⟩ hCharge
        have hLess := (charge_eq_some.mp hCharge).2.2
        simp [transactionOf, hToken] at hLess
      · show c'.verifier.paid _ = c.verifier.paid _
        rw [hVerifier]
  | token call hCall hSender hVerifier hToken =>
      refine .inl ⟨?_, fun payment => ?_⟩
      · simp [Transaction.charge, transactionOf, hCall]
      · show c'.verifier.paid _ = c.verifier.paid _
        rw [hVerifier]

/-! ## What holds between the transactions -/

/-- A key went to somebody who had paid for it. -/
def Transaction.ReleasesPaid (address : Address) (earlier : List Transaction)
    (tx : Transaction) : Prop :=
  ∀ contentHash recipient encryptedKey,
    .keys (.keyReleased contentHash recipient encryptedKey) ∈ tx.events →
    (tx.before.keys.records contentHash).royalty = address →
    let feeWei := (tx.before.keys.records contentHash).releaseFeeFtnsWei
    ∃ paid ∈ earlier, paid.charge = some (recipient, contentHash, feeWei) ∧
      paid.Pays recipient address feeWei

/-- The verifier is funded, remembers exactly the payments of the history, and in the
history nobody was charged twice, the creators were credited and the keys went to those who
had paid. -/
structure Sound (keccak256 : Keccak) (hashed : Set Bytes) (address : Address) (w : World) :
    Prop where
  funded : Funded address w.chain
  charged : ∀ tx ∈ w.history, ∀ payment, tx.charge = some payment →
    preimageOf payment ∈ hashed ∧ w.chain.recorded keccak256 payment = true ∧
      Charged keccak256 address tx payment
  remembered : ∀ payment, preimageOf payment ∈ hashed →
    w.chain.recorded keccak256 payment = true → ∃ tx ∈ w.history, tx.charge = some payment
  once : ∀ payment, w.history.countP (fun tx => tx.charge = some payment) ≤ 1
  released : ∀ tx earlier, tx :: earlier <:+ w.history → tx.ReleasesPaid address earlier

theorem step_eq_some (h : (machine keccak256).step w i = some w') :
    ∃ events, w.chain.execute keccak256 i = some (w'.chain, events) ∧
      w'.history = transactionOf w.chain i w'.chain events :: w.history := by
  obtain ⟨⟨after, events⟩, hExecute, hWorld⟩ := Option.bind_eq_some_iff.mp h
  cases hWorld
  exact ⟨events, hExecute, rfl⟩

theorem Sound.releasesPaid (hw : Sound keccak256 hashed address w)
    (hHashed : ∀ x ∈ i.hashed w.chain, x ∈ hashed)
    (h : w.chain.execute keccak256 i = some (c', events)) :
    (transactionOf w.chain i c' events).ReleasesPaid address w.history := by
  intro contentHash recipient encryptedKey hEvent hRoyalty feeWei
  obtain ⟨hCall, hVerified⟩ := execute_keyReleased h hEvent
  have hSelf : (w.chain.keys.records contentHash).royalty = w.chain.verifier.self :=
    hRoyalty.trans hw.funded.self_eq.symm
  have hRecorded : w.chain.recorded keccak256 (recipient, contentHash, feeWei) = true := by
    rw [Chain.verifiers, if_pos hSelf] at hVerified
    exact Option.some.inj hVerified
  have hPreimage : preimageOf (recipient, contentHash, feeWei) ∈ hashed := by
    apply hHashed
    simp [Input.hashed, hCall, hSelf, preimageOf, feeWei, transactionOf]
  obtain ⟨paid, hPaid, hCharge⟩ := hw.remembered _ hPreimage hRecorded
  exact ⟨paid, hPaid, hCharge, (hw.charged paid hPaid _ hCharge).2.2.pays⟩

theorem Sound.step (hInj : Set.InjOn keccak256 hashed) (hw : Sound keccak256 hashed address w)
    (hHashed : ∀ x ∈ i.hashed w.chain, x ∈ hashed)
    (h : (machine keccak256).step w i = some w') : Sound keccak256 hashed address w' := by
  obtain ⟨events, hExecute, hHistory⟩ := step_eq_some h
  have hFunded := hw.funded.change (execute_change hExecute)
  have hReleased : ∀ tx earlier, tx :: earlier <:+ w'.history →
      tx.ReleasesPaid address earlier := by
    intro tx earlier hSuffix
    rw [hHistory] at hSuffix
    rcases List.suffix_cons_iff.mp hSuffix with hNewest | hOlder
    · cases hNewest
      exact hw.releasesPaid hHashed hExecute
    · exact hw.released tx earlier hOlder
  rcases execute_charge hw.funded hExecute with ⟨hNone, hSame⟩ | ⟨payment, hCharge, hMem, hNew⟩
  · refine ⟨hFunded, ?_, ?_, ?_, hReleased⟩
    · intro tx hTx payment hCharge
      rw [hHistory] at hTx
      rcases List.mem_cons.mp hTx with rfl | hOld
      · rw [hNone] at hCharge
        cases hCharge
      · rw [hSame]
        exact hw.charged tx hOld payment hCharge
    · intro payment hPreimage hRecorded
      rw [hSame] at hRecorded
      obtain ⟨tx, hTx, hCharge⟩ := hw.remembered payment hPreimage hRecorded
      exact ⟨tx, hHistory ▸ List.mem_cons_of_mem _ hTx, hCharge⟩
    · intro payment
      rw [hHistory, List.countP_cons, hNone]
      exact hw.once payment
  · have hPreimage := hHashed _ hMem
    refine ⟨hFunded, ?_, ?_, ?_, hReleased⟩
    · intro tx hTx other hOther
      rw [hHistory] at hTx
      rcases List.mem_cons.mp hTx with rfl | hOld
      · rw [hCharge] at hOther
        cases hOther
        exact ⟨hPreimage, (hNew.paid payment).mpr (.inr rfl), hNew⟩
      · obtain ⟨hHashedOther, hRecorded, hCharged⟩ := hw.charged tx hOld other hOther
        exact ⟨hHashedOther, (hNew.paid other).mpr (.inl hRecorded), hCharged⟩
    · intro other hOther hRecorded
      rcases (hNew.paid other).mp hRecorded with hBefore | hKey
      · obtain ⟨tx, hTx, hOld⟩ := hw.remembered other hOther hBefore
        exact ⟨tx, hHistory ▸ List.mem_cons_of_mem _ hTx, hOld⟩
      · -- The same key comes from the same payment.
        obtain rfl := preimageOf_injective (hInj hOther hPreimage hKey)
        exact ⟨_, hHistory ▸ List.mem_cons_self, hCharge⟩
    · intro other
      rw [hHistory, List.countP_cons, hCharge]
      by_cases hOther : payment = other
      · subst hOther
        have hNever : w.history.countP (fun tx => tx.charge = some payment) = 0 := by
          rw [List.countP_eq_zero]
          intro tx hTx hOld
          have hRecorded := (hw.charged tx hTx payment (of_decide_eq_true hOld)).2.1
          have hUnpaid := hNew.unpaid
          exact Bool.false_ne_true (hUnpaid.symm.trans hRecorded)
        rw [hNever]
        split <;> omega
      · have hOnce := hw.once other
        simpa [hOther] using hOnce

theorem Deployment.sound (d : Deployment) : Sound keccak256 hashed d.self d.world := by
  have hVerifier : d.world.chain.verifier = ContentAccessVerifier.State.initial d.self := by
    have hConstructed := d.verifierConstructed
    simp only [ContentAccessVerifier.construct, bind_eq_ok_iff, pure_eq_ok_iff] at hConstructed
    obtain ⟨-, -, hState⟩ := hConstructed
    exact hState.symm
  refine ⟨⟨?_, d.unspendable, ?_, ?_⟩, ?_, ?_, ?_, ?_⟩
  · rw [hVerifier]
    rfl
  · rw [hVerifier]
    simp [ContentAccessVerifier.State.initial]
  · rw [hVerifier]
    exact Nat.zero_le _
  · intro tx hTx
    cases hTx
  · intro payment _ hRecorded
    rw [Chain.recorded, hVerifier] at hRecorded
    cases hRecorded
  · intro payment
    exact Nat.zero_le _
  · intro tx earlier hSuffix
    cases List.suffix_nil.mp hSuffix

/-- In every run that hashes without a collision: a key that is released under a record with
this verifier goes to a recipient who earlier paid exactly the fee of the record for that
content, nobody is charged twice for the same content and fee, every charge is paid in full
and credited in full to the creator the registry named at that time, and the counter of the
verifier is the sum of what can be claimed and covered by its tokens. -/
theorem keys_released_to_payers (keccak256 : Keccak) (d : Deployment) (inputs : List Input)
    (hInj : Set.InjOn keccak256 {x | x ∈ hashedAlong keccak256 d.world inputs}) :
    let w := d.after keccak256 inputs
    (∀ tx earlier, tx :: earlier <:+ w.history → tx.ReleasesPaid d.self earlier) ∧
      (∀ payment, w.history.countP (fun tx => tx.charge = some payment) ≤ 1) ∧
      (∀ tx ∈ w.history, ∀ payer contentHash feeWei,
        tx.charge = some (payer, contentHash, feeWei) →
          tx.Pays payer d.self feeWei ∧ tx.Credits contentHash feeWei) ∧
      w.chain.verifier.totalClaimable = ∑ account, w.chain.verifier.claimable account ∧
      w.chain.verifier.totalClaimable ≤ w.chain.token.balanceOf d.self := by
  intro w
  have hSteps : (machine keccak256).EveryStep
      (fun w i => ∀ x ∈ i.hashed w.chain, x ∈ hashedAlong keccak256 d.world inputs)
      d.world inputs := everyStep_hashed fun _ hx => hx
  have hSound : Sound keccak256 {x | x ∈ hashedAlong keccak256 d.world inputs} d.self w :=
    ((machine keccak256).everyState_of_everyStep _ _
      (fun _ _ _ hw hHashed hStep => hw.step hInj hHashed hStep) d.sound hSteps).last
  refine ⟨hSound.released, hSound.once, ?_, hSound.funded.total, hSound.funded.covered⟩
  intro tx hTx payer contentHash feeWei hCharge
  have hCharged := (hSound.charged tx hTx _ hCharge).2.2
  exact ⟨hCharged.pays, hCharged.credits⟩

def twoReaders : Deployment where
  self := 100
  initialOwner := 1
  ftns := 50
  registryAddress := 60
  keys := ⟨⟨1, 0⟩, fun _ => KeyDistribution.KeyRecord.zero⟩
  keysConstructed := rfl
  verifier := ContentAccessVerifier.State.initial 100
  verifierConstructed := rfl
  registry := ProvenanceRegistryV2.State.initial
  token := ⟨fun account => if account = 7 ∨ account = 8 then 20 else 0, fun _ _ => 0⟩
  unspendable := fun _ => rfl

def sampleInput (sender : Address) (call : Call) : Input :=
  ⟨smallBlock 1, sender, false, fun _ _ _ _ => none, call⟩

/-- One reader pays, tries to pay again and is released the key; the content changes hands,
the other reader pays, and the first creator claims. -/
def sampleInputs : List Input :=
  [sampleInput 9 (.registry (.registerContent 3 800 "" 0 0)),
    sampleInput 9 (.keys (.depositKey 3 [1, 2] 100 5)),
    sampleInput 7 (.token (.approve 100 10)),
    sampleInput 8 (.token (.approve 100 10)),
    sampleInput 7 (.verifier (.payForAccess 3 5)),
    sampleInput 7 (.verifier (.payForAccess 3 5)),
    sampleInput 8 (.keys (.release 3 7)),
    sampleInput 9 (.registry (.transferContentOwnership 3 10)),
    sampleInput 8 (.verifier (.payForAccess 3 5)),
    sampleInput 9 (.verifier .claim)]

theorem sampleInputs_injOn : Set.InjOn polynomialHash
    {x | x ∈ hashedAlong polynomialHash twoReaders.world sampleInputs} := by
  have hDistinct : ∀ x ∈ hashedAlong polynomialHash twoReaders.world sampleInputs,
      ∀ y ∈ hashedAlong polynomialHash twoReaders.world sampleInputs,
        polynomialHash x = polynomialHash y → x = y := by decide +kernel
  exact fun x hx y hy hSame => hDistinct x hx y hy hSame

theorem keys_released_to_payers_twoReaders :
    (twoReaders.after polynomialHash sampleInputs).history.map (·.charge) =
        [none, some (8, 3, 5), none, none, none, some (7, 3, 5), none, none, none, none] ∧
      (twoReaders.after polynomialHash sampleInputs).chain.verifier.claimable 10 = 5 ∧
      .keys (.keyReleased 3 7 [1, 2]) ∈
        (twoReaders.after polynomialHash sampleInputs).history.flatMap (·.events) ∧
      ∀ payment, (twoReaders.after polynomialHash sampleInputs).history.countP
        (fun tx => tx.charge = some payment) ≤ 1 := by
  obtain ⟨-, hOnce, -⟩ :=
    keys_released_to_payers polynomialHash twoReaders sampleInputs sampleInputs_injOn
  exact ⟨by decide +kernel, by decide +kernel, by decide +kernel, hOnce⟩

end Prsm.PaidKeys
