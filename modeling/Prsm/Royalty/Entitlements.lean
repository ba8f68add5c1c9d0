import Prsm.Evm.Token
import Prsm.Foundations.Machine
import Prsm.Provenance.RegistryV2

/-!
# `RoyaltyDistributor`: storage and functions

A payment for content is pulled in whole and split three ways: the creator's royalty, the
network's fee, and the rest for the node that served the content.  Each recipient collects
its share later.  A counter keeps the sum of what can be collected, and the owner may take
what the contract holds beyond it.

`preview` computes the split a second time, as in the source.
-/

namespace Prsm.Royalty

open Foundations Evm

structure State where
  ownable : Ownable2Step
  /-- `address(this)`. -/
  self : Address
  /-- Immutable. -/
  networkTreasury : Address
  claimable : Address → Nat
  totalClaimable : Nat

def networkFeeBps : Nat := 200

inductive Event
  | royaltyPaid (contentHash : Bytes32) (payer creator servingNode : Address)
      (creatorAmount networkAmount servingNodeAmount : Nat)
  | royaltyClaimed (recipient : Address) (amount : Nat)
  | strandedRecovered (recipient : Address) (amount : Nat)

inductive Error
  | platform (e : PlatformError)
  | token (e : TokenError)
  | zeroAddress
  | nothingToRecover
  | transferFailed
  | reverted (reason : String)

structure Env where
  sender : Address
  /-- The token returns `false` on a transfer. -/
  tokenDeclines : Bool

abbrev Outcome := Except Error (State × Token × List Event)

def panic : Error := .platform .panicArithmetic

def ratePlusFeeExceeds : Error := .reverted "Rate plus fee exceeds 100%"

def State.initial (self : Address) (ownable : Ownable2Step) (networkTreasury : Address) :
    State where
  ownable := ownable
  self := self
  networkTreasury := networkTreasury
  claimable := fun _ => 0
  totalClaimable := 0

def construct (self ftns registry networkTreasury initialOwner : Address) :
    Except Error State := do
  let ownable ← raise .platform (Ownable2Step.construct initialOwner)
  require (ftns ≠ 0) (.reverted "Zero ftns")
  require (registry ≠ 0) (.reverted "Zero registry")
  require (networkTreasury ≠ 0) (.reverted "Zero treasury")
  pure (State.initial self ownable networkTreasury)

/-- `claimable[recipient] += amount`, skipped when there is nothing to add. -/
def credit (claimable : Address → Nat) (recipient : Address) (amount : Nat) :
    Except Error (Address → Nat) :=
  if 0 < amount then do
    let credited ← checkedAdd 256 panic (claimable recipient) amount
    pure (Function.update claimable recipient credited)
  else
    pure claimable

def distributeRoyalty (env : Env) (r : ProvenanceRegistryV2.State) (s : State) (t : Token)
    (contentHash : Bytes32) (servingNode : Address) (gross : Nat) : Outcome := do
  require (0 < gross) (.reverted "Zero amount")
  require (servingNode ≠ 0) (.reverted "Zero serving node")
  let (creator, rateBps) := ProvenanceRegistryV2.getCreatorAndRate r contentHash
  require (creator ≠ 0) (.reverted "Not registered")
  let creatorProduct ← checkedMul 256 panic gross rateBps
  let creatorAmt := creatorProduct / 10000
  let networkProduct ← checkedMul 256 panic gross networkFeeBps
  let networkAmt := networkProduct / 10000
  let charged ← checkedAdd 256 panic creatorAmt networkAmt
  require (charged ≤ gross) ratePlusFeeExceeds
  let rest ← checkedSub panic gross creatorAmt
  let nodeAmt ← checkedSub panic rest networkAmt
  -- The payment comes in before anybody is credited, the other way round from a claim.
  let (ok, t') ← raise .token (t.transferFrom env.tokenDeclines s.self env.sender s.self gross)
  require (ok = true) (.reverted "Pull failed")
  let claimable₁ ← credit s.claimable creator creatorAmt
  let claimable₂ ← credit claimable₁ s.networkTreasury networkAmt
  let claimable₃ ← credit claimable₂ servingNode nodeAmt
  let totalClaimable ← checkedAdd 256 panic s.totalClaimable gross
  pure ({ s with claimable := claimable₃, totalClaimable := totalClaimable },
    t', [.royaltyPaid contentHash env.sender creator servingNode creatorAmt networkAmt nodeAmt])

def claim (env : Env) (s : State) (t : Token) : Outcome := do
  let amount := s.claimable env.sender
  require (0 < amount) (.reverted "Nothing to claim")
  let totalClaimable ← checkedSub panic s.totalClaimable amount
  -- The entitlement is gone from storage before the transfer.
  let (ok, t') ← raise .token (t.transfer env.tokenDeclines s.self env.sender amount)
  require (ok = true) (.reverted "Claim transfer failed")
  pure ({ s with
      claimable := Function.update s.claimable env.sender 0
      totalClaimable := totalClaimable },
    t', [.royaltyClaimed env.sender amount])

def recoverStranded (env : Env) (s : State) (t : Token) (recipient : Address) : Outcome := do
  raise .platform (s.ownable.onlyOwner env.sender)
  require (recipient ≠ 0) .zeroAddress
  let bal := t.balanceOf s.self
  require (s.totalClaimable < bal) .nothingToRecover
  let excess ← checkedSub panic bal s.totalClaimable
  let (ok, t') ← raise .token (t.transfer env.tokenDeclines s.self recipient excess)
  require (ok = true) .transferFailed
  pure (s, t', [.strandedRecovered recipient excess])

def preview (r : ProvenanceRegistryV2.State) (contentHash : Bytes32) (gross : Nat) :
    Except Error (Nat × Nat × Nat) := do
  let (creator, rateBps) := ProvenanceRegistryV2.getCreatorAndRate r contentHash
  require (creator ≠ 0) (.reverted "Not registered")
  let creatorProduct ← checkedMul 256 panic gross rateBps
  let creatorAmount := creatorProduct / 10000
  let networkProduct ← checkedMul 256 panic gross networkFeeBps
  let networkAmount := networkProduct / 10000
  let charged ← checkedAdd 256 panic creatorAmount networkAmount
  require (charged ≤ gross) ratePlusFeeExceeds
  let rest ← checkedSub panic gross creatorAmount
  let servingNodeAmount ← checkedSub panic rest networkAmount
  pure (creatorAmount, networkAmount, servingNodeAmount)

inductive Call
  | distributeRoyalty (contentHash : Bytes32) (servingNode : Address) (gross : Uint 256)
  | claim
  | recoverStranded (recipient : Address)
  | ownership (call : Ownable2Step.Call)

def call (env : Env) (r : ProvenanceRegistryV2.State) (s : State) (t : Token) : Call → Outcome
  | .distributeRoyalty contentHash servingNode gross =>
      distributeRoyalty env r s t contentHash servingNode gross
  | .claim => claim env s t
  | .recoverStranded recipient => recoverStranded env s t recipient
  | .ownership c => do
      let ownable ← raise .platform (s.ownable.call env.sender c)
      pure ({ s with ownable := ownable }, t, [])

end Prsm.Royalty

/-!
# Royalties can be collected, and are what was announced

The registry limits the royalty rate so that rate and fee together never exceed the
whole.  The split of a payment then always adds up, `preview` announces it, and a
distribution credits it.

What has been credited and not collected is the counter of the contract, and the
contract holds that much of the token.  Recovery of stranded tokens takes what is beyond
the counter and no more, so it never comes in the way of a claim.
-/

namespace Prsm.Royalty

open Foundations Evm

variable {env : Env} {r : ProvenanceRegistryV2.State} {s s' : State} {t t' : Token}
  {events : List Event}

/-- The share of `gross` that a rate in basis points takes. -/
def share (gross rateBps : Nat) : Nat := gross * rateBps / 10000

/-- What rate and fee leave for the node. -/
def nodeShare (gross rateBps : Nat) : Nat :=
  gross - share gross rateBps - share gross networkFeeBps

theorem share_add_fee_le {rateBps : Nat} (gross : Nat)
    (hRate : rateBps ≤ ProvenanceRegistryV2.maxRoyaltyRateBps) :
    share gross rateBps + share gross networkFeeBps ≤ gross := by
  have hTotal : rateBps + networkFeeBps ≤ 10000 := by
    unfold ProvenanceRegistryV2.maxRoyaltyRateBps at hRate
    unfold networkFeeBps
    omega
  calc share gross rateBps + share gross networkFeeBps
      ≤ (gross * rateBps + gross * networkFeeBps) / 10000 := Nat.div_add_div_le_add_div
    _ = gross * (rateBps + networkFeeBps) / 10000 := by rw [Nat.mul_add]
    _ ≤ gross * 10000 / 10000 := Nat.div_le_div_right (Nat.mul_le_mul_left gross hTotal)
    _ = gross := Nat.mul_div_cancel gross (by norm_num)

theorem split_eq_gross {rateBps : Nat} (gross : Nat)
    (hRate : rateBps ≤ ProvenanceRegistryV2.maxRoyaltyRateBps) :
    share gross rateBps + share gross networkFeeBps + nodeShare gross rateBps = gross := by
  have hLe := share_add_fee_le gross hRate
  unfold nodeShare
  omega

variable {contentHash : Bytes32} {gross : Nat} {recipient : Address}

theorem preview_of_registered (hs : r.RatesLimited)
    (hRegistered : (r.contents contentHash).creator ≠ 0)
    (hRoyalty : gross * (r.contents contentHash).royaltyRateBps < 2 ^ 256)
    (hFee : gross * networkFeeBps < 2 ^ 256) :
    preview r contentHash gross =
      .ok (share gross (r.contents contentHash).royaltyRateBps, share gross networkFeeBps,
        nodeShare gross (r.contents contentHash).royaltyRateBps) := by
  have hLe := share_add_fee_le gross (hs contentHash)
  have hCharged : gross * (r.contents contentHash).royaltyRateBps / 10000 +
      gross * networkFeeBps / 10000 ≤ gross := hLe
  -- The sum of the two shares is at most the fee's product, which fits.
  have hFits : gross < 2 ^ 256 :=
    (Nat.le_mul_of_pos_right gross (by decide)).trans_lt hFee
  have hContent : ProvenanceRegistryV2.getCreatorAndRate r contentHash =
      ((r.contents contentHash).creator, (r.contents contentHash).royaltyRateBps) := rfl
  rw [preview, hContent]
  simp only [require_of_pos _ hRegistered, checkedMul_of_lt _ hRoyalty, checkedMul_of_lt _ hFee,
    checkedAdd_of_lt _ (hCharged.trans_lt hFits), require_of_pos _ hCharged,
    checkedSub_of_le _ ((Nat.le_add_right _ _).trans hCharged),
    checkedSub_of_le _ (Nat.le_sub_of_add_le' hCharged), ok_bind]
  rfl

/-! ## Crediting -/

theorem credit_eq_ok {claimable claimable' : Address → Nat} {amount : Nat}
    (h : credit claimable recipient amount = .ok claimable') :
    claimable' = Function.update claimable recipient (claimable recipient + amount) := by
  unfold credit at h
  split at h
  case isTrue =>
    simp only [bind_eq_ok_iff, checkedAdd_eq_ok_iff, pure_eq_ok_iff] at h
    obtain ⟨_, ⟨-, rfl⟩, rfl⟩ := h
    rfl
  case isFalse hNone =>
    simp only [pure_eq_ok_iff] at h
    have hZero : amount = 0 := Nat.eq_zero_of_not_pos hNone
    rw [← h, hZero, Nat.add_zero, Function.update_eq_self]

theorem credit_ne_reverted {claimable : Address → Nat} {amount : Nat}
    {reason : String} : credit claimable recipient amount ≠ .error (.reverted reason) := by
  intro h
  unfold credit at h
  split at h
  case isTrue =>
    simp only [bind_eq_error_iff, checkedAdd_eq_error_iff, pure_ne_error, and_false, exists_false,
      or_false] at h
    cases h.2
  case isFalse => cases h

theorem update_add_apply (f : Address → Nat) (recipient account : Address) (amount : Nat) :
    Function.update f recipient (f recipient + amount) account =
      f account + if account = recipient then amount else 0 := by
  by_cases hAccount : account = recipient
  · rw [hAccount, Function.update_self, if_pos rfl]
  · rw [Function.update_of_ne hAccount, if_neg hAccount, Nat.add_zero]

theorem sum_update_add (f : Address → Nat) (recipient : Address) (amount : Nat) :
    ∑ account, Function.update f recipient (f recipient + amount) account =
      (∑ account, f account) + amount := by
  have hSum := sum_update_entry (fun _ (balance : Nat) => balance) f recipient
    (f recipient + amount)
  omega

/-- A distribution: the payment comes in, and each share of it is credited. -/
structure Distribution (r : ProvenanceRegistryV2.State) (s : State) (t : Token)
    (contentHash : Bytes32) (servingNode : Address) (gross : Nat) (s' : State) (t' : Token) :
    Prop where
  paid : 0 < gross
  fits_royalty : gross * (r.contents contentHash).royaltyRateBps < 2 ^ 256
  fits_fee : gross * networkFeeBps < 2 ^ 256
  registered : (r.contents contentHash).creator ≠ 0
  charged_le : share gross (r.contents contentHash).royaltyRateBps +
    share gross networkFeeBps ≤ gross
  token_eq : ∃ payer declines, t.transferFrom declines s.self payer s.self gross = .ok (true, t')
  credited : ∀ account, s'.claimable account = s.claimable account +
    (if account = (r.contents contentHash).creator then
      share gross (r.contents contentHash).royaltyRateBps else 0) +
    (if account = s.networkTreasury then share gross networkFeeBps else 0) +
    (if account = servingNode then nodeShare gross (r.contents contentHash).royaltyRateBps else 0)
  sum_eq : ∑ account, s'.claimable account = (∑ account, s.claimable account) + gross
  total_eq : s'.totalClaimable = s.totalClaimable + gross
  self_eq : s'.self = s.self

theorem distributeRoyalty_eq_ok {servingNode : Address}
    (h : distributeRoyalty env r s t contentHash servingNode gross = .ok (s', t', events)) :
    Distribution r s t contentHash servingNode gross s' t' := by
  simp only [distributeRoyalty, bind_eq_ok_iff, require_eq_ok_iff, checkedMul_eq_ok_iff,
    checkedAdd_eq_ok_iff, checkedSub_eq_ok_iff, raise_eq_ok_iff, pure_eq_ok_iff,
    Prod.mk.injEq] at h
  obtain ⟨-, hPaid, -, -, -, hRegistered, _, ⟨hRoyalty, rfl⟩, _, ⟨hFee, rfl⟩, _, ⟨-, rfl⟩, -,
    hCharged, _, ⟨-, rfl⟩, _, ⟨-, rfl⟩, ⟨ok, t₁⟩, hToken, -, hOk, c₁, h₁, c₂, h₂, c₃, h₃, _,
    ⟨-, rfl⟩, rfl, rfl, -⟩ := h
  have hTrue : ok = true := hOk
  subst hTrue
  have e₁ := credit_eq_ok h₁
  have e₂ := credit_eq_ok h₂
  have e₃ := credit_eq_ok h₃
  refine ⟨hPaid, hRoyalty, hFee, hRegistered, hCharged, ⟨env.sender, env.tokenDeclines, hToken⟩,
    fun account => ?_, ?_, rfl, rfl⟩
  · show c₃ account = _
    rw [e₃, update_add_apply, e₂, update_add_apply, e₁, update_add_apply]
    rfl
  · show ∑ account, c₃ account = _
    rw [e₃, sum_update_add, e₂, sum_update_add, e₁, sum_update_add]
    omega

/-- The kinds of change to what can be collected. -/
inductive LedgerMove (s : State) (t : Token) (s' : State) (t' : Token) : Prop
  | distribution {r : ProvenanceRegistryV2.State} {contentHash : Bytes32} {servingNode : Address}
      {gross : Nat} (hMove : Distribution r s t contentHash servingNode gross s' t')
  | claim {recipient : Address} (hPositive : 0 < s.claimable recipient)
      (hTotal : s.claimable recipient ≤ s.totalClaimable)
      (hToken : s.claimable recipient ≤ t.balanceOf s.self)
      (hState : s' = { s with
        claimable := Function.update s.claimable recipient 0
        totalClaimable := s.totalClaimable - s.claimable recipient })
      (hMoved : t' = t.move s.self recipient (s.claimable recipient))
  | recovery {recipient : Address} (hExcess : s.totalClaimable < t.balanceOf s.self)
      (hState : s' = s)
      (hMoved : t' = t.move s.self recipient (t.balanceOf s.self - s.totalClaimable))
  | kept (hClaimable : s'.claimable = s.claimable)
      (hTotal : s'.totalClaimable = s.totalClaimable) (hSelf : s'.self = s.self)
      (hToken : t' = t)

theorem recoverStranded_eq_ok
    (h : recoverStranded env s t recipient = .ok (s', t', events)) :
    s.totalClaimable < t.balanceOf s.self ∧ s' = s ∧
      t' = t.move s.self recipient (t.balanceOf s.self - s.totalClaimable) := by
  simp only [recoverStranded, bind_eq_ok_iff, require_eq_ok_iff, checkedSub_eq_ok_iff,
    raise_eq_ok_iff, pure_eq_ok_iff, Prod.mk.injEq] at h
  obtain ⟨-, -, -, -, -, hExcess, _, ⟨-, rfl⟩, ⟨ok, t₁⟩, hTransfer, -, rfl, rfl, rfl, -⟩ := h
  exact ⟨hExcess, rfl, (Token.transfer_eq_true hTransfer).2⟩

theorem call_ledgerMove {c : Call} (h : call env r s t c = .ok (s', t', events)) :
    LedgerMove s t s' t' := by
  cases c with
  | distributeRoyalty contentHash servingNode gross =>
      exact .distribution (distributeRoyalty_eq_ok h)
  | claim =>
      simp only [call, Royalty.claim, bind_eq_ok_iff, require_eq_ok_iff, checkedSub_eq_ok_iff,
        raise_eq_ok_iff, pure_eq_ok_iff, Prod.mk.injEq] at h
      obtain ⟨-, hPositive, _, ⟨hTotal, rfl⟩, ⟨ok, t₁⟩, hTransfer, -, rfl, rfl, rfl, -⟩ := h
      obtain ⟨hToken, hMoved⟩ := Token.transfer_eq_true hTransfer
      exact .claim hPositive hTotal hToken rfl hMoved
  | recoverStranded recipient =>
      obtain ⟨hExcess, hState, hMoved⟩ := recoverStranded_eq_ok h
      exact .recovery hExcess hState hMoved
  | ownership ownershipCall =>
      simp only [call, bind_eq_ok_iff, pure_eq_ok_iff, Prod.mk.injEq] at h
      obtain ⟨ownable, -, rfl, rfl, -⟩ := h
      exact .kept rfl rfl rfl rfl

structure World where
  registry : ProvenanceRegistryV2.State
  distributor : State
  token : Token

/-- A call of the registry or of the distributor, or of the token by some other
account. -/
inductive Input
  | registry (env : ProvenanceRegistryV2.Env) (call : ProvenanceRegistryV2.Call)
  | distributor (env : Env) (call : Call)
  | token (sender : Address) (call : Token.Call)

/-- One transaction.  The distributor's own address sends none. -/
def step (w : World) : Input → Option World
  | .registry env c =>
      match ProvenanceRegistryV2.call env w.registry c with
      | .ok (r, _) => some { w with registry := r }
      | .error _ => none
  | .distributor env c =>
      match call env w.registry w.distributor w.token c with
      | .ok (s, t, _) => some { w with distributor := s, token := t }
      | .error _ => none
  | .token sender c =>
      if sender = w.distributor.self then none
      else
        match w.token.call sender c with
        | .ok t => some { w with token := t }
        | .error _ => none

def machine : Machine World Input where
  step := step

/-- A deployed distributor with its token, and a registry.  The distributor's address is
new, so nobody has an allowance from it. -/
structure Deployment where
  self : Address
  ftns : Address
  registry : Address
  networkTreasury : Address
  initialOwner : Address
  state : State
  constructed : construct self ftns registry networkTreasury initialOwner = .ok state
  token : Token
  unspendable : token.Unspendable self

def Deployment.world (d : Deployment) : World :=
  ⟨ProvenanceRegistryV2.State.initial, d.state, d.token⟩

def Deployment.after (d : Deployment) (inputs : List Input) : World :=
  machine.run d.world inputs

/-- The counter is the sum of what can be collected, the contract holds that much and
nobody may spend from it, and the rates are limited. -/
structure Entitled (address : Address) (w : World) : Prop where
  self_eq : w.distributor.self = address
  unspendable : w.token.Unspendable address
  total_eq : w.distributor.totalClaimable = ∑ account, w.distributor.claimable account
  covered : w.distributor.totalClaimable ≤ w.token.balanceOf address
  rates_limited : w.registry.RatesLimited

theorem LedgerMove.keeps (hMove : LedgerMove s t s' t') (hUnspendable : t.Unspendable s.self)
    (hTotal : s.totalClaimable = ∑ account, s.claimable account)
    (hCovered : s.totalClaimable ≤ t.balanceOf s.self) :
    s'.self = s.self ∧ t'.Unspendable s.self ∧
      s'.totalClaimable = ∑ account, s'.claimable account ∧
      s'.totalClaimable ≤ t'.balanceOf s.self := by
  cases hMove with
  | @distribution r contentHash servingNode gross hMove =>
      obtain ⟨payer, declines, hToken⟩ := hMove.token_eq
      obtain ⟨hAllowance, -, hBalance, hAllowances⟩ := Token.transferFrom_eq_true hToken
      have hPaid := hMove.paid
      -- The contract has approved nobody, so it cannot be made to pay itself.
      have hOther : payer ≠ s.self := by
        rintro rfl
        rw [hUnspendable] at hAllowance
        omega
      refine ⟨hMove.self_eq, fun spender => ?_, ?_, ?_⟩
      · have hLe := hAllowances s.self spender
        rw [hUnspendable] at hLe
        exact Nat.le_zero.mp hLe
      · rw [hMove.total_eq, hMove.sum_eq, hTotal]
      · rw [hMove.total_eq, hBalance, Token.move_balanceOf_recipient hOther]
        exact Nat.add_le_add_right hCovered gross
  | @claim recipient hPositive hLe hToken hState hMoved =>
      have hSum := sum_update_entry (fun _ (balance : Nat) => balance) s.claimable recipient 0
      have hKept := @Token.le_move_balanceOf_sender t s.self recipient _ hToken
      subst hState hMoved
      refine ⟨rfl, hUnspendable, ?_, ?_⟩
      · show s.totalClaimable - s.claimable recipient =
          ∑ account, Function.update s.claimable recipient 0 account
        omega
      · show s.totalClaimable - s.claimable recipient ≤ _
        omega
  | @recovery recipient hExcess hState hMoved =>
      have hKept := @Token.le_move_balanceOf_sender t s.self recipient _
        (Nat.sub_le (t.balanceOf s.self) s.totalClaimable)
      subst hState hMoved
      refine ⟨rfl, hUnspendable, hTotal, ?_⟩
      omega
  | kept hClaimable hSame hSelf hToken =>
      rw [hToken, hSame, hClaimable]
      exact ⟨hSelf, hUnspendable, hTotal, hCovered⟩

theorem Entitled.distributorCall {address : Address} {w : World} {c : Call}
    (hw : Entitled address w)
    (hCall : call env w.registry w.distributor w.token c = .ok (s', t', events)) :
    Entitled address { w with distributor := s', token := t' } := by
  have hSelf := hw.self_eq
  subst hSelf
  obtain ⟨hSelf, hUnspendable, hTotal, hCovered⟩ :=
    (call_ledgerMove hCall).keeps hw.unspendable hw.total_eq hw.covered
  exact ⟨hSelf, hUnspendable, hTotal, hCovered, hw.rates_limited⟩

theorem Entitled.step {address : Address} {w w' : World} {i : Input} (hw : Entitled address w)
    (h : machine.step w i = some w') : Entitled address w' := by
  cases i with
  | registry env c =>
      simp only [machine, Royalty.step] at h
      split at h
      case h_1 hCall =>
        cases h
        exact ⟨hw.self_eq, hw.unspendable, hw.total_eq, hw.covered, hw.rates_limited.call hCall⟩
      case h_2 => cases h
  | distributor env c =>
      simp only [machine, Royalty.step] at h
      split at h
      case h_1 hCall => cases h; exact hw.distributorCall hCall
      case h_2 => cases h
  | token sender c =>
      simp only [machine, Royalty.step] at h
      split at h
      case isTrue => cases h
      case isFalse hSender =>
        split at h
        case h_1 hCall =>
          cases h
          rw [hw.self_eq] at hSender
          obtain ⟨hBalance, hUnspendable⟩ := Token.call_of_other hSender hw.unspendable hCall
          exact ⟨hw.self_eq, hUnspendable, hw.total_eq, hw.covered.trans hBalance,
            hw.rates_limited⟩
        case h_2 => cases h

theorem Deployment.entitled (d : Deployment) : Entitled d.self d.world := by
  have hConstructed := d.constructed
  simp only [construct, bind_eq_ok_iff, pure_eq_ok_iff] at hConstructed
  obtain ⟨ownable, -, -, -, -, -, -, -, hState⟩ := hConstructed
  have hDistributor : d.world.distributor = State.initial d.self ownable d.networkTreasury :=
    hState.symm
  refine ⟨by rw [hDistributor]; rfl, d.unspendable, ?_, ?_,
    ProvenanceRegistryV2.ratesLimited_initial⟩
  · rw [hDistributor]
    simp [State.initial]
  · rw [hDistributor]
    exact Nat.zero_le _

/-! ## Entitlements -/

theorem claim_of_entitled (hTotal : s.totalClaimable = ∑ account, s.claimable account)
    (hCovered : s.totalClaimable ≤ t.balanceOf s.self) (hPositive : 0 < s.claimable env.sender)
    (hAccepts : env.tokenDeclines = false) : ∃ result, claim env s t = .ok result := by
  have hShare : s.claimable env.sender ≤ s.totalClaimable := by
    rw [hTotal]
    exact le_sum_mapping s.claimable env.sender
  have hTransfer :=
    @Token.transfer_of_le t s.self env.sender (s.claimable env.sender) (hShare.trans hCovered)
  refine ⟨({ s with
      claimable := Function.update s.claimable env.sender 0
      totalClaimable := s.totalClaimable - s.claimable env.sender },
    t.move s.self env.sender (s.claimable env.sender),
    [.royaltyClaimed env.sender (s.claimable env.sender)]), ?_⟩
  simp only [claim, require_of_pos _ hPositive, checkedSub_of_le _ hShare, hAccepts, hTransfer,
    ok_bind]
  rfl

theorem distributeRoyalty_ne_ratePlusFeeExceeds {servingNode : Address} (hr : r.RatesLimited) :
    distributeRoyalty env r s t contentHash servingNode gross ≠ .error ratePlusFeeExceeds := by
  intro h
  have hContent : ProvenanceRegistryV2.getCreatorAndRate r contentHash =
      ((r.contents contentHash).creator, (r.contents contentHash).royaltyRateBps) := rfl
  rw [distributeRoyalty, hContent] at h
  simp only [bind_eq_error_iff, require_eq_error_iff, require_eq_ok_iff, checkedMul_eq_error_iff,
    checkedAdd_eq_error_iff, checkedSub_eq_error_iff, raise_eq_error_iff, pure_ne_error,
    checkedMul_eq_ok_iff, checkedAdd_eq_ok_iff, credit_ne_reverted, ratePlusFeeExceeds, panic,
    reduceCtorEq, String.reduceEq, Error.reverted.injEq, and_false, exists_false, or_false,
    false_or, and_true] at h
  -- The only check left is the one on the sum of the two shares.
  obtain ⟨-, -, -, -, -, -, _, ⟨-, rfl⟩, _, ⟨-, rfl⟩, _, ⟨-, rfl⟩, hExceeds⟩ := h
  exact hExceeds (share_add_fee_le gross (hr contentHash))

/-- In every state of every run the counter is the sum of all claimable balances and is
covered by the contract's tokens.  Recovery of stranded tokens changes no balance, and
after it whoever has something to collect can collect it.  For registered content the
split that `preview` returns adds up to the whole and is what a distribution credits, and
neither of the two fails in the check of rate plus fee. -/
theorem entitlements_safe (d : Deployment) (inputs : List Input) :
    let w := d.after inputs
    w.distributor.totalClaimable = ∑ account, w.distributor.claimable account ∧
      w.distributor.totalClaimable ≤ w.token.balanceOf d.self ∧
      (∀ env recipient s' t' events,
        recoverStranded env w.distributor w.token recipient = .ok (s', t', events) →
          s'.claimable = w.distributor.claimable ∧
          ∀ env', 0 < s'.claimable env'.sender → env'.tokenDeclines = false →
            ∃ result, claim env' s' t' = .ok result) ∧
      ∀ contentHash, (w.registry.contents contentHash).creator ≠ 0 →
        (∀ gross : Nat, gross * (w.registry.contents contentHash).royaltyRateBps < 2 ^ 256 →
          gross * networkFeeBps < 2 ^ 256 →
          ∃ creatorAmount networkAmount servingNodeAmount,
            preview w.registry contentHash gross =
                .ok (creatorAmount, networkAmount, servingNodeAmount) ∧
              creatorAmount + networkAmount + servingNodeAmount = gross ∧
              ∀ env servingNode s' t' events,
                distributeRoyalty env w.registry w.distributor w.token contentHash servingNode
                    gross = .ok (s', t', events) →
                  ∀ account, s'.claimable account = w.distributor.claimable account +
                    (if account = (w.registry.contents contentHash).creator then creatorAmount
                      else 0) +
                    (if account = w.distributor.networkTreasury then networkAmount else 0) +
                    (if account = servingNode then servingNodeAmount else 0)) ∧
        ∀ env servingNode (gross : Nat),
          distributeRoyalty env w.registry w.distributor w.token contentHash servingNode gross ≠
            .error ratePlusFeeExceeds := by
  intro w
  have hEntitled : Entitled d.self w :=
    machine.run_invariant (Entitled d.self) (fun _ _ _ hw h => hw.step h) d.entitled inputs
  have hSelf := hEntitled.self_eq
  refine ⟨hEntitled.total_eq, hEntitled.covered, ?_, ?_⟩
  · intro env recipient s' t' events hRecover
    obtain ⟨hExcess, hState, hMoved⟩ := recoverStranded_eq_ok hRecover
    have hMove : LedgerMove w.distributor w.token s' t' := .recovery hExcess hState hMoved
    obtain ⟨hSelf', -, hTotal, hCovered⟩ := hMove.keeps (hSelf ▸ hEntitled.unspendable)
      hEntitled.total_eq (hSelf ▸ hEntitled.covered)
    refine ⟨by rw [hState], fun env' hPositive hAccepts => ?_⟩
    exact claim_of_entitled hTotal (hSelf' ▸ hCovered) hPositive hAccepts
  · intro contentHash hRegistered
    refine ⟨fun gross hRoyalty hFee => ?_, fun env servingNode gross => ?_⟩
    · refine ⟨_, _, _, preview_of_registered hEntitled.rates_limited hRegistered hRoyalty hFee,
        split_eq_gross gross (hEntitled.rates_limited contentHash), ?_⟩
      intro env servingNode s' t' events hDistribute
      exact (distributeRoyalty_eq_ok hDistribute).credited
    · exact distributeRoyalty_ne_ratePlusFeeExceeds hEntitled.rates_limited

end Prsm.Royalty
