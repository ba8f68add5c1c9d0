import Prsm.Foundations.Machine
import Prsm.StakeBond.Operations

/-!
# `StakeBond` can pay what it owes

The contract owes the stakes to the providers, the bounties to the challengers and the reserve to
the foundation.  `LedgerMove` says what a call can do to that total: nothing, a deposit that comes
in with it, or a payment that goes out with it.  A slash is of the first kind, since it only moves
value between the three pools.

A run interleaves calls of the contract with anything other accounts do with the
token.  These never take from the contract, because it approves nobody.
-/

namespace Prsm.StakeBond

open Foundations Evm

/-- Everything the contract owes. -/
def State.obligations (s : State) : Nat :=
  (∑ provider, (s.stakes provider).amount.val) + (∑ challenger, s.slashedBountyPayable challenger) +
    s.foundationReserveBalance

theorem obligations_setStake (s : State) (provider : Address) (stake : Stake) :
    (s.setStake provider stake).obligations + (s.stakes provider).amount =
      s.obligations + stake.amount := by
  have hStakes := sum_update_entry (fun _ (b : Stake) => b.amount.val) s.stakes provider stake
  simp only [State.obligations, State.setStake]
  omega

/-! ## Slashing -/

variable {env : Env} {s s' : State} {t t' : Token} {events : List Event}

theorem Stake.slashAmount_le (stake : Stake) : stake.slashAmount ≤ stake.amount :=
  min_le_right _ _

theorem challengerShare_le (provider challenger : Address) (slashAmount : Nat) :
    challengerShare provider challenger slashAmount ≤ slashAmount := by
  unfold challengerShare challengerBountyBps
  split <;> omega

variable {provider challenger : Address}

theorem creditBounty_eq_ok {slashAmount : Nat}
    {ledger : Address → Nat}
    (h : s.creditBounty provider challenger (challengerShare provider challenger slashAmount) =
      .ok ledger) :
    ledger = Function.update s.slashedBountyPayable challenger
      (s.slashedBountyPayable challenger + challengerShare provider challenger slashAmount) := by
  unfold State.creditBounty at h
  split at h
  case isTrue hNone =>
    simp only [pure_eq_ok_iff] at h
    subst h
    have hShare : challengerShare provider challenger slashAmount = 0 := if_pos hNone
    rw [hShare, Nat.add_zero, Function.update_eq_self]
  case isFalse =>
    simp only [bind_eq_ok_iff, checkedAdd_eq_ok_iff, pure_eq_ok_iff] at h
    obtain ⟨payable, ⟨-, rfl⟩, rfl⟩ := h
    rfl

/-- What a successful slash does, and to whom. -/
structure SlashOutcome (s : State) (t : Token) (provider challenger : Address) (s' : State)
    (t' : Token) (bounty reserve : Nat) : Prop where
  state_eq : s' = { s.setStake provider ((s.stakes provider).reduce (bounty + reserve)) with
    slashedBountyPayable := Function.update s.slashedBountyPayable challenger
      (s.slashedBountyPayable challenger + bounty)
    foundationReserveBalance := s.foundationReserveBalance + reserve }
  token_eq : t' = t
  amount_le : bounty + reserve ≤ (s.stakes provider).amount
  slashable : (s.stakes provider).status.slashable = true
  no_bounty : challenger = provider ∨ challenger = 0 → bounty = 0

theorem slash_eq_ok {reasonId : Bytes32}
    (h : slash env s t provider challenger reasonId = .ok (s', t', events)) :
    ∃ bounty reserve, SlashOutcome s t provider challenger s' t' bounty reserve := by
  simp only [slash, bind_eq_ok_iff, require_eq_ok_iff, checkedAdd_eq_ok_iff, pure_eq_ok_iff,
    Prod.mk.injEq] at h
  obtain ⟨-, -, -, -, -, hSlashable, -, -, -, -, ledger, hLedger, -, ⟨-, rfl⟩, rfl, rfl, rfl⟩ := h
  have hShare := challengerShare_le provider challenger (s.stakes provider).slashAmount
  have hAmount := (s.stakes provider).slashAmount_le
  have hTotal : challengerShare provider challenger (s.stakes provider).slashAmount +
      ((s.stakes provider).slashAmount -
        challengerShare provider challenger (s.stakes provider).slashAmount) =
      (s.stakes provider).slashAmount := by
    omega
  -- The reserve gets what the bounty leaves of the slashed amount.
  refine ⟨challengerShare provider challenger (s.stakes provider).slashAmount,
    (s.stakes provider).slashAmount -
      challengerShare provider challenger (s.stakes provider).slashAmount,
    ?_, rfl, ?_, hSlashable, fun hNone => if_pos hNone⟩
  · rw [hTotal, creditBounty_eq_ok hLedger]
  · rw [hTotal]
    exact hAmount

theorem SlashOutcome.conserves {bounty reserve : Nat}
    (h : SlashOutcome s t provider challenger s' t' bounty reserve) :
    (s'.stakes provider).amount + bounty + reserve = ((s.stakes provider).amount : Nat) ∧
      s'.slashedBountyPayable challenger = s.slashedBountyPayable challenger + bounty ∧
      s'.foundationReserveBalance = s.foundationReserveBalance + reserve := by
  have hLe := h.amount_le
  rw [h.state_eq]
  refine ⟨?_, by simp, rfl⟩
  simp only [State.setStake, Function.update_self, Stake.reduce]
  omega

theorem SlashOutcome.obligations_eq {bounty reserve : Nat}
    (h : SlashOutcome s t provider challenger s' t' bounty reserve) :
    s'.obligations = s.obligations := by
  have hLe := h.amount_le
  have hStakes := sum_update_entry (fun _ (b : Stake) => b.amount.val) s.stakes provider
    ((s.stakes provider).reduce (bounty + reserve))
  have hBounties := sum_update_entry (fun _ (b : Nat) => b) s.slashedBountyPayable challenger
    (s.slashedBountyPayable challenger + bounty)
  have hReduced : ((s.stakes provider).reduce (bounty + reserve)).amount.val =
      (s.stakes provider).amount - (bounty + reserve) := rfl
  rw [h.state_eq]
  simp only [State.obligations, State.setStake]
  omega

/-! ## What a call does to the ledger -/

/-- The three kinds of change. -/
inductive LedgerMove (s : State) (t : Token) (s' : State) (t' : Token) : Prop
  | internal (hToken : t' = t) (hObligations : s'.obligations = s.obligations)
  | deposit {owner : Address} {declines : Bool} {amount : Nat} (hPositive : 0 < amount)
      (hToken : t.transferFrom declines s.self owner s.self amount = .ok (true, t'))
      (hObligations : s'.obligations ≤ s.obligations + amount)
  | payment {recipient : Address} {declines : Bool} {amount : Nat}
      (hToken : t.transfer declines s.self recipient amount = .ok (true, t'))
      (hObligations : s'.obligations + amount = s.obligations)

theorem pay_eq_ok {recipient : Address} {amount : Nat}
    (h : pay env s t recipient amount = .ok t') :
    t.transfer env.tokenDeclines s.self recipient amount = .ok (true, t') :=
  raise_eq_ok_iff.mp (flagged_eq_ok_iff.mp h)

theorem collect_eq_ok {amount : Nat} (h : collect env s t amount = .ok t') :
    t.transferFrom env.tokenDeclines s.self env.sender s.self amount = .ok (true, t') :=
  raise_eq_ok_iff.mp (flagged_eq_ok_iff.mp h)

theorem withdraw_ledgerMove (h : withdraw env s t = .ok (s', t', events)) :
    LedgerMove s t s' t' := by
  simp only [withdraw, bind_eq_ok_iff, require_eq_ok_iff, pure_eq_ok_iff, Prod.mk.injEq] at h
  obtain ⟨-, -, -, -, -, -, -, -, -, -, paid, hPay, rfl, rfl, rfl⟩ := h
  have hObligations := obligations_setStake s env.sender
    { s.stakes env.sender with amount := 0, status := .withdrawn }
  simp only [Fin.val_zero, Nat.add_zero] at hObligations
  unfold payIfAny at hPay
  split at hPay
  case isTrue => exact .payment (pay_eq_ok hPay) hObligations
  case isFalse hZero =>
    simp only [pure_eq_ok_iff] at hPay
    exact .internal hPay.symm (by omega)

/-- The fields that are fixed at construction: the address and the slasher. -/
def State.immutables (s : State) : Address × Address := (s.self, s.slasher)

theorem call_ledgerMove {c : Call} (h : call env s t c = .ok (s', t', events)) :
    LedgerMove s t s' t' ∧ s'.immutables = s.immutables := by
  cases c with
  | bond amount rate =>
      simp only [call, bond, bind_eq_ok_iff, require_eq_ok_iff, pure_eq_ok_iff,
        Prod.mk.injEq] at h
      obtain ⟨-, -, -, hNonzero, -, -, -, -, -, -, paid, hCollect, rfl, rfl, rfl⟩ := h
      refine ⟨.deposit (Nat.pos_of_ne_zero ?_) (collect_eq_ok hCollect) ?_, rfl⟩
      · exact fun hZero => hNonzero (Fin.ext hZero)
      · have hObligations := obligations_setStake s env.sender
          { amount := amount, bondedAtUnix := uint64 env.timestamp, unbondEligibleAt := 0,
            status := .bonded, tierSlashRateBps := rate }
        exact (Nat.le_add_right _ _).trans hObligations.le
  | requestUnbond =>
      simp only [call, requestUnbond, bind_eq_ok_iff, pure_eq_ok_iff, Prod.mk.injEq] at h
      obtain ⟨-, -, -, -, eligibleAt, -, rfl, rfl, rfl⟩ := h
      have hObligations := obligations_setStake s env.sender
        { s.stakes env.sender with status := .unbonding, unbondEligibleAt := uint64 eligibleAt }
      exact ⟨.internal rfl (Nat.add_right_cancel hObligations), rfl⟩
  | withdraw =>
      refine ⟨withdraw_ledgerMove h, ?_⟩
      simp only [call, withdraw, bind_eq_ok_iff, pure_eq_ok_iff, Prod.mk.injEq] at h
      obtain ⟨-, -, -, -, -, -, -, -, -, -, -, -, rfl, -, -⟩ := h
      rfl
  | slash provider challenger reasonId =>
      obtain ⟨bounty, reserve, hOutcome⟩ := slash_eq_ok h
      refine ⟨.internal hOutcome.token_eq hOutcome.obligations_eq, ?_⟩
      rw [hOutcome.state_eq]
      rfl
  | claimBounty =>
      simp only [call, claimBounty, bind_eq_ok_iff, pure_eq_ok_iff, Prod.mk.injEq] at h
      obtain ⟨-, -, -, -, paid, hPay, rfl, rfl, rfl⟩ := h
      have hBounties := sum_update_entry (fun _ (b : Nat) => b) s.slashedBountyPayable env.sender 0
      refine ⟨.payment (pay_eq_ok hPay) ?_, rfl⟩
      simp only [State.obligations]
      omega
  | drainFoundationReserve =>
      simp only [call, drainFoundationReserve, bind_eq_ok_iff, pure_eq_ok_iff,
        Prod.mk.injEq] at h
      obtain ⟨-, -, -, -, -, -, -, -, paid, hPay, rfl, rfl, rfl⟩ := h
      refine ⟨.payment (pay_eq_ok hPay) ?_, rfl⟩
      simp only [State.obligations]
      omega
  | setUnbondDelay newDelay =>
      simp only [call, setUnbondDelay, bind_eq_ok_iff, pure_eq_ok_iff, Prod.mk.injEq] at h
      obtain ⟨-, -, -, -, rfl, rfl, rfl⟩ := h
      exact ⟨.internal rfl rfl, rfl⟩
  | setStorageSlasherOnce newStorageSlasher =>
      simp only [call, setStorageSlasherOnce, bind_eq_ok_iff, pure_eq_ok_iff, Prod.mk.injEq] at h
      obtain ⟨-, -, -, -, -, -, rfl, rfl, rfl⟩ := h
      exact ⟨.internal rfl rfl, rfl⟩
  | setFoundationReserveWallet newWallet =>
      simp only [call, setFoundationReserveWallet, bind_eq_ok_iff, pure_eq_ok_iff,
        Prod.mk.injEq] at h
      obtain ⟨-, -, -, -, -, -, -, -, rfl, rfl, rfl⟩ := h
      exact ⟨.internal rfl rfl, rfl⟩
  | pause =>
      simp only [call, pause, bind_eq_ok_iff, pure_eq_ok_iff, Prod.mk.injEq] at h
      obtain ⟨-, -, -, -, rfl, rfl, rfl⟩ := h
      exact ⟨.internal rfl rfl, rfl⟩
  | unpause =>
      simp only [call, unpause, bind_eq_ok_iff, pure_eq_ok_iff, Prod.mk.injEq] at h
      obtain ⟨-, -, -, -, rfl, rfl, rfl⟩ := h
      exact ⟨.internal rfl rfl, rfl⟩
  | ownership ownershipCall =>
      simp only [call, bind_eq_ok_iff, pure_eq_ok_iff, Prod.mk.injEq] at h
      obtain ⟨ownable, -, rfl, rfl, rfl⟩ := h
      exact ⟨.internal rfl rfl, rfl⟩

structure World where
  bond : State
  token : Token

/-- A call of the contract, or of the token by some other account. -/
inductive Input
  | bond (env : Env) (call : Call)
  | token (sender : Address) (call : Token.Call)

/-- One transaction.  The contract's own address sends none. -/
def step (w : World) : Input → Option World
  | .bond env c =>
      match call env w.bond w.token c with
      | .ok (s, t, _) => some ⟨s, t⟩
      | .error _ => none
  | .token sender c =>
      if sender = w.bond.self then none
      else
        match w.token.call sender c with
        | .ok t => some ⟨w.bond, t⟩
        | .error _ => none

def machine : Machine World Input where
  step := step

/-- A deployed bond with the token it uses.  Its address is new, so nobody has an
allowance from it. -/
structure Deployment where
  self : Address
  initialOwner : Address
  ftnsAddress : Address
  initialUnbondDelay : Nat
  initialSlasher : Address
  state : State
  constructed : construct self initialOwner ftnsAddress initialUnbondDelay initialSlasher =
    .ok state
  token : Token
  unspendable : token.Unspendable self

def Deployment.world (d : Deployment) : World := ⟨d.state, d.token⟩

def Deployment.after (d : Deployment) (inputs : List Input) : World :=
  machine.run d.world inputs

/-- The contract holds what it owes, and nobody may spend from it. -/
structure Solvent (address : Address) (w : World) : Prop where
  self_eq : w.bond.self = address
  unspendable : w.token.Unspendable address
  covered : w.bond.obligations ≤ w.token.balanceOf address

theorem LedgerMove.covered {address : Address} (hMove : LedgerMove s t s' t')
    (hSelf : s.self = address) (hUnspendable : t.Unspendable address)
    (hCovered : s.obligations ≤ t.balanceOf address) :
    s'.obligations ≤ t'.balanceOf address ∧ t'.Unspendable address := by
  subst hSelf
  cases hMove with
  | internal hToken hObligations =>
      subst hToken
      exact ⟨hObligations.le.trans hCovered, hUnspendable⟩
  | @deposit owner _ amount hPositive hToken hObligations =>
      obtain ⟨hAllowance, -, hBalance, hAllowances⟩ := Token.transferFrom_eq_true hToken
      -- The contract has approved nobody, so it cannot be made to pay itself.
      have hOwner : owner ≠ s.self := by
        rintro rfl
        rw [hUnspendable] at hAllowance
        omega
      constructor
      · rw [hBalance, Token.move_balanceOf_recipient hOwner]
        omega
      · intro spender
        have hLe := hAllowances s.self spender
        rw [hUnspendable] at hLe
        omega
  | @payment recipient _ amount hToken hObligations =>
      obtain ⟨hBalance, rfl⟩ := Token.transfer_eq_true hToken
      have hKept := @Token.le_move_balanceOf_sender t s.self recipient amount hBalance
      exact ⟨by omega, hUnspendable⟩

theorem Solvent.step {address : Address} {w w' : World} {i : Input} (hw : Solvent address w)
    (h : machine.step w i = some w') : Solvent address w' := by
  cases i with
  | bond env c =>
      simp only [machine, StakeBond.step] at h
      split at h
      case h_1 s' t' events hCall =>
        cases h
        obtain ⟨hMove, hFixed⟩ := call_ledgerMove hCall
        have hSelf := congrArg Prod.fst hFixed
        obtain ⟨hCovered, hUnspendable⟩ := hMove.covered hw.self_eq hw.unspendable hw.covered
        exact ⟨hSelf.trans hw.self_eq, hUnspendable, hCovered⟩
      case h_2 => cases h
  | token sender c =>
      simp only [machine, StakeBond.step] at h
      split at h
      case isTrue => cases h
      case isFalse hSender =>
        split at h
        case h_1 t' hCall =>
          cases h
          rw [hw.self_eq] at hSender
          obtain ⟨hBalance, hUnspendable⟩ := Token.call_of_other hSender hw.unspendable hCall
          exact ⟨hw.self_eq, hUnspendable, hw.covered.trans hBalance⟩
        case h_2 => cases h

theorem Deployment.solvent (d : Deployment) : Solvent d.self d.world := by
  have hConstructed := d.constructed
  simp only [construct, bind_eq_ok_iff, pure_eq_ok_iff] at hConstructed
  obtain ⟨ownable, -, -, -, -, -, -, -, hState⟩ := hConstructed
  have hBond : d.world.bond = State.initial d.self ownable d.initialUnbondDelay d.initialSlasher :=
    hState.symm
  refine ⟨by rw [hBond]; rfl, d.unspendable, ?_⟩
  have hZero : d.world.bond.obligations = 0 := by
    rw [hBond]
    simp [State.obligations, State.initial, Stake.zero]
  omega

/-- In every state of every run the contract's token balance covers all stakes,
bounties and the reserve, and each slash takes from the stake exactly what it
credits, with no bounty for the provider itself or the zero address. -/
theorem solvency_and_slash_conservation (d : Deployment) (inputs : List Input) :
    let w := d.after inputs
    (∑ provider, (w.bond.stakes provider).amount.val) +
        (∑ challenger, w.bond.slashedBountyPayable challenger) +
        w.bond.foundationReserveBalance ≤ w.token.balanceOf d.self ∧
      ∀ env provider challenger reasonId s' t' events,
        slash env w.bond w.token provider challenger reasonId = .ok (s', t', events) →
          ∃ bounty reserve,
            (s'.stakes provider).amount + bounty + reserve =
                ((w.bond.stakes provider).amount : Nat) ∧
              s'.slashedBountyPayable challenger =
                w.bond.slashedBountyPayable challenger + bounty ∧
              s'.foundationReserveBalance = w.bond.foundationReserveBalance + reserve ∧
              (challenger = provider ∨ challenger = 0 → bounty = 0) := by
  intro w
  have hSolvent : Solvent d.self w :=
    machine.run_invariant (Solvent d.self) (fun _ _ _ hw h => hw.step h) d.solvent inputs
  refine ⟨hSolvent.covered, ?_⟩
  intro env provider challenger reasonId s' t' events hSlash
  obtain ⟨bounty, reserve, hOutcome⟩ := slash_eq_ok hSlash
  obtain ⟨hStake, hBounty, hReserve⟩ := hOutcome.conserves
  exact ⟨bounty, reserve, hStake, hBounty, hReserve, hOutcome.no_bounty⟩

end Prsm.StakeBond
