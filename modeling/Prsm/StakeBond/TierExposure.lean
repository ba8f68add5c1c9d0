import Prsm.StakeBond.Solvency

/-!
# A tier comes with a slash rate

The tier of a provider is read off its current stake, while the rate at which the
stake is slashed is fixed when the stake is posted and only checked against a floor
there.  Between the two the amount moves.  It only ever moves down, so the floor that
the posting met is still met: `Stake.Floored` is kept by every change a call can make
to a stake, and `StakeChange` lists these changes.

A stake with a tier is then large enough, and its rate high enough, for a slash to
take something.
-/

namespace Prsm.StakeBond

open Foundations Evm

variable {env : Env} {s s' : State} {t t' : Token} {events : List Event}

/-! ## The floor of the slash rate -/

theorem minSlashRateForAmount_mono {a b : Nat} (h : a ≤ b) :
    minSlashRateForAmount a ≤ minSlashRateForAmount b := by
  unfold minSlashRateForAmount
  split_ifs <;> omega

/-- The rate of a stake that can be slashed meets the floor of its amount, and is at
most the whole. -/
def Stake.Floored (stake : Stake) : Prop :=
  stake.status.slashable = true →
    minSlashRateForAmount stake.amount ≤ stake.tierSlashRateBps ∧ stake.tierSlashRateBps ≤ 10000

/-- What one call can do to one stake. -/
inductive StakeChange (old : Stake) : Stake → Prop
  | kept : StakeChange old old
  | bonded {new : Stake} (hRate : new.tierSlashRateBps ≤ 10000)
      (hFloor : minSlashRateForAmount new.amount ≤ new.tierSlashRateBps) : StakeChange old new
  | unbonding {eligibleAt : Nat} (hBonded : old.status = .bonded) :
      StakeChange old { old with status := .unbonding, unbondEligibleAt := eligibleAt }
  | withdrawn : StakeChange old { old with amount := 0, status := .withdrawn }
  | slashed {amount : Nat} : StakeChange old (old.reduce amount)

theorem StakeChange.floored {old new : Stake} (hChange : StakeChange old new)
    (hOld : old.Floored) : new.Floored := by
  cases hChange with
  | kept => exact hOld
  | bonded hRate hFloor => exact fun _ => ⟨hFloor, hRate⟩
  | unbonding hBonded =>
      intro _
      exact hOld (by rw [hBonded]; rfl)
  | withdrawn =>
      intro hSlashable
      cases hSlashable
  | @slashed amount =>
      intro hSlashable
      obtain ⟨hFloor, hRate⟩ := hOld hSlashable
      -- The floor of what is left is no higher than the floor of the whole.
      have hLess : old.amount - amount ≤ (old.amount : Nat) := Nat.sub_le _ _
      exact ⟨(minSlashRateForAmount_mono hLess).trans hFloor, hRate⟩

theorem setStake_change {provider : Address} {stake : Stake}
    (hChange : StakeChange (s.stakes provider) stake) (account : Address) :
    StakeChange (s.stakes account) ((s.setStake provider stake).stakes account) := by
  by_cases hAccount : account = provider
  · subst hAccount
    simpa only [State.setStake, Function.update_self] using hChange
  · simp only [State.setStake, Function.update_of_ne hAccount]
    exact .kept

theorem call_stakeChange {c : Call} (h : call env s t c = .ok (s', t', events))
    (account : Address) : StakeChange (s.stakes account) (s'.stakes account) := by
  cases c with
  | bond amount rate =>
      simp only [call, bond, bind_eq_ok_iff, require_eq_ok_iff, pure_eq_ok_iff,
        Prod.mk.injEq] at h
      obtain ⟨-, -, -, -, -, hRate, -, hFloor, -, -, -, -, rfl, -, -⟩ := h
      exact setStake_change (.bonded hRate hFloor) account
  | requestUnbond =>
      simp only [call, requestUnbond, bind_eq_ok_iff, require_eq_ok_iff, pure_eq_ok_iff,
        Prod.mk.injEq] at h
      obtain ⟨-, -, -, hBonded, -, -, rfl, -, -⟩ := h
      exact setStake_change (.unbonding hBonded) account
  | withdraw =>
      simp only [call, withdraw, bind_eq_ok_iff, pure_eq_ok_iff, Prod.mk.injEq] at h
      obtain ⟨-, -, -, -, -, -, -, -, -, -, -, -, rfl, -, -⟩ := h
      exact setStake_change .withdrawn account
  | slash provider challenger reasonId =>
      obtain ⟨bounty, reserve, hOutcome⟩ := slash_eq_ok h
      rw [hOutcome.state_eq]
      exact setStake_change .slashed account
  | claimBounty =>
      simp only [call, claimBounty, bind_eq_ok_iff, pure_eq_ok_iff, Prod.mk.injEq] at h
      obtain ⟨-, -, -, -, -, -, rfl, -, -⟩ := h
      exact .kept
  | drainFoundationReserve =>
      simp only [call, drainFoundationReserve, bind_eq_ok_iff, pure_eq_ok_iff,
        Prod.mk.injEq] at h
      obtain ⟨-, -, -, -, -, -, -, -, -, -, rfl, -, -⟩ := h
      exact .kept
  | setUnbondDelay newDelay =>
      simp only [call, setUnbondDelay, bind_eq_ok_iff, pure_eq_ok_iff, Prod.mk.injEq] at h
      obtain ⟨-, -, -, -, rfl, -, -⟩ := h
      exact .kept
  | setStorageSlasherOnce newStorageSlasher =>
      simp only [call, setStorageSlasherOnce, bind_eq_ok_iff, pure_eq_ok_iff, Prod.mk.injEq] at h
      obtain ⟨-, -, -, -, -, -, rfl, -, -⟩ := h
      exact .kept
  | setFoundationReserveWallet newWallet =>
      simp only [call, setFoundationReserveWallet, bind_eq_ok_iff, pure_eq_ok_iff,
        Prod.mk.injEq] at h
      obtain ⟨-, -, -, -, -, -, -, -, rfl, -, -⟩ := h
      exact .kept
  | pause =>
      simp only [call, pause, bind_eq_ok_iff, pure_eq_ok_iff, Prod.mk.injEq] at h
      obtain ⟨-, -, -, -, rfl, -, -⟩ := h
      exact .kept
  | unpause =>
      simp only [call, unpause, bind_eq_ok_iff, pure_eq_ok_iff, Prod.mk.injEq] at h
      obtain ⟨-, -, -, -, rfl, -, -⟩ := h
      exact .kept
  | ownership ownershipCall =>
      simp only [call, bind_eq_ok_iff, pure_eq_ok_iff, Prod.mk.injEq] at h
      obtain ⟨ownable, -, rfl, -, -⟩ := h
      exact .kept

/-! ## What a slash of a stake with a tier takes -/

theorem bonded_of_effectiveTier {provider : Address} (hTier : effectiveTier s provider ≠ "open") :
    (s.stakes provider).status = .bonded ∧ 5000 * 10 ^ 18 ≤ (s.stakes provider).amount.val := by
  simp only [effectiveTier] at hTier
  split_ifs at hTier with hStatus hCritical hPremium hStandard
  all_goals first
    | exact absurd rfl hTier
    | exact ⟨not_not.mp hStatus, by omega⟩

theorem floor_le_slashAmount {stake : Stake} (hAmount : 5000 * 10 ^ 18 ≤ stake.amount.val)
    (hFloor : minSlashRateForAmount stake.amount ≤ stake.tierSlashRateBps)
    (hRate : stake.tierSlashRateBps ≤ 10000) :
    stake.amount * stake.tierSlashRateBps / 10000 ≠ 0 ∧
      stake.amount * minSlashRateForAmount stake.amount / 10000 ≤ stake.slashAmount := by
  have hMin : 5000 ≤ minSlashRateForAmount stake.amount := by
    unfold minSlashRateForAmount
    split_ifs <;> omega
  have hProduct : 10000 ≤ stake.amount.val * stake.tierSlashRateBps :=
    calc 10000 ≤ 5000 * 10 ^ 18 * 5000 := by norm_num
      _ ≤ stake.amount.val * stake.tierSlashRateBps :=
        Nat.mul_le_mul hAmount (hMin.trans hFloor)
  have hWhole : stake.amount.val * stake.tierSlashRateBps / 10000 ≤ stake.amount.val :=
    calc stake.amount.val * stake.tierSlashRateBps / 10000
        ≤ stake.amount.val * 10000 / 10000 :=
          Nat.div_le_div_right (Nat.mul_le_mul_left _ hRate)
      _ = stake.amount.val := Nat.mul_div_cancel _ (by norm_num)
  constructor
  · exact (Nat.div_pos hProduct (by norm_num)).ne'
  · rw [Stake.slashAmount, Nat.min_eq_left hWhole]
    exact Nat.div_le_div_right (Nat.mul_le_mul_left _ hFloor)

/-- Who may slash, and when. -/
def SlashAuthorised (env : Env) (s : State) : Prop :=
  (env.sender = s.slasher ∨ env.sender = s.storageSlasher) ∧ s.paused = false

theorem creditBounty_eq_error {provider challenger : Address} {bounty : Nat} {e : Error}
    (h : s.creditBounty provider challenger bounty = .error e) :
    e = panic ∧ 2 ^ 256 ≤ s.slashedBountyPayable challenger + bounty := by
  unfold State.creditBounty checkedAdd at h
  split_ifs at h with hNone hFits
  · cases h
  · cases h
  · cases h
    exact ⟨rfl, Nat.not_lt.mp hFits⟩

theorem slash_of_authorised {provider challenger : Address} {reasonId : Bytes32}
    (hAuthorised : SlashAuthorised env s)
    (hSlashable : (s.stakes provider).status.slashable = true)
    (hTakes : (s.stakes provider).amount * (s.stakes provider).tierSlashRateBps / 10000 ≠ 0) :
    (∃ s' events, slash env s t provider challenger reasonId = .ok (s', t, events) ∧
        (s'.stakes provider).amount + (s.stakes provider).slashAmount =
          ((s.stakes provider).amount : Nat)) ∨
      slash env s t provider challenger reasonId = .error panic ∧
        2 ^ 256 ≤ s.slashedBountyPayable challenger + s.foundationReserveBalance +
          (s.stakes provider).slashAmount := by
  obtain ⟨hSender, hPaused⟩ := hAuthorised
  have hAmount : (s.stakes provider).amount ≠ 0 := by
    intro hZero
    rw [hZero] at hTakes
    simp at hTakes
  have hShare := challengerShare_le provider challenger (s.stakes provider).slashAmount
  have hLe := (s.stakes provider).slashAmount_le
  have hUnpaused : s.whenNotPaused = .ok () := by
    rw [State.whenNotPaused, hPaused]
    rfl
  simp only [slash, hUnpaused, require_of_pos _ hSender, require_of_pos _ hSlashable,
    require_of_pos _ hAmount, require_of_pos _ hTakes, ok_bind]
  cases hCredit : s.creditBounty provider challenger
      (challengerShare provider challenger (s.stakes provider).slashAmount) with
  | error e =>
      obtain ⟨rfl, hOverflow⟩ := creditBounty_eq_error hCredit
      exact .inr ⟨rfl, by omega⟩
  | ok ledger =>
      rw [ok_bind]
      unfold checkedAdd
      split_ifs with hReserve
      · refine .inl ⟨_, _, rfl, ?_⟩
        simp only [State.setStake, Function.update_self, Stake.reduce]
        omega
      · exact .inr ⟨rfl, by omega⟩

/-- Every stake meets its floor, and the token's supply is what it was. -/
structure Exposed (supply : Nat) (w : World) : Prop where
  floored : ∀ provider, (w.bond.stakes provider).Floored
  supply_eq : w.token.supply = supply

theorem LedgerMove.supply_eq (hMove : LedgerMove s t s' t') : t'.supply = t.supply := by
  cases hMove with
  | internal hToken hObligations => rw [hToken]
  | deposit hPositive hToken hObligations => exact Token.transferFrom_supply hToken
  | payment hToken hObligations => exact Token.transfer_supply hToken

theorem Exposed.step {supply : Nat} {w w' : World} {i : Input} (hw : Exposed supply w)
    (h : machine.step w i = some w') : Exposed supply w' := by
  cases i with
  | bond env c =>
      simp only [machine, StakeBond.step] at h
      split at h
      case h_1 s' t' events hCall =>
        cases h
        refine ⟨fun provider => ?_, ?_⟩
        · exact (call_stakeChange hCall provider).floored (hw.floored provider)
        · exact (call_ledgerMove hCall).1.supply_eq.trans hw.supply_eq
      case h_2 => cases h
  | token sender c =>
      simp only [machine, StakeBond.step] at h
      split at h
      case isTrue => cases h
      case isFalse =>
        split at h
        case h_1 t' hCall =>
          cases h
          exact ⟨hw.floored, (Token.call_supply hCall).trans hw.supply_eq⟩
        case h_2 => cases h

theorem Deployment.exposed (d : Deployment) : Exposed d.token.supply d.world := by
  refine ⟨fun provider hSlashable => ?_, rfl⟩
  have hConstructed := d.constructed
  simp only [construct, bind_eq_ok_iff, pure_eq_ok_iff] at hConstructed
  obtain ⟨ownable, -, -, -, -, -, -, -, hState⟩ := hConstructed
  -- Nobody has bonded yet.
  have hStake : d.world.bond.stakes provider = Stake.zero := by
    show d.state.stakes provider = Stake.zero
    rw [← hState]
    rfl
  rw [hStake] at hSlashable
  cases hSlashable

theorem Solvent.ledgers_le {address : Address} {w : World} (hw : Solvent address w)
    (provider challenger : Address) :
    w.bond.slashedBountyPayable challenger + w.bond.foundationReserveBalance +
      (w.bond.stakes provider).slashAmount ≤ w.token.supply := by
  have hStake := le_sum_mapping (fun account => (w.bond.stakes account).amount.val) provider
  have hBounty := le_sum_mapping w.bond.slashedBountyPayable challenger
  have hTaken := (w.bond.stakes provider).slashAmount_le
  calc w.bond.slashedBountyPayable challenger + w.bond.foundationReserveBalance +
        (w.bond.stakes provider).slashAmount
      ≤ w.bond.obligations := by
        unfold State.obligations
        omega
    _ ≤ w.token.balanceOf address := hw.covered
    _ ≤ w.token.supply := w.token.balanceOf_le_supply address

/-- A provider with a tier posted a slash rate that meets the floor of its current
stake.  An authorised slash of it never finds nothing to slash and takes at least what
the floor says.  It succeeds, given that the supply of the token fits its type. -/
theorem tier_has_slash_exposure (d : Deployment) (inputs : List Input) (provider : Address)
    (hTier : effectiveTier (d.after inputs).bond provider ≠ "open") :
    let w := d.after inputs
    let stake := w.bond.stakes provider
    minSlashRateForAmount stake.amount ≤ stake.tierSlashRateBps ∧
      ∀ env challenger reasonId, SlashAuthorised env w.bond →
        slash env w.bond w.token provider challenger reasonId ≠
            .error (.nothingToSlash provider) ∧
          (∀ s' t' events,
            slash env w.bond w.token provider challenger reasonId = .ok (s', t', events) →
              (s'.stakes provider).amount +
                stake.amount * minSlashRateForAmount stake.amount / 10000 ≤
                  (stake.amount : Nat)) ∧
          (d.token.supply < 2 ^ 256 →
            ∃ result, slash env w.bond w.token provider challenger reasonId = .ok result) := by
  intro w stake
  have hSolvent : Solvent d.self w :=
    machine.run_invariant (Solvent d.self) (fun _ _ _ hw h => hw.step h) d.solvent inputs
  have hExposed : Exposed d.token.supply w :=
    machine.run_invariant (Exposed d.token.supply) (fun _ _ _ hw h => hw.step h) d.exposed inputs
  obtain ⟨hBonded, hAmount⟩ := bonded_of_effectiveTier hTier
  have hSlashable : stake.status.slashable = true := by
    show (w.bond.stakes provider).status.slashable = true
    rw [hBonded]
    rfl
  obtain ⟨hFloor, hRate⟩ := hExposed.floored provider hSlashable
  obtain ⟨hTakes, hLeast⟩ := floor_le_slashAmount hAmount hFloor hRate
  refine ⟨hFloor, fun env challenger reasonId hAuthorised => ?_⟩
  have hSlash := @slash_of_authorised env w.bond w.token provider challenger reasonId
    hAuthorised hSlashable hTakes
  rcases hSlash with ⟨s', events, hOk, hTaken⟩ | ⟨hError, hOverflow⟩
  · rw [hOk]
    refine ⟨by simp, ?_, fun _ => ⟨_, rfl⟩⟩
    rintro s'' t'' events'' hSame
    cases hSame
    exact (Nat.add_le_add_left hLeast _).trans hTaken.le
  · rw [hError]
    refine ⟨by simp [panic], by simp, fun hSupply => ?_⟩
    -- The ledgers would have to exceed the supply.
    have hLedgers := hSolvent.ledgers_le provider challenger
    have hSupplyEq := hExposed.supply_eq
    omega

theorem smallDeployment_constructed :
    construct 50 1 60 86400 70 = .ok (State.initial 50 ⟨1, 0⟩ 86400 70) := by
  rfl

/-- A bond at address 50 slashed by account 70.  Account 2 holds tokens and has
approved the bond. -/
def smallDeployment : Deployment where
  self := 50
  initialOwner := 1
  ftnsAddress := 60
  initialUnbondDelay := 86400
  initialSlasher := 70
  state := State.initial 50 ⟨1, 0⟩ 86400 70
  constructed := smallDeployment_constructed
  token :=
    { balanceOf := Pi.single 2 (30000 * 10 ^ 18)
      allowance := Pi.single 2 (Pi.single 50 (30000 * 10 ^ 18)) }
  unspendable := by
    intro spender
    have hOther : (50 : Address) ≠ 2 := by decide
    simp [hOther]

def smallEnv (timestamp : Nat) (sender : Address) : Env where
  block := smallBlock timestamp
  sender := sender
  codeLength := fun _ => 0
  slasherView := ⟨none, fun _ => none, fun _ => none, none⟩
  tokenDeclines := false

def slashedRun : List Input :=
  [.bond (smallEnv 900 2) (.bond (Fin.ofNat _ (30000 * 10 ^ 18)) 5000),
    .bond (smallEnv 1000 70) (.slash 2 9 7)]

theorem tier_has_slash_exposure_slashedRun :
    let w := smallDeployment.after slashedRun
    effectiveTier w.bond 2 = "standard" ∧
      minSlashRateForAmount (w.bond.stakes 2).amount ≤ (w.bond.stakes 2).tierSlashRateBps ∧
      ∃ result, slash (smallEnv 1100 70) w.bond w.token 2 9 8 = .ok result := by
  intro w
  have hExposure := tier_has_slash_exposure smallDeployment slashedRun 2 (by decide +kernel)
  have hSlash := hExposure.2 (smallEnv 1100 70) 9 8 ⟨.inl (by decide +kernel), by decide +kernel⟩
  refine ⟨by decide +kernel, hExposure.1, hSlash.2.2 ?_⟩
  have hSupply : smallDeployment.token.supply = 30000 * 10 ^ 18 := by
    show ∑ account, (Pi.single 2 (30000 * 10 ^ 18) : Address → Nat) account = 30000 * 10 ^ 18
    rw [Finset.sum_pi_single', if_pos (Finset.mem_univ _)]
  rw [hSupply]
  norm_num

end Prsm.StakeBond
