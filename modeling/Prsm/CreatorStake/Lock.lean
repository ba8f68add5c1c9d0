import Prsm.Evm.Contracts
import Prsm.Foundations.Machine

/-!
# `CreatorStakeRegistry`: storage and functions

A creator bonds tokens as collateral, which is withdrawn after an unbonding delay and can be
slashed until then.
-/

namespace Prsm.CreatorStake

open Foundations Evm

inductive StakeStatus
  | none
  | bonded
  | unbonding
  | withdrawn
  deriving DecidableEq

structure Stake where
  amount : Nat
  bondedAt : Nat
  /-- Zero while bonded, set by `requestUnbond`. -/
  unbondEligibleAt : Nat
  status : StakeStatus

/-- The record of an account that never staked. -/
def Stake.zero : Stake where
  amount := 0
  bondedAt := 0
  unbondEligibleAt := 0
  status := .none

structure State where
  ownable : Ownable2Step
  paused : Bool
  /-- `address(this)`. -/
  self : Address
  unbondDelaySeconds : Nat
  /-- Immutable. -/
  slasher : Address
  stakes : Address → Stake
  foundationReserveBalance : Nat
  foundationReserveWallet : Address

def minUnbondDelaySeconds : Nat := 86400
def maxUnbondDelaySeconds : Nat := 30 * 86400

inductive Event
  | creatorStaked (creator : Address) (amount newTotal : Nat)
  | unbondRequested (creator : Address) (eligibleAt : Nat)
  | withdrawn (creator : Address) (amount : Nat)
  | creatorSlashed (creator : Address) (amount remaining : Nat) (reason : String)
  | unbondDelayUpdated (oldDelay newDelay : Nat)
  | foundationReserveWalletUpdated (oldWallet newWallet : Address)
  | foundationReserveDrained (recipient : Address) (amount : Nat)

inductive Error
  | platform (e : PlatformError)
  | token (e : TokenError)
  | zeroAddress
  | zeroAmount
  | invalidUnbondDelay (delay : Nat)
  | notSlasher
  | notBonded
  | notUnbonding
  | unbondNotElapsed (eligibleAt : Nat)
  | insufficientStake (staked requested : Nat)
  | transferFailed
  | noReserveWallet
  | walletNotContract (provided : Address)

structure Env where
  block : Block
  sender : Address
  codeLength : Address → Nat
  /-- The token returns `false` on a transfer. -/
  tokenDeclines : Bool

def Env.timestamp (env : Env) : Nat := env.block.timestamp

abbrev Outcome := Except Error (State × Token × List Event)

def panic : Error := .platform .panicArithmetic

def State.whenNotPaused (s : State) : Except Error Unit :=
  raise .platform (Evm.whenNotPaused s.paused)

def State.onlyOwner (s : State) (env : Env) : Except Error Unit :=
  raise .platform (s.ownable.onlyOwner env.sender)

def State.setStake (s : State) (creator : Address) (stake : Stake) : State :=
  { s with stakes := Function.update s.stakes creator stake }

def State.initial (self : Address) (ownable : Ownable2Step) (initialUnbondDelay : Nat)
    (initialSlasher : Address) : State where
  ownable := ownable
  paused := false
  self := self
  unbondDelaySeconds := initialUnbondDelay
  slasher := initialSlasher
  stakes := fun _ => Stake.zero
  foundationReserveBalance := 0
  foundationReserveWallet := 0

def construct (self initialOwner ftnsAddress : Address) (initialUnbondDelay : Nat)
    (initialSlasher : Address) : Except Error State := do
  let ownable ← raise .platform (Ownable2Step.construct initialOwner)
  require (ftnsAddress ≠ 0) .zeroAddress
  require (minUnbondDelaySeconds ≤ initialUnbondDelay ∧
      initialUnbondDelay ≤ maxUnbondDelaySeconds) (.invalidUnbondDelay initialUnbondDelay)
  require (initialSlasher ≠ 0) .zeroAddress
  pure (State.initial self ownable initialUnbondDelay initialSlasher)

/-! ## Token calls -/

/-- `ftns.transfer(recipient, amount)`, reverting when it returns `false`. -/
def pay (env : Env) (s : State) (t : Token) (recipient : Address) (amount : Nat) :
    Except Error Token := do
  let (ok, t') ← raise .token (t.transfer env.tokenDeclines s.self recipient amount)
  require (ok = true) .transferFailed
  pure t'

/-- `ftns.transferFrom(msg.sender, address(this), amount)`, reverting when it
returns `false`. -/
def collect (env : Env) (s : State) (t : Token) (amount : Nat) : Except Error Token := do
  let (ok, t') ← raise .token (t.transferFrom env.tokenDeclines s.self env.sender s.self amount)
  require (ok = true) .transferFailed
  pure t'

/-! ## The life of a stake -/

def stake (env : Env) (s : State) (t : Token) (amount : Uint 256) : Outcome := do
  s.whenNotPaused
  require (amount ≠ 0) .zeroAmount
  let t' ← collect env s t amount
  let old := s.stakes env.sender
  let newTotal ← checkedAdd 256 panic old.amount amount
  pure (s.setStake env.sender
      { amount := newTotal
        bondedAt := if old.bondedAt = 0 then uint64 env.timestamp else old.bondedAt
        unbondEligibleAt := 0
        status := .bonded },
    t', [.creatorStaked env.sender amount newTotal])

def requestUnbond (env : Env) (s : State) (t : Token) : Outcome := do
  s.whenNotPaused
  let old := s.stakes env.sender
  require (old.status = .bonded ∧ old.amount ≠ 0) .notBonded
  let eligibleAt ← checkedAdd 256 panic env.timestamp s.unbondDelaySeconds
  pure (s.setStake env.sender
      { old with status := .unbonding, unbondEligibleAt := uint64 eligibleAt },
    t, [.unbondRequested env.sender (uint64 eligibleAt)])

def withdraw (env : Env) (s : State) (t : Token) : Outcome := do
  s.whenNotPaused
  let old := s.stakes env.sender
  require (old.status = .unbonding) .notUnbonding
  require (old.unbondEligibleAt ≤ env.timestamp) (.unbondNotElapsed old.unbondEligibleAt)
  let t' ← pay env s t env.sender old.amount
  pure (s.setStake env.sender
      { old with amount := 0, status := .withdrawn, unbondEligibleAt := 0 },
    t', [.withdrawn env.sender old.amount])

def slash (env : Env) (s : State) (t : Token) (creator : Address) (amount : Uint 256)
    (reason : String) : Outcome := do
  s.whenNotPaused
  require (env.sender = s.slasher) .notSlasher
  require (amount ≠ 0) .zeroAmount
  let old := s.stakes creator
  require (amount.val ≤ old.amount) (.insufficientStake old.amount amount)
  let remaining ← checkedSub panic old.amount amount
  let reserve ← checkedAdd 256 panic s.foundationReserveBalance amount
  pure ({ s.setStake creator { old with amount := remaining } with
      foundationReserveBalance := reserve },
    t, [.creatorSlashed creator amount remaining reason])

/-- The collateral that counts for the tier of a creator. -/
def creatorStakeOf (s : State) (creator : Address) : Nat :=
  if (s.stakes creator).status = .bonded then (s.stakes creator).amount else 0

def setUnbondDelay (env : Env) (s : State) (t : Token) (newDelay : Nat) : Outcome := do
  s.onlyOwner env
  require (minUnbondDelaySeconds ≤ newDelay ∧ newDelay ≤ maxUnbondDelaySeconds)
    (.invalidUnbondDelay newDelay)
  pure ({ s with unbondDelaySeconds := newDelay },
    t, [.unbondDelayUpdated s.unbondDelaySeconds newDelay])

def setFoundationReserveWallet (env : Env) (s : State) (t : Token) (wallet : Address) :
    Outcome := do
  s.onlyOwner env
  s.whenNotPaused
  require (wallet ≠ 0) .zeroAddress
  require (env.codeLength wallet ≠ 0) (.walletNotContract wallet)
  pure ({ s with foundationReserveWallet := wallet },
    t, [.foundationReserveWalletUpdated s.foundationReserveWallet wallet])

def drainFoundationReserve (env : Env) (s : State) (t : Token) : Outcome := do
  s.onlyOwner env
  s.whenNotPaused
  require (s.foundationReserveWallet ≠ 0) .noReserveWallet
  let amount := s.foundationReserveBalance
  let t' ← pay env s t s.foundationReserveWallet amount
  pure ({ s with foundationReserveBalance := 0 },
    t', [.foundationReserveDrained s.foundationReserveWallet amount])

def pause (env : Env) (s : State) (t : Token) : Outcome := do
  s.onlyOwner env
  s.whenNotPaused
  pure ({ s with paused := true }, t, [])

def unpause (env : Env) (s : State) (t : Token) : Outcome := do
  s.onlyOwner env
  raise .platform (whenPaused s.paused)
  pure ({ s with paused := false }, t, [])

inductive Call
  | stake (amount : Uint 256)
  | requestUnbond
  | withdraw
  | slash (creator : Address) (amount : Uint 256) (reason : String)
  | setUnbondDelay (newDelay : Nat)
  | setFoundationReserveWallet (wallet : Address)
  | drainFoundationReserve
  | pause
  | unpause
  | ownership (call : Ownable2Step.Call)

def call (env : Env) (s : State) (t : Token) : Call → Outcome
  | .stake amount => stake env s t amount
  | .requestUnbond => requestUnbond env s t
  | .withdraw => withdraw env s t
  | .slash creator amount reason => slash env s t creator amount reason
  | .setUnbondDelay newDelay => setUnbondDelay env s t newDelay
  | .setFoundationReserveWallet wallet => setFoundationReserveWallet env s t wallet
  | .drainFoundationReserve => drainFoundationReserve env s t
  | .pause => pause env s t
  | .unpause => unpause env s t
  | .ownership c => do
      let ownable ← raise .platform (s.ownable.call env.sender c)
      pure ({ s with ownable := ownable }, t, [])

end Prsm.CreatorStake

/-!
# The stakes are covered and locked

`Change` says what a call can do to the stakes, to what the contract owes and to the delay.
From it: the contract holds the stakes and the reserve, only stakes that are bonded or being
unbonded are positive, and a stake that counts for a tier is locked for at least the minimum
delay from then on.
-/

namespace Prsm.CreatorStake

open Foundations Evm

/-- What the contract owes: the stakes and the reserve. -/
def State.obligations (s : State) : Nat :=
  (∑ creator, (s.stakes creator).amount) + s.foundationReserveBalance

theorem obligations_setStake (s : State) (creator : Address) (stake : Stake) :
    (s.setStake creator stake).obligations + (s.stakes creator).amount =
      s.obligations + stake.amount := by
  have hStakes := sum_update_entry (fun _ (b : Stake) => b.amount) s.stakes creator stake
  simp only [State.obligations, State.setStake]
  omega

/-- The changes of one stake. -/
inductive StakeMove (env : Env) (delay : Nat) (old new : Stake) : Prop
  | kept (hNew : new = old)
  | staked (newTotal bondedAt : Nat) (hNew : new = ⟨newTotal, bondedAt, 0, .bonded⟩)
  | unbonding (hBonded : old.status = .bonded)
      (hNew : new = { old with
        status := .unbonding
        unbondEligibleAt := uint64 (env.timestamp + delay) })
  | withdrawn (hNew : new = { old with amount := 0, status := .withdrawn, unbondEligibleAt := 0 })
  | slashed (remaining : Nat) (hAmount : remaining ≤ old.amount)
      (hNew : new = { old with amount := remaining })

/-- What a call can do. -/
structure Change (env : Env) (s : State) (t : Token) (s' : State) (t' : Token) : Prop where
  owed : OwedMove s.self s.obligations t s'.obligations t'
  stakes : ∀ creator,
    StakeMove env s.unbondDelaySeconds (s.stakes creator) (s'.stakes creator)
  self_eq : s'.self = s.self
  delay : s'.unbondDelaySeconds = s.unbondDelaySeconds ∨
    (minUnbondDelaySeconds ≤ s'.unbondDelaySeconds ∧
      s'.unbondDelaySeconds ≤ maxUnbondDelaySeconds)

variable {env : Env} {s s' : State} {t t' : Token} {events : List Event}

theorem moves_of_setStake {who : Address} {stake : Stake}
    (h : StakeMove env s.unbondDelaySeconds (s.stakes who) stake) (creator : Address) :
    StakeMove env s.unbondDelaySeconds (s.stakes creator)
      ((s.setStake who stake).stakes creator) := by
  by_cases hSame : creator = who
  · subst hSame
    simpa [State.setStake] using h
  · exact .kept (by simp [State.setStake, hSame])

theorem pay_eq_ok {recipient : Address} {amount : Nat}
    (h : pay env s t recipient amount = .ok t') :
    t.transfer env.tokenDeclines s.self recipient amount = .ok (true, t') :=
  raise_eq_ok_iff.mp (flagged_eq_ok_iff.mp h)

theorem collect_eq_ok {amount : Nat} (h : collect env s t amount = .ok t') :
    t.transferFrom env.tokenDeclines s.self env.sender s.self amount = .ok (true, t') :=
  raise_eq_ok_iff.mp (flagged_eq_ok_iff.mp h)

theorem change_of_same (hStakes : s'.stakes = s.stakes)
    (hReserve : s'.foundationReserveBalance = s.foundationReserveBalance)
    (hSelf : s'.self = s.self)
    (hDelay : s'.unbondDelaySeconds = s.unbondDelaySeconds ∨
      (minUnbondDelaySeconds ≤ s'.unbondDelaySeconds ∧
        s'.unbondDelaySeconds ≤ maxUnbondDelaySeconds)) : Change env s t s' t where
  owed := .internal rfl (by rw [State.obligations, hStakes, hReserve]; rfl)
  stakes := fun creator => .kept (congrFun hStakes creator)
  self_eq := hSelf
  delay := hDelay

theorem withdraw_eq_ok (h : withdraw env s t = .ok (s', t', events)) :
    (s.stakes env.sender).status = .unbonding ∧
      (s.stakes env.sender).unbondEligibleAt ≤ env.timestamp ∧ Change env s t s' t' := by
  simp only [withdraw, bind_eq_ok_iff, require_eq_ok_iff, pure_eq_ok_iff, Prod.mk.injEq] at h
  obtain ⟨-, -, -, hStatus, -, hElapsed, paid, hPay, rfl, rfl, rfl⟩ := h
  have hObligations := obligations_setStake s env.sender
    { s.stakes env.sender with amount := 0, status := .withdrawn, unbondEligibleAt := 0 }
  refine ⟨hStatus, hElapsed, ?_, moves_of_setStake (.withdrawn rfl), rfl, .inl rfl⟩
  exact .payment (pay_eq_ok hPay) (by simpa using hObligations.le)

theorem call_change {c : Call} (h : call env s t c = .ok (s', t', events)) :
    Change env s t s' t' := by
  cases c with
  | stake amount =>
      simp only [call, stake, bind_eq_ok_iff, require_eq_ok_iff, checkedAdd_eq_ok_iff,
        pure_eq_ok_iff, Prod.mk.injEq] at h
      obtain ⟨-, -, -, hNonzero, paid, hCollect, newTotal, ⟨-, rfl⟩, rfl, rfl, rfl⟩ := h
      have hPositive : 0 < amount.val :=
        Nat.pos_of_ne_zero fun hZero => hNonzero (Fin.ext hZero)
      have hObligations := obligations_setStake s env.sender
        { amount := (s.stakes env.sender).amount + amount
          bondedAt := if (s.stakes env.sender).bondedAt = 0 then uint64 env.timestamp
            else (s.stakes env.sender).bondedAt
          unbondEligibleAt := 0
          status := .bonded }
      refine ⟨.deposit hPositive (collect_eq_ok hCollect) ?_,
        moves_of_setStake (.staked _ _ rfl), rfl, .inl rfl⟩
      simp only at hObligations
      omega
  | requestUnbond =>
      simp only [call, requestUnbond, bind_eq_ok_iff, require_eq_ok_iff, checkedAdd_eq_ok_iff,
        pure_eq_ok_iff, Prod.mk.injEq] at h
      obtain ⟨-, -, -, ⟨hBonded, -⟩, eligibleAt, ⟨-, rfl⟩, rfl, rfl, rfl⟩ := h
      have hObligations := obligations_setStake s env.sender
        { s.stakes env.sender with
          status := .unbonding
          unbondEligibleAt := uint64 (env.timestamp + s.unbondDelaySeconds) }
      exact ⟨.internal rfl (Nat.add_right_cancel hObligations).le,
        moves_of_setStake (.unbonding hBonded rfl), rfl, .inl rfl⟩
  | withdraw => exact (withdraw_eq_ok h).2.2
  | slash creator amount reason =>
      simp only [call, slash, bind_eq_ok_iff, require_eq_ok_iff, checkedSub_eq_ok_iff,
        checkedAdd_eq_ok_iff, pure_eq_ok_iff, Prod.mk.injEq] at h
      obtain ⟨-, -, -, -, -, -, -, hLe, remaining, ⟨-, rfl⟩, reserve, ⟨-, rfl⟩, rfl, rfl,
        rfl⟩ := h
      have hStakes := sum_update_entry (fun _ (b : Stake) => b.amount) s.stakes creator
        { s.stakes creator with amount := (s.stakes creator).amount - amount }
      refine ⟨.internal rfl ?_, moves_of_setStake (.slashed _ (Nat.sub_le _ _) rfl), rfl,
        .inl rfl⟩
      simp only [State.obligations, State.setStake] at hStakes ⊢
      omega
  | setUnbondDelay newDelay =>
      simp only [call, setUnbondDelay, bind_eq_ok_iff, require_eq_ok_iff, pure_eq_ok_iff,
        Prod.mk.injEq] at h
      obtain ⟨-, -, -, hDelay, rfl, rfl, rfl⟩ := h
      exact change_of_same rfl rfl rfl (.inr hDelay)
  | setFoundationReserveWallet wallet =>
      simp only [call, setFoundationReserveWallet, bind_eq_ok_iff, pure_eq_ok_iff,
        Prod.mk.injEq] at h
      obtain ⟨-, -, -, -, -, -, -, -, rfl, rfl, rfl⟩ := h
      exact change_of_same rfl rfl rfl (.inl rfl)
  | drainFoundationReserve =>
      simp only [call, drainFoundationReserve, bind_eq_ok_iff, pure_eq_ok_iff,
        Prod.mk.injEq] at h
      obtain ⟨-, -, -, -, -, -, paid, hPay, rfl, rfl, rfl⟩ := h
      refine ⟨.payment (pay_eq_ok hPay) ?_, fun _ => .kept rfl, rfl, .inl rfl⟩
      simp only [State.obligations]
      omega
  | pause =>
      simp only [call, pause, bind_eq_ok_iff, pure_eq_ok_iff, Prod.mk.injEq] at h
      obtain ⟨-, -, -, -, rfl, rfl, rfl⟩ := h
      exact change_of_same rfl rfl rfl (.inl rfl)
  | unpause =>
      simp only [call, unpause, bind_eq_ok_iff, pure_eq_ok_iff, Prod.mk.injEq] at h
      obtain ⟨-, -, -, -, rfl, rfl, rfl⟩ := h
      exact change_of_same rfl rfl rfl (.inl rfl)
  | ownership ownershipCall =>
      simp only [call, bind_eq_ok_iff, pure_eq_ok_iff, Prod.mk.injEq] at h
      obtain ⟨ownable, -, rfl, rfl, rfl⟩ := h
      exact change_of_same rfl rfl rfl (.inl rfl)

/-! ## What holds between the calls -/

/-- The delay is in its range, and a positive stake is bonded or being unbonded. -/
structure Sane (s : State) : Prop where
  delay : minUnbondDelaySeconds ≤ s.unbondDelaySeconds ∧
    s.unbondDelaySeconds ≤ maxUnbondDelaySeconds
  positive : ∀ creator, 0 < (s.stakes creator).amount →
    (s.stakes creator).status = .bonded ∨ (s.stakes creator).status = .unbonding

/-- A stake that is being unbonded cannot be withdrawn within the minimum delay of `since`. -/
def LockedSince (since : Nat) (s : State) (creator : Address) : Prop :=
  (s.stakes creator).status = .unbonding →
    since + minUnbondDelaySeconds ≤ (s.stakes creator).unbondEligibleAt

theorem Sane.change (hs : Sane s) (h : Change env s t s' t') : Sane s' := by
  refine ⟨?_, fun creator => ?_⟩
  · rcases h.delay with hSame | hRange
    · rw [hSame]
      exact hs.delay
    · exact hRange
  · have hOld := hs.positive creator
    cases h.stakes creator with
    | kept hNew => rwa [hNew]
    | staked newTotal bondedAt hNew => simp [hNew]
    | unbonding hBonded hNew => simp [hNew]
    | withdrawn hNew => simp [hNew]
    | slashed remaining hAmount hNew =>
        rw [hNew]
        intro hPositive
        exact hOld (hPositive.trans_le hAmount)

theorem Sane.eligibleAt (hs : Sane s) (env : Env) :
    env.timestamp + minUnbondDelaySeconds ≤ uint64 (env.timestamp + s.unbondDelaySeconds) := by
  have hTime := env.block.timestamp_lt
  have hDelay := hs.delay
  have hLt : env.timestamp + s.unbondDelaySeconds < 2 ^ 64 := by
    simp only [maxUnbondDelaySeconds, Env.timestamp] at hDelay ⊢
    omega
  rw [uint64_of_lt hLt]
  omega

theorem LockedSince.change {since : Nat} {creator : Address}
    (hLocked : LockedSince since s creator) (hs : Sane s) (hTime : since ≤ env.timestamp)
    (h : Change env s t s' t') : LockedSince since s' creator := by
  intro hStatus
  cases h.stakes creator with
  | kept hNew =>
      rw [hNew] at hStatus ⊢
      exact hLocked hStatus
  | staked newTotal bondedAt hNew => simp [hNew] at hStatus
  | unbonding hBonded hNew =>
      have hEligible := hs.eligibleAt env
      rw [hNew]
      show since + minUnbondDelaySeconds ≤ uint64 (env.timestamp + s.unbondDelaySeconds)
      omega
  | withdrawn hNew => simp [hNew] at hStatus
  | slashed remaining hAmount hNew =>
      rw [hNew] at hStatus ⊢
      exact hLocked hStatus

/-- The contract, the token, and the time of the last block. -/
structure World where
  registry : State
  token : Token
  now : Nat

/-- A call of the contract, or of the token by some other account. -/
inductive Input
  | registry (env : Env) (call : Call)
  | token (sender : Address) (call : Token.Call)

/-- One transaction.  Time does not go back, and the contract's own address sends none. -/
def step (w : World) : Input → Option World
  | .registry env c =>
      if env.timestamp < w.now then none
      else
        match call env w.registry w.token c with
        | .ok (s, t, _) => some ⟨s, t, env.timestamp⟩
        | .error _ => none
  | .token sender c =>
      if sender = w.registry.self then none
      else
        match w.token.call sender c with
        | .ok t => some { w with token := t }
        | .error _ => none

def machine : Machine World Input where
  step := step

/-- A deployed registry with the token it uses.  Its address is new, so nobody has an
allowance from it. -/
structure Deployment where
  self : Address
  initialOwner : Address
  ftnsAddress : Address
  initialUnbondDelay : Nat
  initialSlasher : Address
  state : State
  constructed : construct self initialOwner ftnsAddress initialUnbondDelay initialSlasher =
    .ok state
  token : Token
  unspendable : token.Unspendable self

def Deployment.world (d : Deployment) : World := ⟨d.state, d.token, 0⟩

def Deployment.after (d : Deployment) (inputs : List Input) : World :=
  machine.run d.world inputs

/-- The world at a later time. -/
def World.at (w : World) (time : Nat) : World := { w with now := time }

/-- The contract holds what it owes, nobody may spend from it, and its stakes are sane. -/
structure Sound (address : Address) (w : World) : Prop where
  self_eq : w.registry.self = address
  unspendable : w.token.Unspendable address
  covered : w.registry.obligations ≤ w.token.balanceOf address
  sane : Sane w.registry

theorem step_cases {w w' : World} {i : Input} (h : machine.step w i = some w') :
    (∃ env, w.now ≤ env.timestamp ∧ w'.now = env.timestamp ∧
      Change env w.registry w.token w'.registry w'.token) ∨
    (∃ sender c, sender ≠ w.registry.self ∧ w.token.call sender c = .ok w'.token ∧
      w'.registry = w.registry ∧ w'.now = w.now) := by
  cases i with
  | registry env c =>
      simp only [machine, step] at h
      split at h
      case isTrue => cases h
      case isFalse hTime =>
        split at h
        case h_1 s' t' events hCall =>
          cases h
          exact .inl ⟨env, not_lt.mp hTime, rfl, call_change hCall⟩
        case h_2 => cases h
  | token sender c =>
      simp only [machine, step] at h
      split at h
      case isTrue => cases h
      case isFalse hSender =>
        split at h
        case h_1 t' hCall =>
          cases h
          exact .inr ⟨sender, c, hSender, hCall, rfl, rfl⟩
        case h_2 => cases h

theorem Sound.step {address : Address} {w w' : World} {i : Input} (hw : Sound address w)
    (h : machine.step w i = some w') : Sound address w' := by
  rcases step_cases h with ⟨env, -, -, hChange⟩ | ⟨sender, c, hSender, hCall, hSame, -⟩
  · have hOwed := hChange.owed
    rw [hw.self_eq] at hOwed
    obtain ⟨hCovered, hUnspendable⟩ := hOwed.covered hw.unspendable hw.covered
    exact ⟨hChange.self_eq.trans hw.self_eq, hUnspendable, hCovered, hw.sane.change hChange⟩
  · rw [hw.self_eq] at hSender
    obtain ⟨hBalance, hUnspendable⟩ := Token.call_of_other hSender hw.unspendable hCall
    refine ⟨by rw [hSame, hw.self_eq], hUnspendable, ?_, by rw [hSame]; exact hw.sane⟩
    rw [hSame]
    exact hw.covered.trans hBalance

theorem Deployment.sound (d : Deployment) : Sound d.self d.world := by
  have hConstructed := d.constructed
  simp only [construct, bind_eq_ok_iff, require_eq_ok_iff, pure_eq_ok_iff] at hConstructed
  obtain ⟨ownable, -, -, -, -, hDelay, -, -, hState⟩ := hConstructed
  have hRegistry : d.world.registry =
      State.initial d.self ownable d.initialUnbondDelay d.initialSlasher := hState.symm
  refine ⟨by rw [hRegistry]; rfl, d.unspendable, ?_, ?_⟩
  · have hZero : d.world.registry.obligations = 0 := by
      rw [hRegistry]
      simp [State.obligations, State.initial, Stake.zero]
    omega
  · rw [hRegistry]
    refine ⟨hDelay, fun creator hPositive => ?_⟩
    simp [State.initial, Stake.zero] at hPositive

theorem lockedSince_run {address : Address} {since : Nat} {creator : Address} {w : World}
    (hSound : Sound address w) (hTime : since ≤ w.now)
    (hLocked : LockedSince since w.registry creator) (inputs : List Input) :
    LockedSince since (machine.run w inputs).registry creator := by
  have hRun := machine.run_invariant
    (fun w => Sound address w ∧ since ≤ w.now ∧ LockedSince since w.registry creator)
    (by
      rintro w i w' ⟨hw, hNow, hHere⟩ hStep
      refine ⟨hw.step hStep, ?_⟩
      rcases step_cases hStep with ⟨env, hOrder, hNext, hChange⟩ | ⟨_, _, -, -, hSame, hNext⟩
      · rw [hNext]
        exact ⟨hNow.trans hOrder, hHere.change hw.sane (hNow.trans hOrder) hChange⟩
      · rw [hNext, hSame]
        exact ⟨hNow, hHere⟩)
    ⟨hSound, hTime, hLocked⟩ inputs
  exact hRun.2.2

/-- In every state of every run the token balance covers the stakes and the reserve, a
positive stake is bonded or being unbonded, and a creator whose stake is seen to count at
some time withdraws nothing within the minimum delay of it, whatever is called from then
on. -/
theorem stakes_covered_and_locked (d : Deployment) (inputs : List Input) :
    let w := d.after inputs
    (∑ creator, (w.registry.stakes creator).amount) + w.registry.foundationReserveBalance ≤
        w.token.balanceOf d.self ∧
      (∀ creator, 0 < (w.registry.stakes creator).amount →
        (w.registry.stakes creator).status = .bonded ∨
          (w.registry.stakes creator).status = .unbonding) ∧
      ∀ creator time, w.now ≤ time → 0 < creatorStakeOf w.registry creator →
        ∀ (later : List Input) (env : Env), env.sender = creator →
          env.timestamp < time + minUnbondDelaySeconds →
            let w' := machine.run (w.at time) later
            ∀ outcome, withdraw env w'.registry w'.token ≠ .ok outcome := by
  intro w
  have hSound : Sound d.self w :=
    machine.run_invariant (Sound d.self) (fun _ _ _ hw h => hw.step h) d.sound inputs
  refine ⟨hSound.covered, hSound.sane.positive, ?_⟩
  rintro creator time hNow hCounts later env rfl hEarly w' ⟨s', t', events⟩ hWithdraw
  have hBonded : (w.registry.stakes env.sender).status = .bonded := by
    by_contra hOther
    simp [creatorStakeOf, hOther] at hCounts
  have hStart : LockedSince time (w.at time).registry env.sender := by
    intro hUnbonding
    have hSame := hBonded.symm.trans hUnbonding
    cases hSame
  have hSoundAt : Sound d.self (w.at time) :=
    ⟨hSound.self_eq, hSound.unspendable, hSound.covered, hSound.sane⟩
  have hLocked := lockedSince_run hSoundAt le_rfl hStart later
  obtain ⟨hUnbonding, hElapsed, -⟩ := withdraw_eq_ok hWithdraw
  have hEligible : time + minUnbondDelaySeconds ≤
      (w'.registry.stakes env.sender).unbondEligibleAt := hLocked hUnbonding
  omega

end Prsm.CreatorStake
