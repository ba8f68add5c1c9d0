import Prsm.Compensation.WeightSchedule
import Prsm.Emission.MintBound

/-!
# What a distribution mints and pays

The distributor works out the amount that it asks for from what it reads of the controller,
and the controller works it out again.  The two agree, so that a mint can only be refused by
the token.  The balance is then split by weights that add up to the whole.
-/

namespace Prsm.Compensation

open Foundations Evm

/-! ## Reachable pairs -/

/-- A distributor and the controller that it pulls from, both just deployed. -/
structure Pair where
  distributor : Deployment
  self_ne : distributor.self ≠ 0
  controller : Emission.Deployment
  controller_eq : distributor.controller = controller.state

def Pair.after (p : Pair) (inputs : List Input) : World :=
  machine.run p.distributor.world inputs

/-- The weights of a split add up to the whole. -/
def PoolWeights.Whole (w : PoolWeights) : Prop :=
  w.creatorPoolBps.val + w.operatorPoolBps.val + w.grantPoolBps.val = bpsDenominator

/-- What a distribution needs of the two contracts. -/
structure Ready (w : World) : Prop where
  self_ne : w.distributor.self ≠ 0
  current : w.distributor.currentWeights.Whole
  scheduled : w.distributor.hasScheduledWeights = true → w.distributor.scheduledWeights.Whole
  creatorPool_ne : w.distributor.creatorPool ≠ 0
  operatorPool_ne : w.distributor.operatorPool ≠ 0
  grantPool_ne : w.distributor.grantPool ≠ 0
  minted_le : w.controller.mintedToDate ≤ w.controller.mintCap

section Steps

variable {env : Env} {s s' : State} {controller controller' : Emission.State}
  {t t' : FtnsToken.State} {events : List Event}

theorem minted_le_of_move {env : Emission.Env}
    (hMinted : controller.mintedToDate ≤ controller.mintCap)
    (hMove : Emission.MintMove env controller controller')
    (hFixed : controller'.immutables = controller.immutables) :
    controller'.mintedToDate ≤ controller'.mintCap := by
  have hCap : controller'.mintCap = controller.mintCap := congrArg Prod.snd hFixed
  rw [hCap]
  cases hMove with
  | unchanged hSame => rwa [hSame]
  | minted _ _ hRoom hMore => rwa [hMore]

theorem tryPull_eq_ok (h : tryPull env s controller t = .ok (controller', t')) :
    controller' = controller ∨ ∃ amount minted, Emission.mintAuthorized
      { block := env.block, sender := s.self } controller t amount =
        .ok (controller', t', minted) := by
  simp only [tryPull] at h
  split at h
  · cases h
    exact Or.inl rfl
  · simp only [bind_eq_ok_iff] at h
    obtain ⟨accrued, -, remaining, -, h⟩ := h
    split at h
    · cases h
      exact Or.inl rfl
    · simp only [bind_eq_ok_iff, raise_eq_ok_iff, pure_eq_ok_iff, Prod.mk.injEq] at h
      obtain ⟨⟨c, t₁, minted⟩, hMint, rfl, rfl⟩ := h
      exact Or.inr ⟨_, minted, hMint⟩

theorem whole_of_validateWeights {w : PoolWeights} {u : Unit} (h : validateWeights w = .ok u) :
    w.Whole := by
  rw [validateWeights, require_eq_ok_iff] at h
  exact h

theorem Ready.applied {now : Nat} {history : List Announcement} {timestamp : Nat}
    (hw : Ready ⟨now, s, controller, t, history⟩) :
    Ready ⟨now, applyScheduledWeightsIfActive s timestamp, controller, t, history⟩ := by
  unfold applyScheduledWeightsIfActive
  split
  case isTrue hActive =>
    exact ⟨hw.self_ne, hw.scheduled hActive.1, fun h => Bool.noConfusion h, hw.creatorPool_ne,
      hw.operatorPool_ne, hw.grantPool_ne, hw.minted_le⟩
  case isFalse => exact hw

theorem Ready.call {c : Call} {now now' : Nat} {history history' : List Announcement}
    (hw : Ready ⟨now, s, controller, t, history⟩)
    (h : call env s controller t c = .ok (s', controller', t', events)) :
    Ready ⟨now', s', controller', t', history'⟩ := by
  cases c with
  | pullAndDistribute =>
      simp only [Compensation.call, pullAndDistribute, bind_eq_ok_iff, pure_eq_ok_iff,
        Prod.mk.injEq] at h
      obtain ⟨⟨c₁, t₁⟩, hPull, ⟨s₁, t₂, events₁⟩, hDistribute, rfl, rfl, rfl, rfl⟩ := h
      have hActive : Ready ⟨now, applyScheduledWeightsIfActive s env.timestamp, controller, t,
          history⟩ := hw.applied
      have hMinted : c₁.mintedToDate ≤ c₁.mintCap := by
        rcases tryPull_eq_ok hPull with rfl | ⟨amount, minted, hMint⟩
        · exact hw.minted_le
        · obtain ⟨hMove, hFixed⟩ := Emission.mintAuthorized_move hMint
          exact minted_le_of_move hw.minted_le hMove hFixed
      rcases distribute_eq_ok hDistribute with ⟨rfl, -, -⟩ | ⟨_, _, _, rfl, -⟩
      · exact ⟨hActive.self_ne, hActive.current, hActive.scheduled, hActive.creatorPool_ne,
          hActive.operatorPool_ne, hActive.grantPool_ne, hMinted⟩
      · exact ⟨hActive.self_ne, hActive.current, hActive.scheduled, hActive.creatorPool_ne,
          hActive.operatorPool_ne, hActive.grantPool_ne, hMinted⟩
  | updateWeights newWeights scheduledAtTs =>
      simp only [Compensation.call, updateWeights, bind_eq_ok_iff, pure_eq_ok_iff,
        Prod.mk.injEq] at h
      obtain ⟨-, -, ⟨⟩, hWhole, -, -, -, -, rfl, rfl, -, -⟩ := h
      exact ⟨hw.self_ne, hw.current, fun _ => whole_of_validateWeights hWhole, hw.creatorPool_ne,
        hw.operatorPool_ne, hw.grantPool_ne, hw.minted_le⟩
  | setPoolAddresses creator operator grant =>
      simp only [Compensation.call, setPoolAddresses, bind_eq_ok_iff, require_eq_ok_iff,
        pure_eq_ok_iff, Prod.mk.injEq, not_or] at h
      obtain ⟨-, -, -, ⟨hCreator, hOperator, hGrant⟩, rfl, rfl, -, -⟩ := h
      exact ⟨hw.self_ne, hw.current, hw.scheduled, hCreator, hOperator, hGrant, hw.minted_le⟩
  | ownership ownershipCall =>
      simp only [Compensation.call, bind_eq_ok_iff, pure_eq_ok_iff, Prod.mk.injEq] at h
      obtain ⟨ownable, -, rfl, rfl, -, -⟩ := h
      exact ⟨hw.self_ne, hw.current, hw.scheduled, hw.creatorPool_ne, hw.operatorPool_ne,
        hw.grantPool_ne, hw.minted_le⟩

theorem Ready.step {w w' : World} {i : Input} (hw : Ready w) (h : machine.step w i = some w') :
    Ready w' := by
  cases i with
  | distributor env c =>
      simp only [machine, Compensation.step] at h
      split at h
      case isTrue => cases h
      case isFalse =>
        split at h
        case h_1 hCall =>
          cases h
          exact Ready.call hw hCall
        case h_2 => cases h
  | controller env c =>
      simp only [machine, Compensation.step] at h
      split at h
      case isTrue => cases h
      case isFalse =>
        split at h
        case h_1 hCall =>
          cases h
          obtain ⟨hMove, hFixed⟩ := Emission.call_mintMove hCall
          exact ⟨hw.self_ne, hw.current, hw.scheduled, hw.creatorPool_ne, hw.operatorPool_ne,
            hw.grantPool_ne, minted_le_of_move hw.minted_le hMove hFixed⟩
        case h_2 => cases h
  | token sender c =>
      simp only [machine, Compensation.step] at h
      split at h
      case h_1 =>
        cases h
        exact ⟨hw.self_ne, hw.current, hw.scheduled, hw.creatorPool_ne, hw.operatorPool_ne,
          hw.grantPool_ne, hw.minted_le⟩
      case h_2 => cases h

theorem Pair.ready (p : Pair) (inputs : List Input) : Ready (p.after inputs) := by
  refine machine.run_invariant Ready (fun _ _ _ hw h => hw.step h) ?_ inputs
  have hConstructed := p.distributor.constructed
  simp only [construct, bind_eq_ok_iff, require_eq_ok_iff, pure_eq_ok_iff, not_or] at hConstructed
  obtain ⟨ownable, -, -, ⟨-, -, hCreator, hOperator, hGrant⟩, ⟨⟩, hWhole, hState⟩ := hConstructed
  have hDistributor : p.distributor.world.distributor = State.initial p.distributor.self ownable
      p.distributor.creatorPool p.distributor.operatorPool p.distributor.grantPool
      p.distributor.initialWeights := hState.symm
  have hController : p.distributor.world.controller = p.controller.state := p.controller_eq
  have hMinted := p.controller.withinSchedule
  constructor
  · rw [hDistributor]
    exact p.self_ne
  · rw [hDistributor]
    exact whole_of_validateWeights hWhole
  · rw [hDistributor]
    exact fun h => Bool.noConfusion h
  · rwa [hDistributor]
  · rwa [hDistributor]
  · rwa [hDistributor]
  · have hCap : p.controller.state.mintCap = p.controller.mintCap :=
      congrArg Prod.snd hMinted.immutables_eq
    rw [hController, hCap]
    exact hMinted.minted_le_cap

end Steps

/-! ## The request -/

/-- What has accrued since the last mint. -/
def accrued (controller : Emission.State) (timestamp : Nat) : Nat :=
  controller.currentEpochRate timestamp * (timestamp - controller.lastMintTimestamp)

/-- What a distribution asks the controller for, or zero where it does not ask. -/
def requested (controller : Emission.State) (timestamp : Nat) : Nat :=
  if controller.paused then 0
  else min (accrued controller timestamp) (controller.mintCap - controller.mintedToDate)

/-- The controller after a mint. -/
def afterMint (controller : Emission.State) (timestamp amount : Nat) : Emission.State :=
  { controller with
    mintedToDate := controller.mintedToDate + amount
    lastMintTimestamp := uint64 timestamp }

section Request

variable {env : Env} {s : State} {controller : Emission.State} {t : FtnsToken.State}

theorem mintAuthorized_requested (hSender : s.self = controller.authorizedDistributor)
    (hMinted : controller.mintedToDate ≤ controller.mintCap)
    (hFits : accrued controller env.timestamp < 2 ^ 256)
    (hSome : requested controller env.timestamp ≠ 0) :
    Emission.mintAuthorized { block := env.block, sender := s.self } controller t
        (requested controller env.timestamp) =
      (raise .token (FtnsToken.mintReward controller.self t controller.authorizedDistributor
        (requested controller env.timestamp))).bind fun t' =>
          .ok (afterMint controller env.timestamp (requested controller env.timestamp), t',
            [.minted controller.authorizedDistributor (requested controller env.timestamp)
              (controller.currentEpoch env.timestamp)
              (controller.currentEpochRate env.timestamp)]) := by
  have hPaused : controller.paused = false := by
    by_contra h
    exact hSome (if_pos ((Bool.not_eq_false _).mp h))
  have hRequested : requested controller env.timestamp =
      min (accrued controller env.timestamp) (controller.mintCap - controller.mintedToDate) :=
    if_neg (by simp [hPaused])
  have hRate : requested controller env.timestamp ≤ accrued controller env.timestamp :=
    hRequested.le.trans (min_le_left _ _)
  have hRoom : requested controller env.timestamp ≤
      controller.mintCap - controller.mintedToDate :=
    hRequested.le.trans (min_le_right _ _)
  have hCap : controller.mintedToDate + requested controller env.timestamp < 2 ^ 256 := by
    have hLt := controller.mintCap.isLt
    omega
  -- The controller counts the same time, also where none has passed.
  have hElapsed : controller.elapsed env.timestamp =
      env.timestamp - controller.lastMintTimestamp := by
    unfold Emission.State.elapsed
    split
    · rfl
    · omega
  have hTimestamp : (⟨env.block, s.self⟩ : Emission.Env).timestamp = env.timestamp := rfl
  unfold accrued at hRate hFits
  simp only [Emission.mintAuthorized, hTimestamp, hElapsed]
  rw [require_of_pos _ hSender, require_of_pos _ hPaused, require_of_pos _ hSome,
    checkedMul_of_lt _ hFits]
  simp only [ok_bind]
  rw [require_of_pos _ hRate, checkedSub_of_le _ hMinted]
  simp only [ok_bind]
  rw [require_of_pos _ hRoom, checkedAdd_of_lt _ hCap]
  rfl

theorem tryPull_eq (hMinted : controller.mintedToDate ≤ controller.mintCap)
    (hFits : accrued controller env.timestamp < 2 ^ 256) :
    tryPull env s controller t =
      if requested controller env.timestamp = 0 then .ok (controller, t)
      else (raise .controller (Emission.mintAuthorized { block := env.block, sender := s.self }
        controller t (requested controller env.timestamp))).map fun minted =>
          (minted.1, minted.2.1) := by
  unfold tryPull
  split
  case isTrue hNothing =>
    have hZero : requested controller env.timestamp = 0 := by
      unfold requested accrued
      split
      · rfl
      · rcases hNothing with hPaused | hRate | hLast
        · contradiction
        · rw [hRate, Nat.zero_mul, Nat.zero_min]
        · rw [Nat.sub_eq_zero_of_le hLast, Nat.mul_zero, Nat.zero_min]
    rw [if_pos hZero]
    rfl
  case isFalse hSomething =>
    have hRequested : requested controller env.timestamp =
        min (accrued controller env.timestamp)
          (controller.mintCap - controller.mintedToDate) :=
      if_neg fun hPaused => hSomething (Or.inl hPaused)
    rw [checkedMul_of_lt _ hFits, checkedSub_of_le _ hMinted]
    simp only [ok_bind]
    rw [hRequested]
    rfl

end Request

/-! ## The payment -/

/-- The balance of the distributor is paid out by its weights, with at most two units of
rounding for the grant pool. -/
def PaidOut (s : State) (available : Nat) (ledger ledger' : Token) : Prop :=
  ∃ toCreator toOperator toGrant,
    toCreator + toOperator + toGrant = available ∧
    toCreator = available * s.currentWeights.creatorPoolBps / bpsDenominator ∧
    toOperator = available * s.currentWeights.operatorPoolBps / bpsDenominator ∧
    available * s.currentWeights.grantPoolBps / bpsDenominator ≤ toGrant ∧
    toGrant ≤ available * s.currentWeights.grantPoolBps / bpsDenominator + 2 ∧
    ledger' = ((ledger.move s.self s.creatorPool toCreator).move s.self s.operatorPool
      toOperator).move s.self s.grantPool toGrant

section Payment

variable {env : Env} {s s' : State} {t t' : FtnsToken.State} {events : List Event}

theorem floor_shares {n creator operator grant : Nat}
    (hWhole : creator + operator + grant = bpsDenominator) :
    n * creator / bpsDenominator + n * operator / bpsDenominator +
        n * grant / bpsDenominator ≤ n ∧
      n ≤ n * creator / bpsDenominator + n * operator / bpsDenominator +
        n * grant / bpsDenominator + 2 := by
  have hSum : n * creator + n * operator + n * grant = n * bpsDenominator := by
    rw [← hWhole, Nat.mul_add, Nat.mul_add]
  unfold bpsDenominator at *
  omega

theorem move_zero (ledger : Token) (sender recipient : Address) :
    ledger.move sender recipient 0 = ledger := by
  cases ledger
  simp [Token.move]

theorem sendShare_eq_ok {pool : Address} {amount : Nat}
    (h : sendShare s t pool amount = .ok t') : t'.ledger = t.ledger.move s.self pool amount := by
  unfold sendShare at h
  split at h
  case isTrue =>
    simp only [raise_eq_ok_iff, FtnsToken.transfer, FtnsToken.move, bind_eq_ok_iff,
      pure_eq_ok_iff] at h
    obtain ⟨-, -, -, -, -, -, -, -, rfl⟩ := h
    rfl
  case isFalse hZero =>
    cases h
    rw [Nat.eq_zero_of_not_pos hZero, move_zero]

theorem sendShare_of_le {pool : Address} {amount : Nat} (hSelf : s.self ≠ 0) (hPool : pool ≠ 0)
    (hPaused : t.paused = false) (hAmount : amount ≤ t.ledger.balanceOf s.self) :
    sendShare s t pool amount = .ok { t with ledger := t.ledger.move s.self pool amount } := by
  unfold sendShare
  split
  case isTrue =>
    simp only [FtnsToken.transfer, FtnsToken.move, FtnsToken.State.whenNotPaused,
      Evm.whenNotPaused, require_of_pos _ hSelf, require_of_pos _ hPool, require_of_pos _ hPaused,
      require_of_pos _ hAmount, raise_ok, ok_bind]
    rfl
  case isFalse hZero =>
    rw [Nat.eq_zero_of_not_pos hZero, move_zero]
    rfl

theorem distribute_paidOut (hWhole : s.currentWeights.Whole)
    (h : distribute env s t = .ok (s', t', events)) :
    PaidOut s (t.ledger.balanceOf s.self) t.ledger t'.ledger := by
  obtain ⟨hLower, hUpper⟩ := floor_shares (n := t.ledger.balanceOf s.self) hWhole
  simp only [distribute] at h
  split at h
  case isTrue hNone =>
    cases h
    rw [hNone]
    exact ⟨0, 0, 0, rfl, by simp, by simp, by simp, Nat.zero_le _, by simp only [move_zero]⟩
  case isFalse =>
    simp only [bind_eq_ok_iff, checkedMul_eq_ok_iff, checkedSub_eq_ok_iff, pure_eq_ok_iff,
      Prod.mk.injEq] at h
    obtain ⟨_, ⟨-, rfl⟩, _, ⟨-, rfl⟩, _, ⟨hCreator, rfl⟩, toGrant, ⟨hOperator, hGrant⟩, t₁,
      hFirst, t₂, hSecond, t₃, hThird, rfl, rfl, -⟩ := h
    refine ⟨_, _, toGrant, ?_, rfl, rfl, ?_, ?_, ?_⟩
    · omega
    · omega
    · omega
    · rw [sendShare_eq_ok hThird, sendShare_eq_ok hSecond, sendShare_eq_ok hFirst]

theorem distribute_succeeds (hWhole : s.currentWeights.Whole) (hSelf : s.self ≠ 0)
    (hCreatorPool : s.creatorPool ≠ 0) (hOperatorPool : s.operatorPool ≠ 0)
    (hGrantPool : s.grantPool ≠ 0) (hPaused : t.paused = false)
    (hFits : t.ledger.balanceOf s.self * bpsDenominator < 2 ^ 256) :
    ∃ result, distribute env s t = .ok result := by
  obtain ⟨hLower, -⟩ := floor_shares (n := t.ledger.balanceOf s.self) hWhole
  have hProduct : ∀ bps ≤ bpsDenominator, t.ledger.balanceOf s.self * bps < 2 ^ 256 :=
    fun bps hBps => (Nat.mul_le_mul_left _ hBps).trans_lt hFits
  unfold PoolWeights.Whole at hWhole
  have hCreator := hProduct s.currentWeights.creatorPoolBps (by omega)
  have hOperator := hProduct s.currentWeights.operatorPoolBps (by omega)
  simp only [distribute]
  by_cases hNone : t.ledger.balanceOf s.self = 0
  · rw [if_pos hNone]
    exact ⟨_, rfl⟩
  rw [if_neg hNone, checkedMul_of_lt _ hCreator, checkedMul_of_lt _ hOperator]
  simp only [ok_bind]
  generalize t.ledger.balanceOf s.self * s.currentWeights.creatorPoolBps / bpsDenominator =
    toCreator at *
  generalize t.ledger.balanceOf s.self * s.currentWeights.operatorPoolBps / bpsDenominator =
    toOperator at *
  have hShares := (Nat.le_add_right _ _).trans hLower
  have hFirst : toCreator ≤ t.ledger.balanceOf s.self := by omega
  have hSecond : toOperator ≤ t.ledger.balanceOf s.self - toCreator := by omega
  rw [checkedSub_of_le _ hFirst]
  simp only [ok_bind]
  rw [checkedSub_of_le _ hSecond]
  simp only [ok_bind]
  -- What each transfer leaves covers the next one.
  have hLeft : t.ledger.balanceOf s.self ≤
      (t.ledger.move s.self s.creatorPool toCreator).balanceOf s.self + toCreator :=
    Token.le_move_balanceOf_sender hFirst
  have hNext : toOperator ≤ (t.ledger.move s.self s.creatorPool toCreator).balanceOf s.self := by
    omega
  have hLeftNext : (t.ledger.move s.self s.creatorPool toCreator).balanceOf s.self ≤
      ((t.ledger.move s.self s.creatorPool toCreator).move s.self s.operatorPool
        toOperator).balanceOf s.self + toOperator :=
    Token.le_move_balanceOf_sender hNext
  have hRest : t.ledger.balanceOf s.self - toCreator - toOperator ≤
      ((t.ledger.move s.self s.creatorPool toCreator).move s.self s.operatorPool
        toOperator).balanceOf s.self := by
    omega
  rw [sendShare_of_le hSelf hCreatorPool hPaused hFirst]
  simp only [ok_bind]
  rw [sendShare_of_le hSelf hOperatorPool (by exact hPaused) hNext]
  simp only [ok_bind]
  rw [sendShare_of_le hSelf hGrantPool (by exact hPaused) hRest]
  exact ⟨_, rfl⟩

end Payment

/-- For every reachable pair with this distributor authorised, as long as no product
overflows: the amount asked for passes every check of the controller, so that only the token can
refuse it; a distribution pays out the whole balance by the weights in force; and it succeeds
where the token mints and moves. -/
theorem pullAndDistribute_pays (p : Pair) (inputs : List Input) (env : Env)
    (hDistributor : (p.after inputs).controller.authorizedDistributor =
      (p.after inputs).distributor.self)
    (hRate : accrued (p.after inputs).controller env.timestamp < 2 ^ 256) :
    let w := p.after inputs
    let active := applyScheduledWeightsIfActive w.distributor env.timestamp
    let amount := requested w.controller env.timestamp
    let available := w.token.ledger.balanceOf active.self + amount
    let caller : Emission.Env := { block := env.block, sender := active.self }
    (tryPull env active w.controller w.token =
        if amount = 0 then .ok (w.controller, w.token)
        else (raise .controller (Emission.mintAuthorized caller w.controller w.token amount)).map
          fun minted => (minted.1, minted.2.1)) ∧
      (amount ≠ 0 → ∀ e, Emission.mintAuthorized caller w.controller w.token amount = .error e →
        ∃ e', e = .token e' ∧
          FtnsToken.mintReward w.controller.self w.token active.self amount = .error e') ∧
      (∀ s' c' t' events, pullAndDistribute env w.distributor w.controller w.token =
          .ok (s', c', t', events) →
        ∃ t₁, tryPull env active w.controller w.token = .ok (c', t₁) ∧
          t₁.ledger.balanceOf active.self = available ∧
          PaidOut active available t₁.ledger t'.ledger) ∧
      (∀ c' t₁, tryPull env active w.controller w.token = .ok (c', t₁) → t₁.paused = false →
        available * bpsDenominator < 2 ^ 256 →
          ∃ result, pullAndDistribute env w.distributor w.controller w.token = .ok result) := by
  intro w active amount available caller
  have hReady : Ready w := p.ready inputs
  have hActive : Ready ⟨w.now, active, w.controller, w.token, w.history⟩ :=
    Ready.applied hReady
  have hSelf : active.self = w.distributor.self := by
    show (applyScheduledWeightsIfActive _ _).self = _
    unfold applyScheduledWeightsIfActive
    split <;> rfl
  have hSender : active.self = w.controller.authorizedDistributor := hSelf.trans hDistributor.symm
  have hAsked : tryPull env active w.controller w.token = _ := tryPull_eq hReady.minted_le hRate
  have hMint : amount ≠ 0 → _ := fun hSome =>
    mintAuthorized_requested (t := w.token) hSender hReady.minted_le hRate hSome
  have hAvailable : ∀ c' t₁, tryPull env active w.controller w.token = .ok (c', t₁) →
      t₁.ledger.balanceOf active.self = available := by
    intro c' t₁ hPull
    rw [hAsked] at hPull
    split at hPull
    case isTrue hZero =>
      cases hPull
      show _ = w.token.ledger.balanceOf active.self + requested _ _
      rw [hZero, Nat.add_zero]
    case isFalse hSome =>
      rw [hMint hSome] at hPull
      cases hToken : FtnsToken.mintReward w.controller.self w.token
          w.controller.authorizedDistributor (requested w.controller env.timestamp) with
      | error e =>
          rw [hToken] at hPull
          cases hPull
      | ok minted =>
          rw [hToken] at hPull
          cases hPull
          obtain ⟨-, -, -, -, rfl⟩ := FtnsToken.mintReward_eq_ok_iff.mp hToken
          show (w.token.minted w.controller.authorizedDistributor amount).ledger.balanceOf
            active.self = w.token.ledger.balanceOf active.self + amount
          rw [hSender]
          exact FtnsToken.minted_balanceOf ..
  refine ⟨hAsked, fun hSome e hError => ?_, fun s' c' t' events hDone => ?_,
    fun c' t₁ hPull hPaused hFits => ?_⟩
  · rw [hMint hSome] at hError
    cases hToken : FtnsToken.mintReward w.controller.self w.token
        w.controller.authorizedDistributor (requested w.controller env.timestamp) with
    | error e' =>
        rw [hToken] at hError
        cases hError
        exact ⟨e', rfl, hSender ▸ hToken⟩
    | ok minted =>
        rw [hToken] at hError
        cases hError
  · simp only [pullAndDistribute, bind_eq_ok_iff, pure_eq_ok_iff, Prod.mk.injEq] at hDone
    obtain ⟨⟨c₁, t₁⟩, hPull, ⟨s₁, t₂, events₁⟩, hPaid, rfl, rfl, rfl, -⟩ := hDone
    have hBalance := hAvailable c₁ t₁ hPull
    refine ⟨t₁, hPull, hBalance, ?_⟩
    rw [← hBalance]
    exact distribute_paidOut hActive.current hPaid
  · obtain ⟨⟨s₁, t₂, events⟩, hPaid⟩ : ∃ result, distribute env active t₁ = .ok result :=
      distribute_succeeds hActive.current hActive.self_ne hActive.creatorPool_ne
        hActive.operatorPool_ne hActive.grantPool_ne hPaused (by rwa [hAvailable c' t₁ hPull])
    simp only [pullAndDistribute]
    rw [hPull]
    simp only [ok_bind]
    rw [hPaid]
    exact ⟨_, rfl⟩

theorem smallDeployment_self_ne : smallDeployment.self ≠ 0 := by decide

def smallPair : Pair where
  distributor :=
    { smallDeployment with
      controller := Emission.State.initial 70 ⟨1, 0⟩ 1000 8 100000 3600
      token := { smallDeployment.token with hasRole := fun _ account => account = 70 } }
  self_ne := smallDeployment_self_ne
  controller :=
    { Emission.smallDeployment with
      self := 70
      state := Emission.State.initial 70 ⟨1, 0⟩ 1000 8 100000 3600
      constructed := by rfl }
  controller_eq := rfl

def authorisedRun : List Input :=
  [.controller (Emission.smallEnv 1000 1) (.setAuthorizedDistributor 50)]

theorem pullAndDistribute_pays_smallPair :
    let w := smallPair.after authorisedRun
    requested w.controller 1100 = 800 ∧
      ∀ e, Emission.mintAuthorized { block := smallBlock 1100, sender := 50 } w.controller w.token
        (requested w.controller 1100) = .error e → ∃ e', e = .token e' := by
  intro w
  refine ⟨by decide +kernel, fun e hError => ?_⟩
  obtain ⟨-, hAsked, -⟩ := pullAndDistribute_pays smallPair authorisedRun (smallEnv 1100 9)
    (by decide +kernel) (by decide +kernel)
  obtain ⟨e', rfl, -⟩ := hAsked (by decide +kernel) e hError
  exact ⟨e', rfl⟩

end Prsm.Compensation
