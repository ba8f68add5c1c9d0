import Mathlib.Algebra.Order.Floor.Semifield
import Prsm.Emission.Operations
import Prsm.Foundations.Machine
import Prsm.Foundations.StepIntegral

/-!
# The halving schedule

The schedule pays `baseline >> e` tokens a second throughout epoch `e`.  This is what
the emission is for, stated apart from the contract that follows it: `rate` is the rate
at a point in time and `emitted` what has been paid in whole seconds, and
`integral_rate` says that the second is the integral of the first.

A stretch of time that is paid at the rate of its end is paid no more than the schedule would,
however many halvings it spans.
-/

namespace Prsm.Emission

open Foundations

/-- The parameters of a schedule. -/
structure Schedule where
  start : Nat
  baseline : Nat
  epochDuration : Nat

namespace Schedule

/-- Tokens for the second that begins at time `t`. -/
def perSecond (c : Schedule) (t : Nat) : Nat :=
  c.baseline >>> ((t - c.start) / c.epochDuration)

/-- The rate at a point in time: the baseline, halved once for each full epoch since the
start. -/
noncomputable def rate (c : Schedule) (t : ℝ) : ℝ :=
  ((c.baseline >>> ⌊(t - c.start) / c.epochDuration⌋₊ : Nat) : ℝ)

/-- What the schedule has paid by time `t`. -/
def emitted (c : Schedule) (t : Nat) : Nat :=
  ∑ second ∈ Finset.Ico c.start t, c.perSecond second

variable {c : Schedule}

theorem perSecond_anti {t t' : Nat} (h : t ≤ t') : c.perSecond t' ≤ c.perSecond t := by
  unfold perSecond
  rw [Nat.shiftRight_eq_div_pow, Nat.shiftRight_eq_div_pow]
  apply Nat.div_le_div_left
  · apply Nat.pow_le_pow_right (by norm_num)
    exact Nat.div_le_div_right (Nat.sub_le_sub_right h _)
  · exact Nat.two_pow_pos _

theorem emitted_add_le {t t' : Nat} (hStart : c.start ≤ t) (hLe : t ≤ t') :
    c.emitted t + c.perSecond t' * (t' - t) ≤ c.emitted t' := by
  have hStretch : (t' - t) • c.perSecond t' ≤ ∑ second ∈ Finset.Ico t t', c.perSecond second := by
    have hCard : (Finset.Ico t t').card = t' - t := Nat.card_Ico t t'
    rw [← hCard]
    apply Finset.card_nsmul_le_sum
    intro second hSecond
    exact perSecond_anti (Finset.mem_Ico.mp hSecond).2.le
  calc c.emitted t + c.perSecond t' * (t' - t)
      = c.emitted t + (t' - t) • c.perSecond t' := by rw [smul_eq_mul, Nat.mul_comm]
    _ ≤ c.emitted t + ∑ second ∈ Finset.Ico t t', c.perSecond second :=
        Nat.add_le_add_left hStretch _
    _ = c.emitted t' := Finset.sum_Ico_consecutive _ hStart hLe

theorem rate_eqOn_second {second : Nat} (hStart : c.start ≤ second) :
    Set.EqOn c.rate (fun _ => (c.perSecond second : ℝ))
      (Set.Ioo (second : ℝ) (second + 1)) := by
  rintro t ⟨hLower, hUpper⟩
  have hShift : t - c.start ∈ Set.Ico ((second - c.start : Nat) : ℝ)
      ((second - c.start : Nat) + 1) := by
    rw [Nat.cast_sub hStart]
    constructor <;> linarith
  have hFloor : ⌊(t - c.start) / c.epochDuration⌋₊ = (second - c.start) / c.epochDuration := by
    rw [Nat.floor_div_natCast, Nat.floor_eq_on_Ico _ _ hShift]
  show ((c.baseline >>> ⌊(t - c.start) / c.epochDuration⌋₊ : Nat) : ℝ) = c.perSecond second
  rw [hFloor, perSecond]

theorem integral_rate {t : Nat} (hStart : c.start ≤ t) :
    ∫ x in (c.start : ℝ)..t, c.rate x = (c.emitted t : ℝ) := by
  rw [emitted, Nat.cast_sum]
  exact integral_eq_sum_of_steps hStart fun second hLower _ => rate_eqOn_second hLower

end Schedule

end Prsm.Emission

/-!
# Emission stays below the halving schedule

A mint takes at most the rate of its time for every second since the last one, which
the schedule has then paid as well.  So what has been minted in all stays below the
integral of the schedule up to the last mint, and below the cap.

The contract keeps the epoch number in 32 bits.  Once it wraps, the rate of the contract
is no longer the rate of the schedule, which is why the runs below end before that.
-/

namespace Prsm.Emission

open Foundations Evm

structure World where
  /-- The time of the latest block. -/
  now : Nat
  controller : State
  token : FtnsToken.State

/-- A call of the controller, or of the token by anyone. -/
inductive Input
  | controller (env : Env) (call : Call)
  | token (sender : Address) (call : FtnsToken.Call)

/-- One transaction.  Time does not run backwards. -/
def step (w : World) : Input → Option World
  | .controller env c =>
      if env.timestamp < w.now then none
      else
        match call env w.controller w.token c with
        | .ok (s, t, _) => some ⟨env.timestamp, s, t⟩
        | .error _ => none
  | .token sender c =>
      match FtnsToken.call sender w.token c with
      | .ok t => some { w with token := t }
      | .error _ => none

def machine : Machine World Input where
  step := step

/-- A deployed controller with the token it mints. -/
structure Deployment where
  chainId : Nat
  self : Address
  ftnsToken : Address
  epochZeroStartTimestamp : Uint 64
  baselineRatePerSecond : Uint 256
  mintCap : Uint 256
  epochDurationSeconds : Uint 256
  initialOwner : Address
  state : State
  constructed : construct chainId self ftnsToken epochZeroStartTimestamp baselineRatePerSecond
    mintCap epochDurationSeconds initialOwner = .ok state
  block : Block
  token : FtnsToken.State

def Deployment.world (d : Deployment) : World := ⟨d.block.timestamp, d.state, d.token⟩

def Deployment.after (d : Deployment) (inputs : List Input) : World :=
  machine.run d.world inputs

/-- The schedule that the constructor fixes. -/
def Deployment.schedule (d : Deployment) : Schedule where
  start := d.epochZeroStartTimestamp
  baseline := d.baselineRatePerSecond
  epochDuration := d.epochDurationSeconds

/-! ## One call -/

variable {env : Env} {s s' : State} {t t' : FtnsToken.State} {events : List Event}

/-- The schedule in storage. -/
def State.schedule (s : State) : Schedule where
  start := s.epochZeroStartTimestamp
  baseline := s.baselineRatePerSecond
  epochDuration := s.epochDurationSeconds

/-- The full epochs since the start, as long as the contract can count them. -/
def Schedule.CountsEpochs (c : Schedule) (timestamp : Nat) : Prop :=
  (timestamp - c.start) / c.epochDuration < 2 ^ 32

theorem currentEpoch_eq {timestamp : Nat} (hEpoch : s.schedule.CountsEpochs timestamp) :
    s.currentEpoch timestamp = (timestamp - s.schedule.start) / s.schedule.epochDuration := by
  unfold State.currentEpoch
  split
  case isTrue hEarly =>
    have hZero : timestamp - s.schedule.start = 0 := Nat.sub_eq_zero_of_le hEarly
    rw [hZero, Nat.zero_div]
  case isFalse => exact Nat.mod_eq_of_lt hEpoch

theorem currentEpochRate_le {timestamp : Nat} (hEpoch : s.schedule.CountsEpochs timestamp) :
    s.currentEpochRate timestamp ≤ s.schedule.perSecond timestamp := by
  unfold State.currentEpochRate
  split
  case isTrue => exact Nat.zero_le _
  case isFalse => rw [currentEpoch_eq hEpoch]; rfl

/-- What a call can do to the schedule and to what has been minted. -/
inductive MintMove (env : Env) (s s' : State) : Prop
  | unchanged (hMinted : s'.mintedToDate = s.mintedToDate)
      (hLast : s'.lastMintTimestamp = s.lastMintTimestamp)
  | minted {amount : Nat} (hLater : s.lastMintTimestamp < env.timestamp)
      (hRate : amount ≤ s.currentEpochRate env.timestamp * (env.timestamp - s.lastMintTimestamp))
      (hCap : s.mintedToDate + amount ≤ s.mintCap)
      (hMinted : s'.mintedToDate = s.mintedToDate + amount)
      (hLast : s'.lastMintTimestamp = env.timestamp)

/-- The fields that are fixed at construction. -/
def State.immutables (s : State) : Schedule × Uint 256 := (s.schedule, s.mintCap)

theorem mintAuthorized_move {amount : Nat}
    (h : mintAuthorized env s t amount = .ok (s', t', events)) :
    MintMove env s s' ∧ s'.immutables = s.immutables := by
  simp only [mintAuthorized, bind_eq_ok_iff, require_eq_ok_iff, checkedMul_eq_ok_iff,
    checkedSub_eq_ok_iff, checkedAdd_eq_ok_iff, pure_eq_ok_iff, Prod.mk.injEq] at h
  obtain ⟨-, -, -, -, -, hNonzero, -, ⟨-, rfl⟩, -, hAllowed, -, ⟨hMinted, rfl⟩, -, hRemaining, -,
    ⟨-, rfl⟩, -, -, rfl, -, -⟩ := h
  -- Before any time has passed nothing is allowed.
  have hLater : s.lastMintTimestamp < env.timestamp := by
    by_contra hEarly
    rw [State.elapsed, if_neg hEarly, Nat.mul_zero] at hAllowed
    omega
  rw [State.elapsed, if_pos hLater] at hAllowed
  have hTimestamp : env.timestamp < 2 ^ 64 :=
    env.block.timestamp_lt.trans (Nat.pow_lt_pow_right (by norm_num) (by norm_num))
  exact ⟨.minted hLater hAllowed (by omega) rfl (uint64_of_lt hTimestamp), rfl⟩

theorem call_mintMove {c : Call} (h : call env s t c = .ok (s', t', events)) :
    MintMove env s s' ∧ s'.immutables = s.immutables := by
  cases c with
  | mintAuthorized amount => exact mintAuthorized_move h
  | setAuthorizedDistributor newDistributor =>
      simp only [call, setAuthorizedDistributor, bind_eq_ok_iff, pure_eq_ok_iff,
        Prod.mk.injEq] at h
      obtain ⟨-, -, -, -, rfl, -, -⟩ := h
      exact ⟨.unchanged rfl rfl, rfl⟩
  | pauseMinting =>
      simp only [call, pauseMinting, bind_eq_ok_iff, pure_eq_ok_iff, Prod.mk.injEq] at h
      obtain ⟨-, -, -, -, rfl, -, -⟩ := h
      exact ⟨.unchanged rfl rfl, rfl⟩
  | resumeMinting =>
      simp only [call, resumeMinting, bind_eq_ok_iff, pure_eq_ok_iff, Prod.mk.injEq] at h
      obtain ⟨-, -, -, -, rfl, -, -⟩ := h
      exact ⟨.unchanged rfl rfl, rfl⟩
  | ownership ownershipCall =>
      simp only [call, bind_eq_ok_iff, pure_eq_ok_iff, Prod.mk.injEq] at h
      obtain ⟨ownable, -, rfl, -, -⟩ := h
      exact ⟨.unchanged rfl rfl, rfl⟩

/-! ## The bound -/

/-- What has been minted is within the cap and within what the schedule had paid at the
last mint. -/
structure WithinSchedule (c : Schedule) (cap : Uint 256) (s : State) : Prop where
  immutables_eq : s.immutables = (c, cap)
  start_le : c.start ≤ s.lastMintTimestamp
  minted_le_cap : s.mintedToDate ≤ cap
  minted_le_emitted : s.mintedToDate ≤ c.emitted s.lastMintTimestamp

theorem WithinSchedule.mintMove {c : Schedule} {cap : Uint 256} (hs : WithinSchedule c cap s)
    (hMove : MintMove env s s') (hFixed : s'.immutables = s.immutables)
    (hEpoch : c.CountsEpochs env.timestamp) : WithinSchedule c cap s' := by
  have hSchedule : s.schedule = c := congrArg Prod.fst hs.immutables_eq
  have hCapEq : s.mintCap = cap := congrArg Prod.snd hs.immutables_eq
  have hStart := hs.start_le
  have hMintedCap := hs.minted_le_cap
  have hMintedEmitted := hs.minted_le_emitted
  cases hMove with
  | unchanged hMinted hLast =>
      exact ⟨hFixed.trans hs.immutables_eq, by rw [hLast]; exact hStart,
        by rw [hMinted]; exact hMintedCap, by rw [hMinted, hLast]; exact hMintedEmitted⟩
  | @minted amount hLater hRate hCap hMinted hLast =>
      -- The rate of the contract is that of the schedule, or zero.
      have hAmount :
          amount ≤ c.perSecond env.timestamp * (env.timestamp - s.lastMintTimestamp) := by
        rw [← hSchedule] at hEpoch ⊢
        exact hRate.trans (Nat.mul_le_mul_right _ (currentEpochRate_le hEpoch))
      refine ⟨hFixed.trans hs.immutables_eq, ?_, ?_, ?_⟩
      · rw [hLast]
        exact hStart.trans hLater.le
      · rw [hMinted, ← hCapEq]
        exact hCap
      · rw [hMinted, hLast]
        exact (Nat.add_le_add hMintedEmitted hAmount).trans
          (Schedule.emitted_add_le hStart hLater.le)

/-- The contract can count the epoch that a call of it happens in. -/
def CountableEpoch (c : Schedule) : Input → Prop
  | .controller env _ => c.CountsEpochs env.timestamp
  | .token _ _ => True

theorem WithinSchedule.step {c : Schedule} {cap : Uint 256} {w w' : World} {i : Input}
    (hw : WithinSchedule c cap w.controller) (hEpoch : CountableEpoch c i)
    (h : machine.step w i = some w') : WithinSchedule c cap w'.controller := by
  cases i with
  | controller env call =>
      simp only [machine, Emission.step] at h
      split at h
      case isTrue => cases h
      case isFalse =>
        split at h
        case h_1 s' t' events hCall =>
          cases h
          obtain ⟨hMove, hFixed⟩ := call_mintMove hCall
          exact hw.mintMove hMove hFixed hEpoch
        case h_2 => cases h
  | token sender call =>
      simp only [machine, Emission.step] at h
      split at h
      case h_1 => cases h; exact hw
      case h_2 => cases h

theorem Deployment.withinSchedule (d : Deployment) :
    WithinSchedule d.schedule d.mintCap d.state := by
  have hConstructed := d.constructed
  simp only [construct, bind_eq_ok_iff, pure_eq_ok_iff] at hConstructed
  obtain ⟨ownable, -, -, -, -, -, -, -, -, -, -, -, hState⟩ := hConstructed
  -- The last mint is dated to the start of epoch zero.
  rw [← hState]
  exact ⟨rfl, le_refl _, Nat.zero_le _, Nat.zero_le _⟩

/-- In every run whose calls come while the contract can count their epochs, what has
been minted stays within the cap and within the integral of the halving schedule from the
start of epoch zero to the last mint. -/
theorem never_over_mints (d : Deployment) (inputs : List Input)
    (hEpochs : ∀ env call, Input.controller env call ∈ inputs →
      (env.timestamp - d.epochZeroStartTimestamp) / d.epochDurationSeconds < 2 ^ 32) :
    let s := (d.after inputs).controller
    s.mintedToDate ≤ d.mintCap ∧
      (s.mintedToDate : ℝ) ≤
        ∫ x in ((d.epochZeroStartTimestamp : Nat) : ℝ)..(s.lastMintTimestamp : ℝ),
          d.schedule.rate x := by
  intro s
  have hSteps : machine.EveryStep (fun _ i => CountableEpoch d.schedule i) d.world inputs := by
    intro before i hPrefix _
    cases i with
    | controller env call =>
        apply hEpochs env call
        exact hPrefix.subset (List.mem_append_right before (List.mem_singleton_self _))
    | token sender call => trivial
  have hWithin : WithinSchedule d.schedule d.mintCap s :=
    (machine.everyState_of_everyStep (fun w => WithinSchedule d.schedule d.mintCap w.controller) _
      (fun _ _ _ hw hEpoch h => hw.step hEpoch h) d.withinSchedule hSteps).last
  refine ⟨hWithin.minted_le_cap, ?_⟩
  show (s.mintedToDate : ℝ) ≤ ∫ x in (d.schedule.start : ℝ)..(s.lastMintTimestamp : ℝ),
    d.schedule.rate x
  rw [Schedule.integral_rate hWithin.start_le]
  exact_mod_cast hWithin.minted_le_emitted

/-- A controller at address 50 that starts at time 1000 with eight tokens a second and
epochs of an hour.  It may mint, and account 1 owns it. -/
def smallDeployment : Deployment where
  chainId := 1
  self := 50
  ftnsToken := 60
  epochZeroStartTimestamp := 1000
  baselineRatePerSecond := 8
  mintCap := 100000
  epochDurationSeconds := 3600
  initialOwner := 1
  state := State.initial 50 ⟨1, 0⟩ 1000 8 100000 3600
  constructed := by rfl
  block := smallBlock 900
  token :=
    { ledger := { balanceOf := fun _ => 0, allowance := fun _ _ => 0 }
      totalSupply := 0
      hasRole := fun _ account => account = 50
      paused := false }

def smallEnv (timestamp : Nat) (sender : Address) : Env where
  block := smallBlock timestamp
  sender := sender

/-- The first mint comes ten seconds into the second epoch and takes all it may. -/
def halvingRun : List Input :=
  [.controller (smallEnv 950 1) (.setAuthorizedDistributor 2),
    .controller (smallEnv 4610 2) (.mintAuthorized 14440)]

theorem never_over_mints_halvingRun :
    (smallDeployment.after halvingRun).controller.mintedToDate = 14440 ∧
      ((smallDeployment.after halvingRun).controller.mintedToDate : ℝ) ≤
        ∫ x in ((smallDeployment.epochZeroStartTimestamp : Nat) : ℝ)..
          ((smallDeployment.after halvingRun).controller.lastMintTimestamp : ℝ),
          smallDeployment.schedule.rate x := by
  refine ⟨by decide +kernel, (never_over_mints smallDeployment halvingRun ?_).2⟩
  intro env call hMem
  have hTime : env.timestamp = 950 ∨ env.timestamp = 4610 := by
    simp only [halvingRun, List.mem_cons, Input.controller.injEq, List.not_mem_nil,
      or_false] at hMem
    rcases hMem with ⟨rfl, -⟩ | ⟨rfl, -⟩
    · exact .inl (by decide +kernel)
    · exact .inr (by decide +kernel)
  rcases hTime with hTime | hTime
  · rw [hTime]
    decide +kernel
  · rw [hTime]
    decide +kernel

end Prsm.Emission
