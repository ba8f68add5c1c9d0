import Prsm.Emission.Operations
import Prsm.Foundations.Machine

/-!
# `CompensationDistributor`: storage and functions

The distributor mints what the controller allows and splits its whole balance over three
pools.  The weights of the split change on notice: `updateWeights` stores a schedule in
the one slot there is, and the next `pullAndDistribute` after its time puts it in force.

The token and the controller are passed through as values: `pullAndDistribute` is guarded
against re-entry, and neither of the two calls back.
-/

namespace Prsm.Compensation

open Foundations Evm

structure PoolWeights where
  creatorPoolBps : Uint 16
  operatorPoolBps : Uint 16
  grantPoolBps : Uint 16
  deriving DecidableEq

structure State where
  ownable : Ownable2Step
  /-- `address(this)`. -/
  self : Address
  creatorPool : Address
  operatorPool : Address
  grantPool : Address
  currentWeights : PoolWeights
  scheduledWeights : PoolWeights
  scheduledAt : Nat
  hasScheduledWeights : Bool
  lastDistributionTimestamp : Nat

/-- Ninety days. -/
def minWeightScheduleDelay : Nat := 90 * 86400
def bpsDenominator : Nat := 10000

inductive Event
  | distributed (toCreator toOperator toGrant : Nat)
  | weightsScheduled (newWeights : PoolWeights) (effectiveTimestamp : Nat)
  | weightsActivated (newWeights : PoolWeights)
  | poolAddressesUpdated (creator operator grant : Address)

inductive Error
  | platform (e : PlatformError)
  | token (e : FtnsToken.Error)
  | controller (e : Emission.Error)
  | invalidAddress
  | invalidWeights
  | scheduleTooSoon (scheduledAt minAllowed : Nat)

/-- What one transaction sees of the world outside the contracts' storage. -/
structure Env where
  block : Block
  sender : Address

def Env.timestamp (env : Env) : Nat := env.block.timestamp

abbrev Outcome := Except Error (State × Emission.State × FtnsToken.State × List Event)

def panic : Error := .platform .panicArithmetic

def State.onlyOwner (s : State) (env : Env) : Except Error Unit :=
  raise .platform (s.ownable.onlyOwner env.sender)

def validateWeights (w : PoolWeights) : Except Error Unit :=
  require (w.creatorPoolBps.val + w.operatorPoolBps.val + w.grantPoolBps.val = bpsDenominator)
    .invalidWeights

def State.initial (self : Address) (ownable : Ownable2Step)
    (creatorPool operatorPool grantPool : Address) (initialWeights : PoolWeights) : State where
  ownable := ownable
  self := self
  creatorPool := creatorPool
  operatorPool := operatorPool
  grantPool := grantPool
  currentWeights := initialWeights
  scheduledWeights := ⟨0, 0, 0⟩
  scheduledAt := 0
  hasScheduledWeights := false
  lastDistributionTimestamp := 0

def construct (self ftnsToken emissionController creatorPool operatorPool grantPool : Address)
    (initialWeights : PoolWeights) (initialOwner : Address) : Except Error State := do
  let ownable ← raise .platform (Ownable2Step.construct initialOwner)
  require (¬ (ftnsToken = 0 ∨ emissionController = 0 ∨ creatorPool = 0 ∨ operatorPool = 0 ∨
    grantPool = 0)) .invalidAddress
  validateWeights initialWeights
  pure (State.initial self ownable creatorPool operatorPool grantPool initialWeights)

/-! ## Distribution -/

/-- `_applyScheduledWeightsIfActive`.  The superseded weights stay in the slot; the flag
says that they no longer count. -/
def applyScheduledWeightsIfActive (s : State) (timestamp : Nat) : State :=
  if s.hasScheduledWeights = true ∧ s.scheduledAt ≤ timestamp then
    { s with
      currentWeights := s.scheduledWeights
      hasScheduledWeights := false
      scheduledAt := 0 }
  else s

/-- `_tryPull`: mint what has accrued, up to what is left of the cap.  It asks for
nothing while the controller is paused. -/
def tryPull (env : Env) (s : State) (c : Emission.State) (t : FtnsToken.State) :
    Except Error (Emission.State × FtnsToken.State) := do
  if c.paused ∨ c.currentEpochRate env.timestamp = 0 ∨ env.timestamp ≤ c.lastMintTimestamp then
    pure (c, t)
  else
    -- The same allowance as the controller computes for itself.
    let accrued ← checkedMul 256 panic (c.currentEpochRate env.timestamp)
      (env.timestamp - c.lastMintTimestamp)
    let remaining ← checkedSub panic c.mintCap c.mintedToDate
    let toMint := min accrued remaining
    if toMint = 0 then
      pure (c, t)
    else
      let (c', t', _) ← raise .controller
        (Emission.mintAuthorized { block := env.block, sender := s.self } c t toMint)
      pure (c', t')

/-- A transfer of a share, skipped when the share is nothing.  The token never answers
`false`, so the source's `TransferFailed` cannot occur. -/
def sendShare (s : State) (t : FtnsToken.State) (pool : Address) (amount : Nat) :
    Except Error FtnsToken.State :=
  if 0 < amount then raise .token (FtnsToken.transfer s.self t pool amount) else pure t

/-- `_distribute`: split the whole balance, with the rounding left to the grant pool. -/
def distribute (env : Env) (s : State) (t : FtnsToken.State) :
    Except Error (State × FtnsToken.State × List Event) := do
  let available := t.ledger.balanceOf s.self
  if available = 0 then
    pure (s, t, [])
  else
    let creatorProduct ← checkedMul 256 panic available s.currentWeights.creatorPoolBps
    let operatorProduct ← checkedMul 256 panic available s.currentWeights.operatorPoolBps
    let toCreator := creatorProduct / bpsDenominator
    let toOperator := operatorProduct / bpsDenominator
    let rest ← checkedSub panic available toCreator
    let toGrant ← checkedSub panic rest toOperator
    let t₁ ← sendShare s t s.creatorPool toCreator
    let t₂ ← sendShare s t₁ s.operatorPool toOperator
    let t₃ ← sendShare s t₂ s.grantPool toGrant
    pure ({ s with lastDistributionTimestamp := uint64 env.timestamp },
      t₃, [.distributed toCreator toOperator toGrant])

/-- The event of an activation, if there is one. -/
def activationEvents (s : State) (timestamp : Nat) : List Event :=
  if s.hasScheduledWeights = true ∧ s.scheduledAt ≤ timestamp then
    [.weightsActivated s.scheduledWeights]
  else []

def pullAndDistribute (env : Env) (s : State) (c : Emission.State) (t : FtnsToken.State) :
    Outcome := do
  let active := applyScheduledWeightsIfActive s env.timestamp
  -- A pull that mints nothing does not stop the distribution.
  let (c', t₁) ← tryPull env active c t
  let (s', t₂, events) ← distribute env active t₁
  pure (s', c', t₂, activationEvents s env.timestamp ++ events)

def updateWeights (env : Env) (s : State) (c : Emission.State) (t : FtnsToken.State)
    (newWeights : PoolWeights) (scheduledAtTs : Uint 64) : Outcome := do
  s.onlyOwner env
  validateWeights newWeights
  let minAllowed ← checkedAdd 256 panic env.timestamp minWeightScheduleDelay
  require (minAllowed ≤ scheduledAtTs.val) (.scheduleTooSoon scheduledAtTs minAllowed)
  -- Whatever schedule is in the slot is overwritten.
  pure ({ s with
      scheduledWeights := newWeights
      scheduledAt := scheduledAtTs
      hasScheduledWeights := true },
    c, t, [.weightsScheduled newWeights scheduledAtTs])

def setPoolAddresses (env : Env) (s : State) (c : Emission.State) (t : FtnsToken.State)
    (creator operator grant : Address) : Outcome := do
  s.onlyOwner env
  require (¬ (creator = 0 ∨ operator = 0 ∨ grant = 0)) .invalidAddress
  pure ({ s with creatorPool := creator, operatorPool := operator, grantPool := grant },
    c, t, [.poolAddressesUpdated creator operator grant])

inductive Call
  | pullAndDistribute
  | updateWeights (newWeights : PoolWeights) (scheduledAtTs : Uint 64)
  | setPoolAddresses (creator operator grant : Address)
  | ownership (call : Ownable2Step.Call)

def call (env : Env) (s : State) (c : Emission.State) (t : FtnsToken.State) : Call → Outcome
  | .pullAndDistribute => pullAndDistribute env s c t
  | .updateWeights newWeights scheduledAtTs => updateWeights env s c t newWeights scheduledAtTs
  | .setPoolAddresses creator operator grant => setPoolAddresses env s c t creator operator grant
  | .ownership ownershipCall => do
      let ownable ← raise .platform (s.ownable.call env.sender ownershipCall)
      pure ({ s with ownable := ownable }, c, t, [])

end Prsm.Compensation

/-!
# Scheduled weights and the one slot they wait in

A schedule of weights takes effect at its time unless a later one replaced it before
that time.  `mostRecentMatured` is that rule, over the list of all announcements.

The contract keeps only the latest announcement and puts it in force when a distribution
next runs.  An announcement that comes after the time of the stored one, but before a
distribution has run, overwrites a schedule that had already matured, and the weights
before it stay in force.  `KeepsMatured` says that this does not happen, and
`weights_honoured_iff` that it is the only way in which the rule fails.
-/

namespace Prsm.Compensation

open Foundations Evm

/-! ## The rule -/

/-- One accepted call of `updateWeights`. -/
structure Announcement where
  announcedAt : Nat
  weights : PoolWeights
  effectiveAt : Nat

/-- The schedule had its time at or before `t`, and none of the later announcements was
made before that time. -/
def Announcement.Matured (a : Announcement) (later : List Announcement) (t : Nat) : Prop :=
  a.effectiveAt ≤ t ∧ ∀ b ∈ later, a.effectiveAt ≤ b.announcedAt

instance (a : Announcement) (later : List Announcement) (t : Nat) :
    Decidable (a.Matured later t) :=
  inferInstanceAs (Decidable (_ ∧ _))

/-- The first matured schedule of a list that has the newest announcement at its head.
The announcements in `later` are newer than all of the list. -/
def mostRecentMatured (later : List Announcement) (t : Nat) :
    List Announcement → Option Announcement
  | [] => none
  | a :: older => if a.Matured later t then some a else mostRecentMatured (a :: later) t older

/-- The weights that should be used at time `t`. -/
def dueWeights (initial : PoolWeights) (history : List Announcement) (t : Nat) : PoolWeights :=
  match mostRecentMatured [] t history with
  | some a => a.weights
  | none => initial

theorem matured_announced {a b : Announcement} {later : List Announcement} {t : Nat}
    (hLater : b.announcedAt ≤ t) :
    a.Matured (later ++ [b]) t ↔ a.Matured later b.announcedAt := by
  simp only [Announcement.Matured, List.mem_append, List.mem_singleton]
  constructor
  · rintro ⟨-, hAll⟩
    exact ⟨hAll b (.inr rfl), fun x hx => hAll x (.inl hx)⟩
  · rintro ⟨hTime, hAll⟩
    refine ⟨hTime.trans hLater, ?_⟩
    rintro x (hx | rfl)
    · exact hAll x hx
    · exact hTime

theorem mostRecentMatured_announced {b : Announcement} {t : Nat} (hLater : b.announcedAt ≤ t)
    (history later : List Announcement) :
    mostRecentMatured (later ++ [b]) t history =
      mostRecentMatured later b.announcedAt history := by
  induction history generalizing later with
  | nil => rfl
  | cons a older ih =>
      simp only [mostRecentMatured, matured_announced hLater]
      split
      · rfl
      · exact ih (a :: later)

variable {initial : PoolWeights} {w w' : World}

theorem dueWeights_cons {a : Announcement} {history : List Announcement}
    {t : Nat} (hLater : a.announcedAt ≤ t) :
    dueWeights initial (a :: history) t =
      if a.effectiveAt ≤ t then a.weights else dueWeights initial history a.announcedAt := by
  have hNewest : a.Matured [] t ↔ a.effectiveAt ≤ t := by simp [Announcement.Matured]
  by_cases hTime : a.effectiveAt ≤ t
  · have hFirst : mostRecentMatured [] t (a :: history) = some a := if_pos (hNewest.mpr hTime)
    rw [dueWeights, hFirst, if_pos hTime]
  · have hRest : mostRecentMatured [] t (a :: history) = mostRecentMatured [a] t history :=
      if_neg fun hMatured => hTime (hNewest.mp hMatured)
    have hOlder := mostRecentMatured_announced hLater history []
    rw [List.nil_append] at hOlder
    rw [dueWeights, hRest, hOlder, if_neg hTime, dueWeights]

structure World where
  /-- The time of the latest block. -/
  now : Nat
  distributor : State
  controller : Emission.State
  token : FtnsToken.State
  /-- The accepted announcements, the newest first. -/
  history : List Announcement

/-- A call of one of the three contracts by anyone. -/
inductive Input
  | distributor (env : Env) (call : Call)
  | controller (env : Emission.Env) (call : Emission.Call)
  | token (sender : Address) (call : FtnsToken.Call)

/-- The history after a call of the distributor. -/
def recordCall (env : Env) (history : List Announcement) : Call → List Announcement
  | .updateWeights newWeights scheduledAtTs =>
      ⟨env.timestamp, newWeights, scheduledAtTs⟩ :: history
  | _ => history

/-- One transaction.  Time does not run backwards. -/
def step (w : World) : Input → Option World
  | .distributor env c =>
      if env.timestamp < w.now then none
      else
        match call env w.distributor w.controller w.token c with
        | .ok (s, controller, t, _) =>
            some ⟨env.timestamp, s, controller, t, recordCall env w.history c⟩
        | .error _ => none
  | .controller env c =>
      if env.timestamp < w.now then none
      else
        match Emission.call env w.controller w.token c with
        | .ok (controller, t, _) =>
            some { w with now := env.timestamp, controller := controller, token := t }
        | .error _ => none
  | .token sender c =>
      match FtnsToken.call sender w.token c with
      | .ok t => some { w with token := t }
      | .error _ => none

def machine : Machine World Input where
  step := step

/-- A deployed distributor with the controller it pulls from and their token. -/
structure Deployment where
  self : Address
  ftnsToken : Address
  emissionController : Address
  creatorPool : Address
  operatorPool : Address
  grantPool : Address
  initialWeights : PoolWeights
  initialOwner : Address
  state : State
  constructed : construct self ftnsToken emissionController creatorPool operatorPool grantPool
    initialWeights initialOwner = .ok state
  block : Block
  controller : Emission.State
  token : FtnsToken.State

def Deployment.world (d : Deployment) : World :=
  ⟨d.block.timestamp, d.state, d.controller, d.token, []⟩

/-- The weights that a distribution at time `t` splits by, as
`pullAndDistribute_weights` shows. -/
def State.weightsAt (s : State) (t : Nat) : PoolWeights :=
  (applyScheduledWeightsIfActive s t).currentWeights

/-- The weights are those of the constructor, or were announced the full delay before. -/
def Noticed (initial : PoolWeights) (history : List Announcement) (w : PoolWeights) (t : Nat) :
    Prop :=
  w = initial ∨ ∃ a ∈ history, a.weights = w ∧ a.announcedAt + minWeightScheduleDelay ≤ t

/-- A distribution at any time from now on uses the weights that are due then, and these
were announced in time. -/
def WeightsHonoured (initial : PoolWeights) (w : World) : Prop :=
  ∀ t, w.now ≤ t → w.distributor.weightsAt t = dueWeights initial w.history t ∧
    Noticed initial w.history (w.distributor.weightsAt t) t

/-- An announcement finds no schedule in the slot whose time has come and whose weights
are not yet in force. -/
def KeepsMatured (w : World) (i : Input) : Prop :=
  ∀ env newWeights scheduledAtTs, i = .distributor env (.updateWeights newWeights scheduledAtTs) →
    w.distributor.hasScheduledWeights = true → w.distributor.scheduledAt ≤ env.timestamp →
      w.distributor.scheduledWeights = w.distributor.currentWeights

/-! ## What a call does to the weights -/

variable {env : Env} {s s' : State} {controller controller' : Emission.State}
  {t t' : FtnsToken.State} {events : List Event}

theorem weightsAt_eq (s : State) (time : Nat) :
    s.weightsAt time =
      if s.hasScheduledWeights = true ∧ s.scheduledAt ≤ time then s.scheduledWeights
      else s.currentWeights := by
  unfold State.weightsAt applyScheduledWeightsIfActive
  split_ifs <;> rfl

theorem weightsAt_applyScheduledWeightsIfActive (s : State) {u time : Nat} (h : u ≤ time) :
    (applyScheduledWeightsIfActive s u).weightsAt time = s.weightsAt time := by
  rw [weightsAt_eq, weightsAt_eq]
  unfold applyScheduledWeightsIfActive
  by_cases hActive : s.hasScheduledWeights = true ∧ s.scheduledAt ≤ u
  · have hLater : s.hasScheduledWeights = true ∧ s.scheduledAt ≤ time :=
      ⟨hActive.1, hActive.2.trans h⟩
    rw [if_pos hActive, if_pos hLater]
    exact if_neg fun hAgain => Bool.noConfusion hAgain.1
  · rw [if_neg hActive]

theorem distribute_eq_ok (h : distribute env s t = .ok (s', t', events)) :
    (s' = s ∧ events = [] ∧ t.ledger.balanceOf s.self = 0) ∨
      ∃ toCreator toOperator toGrant,
        s' = { s with lastDistributionTimestamp := uint64 env.timestamp } ∧
        events = [.distributed toCreator toOperator toGrant] ∧
        toCreator = t.ledger.balanceOf s.self * s.currentWeights.creatorPoolBps / bpsDenominator ∧
        toOperator =
          t.ledger.balanceOf s.self * s.currentWeights.operatorPoolBps / bpsDenominator ∧
        toCreator + toOperator + toGrant = t.ledger.balanceOf s.self := by
  simp only [distribute] at h
  split at h
  case isTrue hNone =>
    simp only [pure_eq_ok_iff, Prod.mk.injEq] at h
    obtain ⟨rfl, rfl, rfl⟩ := h
    exact .inl ⟨rfl, rfl, hNone⟩
  case isFalse =>
    simp only [bind_eq_ok_iff, checkedMul_eq_ok_iff, checkedSub_eq_ok_iff, pure_eq_ok_iff,
      Prod.mk.injEq] at h
    obtain ⟨_, ⟨-, rfl⟩, _, ⟨-, rfl⟩, _, ⟨hCreator, rfl⟩, _, ⟨hOperator, rfl⟩, _, -, _, -, _, -,
      rfl, rfl, rfl⟩ := h
    exact .inr ⟨_, _, _, rfl, rfl, rfl, rfl, by omega⟩

theorem pullAndDistribute_weights
    (h : pullAndDistribute env s controller t = .ok (s', controller', t', events)) :
    s'.currentWeights = s.weightsAt env.timestamp ∧
      ∀ time, env.timestamp ≤ time → s'.weightsAt time = s.weightsAt time := by
  simp only [pullAndDistribute, bind_eq_ok_iff, pure_eq_ok_iff, Prod.mk.injEq] at h
  obtain ⟨⟨c₁, t₁⟩, -, ⟨s₁, t₂, events₁⟩, hDistribute, rfl, rfl, rfl, rfl⟩ := h
  rcases distribute_eq_ok hDistribute with ⟨rfl, -, -⟩ | ⟨_, _, _, rfl, -⟩
  · exact ⟨rfl, fun time hTime => weightsAt_applyScheduledWeightsIfActive s hTime⟩
  · refine ⟨rfl, fun time hTime => ?_⟩
    -- The time of the distribution has no part in the weights.
    have hSame := weightsAt_applyScheduledWeightsIfActive s hTime
    rw [weightsAt_eq] at hSame ⊢
    exact hSame

/-- What a call does to the weights: an announcement fills the slot, and any other call
leaves the weights of all later times. -/
inductive WeightMove (env : Env) (s s' : State) : Call → Prop
  | announced {newWeights : PoolWeights} {scheduledAtTs : Uint 64}
      (hNotice : env.timestamp + minWeightScheduleDelay ≤ scheduledAtTs)
      (hWeights : ∀ time, s'.weightsAt time =
        if scheduledAtTs.val ≤ time then newWeights else s.currentWeights) :
      WeightMove env s s' (.updateWeights newWeights scheduledAtTs)
  | kept {c : Call} (hHistory : ∀ history, recordCall env history c = history)
      (hWeights : ∀ time, env.timestamp ≤ time → s'.weightsAt time = s.weightsAt time) :
      WeightMove env s s' c

theorem call_weightMove {c : Call}
    (h : call env s controller t c = .ok (s', controller', t', events)) :
    WeightMove env s s' c := by
  cases c with
  | pullAndDistribute => exact .kept (fun _ => rfl) (pullAndDistribute_weights h).2
  | updateWeights newWeights scheduledAtTs =>
      simp only [call, updateWeights, bind_eq_ok_iff, checkedAdd_eq_ok_iff, require_eq_ok_iff,
        pure_eq_ok_iff, Prod.mk.injEq] at h
      obtain ⟨-, -, -, -, minAllowed, ⟨-, rfl⟩, -, hNotice, rfl, -, -, -⟩ := h
      refine .announced hNotice fun time => ?_
      rw [weightsAt_eq]
      simp only [true_and]
  | setPoolAddresses creator operator grant =>
      simp only [call, setPoolAddresses, bind_eq_ok_iff, pure_eq_ok_iff, Prod.mk.injEq] at h
      obtain ⟨-, -, -, -, rfl, -, -, -⟩ := h
      refine .kept (fun _ => rfl) fun time _ => ?_
      rw [weightsAt_eq, weightsAt_eq]
  | ownership ownershipCall =>
      simp only [call, bind_eq_ok_iff, pure_eq_ok_iff, Prod.mk.injEq] at h
      obtain ⟨ownable, -, rfl, -, -, -⟩ := h
      refine .kept (fun _ => rfl) fun time _ => ?_
      rw [weightsAt_eq, weightsAt_eq]

/-! ## When the rule is kept -/

theorem step_cases {i : Input} (h : machine.step w i = some w') :
    w.now ≤ w'.now ∧
      ((∃ env c, i = .distributor env c ∧ w'.now = env.timestamp ∧
          w'.history = recordCall env w.history c ∧
          WeightMove env w.distributor w'.distributor c) ∨
        (∀ env c, i ≠ .distributor env c) ∧ w'.distributor = w.distributor ∧
          w'.history = w.history) := by
  cases i with
  | distributor env c =>
      simp only [machine, step] at h
      split at h
      case isTrue => cases h
      case isFalse hTime =>
        split at h
        case h_1 s' controller' t' events hCall =>
          cases h
          exact ⟨Nat.le_of_not_lt hTime, .inl ⟨env, c, rfl, rfl, rfl, call_weightMove hCall⟩⟩
        case h_2 => cases h
  | controller env c =>
      simp only [machine, step] at h
      split at h
      case isTrue => cases h
      case isFalse hTime =>
        split at h
        case h_1 =>
          cases h
          exact ⟨Nat.le_of_not_lt hTime, .inr ⟨by simp, rfl, rfl⟩⟩
        case h_2 => cases h
  | token sender c =>
      simp only [machine, step] at h
      split at h
      case h_1 =>
        cases h
        exact ⟨le_refl _, .inr ⟨by simp, rfl, rfl⟩⟩
      case h_2 => cases h

theorem announced_honoured_iff {newWeights : PoolWeights}
    {scheduledAtTs : Uint 64} (hw : WeightsHonoured initial w) (hTime : w.now ≤ env.timestamp)
    (hNow : w'.now = env.timestamp)
    (hHistory : w'.history = ⟨env.timestamp, newWeights, scheduledAtTs⟩ :: w.history)
    (hNotice : env.timestamp + minWeightScheduleDelay ≤ scheduledAtTs)
    (hWeights : ∀ time, w'.distributor.weightsAt time =
      if scheduledAtTs.val ≤ time then newWeights else w.distributor.currentWeights) :
    WeightsHonoured initial w' ↔
      w.distributor.currentWeights = w.distributor.weightsAt env.timestamp := by
  have hDelay : env.timestamp < scheduledAtTs := by
    have hPositive : 0 < minWeightScheduleDelay := by decide
    omega
  constructor
  · intro hHonoured
    -- Until the new schedule has its time, the weights due are those due before it.
    obtain ⟨hDue, -⟩ := hHonoured env.timestamp hNow.le
    rw [hWeights, hHistory, dueWeights_cons (le_refl _), if_neg hDelay.not_ge,
      if_neg hDelay.not_ge] at hDue
    rw [hDue, (hw env.timestamp hTime).1]
  · intro hCurrent time hLater
    rw [hNow] at hLater
    rw [hWeights, hHistory, dueWeights_cons hLater]
    by_cases hEffective : scheduledAtTs.val ≤ time
    · rw [if_pos hEffective, if_pos hEffective]
      refine ⟨rfl, .inr ⟨_, List.mem_cons_self, rfl, ?_⟩⟩
      exact hNotice.trans hEffective
    · rw [if_neg hEffective, if_neg hEffective, hCurrent]
      obtain ⟨hDue, hNoticed⟩ := hw env.timestamp hTime
      refine ⟨hDue, ?_⟩
      rcases hNoticed with hInitial | ⟨a, hMem, hSame, hBefore⟩
      · exact .inl hInitial
      · exact .inr ⟨a, List.mem_cons_of_mem _ hMem, hSame, hBefore.trans hLater⟩

theorem WeightsHonoured.step_iff {i : Input}
    (hw : WeightsHonoured initial w) (h : machine.step w i = some w') :
    WeightsHonoured initial w' ↔ KeepsMatured w i := by
  obtain ⟨hLe, hCases⟩ := step_cases h
  rcases hCases with ⟨env, c, rfl, hNow, hHistory, hMove⟩ | ⟨hOther, hSame, hHistory⟩
  · cases hMove with
    | @announced newWeights scheduledAtTs hNotice hWeights =>
        rw [hNow] at hLe
        rw [announced_honoured_iff hw hLe hNow hHistory hNotice hWeights, weightsAt_eq]
        constructor
        · intro hCurrent env' newWeights' scheduledAtTs' hInput hHas hAt
          cases hInput
          rw [if_pos ⟨hHas, hAt⟩] at hCurrent
          exact hCurrent.symm
        · intro hKeeps
          split
          case isTrue hActive =>
            exact (hKeeps env newWeights scheduledAtTs rfl hActive.1 hActive.2).symm
          case isFalse => rfl
    | kept hKept hWeights =>
        rw [hKept] at hHistory
        constructor
        · intro _ env' newWeights scheduledAtTs hInput _ _
          cases hInput
          exact absurd (congrArg List.length (hKept [])) (by simp [recordCall])
        · intro _ time hLater
          have hBefore : w.now ≤ time := hLe.trans hLater
          rw [hNow] at hLater
          rw [hWeights time hLater, hHistory]
          exact hw time hBefore
  · constructor
    · intro _ env newWeights scheduledAtTs hInput _ _
      exact absurd hInput (hOther env _)
    · intro _ time hLater
      rw [hSame, hHistory]
      exact hw time (hLe.trans hLater)

theorem Deployment.honoured (d : Deployment) : WeightsHonoured d.initialWeights d.world := by
  have hConstructed := d.constructed
  simp only [construct, bind_eq_ok_iff, pure_eq_ok_iff] at hConstructed
  obtain ⟨ownable, -, -, -, -, -, hState⟩ := hConstructed
  intro time _
  have hWeights : d.world.distributor.weightsAt time = d.initialWeights := by
    show d.state.weightsAt time = d.initialWeights
    rw [← hState, weightsAt_eq]
    exact if_neg fun hActive => Bool.noConfusion hActive.1
  exact ⟨hWeights, .inl hWeights⟩

/-- A distributor at address 50 that holds tokens, with a paused controller.  Account 1
owns it, and at first everything goes to the grant pool, address 30. -/
def smallDeployment : Deployment where
  self := 50
  ftnsToken := 60
  emissionController := 70
  creatorPool := 10
  operatorPool := 20
  grantPool := 30
  initialWeights := ⟨0, 0, 10000⟩
  initialOwner := 1
  state := State.initial 50 ⟨1, 0⟩ 10 20 30 ⟨0, 0, 10000⟩
  constructed := by rfl
  block := smallBlock 1000
  controller := { Emission.State.initial 70 ⟨1, 0⟩ 1000 8 100000 3600 with paused := true }
  token :=
    { ledger := { balanceOf := Pi.single 50 500, allowance := fun _ _ => 0 }
      totalSupply := 500
      hasRole := fun _ _ => false
      paused := false }

def smallEnv (timestamp : Nat) (sender : Address) : Env where
  block := smallBlock timestamp
  sender := sender

/-- The owner announces that everything will go to the creator pool and, when the ninety
days are over, announces something else. -/
def overwritingRun : List Input :=
  [.distributor (smallEnv 1000 1) (.updateWeights ⟨10000, 0, 0⟩ 7777000),
    .distributor (smallEnv 7777000 1) (.updateWeights ⟨0, 10000, 0⟩ 15553000)]

end Prsm.Compensation
