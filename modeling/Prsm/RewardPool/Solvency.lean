import Prsm.Foundations.Machine
import Prsm.RewardPool.Operations

/-!
# When the reward pool is solvent

`totalReserved` is meant to be the sum of what the published epochs still owe.
A claim takes its amount off both, and so does a reclaim with the remainder of
the epoch, which owes nothing from then on.  But `claim` does not ask whether
the epoch was reclaimed, and a claim on a reclaimed epoch takes its amount off
the counter once more.  The difference is missing from the other epochs.

`pool_solvent_iff` says that these claims are the only defect: a run keeps the
pool solvent exactly when each of its claims is on an epoch that was not
reclaimed.
-/

namespace Prsm.RewardPool

open Foundations Evm

/-- What a published epoch still owes. -/
def Epoch.outstanding (e : Epoch) : Nat :=
  if e.publishedAt ≠ 0 ∧ e.reclaimed = false then e.totalAmount - e.claimedAmount else 0

variable {e : Epoch} {c : Call}

theorem Epoch.outstanding_of_open (hPublished : e.publishedAt ≠ 0)
    (hOpen : e.reclaimed = false) : e.outstanding = e.totalAmount - e.claimedAmount :=
  if_pos ⟨hPublished, hOpen⟩

theorem Epoch.outstanding_of_unpublished (hUnpublished : e.publishedAt = 0) :
    e.outstanding = 0 :=
  if_neg fun hOwes => hOwes.1 hUnpublished

theorem Epoch.outstanding_of_reclaimed (hReclaimed : e.reclaimed = true) :
    e.outstanding = 0 :=
  if_neg fun hOwes => Bool.false_ne_true (hOwes.2.symm.trans hReclaimed)

/-- What all epochs together still owe. -/
def State.liabilities (s : State) : Nat :=
  ∑ epochId, (s.epochs epochId).outstanding

theorem liabilities_setEpoch (s : State) (epochId : Uint 256) (e : Epoch) :
    (s.setEpoch epochId e).liabilities + (s.epochs epochId).outstanding =
      s.liabilities + e.outstanding :=
  sum_update_entry (fun _ e => Epoch.outstanding e) s.epochs epochId e

theorem outstanding_le_liabilities (s : State) (epochId : Uint 256) :
    (s.epochs epochId).outstanding ≤ s.liabilities :=
  le_sum_mapping (fun epochId => (s.epochs epochId).outstanding) epochId

structure World where
  now : Nat
  pool : State
  token : Token

/-- A call of the pool, or of the token by some other account. -/
inductive Input
  | pool (env : Env) (call : Call)
  | token (env : Env) (call : Token.Call)

/-- One transaction.  The pool's own address sends none. -/
def step (keccak256 : Keccak) (w : World) : Input → Option World
  | .pool env c =>
      if w.now ≤ env.timestamp then
        match call keccak256 env w.pool w.token c with
        | .ok (s, t, _) => some ⟨env.timestamp, s, t⟩
        | .error _ => none
      else none
  | .token env c =>
      if w.now ≤ env.timestamp ∧ env.sender ≠ w.pool.self then
        match w.token.call env.sender c with
        | .ok t => some ⟨env.timestamp, w.pool, t⟩
        | .error _ => none
      else none

def machine (keccak256 : Keccak) : Machine World Input where
  step := step keccak256

/-- A deployed pool with the token it pays.  Its address is new, so nobody has an
allowance from it. -/
structure Deployment where
  block : Block
  self : Address
  ftns : Address
  initialOwner : Address
  rootPublisher : Address
  state : State
  constructed : construct self ftns initialOwner rootPublisher = .ok state
  token : Token
  unspendable : token.Unspendable self

def Deployment.world (d : Deployment) : World := ⟨d.block.timestamp, d.state, d.token⟩

/-- A claim that the contract should honour: a valid proof, not used before, on a
published epoch that was not reclaimed. -/
structure ValidClaim (keccak256 : Keccak) (s : State) (epochId : Uint 256) (account : Address)
    (amount : Uint 256) (proof : List Bytes32) : Prop where
  published : (s.epochs epochId).publishedAt ≠ 0
  not_reclaimed : (s.epochs epochId).reclaimed = false
  unused : s.hasClaimed epochId account = false
  proven : MerkleProof.verify keccak256 proof (s.epochs epochId).merkleRoot
    (leafHash keccak256 epochId account amount) = true

/-- The pool is solvent. -/
structure Solvent (keccak256 : Keccak) (w : World) : Prop where
  /-- The counter is the sum of what the epochs owe. -/
  reserved_eq : w.pool.totalReserved = w.pool.liabilities
  /-- The balance covers it. -/
  covered : w.pool.totalReserved ≤ w.token.balanceOf w.pool.self
  /-- No valid claim fails for lack of funds or in arithmetic. -/
  honoured : ∀ env epochId account amount proof,
    ValidClaim keccak256 w.pool epochId account amount proof →
      claim keccak256 env w.pool w.token epochId account amount proof ≠ .error panic ∧
        claim keccak256 env w.pool w.token epochId account amount proof ≠
          .error (.token .insufficientBalance)
  /-- A call about one epoch leaves what is owed for the others. -/
  isolated : ∀ env c s' t' events, call keccak256 env w.pool w.token c = .ok (s', t', events) →
    ∀ epochId, c.epoch? ≠ some epochId →
      (s'.epochs epochId).outstanding = (w.pool.epochs epochId).outstanding

/-- A claim is on an epoch that was not reclaimed. -/
def ClaimsUnreclaimed (w : World) (i : Input) : Prop :=
  ∀ env epochId account amount proof, i = .pool env (.claim epochId account amount proof) →
    (w.pool.epochs epochId).reclaimed = false

variable {keccak256 : Keccak} {env : Env} {s s' : State} {t t' : Token} {events : List Event}
  {w w' : World} {i : Input}

/-- The changes a successful call makes to the epochs, the counter and the
token. -/
inductive PoolMove (keccak256 : Keccak) (s : State) (t : Token) : Call → State → Token → Prop
  | publish {epochId : Uint 256} {merkleRoot : Bytes32} {totalAmount : Uint 256} {publishedAt : Nat}
      (hTime : publishedAt ≠ 0)
      (hUnpublished : (s.epochs epochId).publishedAt = 0)
      (hBacked : s.totalReserved + totalAmount ≤ t.balanceOf s.self) :
      PoolMove keccak256 s t (.publishEpoch epochId merkleRoot totalAmount)
        { s.setEpoch epochId ⟨merkleRoot, totalAmount, 0, publishedAt, false⟩ with
          totalReserved := s.totalReserved + totalAmount } t
  | claim {epochId : Uint 256} {account : Address} {amount : Uint 256} {proof : List Bytes32}
      {declines : Bool} {t' : Token}
      (hPublished : (s.epochs epochId).publishedAt ≠ 0)
      (hPositive : 0 < amount.val)
      (hRemaining : (s.epochs epochId).claimedAmount + amount ≤ (s.epochs epochId).totalAmount)
      (hReserved : amount ≤ s.totalReserved)
      (hToken : t.transfer declines s.self account amount = .ok (true, t')) :
      PoolMove keccak256 s t (.claim epochId account amount proof)
        (s.recordClaim epochId account ((s.epochs epochId).claimedAmount + amount)
          (s.totalReserved - amount)) t'
  | reclaim {epochId : Uint 256}
      (hPublished : (s.epochs epochId).publishedAt ≠ 0)
      (hUnreclaimed : (s.epochs epochId).reclaimed = false)
      (hReserved : (s.epochs epochId).totalAmount - (s.epochs epochId).claimedAmount ≤
        s.totalReserved) :
      PoolMove keccak256 s t (.reclaimUnclaimed epochId)
        { s.setEpoch epochId { s.epochs epochId with reclaimed := true } with
          totalReserved := s.totalReserved -
            ((s.epochs epochId).totalAmount - (s.epochs epochId).claimedAmount) } t
  | sweep {recipient : Address} {amount : Uint 256} {declines : Bool} {t' : Token}
      (hSurplus : s.totalReserved + amount ≤ t.balanceOf s.self)
      (hToken : t.transfer declines s.self recipient amount = .ok (true, t')) :
      PoolMove keccak256 s t (.sweepSurplus recipient amount) s t'
  | configure {c : Call} {ownable : Ownable2Step} {rootPublisher : Address} {paused : Bool}
      (hCall : c.epoch? = none) :
      PoolMove keccak256 s t c
        { s with ownable := ownable, rootPublisher := rootPublisher, paused := paused } t

theorem pay_eq_ok {recipient : Address} {amount : Nat}
    (h : pay env s t recipient amount = .ok t') :
    t.transfer env.tokenDeclines s.self recipient amount = .ok (true, t') :=
  raise_eq_ok_iff.mp (flagged_eq_ok_iff.mp h)

theorem uint64_timestamp_ne_zero (env : Env) : uint64 env.timestamp ≠ 0 := by
  have hPos := env.block.timestamp_pos
  have hLt := env.block.timestamp_lt
  have hSame : uint64 env.timestamp = env.timestamp :=
    uint64_of_lt (by simp only [Env.timestamp]; omega)
  rw [hSame]
  simp only [Env.timestamp]
  omega

theorem release_eq_ok {remaining reserved : Nat} (h : s.release remaining = .ok reserved) :
    remaining ≤ s.totalReserved ∧ reserved = s.totalReserved - remaining := by
  unfold State.release at h
  split at h
  · simpa using h
  · simp only [pure_eq_ok_iff] at h
    omega

theorem call_poolMove (h : call keccak256 env s t c = .ok (s', t', events)) :
    PoolMove keccak256 s t c s' t' := by
  cases c with
  | publishEpoch epochId merkleRoot totalAmount =>
      simp only [call, publishEpoch, bind_eq_ok_iff, require_eq_ok_iff, checkedAdd_eq_ok_iff,
        pure_eq_ok_iff, Prod.mk.injEq] at h
      obtain ⟨-, -, -, -, -, hUnpublished, -, -, -, -, -, ⟨-, rfl⟩, -, hBacked, rfl, rfl, rfl⟩ := h
      exact .publish (uint64_timestamp_ne_zero env) hUnpublished hBacked
  | claim epochId account amount proof =>
      simp only [call, claim, bind_eq_ok_iff, require_eq_ok_iff, checkedAdd_eq_ok_iff,
        checkedSub_eq_ok_iff, pure_eq_ok_iff, Prod.mk.injEq] at h
      obtain ⟨-, -, -, hPublished, -, -, -, hNonzero, -, -, -, ⟨hClaimed, rfl⟩, -, hRemaining, -,
        ⟨-, rfl⟩, -, ⟨hReserved, rfl⟩, paid, hPay, rfl, rfl, rfl⟩ := h
      have hPositive : 0 < amount.val :=
        Nat.pos_of_ne_zero fun hZero => hNonzero (Fin.ext hZero)
      exact .claim hPublished hPositive (by omega) hReserved (pay_eq_ok hPay)
  | reclaimUnclaimed epochId =>
      simp only [call, reclaimUnclaimed, bind_eq_ok_iff, require_eq_ok_iff, checkedAdd_eq_ok_iff,
        checkedSub_eq_ok_iff, pure_eq_ok_iff, Prod.mk.injEq] at h
      obtain ⟨-, -, -, hPublished, -, hUnreclaimed, -, -, -, -, -, ⟨-, rfl⟩, reserved, hRelease,
        rfl, rfl, rfl⟩ := h
      obtain ⟨hReserved, rfl⟩ := release_eq_ok hRelease
      exact .reclaim hPublished hUnreclaimed hReserved
  | sweepSurplus recipient amount =>
      simp only [call, sweepSurplus, bind_eq_ok_iff, require_eq_ok_iff, pure_eq_ok_iff,
        Prod.mk.injEq] at h
      obtain ⟨-, -, -, -, -, ⟨hSome, hLe⟩, paid, hPay, rfl, rfl, rfl⟩ := h
      refine .sweep ?_ (pay_eq_ok hPay)
      -- A surplus is reported only above the counter.
      by_cases hAbove : s.totalReserved < t.balanceOf s.self
      · rw [surplus, if_pos hAbove] at hLe
        omega
      · rw [surplus, if_neg hAbove] at hSome
        exact absurd rfl hSome
  | setRootPublisher newPublisher =>
      simp only [call, setRootPublisher, bind_eq_ok_iff, pure_eq_ok_iff, Prod.mk.injEq] at h
      obtain ⟨-, -, -, -, rfl, rfl, rfl⟩ := h
      exact .configure rfl
  | setPaused p =>
      simp only [call, setPaused, bind_eq_ok_iff, pure_eq_ok_iff, Prod.mk.injEq] at h
      obtain ⟨-, -, rfl, rfl, rfl⟩ := h
      exact .configure rfl
  | ownership ownershipCall =>
      simp only [call, bind_eq_ok_iff, pure_eq_ok_iff, Prod.mk.injEq] at h
      obtain ⟨ownable, -, rfl, rfl, rfl⟩ := h
      exact .configure rfl

/-! ## What holds in every run -/

/-- The epoch records are consistent and nobody may spend from the pool. -/
structure WellFormed (w : World) : Prop where
  claimed_le : ∀ epochId,
    (w.pool.epochs epochId).claimedAmount ≤ (w.pool.epochs epochId).totalAmount
  total_lt : ∀ epochId, (w.pool.epochs epochId).totalAmount < 2 ^ 256
  unspendable : w.token.Unspendable w.pool.self

theorem transfer_keeps {declines : Bool} {recipient : Address} {amount : Nat}
    (h : t.transfer declines s.self recipient amount = .ok (true, t')) :
    t.balanceOf s.self ≤ t'.balanceOf s.self + amount ∧ t'.allowance = t.allowance := by
  obtain ⟨hBalance, rfl⟩ := Token.transfer_eq_true h
  exact ⟨Token.le_move_balanceOf_sender hBalance, rfl⟩

theorem PoolMove.self_eq (h : PoolMove keccak256 s t c s' t') :
    s'.self = s.self ∧ t'.allowance = t.allowance := by
  cases h with
  | publish => exact ⟨rfl, rfl⟩
  | claim hPublished hPositive hRemaining hReserved hToken =>
      exact ⟨rfl, (transfer_keeps hToken).2⟩
  | reclaim => exact ⟨rfl, rfl⟩
  | sweep hSurplus hToken => exact ⟨rfl, (transfer_keeps hToken).2⟩
  | configure => exact ⟨rfl, rfl⟩

theorem PoolMove.records (h : PoolMove keccak256 s t c s' t')
    (hClaimed : ∀ epochId, (s.epochs epochId).claimedAmount ≤ (s.epochs epochId).totalAmount)
    (hTotal : ∀ epochId, (s.epochs epochId).totalAmount < 2 ^ 256) (epochId : Uint 256) :
    (s'.epochs epochId).claimedAmount ≤ (s'.epochs epochId).totalAmount ∧
      (s'.epochs epochId).totalAmount < 2 ^ 256 := by
  have hKept : ∀ {other : Uint 256} {e : Epoch},
      e.claimedAmount ≤ e.totalAmount ∧ e.totalAmount < 2 ^ 256 →
        (Function.update s.epochs other e epochId).claimedAmount ≤
            (Function.update s.epochs other e epochId).totalAmount ∧
          (Function.update s.epochs other e epochId).totalAmount < 2 ^ 256 := by
    intro other e hNew
    by_cases hSame : epochId = other
    · subst hSame
      rw [Function.update_self]
      exact hNew
    · rw [Function.update_of_ne hSame]
      exact ⟨hClaimed epochId, hTotal epochId⟩
  cases h with
  | @publish _ _ totalAmount => exact hKept ⟨Nat.zero_le _, totalAmount.isLt⟩
  | @claim other _ _ _ _ _ hPublished hPositive hRemaining =>
      exact hKept ⟨hRemaining, hTotal other⟩
  | @reclaim other => exact hKept ⟨hClaimed other, hTotal other⟩
  | sweep => exact ⟨hClaimed epochId, hTotal epochId⟩
  | configure => exact ⟨hClaimed epochId, hTotal epochId⟩

theorem step_cases (hUnspendable : w.token.Unspendable w.pool.self)
    (h : (machine keccak256).step w i = some w') :
    (∃ env c events, i = .pool env c ∧
        call keccak256 env w.pool w.token c = .ok (w'.pool, w'.token, events)) ∨
      ((∀ env c, i ≠ .pool env c) ∧ w'.pool = w.pool ∧
        w.token.balanceOf w.pool.self ≤ w'.token.balanceOf w.pool.self ∧
        w'.token.Unspendable w.pool.self) := by
  cases i with
  | pool env c =>
      simp only [machine, step] at h
      split at h
      case isTrue =>
        split at h
        case h_1 hCall =>
          cases h
          exact .inl ⟨env, c, _, rfl, hCall⟩
        case h_2 => cases h
      case isFalse => cases h
  | token env c =>
      simp only [machine, step] at h
      split at h
      case isTrue hSender =>
        split at h
        case h_1 hCall =>
          cases h
          obtain ⟨hBalance, hStill⟩ := Token.call_of_other hSender.2 hUnspendable hCall
          exact .inr ⟨fun _ _ => Input.noConfusion, rfl, hBalance, hStill⟩
        case h_2 => cases h
      case isFalse => cases h

theorem WellFormed.step (hw : WellFormed w) (h : (machine keccak256).step w i = some w') :
    WellFormed w' := by
  rcases step_cases hw.unspendable h with ⟨env, c, events, -, hCall⟩ | ⟨-, hPool, -, hStill⟩
  · have hMove := call_poolMove hCall
    obtain ⟨hSelf, hAllowance⟩ := hMove.self_eq
    refine ⟨fun epochId => (hMove.records hw.claimed_le hw.total_lt epochId).1,
      fun epochId => (hMove.records hw.claimed_le hw.total_lt epochId).2, ?_⟩
    intro spender
    rw [hAllowance, hSelf]
    exact hw.unspendable spender
  · refine ⟨?_, ?_, ?_⟩
    · rw [hPool]
      exact hw.claimed_le
    · rw [hPool]
      exact hw.total_lt
    · rw [hPool]
      exact hStill

/-! ## Solvency, step by step -/

/-- The two facts that the rest of solvency follows from. -/
structure Balanced (s : State) (t : Token) : Prop where
  reserved_eq : s.totalReserved = s.liabilities
  covered : s.totalReserved ≤ t.balanceOf s.self

theorem PoolMove.isolated (h : PoolMove keccak256 s t c s' t') (epochId : Uint 256)
    (hOther : c.epoch? ≠ some epochId) : s'.epochs epochId = s.epochs epochId := by
  have hNe : ∀ {other : Uint 256} {e : Epoch}, some other ≠ some epochId →
      Function.update s.epochs other e epochId = s.epochs epochId := by
    intro other e hOther
    apply Function.update_of_ne
    rintro rfl
    exact hOther rfl
  cases h with
  | publish => exact hNe hOther
  | claim => exact hNe hOther
  | reclaim => exact hNe hOther
  | sweep => rfl
  | configure => rfl
variable {epochId : Uint 256}

theorem claim_of_valid {account : Address} {amount : Uint 256}
    {proof : List Bytes32} (hRunning : s.paused = false)
    (hValid : ValidClaim keccak256 s epochId account amount proof) (hNonzero : amount ≠ 0)
    (hRemaining : (s.epochs epochId).claimedAmount + amount ≤ (s.epochs epochId).totalAmount)
    (hTotal : (s.epochs epochId).totalAmount < 2 ^ 256) :
    claim keccak256 env s t epochId account amount proof = (do
      let reserved ← checkedSub panic s.totalReserved amount
      let t' ← pay env s t account amount
      pure (s.recordClaim epochId account ((s.epochs epochId).claimedAmount + amount) reserved,
        t', [.rewardClaimed epochId account amount])) := by
  have hUnpaused : s.whenNotPaused = .ok () := require_of_pos _ hRunning
  have hSub : checkedSub panic (s.epochs epochId).totalAmount (s.epochs epochId).claimedAmount =
      .ok ((s.epochs epochId).totalAmount - (s.epochs epochId).claimedAmount) :=
    checkedSub_of_le panic (by omega)
  have hAdd : checkedAdd 256 panic (s.epochs epochId).claimedAmount amount =
      .ok ((s.epochs epochId).claimedAmount + amount) :=
    checkedAdd_of_lt panic (by omega)
  have hFits : amount.val ≤ (s.epochs epochId).totalAmount - (s.epochs epochId).claimedAmount := by
    omega
  simp only [claim, hUnpaused, require_of_pos _ hValid.published, require_of_pos _ hValid.unused,
    require_of_pos _ hNonzero, require_of_pos _ hValid.proven, hSub, require_of_pos _ hFits, hAdd,
    ok_bind]

theorem Balanced.honoured (hb : Balanced w.pool w.token) (hw : WellFormed w) (env : Env)
    (epochId : Uint 256) (account : Address) (amount : Uint 256) (proof : List Bytes32)
    (hValid : ValidClaim keccak256 w.pool epochId account amount proof) :
    claim keccak256 env w.pool w.token epochId account amount proof ≠ .error panic ∧
      claim keccak256 env w.pool w.token epochId account amount proof ≠
        .error (.token .insufficientBalance) := by
  by_cases hRunning : w.pool.paused = false
  · have hUnpaused : w.pool.whenNotPaused = .ok () := require_of_pos _ hRunning
    by_cases hNonzero : amount ≠ 0
    · have hClaimed := hw.claimed_le epochId
      by_cases hFits : amount.val ≤
          (w.pool.epochs epochId).totalAmount - (w.pool.epochs epochId).claimedAmount
      · -- The counter holds the whole remainder of the epoch, and the balance the counter.
        have hOwed := Epoch.outstanding_of_open hValid.published hValid.not_reclaimed
        have hPart := outstanding_le_liabilities w.pool epochId
        have hReserved : amount ≤ w.pool.totalReserved := by
          rw [hb.reserved_eq]
          omega
        have hBalance := hReserved.trans hb.covered
        rw [claim_of_valid hRunning hValid hNonzero (by omega) (hw.total_lt epochId),
          checkedSub_of_le panic hReserved, ok_bind]
        cases hDeclines : env.tokenDeclines with
        | true =>
            simp [pay, Token.transfer, hDeclines, raise, Except.mapError, pure, Except.pure,
              require_of_neg, panic]
        | false =>
            simp [pay, hDeclines, Token.transfer_of_le hBalance, raise, Except.mapError,
              require_of_pos, pure, Except.pure]
      · have hSub := checkedSub_of_le panic hClaimed
        simp only [claim, hUnpaused, require_of_pos _ hValid.published,
          require_of_pos _ hValid.unused, require_of_pos _ hNonzero,
          require_of_pos _ hValid.proven, hSub, require_of_neg _ hFits, ok_bind, error_bind]
        exact ⟨by simp [panic], by simp⟩
    · simp only [claim, hUnpaused, require_of_pos _ hValid.published,
        require_of_pos _ hValid.unused, require_of_neg _ hNonzero, ok_bind, error_bind]
      exact ⟨by simp [panic], by simp⟩
  · have hPaused : w.pool.whenNotPaused = .error .isPaused := require_of_neg _ hRunning
    simp only [claim, hPaused, error_bind]
    exact ⟨by simp [panic], by simp⟩

theorem Balanced.solvent (hb : Balanced w.pool w.token) (hw : WellFormed w) :
    Solvent keccak256 w := by
  refine ⟨hb.reserved_eq, hb.covered, hb.honoured hw, ?_⟩
  intro env c s' t' events hCall epochId hOther
  rw [(call_poolMove hCall).isolated epochId hOther]

theorem Balanced.publish (hb : Balanced s t) {merkleRoot : Bytes32}
    {totalAmount publishedAt : Nat} (hTime : publishedAt ≠ 0)
    (hUnpublished : (s.epochs epochId).publishedAt = 0)
    (hBacked : s.totalReserved + totalAmount ≤ t.balanceOf s.self) :
    Balanced { s.setEpoch epochId ⟨merkleRoot, totalAmount, 0, publishedAt, false⟩ with
      totalReserved := s.totalReserved + totalAmount } t := by
  refine ⟨?_, hBacked⟩
  have hOld := Epoch.outstanding_of_unpublished hUnpublished
  have hNew : (Epoch.mk merkleRoot totalAmount 0 publishedAt false).outstanding =
      totalAmount - 0 := Epoch.outstanding_of_open hTime rfl
  have hSum := liabilities_setEpoch s epochId ⟨merkleRoot, totalAmount, 0, publishedAt, false⟩
  have hEq := hb.reserved_eq
  show s.totalReserved + totalAmount = (s.setEpoch epochId _).liabilities
  omega

theorem Balanced.reclaim (hb : Balanced s t)
    (hPublished : (s.epochs epochId).publishedAt ≠ 0)
    (hUnreclaimed : (s.epochs epochId).reclaimed = false) :
    Balanced { s.setEpoch epochId { s.epochs epochId with reclaimed := true } with
      totalReserved := s.totalReserved -
        ((s.epochs epochId).totalAmount - (s.epochs epochId).claimedAmount) } t := by
  refine ⟨?_, (Nat.sub_le _ _).trans hb.covered⟩
  have hOld := Epoch.outstanding_of_open hPublished hUnreclaimed
  have hNew : Epoch.outstanding { s.epochs epochId with reclaimed := true } = 0 :=
    Epoch.outstanding_of_reclaimed rfl
  have hSum := liabilities_setEpoch s epochId { s.epochs epochId with reclaimed := true }
  have hEq := hb.reserved_eq
  show s.totalReserved - _ = (s.setEpoch epochId _).liabilities
  omega

theorem Balanced.claim_iff (hb : Balanced s t) {account : Address}
    {amount : Uint 256} {declines : Bool} (hPublished : (s.epochs epochId).publishedAt ≠ 0)
    (hPositive : 0 < amount.val)
    (hRemaining : (s.epochs epochId).claimedAmount + amount ≤ (s.epochs epochId).totalAmount)
    (hReserved : amount ≤ s.totalReserved)
    (hTransfer : t.transfer declines s.self account amount = .ok (true, t')) :
    Balanced (s.recordClaim epochId account ((s.epochs epochId).claimedAmount + amount)
      (s.totalReserved - amount)) t' ↔ (s.epochs epochId).reclaimed = false := by
  obtain ⟨hReservedEq, hCovered⟩ := hb
  have hKept := (transfer_keeps hTransfer).1
  have hSum := liabilities_setEpoch s epochId
    { s.epochs epochId with claimedAmount := (s.epochs epochId).claimedAmount + amount }
  have hLiabilities : (s.recordClaim epochId account
      ((s.epochs epochId).claimedAmount + amount) (s.totalReserved - amount)).liabilities =
      (s.setEpoch epochId { s.epochs epochId with
        claimedAmount := (s.epochs epochId).claimedAmount + amount }).liabilities := rfl
  cases hReclaimed : (s.epochs epochId).reclaimed with
  | false =>
      -- The epoch's own debt falls by the amount that leaves.
      have hOld := Epoch.outstanding_of_open hPublished hReclaimed
      have hNew : Epoch.outstanding { s.epochs epochId with
          claimedAmount := (s.epochs epochId).claimedAmount + amount } =
          (s.epochs epochId).totalAmount - ((s.epochs epochId).claimedAmount + amount) :=
        Epoch.outstanding_of_open hPublished hReclaimed
      refine ⟨fun _ => rfl, fun _ => ⟨?_, ?_⟩⟩
      · rw [hLiabilities]
        show s.totalReserved - amount = _
        omega
      · show s.totalReserved - amount ≤ _
        exact Nat.sub_le_of_le_add (hCovered.trans hKept)
  | true =>
      -- The epoch owes nothing any more, so the counter alone falls.
      have hOld := Epoch.outstanding_of_reclaimed hReclaimed
      have hNew : Epoch.outstanding { s.epochs epochId with
          claimedAmount := (s.epochs epochId).claimedAmount + amount } = 0 :=
        Epoch.outstanding_of_reclaimed hReclaimed
      refine ⟨?_, fun hFalse => Bool.noConfusion hFalse⟩
      rintro ⟨hReservedEq', -⟩
      rw [hLiabilities] at hReservedEq'
      change s.totalReserved - amount = _ at hReservedEq'
      omega

theorem PoolMove.balanced_iff (h : PoolMove keccak256 s t c s' t')
    (hb : Balanced s t) :
    Balanced s' t' ↔ ∀ epochId account amount proof,
      c = .claim epochId account amount proof → (s.epochs epochId).reclaimed = false := by
  cases h with
  | publish hTime hUnpublished hBacked =>
      exact ⟨fun _ _ _ _ _ hCall => Call.noConfusion hCall,
        fun _ => hb.publish hTime hUnpublished hBacked⟩
  | claim hPublished hPositive hRemaining hReserved hTransfer =>
      rw [hb.claim_iff hPublished hPositive hRemaining hReserved hTransfer]
      constructor
      · rintro hUnreclaimed _ _ _ _ hCall
        cases hCall
        exact hUnreclaimed
      · intro hUnreclaimed
        exact hUnreclaimed _ _ _ _ rfl
  | reclaim hPublished hUnreclaimed hReserved =>
      exact ⟨fun _ _ _ _ _ hCall => Call.noConfusion hCall,
        fun _ => hb.reclaim hPublished hUnreclaimed⟩
  | sweep hSurplus hTransfer =>
      refine ⟨fun _ _ _ _ _ hCall => Call.noConfusion hCall, fun _ => ⟨hb.reserved_eq, ?_⟩⟩
      have hKept := (transfer_keeps hTransfer).1
      omega
  | configure hCall =>
      constructor
      · rintro - _ _ _ _ rfl
        cases hCall
      · intro _
        exact ⟨hb.reserved_eq, hb.covered⟩

theorem balanced_step_iff (hw : WellFormed w) (hb : Balanced w.pool w.token)
    (h : (machine keccak256).step w i = some w') :
    Balanced w'.pool w'.token ↔ ClaimsUnreclaimed w i := by
  rcases step_cases hw.unspendable h with ⟨env, c, events, rfl, hCall⟩ | ⟨hToken, hPool, hMore, -⟩
  · rw [(call_poolMove hCall).balanced_iff hb]
    constructor
    · rintro hUnreclaimed _ epochId account amount proof hInput
      cases hInput
      exact hUnreclaimed epochId account amount proof rfl
    · rintro hUnreclaimed epochId account amount proof rfl
      exact hUnreclaimed env epochId account amount proof rfl
  · constructor
    · rintro - env epochId account amount proof rfl
      exact absurd rfl (hToken _ _)
    · intro _
      rw [hPool]
      exact ⟨hb.reserved_eq, hb.covered.trans hMore⟩

/-! ## Solvency over runs -/

theorem Deployment.state_eq (d : Deployment) :
    ∃ ownable, d.world.pool = State.initial d.self ownable d.rootPublisher := by
  have hConstructed := d.constructed
  simp only [construct, bind_eq_ok_iff, pure_eq_ok_iff] at hConstructed
  obtain ⟨ownable, -, -, -, hState⟩ := hConstructed
  exact ⟨ownable, hState.symm⟩

theorem Deployment.wellFormed (d : Deployment) : WellFormed d.world := by
  obtain ⟨ownable, hState⟩ := d.state_eq
  refine ⟨fun epochId => ?_, fun epochId => ?_, ?_⟩
  · rw [hState]
    exact le_refl 0
  · rw [hState]
    exact Nat.two_pow_pos 256
  · rw [hState]
    exact d.unspendable

theorem Deployment.balanced (d : Deployment) : Balanced d.world.pool d.world.token := by
  obtain ⟨ownable, hState⟩ := d.state_eq
  rw [hState]
  refine ⟨?_, Nat.zero_le _⟩
  simp [State.liabilities, State.initial, Epoch.zero, Epoch.outstanding]

/-- The pool is solvent throughout a run exactly when every claim of the run is
on an epoch that was not reclaimed. -/
theorem pool_solvent_iff (keccak256 : Keccak) (d : Deployment) (inputs : List Input) :
    (machine keccak256).EveryState (Solvent keccak256) d.world inputs ↔
      (machine keccak256).EveryStep ClaimsUnreclaimed d.world inputs := by
  refine (machine keccak256).everyState_iff_everyStep WellFormed (Solvent keccak256)
    ClaimsUnreclaimed (fun _ _ _ hw h => hw.step h) ?_ d.wellFormed
    (d.balanced.solvent d.wellFormed) inputs
  intro w i w' hw hSolvent h
  rw [← balanced_step_iff hw ⟨hSolvent.reserved_eq, hSolvent.covered⟩ h]
  constructor
  · intro hSolvent'
    exact ⟨hSolvent'.reserved_eq, hSolvent'.covered⟩
  · intro hBalanced
    exact hBalanced.solvent (hw.step h)

def smallDeployment : Deployment where
  block := smallBlock 1
  self := 50
  ftns := 60
  initialOwner := 1
  rootPublisher := 2
  state := State.initial 50 ⟨1, 0⟩ 2
  constructed := by rfl
  token :=
    { balanceOf := fun account => if account = 50 then 100 else 0
      allowance := fun _ _ => 0 }
  unspendable := fun _ => rfl

def smallEnv (timestamp : Nat) (sender : Address) : Env where
  block := smallBlock timestamp
  sender := sender
  tokenDeclines := false

/-- Epoch 1 owes 100, of which 60 to account 5.  A year later it is reclaimed, the
100 tokens are promised to account 6 by epoch 2, and account 5 claims. -/
def lateClaimRun : List Input :=
  [.pool (smallEnv 1000 2) (.publishEpoch 1 (leafHash polynomialHash 1 5 60) 100),
    .pool (smallEnv 31537000 1) (.reclaimUnclaimed 1),
    .pool (smallEnv 31537001 2) (.publishEpoch 2 (leafHash polynomialHash 2 6 100) 100),
    .pool (smallEnv 31537002 5) (.claim 1 5 60 [])]

/-- After `lateClaimRun` the claim of account 6 on epoch 2 is valid and underflows
the counter. -/
theorem pool_not_solvent_lateClaimRun :
    ¬ (machine polynomialHash).EveryState (Solvent polynomialHash) smallDeployment.world
      lateClaimRun := by
  intro hEvery
  have hValid : ValidClaim polynomialHash
      ((machine polynomialHash).run smallDeployment.world lateClaimRun).pool 2 6 100 [] :=
    ⟨by decide +kernel, by decide +kernel, by decide +kernel, by decide +kernel⟩
  refine (hEvery.last.honoured (smallEnv 31537003 6) 2 6 100 [] hValid).1 ?_
  rw [claim_of_valid (by decide +kernel) hValid (by decide) (by decide +kernel)
    (by decide +kernel)]
  have hUnderflow : checkedSub panic
      ((machine polynomialHash).run smallDeployment.world lateClaimRun).pool.totalReserved
      ((100 : Uint 256) : Nat) = .error panic := by decide +kernel
  rw [hUnderflow, error_bind]

end Prsm.RewardPool
