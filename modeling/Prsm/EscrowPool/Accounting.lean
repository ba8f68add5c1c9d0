import Prsm.Evm.Token
import Prsm.Foundations.Machine

/-!
# `EscrowPool`: storage and functions

Requesters deposit tokens into a balance of their own, take back what they do not use,
and the settlement registry pays providers out of these balances.  A counter keeps the
sum of all balances, and the owner may replace the token while the counter is zero.

The token that is passed through a call is the one that storage names.  The functions that call
it do so last and are guarded against re-entry.
-/

namespace Prsm.EscrowPool

open Foundations Evm

structure State where
  ownable : Ownable2Step
  paused : Bool
  /-- `address(this)`. -/
  self : Address
  ftns : Address
  /-- Immutable. -/
  settlementRegistry : Address
  balances : Address → Nat
  totalEscrowedBalance : Nat

inductive Event
  | deposited (requester : Address) (amount newBalance : Nat)
  | withdrawn (requester : Address) (amount newBalance : Nat)
  | settled (requester recipient : Address) (amount : Nat) (caller : Address)
  | ftnsTokenUpdated (oldToken newToken : Address)

inductive Error
  | platform (e : PlatformError)
  | token (e : TokenError)
  | zeroAmount
  | zeroAddress
  | insufficientBalance (requester : Address) (available requested : Nat)
  | callerNotRegistry (caller expectedRegistry : Address)
  | transferFailed
  | pendingBalancesNonZero (totalEscrowed : Nat)
  | tokenNotContract (provided : Address)

structure Env where
  sender : Address
  codeLength : Address → Nat
  /-- The token returns `false` on a transfer. -/
  tokenDeclines : Bool

abbrev Outcome := Except Error (State × Token × List Event)

def panic : Error := .platform .panicArithmetic

def State.whenNotPaused (s : State) : Except Error Unit :=
  raise .platform (Evm.whenNotPaused s.paused)

def State.onlyOwner (s : State) (env : Env) : Except Error Unit :=
  raise .platform (s.ownable.onlyOwner env.sender)

def State.initial (self : Address) (ownable : Ownable2Step)
    (ftnsAddress initialRegistry : Address) : State where
  ownable := ownable
  paused := false
  self := self
  ftns := ftnsAddress
  settlementRegistry := initialRegistry
  balances := fun _ => 0
  totalEscrowedBalance := 0

def construct (self initialOwner ftnsAddress initialRegistry : Address) : Except Error State := do
  let ownable ← raise .platform (Ownable2Step.construct initialOwner)
  require (ftnsAddress ≠ 0) .zeroAddress
  require (initialRegistry ≠ 0) .zeroAddress
  pure (State.initial self ownable ftnsAddress initialRegistry)

/-! ## Deposits, withdrawals and settlements -/

def deposit (env : Env) (s : State) (t : Token) (amount : Nat) : Outcome := do
  s.whenNotPaused
  require (amount ≠ 0) .zeroAmount
  let newBalance ← checkedAdd 256 panic (s.balances env.sender) amount
  let total ← checkedAdd 256 panic s.totalEscrowedBalance amount
  let (ok, t') ← raise .token (t.transferFrom env.tokenDeclines s.self env.sender s.self amount)
  require (ok = true) .transferFailed
  pure ({ s with
      balances := Function.update s.balances env.sender newBalance
      totalEscrowedBalance := total },
    t', [.deposited env.sender amount newBalance])

/-- The part that withdrawals and settlements share: `amount` leaves the balance of
`requester` and is paid to `recipient`. -/
def payFrom (env : Env) (s : State) (t : Token) (requester recipient : Address) (amount : Nat) :
    Except Error (State × Token) := do
  let bal := s.balances requester
  require (amount ≤ bal) (.insufficientBalance requester bal amount)
  let total ← checkedSub panic s.totalEscrowedBalance amount
  let (ok, t') ← raise .token (t.transfer env.tokenDeclines s.self recipient amount)
  require (ok = true) .transferFailed
  pure ({ s with
      balances := Function.update s.balances requester (bal - amount)
      totalEscrowedBalance := total },
    t')

def withdraw (env : Env) (s : State) (t : Token) (amount : Nat) : Outcome := do
  s.whenNotPaused
  require (amount ≠ 0) .zeroAmount
  let (s', t') ← payFrom env s t env.sender env.sender amount
  pure (s', t', [.withdrawn env.sender amount (s'.balances env.sender)])

def settleFromRequester (env : Env) (s : State) (t : Token) (requester recipient : Address)
    (amount : Nat) : Outcome := do
  s.whenNotPaused
  require (env.sender = s.settlementRegistry)
    (.callerNotRegistry env.sender s.settlementRegistry)
  require (amount ≠ 0) .zeroAmount
  require (recipient ≠ 0) .zeroAddress
  let (s', t') ← payFrom env s t requester recipient amount
  pure (s', t', [.settled requester recipient amount env.sender])

def setFtnsToken (env : Env) (s : State) (t : Token) (newToken : Address) : Outcome := do
  s.onlyOwner env
  require (newToken ≠ 0) .zeroAddress
  require (env.codeLength newToken ≠ 0) (.tokenNotContract newToken)
  -- Balances of the old token could not be paid in the new one.
  require (s.totalEscrowedBalance = 0) (.pendingBalancesNonZero s.totalEscrowedBalance)
  pure ({ s with ftns := newToken }, t, [.ftnsTokenUpdated s.ftns newToken])

def pause (env : Env) (s : State) (t : Token) : Outcome := do
  s.onlyOwner env
  s.whenNotPaused
  pure ({ s with paused := true }, t, [])

def unpause (env : Env) (s : State) (t : Token) : Outcome := do
  s.onlyOwner env
  raise .platform (whenPaused s.paused)
  pure ({ s with paused := false }, t, [])

inductive Call
  | deposit (amount : Uint 256)
  | withdraw (amount : Uint 256)
  | settleFromRequester (requester recipient : Address) (amount : Uint 256)
  | setFtnsToken (newToken : Address)
  | pause
  | unpause
  | ownership (call : Ownable2Step.Call)

def call (env : Env) (s : State) (t : Token) : Call → Outcome
  | .deposit amount => deposit env s t amount
  | .withdraw amount => withdraw env s t amount
  | .settleFromRequester requester recipient amount =>
      settleFromRequester env s t requester recipient amount
  | .setFtnsToken newToken => setFtnsToken env s t newToken
  | .pause => pause env s t
  | .unpause => unpause env s t
  | .ownership c => do
      let ownable ← raise .platform (s.ownable.call env.sender c)
      pure ({ s with ownable := ownable }, t, [])

end Prsm.EscrowPool

/-!
# The escrow balances are backed

The counter of the pool is the sum of all balances, and the pool holds at least that much
of its token.  `LedgerMove` lists what a call can do to balances, counter and token
together: a deposit into one balance, a payment out of one balance, a change of token
while the counter is zero, or nothing.

Any number of tokens exist beside each other, and other accounts use all of them as they
like.  The pool approves nobody, so none of that takes from it.
-/

namespace Prsm.EscrowPool

open Foundations Evm

variable {env : Env} {s s' : State} {t t' : Token} {events : List Event}

/-- The payment of `amount` to `recipient` out of the balance of `requester`. -/
structure Payment (s : State) (t : Token) (requester recipient : Address) (amount : Nat)
    (s' : State) (t' : Token) : Prop where
  balance_le : amount ≤ s.balances requester
  token_le : amount ≤ t.balanceOf s.self
  total_le : amount ≤ s.totalEscrowedBalance
  balances_eq : s'.balances =
    Function.update s.balances requester (s.balances requester - amount)
  total_eq : s'.totalEscrowedBalance = s.totalEscrowedBalance - amount
  ftns_eq : s'.ftns = s.ftns
  self_eq : s'.self = s.self
  token_eq : t' = t.move s.self recipient amount

theorem payFrom_eq_ok {requester recipient : Address} {amount : Nat}
    (h : payFrom env s t requester recipient amount = .ok (s', t')) :
    Payment s t requester recipient amount s' t' := by
  simp only [payFrom, bind_eq_ok_iff, require_eq_ok_iff, checkedSub_eq_ok_iff, raise_eq_ok_iff,
    pure_eq_ok_iff, Prod.mk.injEq] at h
  obtain ⟨-, hBalance, total, ⟨hTotal, rfl⟩, ⟨ok, paid⟩, hTransfer, -, rfl, rfl, rfl⟩ := h
  obtain ⟨hToken, hMoved⟩ := Token.transfer_eq_true hTransfer
  exact ⟨hBalance, hToken, hTotal, rfl, rfl, rfl, rfl, hMoved⟩

/-- The kinds of change. -/
inductive LedgerMove (s : State) (t : Token) (s' : State) (t' : Token) : Prop
  | deposit {requester : Address} {declines : Bool} {amount : Nat} (hPositive : amount ≠ 0)
      (hToken : t.transferFrom declines s.self requester s.self amount = .ok (true, t'))
      (hBalances : s'.balances =
        Function.update s.balances requester (s.balances requester + amount))
      (hTotal : s'.totalEscrowedBalance = s.totalEscrowedBalance + amount)
      (hFtns : s'.ftns = s.ftns) (hSelf : s'.self = s.self)
  | payment {requester recipient : Address} {amount : Nat}
      (hPayment : Payment s t requester recipient amount s' t')
  | tokenSwap (hZero : s.totalEscrowedBalance = 0) (hBalances : s'.balances = s.balances)
      (hTotal : s'.totalEscrowedBalance = 0) (hSelf : s'.self = s.self) (hToken : t' = t)
  | kept (hBalances : s'.balances = s.balances)
      (hTotal : s'.totalEscrowedBalance = s.totalEscrowedBalance) (hFtns : s'.ftns = s.ftns)
      (hSelf : s'.self = s.self) (hToken : t' = t)

theorem call_ledgerMove {c : Call} (h : call env s t c = .ok (s', t', events)) :
    LedgerMove s t s' t' := by
  cases c with
  | deposit amount =>
      simp only [call, deposit, bind_eq_ok_iff, require_eq_ok_iff, checkedAdd_eq_ok_iff,
        raise_eq_ok_iff, pure_eq_ok_iff, Prod.mk.injEq] at h
      obtain ⟨-, -, -, hNonzero, _, ⟨-, rfl⟩, _, ⟨-, rfl⟩, ⟨ok, paid⟩, hTransfer, -, rfl, rfl, rfl,
        -⟩ := h
      exact .deposit hNonzero hTransfer rfl rfl rfl rfl
  | withdraw amount =>
      simp only [call, withdraw, bind_eq_ok_iff, pure_eq_ok_iff, Prod.mk.injEq] at h
      obtain ⟨-, -, -, -, ⟨s₁, t₁⟩, hPay, rfl, rfl, -⟩ := h
      exact .payment (payFrom_eq_ok hPay)
  | settleFromRequester requester recipient amount =>
      simp only [call, settleFromRequester, bind_eq_ok_iff, pure_eq_ok_iff, Prod.mk.injEq] at h
      obtain ⟨-, -, -, -, -, -, -, -, ⟨s₁, t₁⟩, hPay, rfl, rfl, -⟩ := h
      exact .payment (payFrom_eq_ok hPay)
  | setFtnsToken newToken =>
      simp only [call, setFtnsToken, bind_eq_ok_iff, require_eq_ok_iff, pure_eq_ok_iff,
        Prod.mk.injEq] at h
      obtain ⟨-, -, -, -, -, -, -, hZero, rfl, rfl, -⟩ := h
      exact .tokenSwap hZero rfl hZero rfl rfl
  | pause =>
      simp only [call, pause, bind_eq_ok_iff, pure_eq_ok_iff, Prod.mk.injEq] at h
      obtain ⟨-, -, -, -, rfl, rfl, -⟩ := h
      exact .kept rfl rfl rfl rfl rfl
  | unpause =>
      simp only [call, unpause, bind_eq_ok_iff, pure_eq_ok_iff, Prod.mk.injEq] at h
      obtain ⟨-, -, -, -, rfl, rfl, -⟩ := h
      exact .kept rfl rfl rfl rfl rfl
  | ownership ownershipCall =>
      simp only [call, bind_eq_ok_iff, pure_eq_ok_iff, Prod.mk.injEq] at h
      obtain ⟨ownable, -, rfl, rfl, -⟩ := h
      exact .kept rfl rfl rfl rfl rfl

structure World where
  pool : State
  /-- Every token there is, by its address. -/
  tokens : Address → Token

/-- The token that the pool uses. -/
def World.ftns (w : World) : Token := w.tokens w.pool.ftns

/-- A call of the pool, or of one of the tokens by some other account. -/
inductive Input
  | pool (env : Env) (call : Call)
  | token (token sender : Address) (call : Token.Call)

/-- One transaction.  The pool's own address sends none. -/
def step (w : World) : Input → Option World
  | .pool env c =>
      match call env w.pool w.ftns c with
      | .ok (s, t, _) => some ⟨s, Function.update w.tokens w.pool.ftns t⟩
      | .error _ => none
  | .token token sender c =>
      if sender = w.pool.self then none
      else
        match (w.tokens token).call sender c with
        | .ok t => some ⟨w.pool, Function.update w.tokens token t⟩
        | .error _ => none

def machine : Machine World Input where
  step := step

/-- A deployed pool among the tokens.  Its address is new, so nobody has an allowance
from it. -/
structure Deployment where
  self : Address
  initialOwner : Address
  ftnsAddress : Address
  initialRegistry : Address
  state : State
  constructed : construct self initialOwner ftnsAddress initialRegistry = .ok state
  tokens : Address → Token
  unspendable : ∀ token, (tokens token).Unspendable self

def Deployment.world (d : Deployment) : World := ⟨d.state, d.tokens⟩

def Deployment.after (d : Deployment) (inputs : List Input) : World :=
  machine.run d.world inputs

/-- The counter is the sum of the balances, the pool holds that much, and nobody may
spend from it. -/
structure Backed (address : Address) (w : World) : Prop where
  self_eq : w.pool.self = address
  unspendable : ∀ token, (w.tokens token).Unspendable address
  total_eq : w.pool.totalEscrowedBalance = ∑ requester, w.pool.balances requester
  covered : w.pool.totalEscrowedBalance ≤ w.ftns.balanceOf address

theorem LedgerMove.total_eq_sum (hMove : LedgerMove s t s' t')
    (hTotal : s.totalEscrowedBalance = ∑ requester, s.balances requester) :
    s'.totalEscrowedBalance = ∑ requester, s'.balances requester := by
  cases hMove with
  | @deposit requester _ amount hPositive hToken hBalances hNew hFtns hSelf =>
      have hSum := sum_update_entry (fun _ (balance : Nat) => balance) s.balances requester
        (s.balances requester + amount)
      rw [hNew, hBalances]
      omega
  | @payment requester recipient amount hPayment =>
      have hSum := sum_update_entry (fun _ (balance : Nat) => balance) s.balances requester
        (s.balances requester - amount)
      have hBalance := hPayment.balance_le
      rw [hPayment.total_eq, hPayment.balances_eq]
      omega
  | tokenSwap hZero hBalances hNew hSelf hToken => rw [hNew, hBalances, ← hTotal, hZero]
  | kept hBalances hNew hFtns hSelf hToken => rw [hNew, hBalances, hTotal]

theorem LedgerMove.covered (hMove : LedgerMove s t s' t') (hUnspendable : t.Unspendable s.self)
    (hCovered : s.totalEscrowedBalance ≤ t.balanceOf s.self) :
    s'.self = s.self ∧ t'.Unspendable s.self ∧
      (s'.totalEscrowedBalance = 0 ∨
        s'.ftns = s.ftns ∧ s'.totalEscrowedBalance ≤ t'.balanceOf s.self) := by
  cases hMove with
  | @deposit requester _ amount hPositive hToken hBalances hTotal hFtns hSelf =>
      obtain ⟨hAllowance, -, hBalance, hAllowances⟩ := Token.transferFrom_eq_true hToken
      -- The pool has approved nobody, so it cannot be made to pay itself.
      have hOther : requester ≠ s.self := by
        rintro rfl
        rw [hUnspendable] at hAllowance
        omega
      refine ⟨hSelf, fun spender => ?_, .inr ⟨hFtns, ?_⟩⟩
      · have hLe := hAllowances s.self spender
        rw [hUnspendable] at hLe
        exact Nat.le_zero.mp hLe
      · rw [hBalance, Token.move_balanceOf_recipient hOther, hTotal]
        exact Nat.add_le_add_right hCovered amount
  | @payment requester recipient amount hPayment =>
      have hKept := @Token.le_move_balanceOf_sender t s.self recipient amount hPayment.token_le
      have hTotal := hPayment.total_eq
      rw [hPayment.token_eq]
      refine ⟨hPayment.self_eq, hUnspendable, .inr ⟨hPayment.ftns_eq, ?_⟩⟩
      omega
  | tokenSwap hZero hBalances hTotal hSelf hToken =>
      rw [hToken]
      exact ⟨hSelf, hUnspendable, .inl hTotal⟩
  | kept hBalances hTotal hFtns hSelf hToken =>
      rw [hToken, hTotal]
      exact ⟨hSelf, hUnspendable, .inr ⟨hFtns, hCovered⟩⟩

theorem Backed.poolCall {address : Address} {w : World} {c : Call} (hw : Backed address w)
    (hCall : call env w.pool w.ftns c = .ok (s', t', events)) :
    Backed address ⟨s', Function.update w.tokens w.pool.ftns t'⟩ := by
  have hMove := call_ledgerMove hCall
  have hSelf := hw.self_eq
  subst hSelf
  obtain ⟨hSelf, hUnspendable, hCovered⟩ :=
    hMove.covered (hw.unspendable w.pool.ftns) hw.covered
  refine ⟨hSelf, fun token => ?_, hMove.total_eq_sum hw.total_eq, ?_⟩
  · by_cases hToken : token = w.pool.ftns
    · subst hToken
      simpa only [Function.update_self] using hUnspendable
    · simpa only [Function.update_of_ne hToken] using hw.unspendable token
  · rcases hCovered with hZero | ⟨hFtns, hLe⟩
    · exact hZero.le.trans (Nat.zero_le _)
    -- The token is still the one that the call went through.
    · show s'.totalEscrowedBalance ≤
        (Function.update w.tokens w.pool.ftns t' s'.ftns).balanceOf w.pool.self
      rwa [hFtns, Function.update_self]

theorem Backed.tokenCall {address token sender : Address} {w : World} {c : Token.Call}
    (hw : Backed address w) (hSender : sender ≠ address)
    (hCall : (w.tokens token).call sender c = .ok t') :
    Backed address ⟨w.pool, Function.update w.tokens token t'⟩ := by
  obtain ⟨hBalance, hUnspendable⟩ := Token.call_of_other hSender (hw.unspendable token) hCall
  refine ⟨hw.self_eq, fun other => ?_, hw.total_eq, hw.covered.trans ?_⟩
  · by_cases hOther : other = token
    · subst hOther
      simpa only [Function.update_self] using hUnspendable
    · simpa only [Function.update_of_ne hOther] using hw.unspendable other
  · show (w.tokens w.pool.ftns).balanceOf address ≤
      (Function.update w.tokens token t' w.pool.ftns).balanceOf address
    by_cases hFtns : w.pool.ftns = token
    · rw [hFtns, Function.update_self]
      exact hBalance
    · rw [Function.update_of_ne hFtns]

theorem Backed.step {address : Address} {w w' : World} {i : Input} (hw : Backed address w)
    (h : machine.step w i = some w') : Backed address w' := by
  cases i with
  | pool env c =>
      simp only [machine, EscrowPool.step] at h
      split at h
      case h_1 hCall => cases h; exact hw.poolCall hCall
      case h_2 => cases h
  | token token sender c =>
      simp only [machine, EscrowPool.step] at h
      split at h
      case isTrue => cases h
      case isFalse hSender =>
        split at h
        case h_1 hCall =>
          cases h
          exact hw.tokenCall (hw.self_eq ▸ hSender) hCall
        case h_2 => cases h

theorem Deployment.backed (d : Deployment) : Backed d.self d.world := by
  have hConstructed := d.constructed
  simp only [construct, bind_eq_ok_iff, pure_eq_ok_iff] at hConstructed
  obtain ⟨ownable, -, -, -, -, -, hState⟩ := hConstructed
  have hPool : d.world.pool = State.initial d.self ownable d.ftnsAddress d.initialRegistry :=
    hState.symm
  refine ⟨by rw [hPool]; rfl, d.unspendable, ?_, ?_⟩
  · rw [hPool]
    simp [State.initial]
  · rw [hPool]
    exact Nat.zero_le _

/-! ## The accounting -/

theorem ftns_changed {w w' : World} {i : Input} (h : machine.step w i = some w')
    (hChanged : w'.pool.ftns ≠ w.pool.ftns) : w.pool.totalEscrowedBalance = 0 := by
  cases i with
  | pool env c =>
      simp only [machine, EscrowPool.step] at h
      split at h
      case h_1 s' t' events hCall =>
        cases h
        cases call_ledgerMove hCall with
        | deposit _ _ _ _ hFtns _ => exact absurd hFtns hChanged
        | payment hPayment => exact absurd hPayment.ftns_eq hChanged
        | tokenSwap hZero _ _ _ _ => exact hZero
        | kept _ _ hFtns _ _ => exact absurd hFtns hChanged
      case h_2 => cases h
  | token token sender c =>
      simp only [machine, EscrowPool.step] at h
      split at h
      case isTrue => cases h
      case isFalse =>
        split at h
        case h_1 => cases h; exact absurd rfl hChanged
        case h_2 => cases h

theorem settleFromRequester_eq_ok {requester recipient : Address} {amount : Nat}
    (h : settleFromRequester env s t requester recipient amount = .ok (s', t', events)) :
    Payment s t requester recipient amount s' t' := by
  simp only [settleFromRequester, bind_eq_ok_iff, pure_eq_ok_iff, Prod.mk.injEq] at h
  obtain ⟨-, -, -, -, -, -, -, -, ⟨s₁, t₁⟩, hPay, rfl, rfl, -⟩ := h
  exact payFrom_eq_ok hPay

/-- In every state of every run the counter is the sum of all balances and is covered by
the pool's tokens; the token changes only while the counter is zero; a settlement takes
from the named balance alone what the token moves to the recipient; and a call that fails
changes nothing. -/
theorem escrow_accounting (d : Deployment) (inputs : List Input) :
    let w := d.after inputs
    w.pool.totalEscrowedBalance = ∑ requester, w.pool.balances requester ∧
      w.pool.totalEscrowedBalance ≤ w.ftns.balanceOf d.self ∧
      (∀ i w', machine.step w i = some w' → w'.pool.ftns ≠ w.pool.ftns →
        w.pool.totalEscrowedBalance = 0) ∧
      (∀ env requester recipient amount s' t' events,
        settleFromRequester env w.pool w.ftns requester recipient amount = .ok (s', t', events) →
          s'.balances requester + amount = w.pool.balances requester ∧
          (∀ other, other ≠ requester → s'.balances other = w.pool.balances other) ∧
          t' = w.ftns.move d.self recipient amount ∧
          (recipient ≠ d.self →
            t'.balanceOf recipient = w.ftns.balanceOf recipient + amount)) ∧
      ∀ i, machine.step w i = none → machine.exec w i = w := by
  intro w
  have hBacked : Backed d.self w :=
    machine.run_invariant (Backed d.self) (fun _ _ _ hw h => hw.step h) d.backed inputs
  refine ⟨hBacked.total_eq, hBacked.covered, fun i w' h => ftns_changed h, ?_,
    fun i h => machine.exec_of_refused h⟩
  intro env requester recipient amount s' t' events hSettle
  have hPayment := settleFromRequester_eq_ok hSettle
  have hMoved : t' = w.ftns.move d.self recipient amount := by
    rw [hPayment.token_eq, hBacked.self_eq]
  refine ⟨?_, fun other hOther => ?_, hMoved, fun hRecipient => ?_⟩
  · have hLe := hPayment.balance_le
    rw [hPayment.balances_eq, Function.update_self]
    omega
  · rw [hPayment.balances_eq, Function.update_of_ne hOther]
  · rw [hMoved]
    exact Token.move_balanceOf_recipient hRecipient.symm

end Prsm.EscrowPool
