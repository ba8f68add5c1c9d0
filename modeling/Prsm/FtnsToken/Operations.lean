import Prsm.Evm.Token

/-!
# `FTNSTokenSimple`: storage and functions

The token of the network: an ERC-20 token whose holders can be paid newly minted
tokens by accounts with the minter role, up to a maximal supply, and which stops
moving while it is paused.

The balances and allowances are those of a conforming `Token`; around them this
module has the roles, the supply and the pause.  Each definition follows the source
function of the same name, or the inherited one.
-/

namespace Prsm.FtnsToken

open Foundations Evm

/-- The roles that the contract checks.  The admin role administers all of them. -/
inductive Role
  | defaultAdmin
  | minter
  | pauser
  | burner
  deriving DecidableEq

structure State where
  ledger : Token
  totalSupply : Nat
  hasRole : Role → Address → Bool
  paused : Bool

def maxSupply : Nat := 1000000000 * 10 ^ 18
def initialSupply : Nat := 100000000 * 10 ^ 18

inductive Error
  | platform (e : PlatformError)
  | accessControlUnauthorizedAccount (account : Address) (role : Role)
  | accessControlBadConfirmation
  | erc20InvalidSender (sender : Address)
  | erc20InvalidReceiver (receiver : Address)
  | erc20InvalidSpender (spender : Address)
  | erc20InsufficientBalance (account : Address) (balance needed : Nat)
  | erc20InsufficientAllowance (spender : Address) (allowance needed : Nat)
  | reverted (reason : String)

def panic : Error := .platform .panicArithmetic

/-- The `onlyRole` modifier. -/
def State.onlyRole (s : State) (sender : Address) (role : Role) : Except Error Unit :=
  require (s.hasRole role sender = true) (.accessControlUnauthorizedAccount sender role)

def State.whenNotPaused (s : State) : Except Error Unit :=
  raise .platform (Evm.whenNotPaused s.paused)

def State.setRole (s : State) (role : Role) (account : Address) (held : Bool) : State :=
  { s with
    hasRole := Function.update s.hasRole role (Function.update (s.hasRole role) account held) }

/-! ## Balances -/

def State.setBalance (s : State) (account : Address) (balance : Nat) : State :=
  { s with
    ledger := { s.ledger with
      balanceOf := Function.update s.ledger.balanceOf account balance } }

/-- `_mint`: new tokens for `account`. -/
def mint (s : State) (account : Address) (value : Nat) : Except Error State := do
  require (account ≠ 0) (.erc20InvalidReceiver 0)
  s.whenNotPaused
  let totalSupply ← checkedAdd 256 panic s.totalSupply value
  -- A balance is part of the supply, so adding to it cannot overflow.
  pure { s.setBalance account (s.ledger.balanceOf account + value) with totalSupply := totalSupply }

/-- `_burn`: tokens of `account` cease to exist. -/
def burn (s : State) (account : Address) (value : Nat) : Except Error State := do
  require (account ≠ 0) (.erc20InvalidSender 0)
  s.whenNotPaused
  require (value ≤ s.ledger.balanceOf account)
    (.erc20InsufficientBalance account (s.ledger.balanceOf account) value)
  pure { s.setBalance account (s.ledger.balanceOf account - value) with
    totalSupply := s.totalSupply - value }

/-- `_transfer`. -/
def move (s : State) (sender recipient : Address) (value : Nat) : Except Error State := do
  require (sender ≠ 0) (.erc20InvalidSender 0)
  require (recipient ≠ 0) (.erc20InvalidReceiver 0)
  s.whenNotPaused
  require (value ≤ s.ledger.balanceOf sender)
    (.erc20InsufficientBalance sender (s.ledger.balanceOf sender) value)
  pure { s with ledger := s.ledger.move sender recipient value }

def State.setAllowance (s : State) (owner spender : Address) (value : Nat) : State :=
  { s with
    ledger := { s.ledger with
      allowance := Function.update s.ledger.allowance owner
        (Function.update (s.ledger.allowance owner) spender value) } }

/-- `_spendAllowance`.  The largest allowance stands for an unlimited one. -/
def spendAllowance (s : State) (owner spender : Address) (value : Nat) : Except Error State := do
  let allowance := s.ledger.allowance owner spender
  if allowance = 2 ^ 256 - 1 then
    pure s
  else
    require (value ≤ allowance) (.erc20InsufficientAllowance spender allowance value)
    pure (s.setAllowance owner spender (allowance - value))

/-- `transfer`.  It returns `true` or reverts. -/
def transfer (sender : Address) (s : State) (recipient : Address) (value : Nat) :
    Except Error State :=
  move s sender recipient value

/-- `transferFrom`.  It returns `true` or reverts. -/
def transferFrom (sender : Address) (s : State) (owner recipient : Address) (value : Nat) :
    Except Error State := do
  let spent ← spendAllowance s owner sender value
  move spent owner recipient value

def approve (sender : Address) (s : State) (spender : Address) (value : Nat) :
    Except Error State := do
  require (spender ≠ 0) (.erc20InvalidSpender 0)
  pure (s.setAllowance sender spender value)

/-! ## Minting and burning by role -/

def mintReward (sender : Address) (s : State) (recipient : Address) (amount : Nat) :
    Except Error State := do
  s.onlyRole sender .minter
  let supply ← checkedAdd 256 panic s.totalSupply amount
  require (supply ≤ maxSupply) (.reverted "Would exceed max supply")
  mint s recipient amount

def burnFrom (sender : Address) (s : State) (owner : Address) (amount : Nat) :
    Except Error State := do
  s.onlyRole sender .burner
  burn s owner amount

/-! ## Administration -/

def pause (sender : Address) (s : State) : Except Error State := do
  s.onlyRole sender .pauser
  s.whenNotPaused
  pure { s with paused := true }

def unpause (sender : Address) (s : State) : Except Error State := do
  s.onlyRole sender .pauser
  raise .platform (whenPaused s.paused)
  pure { s with paused := false }

def grantRole (sender : Address) (s : State) (role : Role) (account : Address) :
    Except Error State := do
  s.onlyRole sender .defaultAdmin
  pure (s.setRole role account true)

def revokeRole (sender : Address) (s : State) (role : Role) (account : Address) :
    Except Error State := do
  s.onlyRole sender .defaultAdmin
  pure (s.setRole role account false)

/-- Any role but the admin's can be given up. -/
def renounceRole (sender : Address) (s : State) (role : Role) (callerConfirmation : Address) :
    Except Error State := do
  require (role ≠ .defaultAdmin) (.reverted
    "DEFAULT_ADMIN_ROLE renounce disabled - use grantRole(new) + revokeRole(old)")
  require (callerConfirmation = sender) .accessControlBadConfirmation
  pure (s.setRole role sender false)

/-- The initialiser: the owner holds every role and the treasury the first supply. -/
def construct (initialOwner treasuryAddress : Address) : Except Error State :=
  mint
    { ledger := { balanceOf := fun _ => 0, allowance := fun _ _ => 0 }
      totalSupply := 0
      hasRole := fun _ account => account = initialOwner
      paused := false } treasuryAddress initialSupply

inductive Call
  | transfer (recipient : Address) (value : Uint 256)
  | transferFrom (owner recipient : Address) (value : Uint 256)
  | approve (spender : Address) (value : Uint 256)
  | mintReward (recipient : Address) (amount : Uint 256)
  | burnFrom (owner : Address) (amount : Uint 256)
  | pause
  | unpause
  | grantRole (role : Role) (account : Address)
  | revokeRole (role : Role) (account : Address)
  | renounceRole (role : Role) (callerConfirmation : Address)

def call (sender : Address) (s : State) : Call → Except Error State
  | .transfer recipient value => transfer sender s recipient value
  | .transferFrom owner recipient value => transferFrom sender s owner recipient value
  | .approve spender value => approve sender s spender value
  | .mintReward recipient amount => mintReward sender s recipient amount
  | .burnFrom owner amount => burnFrom sender s owner amount
  | .pause => pause sender s
  | .unpause => unpause sender s
  | .grantRole role account => grantRole sender s role account
  | .revokeRole role account => revokeRole sender s role account
  | .renounceRole role callerConfirmation => renounceRole sender s role callerConfirmation

/-! ## What a mint does -/

/-- The state after a mint. -/
def State.minted (s : State) (recipient : Address) (amount : Nat) : State :=
  { s.setBalance recipient (s.ledger.balanceOf recipient + amount) with
    totalSupply := s.totalSupply + amount }

theorem mintReward_eq_ok_iff {sender recipient : Address} {s s' : State} {amount : Nat} :
    mintReward sender s recipient amount = .ok s' ↔
      s.hasRole .minter sender = true ∧ s.totalSupply + amount ≤ maxSupply ∧ recipient ≠ 0 ∧
        s.paused = false ∧ s' = s.minted recipient amount := by
  simp only [mintReward, mint, State.onlyRole, State.whenNotPaused, bind_eq_ok_iff,
    require_eq_ok_iff, raise_eq_ok_iff, whenNotPaused_eq_ok_iff, checkedAdd_eq_ok_iff,
    pure_eq_ok_iff]
  constructor
  · rintro ⟨-, hRole, supply, ⟨-, rfl⟩, -, hRoom, -, hRecipient, -, hPaused, supply', ⟨-, rfl⟩,
      rfl⟩
    exact ⟨hRole, hRoom, hRecipient, hPaused, rfl⟩
  · rintro ⟨hRole, hRoom, hRecipient, hPaused, rfl⟩
    have hFits : s.totalSupply + amount < 2 ^ 256 :=
      hRoom.trans_lt (by norm_num [maxSupply])
    exact ⟨(), hRole, _, ⟨hFits, rfl⟩, (), hRoom, (), hRecipient, (), hPaused, _, ⟨hFits, rfl⟩,
      rfl⟩

@[simp] theorem minted_balanceOf (s : State) (recipient : Address) (amount : Nat) :
    (s.minted recipient amount).ledger.balanceOf recipient =
      s.ledger.balanceOf recipient + amount := by
  simp [State.minted, State.setBalance]

end Prsm.FtnsToken
