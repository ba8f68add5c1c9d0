import Prsm.Evm.Token

/-!
# Merkle proofs over sorted pairs

`MerkleProof.verify` folds the siblings of a proof into the leaf hash.  At each
level the two hashes are concatenated in ascending order before they are
hashed, so a proof carries no positions.  The off-chain builder follows the
same convention.
-/

namespace Prsm.Evm
namespace MerkleProof

/-- Hash two nodes, the smaller first. -/
def hashPair (keccak256 : Keccak) (a b : Bytes32) : Bytes32 :=
  if a < b then keccak256 (abiEncode [a, b]) else keccak256 (abiEncode [b, a])

/-- The root that a proof leads to from a leaf hash. -/
def processProof (keccak256 : Keccak) (proof : List Bytes32) (leaf : Bytes32) : Bytes32 :=
  proof.foldl (hashPair keccak256) leaf

def verify (keccak256 : Keccak) (proof : List Bytes32) (root leaf : Bytes32) : Bool :=
  processProof keccak256 proof leaf = root

/-- Some proof leads from the leaf hash to the root. -/
def Proves (keccak256 : Keccak) (root leaf : Bytes32) : Prop :=
  ∃ proof, verify keccak256 proof root leaf = true

end MerkleProof
end Prsm.Evm

/-!
# `AccessControl`

Accounts hold roles.  One role, the default admin's, grants and revokes all of them, and
an account can renounce a role that it holds.
-/

namespace Prsm.Evm

open Foundations

structure AccessControl (Role : Type) where
  hasRole : Role → Address → Bool

inductive AccessControlError (Role : Type)
  | unauthorizedAccount (account : Address) (neededRole : Role)
  | badConfirmation
  deriving DecidableEq

namespace AccessControl

inductive Call (Role : Type)
  | grantRole (role : Role) (account : Address)
  | revokeRole (role : Role) (account : Address)
  | renounceRole (role : Role) (callerConfirmation : Address)

variable {Role : Type} [DecidableEq Role]

def setRole (a : AccessControl Role) (role : Role) (account : Address) (held : Bool) :
    AccessControl Role where
  hasRole := Function.update a.hasRole role (Function.update (a.hasRole role) account held)

/-- The `onlyRole` modifier. -/
def onlyRole (a : AccessControl Role) (sender : Address) (role : Role) :
    Except (AccessControlError Role) Unit :=
  require (a.hasRole role sender = true) (.unauthorizedAccount sender role)

/-- The inherited functions, where `admin` is the role that administers all others. -/
def call (admin : Role) (a : AccessControl Role) (sender : Address) :
    Call Role → Except (AccessControlError Role) (AccessControl Role)
  | .grantRole role account => do
      a.onlyRole sender admin
      pure (a.setRole role account true)
  | .revokeRole role account => do
      a.onlyRole sender admin
      pure (a.setRole role account false)
  | .renounceRole role callerConfirmation => do
      require (callerConfirmation = sender) .badConfirmation
      pure (a.setRole role sender false)

end AccessControl
end Prsm.Evm

/-!
# Recoverable signatures and typed data

The precompiled contract `ecrecover` and the hash function are parameters, together in
a `Crypto`.  Around `ecrecover` stands the library function `recover`, which reverts where
the precompile gives no signer and on the malleable half of the signatures.

The last section has the byte strings that typed data are hashed from.
-/

namespace Prsm.Evm

open Foundations

/-- The signer of a hash, from the parts `v`, `r` and `s` of a signature, and the zero
address where there is none. -/
abbrev Ecrecover := Bytes32 → Uint 8 → Bytes32 → Bytes32 → Address

/-- The cryptographic functions of the platform. -/
structure Crypto where
  keccak256 : Keccak
  ecrecover : Ecrecover

inductive EcdsaError
  | invalidSignature
  | invalidSignatureS (s : Bytes32)
  deriving DecidableEq

/-- The largest `s` that `recover` takes: half the order of the curve. -/
def halfCurveOrder : Nat :=
  0x7FFFFFFFFFFFFFFFFFFFFFFFFFFFFFFF5D576E7357A4501DDFE92F46681B20A0

def recover (crypto : Crypto) (hash : Bytes32) (v : Uint 8) (r s : Bytes32) :
    Except EcdsaError Address := do
  require (s.val ≤ halfCurveOrder) (.invalidSignatureS s)
  let signer := crypto.ecrecover hash v r s
  require (signer ≠ 0) .invalidSignature
  pure signer

/-! ## Typed data -/

/-- The bytes of an ASCII literal. -/
def literalBytes (literal : String) : Bytes :=
  literal.toList.map fun c => Fin.ofNat _ c.toNat

/-- The twenty bytes of an address in `abi.encodePacked`. -/
def packedAddress (account : Address) : Bytes :=
  (List.range 20).map fun i => Fin.ofNat _ (account.val / 256 ^ (19 - i))

/-- What is hashed for a structure in a domain. -/
def typedDataBytes (domainSeparator structHash : Bytes32) : Bytes :=
  [0x19, 0x01] ++ abiWord domainSeparator ++ abiWord structHash

/-- The hash of a structure in a domain, as it is signed. -/
def typedDataHash (keccak256 : Keccak) (domainSeparator structHash : Bytes32) : Bytes32 :=
  keccak256 (typedDataBytes domainSeparator structHash)

theorem packedAddress_injective {account account' : Address}
    (h : packedAddress account = packedAddress account') : account = account' := by
  have hMod := mod_pow_eq_of_bytes 20 h
  have hWidth : (256 : Nat) ^ 20 = 2 ^ 160 := by norm_num
  rw [hWidth, Nat.mod_eq_of_lt account.isLt, Nat.mod_eq_of_lt account'.isLt] at hMod
  exact Fin.ext hMod

theorem typedDataBytes_injective {domainSeparator structHash structHash' : Bytes32}
    (h : typedDataBytes domainSeparator structHash =
      typedDataBytes domainSeparator structHash') : structHash = structHash' := by
  have hWord := (List.append_inj' h (by simp)).2
  exact Fin.ext (abiWord_injective structHash.isLt structHash'.isLt hWord)

/-! ## A concrete platform

For the statements about single runs: in place of elliptic curves, a scheme in which `r`
names the signer and `s` has to repeat the low half of the hash. -/

def namedSignerCrypto : Crypto where
  keccak256 := polynomialHash
  ecrecover := fun hash _ r s =>
    if s.val = hash.val % 2 ^ 128 then Fin.ofNat _ r.val else 0

end Prsm.Evm

/-!
# A contract that keeps tokens for others

What a contract owes is covered if it holds at least that much of the token.  A call moves
what is owed and the tokens in one of three ways, and each of them keeps the cover of a
contract that has approved nobody.
-/

namespace Prsm.Evm

open Foundations

/-- A call of a contract that owed `owed` before it and owes `owed'` after it. -/
inductive OwedMove (self : Address) (owed : Nat) (t : Token) (owed' : Nat) (t' : Token) : Prop
  | internal (hToken : t' = t) (hOwed : owed' ≤ owed)
  | deposit {owner : Address} {declines : Bool} {amount : Nat} (hPositive : 0 < amount)
      (hToken : t.transferFrom declines self owner self amount = .ok (true, t'))
      (hOwed : owed' ≤ owed + amount)
  | payment {recipient : Address} {declines : Bool} {amount : Nat}
      (hToken : t.transfer declines self recipient amount = .ok (true, t'))
      (hOwed : owed' + amount ≤ owed)

theorem OwedMove.covered {self : Address} {owed owed' : Nat} {t t' : Token}
    (hMove : OwedMove self owed t owed' t') (hUnspendable : t.Unspendable self)
    (hCovered : owed ≤ t.balanceOf self) :
    owed' ≤ t'.balanceOf self ∧ t'.Unspendable self := by
  cases hMove with
  | internal hToken hOwed =>
      subst hToken
      exact ⟨hOwed.trans hCovered, hUnspendable⟩
  | @deposit owner _ amount hPositive hToken hOwed =>
      obtain ⟨hAllowance, -, hBalance, hAllowances⟩ := Token.transferFrom_eq_true hToken
      -- The contract has approved nobody, so it cannot be made to pay itself.
      have hOwner : owner ≠ self := by
        rintro rfl
        rw [hUnspendable] at hAllowance
        omega
      constructor
      · rw [hBalance, Token.move_balanceOf_recipient hOwner]
        omega
      · intro spender
        have hLe := hAllowances self spender
        rw [hUnspendable] at hLe
        omega
  | @payment recipient _ amount hToken hOwed =>
      obtain ⟨hBalance, rfl⟩ := Token.transfer_eq_true hToken
      have hKept := @Token.le_move_balanceOf_sender t self recipient amount hBalance
      exact ⟨by omega, hUnspendable⟩

end Prsm.Evm
