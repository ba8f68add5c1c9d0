import Prsm.Foundations.Reverting

/-!
# The platform the contracts run on

Machine words, addresses, the block a transaction runs in, the part of the
contract ABI that the settlement contracts hash, and the two access-control
mixins they inherit, `Ownable2Step` and `Pausable`.

Storage fields are kept as natural numbers.  Where the source narrows a value
with `uint64(x)` the model narrows it with `uint64`, and where it adds or
subtracts in checked arithmetic the model uses `checkedAdd` and `checkedSub`.
Calldata of a narrow type is a `Uint`, because the ABI decoder rejects a value
that does not fit.
-/

namespace Prsm.Evm

open Foundations

/-- Unsigned integers of the given width. -/
abbrev Uint (bits : Nat) := Fin (2 ^ bits)

/-! The widths in use are positive.  Named, these facts keep numerals small. -/

instance neZero_uint8 : NeZero (2 ^ 8) := ⟨(Nat.two_pow_pos 8).ne'⟩
instance neZero_uint16 : NeZero (2 ^ 16) := ⟨(Nat.two_pow_pos 16).ne'⟩
instance neZero_uint32 : NeZero (2 ^ 32) := ⟨(Nat.two_pow_pos 32).ne'⟩
instance neZero_uint64 : NeZero (2 ^ 64) := ⟨(Nat.two_pow_pos 64).ne'⟩
instance neZero_uint128 : NeZero (2 ^ 128) := ⟨(Nat.two_pow_pos 128).ne'⟩
instance neZero_uint160 : NeZero (2 ^ 160) := ⟨(Nat.two_pow_pos 160).ne'⟩
instance neZero_uint256 : NeZero (2 ^ 256) := ⟨(Nat.two_pow_pos 256).ne'⟩

abbrev Address := Uint 160

abbrev Bytes32 := Uint 256

instance lawfulBEq_bytes32 : LawfulBEq Bytes32 := inferInstance

abbrev Bytes := List (Uint 8)

/-- The narrowing conversion `uint64(x)`. -/
def uint64 (x : Nat) : Nat := x % 2 ^ 64

theorem uint64_of_lt {x : Nat} (h : x < 2 ^ 64) : uint64 x = x :=
  Nat.mod_eq_of_lt h

theorem uint64_le (x : Nat) : uint64 x ≤ x :=
  Nat.mod_le x _

/-- The block a transaction is included in.  `timestamp` is Unix time in
seconds.  It is positive, since only the genesis block may carry `0` and no
transaction runs there, and headers carry it in 64 bits.  The contracts store
it, and its sum with a window of at most thirty days, in `uint64` fields;
`timestamp_lt` leaves the headroom for those sums. -/
structure Block where
  number : Nat
  timestamp : Nat
  timestamp_pos : 0 < timestamp
  timestamp_lt : timestamp < 2 ^ 63

/-! ## Hash preimages

`keccak256` itself is a parameter of every definition that hashes.  What the
contracts hash is `abi.encode` of tuples of static types, which is one
big-endian 32-byte word for each component. -/

/-- The hash function of the platform. -/
abbrev Keccak := Bytes → Bytes32

/-- One big-endian 32-byte word. -/
def abiWord (x : Nat) : Bytes :=
  (List.range 32).map fun i => Fin.ofNat _ (x / 256 ^ (31 - i))

/-- `abi.encode` of a tuple of static components, each given as a number. -/
def abiEncode (components : List Nat) : Bytes :=
  components.flatMap abiWord

@[simp] theorem length_abiWord (x : Nat) : (abiWord x).length = 32 := by
  simp [abiWord]

theorem mod_pow_eq_of_digits {b x y : Nat} (n : Nat)
    (h : ∀ i < n, x / b ^ i % b = y / b ^ i % b) : x % b ^ n = y % b ^ n := by
  induction n with
  | zero => simp [Nat.mod_one]
  | succ n ih =>
      have hLower := ih fun i hi => h i (Nat.lt_succ_of_lt hi)
      rw [Nat.mod_pow_succ, Nat.mod_pow_succ, hLower, h n (Nat.lt_succ_self n)]

theorem mod_pow_eq_of_bytes {x y : Nat} (n : Nat)
    (h : ((List.range n).map fun i => (Fin.ofNat (2 ^ 8) (x / 256 ^ (n - 1 - i)) : Uint 8)) =
      (List.range n).map fun i => Fin.ofNat (2 ^ 8) (y / 256 ^ (n - 1 - i))) :
    x % 256 ^ n = y % 256 ^ n := by
  apply mod_pow_eq_of_digits
  intro i hi
  have hByte := (List.map_inj_left.mp h) (n - 1 - i) (List.mem_range.mpr (by omega))
  rw [show n - 1 - (n - 1 - i) = i by omega] at hByte
  exact congrArg Fin.val hByte

theorem abiWord_injective {x y : Nat} (hx : x < 2 ^ 256) (hy : y < 2 ^ 256)
    (h : abiWord x = abiWord y) : x = y := by
  have hMod := mod_pow_eq_of_bytes 32 h
  have hWidth : (256 : Nat) ^ 32 = 2 ^ 256 := by norm_num
  rwa [hWidth, Nat.mod_eq_of_lt hx, Nat.mod_eq_of_lt hy] at hMod

theorem abiEncode_injective {xs ys : List Nat} (hLength : xs.length = ys.length)
    (hxs : ∀ x ∈ xs, x < 2 ^ 256) (hys : ∀ y ∈ ys, y < 2 ^ 256)
    (h : abiEncode xs = abiEncode ys) : xs = ys := by
  induction xs generalizing ys with
  | nil => exact (List.length_eq_zero_iff.mp hLength.symm).symm
  | cons x xs ih =>
      cases ys with
      | nil => cases hLength
      | cons y ys =>
          obtain ⟨hHead, hTail⟩ := List.append_inj h (by simp)
          have hSame :=
            abiWord_injective (hxs x List.mem_cons_self) (hys y List.mem_cons_self) hHead
          have hRest := ih (Nat.succ.inj hLength) (fun z hz => hxs z (List.mem_cons_of_mem _ hz))
            (fun z hz => hys z (List.mem_cons_of_mem _ hz)) hTail
          rw [hSame, hRest]

/-! ## Reverts raised by the platform and the inherited mixins -/

inductive PlatformError
  | panicArithmetic
  | enforcedPause
  | expectedPause
  | ownableInvalidOwner (owner : Address)
  | ownableUnauthorizedAccount (account : Address)
  deriving DecidableEq

/-! ## `Ownable2Step` -/

/-- Ownership moves in two steps: the owner names a successor, who accepts. -/
structure Ownable2Step where
  owner : Address
  pendingOwner : Address

namespace Ownable2Step

inductive Call
  | transferOwnership (newOwner : Address)
  | acceptOwnership
  | renounceOwnership

/-- The constructor rejects the zero address. -/
def construct (initialOwner : Address) : Except PlatformError Ownable2Step := do
  require (initialOwner ≠ 0) (.ownableInvalidOwner 0)
  pure { owner := initialOwner, pendingOwner := 0 }

/-- The `onlyOwner` modifier. -/
def onlyOwner (o : Ownable2Step) (sender : Address) : Except PlatformError Unit :=
  require (o.owner = sender) (.ownableUnauthorizedAccount sender)

def call (o : Ownable2Step) (sender : Address) : Call → Except PlatformError Ownable2Step
  | .transferOwnership newOwner => do
      o.onlyOwner sender
      pure { o with pendingOwner := newOwner }
  | .acceptOwnership => do
      require (o.pendingOwner = sender) (.ownableUnauthorizedAccount sender)
      pure { owner := sender, pendingOwner := 0 }
  | .renounceOwnership => do
      o.onlyOwner sender
      pure { owner := 0, pendingOwner := 0 }

end Ownable2Step

/-! ## `Pausable` -/

/-- The `whenNotPaused` modifier. -/
def whenNotPaused (paused : Bool) : Except PlatformError Unit :=
  require (paused = false) .enforcedPause

/-- The `whenPaused` modifier. -/
def whenPaused (paused : Bool) : Except PlatformError Unit :=
  require (paused = true) .expectedPause

@[simp] theorem whenNotPaused_eq_ok_iff {paused : Bool} {u : Unit} :
    whenNotPaused paused = .ok u ↔ paused = false :=
  require_eq_ok_iff

@[simp] theorem whenPaused_eq_ok_iff {paused : Bool} {u : Unit} :
    whenPaused paused = .ok u ↔ paused = true :=
  require_eq_ok_iff

/-! ## A concrete platform

For the statements about single runs: a hash function in place of `keccak256`,
which no definition fixes, and blocks numbered by their time. -/

def polynomialHash : Keccak := fun bytes =>
  Fin.ofNat _ (bytes.foldl (fun acc byte => acc * 257 + byte.val + 1) 7)

/-- The block of the given time, or the first one where that is out of range. -/
def smallBlock (timestamp : Nat) : Block :=
  if h : 0 < timestamp ∧ timestamp < 2 ^ 63 then ⟨timestamp, timestamp, h.1, h.2⟩
  else ⟨1, 1, Nat.one_pos, Nat.one_lt_two_pow (by decide)⟩

end Prsm.Evm
