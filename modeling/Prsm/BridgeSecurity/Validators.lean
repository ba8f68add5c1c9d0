import Mathlib.Data.Fintype.Card
import Mathlib.Data.Fintype.Fin
import Prsm.BridgeSecurity.Operations
import Prsm.Foundations.Machine

/-!
# The set of validators and the threshold

The counter agrees with the flags, and the threshold stays between one and the counter.
Removal brings the threshold down, but not to zero: without validators it is still one, and
no message passes until one is added.
-/

namespace Prsm.BridgeSecurity

open Foundations Evm

/-- The addresses that carry the flag. -/
def flagged (isValidator : Address → Bool) : Finset Address := {a | isValidator a = true}

@[simp] theorem mem_flagged {isValidator : Address → Bool} {a : Address} :
    a ∈ flagged isValidator ↔ isValidator a = true := by
  simp [flagged]

theorem flagged_update_true (isValidator : Address → Bool) (a : Address) :
    flagged (Function.update isValidator a true) = insert a (flagged isValidator) := by
  ext b
  by_cases hb : b = a <;> simp [hb]

theorem flagged_update_false (isValidator : Address → Bool) (a : Address) :
    flagged (Function.update isValidator a false) = (flagged isValidator).erase a := by
  ext b
  by_cases hb : b = a <;> simp [hb]

/-- The counter counts the flags. -/
def State.Counted (s : State) : Prop := s.totalValidators = (flagged s.isValidator).card

/-- And the threshold lies in its range, where the last validator that left leaves it at
one. -/
structure State.ValidatorsSound (s : State) : Prop where
  counted : s.Counted
  threshold_pos : 1 ≤ s.signatureThreshold
  threshold_le : s.signatureThreshold ≤ max s.totalValidators 1

variable {env : Env} {s s' : State} {events : List Event}

theorem registerValidator_spec {validator : Address}
    (h : registerValidator s validator = .ok (s', events)) (hCounted : s.Counted) :
    s'.Counted ∧ s'.totalValidators = s.totalValidators + 1 ∧
      s'.signatureThreshold = s.signatureThreshold := by
  simp only [registerValidator, bind_eq_ok_iff, require_eq_ok_iff, checkedAdd_eq_ok_iff] at h
  obtain ⟨_, -, _, hNew, total, ⟨-, rfl⟩, h⟩ := h
  cases h
  have hFresh : validator ∉ flagged s.isValidator := by simp [hNew]
  refine ⟨?_, rfl, rfl⟩
  rw [State.Counted, flagged_update_true, Finset.card_insert_of_notMem hFresh]
  exact congrArg (· + 1) hCounted

theorem removeValidator_sound {validator : Address} (hSound : s.ValidatorsSound)
    (h : removeValidator env s validator = .ok (s', events)) : s'.ValidatorsSound := by
  simp only [removeValidator, bind_eq_ok_iff, require_eq_ok_iff, checkedSub_eq_ok_iff] at h
  obtain ⟨_, -, _, hFlag, total, ⟨hSome, rfl⟩, h⟩ := h
  have hMem : validator ∈ flagged s.isValidator := mem_flagged.mpr hFlag
  have hCard : s.totalValidators - 1 =
      (flagged (Function.update s.isValidator validator false)).card := by
    rw [flagged_update_false, Finset.card_erase_of_mem hMem, hSound.counted]
  have hLow := hSound.threshold_pos
  have hHigh := hSound.threshold_le
  -- the threshold comes down unless the counter has reached zero
  split at h
  case isTrue hLower =>
    cases h
    refine ⟨hCard, ?_, ?_⟩
    · show 1 ≤ s.totalValidators - 1
      omega
    · show s.totalValidators - 1 ≤ max (s.totalValidators - 1) 1
      omega
  case isFalse hKeep =>
    cases h
    refine ⟨hCard, hLow, ?_⟩
    show s.signatureThreshold ≤ max (s.totalValidators - 1) 1
    omega

theorem setSignatureThreshold_sound {newThreshold : Uint 256} (hSound : s.ValidatorsSound)
    (h : setSignatureThreshold env s newThreshold = .ok (s', events)) : s'.ValidatorsSound := by
  simp only [setSignatureThreshold, bind_eq_ok_iff, require_eq_ok_iff] at h
  obtain ⟨_, -, _, hRange, h⟩ := h
  cases h
  refine ⟨hSound.counted, ?_, ?_⟩
  · show 1 ≤ newThreshold.val
    omega
  · show newThreshold.val ≤ max s.totalValidators 1
    omega

theorem verifyBridgeSignatures_sound {crypto : Crypto} {m : BridgeMessage}
    {signatures : List ValidatorSignature} {result : Verification} (hSound : s.ValidatorsSound)
    (h : verifyBridgeSignatures crypto env s m signatures = .ok result) :
    result.state.ValidatorsSound := by
  simp only [verifyBridgeSignatures, bind_eq_ok_iff] at h
  obtain ⟨counted, -, h⟩ := h
  split at h
  · cases h
    exact hSound
  · cases h
    exact ⟨hSound.counted, hSound.threshold_pos, hSound.threshold_le⟩

theorem call_sound {crypto : Crypto} {c : Call} (hSound : s.ValidatorsSound)
    (h : call crypto env s c = .ok (s', events)) : s'.ValidatorsSound := by
  cases c with
  | verifyBridgeSignatures m signatures =>
      obtain ⟨result, hResult, h⟩ := bind_eq_ok_iff.mp h
      cases h
      exact verifyBridgeSignatures_sound hSound hResult
  | addValidator validator =>
      obtain ⟨_, -, h⟩ := bind_eq_ok_iff.mp h
      obtain ⟨hCounted, hTotal, hSame⟩ := registerValidator_spec h hSound.counted
      have hLow := hSound.threshold_pos
      have hHigh := hSound.threshold_le
      exact ⟨hCounted, by omega, by omega⟩
  | removeValidator validator => exact removeValidator_sound hSound h
  | setSignatureThreshold newThreshold => exact setSignatureThreshold_sound hSound h
  | access accessCall =>
      obtain ⟨access, -, h⟩ := bind_eq_ok_iff.mp h
      cases h
      exact ⟨hSound.counted, hSound.threshold_pos, hSound.threshold_le⟩

theorem registerValidators_spec {validators : List Address}
    (h : registerValidators validators s events = .ok (s', events')) (hCounted : s.Counted) :
    s'.Counted ∧ s'.totalValidators = s.totalValidators + validators.length ∧
      s'.signatureThreshold = s.signatureThreshold := by
  induction validators generalizing s events with
  | nil =>
      cases h
      exact ⟨hCounted, rfl, rfl⟩
  | cons validator rest ih =>
      obtain ⟨⟨next, added⟩, hNext, h⟩ := bind_eq_ok_iff.mp h
      obtain ⟨hCountedNext, hTotalNext, hSameNext⟩ := registerValidator_spec hNext hCounted
      obtain ⟨hDone, hTotal, hSame⟩ := ih h hCountedNext
      refine ⟨hDone, ?_, hSame.trans hSameNext⟩
      rw [hTotal, hTotalNext, List.length_cons]
      omega

theorem construct_sound {crypto : Crypto} {self admin : Address} {initialThreshold : Uint 256}
    {initialValidators : List Address}
    (h : construct crypto env self admin initialThreshold initialValidators = .ok s) :
    s.ValidatorsSound := by
  simp only [construct, bind_eq_ok_iff, require_eq_ok_iff] at h
  obtain ⟨_, -, _, hRange, ⟨filled, added⟩, hFilled, h⟩ := h
  cases h
  obtain ⟨hCounted, hTotal, hSame⟩ := registerValidators_spec hFilled
    (by simp [State.Counted, flagged])
  have hTotal : filled.totalValidators = initialValidators.length := hTotal.trans (Nat.zero_add _)
  have hSame : filled.signatureThreshold = initialThreshold.val := hSame
  refine ⟨hCounted, ?_, ?_⟩
  · show 1 ≤ filled.signatureThreshold
    omega
  · show filled.signatureThreshold ≤ max filled.totalValidators 1
    omega

/-- One transaction to the contract. -/
def validatorMachine (crypto : Crypto) : Machine State (Env × Call) where
  step s i :=
    match call crypto i.1 s i.2 with
    | .ok (s', _) => some s'
    | .error _ => none

/-- The counter is the number of validators, and the threshold is between one and it, or
one when no validator is left. -/
theorem threshold_bounds (crypto : Crypto) (env : Env) (self admin : Address)
    (initialThreshold : Uint 256) (initialValidators : List Address) (s₀ : State)
    (hInit : construct crypto env self admin initialThreshold initialValidators = .ok s₀)
    (inputs : List (Env × Call)) :
    let s := (validatorMachine crypto).run s₀ inputs
    s.totalValidators = (flagged s.isValidator).card ∧ 1 ≤ s.signatureThreshold ∧
      (s.signatureThreshold ≤ s.totalValidators ∨
        s.totalValidators = 0 ∧ s.signatureThreshold = 1) := by
  have hSound : ((validatorMachine crypto).run s₀ inputs).ValidatorsSound := by
    refine (validatorMachine crypto).run_invariant State.ValidatorsSound ?_
      (construct_sound hInit) inputs
    intro s i s' hSound hStep
    simp only [validatorMachine] at hStep
    split at hStep
    case h_1 hCall =>
      cases hStep
      exact call_sound hSound hCall
    case h_2 => cases hStep
  have hLow := hSound.threshold_pos
  have hHigh := hSound.threshold_le
  exact ⟨hSound.counted, hLow, by omega⟩

def soleValidatorBridge : Except Error State :=
  construct namedSignerCrypto ⟨1, 1⟩ 9 1 1 [2]

/-- The last validator leaves: nobody is left, and the threshold is one. -/
theorem threshold_above_count :
    ∃ s₀, soleValidatorBridge = .ok s₀ ∧
      let s := (validatorMachine namedSignerCrypto).run s₀ [(⟨1, 1⟩, .removeValidator 2)]
      ¬ s.signatureThreshold ≤ s.totalValidators :=
  ⟨_, rfl, by decide +kernel⟩

theorem threshold_bounds_sole :
    ∃ s₀, soleValidatorBridge = .ok s₀ ∧
      let s := (validatorMachine namedSignerCrypto).run s₀ [(⟨1, 1⟩, .addValidator 3)]
      s.totalValidators = (flagged s.isValidator).card ∧ 1 ≤ s.signatureThreshold ∧
        (s.signatureThreshold ≤ s.totalValidators ∨
          s.totalValidators = 0 ∧ s.signatureThreshold = 1) :=
  ⟨_, rfl, threshold_bounds namedSignerCrypto ⟨1, 1⟩ 9 1 1 [2] _ rfl [(⟨1, 1⟩, .addValidator 3)]⟩

end Prsm.BridgeSecurity
