import Prsm.BridgeSecurity.Operations
import Prsm.Foundations.KeyedEntries

/-!
# What the two signature loops count

Each entry of a list of signatures has a verdict: it verifies, it recovers to somebody
else, or it cannot be recovered and reverts.  `verifyBridgeSignatures` lets the first entry
of a validator decide about the validator, and `checkBridgeSignatures` the first that does
not recover to somebody else.  Both count the validators that are decided for, and both
revert when a validator is decided by an entry that reverts.
-/

namespace Prsm.BridgeSecurity

open Foundations Evm

/-! ## Verdicts -/

/-- The entries of a list of signatures by validator. -/
def verdicts (crypto : Crypto) (messageHash : Bytes32) (signatures : List ValidatorSignature) :
    List (Address × Except Error Bool) :=
  signatures.map fun sig => (sig.validator, verifySignature crypto messageHash sig)

def isAccepted : Except Error Bool → Bool
  | .ok sigValid => sigValid
  | .error _ => false

def isMalformed : Except Error Bool → Bool
  | .ok _ => false
  | .error _ => true

/-- Not a signature of somebody else, which `checkBridgeSignatures` passes over. -/
def isDecisive : Except Error Bool → Bool
  | .ok sigValid => sigValid
  | .error _ => true

theorem isDecisive_of_isAccepted (verdict : Except Error Bool) (h : isAccepted verdict = true) :
    isDecisive verdict = true := by
  cases verdict with
  | error e => rfl
  | ok sigValid => exact h

theorem isDecisive_of_isMalformed (verdict : Except Error Bool) (h : isMalformed verdict = true) :
    isDecisive verdict = true := by
  cases verdict with
  | error e => rfl
  | ok sigValid => cases h

/-- The registered validators whose first entry verifies. -/
def signers (crypto : Crypto) (s : State) (messageHash : Bytes32)
    (signatures : List ValidatorSignature) : Finset Address :=
  keysDecided (fun _ => true) isAccepted s.isValidator [] (verdicts crypto messageHash signatures)

/-- The registered validators whose first entry reverts. -/
def malformedSigners (crypto : Crypto) (s : State) (messageHash : Bytes32)
    (signatures : List ValidatorSignature) : Finset Address :=
  keysDecided (fun _ => true) isMalformed s.isValidator [] (verdicts crypto messageHash signatures)

/-! ## The loop of `verifyBridgeSignatures` -/

section Verify

variable {crypto : Crypto} {s : State} {messageHash : Bytes32}
  {earlier rest : List ValidatorSignature} {sig : ValidatorSignature} {count : Nat}
  {events : List Event}

theorem verifyEntry_cases (crypto : Crypto) (s : State) (messageHash : Bytes32)
    (earlier : List ValidatorSignature) (sig : ValidatorSignature) (count : Nat)
    (events : List Event) :
    ((s.isValidator sig.validator = false ∨ sig.validator ∈ earlier.map (·.validator)) ∧
      ∃ events', verifyEntry crypto s messageHash earlier sig count events =
        .ok (count, events')) ∨
    (s.isValidator sig.validator = true ∧ sig.validator ∉ earlier.map (·.validator) ∧
      ((∃ e, verifySignature crypto messageHash sig = .error e ∧
          verifyEntry crypto s messageHash earlier sig count events = .error e) ∨
        (verifySignature crypto messageHash sig = .ok true ∧
          verifyEntry crypto s messageHash earlier sig count events = .ok (count + 1, events)) ∨
        (verifySignature crypto messageHash sig = .ok false ∧
          ∃ events', verifyEntry crypto s messageHash earlier sig count events =
            .ok (count, events')))) := by
  unfold verifyEntry
  by_cases hValidator : s.isValidator sig.validator = false
  · exact .inl ⟨.inl hValidator, _, if_pos hValidator⟩
  rw [if_neg hValidator]
  by_cases hEarlier : sig.validator ∈ earlier.map (·.validator)
  · exact .inl ⟨.inr hEarlier, _, if_pos hEarlier⟩
  rw [if_neg hEarlier]
  refine .inr ⟨by simpa using hValidator, hEarlier, ?_⟩
  cases hVerdict : verifySignature crypto messageHash sig with
  | error e => exact .inl ⟨e, rfl, rfl⟩
  | ok sigValid =>
      cases sigValid with
      | true => exact .inr (.inl ⟨rfl, rfl⟩)
      | false => exact .inr (.inr ⟨rfl, _, rfl⟩)

theorem verifyEntries_count {count' : Nat} {events' : List Event}
    (h : verifyEntries crypto s messageHash earlier rest count events = .ok (count', events')) :
    count' = count + (keysDecided (fun _ => true) isAccepted s.isValidator
      (earlier.map (·.validator)) (verdicts crypto messageHash rest)).card := by
  -- The keys that are excluded are those of the entries the loop has passed.
  induction rest generalizing earlier count events with
  | nil =>
      simp only [verifyEntries, pure_eq_ok_iff, Prod.mk.injEq] at h
      simp [verdicts, h.1]
  | cons sig rest ih =>
      simp only [verifyEntries, bind_eq_ok_iff] at h
      obtain ⟨⟨next, nextEvents⟩, hEntry, hRest⟩ := h
      have hNext := ih hRest
      simp only [List.map_append, List.map_cons, List.map_nil] at hNext
      simp only [verdicts, List.map_cons] at hNext ⊢
      rcases verifyEntry_cases crypto s messageHash earlier sig count events with
        ⟨hExcluded, events₁, hOk⟩ | ⟨hValidator, hFresh, hVerdict⟩
      · obtain ⟨rfl, rfl⟩ := Prod.mk.inj (Except.ok.inj (hEntry.symm.trans hOk))
        rw [keysDecided_skip_of_excluded hExcluded] at hNext
        rw [hNext, keysDecided_cons_of_excluded hExcluded]
      · rcases hVerdict with ⟨e, -, hError⟩ | ⟨hTrue, hOk⟩ | ⟨hFalse, events₁, hOk⟩
        · rw [hError] at hEntry
          cases hEntry
        · obtain ⟨rfl, rfl⟩ := Prod.mk.inj (Except.ok.inj (hEntry.symm.trans hOk))
          rw [hNext, hTrue, card_keysDecided_cons_of_good rfl rfl hValidator hFresh]
          omega
        · obtain ⟨rfl, rfl⟩ := Prod.mk.inj (Except.ok.inj (hEntry.symm.trans hOk))
          rw [hNext, hFalse, keysDecided_cons_of_bad rfl rfl]

theorem verifyEntries_error_iff :
    (∃ e, verifyEntries crypto s messageHash earlier rest count events = .error e) ↔
      (keysDecided (fun _ => true) isMalformed s.isValidator (earlier.map (·.validator))
        (verdicts crypto messageHash rest)).Nonempty := by
  induction rest generalizing earlier count events with
  | nil => simp [verifyEntries, verdicts]
  | cons sig rest ih =>
      simp only [verifyEntries]
      simp only [verdicts, List.map_cons]
      rcases verifyEntry_cases crypto s messageHash earlier sig count events with
        ⟨hExcluded, events₁, hOk⟩ | ⟨hValidator, hFresh, hVerdict⟩
      · have hNext := @ih (earlier ++ [sig]) count events₁
        simp only [List.map_append, List.map_cons, List.map_nil] at hNext
        rw [keysDecided_skip_of_excluded hExcluded] at hNext
        rw [hOk, keysDecided_cons_of_excluded hExcluded]
        exact hNext
      · rcases hVerdict with ⟨e, hMalformed, hError⟩ | ⟨hTrue, hOk⟩ | ⟨hFalse, events₁, hOk⟩
        · have hMem : sig.validator ∈ keysDecided (fun _ => true) isMalformed s.isValidator
              (earlier.map (·.validator)) ((sig.validator, .error e) ::
                rest.map fun sig => (sig.validator, verifySignature crypto messageHash sig)) := by
            rw [keysDecided_cons_of_good rfl rfl hValidator hFresh]
            exact Finset.mem_insert_self _ _
          rw [hError, hMalformed]
          exact ⟨fun _ => ⟨_, hMem⟩, fun _ => ⟨e, rfl⟩⟩
        · have hNext := @ih (earlier ++ [sig]) (count + 1) events
          simp only [List.map_append, List.map_cons, List.map_nil] at hNext
          rw [hOk, hTrue, keysDecided_cons_of_bad]
          · exact hNext
          · rfl
          · rfl
        · have hNext := @ih (earlier ++ [sig]) count events₁
          simp only [List.map_append, List.map_cons, List.map_nil] at hNext
          rw [hOk, hFalse, keysDecided_cons_of_bad]
          · exact hNext
          · rfl
          · rfl

end Verify

/-! ## The loop of `checkBridgeSignatures` -/

section Check

variable {crypto : Crypto} {s : State} {messageHash : Bytes32} {rest : List ValidatorSignature}
  {seen : List Address}

theorem checkEntry_cases (crypto : Crypto) (s : State) (messageHash : Bytes32)
    (seen : List Address) (sig : ValidatorSignature) :
    ((s.isValidator sig.validator = false ∨ sig.validator ∈ seen) ∧
      checkEntry crypto s messageHash seen sig = .ok seen) ∨
    (s.isValidator sig.validator = true ∧ sig.validator ∉ seen ∧
      ((∃ e, verifySignature crypto messageHash sig = .error e ∧
          checkEntry crypto s messageHash seen sig = .error e) ∨
        (verifySignature crypto messageHash sig = .ok true ∧
          checkEntry crypto s messageHash seen sig = .ok (seen ++ [sig.validator])) ∨
        (verifySignature crypto messageHash sig = .ok false ∧
          checkEntry crypto s messageHash seen sig = .ok seen))) := by
  unfold checkEntry
  by_cases hValidator : s.isValidator sig.validator = false
  · exact .inl ⟨.inl hValidator, if_pos hValidator⟩
  rw [if_neg hValidator]
  by_cases hSeen : sig.validator ∈ seen
  · exact .inl ⟨.inr hSeen, if_pos hSeen⟩
  rw [if_neg hSeen]
  refine .inr ⟨by simpa using hValidator, hSeen, ?_⟩
  cases hVerdict : verifySignature crypto messageHash sig with
  | error e => exact .inl ⟨e, rfl, rfl⟩
  | ok sigValid =>
      cases sigValid with
      | true => exact .inr (.inl ⟨rfl, rfl⟩)
      | false => exact .inr (.inr ⟨rfl, rfl⟩)

theorem checkEntries_length {seen' : List Address}
    (h : checkEntries crypto s messageHash rest seen = .ok seen') :
    seen'.length = seen.length + (keysDecided isDecisive isAccepted s.isValidator seen
      (verdicts crypto messageHash rest)).card := by
  -- Here the excluded keys are those that the view has seen valid.
  induction rest generalizing seen with
  | nil =>
      simp only [checkEntries, pure_eq_ok_iff] at h
      simp [verdicts, h]
  | cons sig rest ih =>
      simp only [checkEntries, bind_eq_ok_iff] at h
      obtain ⟨next, hEntry, hRest⟩ := h
      have hNext := ih hRest
      simp only [verdicts, List.map_cons] at hNext ⊢
      rcases checkEntry_cases crypto s messageHash seen sig with
        ⟨hExcluded, hOk⟩ | ⟨hValidator, hFresh, hVerdict⟩
      · obtain rfl := Except.ok.inj (hEntry.symm.trans hOk)
        rw [hNext, keysDecided_cons_of_excluded hExcluded]
      · rcases hVerdict with ⟨e, -, hError⟩ | ⟨hTrue, hOk⟩ | ⟨hFalse, hOk⟩
        · rw [hError] at hEntry
          cases hEntry
        · obtain rfl := Except.ok.inj (hEntry.symm.trans hOk)
          rw [hNext, hTrue, card_keysDecided_cons_of_good rfl rfl hValidator hFresh]
          simp only [List.length_append, List.length_singleton]
          omega
        · obtain rfl := Except.ok.inj (hEntry.symm.trans hOk)
          -- An invalid entry decides nothing: the validator may still be seen.
          rw [hNext, hFalse, keysDecided_cons_of_not_decisive rfl]

theorem checkEntries_error_iff :
    (∃ e, checkEntries crypto s messageHash rest seen = .error e) ↔
      (keysDecided isDecisive isMalformed s.isValidator seen
        (verdicts crypto messageHash rest)).Nonempty := by
  induction rest generalizing seen with
  | nil => simp [checkEntries, verdicts]
  | cons sig rest ih =>
      simp only [checkEntries]
      simp only [verdicts, List.map_cons]
      rcases checkEntry_cases crypto s messageHash seen sig with
        ⟨hExcluded, hOk⟩ | ⟨hValidator, hFresh, hVerdict⟩
      · rw [hOk, keysDecided_cons_of_excluded hExcluded]
        exact ih
      · rcases hVerdict with ⟨e, hMalformed, hError⟩ | ⟨hTrue, hOk⟩ | ⟨hFalse, hOk⟩
        · have hMem : sig.validator ∈ keysDecided isDecisive isMalformed s.isValidator seen
              ((sig.validator, .error e) ::
                rest.map fun sig => (sig.validator, verifySignature crypto messageHash sig)) := by
            rw [keysDecided_cons_of_good rfl rfl hValidator hFresh]
            exact Finset.mem_insert_self _ _
          rw [hError, hMalformed]
          exact ⟨fun _ => ⟨_, hMem⟩, fun _ => ⟨e, rfl⟩⟩
        · rw [hOk, hTrue, keysDecided_cons_of_bad]
          · exact ih
          · rfl
          · rfl
        · rw [hOk, hFalse, keysDecided_cons_of_not_decisive rfl]
          exact ih

end Check

/-! ## The two functions -/

section Functions

variable {crypto : Crypto} {env : Env} {s : State} {m : BridgeMessage}
  {signatures : List ValidatorSignature}

/-- Neither the message nor its nonce has been used, and there are enough entries. -/
structure Countable (crypto : Crypto) (env : Env) (s : State) (m : BridgeMessage)
    (signatures : List ValidatorSignature) : Prop where
  unprocessed : s.processedBridgeTx (hashBridgeMessage crypto env s m) = false
  unused : s.usedNonces m.sourceChainId m.nonce = false
  enough : s.signatureThreshold ≤ signatures.length

theorem countBridgeSignatures_iff {count : Nat} :
    (∃ events, countBridgeSignatures crypto env s m signatures = .ok (count, events)) ↔
      Countable crypto env s m signatures ∧
        malformedSigners crypto s (hashBridgeMessage crypto env s m) signatures = ∅ ∧
        count = (signers crypto s (hashBridgeMessage crypto env s m) signatures).card := by
  simp only [countBridgeSignatures, bind_eq_ok_iff, require_eq_ok_iff]
  have hReverts : (∃ e, verifyEntries crypto s (hashBridgeMessage crypto env s m) [] signatures
      0 [] = .error e) ↔
        (malformedSigners crypto s (hashBridgeMessage crypto env s m) signatures).Nonempty :=
    verifyEntries_error_iff
  constructor
  · rintro ⟨events, -, hUnprocessed, -, hUnused, -, hEnough, hEntries⟩
    refine ⟨⟨hUnprocessed, hUnused, hEnough⟩, ?_, ?_⟩
    · rw [← Finset.not_nonempty_iff_eq_empty]
      intro hMalformed
      obtain ⟨e, hError⟩ := hReverts.mpr hMalformed
      rw [hError] at hEntries
      cases hEntries
    · have hCount := verifyEntries_count hEntries
      rw [Nat.zero_add] at hCount
      exact hCount
  · rintro ⟨hCountable, hWellFormed, rfl⟩
    cases hEntries : verifyEntries crypto s (hashBridgeMessage crypto env s m) [] signatures 0 []
      with
    | error e =>
        have hMalformed := hReverts.mp ⟨e, hEntries⟩
        rw [← Finset.not_nonempty_iff_eq_empty] at hWellFormed
        exact absurd hMalformed hWellFormed
    | ok result =>
        obtain ⟨count, events⟩ := result
        have hCount := verifyEntries_count hEntries
        rw [Nat.zero_add] at hCount
        refine ⟨events, (), hCountable.unprocessed, (), hCountable.unused, (),
          hCountable.enough, ?_⟩
        rw [hCount]
        rfl

variable {result : Verification}

theorem verifyBridgeSignatures_accepts_iff :
    verifyBridgeSignatures crypto env s m signatures = .ok result ∧ result.isValid = true ↔
      ∃ count events, countBridgeSignatures crypto env s m signatures = .ok (count, events) ∧
        s.signatureThreshold ≤ count ∧
        result = ⟨hashBridgeMessage crypto env s m, true,
          s.consume (hashBridgeMessage crypto env s m) m,
          events ++ [.bridgeTransactionVerified (hashBridgeMessage crypto env s m) m count]⟩ := by
  constructor
  · rintro ⟨hVerify, hValid⟩
    simp only [verifyBridgeSignatures, bind_eq_ok_iff] at hVerify
    obtain ⟨⟨count, events⟩, hCount, hResult⟩ := hVerify
    split at hResult
    · obtain rfl := pure_eq_ok_iff.mp hResult
      cases hValid
    · obtain rfl := pure_eq_ok_iff.mp hResult
      exact ⟨count, events, hCount, by omega, rfl⟩
  · rintro ⟨count, events, hCount, hThreshold, rfl⟩
    refine ⟨?_, rfl⟩
    simp only [verifyBridgeSignatures, hCount, ok_bind]
    rw [if_neg (Nat.not_lt.mpr hThreshold)]
    rfl

theorem counted_of_accepted
    (hVerify : verifyBridgeSignatures crypto env s m signatures = .ok result)
    (hValid : result.isValid = true) :
    Countable crypto env s m signatures ∧
      malformedSigners crypto s (hashBridgeMessage crypto env s m) signatures = ∅ ∧
      s.signatureThreshold ≤
        (signers crypto s (hashBridgeMessage crypto env s m) signatures).card := by
  obtain ⟨count, events, hCount, hThreshold, -⟩ :=
    verifyBridgeSignatures_accepts_iff.mp ⟨hVerify, hValid⟩
  obtain ⟨hCountable, hRecovers, hCard⟩ := countBridgeSignatures_iff.mp ⟨events, hCount⟩
  exact ⟨hCountable, hRecovers, hCard ▸ hThreshold⟩

theorem not_enough_of_refused
    (hVerify : verifyBridgeSignatures crypto env s m signatures = .ok result)
    (hInvalid : result.isValid = false) :
    ¬ s.signatureThreshold ≤
        (signers crypto s (hashBridgeMessage crypto env s m) signatures).card := by
  simp only [verifyBridgeSignatures, bind_eq_ok_iff] at hVerify
  obtain ⟨⟨count, events⟩, hCount, hResult⟩ := hVerify
  obtain ⟨-, -, hCard⟩ := countBridgeSignatures_iff.mp ⟨events, hCount⟩
  split at hResult
  · omega
  · obtain rfl := pure_eq_ok_iff.mp hResult
    cases hInvalid

theorem verifyBridgeSignatures_of_not_valid
    (h : verifyBridgeSignatures crypto env s m signatures = .ok result)
    (hInvalid : result.isValid = false) : result.state = s := by
  simp only [verifyBridgeSignatures, bind_eq_ok_iff] at h
  obtain ⟨⟨count, events⟩, -, hResult⟩ := h
  split at hResult
  · obtain rfl := pure_eq_ok_iff.mp hResult
    rfl
  · obtain rfl := pure_eq_ok_iff.mp hResult
    cases hInvalid

end Functions

/-! ## The records of what was used -/

section Records

variable {crypto : Crypto} {env : Env} {s s' : State}

/-- A call of `verifyBridgeSignatures` with as many signers as the message needs. -/
def Consumes (crypto : Crypto) (env : Env) (s : State) : Call → Prop
  | .verifyBridgeSignatures m signatures =>
      s.signatureThreshold ≤ (signers crypto s (hashBridgeMessage crypto env s m) signatures).card
  | _ => False

theorem registerValidator_records {validator : Address} {events : List Event}
    (h : registerValidator s validator = .ok (s', events)) :
    s'.processedBridgeTx = s.processedBridgeTx ∧ s'.usedNonces = s.usedNonces := by
  simp only [registerValidator, bind_eq_ok_iff, require_eq_ok_iff, pure_eq_ok_iff,
    Prod.mk.injEq] at h
  obtain ⟨-, -, -, -, total, -, rfl, -⟩ := h
  exact ⟨rfl, rfl⟩

theorem registerValidators_records {validators : List Address} {events events' : List Event}
    (h : registerValidators validators s events = .ok (s', events')) :
    s'.processedBridgeTx = s.processedBridgeTx ∧ s'.usedNonces = s.usedNonces := by
  induction validators generalizing s events with
  | nil =>
      simp only [registerValidators, pure_eq_ok_iff, Prod.mk.injEq] at h
      obtain ⟨rfl, -⟩ := h
      exact ⟨rfl, rfl⟩
  | cons validator rest ih =>
      simp only [registerValidators, bind_eq_ok_iff] at h
      obtain ⟨⟨next, added⟩, hAdd, hRest⟩ := h
      obtain ⟨hProcessed, hNonces⟩ := registerValidator_records hAdd
      obtain ⟨hProcessed', hNonces'⟩ := ih hRest
      exact ⟨hProcessed'.trans hProcessed, hNonces'.trans hNonces⟩

theorem construct_records {self admin : Address} {threshold : Uint 256}
    {validators : List Address} (h : construct crypto env self admin threshold validators = .ok s) :
    s.processedBridgeTx = (fun _ => false) ∧ s.usedNonces = (fun _ _ => false) := by
  simp only [construct, bind_eq_ok_iff, require_eq_ok_iff, pure_eq_ok_iff] at h
  obtain ⟨-, -, -, -, ⟨registered, added⟩, hRegister, rfl⟩ := h
  exact registerValidators_records hRegister

theorem call_records {c : Call} {events : List Event}
    (h : call crypto env s c = .ok (s', events)) :
    (¬ Consumes crypto env s c ∧ s'.processedBridgeTx = s.processedBridgeTx ∧
      s'.usedNonces = s.usedNonces) ∨
    (Consumes crypto env s c ∧ ∃ m signatures, c = .verifyBridgeSignatures m signatures ∧
      Countable crypto env s m signatures ∧
      s' = s.consume (hashBridgeMessage crypto env s m) m) := by
  cases c with
  | verifyBridgeSignatures m signatures =>
      simp only [call, bind_eq_ok_iff, pure_eq_ok_iff, Prod.mk.injEq] at h
      obtain ⟨result, hVerify, rfl, -⟩ := h
      cases hValid : result.isValid with
      | true =>
          right
          obtain ⟨hCountable, -, hThreshold⟩ := counted_of_accepted hVerify hValid
          obtain ⟨count, signed, -, -, hResult⟩ :=
            verifyBridgeSignatures_accepts_iff.mp ⟨hVerify, hValid⟩
          exact ⟨hThreshold, m, signatures, rfl, hCountable,
            congrArg Verification.state hResult⟩
      | false =>
          left
          have hSame := verifyBridgeSignatures_of_not_valid hVerify hValid
          refine ⟨?_, by rw [hSame], by rw [hSame]⟩
          exact not_enough_of_refused hVerify hValid
  | addValidator validator =>
      simp only [call, addValidator, bind_eq_ok_iff] at h
      obtain ⟨-, -, hAdd⟩ := h
      exact .inl ⟨fun hConsumes => hConsumes, registerValidator_records hAdd⟩
  | removeValidator validator =>
      simp only [call, removeValidator, bind_eq_ok_iff] at h
      obtain ⟨-, -, -, -, total, -, hRemoved⟩ := h
      refine .inl ⟨fun hConsumes => hConsumes, ?_⟩
      split at hRemoved
      · obtain ⟨rfl, -⟩ := Prod.mk.inj (pure_eq_ok_iff.mp hRemoved)
        exact ⟨rfl, rfl⟩
      · obtain ⟨rfl, -⟩ := Prod.mk.inj (pure_eq_ok_iff.mp hRemoved)
        exact ⟨rfl, rfl⟩
  | setSignatureThreshold newThreshold =>
      simp only [call, setSignatureThreshold, bind_eq_ok_iff,
        pure_eq_ok_iff, Prod.mk.injEq] at h
      obtain ⟨-, -, -, -, rfl, -⟩ := h
      exact .inl ⟨fun hConsumes => hConsumes, rfl, rfl⟩
  | access accessCall =>
      simp only [call, bind_eq_ok_iff, pure_eq_ok_iff, Prod.mk.injEq] at h
      obtain ⟨access, -, rfl, -⟩ := h
      exact .inl ⟨fun hConsumes => hConsumes, rfl, rfl⟩

end Records

end Prsm.BridgeSecurity
