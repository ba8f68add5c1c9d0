import Prsm.BridgeSecurity.SignatureCounts

/-!
# When the view agrees with the transaction

`checkBridgeSignatures` is there to be asked before `verifyBridgeSignatures` is called. The two
differ on a validator whose first entry was signed by somebody else and who has another entry
further on: the transaction passes over the other entry as a duplicate, and the view goes by it.
-/

namespace Prsm.BridgeSecurity

open Foundations Evm

/-- The view reports a valid message exactly when the transaction would accept it, and
reports the count that the transaction gets to. -/
def ViewAgrees (crypto : Crypto) (env : Env) (s : State) (m : BridgeMessage)
    (signatures : List ValidatorSignature) : Prop :=
  ((∃ count, checkBridgeSignatures crypto env s m signatures = .ok (true, count)) ↔
    ∃ result, verifyBridgeSignatures crypto env s m signatures = .ok result ∧
      result.isValid = true) ∧
  ∀ count events, countBridgeSignatures crypto env s m signatures = .ok (count, events) →
    ∃ valid, checkBridgeSignatures crypto env s m signatures = .ok (valid, count)

variable {crypto : Crypto} {env : Env} {s : State} {m : BridgeMessage} {messageHash : Bytes32}
  {signatures : List ValidatorSignature}

/-- The registered validators whose first decisive entry verifies. -/
def seenSigners (crypto : Crypto) (s : State) (messageHash : Bytes32)
    (signatures : List ValidatorSignature) : Finset Address :=
  keysDecided isDecisive isAccepted s.isValidator [] (verdicts crypto messageHash signatures)

/-- The registered validators whose first decisive entry reverts. -/
def malformedSeen (crypto : Crypto) (s : State) (messageHash : Bytes32)
    (signatures : List ValidatorSignature) : Finset Address :=
  keysDecided isDecisive isMalformed s.isValidator [] (verdicts crypto messageHash signatures)

theorem seenSigners_card_le (crypto : Crypto) (s : State) (messageHash : Bytes32)
    (signatures : List ValidatorSignature) :
    (seenSigners crypto s messageHash signatures).card ≤ signatures.length :=
  calc (seenSigners crypto s messageHash signatures).card
      ≤ (verdicts crypto messageHash signatures).length := card_keysDecided_le
    _ = signatures.length := List.length_map _

theorem checkBridgeSignatures_iff {valid : Bool} {count : Nat}
    (hUnprocessed : s.processedBridgeTx (hashBridgeMessage crypto env s m) = false)
    (hUnused : s.usedNonces m.sourceChainId m.nonce = false) :
    checkBridgeSignatures crypto env s m signatures = .ok (valid, count) ↔
      malformedSeen crypto s (hashBridgeMessage crypto env s m) signatures = ∅ ∧
        count = (seenSigners crypto s (hashBridgeMessage crypto env s m) signatures).card ∧
        (valid = true ↔ s.signatureThreshold ≤ count) := by
  have hError : (∃ e, checkEntries crypto s (hashBridgeMessage crypto env s m) signatures [] =
      .error e) ↔ (malformedSeen crypto s (hashBridgeMessage crypto env s m) signatures).Nonempty :=
    checkEntries_error_iff
  simp only [checkBridgeSignatures, hUnprocessed, hUnused, Bool.false_eq_true, if_false,
    bind_eq_ok_iff, pure_eq_ok_iff, Prod.mk.injEq]
  cases hEntries : checkEntries crypto s (hashBridgeMessage crypto env s m) signatures [] with
  | error e =>
      have hMalformed := hError.mp ⟨e, hEntries⟩
      constructor
      · rintro ⟨seen, hOk, -⟩
        cases hOk
      · rintro ⟨hNone, -⟩
        exact absurd hNone hMalformed.ne_empty
  | ok seen =>
      have hWellFormed : malformedSeen crypto s (hashBridgeMessage crypto env s m) signatures =
          ∅ := by
        rw [← Finset.not_nonempty_iff_eq_empty]
        intro hMalformed
        obtain ⟨e, hFails⟩ := hError.mpr hMalformed
        rw [hEntries] at hFails
        cases hFails
      have hLength := checkEntries_length hEntries
      rw [List.length_nil, Nat.zero_add] at hLength
      constructor
      · rintro ⟨seen', hOk, hValid, hCount⟩
        obtain rfl := Except.ok.inj hOk
        refine ⟨hWellFormed, hCount.symm.trans hLength, ?_⟩
        rw [← hValid, ← hCount, decide_eq_true_iff]
      · rintro ⟨-, hCount, hValid⟩
        have hSame : seen.length = count := hLength.trans hCount.symm
        refine ⟨seen, rfl, ?_, hSame⟩
        rw [hSame, Bool.eq_iff_iff, decide_eq_true_iff, hValid]

theorem checkBridgeSignatures_of_used
    (hUsed : s.processedBridgeTx (hashBridgeMessage crypto env s m) = true ∨
      s.usedNonces m.sourceChainId m.nonce = true) :
    checkBridgeSignatures crypto env s m signatures = .ok (false, 0) := by
  unfold checkBridgeSignatures
  by_cases hProcessed : s.processedBridgeTx (hashBridgeMessage crypto env s m) = true
  · exact if_pos hProcessed
  · have hNonce := hUsed.resolve_left hProcessed
    simp only [if_neg hProcessed, if_pos hNonce]
    rfl

theorem firstDecides_iff
    (hRecovers : malformedSigners crypto s messageHash signatures = ∅) :
    FirstDecides isDecisive s.isValidator (verdicts crypto messageHash signatures) ↔
      malformedSeen crypto s messageHash signatures = ∅ ∧
        (seenSigners crypto s messageHash signatures).card =
          (signers crypto s messageHash signatures).card := by
  have hSubset : signers crypto s messageHash signatures ⊆
      seenSigners crypto s messageHash signatures :=
    keysDecided_subset isDecisive_of_isAccepted
  constructor
  · intro hFirst
    have hMalformed : malformedSeen crypto s messageHash signatures ⊆
        malformedSigners crypto s messageHash signatures := hFirst.keysDecided_subset
    have hSeen : seenSigners crypto s messageHash signatures ⊆
        signers crypto s messageHash signatures := hFirst.keysDecided_subset
    rw [hRecovers, Finset.subset_empty] at hMalformed
    exact ⟨hMalformed, congrArg Finset.card (Finset.Subset.antisymm hSeen hSubset)⟩
  · rintro ⟨hMalformed, hCard⟩
    -- The signers are seen in any case, so equal counts make the two sets equal.
    have hSame := Finset.eq_of_subset_of_card_le hSubset hCard.le
    intro validator first hValidator hHead hIndecisive later hLater
    by_contra hDecides
    -- Some later entry decides, so the validator is seen or makes the view revert.
    have hSome : (deciding isDecisive (verdicts crypto messageHash signatures)
        validator).isSome := by
      rw [deciding, List.find?_isSome]
      exact ⟨later, hLater, by simpa using hDecides⟩
    obtain ⟨verdict, hVerdict⟩ := Option.isSome_iff_exists.mp hSome
    cases verdict with
    | error e =>
        have hMem : validator ∈ malformedSeen crypto s messageHash signatures := by
          rw [malformedSeen, mem_keysDecided, hVerdict]
          exact ⟨hValidator, List.not_mem_nil, rfl⟩
        rw [hMalformed] at hMem
        exact absurd hMem (Finset.notMem_empty validator)
    | ok sigValid =>
        have hAccepted : sigValid = true := by
          have hDecisive := List.find?_some hVerdict
          exact hDecisive
        have hMem : validator ∈ seenSigners crypto s messageHash signatures := by
          rw [seenSigners, mem_keysDecided, hVerdict]
          exact ⟨hValidator, List.not_mem_nil, hAccepted⟩
        rw [← hSame, signers, mem_keysDecided, deciding_true, hHead] at hMem
        have hDecisive := isDecisive_of_isAccepted first hMem.2.2
        rw [hIndecisive] at hDecisive
        cases hDecisive

theorem malformedSigners_nonempty_iff :
    (malformedSigners crypto s messageHash signatures).Nonempty ↔
      ∃ validator e, s.isValidator validator = true ∧
        (valuesAt (verdicts crypto messageHash signatures) validator).head? =
          some (.error e) := by
  constructor
  · rintro ⟨validator, hMem⟩
    rw [malformedSigners, mem_keysDecided, deciding_true, Option.any_eq_true] at hMem
    obtain ⟨hValidator, -, verdict, hHead, hMalformed⟩ := hMem
    cases verdict with
    | error e => exact ⟨validator, e, hValidator, hHead⟩
    | ok sigValid => cases hMalformed
  · rintro ⟨validator, e, hValidator, hHead⟩
    refine ⟨validator, ?_⟩
    rw [malformedSigners, mem_keysDecided, deciding_true, hHead]
    exact ⟨hValidator, List.not_mem_nil, rfl⟩

theorem viewAgrees_of_neither
    (hView : ∀ count, checkBridgeSignatures crypto env s m signatures ≠ .ok (true, count))
    (hCount : ¬ (Countable crypto env s m signatures ∧
      malformedSigners crypto s (hashBridgeMessage crypto env s m) signatures = ∅)) :
    ViewAgrees crypto env s m signatures := by
  refine ⟨⟨?_, ?_⟩, ?_⟩
  · rintro ⟨count, hValid⟩
    exact absurd hValid (hView count)
  · rintro ⟨result, hVerify, hValid⟩
    obtain ⟨hCountable, hRecovers, -⟩ := counted_of_accepted hVerify hValid
    exact absurd ⟨hCountable, hRecovers⟩ hCount
  · intro count events hCounted
    obtain ⟨hCountable, hRecovers, -⟩ := countBridgeSignatures_iff.mp ⟨events, hCounted⟩
    exact absurd ⟨hCountable, hRecovers⟩ hCount

theorem viewAgrees_of_countable (hCountable : Countable crypto env s m signatures)
    (hRecovers : malformedSigners crypto s (hashBridgeMessage crypto env s m) signatures = ∅) :
    ViewAgrees crypto env s m signatures ↔
      malformedSeen crypto s (hashBridgeMessage crypto env s m) signatures = ∅ ∧
        (seenSigners crypto s (hashBridgeMessage crypto env s m) signatures).card =
          (signers crypto s (hashBridgeMessage crypto env s m) signatures).card := by
  have hView := @checkBridgeSignatures_iff crypto env s m signatures
  constructor
  · rintro ⟨-, hCounts⟩
    obtain ⟨events, hCounted⟩ :=
      countBridgeSignatures_iff.mpr ⟨hCountable, hRecovers, rfl⟩
    obtain ⟨valid, hCheck⟩ := hCounts _ events hCounted
    obtain ⟨hMalformed, hCard, -⟩ :=
      (hView hCountable.unprocessed hCountable.unused).mp hCheck
    exact ⟨hMalformed, hCard.symm⟩
  · rintro ⟨hMalformed, hCard⟩
    refine ⟨⟨?_, ?_⟩, ?_⟩
    · rintro ⟨count, hCheck⟩
      obtain ⟨-, hCount, hValid⟩ := (hView hCountable.unprocessed hCountable.unused).mp hCheck
      obtain ⟨events, hCounted⟩ :=
        countBridgeSignatures_iff.mpr ⟨hCountable, hRecovers, hCount.trans hCard⟩
      obtain ⟨hVerify, hAccepted⟩ := verifyBridgeSignatures_accepts_iff.mpr
        ⟨count, events, hCounted, hValid.mp rfl, rfl⟩
      exact ⟨_, hVerify, hAccepted⟩
    · rintro ⟨result, hVerify, hAccepted⟩
      obtain ⟨-, -, hThreshold⟩ := counted_of_accepted hVerify hAccepted
      refine ⟨_, (hView hCountable.unprocessed hCountable.unused).mpr
        ⟨hMalformed, rfl, fun _ => ?_, fun _ => rfl⟩⟩
      rw [hCard]
      exact hThreshold
    · intro count events hCounted
      obtain ⟨-, -, hCount⟩ := countBridgeSignatures_iff.mp ⟨events, hCounted⟩
      exact ⟨decide (s.signatureThreshold ≤ count),
        (hView hCountable.unprocessed hCountable.unused).mpr
          ⟨hMalformed, hCount.trans hCard.symm, decide_eq_true_iff⟩⟩

/-- The view and the transaction agree in exactly four cases: the message is used up, the
list is too short, the first entry of a registered validator reverts, or no registered
validator has an entry that decides after a first one by somebody else. -/
theorem view_agrees_iff (crypto : Crypto) (env : Env) (s : State) (m : BridgeMessage)
    (signatures : List ValidatorSignature) :
    ViewAgrees crypto env s m signatures ↔
      (s.processedBridgeTx (hashBridgeMessage crypto env s m) = true ∨
        s.usedNonces m.sourceChainId m.nonce = true) ∨
      signatures.length < s.signatureThreshold ∨
      (∃ validator e, s.isValidator validator = true ∧
        (valuesAt (verdicts crypto (hashBridgeMessage crypto env s m) signatures)
          validator).head? = some (.error e)) ∨
      FirstDecides isDecisive s.isValidator
        (verdicts crypto (hashBridgeMessage crypto env s m) signatures) := by
  by_cases hUsed : s.processedBridgeTx (hashBridgeMessage crypto env s m) = true ∨
      s.usedNonces m.sourceChainId m.nonce = true
  · have hAgrees : ViewAgrees crypto env s m signatures := by
      apply viewAgrees_of_neither
      · intro count
        rw [checkBridgeSignatures_of_used hUsed]
        simp
      · rintro ⟨hCountable, -⟩
        rcases hUsed with hProcessed | hNonce
        · rw [hCountable.unprocessed] at hProcessed
          cases hProcessed
        · rw [hCountable.unused] at hNonce
          cases hNonce
    exact ⟨fun _ => .inl hUsed, fun _ => hAgrees⟩
  simp only [not_or, Bool.not_eq_true] at hUsed
  obtain ⟨hUnprocessed, hUnused⟩ := hUsed
  by_cases hShort : signatures.length < s.signatureThreshold
  · have hAgrees : ViewAgrees crypto env s m signatures := by
      apply viewAgrees_of_neither
      · intro count hCheck
        obtain ⟨-, hCount, hValid⟩ := (checkBridgeSignatures_iff hUnprocessed hUnused).mp hCheck
        have hThreshold := hValid.mp rfl
        have hLength := seenSigners_card_le crypto s (hashBridgeMessage crypto env s m) signatures
        omega
      · rintro ⟨hCountable, -⟩
        have hEnough := hCountable.enough
        omega
    exact ⟨fun _ => .inr (.inl hShort), fun _ => hAgrees⟩
  by_cases hMalformed : ∃ validator e, s.isValidator validator = true ∧
      (valuesAt (verdicts crypto (hashBridgeMessage crypto env s m) signatures)
        validator).head? = some (.error e)
  · have hNonempty := malformedSigners_nonempty_iff.mpr hMalformed
    have hAgrees : ViewAgrees crypto env s m signatures := by
      apply viewAgrees_of_neither
      · intro count hCheck
        obtain ⟨hNone, -⟩ := (checkBridgeSignatures_iff hUnprocessed hUnused).mp hCheck
        have hSeen := hNonempty.mono (keysDecided_subset isDecisive_of_isMalformed)
        exact absurd hNone hSeen.ne_empty
      · rintro ⟨-, hRecovers⟩
        exact absurd hRecovers hNonempty.ne_empty
    exact ⟨fun _ => .inr (.inr (.inl hMalformed)), fun _ => hAgrees⟩
  have hRecovers : malformedSigners crypto s (hashBridgeMessage crypto env s m) signatures = ∅ :=
    Finset.not_nonempty_iff_eq_empty.mp fun hNonempty =>
      hMalformed (malformedSigners_nonempty_iff.mp hNonempty)
  rw [viewAgrees_of_countable ⟨hUnprocessed, hUnused, by omega⟩ hRecovers,
    ← firstDecides_iff hRecovers]
  constructor
  · exact fun hFirst => .inr (.inr (.inr hFirst))
  · rintro ((hProcessed | hNonce) | hLength | hReverts | hFirst)
    · rw [hUnprocessed] at hProcessed
      cases hProcessed
    · rw [hUnused] at hNonce
      cases hNonce
    · exact absurd hLength hShort
    · exact absurd hReverts hMalformed
    · exact hFirst

/-! ## A list on which they differ -/

/-- An entry for `validator` that `signer` has signed, in the scheme of
`namedSignerCrypto`. -/
def signedEntry (messageHash : Bytes32) (validator signer : Address) : ValidatorSignature :=
  ⟨validator, Fin.ofNat _ signer.val, Fin.ofNat _ (messageHash.val % 2 ^ 128), 27⟩

/-- The contract at `100` right after its initialisation, with the one validator `5`. -/
def freshState (chainId : Uint 256) : State where
  access := { hasRole := fun role account =>
    account = 9 ∧ (role = .defaultAdmin ∨ role = .bridgeOperator) }
  self := 100
  signatureThreshold := 1
  totalValidators := 1
  isValidator := Function.update (fun _ => false) 5 true
  processedBridgeTx := fun _ => false
  usedNonces := fun _ _ => false
  storedDomainSeparator := computeDomainSeparator namedSignerCrypto 100 chainId
  storedChainId := chainId

theorem freshState_constructed (chainId : Uint 256) :
    construct namedSignerCrypto ⟨chainId, 9⟩ 100 9 1 [5] = .ok (freshState chainId) := rfl

def unusedMessage : BridgeMessage := ⟨3, 50, 1, 77, 1⟩

/-- An entry for the validator that somebody else has signed, and then one that the
validator has. -/
def rescuedSignatures : List ValidatorSignature :=
  let messageHash := hashBridgeMessage namedSignerCrypto ⟨10, 9⟩ (freshState 10) unusedMessage
  [signedEntry messageHash 5 7, signedEntry messageHash 5 5]

/-- The view reports a valid message with one signature; the transaction counts none. -/
theorem view_disagrees_rescuedSignatures :
    construct namedSignerCrypto ⟨10, 9⟩ 100 9 1 [5] = .ok (freshState 10) ∧
      ¬ ViewAgrees namedSignerCrypto ⟨10, 9⟩ (freshState 10) unusedMessage rescuedSignatures := by
  refine ⟨freshState_constructed 10, ?_⟩
  rintro ⟨hAgrees, -⟩
  have hCheck : checkBridgeSignatures namedSignerCrypto ⟨10, 9⟩ (freshState 10) unusedMessage
      rescuedSignatures = .ok (true, 1) := by decide +kernel
  have hRefuses : (verifyBridgeSignatures namedSignerCrypto ⟨10, 9⟩ (freshState 10) unusedMessage
      rescuedSignatures).toOption.map (·.isValid) = some false := by decide +kernel
  obtain ⟨result, hVerify, hValid⟩ := hAgrees.mp ⟨1, hCheck⟩
  rw [hVerify] at hRefuses
  simp only [Except.toOption, Option.map_some, hValid] at hRefuses
  cases hRefuses

end Prsm.BridgeSecurity
