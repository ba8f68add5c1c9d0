import Prsm.PaymentAuth.Spelling
import Prsm.PerStage.Routing

/-!
# What an authorized share rests on

The signature binds the hash of the payee set, the hash is of an encoding that
determines the sorted set, and the set holds every address once.  So under one
signature there is one set of payees and shares, as long as the hash has no
collision among the sets that come up.  `authorized_spec` reads off an authorized
verdict that the settled share is one of that set, and that the whole set fits
under the signed ceiling.
-/

namespace Prsm.PerStage

open Foundations Evm Settlement PaymentAuth

/-! ## The encoding of a payee set -/

theorem encodePayees_injective {addrs addrs' : List Address} {shares shares' : List Nat}
    (hLength : addrs.length = shares.length) (hLength' : addrs'.length = shares'.length)
    (hShares : ∀ n ∈ shares, n < 2 ^ 256) (hShares' : ∀ n ∈ shares', n < 2 ^ 256)
    (h : encodePayees addrs shares = encodePayees addrs' shares') :
    addrs = addrs' ∧ shares = shares' := by
  have hSize := congrArg List.length h
  simp only [encodePayees, length_abiEncode, List.length_cons, List.length_append,
    List.length_map] at hSize
  have hCount : addrs.length = addrs'.length := by omega
  have hCountShares : shares.length = shares'.length := by omega
  have hSplit : ∀ (before : List Nat) (addrs : List Address) (shares : List Nat),
      abiEncode (before ++ (addrs.map Fin.val ++ shares)) =
        abiEncode before ++ (abiEncode (addrs.map Fin.val) ++ abiEncode shares) := by
    intro before addrs shares
    rw [abiEncode, List.flatMap_append, List.flatMap_append]
    rfl
  have hParts : abiEncode [64, 64 + 32 * (addrs.length + 1), addrs.length] ++
        (abiEncode (addrs.map Fin.val) ++ abiEncode (shares.length :: shares)) =
      abiEncode [64, 64 + 32 * (addrs'.length + 1), addrs'.length] ++
        (abiEncode (addrs'.map Fin.val) ++ abiEncode (shares'.length :: shares')) := by
    rw [← hSplit, ← hSplit]
    exact h
  rw [hCount, List.append_cancel_left_eq] at hParts
  obtain ⟨hAddrs, hRest⟩ := List.append_inj hParts (by simp [hCount])
  have hWidth : (2 : Nat) ^ 160 < 2 ^ 256 := Nat.pow_lt_pow_right (by decide) (by decide)
  have hSmall : ∀ (addrs : List Address), ∀ n ∈ addrs.map Fin.val, n < 2 ^ 256 := by
    intro addrs n hn
    obtain ⟨addr, -, rfl⟩ := List.mem_map.mp hn
    exact addr.isLt.trans hWidth
  constructor
  · have hVals := abiEncode_injective (by simp [hCount]) (hSmall addrs) (hSmall addrs') hAddrs
    exact Fin.val_injective.list_map hVals
  · rw [hCountShares] at hRest
    obtain ⟨-, hWords⟩ := List.append_inj hRest rfl
    exact abiEncode_injective hCountShares hShares hShares' hWords

/-! ## The normalised set -/

theorem normalizeShare_eq_ok {share normal : Int} (h : normalizeShare share = .ok normal) :
    normal = share ∧ 0 ≤ share ∧ share ≤ 2 ^ 256 - 1 := by
  unfold normalizeShare at h
  split at h
  · cases h
  case isFalse hLow =>
    split at h
    · cases h
    case isFalse hHigh =>
      cases h
      exact ⟨rfl, by omega, by omega⟩

variable {lib : AddressLibrary} {payees : List (String × Int)}

theorem normalizePayees_spec
    {normalized : List (Address × Int)} {seen : List String}
    (h : normalizePayees lib seen payees = .ok normalized) :
    List.Forall₂ (fun p entry => lib.parse p.1 = some entry.1 ∧ p.2 = entry.2) payees normalized ∧
      (∀ entry ∈ normalized, 0 ≤ entry.2 ∧ entry.2 ≤ 2 ^ 256 - 1) ∧
      (∀ entry ∈ normalized, lib.lowerChecksum entry.1 ∉ seen) ∧
      (normalized.map Prod.fst).Nodup := by
  induction payees generalizing seen normalized with
  | nil =>
      cases h
      exact ⟨.nil, by simp, by simp, List.nodup_nil⟩
  | cons p rest ih =>
      obtain ⟨addrRaw, shareRaw⟩ := p
      rw [normalizePayees] at h
      split at h
      · cases h
      case h_2 addr hAddr =>
        have hParse : lib.parse addrRaw = some addr := by
          split at hAddr
          · exact hAddr
          · cases hAddr
        split at h
        · cases h
        case isFalse hUnseen =>
          obtain ⟨share, hShare, h⟩ := bind_eq_ok_iff.mp h
          obtain ⟨tail, hTail, h⟩ := bind_eq_ok_iff.mp h
          cases h
          obtain ⟨rfl, hLow, hHigh⟩ := normalizeShare_eq_ok hShare
          obtain ⟨hRest, hRange, hFresh, hNodup⟩ := ih hTail
          refine ⟨.cons ⟨hParse, rfl⟩ hRest, ?_, ?_, ?_⟩
          · rintro entry (_ | ⟨_, hEntry⟩)
            · exact ⟨hLow, hHigh⟩
            · exact hRange entry hEntry
          · rintro entry (_ | ⟨_, hEntry⟩)
            · exact hUnseen
            · exact fun hSeen => hFresh entry hEntry (List.mem_cons_of_mem _ hSeen)
          · rw [List.map_cons, List.nodup_cons]
            refine ⟨fun hMem => ?_, hNodup⟩
            obtain ⟨entry, hEntry, hSame⟩ := List.mem_map.mp hMem
            have hSame : entry.1 = addr := hSame
            exact hFresh entry hEntry (hSame ▸ List.mem_cons_self)

/-- The bytes whose hash is the commitment to a payee set. -/
def committedBytes (lib : AddressLibrary) (payees : List (String × Int)) : Option Bytes :=
  match normalizePayees lib [] payees with
  | .error _ => none
  | .ok normalized =>
      let sorted := sortedPayees lib normalized
      some (encodePayees (sorted.map Prod.fst) (sorted.map fun p => p.2.toNat))

/-- The members of a payee set, as they are hashed. -/
structure PayeeSet (lib : AddressLibrary) (payees : List (String × Int))
    (members : List (Address × Int)) : Prop where
  nodup : (members.map Prod.fst).Nodup
  range : ∀ entry ∈ members, 0 ≤ entry.2 ∧ entry.2 ≤ 2 ^ 256 - 1
  sum_eq : (members.map Prod.snd).sum = (payees.map Prod.snd).sum
  mem_of_mem : ∀ p ∈ payees, ∃ addr, lib.parse p.1 = some addr ∧ (addr, p.2) ∈ members
  committed : committedBytes lib payees =
    some (encodePayees (members.map Prod.fst) (members.map fun entry => entry.2.toNat))

theorem mem_of_forall₂ {α β : Type} {R : α → β → Prop} {xs : List α} {ys : List β}
    (h : List.Forall₂ R xs ys) {x : α} (hx : x ∈ xs) : ∃ y ∈ ys, R x y := by
  induction h with
  | nil => cases hx
  | cons hHead _ ih =>
      rcases List.mem_cons.mp hx with rfl | hx
      · exact ⟨_, List.mem_cons_self, hHead⟩
      · obtain ⟨y, hy, hR⟩ := ih hx
        exact ⟨y, List.mem_cons_of_mem _ hy, hR⟩

theorem payeeSet_of_normalizePayees
    {normalized : List (Address × Int)} (h : normalizePayees lib [] payees = .ok normalized) :
    PayeeSet lib payees (sortedPayees lib normalized) := by
  obtain ⟨hMatch, hRange, -, hNodup⟩ := normalizePayees_spec h
  have hPerm : (sortedPayees lib normalized).Perm normalized := List.perm_insertionSort _ _
  refine ⟨?_, ?_, ?_, ?_, ?_⟩
  · exact (hPerm.map Prod.fst).nodup_iff.mpr hNodup
  · exact fun entry hEntry => hRange entry (hPerm.mem_iff.mp hEntry)
  · have hShares : payees.map Prod.snd = normalized.map Prod.snd :=
      map_eq_map_of_forall₂ (hMatch.imp fun _ _ hBoth => hBoth.2)
    rw [hShares]
    exact (hPerm.map Prod.snd).sum_eq
  · intro p hp
    obtain ⟨entry, hEntry, hParse, hShare⟩ := mem_of_forall₂ hMatch hp
    refine ⟨entry.1, hParse, hPerm.mem_iff.mpr ?_⟩
    rw [hShare]
    exact hEntry
  · rw [committedBytes, h]

theorem exists_normalized {keccak256 : Keccak} {digest : Bytes32}
    (h : computePayeeSetHash lib keccak256 payees = .ok digest) :
    ∃ normalized bytes, normalizePayees lib [] payees = .ok normalized ∧
      committedBytes lib payees = some bytes ∧ digest = keccak256 bytes := by
  unfold computePayeeSetHash at h
  split at h
  · cases h
  obtain ⟨normalized, hNormalized, h⟩ := bind_eq_ok_iff.mp h
  cases h
  exact ⟨normalized, _, hNormalized, by rw [committedBytes, hNormalized], rfl⟩

theorem exists_payeeSet {keccak256 : Keccak}
    {digest : Bytes32} (h : computePayeeSetHash lib keccak256 payees = .ok digest) :
    ∃ members bytes, PayeeSet lib payees members ∧ committedBytes lib payees = some bytes ∧
      digest = keccak256 bytes := by
  obtain ⟨normalized, bytes, hNormalized, hBytes, hDigest⟩ := exists_normalized h
  exact ⟨_, bytes, payeeSet_of_normalizePayees hNormalized, hBytes, hDigest⟩

theorem eq_zipWith_of_nonneg {members : List (Address × Int)} (h : ∀ entry ∈ members, 0 ≤ entry.2) :
    members = List.zipWith (fun addr (n : Nat) => (addr, (n : Int))) (members.map Prod.fst)
      (members.map fun entry => entry.2.toNat) := by
  induction members with
  | nil => rfl
  | cons entry rest ih =>
      have hHead : (entry.2.toNat : Int) = entry.2 :=
        Int.toNat_of_nonneg (h entry List.mem_cons_self)
      rw [List.map_cons, List.map_cons, List.zipWith_cons_cons, hHead,
        ← ih fun other hOther => h other (List.mem_cons_of_mem _ hOther)]

theorem PayeeSet.eq_of_committedBytes {payees' : List (String × Int)}
    {members members' : List (Address × Int)} (h : PayeeSet lib payees members)
    (h' : PayeeSet lib payees' members')
    (hSame : committedBytes lib payees = committedBytes lib payees') : members = members' := by
  have hSmall : ∀ {payees members}, PayeeSet lib payees members →
      ∀ n ∈ members.map fun entry : Address × Int => entry.2.toNat, n < 2 ^ 256 := by
    intro payees members hSet n hn
    obtain ⟨entry, hEntry, rfl⟩ := List.mem_map.mp hn
    have hRange := hSet.range entry hEntry
    omega
  rw [h.committed, h'.committed, Option.some.injEq] at hSame
  obtain ⟨hAddrs, hShares⟩ :=
    encodePayees_injective (by simp) (by simp) (hSmall h) (hSmall h') hSame
  rw [eq_zipWith_of_nonneg fun entry hEntry => (h.range entry hEntry).1,
    eq_zipWith_of_nonneg fun entry hEntry => (h'.range entry hEntry).1, hAddrs, hShares]

/-! ## The commitment is to the set -/

/-- The pairs of a list: each address in lower case, with its share. -/
def payeePairs (lib : AddressLibrary) (payees : List (String × Int)) : Set (String × Int) :=
  {pair | ∃ p ∈ payees, ∃ addr, lib.parse p.1 = some addr ∧ pair = (lib.lowerChecksum addr, p.2)}

section SetCommitment

variable {lib : AddressLibrary} {keccak256 : Keccak} {payees payees' : List (String × Int)}
  {normalized normalized' : List (Address × Int)}

theorem payeePairs_of_normalizePayees (h : normalizePayees lib [] payees = .ok normalized) :
    payeePairs lib payees =
      {pair | pair ∈ normalized.map fun entry => (lib.lowerChecksum entry.1, entry.2)} := by
  have hMatch := (normalizePayees_spec h).1
  ext pair
  simp only [payeePairs, Set.mem_ofPred_eq, List.mem_map]
  constructor
  · rintro ⟨p, hp, addr, hAddr, rfl⟩
    obtain ⟨entry, hEntry, hParse, hShare⟩ := mem_of_forall₂ hMatch hp
    rw [hAddr, Option.some.injEq] at hParse
    exact ⟨entry, hEntry, by rw [hParse, hShare]⟩
  · rintro ⟨entry, hEntry, rfl⟩
    obtain ⟨p, hp, hParse, hShare⟩ := mem_of_forall₂ hMatch.flip hEntry
    exact ⟨p, hp, entry.1, hParse, by rw [hShare]⟩

theorem sortedPayees_of_payeePairs (h : normalizePayees lib [] payees = .ok normalized)
    (h' : normalizePayees lib [] payees' = .ok normalized')
    (hPairs : payeePairs lib payees = payeePairs lib payees') :
    sortedPayees lib normalized = sortedPayees lib normalized' := by
  have hInj : Function.Injective fun entry : Address × Int =>
      (lib.lowerChecksum entry.1, entry.2) :=
    lib.lowerChecksum_injective.prodMap Function.injective_id
  have hMem : ∀ entry, entry ∈ normalized ↔ entry ∈ normalized' := by
    intro entry
    rw [payeePairs_of_normalizePayees h, payeePairs_of_normalizePayees h'] at hPairs
    rw [← List.mem_map_of_injective hInj, ← List.mem_map_of_injective (l := normalized') hInj]
    exact Set.ext_iff.mp hPairs _
  have hNodup := (normalizePayees_spec h).2.2.2.of_map Prod.fst
  have hNodup' := (normalizePayees_spec h').2.2.2.of_map Prod.fst
  refine sortBy_eq_of_perm _ ((List.perm_ext_iff_of_nodup hNodup hNodup').mpr hMem) ?_
  intro a _ b _ hKey
  exact hInj (toLex.injective hKey)

theorem committedBytes_eq_iff (h : normalizePayees lib [] payees = .ok normalized)
    (h' : normalizePayees lib [] payees' = .ok normalized') :
    committedBytes lib payees = committedBytes lib payees' ↔
      payeePairs lib payees = payeePairs lib payees' := by
  constructor
  · intro hSame
    have hMembers := (payeeSet_of_normalizePayees h).eq_of_committedBytes
      (payeeSet_of_normalizePayees h') hSame
    have hPerm : normalized.Perm normalized' :=
      (List.perm_insertionSort _ normalized).symm.trans
        ((List.Perm.of_eq hMembers).trans (List.perm_insertionSort _ normalized'))
    rw [payeePairs_of_normalizePayees h, payeePairs_of_normalizePayees h']
    ext pair
    exact (hPerm.map _).mem_iff
  · intro hPairs
    rw [committedBytes, committedBytes, h, h']
    simp only [sortedPayees_of_payeePairs h h' hPairs]

theorem payeePairs_congr (h : ∀ p ∈ payees, ∃ p' ∈ payees', lib.parse p.1 = lib.parse p'.1 ∧
      p.2 = p'.2) :
    payeePairs lib payees ⊆ payeePairs lib payees' := by
  rintro _ ⟨p, hp, addr, hAddr, rfl⟩
  obtain ⟨p', hp', hParse, hShare⟩ := h p hp
  exact ⟨p', hp', addr, hParse.symm.trans hAddr, by rw [hShare]⟩

end SetCommitment

/-- Accepted lists have the same commitment exactly if they have the same pairs.  Neither
the order of a list nor the case of its addresses matters. -/
theorem payeeSetHash_eq_iff (lib : AddressLibrary) (keccak256 : Keccak)
    (payees payees' : List (String × Int)) (digest digest' : Bytes32)
    (hDigest : computePayeeSetHash lib keccak256 payees = .ok digest)
    (hDigest' : computePayeeSetHash lib keccak256 payees' = .ok digest')
    (hFree : ∀ bytes bytes', committedBytes lib payees = some bytes →
      committedBytes lib payees' = some bytes' → keccak256 bytes = keccak256 bytes' →
        bytes = bytes')
    (hCase : ∀ p ∈ payees, ∀ p' ∈ payees', lib.lower p.1 = lib.lower p'.1 →
      lib.parse p.1 = lib.parse p'.1) :
    (digest = digest' ↔ payeePairs lib payees = payeePairs lib payees') ∧
    (payees.Perm payees' → digest = digest') ∧
    (List.Forall₂ (fun p p' => lib.lower p.1 = lib.lower p'.1 ∧ p.2 = p'.2) payees payees' →
      digest = digest') := by
  obtain ⟨normalized, bytes, hNormalized, hBytes, rfl⟩ := exists_normalized hDigest
  obtain ⟨normalized', bytes', hNormalized', hBytes', rfl⟩ := exists_normalized hDigest'
  have hIff := committedBytes_eq_iff hNormalized hNormalized'
  rw [hBytes, hBytes', Option.some.injEq] at hIff
  have hMain : keccak256 bytes = keccak256 bytes' ↔
      payeePairs lib payees = payeePairs lib payees' :=
    ⟨fun hSame => hIff.mp (hFree _ _ hBytes hBytes' hSame), fun h => congrArg _ (hIff.mpr h)⟩
  refine ⟨hMain, fun hPerm => hMain.mpr ?_, fun hCased => hMain.mpr ?_⟩
  · ext pair
    simp only [payeePairs, hPerm.mem_iff]
  · refine Set.Subset.antisymm (payeePairs_congr fun p hp => ?_) (payeePairs_congr fun p hp => ?_)
    · obtain ⟨p', hp', hLower, hShare⟩ := mem_of_forall₂ hCased hp
      exact ⟨p', hp', hCase p hp p' hp' hLower, hShare⟩
    · obtain ⟨p', hp', hLower, hShare⟩ := mem_of_forall₂ hCased.flip hp
      exact ⟨p', hp', (hCase p' hp' p hp hLower).symm, hShare.symm⟩

def spelledPayees : List (String × Int) × List (String × Int) :=
  ([("0x00000000000000000000000000000000000000ab", 7), (hexAddress 5, 3)],
    [(hexAddress 5, 3), ("0x00000000000000000000000000000000000000AB", 7)])

theorem payeeSetHash_eq_iff_spelled :
    (1 : Bytes32) = 1 ↔
      payeePairs asciiLibrary spelledPayees.1 = payeePairs asciiLibrary spelledPayees.2 := by
  have hSame : committedBytes asciiLibrary spelledPayees.1 =
      committedBytes asciiLibrary spelledPayees.2 := by decide +kernel
  have hDigest : computePayeeSetHash asciiLibrary (fun _ => 1) spelledPayees.1 = .ok 1 := by
    decide +kernel
  have hDigest' : computePayeeSetHash asciiLibrary (fun _ => 1) spelledPayees.2 = .ok 1 := by
    decide +kernel
  have hCase : ∀ p ∈ spelledPayees.1, ∀ p' ∈ spelledPayees.2,
      asciiLibrary.lower p.1 = asciiLibrary.lower p'.1 →
        asciiLibrary.parse p.1 = asciiLibrary.parse p'.1 := by
    decide +kernel
  refine (payeeSetHash_eq_iff asciiLibrary (fun _ => 1) spelledPayees.1 spelledPayees.2 1 1
    hDigest hDigest' ?_ hCase).1
  intro bytes bytes' hBytes hBytes' _
  exact Option.some.inj (hBytes.symm.trans (hSame.trans hBytes'))

/-! ## What an authorized verdict says -/

/-- The signed message of a routed task, with the signature. -/
def signedTask (v : Verifier) (task : PerStageSettlementTask) : Option (PerStageMessage × Bytes) :=
  match task.paymentAuthorization with
  | some { payload := some payload, signature := some signature } => do
      let message ← buildTypedData v.signing payload
      let sigBytes ← signatureBytes signature
      some (message, sigBytes)
  | _ => none

/-- The entry of the payee set that a task is matched with. -/
def matchedPayee (lib : AddressLibrary) (task : PerStageSettlementTask)
    (payees : List (String × Int)) : Option (String × Int) :=
  payees.find? fun p =>
    lib.lower p.1 = lib.lower task.batchedReceipt.providerAddress ∧ p.2 = task.shareWei

variable {v : Verifier} {payload : PerStagePayload} {nowUnix : Int}

theorem checkShares_spec {payees : List (String × Int)}
    {payee : String} {shareWei totalCap : Int}
    (h : checkPerStageAuthorization.checkShares v payload payees payee shareWei nowUnix totalCap =
      .authorized) :
    (payees.map Prod.snd).sum ≤ totalCap ∧
      payees.any (fun p => v.lib.lower p.1 = v.lib.lower payee ∧ p.2 = shareWei) = true := by
  unfold checkPerStageAuthorization.checkShares at h
  split at h
  · cases h
  split at h
  · cases h
  case isFalse hSum =>
    split at h
    · cases h
    split at h
    · cases h
    case h_2 queriedShare hShare =>
      obtain ⟨rfl, -, -⟩ := normalizeShare_eq_ok hShare
      split at h
      · cases h
      case isFalse hMember => exact ⟨Int.not_lt.mp hSum, not_not.mp hMember⟩

theorem checkPerStageAuthorization_spec
    {recovered : String} {payees : List (String × Int)} {payee : String} {shareWei : Int}
    (h : checkPerStageAuthorization v payload recovered payees payee shareWei nowUnix =
      .authorized) :
    ∃ digest totalCap, computePayeeSetHash v.lib v.keccak256 payees = .ok digest ∧
      toBytes32 payload.payeeSetHash = some (digestBytes digest) ∧
      payload.totalMaxSpendWei = some totalCap ∧ (payees.map Prod.snd).sum ≤ totalCap ∧
      payees.any (fun p => v.lib.lower p.1 = v.lib.lower payee ∧ p.2 = shareWei) = true := by
  unfold checkPerStageAuthorization at h
  split at h
  · cases h
  split at h
  · cases h
  case h_2 digest hDigest =>
    split at h
    · cases h
    case h_2 signedSetHash hSigned =>
      split at h
      · cases h
      case isFalse hSame =>
        split at h
        · cases h
        split at h
        · cases h
        split at h
        · cases h
        case h_2 totalCap hCap =>
          obtain ⟨hSum, hMember⟩ := checkShares_spec h
          rw [← not_not.mp hSame] at hSigned
          exact ⟨digest, totalCap, hDigest, hSigned, hCap, hSum, hMember⟩
/-- What an authorized verdict on a routed task says. -/
structure Authorized (v : Verifier) (task : PerStageSettlementTask)
    (payees : List (String × Int)) (message : PerStageMessage) (entry : String × Int) : Prop where
  matched : matchedPayee v.lib task payees = some entry
  settled : task.batchedReceipt.valueFtns = entry.2
  sum_le : (payees.map Prod.snd).sum ≤ message.totalMaxSpendWei.val
  committed : ∃ digest, computePayeeSetHash v.lib v.keccak256 payees = .ok digest ∧
    digestBytes digest = message.payeeSetHash

theorem fields_of_buildTypedData {signing : SigningLibrary PerStageMessage}
    {message : PerStageMessage}
    (h : buildTypedData signing payload = some message) :
    toBytes32 payload.payeeSetHash = some message.payeeSetHash ∧
      payload.totalMaxSpendWei.bind (checkUint 256) = some message.totalMaxSpendWei := by
  obtain ⟨_, -, h⟩ := Option.bind_eq_some_iff.mp h
  obtain ⟨_, hHash, h⟩ := Option.bind_eq_some_iff.mp h
  obtain ⟨_, hMax, h⟩ := Option.bind_eq_some_iff.mp h
  obtain ⟨_, -, h⟩ := Option.bind_eq_some_iff.mp h
  obtain ⟨_, -, h⟩ := Option.bind_eq_some_iff.mp h
  obtain ⟨_, -, h⟩ := Option.bind_eq_some_iff.mp h
  cases h
  exact ⟨hHash, hMax⟩

theorem authorized_spec {task : PerStageSettlementTask}
    {payees : List (String × Int)}
    (h : verifyRoutedSettlementTask v task payees nowUnix = .ok .authorized) :
    ∃ message sigBytes entry, signedTask v task = some (message, sigBytes) ∧
      Authorized v task payees message entry := by
  unfold verifyRoutedSettlementTask at h
  split at h
  case h_2 => cases h
  case h_1 payload signature hAuth =>
    split at h
    · cases h
    case isFalse hValue =>
      have hVerify : verifyPerStageAuthorization v payload signature payees
          task.batchedReceipt.providerAddress task.shareWei nowUnix = .ok .authorized := by
        split at h
        · cases h
        · exact h
      obtain ⟨recovered, hRecovered, hCheck⟩ := bind_eq_ok_iff.mp hVerify
      obtain ⟨sigBytes, message, hBytes, hMessage, -⟩ := recoverSigner_eq_ok hRecovered
      obtain ⟨digest, totalCap, hDigest, hSigned, hCap, hSum, hMember⟩ :=
        checkPerStageAuthorization_spec (Except.ok.inj hCheck)
      obtain ⟨hHash, hMax⟩ := fields_of_buildTypedData hMessage
      obtain ⟨entry, hEntry⟩ : ∃ entry, matchedPayee v.lib task payees = some entry := by
        rw [← Option.isSome_iff_exists, matchedPayee, List.find?_isSome]
        exact List.any_eq_true.mp hMember
      have hShare : entry.2 = task.shareWei := by
        have hTest := List.find?_some hEntry
        exact (of_decide_eq_true hTest).2
      rw [hCap, Option.bind_some] at hMax
      refine ⟨message, sigBytes, entry, ?_, hEntry, ?_, ?_, digest, hDigest, ?_⟩
      · rw [signedTask, hAuth]
        simp only [hMessage, hBytes]
        rfl
      · rw [hShare]
        exact not_not.mp hValue
      · rw [val_of_checkUint hMax]
        exact hSum
      · exact Option.some.inj (hSigned.symm.trans hHash)

end Prsm.PerStage
