import Mathlib.Data.Prod.Lex
import Mathlib.Data.String.Basic
import Prsm.Foundations.StableSort
import Prsm.PaymentAuth.Fields

/-!
# The per-stage payment authorization

A requester signs one commitment to the whole set of payees and shares of an
inference, with a ceiling on their sum.  `computePayeeSetHash` is that
commitment.  `verifyPerStageAuthorization` is the check that a node runs for its
own payee and share.
-/

namespace Prsm.PerStage

open Foundations Evm Settlement PaymentAuth

/-! ## The commitment to the payees -/

inductive PayeeSetError
  | empty
  | invalidAddress (addr : String)
  | duplicatePayee (addr : String)
  | shareNegative (share : Int)
  | shareOutOfRange (share : Int)
  deriving DecidableEq

def normalizeShare (share : Int) : Except PayeeSetError Int :=
  if share < 0 then .error (.shareNegative share)
  else if 2 ^ 256 - 1 < share then .error (.shareOutOfRange share)
  else .ok share

/-- The loop of `compute_payee_set_hash`, with the keys `seen` so far.  A
normalised address is kept as the address that its checksummed form denotes. -/
def normalizePayees (lib : AddressLibrary) (seen : List String) :
    List (String × Int) → Except PayeeSetError (List (Address × Int))
  | [] => .ok []
  | (addrRaw, shareRaw) :: rest =>
      match (if lib.isAddress addrRaw then lib.parse addrRaw else none) with
      | none => .error (.invalidAddress addrRaw)
      | some addr =>
          if lib.lowerChecksum addr ∈ seen then .error (.duplicatePayee (lib.checksum addr))
          else do
            let share ← normalizeShare shareRaw
            let tail ← normalizePayees lib (lib.lowerChecksum addr :: seen) rest
            .ok ((addr, share) :: tail)

/-- `abi.encode` of an `address[]` and a `uint256[]`. -/
def encodePayees (addrs : List Address) (shares : List Nat) : Bytes :=
  abiEncode (64 :: (64 + 32 * (addrs.length + 1)) ::
    (addrs.length :: addrs.map Fin.val ++ shares.length :: shares))

/-- The pairs in the order in which they are hashed. -/
def sortedPayees (lib : AddressLibrary) (normalized : List (Address × Int)) :
    List (Address × Int) :=
  sortBy (fun p => toLex (lib.lowerChecksum p.1, p.2)) normalized

def computePayeeSetHash (lib : AddressLibrary) (keccak256 : Keccak)
    (payees : List (String × Int)) : Except PayeeSetError Bytes32 :=
  if payees = [] then .error .empty
  else do
    let normalized ← normalizePayees lib [] payees
    let sorted := sortedPayees lib normalized
    .ok (keccak256 (encodePayees (sorted.map Prod.fst) (sorted.map fun p => p.2.toNat)))

theorem normalizePayees_ok_iff {lib : AddressLibrary} {payees : List (String × Int)}
    (hAddress : ∀ p ∈ payees, lib.isAddress p.1 = true)
    (hShare : ∀ p ∈ payees, 0 ≤ p.2 ∧ p.2 ≤ 2 ^ 256 - 1) (seen : List Address) :
    (∃ normalized, normalizePayees lib (seen.map lib.lowerChecksum) payees = .ok normalized) ↔
      (payees.map fun p => lib.parse p.1).Nodup ∧
        ∀ p ∈ payees, ∀ addr, lib.parse p.1 = some addr → addr ∉ seen := by
  induction payees generalizing seen with
  | nil => exact iff_of_true ⟨[], rfl⟩ ⟨List.nodup_nil, by simp⟩
  | cons entry rest ih =>
      obtain ⟨addrRaw, shareRaw⟩ := entry
      have hValid : lib.isAddress addrRaw = true := hAddress _ List.mem_cons_self
      obtain ⟨addr, hParse⟩ := Option.isSome_iff_exists.mp (lib.parse_of_isAddress addrRaw hValid)
      obtain ⟨hLow, hHigh⟩ := hShare _ List.mem_cons_self
      have hNormal : normalizeShare shareRaw = .ok shareRaw := by
        rw [normalizeShare, if_neg (by omega), if_neg (by omega)]
      have hKey : lib.lowerChecksum addr ∈ seen.map lib.lowerChecksum ↔ addr ∈ seen :=
        List.mem_map_of_injective lib.lowerChecksum_injective
      have hRest := ih (fun p hp => hAddress p (List.mem_cons_of_mem _ hp))
        (fun p hp => hShare p (List.mem_cons_of_mem _ hp)) (addr :: seen)
      have hCase : normalizePayees lib (seen.map lib.lowerChecksum) ((addrRaw, shareRaw) :: rest) =
          if addr ∈ seen then .error (.duplicatePayee (lib.checksum addr))
          else (normalizePayees lib ((addr :: seen).map lib.lowerChecksum) rest).map
            ((addr, shareRaw) :: ·) := by
        rw [normalizePayees, if_pos hValid, hParse]
        simp only [hKey, hNormal]
        split
        · rfl
        · rw [List.map_cons]
          cases normalizePayees lib (lib.lowerChecksum addr :: seen.map lib.lowerChecksum) rest <;>
            rfl
      have hHead : ((addrRaw, shareRaw) :: rest).map (fun p => lib.parse p.1) =
          lib.parse addrRaw :: rest.map fun p => lib.parse p.1 := rfl
      rw [hCase, hHead, List.nodup_cons]
      by_cases hSeen : addr ∈ seen
      · rw [if_pos hSeen]
        refine iff_of_false (fun ⟨_, h⟩ => by cases h) fun ⟨_, h⟩ => ?_
        exact h _ List.mem_cons_self addr hParse hSeen
      · rw [if_neg hSeen]
        have hTail : (∃ normalized, (normalizePayees lib ((addr :: seen).map lib.lowerChecksum)
              rest).map ((addr, shareRaw) :: ·) = .ok normalized) ↔
            ∃ tail, normalizePayees lib ((addr :: seen).map lib.lowerChecksum) rest = .ok tail := by
          cases normalizePayees lib ((addr :: seen).map lib.lowerChecksum) rest with
          | error e => exact iff_of_false (fun ⟨_, h⟩ => by cases h) fun ⟨_, h⟩ => by cases h
          | ok tail => exact iff_of_true ⟨_, rfl⟩ ⟨_, rfl⟩
        rw [hTail, hRest]
        constructor
        · rintro ⟨hNodup, hFresh⟩
          refine ⟨⟨fun hMem => ?_, hNodup⟩, ?_⟩
          · obtain ⟨p, hp, hEq⟩ := List.mem_map.mp hMem
            exact hFresh p hp addr (hEq.trans hParse) List.mem_cons_self
          · intro p hp other hOther
            rcases List.mem_cons.mp hp with rfl | hp
            · rw [← Option.some.inj (hParse.symm.trans hOther)]
              exact hSeen
            · exact fun hIn => hFresh p hp other hOther (List.mem_cons_of_mem _ hIn)
        · rintro ⟨⟨hNew, hNodup⟩, hFresh⟩
          refine ⟨hNodup, fun p hp other hOther hIn => ?_⟩
          rcases List.mem_cons.mp hIn with rfl | hIn
          · exact hNew (List.mem_map.mpr ⟨p, hp, hOther.trans hParse.symm⟩)
          · exact hFresh p (List.mem_cons_of_mem _ hp) other hOther hIn

theorem computePayeeSetHash_ok_iff {lib : AddressLibrary} (keccak256 : Keccak)
    {payees : List (String × Int)} (hSome : payees ≠ [])
    (hAddress : ∀ p ∈ payees, lib.isAddress p.1 = true)
    (hShare : ∀ p ∈ payees, 0 ≤ p.2 ∧ p.2 ≤ 2 ^ 256 - 1) :
    (∃ digest, computePayeeSetHash lib keccak256 payees = .ok digest) ↔
      (payees.map fun p => lib.parse p.1).Nodup := by
  have hLoop := normalizePayees_ok_iff hAddress hShare []
  rw [List.map_nil] at hLoop
  have hNone : ∀ p ∈ payees, ∀ addr, lib.parse p.1 = some addr → addr ∉ ([] : List Address) :=
    fun _ _ _ _ => List.not_mem_nil
  rw [and_iff_left hNone] at hLoop
  rw [← hLoop, computePayeeSetHash, if_neg hSome]
  cases normalizePayees lib [] payees with
  | error e => exact iff_of_false (fun ⟨_, h⟩ => by cases h) fun ⟨_, h⟩ => by cases h
  | ok normalized => exact iff_of_true ⟨_, rfl⟩ ⟨_, rfl⟩

/-! ## The signed payload -/

structure PerStagePayload where
  requester : Option String
  payeeSetHash : HexField
  totalMaxSpendWei : Option Int
  jobNonce : HexField
  expiryUnix : Option Int
  requestHash : HexField
  deriving DecidableEq

/-- The message that is signed. -/
structure PerStageMessage where
  requester : Address
  payeeSetHash : Bytes
  totalMaxSpendWei : Uint 256
  jobNonce : Bytes
  expiryUnix : Uint 256
  requestHash : Bytes
  deriving DecidableEq

/-- `_build_typed_data` and the encoder's range checks. -/
def buildTypedData (signing : SigningLibrary PerStageMessage) (payload : PerStagePayload) :
    Option PerStageMessage := do
  let requester ← payload.requester.bind signing.encodeAddress
  let payeeSetHash ← toBytes32 payload.payeeSetHash
  let totalMaxSpendWei ← payload.totalMaxSpendWei.bind (checkUint 256)
  let jobNonce ← toBytes32 payload.jobNonce
  let expiryUnix ← payload.expiryUnix.bind (checkUint 256)
  let requestHash ← toBytes32 payload.requestHash
  some
    { requester := requester
      payeeSetHash := payeeSetHash
      totalMaxSpendWei := totalMaxSpendWei
      jobNonce := jobNonce
      expiryUnix := expiryUnix
      requestHash := requestHash }

/-- `PerStageAuthorizationVerdict`: authorized, or refused for a reason. -/
inductive Verdict
  | authorized
  | signerMismatch
  | payeesInvalid (error : PayeeSetError)
  | payeeSetHashInvalid
  | payeesSwapped
  | requestHashInvalid
  | requestHashZero
  | totalMaxSpendInvalid
  | totalMaxSpendOutOfRange
  | overAuthorization (shareSum totalCap : Int)
  | payeeNotAnAddress (payee : String)
  | shareInvalid (error : PayeeSetError)
  | notAMember (payee : String) (share : Int)
  | expiryInvalid
  | expired (now expiry : Int)
  -- the reasons of `verify_routed_settlement_task`
  | noAuthorization
  | settledValueMismatch (settledValue authorizedShare : Int)
  | malformedSignature

/-- The libraries and settings that a verifier is built over. -/
structure Verifier where
  lib : AddressLibrary
  signing : SigningLibrary PerStageMessage
  keccak256 : Keccak
  chainId : Int

/-- The commitment as the 32 bytes that the payload is compared with. -/
def digestBytes (digest : Bytes32) : Bytes := abiWord digest.val

/-- The checks of `verify_per_stage_authorization` behind the signature, in
their order. -/
def checkPerStageAuthorization (v : Verifier) (payload : PerStagePayload) (recovered : String)
    (payees : List (String × Int)) (payee : String) (shareWei : Int) (nowUnix : Int) : Verdict :=
  if payload.requester.map v.lib.lower ≠ some (v.lib.lower recovered) then .signerMismatch
  else
    match computePayeeSetHash v.lib v.keccak256 payees with
    | .error error => .payeesInvalid error
    | .ok computed =>
        match toBytes32 payload.payeeSetHash with
        | none => .payeeSetHashInvalid
        | some signedSetHash =>
            if digestBytes computed ≠ signedSetHash then .payeesSwapped
            else
              match toBytes32 payload.requestHash with
              | none => .requestHashInvalid
              | some requestHash =>
                  if requestHash = List.replicate 32 0 then .requestHashZero
                  else
                    match payload.totalMaxSpendWei with
                    | none => .totalMaxSpendInvalid
                    | some totalCap =>
                        checkShares totalCap
where
  /-- The checks behind the request hash. -/
  checkShares (totalCap : Int) : Verdict :=
    if totalCap < 0 ∨ 2 ^ 256 - 1 < totalCap then .totalMaxSpendOutOfRange
    else if totalCap < (payees.map Prod.snd).sum then
      .overAuthorization (payees.map Prod.snd).sum totalCap
    else if v.lib.isAddress payee = false then .payeeNotAnAddress payee
    else
      match normalizeShare shareWei with
      | .error error => .shareInvalid error
      | .ok queriedShare =>
          if ¬ payees.any (fun p => v.lib.lower p.1 = v.lib.lower payee ∧ p.2 = queriedShare) then
            .notAMember payee queriedShare
          else
            match payload.expiryUnix with
            | none => .expiryInvalid
            | some expiry => if expiry ≤ nowUnix then .expired nowUnix expiry else .authorized

def verifyPerStageAuthorization (v : Verifier) (payload : PerStagePayload) (signature : HexField)
    (payees : List (String × Int)) (payee : String) (shareWei : Int) (nowUnix : Int) :
    Except RecoverError Verdict := do
  let recovered ← recoverSigner v.signing v.chainId (buildTypedData v.signing payload) signature
  .ok (checkPerStageAuthorization v payload recovered payees payee shareWei nowUnix)

end Prsm.PerStage
