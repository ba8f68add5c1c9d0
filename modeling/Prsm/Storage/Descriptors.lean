import Prsm.Foundations.LatestWins
import Prsm.Foundations.PyValue
import Prsm.Storage.BlobStore

/-!
# Descriptors of `DistributionManager`

A descriptor is signed by the owner or by the contract.  Of two descriptors of one content
the one with the higher epoch and version is kept, and of two with the same the first.
-/

namespace Prsm.Storage

open Foundations
open Evm (Bytes)
open Settlement (utf8)

structure ReplicationPolicy where
  replicationFactor : ℤ
  minAsnDiversity : ℤ
  ownerExcluded : Bool
  keyShardSeparation : Bool
  degradedConstraints : List String

structure ContentDescriptor where
  contentHash : ContentHash
  manifestHolders : List String
  keyShareHolders : List String
  contractKeyShareHolders : List String
  shardMap : Dict String (List String)
  replicationPolicy : ReplicationPolicy
  visibility : String
  epoch : ℤ
  version : ℤ
  ownerNodeId : String
  contractPubkey : Bytes
  signature : Bytes
  signerType : String
  createdAt : ℚ
  updatedAt : ℚ

/-- Ed25519, by the bytes of the keys. -/
structure Signatures where
  sign : Bytes → Bytes → Bytes
  verify : Bytes → Bytes → Bytes → Bool

/-! ## Signing -/

def sortedStrings (strings : List String) : Json :=
  .array ((strings.insertionSort (· ≤ ·)).map .str)

def descriptorSigningData (d : ContentDescriptor) : Bytes :=
  utf8 (Json.dumps (.object
    [("content_hash", .str d.contentHash.hex),
      ("contract_key_share_holders", sortedStrings d.contractKeyShareHolders),
      ("contract_pubkey", .str (Settlement.hex d.contractPubkey)),
      ("epoch", .int d.epoch),
      ("key_share_holders", sortedStrings d.keyShareHolders),
      ("manifest_holders", sortedStrings d.manifestHolders),
      ("owner_node_id", .str d.ownerNodeId),
      ("replication_policy", .object
        [("degraded_constraints", sortedStrings d.replicationPolicy.degradedConstraints),
          ("key_shard_separation", .bool d.replicationPolicy.keyShardSeparation),
          ("min_asn_diversity", .int d.replicationPolicy.minAsnDiversity),
          ("owner_excluded", .bool d.replicationPolicy.ownerExcluded),
          ("replication_factor", .int d.replicationPolicy.replicationFactor)]),
      ("shard_map", .object (d.shardMap.entries.map fun entry =>
        (entry.1, sortedStrings entry.2))),
      ("version", .int d.version),
      ("visibility", .str d.visibility)]))

variable (signatures : Signatures)

def signDescriptor (d : ContentDescriptor) (privateKey : Bytes) (signerType : String) :
    ContentDescriptor :=
  { d with
    signature := signatures.sign privateKey (descriptorSigningData d)
    signerType := signerType }

def verifyDescriptorSignature (d : ContentDescriptor) (publicKey : Bytes) : Bool :=
  signatures.verify publicKey (descriptorSigningData d) d.signature

/-- The signature of the owner or, by the key that the descriptor names, of the contract. -/
def ValidlySigned (ownerKey : Bytes) (d : ContentDescriptor) : Prop :=
  d.signerType = "owner" ∧ verifyDescriptorSignature signatures d ownerKey = true ∨
    d.signerType = "contract" ∧ verifyDescriptorSignature signatures d d.contractPubkey = true

/-- `_validate_contract_update`: what the contract must leave as it is. -/
def validateContractUpdate (base updated : ContentDescriptor) : Bool :=
  if base.ownerNodeId ≠ updated.ownerNodeId then false
  else if base.epoch ≠ updated.epoch then false
  else if base.visibility ≠ updated.visibility then false
  else if base.replicationPolicy.replicationFactor ≠ updated.replicationPolicy.replicationFactor ∨
      base.replicationPolicy.minAsnDiversity ≠ updated.replicationPolicy.minAsnDiversity ∨
      base.replicationPolicy.ownerExcluded ≠ updated.replicationPolicy.ownerExcluded ∨
      base.replicationPolicy.keyShardSeparation ≠
        updated.replicationPolicy.keyShardSeparation then false
  else if base.contractPubkey ≠ updated.contractPubkey then false
  else true

/-! ## Conflicts -/

/-- What two descriptors are compared by. -/
def ContentDescriptor.rank (d : ContentDescriptor) : ℤ ×ₗ ℤ :=
  toLex (d.epoch, d.version)

def resolveConflict (a b : ContentDescriptor) : ContentDescriptor :=
  if a.rank ≥ b.rank then a else b

/-- The descriptor that a node holds after it has received them one after another. -/
def held : List ContentDescriptor → Option ContentDescriptor
  | [] => none
  | d :: rest => some (rest.foldl resolveConflict d)

/-- The nodes that have received these descriptors, in whatever order and how often, all
hold the same one. -/
def Converge (descriptors : List ContentDescriptor) : Prop :=
  ∀ received received' : List ContentDescriptor, (∀ d, d ∈ received ↔ d ∈ descriptors) →
    (∀ d, d ∈ received' ↔ d ∈ descriptors) → held received = held received'

/-- No other descriptor has a higher epoch and version. -/
def Highest (descriptors : List ContentDescriptor) (d : ContentDescriptor) : Prop :=
  d ∈ descriptors ∧ ∀ other ∈ descriptors, other.rank ≤ d.rank

theorem held_eq (descriptors : List ContentDescriptor) :
    held descriptors = latest ContentDescriptor.rank descriptors := by
  cases descriptors with
  | nil => rfl
  | cons d rest => rfl

theorem highest_iff {descriptors : List ContentDescriptor} {d : ContentDescriptor} :
    Highest descriptors d ↔ IsLatest ContentDescriptor.rank descriptors d :=
  ⟨fun h => ⟨h.1, h.2⟩, fun h => ⟨h.mem, h.le⟩⟩

/-- Replicas converge exactly if only one of the descriptors has the highest epoch and
version.  The operation is associative and idempotent, and it commutes exactly on descriptors
that are the same or differ in epoch or version. -/
theorem replicas_converge_iff (descriptors : List ContentDescriptor) :
    (Converge descriptors ↔
      ∀ a b, Highest descriptors a → Highest descriptors b → a = b) ∧
    (∀ a b, resolveConflict a b = resolveConflict b a ↔
      ((a.epoch, a.version) = (b.epoch, b.version) → a = b)) ∧
    (∀ a b c, resolveConflict (resolveConflict a b) c =
      resolveConflict a (resolveConflict b c)) ∧
    ∀ a, resolveConflict a a = a := by
  refine ⟨?_, fun a b => later_comm_iff, fun a b c => later_assoc, fun a => later_self⟩
  simp only [Converge, held_eq, highest_iff]
  exact latest_unique_iff

/-! ## Updates of the contract -/

/-- The two descriptors differ only in what an update of the contract may change. -/
def Bounded (base updated : ContentDescriptor) : Prop :=
  updated = { base with
    shardMap := updated.shardMap
    manifestHolders := updated.manifestHolders
    keyShareHolders := updated.keyShareHolders
    contractKeyShareHolders := updated.contractKeyShareHolders
    updatedAt := updated.updatedAt
    version := updated.version
    signature := updated.signature
    signerType := updated.signerType }

/-- The two agree on every field that the check compares. -/
structure AgreeOnCompared (base updated : ContentDescriptor) : Prop where
  ownerNodeId : base.ownerNodeId = updated.ownerNodeId
  epoch : base.epoch = updated.epoch
  visibility : base.visibility = updated.visibility
  replicationFactor :
    base.replicationPolicy.replicationFactor = updated.replicationPolicy.replicationFactor
  minAsnDiversity :
    base.replicationPolicy.minAsnDiversity = updated.replicationPolicy.minAsnDiversity
  ownerExcluded : base.replicationPolicy.ownerExcluded = updated.replicationPolicy.ownerExcluded
  keyShardSeparation :
    base.replicationPolicy.keyShardSeparation = updated.replicationPolicy.keyShardSeparation
  contractPubkey : base.contractPubkey = updated.contractPubkey

/-- The two agree on the fields that are neither compared nor the contract's to change. -/
def AgreeOnForgotten (base updated : ContentDescriptor) : Prop :=
  base.contentHash = updated.contentHash ∧ base.createdAt = updated.createdAt ∧
    base.replicationPolicy.degradedConstraints = updated.replicationPolicy.degradedConstraints

theorem validateContractUpdate_iff {base updated : ContentDescriptor} :
    validateContractUpdate base updated = true ↔ AgreeOnCompared base updated := by
  unfold validateContractUpdate
  constructor
  · intro h
    split_ifs at h with hOwner hEpoch hVisibility hPolicy hPubkey
    simp only [not_or, not_not] at hOwner hEpoch hVisibility hPolicy hPubkey
    obtain ⟨hFactor, hDiversity, hExcluded, hSeparation⟩ := hPolicy
    exact ⟨hOwner, hEpoch, hVisibility, hFactor, hDiversity, hExcluded, hSeparation, hPubkey⟩
  · rintro ⟨hOwner, hEpoch, hVisibility, hFactor, hDiversity, hExcluded, hSeparation, hPubkey⟩
    simp [hOwner, hEpoch, hVisibility, hFactor, hDiversity, hExcluded, hSeparation, hPubkey]

theorem bounded_iff {base updated : ContentDescriptor} (h : AgreeOnCompared base updated) :
    Bounded base updated ↔ AgreeOnForgotten base updated := by
  obtain ⟨hOwner, hEpoch, hVisibility, hFactor, hDiversity, hExcluded, hSeparation, hPubkey⟩ := h
  obtain ⟨baseHash, _, _, _, _, basePolicy, _, _, _, _, _, _, _, baseCreated, _⟩ := base
  obtain ⟨hash, _, _, _, _, policy, _, _, _, _, _, _, _, created, _⟩ := updated
  obtain ⟨_, _, _, _, baseDegraded⟩ := basePolicy
  obtain ⟨_, _, _, _, degraded⟩ := policy
  simp only at hOwner hEpoch hVisibility hFactor hDiversity hExcluded hSeparation hPubkey
  subst hOwner hEpoch hVisibility hFactor hDiversity hExcluded hSeparation hPubkey
  simp only [Bounded, AgreeOnForgotten, ContentDescriptor.mk.injEq, ReplicationPolicy.mk.injEq,
    true_and, and_true]
  constructor
  · rintro ⟨rfl, rfl, rfl⟩
    exact ⟨rfl, rfl, rfl⟩
  · rintro ⟨rfl, rfl, rfl⟩
    exact ⟨rfl, rfl, rfl⟩

/-- An update that the check lets through is within bounds exactly when the check refuses it or
the content hash, the time of creation and the degraded constraints are the same. -/
theorem validateContractUpdate_bounded_iff (base updated : ContentDescriptor) :
    (validateContractUpdate base updated = true → Bounded base updated) ↔
      ¬ AgreeOnCompared base updated ∨ AgreeOnForgotten base updated := by
  rw [validateContractUpdate_iff]
  constructor
  · intro h
    by_cases hCompared : AgreeOnCompared base updated
    · exact Or.inr ((bounded_iff hCompared).mp (h hCompared))
    · exact Or.inl hCompared
  · rintro (hNot | hForgotten) hCompared
    · exact absurd hCompared hNot
    · exact (bounded_iff hCompared).mpr hForgotten

/-! ## Two updates of one version -/

namespace Sample

def policy : ReplicationPolicy where
  replicationFactor := 3
  minAsnDiversity := 2
  ownerExcluded := true
  keyShardSeparation := true
  degradedConstraints := []

/-- A signature shows the key and the data. -/
def openSignatures : Signatures where
  sign := fun key data => key ++ data
  verify := fun key data signature => signature = key ++ data

def descriptor (version : ℤ) (holders : List String) : ContentDescriptor where
  contentHash := ⟨.sha256, [1, 2, 3, 4]⟩
  manifestHolders := ["node-2"]
  keyShareHolders := ["node-6"]
  contractKeyShareHolders := ["node-6"]
  shardMap := (∅ : Dict String (List String)).set "01ab" holders
  replicationPolicy := policy
  visibility := "public"
  epoch := 1
  version := version
  ownerNodeId := "node-1"
  contractPubkey := [9]
  signature := []
  signerType := ""
  createdAt := 1000
  updatedAt := 2000

/-- What the owner has published. -/
def base : ContentDescriptor :=
  signDescriptor openSignatures (descriptor 1 ["node-2", "node-3"]) [7] "owner"

/-- The shard is moved by the contract, or by the owner. -/
def moved : ContentDescriptor :=
  signDescriptor openSignatures (descriptor 2 ["node-2", "node-4"]) [9] "contract"

def movedByOwner : ContentDescriptor :=
  signDescriptor openSignatures (descriptor 2 ["node-3", "node-5"]) [7] "owner"

theorem verify_signDescriptor (d : ContentDescriptor) (key : Bytes) (signerType : String) :
    verifyDescriptorSignature openSignatures (signDescriptor openSignatures d key signerType)
      key = true :=
  decide_eq_true rfl

/-- Two nodes that have received the same three descriptors hold different ones. -/
theorem replicas_diverge :
    (∀ d ∈ [base, moved, movedByOwner], ValidlySigned openSignatures [7] d) ∧
      validateContractUpdate base moved = true ∧
      ¬ Converge [base, moved, movedByOwner] := by
  refine ⟨?_, by decide, fun h => ?_⟩
  · intro d hd
    simp only [List.mem_cons, List.not_mem_nil, or_false] at hd
    rcases hd with rfl | rfl | rfl
    · exact .inl ⟨rfl, verify_signDescriptor _ _ _⟩
    · exact .inr ⟨rfl, verify_signDescriptor _ _ _⟩
    · exact .inl ⟨rfl, verify_signDescriptor _ _ _⟩
  · have hHeld := h [base, moved, movedByOwner] [base, movedByOwner, moved] (fun d => Iff.rfl)
      (fun d => by simp only [List.mem_cons, List.not_mem_nil, or_false]; tauto)
    have hFirst : held [base, moved, movedByOwner] = some moved := by rfl
    have hOther : held [base, movedByOwner, moved] = some movedByOwner := by rfl
    rw [hFirst, hOther] at hHeld
    have hMaps := congrArg (Option.map ContentDescriptor.shardMap) hHeld
    revert hMaps
    decide

/-- The contract names another content. -/
theorem validateContractUpdate_other_content :
    validateContractUpdate base { moved with contentHash := ⟨.sha256, [5]⟩ } = true ∧
      ¬ Bounded base { moved with contentHash := ⟨.sha256, [5]⟩ } := by
  refine ⟨by decide, fun h => ?_⟩
  have hHash := congrArg ContentDescriptor.contentHash h
  revert hHash
  decide

end Sample

end Prsm.Storage
