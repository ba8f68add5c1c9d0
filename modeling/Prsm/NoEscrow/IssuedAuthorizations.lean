import Prsm.Foundations.Dict
import Prsm.Settlement.Receipt

/-!
# The authorizations that a requester issued

A requester retains the payment authorizations that it signs, so that it can
tell the batches committed against its escrow apart: `matchUnauthorizedBatches`
classifies a batch as unauthorized when no retained authorization to its
provider covers it.

The store is bounded.  Recording evicts the oldest entries, and pruning drops
old ones, so what is retained may be less than what was issued.
-/

namespace Prsm.NoEscrow

open Foundations Evm Settlement

structure IssuedAuthorization where
  requester : String
  provider : String
  maxSpendWei : Int
  jobNonce : String
  expiryUnix : Int
  requestHash : String
  linkedJobId : Option String
  issuedAt : Int
  deriving DecidableEq

/-! ## The store -/

/-- The store: the authorizations under their nonces, the oldest first. -/
structure IssuedAuthorizationStore where
  auths : Dict String IssuedAuthorization
  maxEntries : Nat
  keyed : auths.All fun key auth => key = auth.jobNonce
  maxEntries_pos : 0 < maxEntries

namespace IssuedAuthorizationStore

def empty (maxEntries : Nat) (hPos : 0 < maxEntries) : IssuedAuthorizationStore :=
  ⟨∅, maxEntries, Dict.all_empty _, hPos⟩

/-- Move the authorization to the newest place. -/
def refresh (auths : Dict String IssuedAuthorization) (auth : IssuedAuthorization) :
    Dict String IssuedAuthorization :=
  (auths.erase auth.jobNonce).set auth.jobNonce auth

variable {auths : Dict String IssuedAuthorization}

theorem keyed_refresh
    (h : auths.All fun key auth => key = auth.jobNonce) (auth : IssuedAuthorization) :
    (refresh auths auth).All fun key auth => key = auth.jobNonce :=
  (h.erase auth.jobNonce).set rfl

/-- The last entries, as many as the store holds. -/
def newest (maxEntries : Nat) (auths : Dict String IssuedAuthorization) :
    Dict String IssuedAuthorization :=
  ⟨auths.entries.drop (auths.entries.length - maxEntries),
    auths.nodup.sublist ((List.drop_sublist _ _).map _)⟩

theorem mem_entries_of_newest {maxEntries : Nat}
    {entry : String × IssuedAuthorization} (h : entry ∈ (newest maxEntries auths).entries) :
    entry ∈ auths.entries :=
  List.mem_of_mem_drop h

theorem keyed_newest
    (h : auths.All fun key auth => key = auth.jobNonce) (maxEntries : Nat) :
    (newest maxEntries auths).All fun key auth => key = auth.jobNonce :=
  fun key auth hGet =>
    h key auth (Dict.mem_entries_iff.mp (mem_entries_of_newest (Dict.mem_entries_iff.mpr hGet)))

theorem keyed_foldl_refresh
    (h : auths.All fun key auth => key = auth.jobNonce) (recorded : List IssuedAuthorization) :
    (recorded.foldl refresh auths).All fun key auth => key = auth.jobNonce := by
  induction recorded generalizing auths with
  | nil => exact h
  | cons auth rest ih => exact ih (keyed_refresh h auth)

/-- The common body of `record` and `record_per_stage`. -/
def recordAll (store : IssuedAuthorizationStore) (recorded : List IssuedAuthorization) :
    IssuedAuthorizationStore where
  auths := newest store.maxEntries (recorded.foldl refresh store.auths)
  maxEntries := store.maxEntries
  keyed := keyed_newest (keyed_foldl_refresh store.keyed recorded) store.maxEntries
  maxEntries_pos := store.maxEntries_pos

def record (store : IssuedAuthorizationStore) (auth : IssuedAuthorization) :
    IssuedAuthorizationStore :=
  store.recordAll [auth]

/-- The entry that `record_per_stage` keeps for one payee. -/
def perStageEntry (lower : String → String) (auth : IssuedAuthorization) (payee : String × Int) :
    IssuedAuthorization :=
  { auth with
    provider := payee.1
    maxSpendWei := payee.2
    jobNonce := auth.jobNonce ++ "#" ++ lower payee.1 }

/-- `record_per_stage`, with the payload's fields in an authorization. -/
def recordPerStage (lower : String → String) (store : IssuedAuthorizationStore)
    (auth : IssuedAuthorization) (payeesWei : List (String × Int)) : IssuedAuthorizationStore :=
  store.recordAll (payeesWei.map (perStageEntry lower auth))

theorem keyed_linkJob
    (h : auths.All fun key auth => key = auth.jobNonce) {jobNonce : String}
    {auth : IssuedAuthorization} (hGet : auths.get? jobNonce = some auth) (jobId : String) :
    (auths.set jobNonce { auth with linkedJobId := some jobId }).All
      fun key auth => key = auth.jobNonce := by
  have hKey : jobNonce = auth.jobNonce := h jobNonce auth hGet
  exact h.set hKey

def linkJob (store : IssuedAuthorizationStore) (jobNonce jobId : String) :
    IssuedAuthorizationStore :=
  match hGet : store.auths.get? jobNonce with
  | none => store
  | some auth =>
      { store with
        auths := store.auths.set jobNonce { auth with linkedJobId := some jobId }
        keyed := keyed_linkJob store.keyed hGet jobId }

/-- The entries that `prune` keeps. -/
def retained (cutoff : Int) (auths : Dict String IssuedAuthorization) :
    Dict String IssuedAuthorization :=
  ⟨auths.entries.filter fun entry => cutoff ≤ entry.2.issuedAt,
    auths.nodup.sublist (List.filter_sublist.map _)⟩

theorem keyed_retained
    (h : auths.All fun key auth => key = auth.jobNonce) (cutoff : Int) :
    (retained cutoff auths).All fun key auth => key = auth.jobNonce :=
  fun key auth hGet =>
    h key auth (Dict.mem_entries_iff.mp (List.mem_of_mem_filter (Dict.mem_entries_iff.mpr hGet)))

def prune (store : IssuedAuthorizationStore) (retentionSeconds now : Int) :
    IssuedAuthorizationStore :=
  { store with
    auths := retained (now - retentionSeconds) store.auths
    keyed := keyed_retained store.keyed (now - retentionSeconds) }

def allAuthorizations (store : IssuedAuthorizationStore) : List IssuedAuthorization :=
  store.auths.entries.map Prod.snd

def authorizationsForProvider (lower : String → String) (store : IssuedAuthorizationStore)
    (provider : String) : List IssuedAuthorization :=
  store.allAuthorizations.filter fun auth => lower auth.provider = lower provider

theorem mem_authorizationsForProvider {lower : String → String} {store : IssuedAuthorizationStore}
    {provider : String} {auth : IssuedAuthorization} :
    auth ∈ store.authorizationsForProvider lower provider ↔
      auth ∈ store.allAuthorizations ∧ lower auth.provider = lower provider := by
  rw [authorizationsForProvider, List.mem_filter, decide_eq_true_iff]

end IssuedAuthorizationStore

/-! ## The matcher -/

inductive Classification
  | authorized
  | unauthorized
  deriving DecidableEq

inductive MatchBasis
  | exactJobLink
  | providerValueHeuristic
  | none

structure CommittedBatchView where
  batchId : Bytes32
  requester : String
  provider : String
  totalValueWei : Int
  commitTimestamp : Int
  leafJobIdHashes : Option (List Bytes32)

structure BatchAuthorizationClassification where
  batchId : Bytes32
  requester : String
  provider : String
  totalValueWei : Int
  classification : Classification
  matchBasis : MatchBasis

def exactJobLinkCovers (keccak256 : Keccak) (batch : CommittedBatchView)
    (auths : List IssuedAuthorization) : Bool :=
  match batch.leafJobIdHashes with
  | none => false
  | some hashes =>
      auths.any fun auth =>
        match auth.linkedJobId with
        | none => false
        | some jobId => keccak256 (utf8 jobId) ∈ hashes

def heuristicCovers (batch : CommittedBatchView) (auths : List IssuedAuthorization) : Bool :=
  auths.any fun auth =>
    batch.totalValueWei ≤ auth.maxSpendWei ∧ batch.commitTimestamp ≤ auth.expiryUnix

/-- One round of the matcher. -/
def classifyBatch (lower : String → String) (keccak256 : Keccak)
    (store : IssuedAuthorizationStore) (batch : CommittedBatchView) :
    BatchAuthorizationClassification :=
  let providerAuths := store.authorizationsForProvider lower batch.provider
  let outcome :=
    if exactJobLinkCovers keccak256 batch providerAuths then
      (Classification.authorized, MatchBasis.exactJobLink)
    else if heuristicCovers batch providerAuths then
      (Classification.authorized, MatchBasis.providerValueHeuristic)
    else (Classification.unauthorized, MatchBasis.none)
  { batchId := batch.batchId
    requester := batch.requester
    provider := batch.provider
    totalValueWei := batch.totalValueWei
    classification := outcome.1
    matchBasis := outcome.2 }

def matchUnauthorizedBatches (lower : String → String) (keccak256 : Keccak)
    (batches : List CommittedBatchView) (store : IssuedAuthorizationStore) (myAddress : String) :
    List BatchAuthorizationClassification :=
  (batches.filter fun batch => lower batch.requester = lower myAddress).map
    (classifyBatch lower keccak256 store)

/-! ## What the matcher decides -/

/-- A retained authorization to the provider is linked to one of the hashes. -/
def Linked (lower : String → String) (keccak256 : Keccak) (store : IssuedAuthorizationStore)
    (provider : String) (hashes : List Bytes32) : Prop :=
  ∃ auth ∈ store.allAuthorizations, lower auth.provider = lower provider ∧
    ∃ jobId, auth.linkedJobId = some jobId ∧ keccak256 (utf8 jobId) ∈ hashes

/-- A single retained authorization to the provider covers the value at the
time. -/
def Covered (lower : String → String) (store : IssuedAuthorizationStore) (provider : String)
    (totalValueWei commitTimestamp : Int) : Prop :=
  ∃ auth ∈ store.allAuthorizations, lower auth.provider = lower provider ∧
    totalValueWei ≤ auth.maxSpendWei ∧ commitTimestamp ≤ auth.expiryUnix
variable {batch : CommittedBatchView} {lower : String → String} {store : IssuedAuthorizationStore}

theorem exactJobLinkCovers_iff {keccak256 : Keccak} :
    exactJobLinkCovers keccak256 batch (store.authorizationsForProvider lower batch.provider) =
        true ↔
      ∃ hashes, batch.leafJobIdHashes = some hashes ∧
        Linked lower keccak256 store batch.provider hashes := by
  have hLink : ∀ (auth : IssuedAuthorization) (hashes : List Bytes32),
      (match auth.linkedJobId with
        | none => false
        | some jobId => decide (keccak256 (utf8 jobId) ∈ hashes)) = true ↔
        ∃ jobId, auth.linkedJobId = some jobId ∧ keccak256 (utf8 jobId) ∈ hashes := by
    intro auth hashes
    cases auth.linkedJobId with
    | none => simp
    | some jobId => simp
  rw [exactJobLinkCovers]
  cases batch.leafJobIdHashes with
  | none => simp
  | some hashes =>
      simp only [List.any_eq_true, hLink, IssuedAuthorizationStore.mem_authorizationsForProvider,
        Option.some.injEq, exists_eq_left', Linked, and_assoc]

theorem heuristicCovers_iff :
    heuristicCovers batch (store.authorizationsForProvider lower batch.provider) = true ↔
      Covered lower store batch.provider batch.totalValueWei batch.commitTimestamp := by
  simp only [heuristicCovers, List.any_eq_true, decide_eq_true_eq,
    IssuedAuthorizationStore.mem_authorizationsForProvider, Covered, and_assoc]

theorem classifyBatch_unauthorized_iff {keccak256 : Keccak} :
    (classifyBatch lower keccak256 store batch).classification = .unauthorized ↔
      ¬ ((∃ hashes, batch.leafJobIdHashes = some hashes ∧
          Linked lower keccak256 store batch.provider hashes) ∨
        Covered lower store batch.provider batch.totalValueWei batch.commitTimestamp) := by
  rw [← exactJobLinkCovers_iff, ← heuristicCovers_iff, classifyBatch]
  by_cases hExact : exactJobLinkCovers keccak256 batch
      (store.authorizationsForProvider lower batch.provider) = true
  · simp [hExact]
  · by_cases hCovers : heuristicCovers batch
        (store.authorizationsForProvider lower batch.provider) = true <;> simp [hExact, hCovers]

end Prsm.NoEscrow
