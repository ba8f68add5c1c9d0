import Prsm.Epochs.Planning
import Prsm.RewardPool.Solvency
import Prsm.Settlement.MerkleTree

/-!
# The claims on a planned epoch

An epoch is planned and built off chain, published, and then claimed entry by
entry while other transactions come in between.  The pool pays out of one
counter, so what an earner of this epoch gets also depends on the claims on the
other epochs.  As long as those are on epochs that were not reclaimed, every
entry can be claimed exactly once, and the entries together exhaust the epoch.
-/

namespace Prsm

open Foundations
open Evm

/-! ## Which transactions mark an account as paid -/

namespace RewardPool

variable {keccak256 : Keccak} {env : Env} {s s' : State} {t t' : Token} {events : List Event}
  {w w' : World} {i : Input} {id : Uint 256} {account : Address}

/-- The call is a claim of the account on the epoch. -/
def Call.claims (id : Uint 256) (account : Address) : Call → Bool
  | .claim epochId claimant _ _ => epochId = id ∧ claimant = account
  | _ => false

/-- The transaction is a claim of the account on the epoch. -/
def Input.claims (id : Uint 256) (account : Address) : Input → Bool
  | .pool _ c => c.claims id account
  | .token _ _ => false

/-- A claim, on whatever epoch. -/
def Input.IsClaim : Input → Prop
  | .pool _ (.claim ..) => True
  | _ => False

theorem claim_eq_ok {amount : Uint 256} {proof : List Bytes32}
    (h : claim keccak256 env s t id account amount proof = .ok (s', t', events)) :
    s.hasClaimed id account = false ∧ (s.epochs id).publishedAt ≠ 0 ∧
      MerkleProof.verify keccak256 proof (s.epochs id).merkleRoot
        (leafHash keccak256 id account amount) = true ∧
      s' = s.recordClaim id account ((s.epochs id).claimedAmount + amount)
        (s.totalReserved - amount) := by
  simp only [claim, bind_eq_ok_iff, require_eq_ok_iff, checkedAdd_eq_ok_iff,
    checkedSub_eq_ok_iff, pure_eq_ok_iff, Prod.mk.injEq] at h
  obtain ⟨-, -, -, hPublished, -, hUnused, -, -, -, hProven, -, -, -, -, -, ⟨-, rfl⟩, -,
    ⟨-, rfl⟩, -, -, rfl, -, -⟩ := h
  exact ⟨hUnused, hPublished, hProven, rfl⟩

theorem recordClaim_hasClaimed (epochId : Uint 256) (claimant : Address) (claimed reserved : Nat) :
    (s.recordClaim epochId claimant claimed reserved).hasClaimed id account =
      (s.hasClaimed id account || decide (epochId = id ∧ claimant = account)) := by
  show Function.update s.hasClaimed epochId _ id account = _
  by_cases hEpoch : id = epochId
  · subst hEpoch
    rw [Function.update_self]
    by_cases hAccount : account = claimant
    · subst hAccount
      simp
    · simp [Function.update_of_ne hAccount, Ne.symm hAccount]
  · simp [Function.update_of_ne hEpoch, Ne.symm hEpoch]

theorem call_hasClaimed {c : Call} (h : call keccak256 env s t c = .ok (s', t', events)) :
    s'.hasClaimed id account = (s.hasClaimed id account || c.claims id account) ∧
      (c.claims id account = true → s.hasClaimed id account = false) := by
  cases c with
  | claim epochId claimant amount proof =>
      obtain ⟨hUnused, -, -, rfl⟩ := claim_eq_ok h
      refine ⟨recordClaim_hasClaimed epochId claimant _ _, fun hClaims => ?_⟩
      obtain ⟨rfl, rfl⟩ : epochId = id ∧ claimant = account := of_decide_eq_true hClaims
      exact hUnused
  | publishEpoch | reclaimUnclaimed | sweepSurplus | setRootPublisher | setPaused | ownership =>
      have hSame : s'.hasClaimed = s.hasClaimed := by
        cases call_poolMove h <;> rfl
      exact ⟨by rw [hSame]; exact (Bool.or_false _).symm, fun hClaims => Bool.noConfusion hClaims⟩

theorem step_pool_cases (h : (machine keccak256).step w i = some w') :
    (∃ env c events, i = .pool env c ∧
        call keccak256 env w.pool w.token c = .ok (w'.pool, w'.token, events)) ∨
      ((∃ env c, i = .token env c) ∧ w'.pool = w.pool) := by
  cases i with
  | pool env c =>
      simp only [machine, step] at h
      split at h
      · split at h
        case h_1 hCall =>
          cases h
          exact .inl ⟨env, c, _, rfl, hCall⟩
        case h_2 => cases h
      · cases h
  | token env c =>
      simp only [machine, step] at h
      split at h
      · split at h
        · cases h
          exact .inr ⟨⟨env, c, rfl⟩, rfl⟩
        · cases h
      · cases h

theorem step_hasClaimed (h : (machine keccak256).step w i = some w') :
    w'.pool.hasClaimed id account = (w.pool.hasClaimed id account || i.claims id account) ∧
      (i.claims id account = true → w.pool.hasClaimed id account = false) := by
  rcases step_pool_cases h with ⟨env, c, events, rfl, hCall⟩ | ⟨⟨env, c, rfl⟩, hPool⟩
  · exact call_hasClaimed hCall
  · exact ⟨by rw [hPool]; exact (Bool.or_false _).symm, fun hClaims => Bool.noConfusion hClaims⟩

theorem countP_claims (id : Uint 256) (account : Address) (w : World) (inputs : List Input) :
    (((machine keccak256).taken w inputs).countP (Input.claims id account)) +
        (w.pool.hasClaimed id account).toNat =
      (((machine keccak256).run w inputs).pool.hasClaimed id account).toNat :=
  (machine keccak256).countP_taken (fun w => w.pool.hasClaimed id account)
    (Input.claims id account) (fun _ _ _ h => step_hasClaimed h) w inputs

/-- Only published epochs have marked accounts. -/
def MarkedPublished (w : World) : Prop :=
  ∀ id account, w.pool.hasClaimed id account = true → (w.pool.epochs id).publishedAt ≠ 0

theorem call_published {c : Call} (h : call keccak256 env s t c = .ok (s', t', events))
    (hPublished : (s.epochs id).publishedAt ≠ 0) : (s'.epochs id).publishedAt ≠ 0 := by
  have hKept : ∀ {epochId : Uint 256} {e : Epoch}, e.publishedAt ≠ 0 →
      (Function.update s.epochs epochId e id).publishedAt ≠ 0 := by
    intro epochId e hNew
    by_cases hSame : id = epochId
    · subst hSame
      rwa [Function.update_self]
    · rwa [Function.update_of_ne hSame]
  cases call_poolMove h with
  | publish hTime => exact hKept hTime
  | claim hClaimed => exact hKept hClaimed
  | reclaim hReclaimed => exact hKept hReclaimed
  | sweep => exact hPublished
  | configure => exact hPublished

theorem MarkedPublished.step (hw : MarkedPublished w)
    (h : (machine keccak256).step w i = some w') : MarkedPublished w' := by
  intro id account hMarked
  rcases step_pool_cases h with ⟨env, c, events, rfl, hCall⟩ | ⟨-, hPool⟩
  · rw [(call_hasClaimed hCall).1, Bool.or_eq_true] at hMarked
    rcases hMarked with hMarked | hClaims
    · exact call_published hCall (hw id account hMarked)
    · cases c with
      | claim epochId claimant amount proof =>
          obtain ⟨rfl, rfl⟩ : epochId = id ∧ claimant = account := of_decide_eq_true hClaims
          exact call_published hCall (claim_eq_ok hCall).2.1
      | publishEpoch | reclaimUnclaimed | sweepSurplus | setRootPublisher | setPaused
      | ownership => cases hClaims
  · rw [hPool] at hMarked ⊢
    exact hw id account hMarked

theorem publishEpoch_eq_ok {merkleRoot : Bytes32} {totalAmount : Uint 256}
    (h : publishEpoch env s t id merkleRoot totalAmount = .ok (s', t', events)) :
    s.paused = false ∧ (s.epochs id).publishedAt = 0 ∧ s'.paused = s.paused ∧
      s'.hasClaimed = s.hasClaimed ∧
      s'.epochs id = ⟨merkleRoot, totalAmount, 0, uint64 env.timestamp, false⟩ := by
  simp only [publishEpoch, bind_eq_ok_iff, require_eq_ok_iff, checkedAdd_eq_ok_iff,
    pure_eq_ok_iff, Prod.mk.injEq] at h
  obtain ⟨-, -, _, hRunning, -, hUnpublished, -, -, -, -, -, -, -, -, rfl, -, -⟩ := h
  exact ⟨require_eq_ok_iff.mp hRunning, hUnpublished, rfl, rfl, Function.update_self ..⟩

end RewardPool

namespace Epochs

open Settlement
open RewardPool (leafHash)

variable {keccak256 : Keccak}

/-! ## Rows and what is hashed for them -/

/-- The byte strings hashed for the leaf of a row. -/
def leafPreimages (keccak256 : Keccak) (id : Uint 256) (row : Row) : List Bytes :=
  [abiEncode [id.val, row.1.val, row.2.val],
    abiWord (keccak256 (abiEncode [id.val, row.1.val, row.2.val])).val]

/-- The byte strings hashed for the tree over the rows. -/
def treePreimages (keccak256 : Keccak) (id : Uint 256) (rows : List Row) : List Bytes :=
  rows.flatMap (leafPreimages keccak256 id) ++ MerkleTree.rootPreimages keccak256
    ((rows.map fun row => leafHash keccak256 id row.1 row.2.val).map MerkleTree.word)

/-- The byte strings hashed to check a claim. -/
def claimPreimages (keccak256 : Keccak) (id : Uint 256) (row : Row) (proof : List Bytes32) :
    List Bytes :=
  leafPreimages keccak256 id row ++ MerkleTree.proofPreimages keccak256
    (proof.map MerkleTree.word) (MerkleTree.word (leafHash keccak256 id row.1 row.2.val))

/-- The byte strings hashed to check the claims on the epoch among the inputs. -/
def inputPreimages (keccak256 : Keccak) (id : Uint 256) : RewardPool.Input → List Bytes
  | .pool _ (.claim epochId account amount proof) =>
      if epochId = id then claimPreimages keccak256 id (account, amount) proof else []
  | _ => []

theorem leafHash_injective {id : Uint 256} {row other : Row} {preimages : List Bytes}
    (hFree : MerkleTree.CollisionFree keccak256 preimages)
    (hRow : ∀ p ∈ leafPreimages keccak256 id row, p ∈ preimages)
    (hOther : ∀ p ∈ leafPreimages keccak256 id other, p ∈ preimages)
    (h : leafHash keccak256 id row.1 row.2.val = leafHash keccak256 id other.1 other.2.val) :
    row = other := by
  have hOuter := hFree _ (hRow _ (by simp [leafPreimages])) _ (hOther _ (by simp [leafPreimages])) h
  have hInner := Fin.ext (abiWord_injective (Fin.isLt _) (Fin.isLt _) hOuter)
  have hEncoded := hFree _ (hRow _ List.mem_cons_self) _ (hOther _ List.mem_cons_self) hInner
  have hWords : ∀ r : Row, ∀ x ∈ [id.val, r.1.val, r.2.val], x < 2 ^ 256 := by
    intro r x hx
    have hAddress : r.1.val < 2 ^ 256 :=
      r.1.isLt.trans (Nat.pow_lt_pow_right (by decide) (by decide))
    simp only [List.mem_cons, List.not_mem_nil, or_false] at hx
    rcases hx with rfl | rfl | rfl
    · exact id.isLt
    · exact hAddress
    · exact r.2.isLt
  have hLists := abiEncode_injective
    (show [id.val, row.1.val, row.2.val].length = [id.val, other.1.val, other.2.val].length from rfl)
    (hWords row) (hWords other) hEncoded
  simp only [List.cons.injEq] at hLists
  exact Prod.ext (Fin.ext hLists.2.1) (Fin.ext hLists.2.2.1)

theorem Built.mem_rows {codec : AddressCodec} {epoch : RewardEpoch} {id : Uint 256}
    {rows : List Row} (hBuilt : Built codec keccak256 epoch id rows) {row : Row}
    {proof : List Bytes32}
    (hFree : MerkleTree.CollisionFree keccak256
      (treePreimages keccak256 id rows ++ claimPreimages keccak256 id row proof))
    (hVerify : MerkleProof.verify keccak256 proof epoch.merkleRoot
      (leafHash keccak256 id row.1 row.2.val) = true) : row ∈ rows := by
  have hRoot : MerkleTree.buildMerkleRoot keccak256 (epoch.leafHashes.map MerkleTree.word)
      = some (MerkleTree.word epoch.merkleRoot) := by
    rw [MerkleTree.buildMerkleRoot_word, hBuilt.root_eq]
    rfl
  have hSome : epoch.leafHashes ≠ [] :=
    (buildMerkleRoot_isSome_iff _).mp (by rw [hBuilt.root_eq]; rfl)
  have hSized : ∀ hashes : List Bytes32, MerkleTree.HashSized (hashes.map MerkleTree.word) := by
    intro hashes hash hMem
    obtain ⟨x, -, rfl⟩ := List.mem_map.mp hMem
    exact length_abiWord _
  have hLeafRows : ∀ r ∈ row :: rows, ∀ p ∈ leafPreimages keccak256 id r,
      p ∈ treePreimages keccak256 id rows ++ claimPreimages keccak256 id row proof := by
    intro r hr p hp
    rcases List.mem_cons.mp hr with rfl | hr
    · exact List.mem_append_right _ (List.mem_append_left _ hp)
    · exact List.mem_append_left _ (List.mem_append_left _ (List.mem_flatMap.mpr ⟨r, hr, hp⟩))
  have hPairs : ∀ p ∈ MerkleTree.rootPreimages keccak256 (epoch.leafHashes.map MerkleTree.word) ++
      MerkleTree.proofPreimages keccak256 (proof.map MerkleTree.word)
        (MerkleTree.word (leafHash keccak256 id row.1 row.2.val)),
      p ∈ treePreimages keccak256 id rows ++ claimPreimages keccak256 id row proof := by
    intro p hp
    rcases List.mem_append.mp hp with hp | hp
    · rw [hBuilt.leafHashes_eq] at hp
      exact List.mem_append_left _ (List.mem_append_right _ hp)
    · exact List.mem_append_right _ (List.mem_append_right _ hp)
  -- a leaf is the hash of 32 bytes, so it is not the hash of a pair
  have hNoPair : MerkleTree.NoLeafIsPair keccak256
      (MerkleTree.word (leafHash keccak256 id row.1 row.2.val) ::
        epoch.leafHashes.map MerkleTree.word)
      (MerkleTree.rootPreimages keccak256 (epoch.leafHashes.map MerkleTree.word) ++
        MerkleTree.proofPreimages keccak256 (proof.map MerkleTree.word)
          (MerkleTree.word (leafHash keccak256 id row.1 row.2.val))) := by
    intro leaf hLeaf p hp hLength hHash
    obtain ⟨r, hr, rfl⟩ : ∃ r ∈ row :: rows,
        leaf = MerkleTree.word (leafHash keccak256 id r.1 r.2.val) := by
      rcases List.mem_cons.mp hLeaf with rfl | hLeaf
      · exact ⟨row, List.mem_cons_self, rfl⟩
      · rw [hBuilt.leafHashes_eq, List.map_map] at hLeaf
        obtain ⟨r, hr, rfl⟩ := List.mem_map.mp hLeaf
        exact ⟨r, List.mem_cons_of_mem _ hr, rfl⟩
    have hSame := hFree p (hPairs p hp) _
      (hLeafRows r hr _ (List.mem_cons_of_mem _ (List.mem_singleton_self _)))
      (MerkleTree.word_injective hHash)
    rw [hSame, length_abiWord] at hLength
    omega
  have hMem := MerkleTree.mem_of_verifyMerkleProof (by simpa using hSome) hRoot (by
      intro hash hMem
      rcases List.mem_cons.mp hMem with rfl | hMem
      · exact length_abiWord _
      · rcases List.mem_append.mp hMem with hMem | hMem
        · exact hSized _ hash hMem
        · exact hSized _ hash hMem)
    (hFree.mono hPairs) hNoPair
    (by rw [MerkleTree.verifyMerkleProof_word]; exact hVerify)
  obtain ⟨leaf, hLeaf, hWord⟩ := List.mem_map.mp hMem
  rw [hBuilt.leafHashes_eq] at hLeaf
  obtain ⟨r, hr, rfl⟩ := List.mem_map.mp hLeaf
  have hEq : r = row := leafHash_injective hFree (hLeafRows r (List.mem_cons_of_mem _ hr))
    (hLeafRows row List.mem_cons_self) (MerkleTree.word_injective hWord)
  exact hEq ▸ hr

/-! ## What the pool records of the epoch -/

/-- The sum of the amounts of the marked accounts. -/
def claimedSum (rows : List Row) (claimed : Address → Bool) : Nat :=
  (rows.map fun row => if claimed row.1 then row.2.val else 0).sum

theorem claimedSum_cons (row : Row) (rows : List Row) (claimed : Address → Bool) :
    claimedSum (row :: rows) claimed =
      (if claimed row.1 then row.2.val else 0) + claimedSum rows claimed := rfl

theorem claimedSum_le (rows : List Row) (claimed : Address → Bool) :
    claimedSum rows claimed ≤ (rows.map fun row => row.2.val).sum := by
  refine List.sum_le_sum fun row _ => ?_
  split
  · exact le_refl _
  · exact Nat.zero_le _

theorem claimedSum_congr {rows : List Row} {claimed claimed' : Address → Bool}
    (h : ∀ row ∈ rows, claimed row.1 = claimed' row.1) :
    claimedSum rows claimed = claimedSum rows claimed' := by
  refine congrArg List.sum (List.map_congr_left fun row hRow => ?_)
  rw [h row hRow]

theorem claimedSum_mark {rows : List Row} (hNodup : (rows.map Prod.fst).Nodup)
    {claimed : Address → Bool} {row : Row} (hRow : row ∈ rows) (hUnused : claimed row.1 = false) :
    claimedSum rows (fun a => claimed a || decide (row.1 = a)) =
      claimedSum rows claimed + row.2.val := by
  induction rows with
  | nil => cases hRow
  | cons first rest ih =>
      obtain ⟨hFirst, hRest⟩ := List.nodup_cons.mp hNodup
      rw [claimedSum_cons, claimedSum_cons]
      rcases List.mem_cons.mp hRow with rfl | hRow
      · -- the rest of the rows belong to other accounts
        have hOthers : claimedSum rest (fun a => claimed a || decide (row.1 = a)) =
            claimedSum rest claimed := by
          refine claimedSum_congr fun other hOther => ?_
          have hNe : row.1 ≠ other.1 := fun hEq => hFirst (hEq ▸ List.mem_map_of_mem hOther)
          simp [hNe]
        rw [hOthers]
        simp [hUnused]
        omega
      · have hNe : row.1 ≠ first.1 := fun hEq => hFirst (hEq ▸ List.mem_map_of_mem hRow)
        rw [ih hRest hRow]
        simp [hNe]
        omega

/-- The pool holds the epoch as published, and has paid the marked rows. -/
structure Serving (epoch : RewardEpoch) (id : Uint 256) (rows : List Row)
    (w : RewardPool.World) : Prop where
  published : (w.pool.epochs id).publishedAt ≠ 0
  root_eq : (w.pool.epochs id).merkleRoot = epoch.merkleRoot
  total_eq : (w.pool.epochs id).totalAmount = (rows.map fun row => row.2.val).sum
  claimed_eq : (w.pool.epochs id).claimedAmount = claimedSum rows (w.pool.hasClaimed id)

variable {codec : AddressCodec} {epoch : RewardEpoch} {id : Uint 256} {rows : List Row}
  {w w' : RewardPool.World} {i : RewardPool.Input}

theorem record_kept {env : RewardPool.Env} {s s' : RewardPool.State} {t t' : Token}
    {events : List RewardPool.Event} {c : RewardPool.Call}
    (hPublished : (s.epochs id).publishedAt ≠ 0)
    (h : RewardPool.call keccak256 env s t c = .ok (s', t', events))
    (hOther : ∀ account amount proof, c ≠ .claim id account amount proof) :
    (s'.epochs id).publishedAt = (s.epochs id).publishedAt ∧
      (s'.epochs id).merkleRoot = (s.epochs id).merkleRoot ∧
      (s'.epochs id).totalAmount = (s.epochs id).totalAmount ∧
      (s'.epochs id).claimedAmount = (s.epochs id).claimedAmount := by
  have hMove := RewardPool.call_poolMove h
  by_cases hAbout : c.epoch? = some id
  · -- the call is about this epoch: it was published before, and this is no claim
    cases hMove with
    | publish hTime hUnpublished hBacked =>
        obtain rfl := Option.some.inj hAbout
        exact absurd hUnpublished hPublished
    | claim =>
        obtain rfl := Option.some.inj hAbout
        exact absurd rfl (hOther _ _ _)
    | reclaim =>
        obtain rfl := Option.some.inj hAbout
        show (Function.update s.epochs _ _ _).publishedAt = _ ∧ _
        simp [RewardPool.State.setEpoch]
    | sweep => cases hAbout
    | configure hCall =>
        rw [hCall] at hAbout
        cases hAbout
  · rw [hMove.isolated id hAbout]
    exact ⟨rfl, rfl, rfl, rfl⟩

theorem Serving.step (hs : Serving epoch id rows w) (hBuilt : Built codec keccak256 epoch id rows)
    (hFree : MerkleTree.CollisionFree keccak256
      (treePreimages keccak256 id rows ++ inputPreimages keccak256 id i))
    (h : (RewardPool.machine keccak256).step w i = some w') : Serving epoch id rows w' := by
  rcases RewardPool.step_pool_cases h with ⟨env, c, events, rfl, hCall⟩ | ⟨-, hPool⟩
  · by_cases hClaim : ∃ account amount proof, c = .claim id account amount proof
    · obtain ⟨account, amount, proof, rfl⟩ := hClaim
      obtain ⟨hUnused, -, hProven, hState⟩ := RewardPool.claim_eq_ok hCall
      rw [hs.root_eq] at hProven
      have hFreeClaim : MerkleTree.CollisionFree keccak256
          (treePreimages keccak256 id rows ++
            claimPreimages keccak256 id (account, amount) proof) := by
        rw [inputPreimages, if_pos rfl] at hFree
        exact hFree
      have hRow : (account, amount) ∈ rows := hBuilt.mem_rows hFreeClaim hProven
      have hEpoch : w'.pool.epochs id = { w.pool.epochs id with
          claimedAmount := (w.pool.epochs id).claimedAmount + amount } := by
        rw [hState]
        exact Function.update_self ..
      have hMarks : w'.pool.hasClaimed id =
          fun a => w.pool.hasClaimed id a || decide (account = a) := by
        funext a
        rw [hState, RewardPool.recordClaim_hasClaimed]
        simp
      refine ⟨?_, ?_, ?_, ?_⟩
      · rw [hEpoch]
        exact hs.published
      · rw [hEpoch]
        exact hs.root_eq
      · rw [hEpoch]
        exact hs.total_eq
      · rw [hEpoch, hMarks, claimedSum_mark hBuilt.nodup hRow hUnused, ← hs.claimed_eq]
    · have hOther : ∀ account amount proof, c ≠ .claim id account amount proof :=
        fun account amount proof hEq => hClaim ⟨account, amount, proof, hEq⟩
      obtain ⟨hTime, hRoot, hTotal, hClaimed⟩ := record_kept hs.published hCall hOther
      have hMarks : ∀ account, w'.pool.hasClaimed id account = w.pool.hasClaimed id account := by
        intro account
        rw [(RewardPool.call_hasClaimed hCall).1]
        cases c with
        | claim epochId claimant amount proof =>
            have hNe : epochId ≠ id := by
              rintro rfl
              exact hOther _ _ _ rfl
            simp [RewardPool.Call.claims, hNe]
        | publishEpoch | reclaimUnclaimed | sweepSurplus | setRootPublisher | setPaused
        | ownership => exact Bool.or_false _
      refine ⟨hTime ▸ hs.published, hRoot.trans hs.root_eq, hTotal.trans hs.total_eq, ?_⟩
      rw [hClaimed, hs.claimed_eq]
      exact claimedSum_congr fun row _ => (hMarks row.1).symm
  · exact ⟨hPool ▸ hs.published, hPool ▸ hs.root_eq, hPool ▸ hs.total_eq, hPool ▸ hs.claimed_eq⟩

/-! ## What the earners can count on -/

/-- The rows of an epoch, read off its entries. -/
def epochRows (codec : AddressCodec) (epoch : RewardEpoch) : List Row :=
  epoch.entries.filterMap fun e =>
    (codec.parse e.account).map fun address => (address, Fin.ofNat _ e.amountWei.toNat)

/-- The epoch has an entry of this account and amount, with this proof. -/
def Entitled (codec : AddressCodec) (epoch : RewardEpoch) (account : Address)
    (amount : Uint 256) (proof : List Bytes32) : Prop :=
  ∃ e ∈ epoch.entries, codec.parse e.account = some account ∧
    (amount.val : Int) = e.amountWei ∧ (e.account, proof) ∈ epoch.proofs

/-- The entries are honoured in this state: whoever was not paid can claim, whoever
was paid cannot again, and once all are paid the epoch is exhausted. -/
structure EntriesHonoured (codec : AddressCodec) (keccak256 : Keccak) (epoch : RewardEpoch)
    (id : Uint 256) (w : RewardPool.World) : Prop where
  claimable : ∀ account amount proof, Entitled codec epoch account amount proof →
    w.pool.paused = false → (w.pool.epochs id).reclaimed = false →
    w.pool.hasClaimed id account = false → ∀ env : RewardPool.Env, env.tokenDeclines = false →
      ∃ outcome, RewardPool.claim keccak256 env w.pool w.token id account amount proof = .ok outcome
  once : ∀ account, w.pool.hasClaimed id account = true → ∀ env amount proof outcome,
    RewardPool.claim keccak256 env w.pool w.token id account amount proof ≠ .ok outcome
  exhausted : (∀ account amount proof, Entitled codec epoch account amount proof →
    w.pool.hasClaimed id account = true) →
      (w.pool.epochs id).claimedAmount = (w.pool.epochs id).totalAmount

theorem Built.epochRows_eq (hBuilt : Built codec keccak256 epoch id rows) :
    epochRows codec epoch = rows := by
  have hRow : ∀ row : Row, (codec.parse (entryOf codec row).account).map (fun address =>
      ((address, Fin.ofNat _ (entryOf codec row).amountWei.toNat) : Row)) = some row := by
    intro row
    show (codec.parse (codec.checksum row.1)).map _ = _
    rw [codec.parse_checksum]
    exact congrArg some (Prod.ext rfl (Fin.ext (Nat.mod_eq_of_lt row.2.isLt)))
  rw [epochRows, hBuilt.entries_eq, List.filterMap_map]
  show rows.filterMap (fun row => _) = rows
  exact (List.filterMap_congr fun row _ => hRow row).trans (List.filterMap_some (l := rows))

theorem Built.row_of_entitled (hBuilt : Built codec keccak256 epoch id rows) {account : Address}
    {amount : Uint 256} {proof : List Bytes32}
    (h : Entitled codec epoch account amount proof) :
    (account, amount) ∈ rows ∧ MerkleProof.verify keccak256 proof epoch.merkleRoot
      (leafHash keccak256 id account amount) = true := by
  obtain ⟨e, he, hParse, hAmount, hProof⟩ := h
  rw [hBuilt.entries_eq] at he
  obtain ⟨row, hRow, rfl⟩ := List.mem_map.mp he
  obtain rfl : row.1 = account := Option.some.inj ((codec.parse_checksum row.1).symm.trans hParse)
  obtain rfl : amount = row.2 := Fin.ext (Int.ofNat_inj.mp hAmount)
  obtain ⟨other, hOther, hAccount, hVerify⟩ := hBuilt.proof_valid _ _ hProof
  -- accounts are distinct, so the proof is the one of this row
  have hSame : other = row :=
    List.inj_on_of_nodup_map hBuilt.nodup hOther hRow (codec.checksum_injective hAccount).symm
  subst hSame
  exact ⟨hRow, hVerify⟩

theorem Built.exists_entitled (hBuilt : Built codec keccak256 epoch id rows) {row : Row}
    (hRow : row ∈ rows) : ∃ proof, Entitled codec epoch row.1 row.2 proof := by
  obtain ⟨proof, hProof⟩ := hBuilt.proof_exists row hRow
  refine ⟨proof, entryOf codec row, ?_, codec.parse_checksum row.1, rfl, hProof⟩
  rw [hBuilt.entries_eq]
  exact List.mem_map_of_mem hRow

theorem Serving.honoured (hs : Serving epoch id rows w)
    (hBuilt : Built codec keccak256 epoch id rows) (hw : RewardPool.WellFormed w)
    (hb : RewardPool.Balanced w.pool w.token) : EntriesHonoured codec keccak256 epoch id w := by
  refine ⟨?_, ?_, ?_⟩
  · intro account amount proof hEntitled hRunning hOpen hUnused env hAccepts
    obtain ⟨hRow, hVerify⟩ := hBuilt.row_of_entitled hEntitled
    have hValid : RewardPool.ValidClaim keccak256 w.pool id account amount proof :=
      ⟨hs.published, hOpen, hUnused, hs.root_eq ▸ hVerify⟩
    have hRemaining : (w.pool.epochs id).claimedAmount + amount.val ≤
        (w.pool.epochs id).totalAmount := by
      rw [hs.claimed_eq, hs.total_eq, ← claimedSum_mark hBuilt.nodup hRow hUnused]
      exact claimedSum_le rows _
    -- the counter holds what the epoch still owes, and the balance the counter
    have hOwed := RewardPool.Epoch.outstanding_of_open hs.published hOpen
    have hPart := RewardPool.outstanding_le_liabilities w.pool id
    have hReserved : amount.val ≤ w.pool.totalReserved := by
      rw [hb.reserved_eq]
      omega
    rw [RewardPool.claim_of_valid hRunning hValid (hBuilt.positive _ hRow) hRemaining
      (hw.total_lt id), checkedSub_of_le RewardPool.panic hReserved, ok_bind]
    simp [RewardPool.pay, hAccepts, Token.transfer_of_le (hReserved.trans hb.covered), raise,
      Except.mapError, require_of_pos, pure, Except.pure]
  · rintro account hUsed env amount proof ⟨s', t', events⟩ hOk
    have hUnused := (RewardPool.claim_eq_ok hOk).1
    rw [hUsed] at hUnused
    cases hUnused
  · intro hAll
    have hSum : claimedSum rows (w.pool.hasClaimed id) = claimedSum rows fun _ => true := by
      refine claimedSum_congr fun row hRow => ?_
      obtain ⟨proof, hEntitled⟩ := hBuilt.exists_entitled hRow
      exact hAll _ _ _ hEntitled
    rw [hs.claimed_eq, hs.total_eq, hSum]
    rfl

theorem serving_of_publication {env : RewardPool.Env} {total : Uint 256}
    (hBuilt : Built codec keccak256 epoch id rows)
    (hTotal : (total.val : Int) = epoch.totalAmountWei) (hMarked : RewardPool.MarkedPublished w)
    (h : (RewardPool.machine keccak256).step w
      (.pool env (.publishEpoch id epoch.merkleRoot total)) = some w') :
    Serving epoch id rows w' ∧ (∀ account, w'.pool.hasClaimed id account = false) ∧
      w'.pool.paused = false ∧ (w'.pool.epochs id).reclaimed = false := by
  rcases RewardPool.step_pool_cases h with ⟨_, _, events, hInput, hCall⟩ | ⟨⟨_, _, hInput⟩, -⟩
  · cases hInput
    obtain ⟨hRunning, hUnpublished, hPaused, hMarks, hRecord⟩ :=
      RewardPool.publishEpoch_eq_ok hCall
    have hUnmarked : ∀ account, w'.pool.hasClaimed id account = false := by
      intro account
      rw [hMarks, Bool.eq_false_iff]
      exact fun hTrue => hMarked id account hTrue hUnpublished
    refine ⟨⟨?_, ?_, ?_, ?_⟩, hUnmarked, hPaused.trans hRunning, ?_⟩
    · rw [hRecord]
      exact RewardPool.uint64_timestamp_ne_zero env
    · rw [hRecord]
    · rw [hRecord]
      exact Int.ofNat_inj.mp (hTotal.trans hBuilt.total_eq)
    · have hNone : claimedSum rows (w'.pool.hasClaimed id) = claimedSum rows fun _ => false :=
        claimedSum_congr fun row _ => hUnmarked row.1
      rw [hRecord, hNone]
      exact (List.sum_eq_zero (by simp)).symm
    · rw [hRecord]
  · cases hInput

theorem claim_keeps_open {epochId : Uint 256} (hClaim : i.IsClaim)
    (hw : w.pool.paused = false ∧ (w.pool.epochs epochId).reclaimed = false)
    (h : (RewardPool.machine keccak256).step w i = some w') :
    w'.pool.paused = false ∧ (w'.pool.epochs epochId).reclaimed = false := by
  rcases RewardPool.step_pool_cases h with ⟨env, c, events, rfl, hCall⟩ | ⟨⟨env, c, rfl⟩, -⟩
  · cases c with
    | claim other account amount proof =>
        obtain ⟨-, -, -, hState⟩ := RewardPool.claim_eq_ok hCall
        rw [hState]
        refine ⟨hw.1, ?_⟩
        show (Function.update w.pool.epochs other _ epochId).reclaimed = false
        by_cases hSame : epochId = other
        · subst hSame
          rw [Function.update_self]
          exact hw.2
        · rw [Function.update_of_ne hSame]
          exact hw.2
    | publishEpoch | reclaimUnclaimed | sweepSurplus | setRootPublisher | setPaused
    | ownership => cases hClaim
  · cases hClaim

/-- The invariant of the runs in which no claim is on a reclaimed epoch. -/
structure Sound (w : RewardPool.World) : Prop where
  wellFormed : RewardPool.WellFormed w
  balanced : RewardPool.Balanced w.pool w.token
  marked : RewardPool.MarkedPublished w

theorem Sound.step (hw : Sound w) (hClaim : RewardPool.ClaimsUnreclaimed w i)
    (h : (RewardPool.machine keccak256).step w i = some w') : Sound w' :=
  ⟨hw.wellFormed.step h, (RewardPool.balanced_step_iff hw.wellFormed hw.balanced h).mpr hClaim,
    hw.marked.step h⟩

theorem sound_of_deployment (d : RewardPool.Deployment) : Sound d.world := by
  obtain ⟨ownable, hState⟩ := d.state_eq
  refine ⟨d.wellFormed, d.balanced, fun id account hMarked => ?_⟩
  rw [hState] at hMarked
  cases hMarked

theorem Serving.honoured_run (hBuilt : Built codec keccak256 epoch id rows)
    {after : List RewardPool.Input} (hw : Sound w) (hs : Serving epoch id rows w)
    (hFree : MerkleTree.CollisionFree keccak256
      (treePreimages keccak256 id rows ++ after.flatMap (inputPreimages keccak256 id)))
    (hClaims : (RewardPool.machine keccak256).EveryStep RewardPool.ClaimsUnreclaimed w after) :
    (RewardPool.machine keccak256).EveryState (EntriesHonoured codec keccak256 epoch id) w after := by
  have hInputs := (RewardPool.machine keccak256).everyStep_mem w after
  have hEvery := (RewardPool.machine keccak256).everyState_of_everyStep
    (fun w => Sound w ∧ Serving epoch id rows w)
    (fun w i => RewardPool.ClaimsUnreclaimed w i ∧ i ∈ after) ?_ ⟨hw, hs⟩ (hClaims.and hInputs)
  · intro visited hVisited
    obtain ⟨hSound, hServing⟩ := hEvery visited hVisited
    exact hServing.honoured hBuilt hSound.wellFormed hSound.balanced
  · rintro w i w' ⟨hSound, hServing⟩ ⟨hClaim, hMem⟩ h
    refine ⟨hSound.step hClaim h, hServing.step hBuilt (hFree.mono fun p hp => ?_) h⟩
    rcases List.mem_append.mp hp with hp | hp
    · exact List.mem_append_left _ hp
    · exact List.mem_append_right _ (List.mem_flatMap.mpr ⟨i, hMem, hp⟩)

/-- An epoch that was planned from finalized batches, built and published.  As
long as no claim of the run is on a reclaimed epoch, every entry can be claimed
in every state until it has been, each account is paid at most once, and when all
are paid the epoch is exhausted.  In a run of claims nothing else can stand in the
way. -/
theorem reward_epoch_honoured (codec : AddressCodec) (lower : String → String)
    (keccak256 : Keccak) (d : RewardPool.Deployment) (before after : List RewardPool.Input)
    {epochId potWei : Int} {batches : List FinalizedBatch} {consumed : List String}
    {windowStart windowEnd : Option Int} {plan : EmissionEpochPlan} {epoch : RewardEpoch}
    (hPlan : buildEmissionEpoch codec lower epochId batches potWei consumed windowStart windowEnd
      = some plan)
    (hEpoch : planToRewardEpoch codec keccak256 plan = some epoch)
    (env : RewardPool.Env) (id total : Uint 256) (hId : (id.val : Int) = epoch.epochId)
    (hTotal : (total.val : Int) = epoch.totalAmountWei)
    (hPublished : ((RewardPool.machine keccak256).step
      ((RewardPool.machine keccak256).run d.world before)
      (.pool env (.publishEpoch id epoch.merkleRoot total))).isSome)
    (hFree : MerkleTree.CollisionFree keccak256
      (treePreimages keccak256 id (epochRows codec epoch) ++
        after.flatMap (inputPreimages keccak256 id)))
    (hClaims : (RewardPool.machine keccak256).EveryStep RewardPool.ClaimsUnreclaimed d.world
      (before ++ .pool env (.publishEpoch id epoch.merkleRoot total) :: after)) :
    let start := (RewardPool.machine keccak256).run d.world
      (before ++ [.pool env (.publishEpoch id epoch.merkleRoot total)])
    epoch.totalAmountWei = potWei ∧
      (RewardPool.machine keccak256).EveryState (EntriesHonoured codec keccak256 epoch id)
        start after ∧
      (∀ account, ((RewardPool.machine keccak256).taken start after).countP
          (RewardPool.Input.claims id account) =
        (((RewardPool.machine keccak256).run start after).pool.hasClaimed id account).toNat) ∧
      ((∀ i ∈ after, i.IsClaim) → (RewardPool.machine keccak256).EveryState
        (fun w => w.pool.paused = false ∧ (w.pool.epochs id).reclaimed = false) start after) := by
  intro start
  obtain ⟨-, hPot, hSpec⟩ := buildEmissionEpoch_spec hPlan
  obtain ⟨id', rows, hBuilt⟩ := buildRewardEpoch_built hEpoch
  obtain rfl : id' = id := Fin.ext (Int.ofNat_inj.mp (hBuilt.epochId_eq.symm.trans hId.symm))
  rw [hBuilt.epochRows_eq] at hFree
  obtain ⟨w', hStep⟩ := Option.isSome_iff_exists.mp hPublished
  have hStart : start = w' := by
    rw [show start = _ from (RewardPool.machine keccak256).run_append ..]
    exact (RewardPool.machine keccak256).exec_of_step hStep
  obtain ⟨hBefore, hRest⟩ := (RewardPool.machine keccak256).everyStep_append.mp hClaims
  obtain ⟨hHere, hAfter⟩ := (RewardPool.machine keccak256).everyStep_cons.mp hRest
  rw [(RewardPool.machine keccak256).exec_of_step hStep] at hAfter
  have hSound : Sound ((RewardPool.machine keccak256).run d.world before) :=
    ((RewardPool.machine keccak256).everyState_of_everyStep Sound RewardPool.ClaimsUnreclaimed
      (fun _ _ _ hw hClaim h => hw.step hClaim h) (sound_of_deployment d) hBefore).last
  obtain ⟨hServing, hUnmarked, hRunning, hOpen⟩ :=
    serving_of_publication hBuilt hTotal hSound.marked hStep
  rw [hStart]
  refine ⟨(planToRewardEpoch_total hSpec hEpoch).trans hPot, ?_, ?_, ?_⟩
  · exact hServing.honoured_run hBuilt (hSound.step (hHere hPublished) hStep) hFree hAfter
  · intro account
    have hCount := @RewardPool.countP_claims keccak256 id' account w' after
    rw [hUnmarked account] at hCount
    exact hCount
  · intro hOnlyClaims
    refine (RewardPool.machine keccak256).everyState_of_everyStep _ (fun _ i => i ∈ after) ?_
      ⟨hRunning, hOpen⟩ ((RewardPool.machine keccak256).everyStep_mem w' after)
    exact fun w i w'' hw hMem h => claim_keeps_open (hOnlyClaims i hMem) hw h

/-! ## An epoch of two providers -/

def provider5 : String := "0x0000000000000000000000000000000000000005"

def provider6 : String := "0x0000000000000000000000000000000000000006"

def smallBatches : List FinalizedBatch :=
  [⟨"0xb1", provider6, 20, 1000⟩, ⟨"0xb2", provider5, 10, 1001⟩]

def smallPlan : EmissionEpochPlan where
  epochId := 2
  potWei := 100
  entries := [⟨provider5, 33⟩, ⟨provider6, 67⟩]
  consumedBatchIds := ["0xb1", "0xb2"]
  skippedAlreadyConsumed := []
  contributionWei := ⟨[(provider6, 20), (provider5, 10)], by decide⟩

theorem buildEmissionEpoch_smallBatches :
    buildEmissionEpoch hexCodec String.toLower 2 smallBatches 100 [] none none = some smallPlan := by
  decide +kernel

def leaf5 : Bytes32 := leafHash polynomialHash 2 5 33

def leaf6 : Bytes32 := leafHash polynomialHash 2 6 67

def smallEpoch : RewardEpoch where
  epochId := 2
  merkleRoot := MerkleProof.hashPair polynomialHash leaf5 leaf6
  totalAmountWei := 100
  entries := [⟨provider5, 33⟩, ⟨provider6, 67⟩]
  leafHashes := [leaf5, leaf6]
  proofs := [(provider5, [leaf6]), (provider6, [leaf5])]

theorem planToRewardEpoch_smallPlan :
    planToRewardEpoch hexCodec polynomialHash smallPlan = some smallEpoch := by
  decide +kernel

def smallPublication (timestamp : Nat) : RewardPool.Input :=
  .pool (RewardPool.smallEnv timestamp 2) (.publishEpoch 2 smallEpoch.merkleRoot 100)

def smallClaims : List RewardPool.Input :=
  [.pool (RewardPool.smallEnv 1001 6) (.claim 2 6 67 [leaf5]),
    .pool (RewardPool.smallEnv 1002 5) (.claim 2 5 33 [leaf6])]

theorem reward_epoch_honoured_smallClaims :
    (RewardPool.machine polynomialHash).EveryState
      (EntriesHonoured hexCodec polynomialHash smallEpoch 2)
      ((RewardPool.machine polynomialHash).run RewardPool.smallDeployment.world
        ([] ++ [smallPublication 1000])) smallClaims := by
  refine (reward_epoch_honoured hexCodec String.toLower polynomialHash RewardPool.smallDeployment []
    smallClaims buildEmissionEpoch_smallBatches planToRewardEpoch_smallPlan
    (RewardPool.smallEnv 1000 2) 2 100 rfl rfl (by decide +kernel) (by decide +kernel) ?_).2.1
  -- epoch 2 is never reclaimed
  have hOpen : ∀ (w : RewardPool.World) (i : RewardPool.Input),
      (w.pool.epochs 2).reclaimed = false →
      (∀ env epochId account amount proof,
        i = .pool env (.claim epochId account amount proof) → epochId = 2) →
      RewardPool.ClaimsUnreclaimed w i := by
    rintro w i hOpen hEpoch env epochId account amount proof hInput
    rw [hEpoch env epochId account amount proof hInput]
    exact hOpen
  simp only [List.nil_append, smallClaims, Machine.everyStep_cons]
  refine ⟨fun _ => hOpen _ _ (by decide +kernel) ?_, fun _ => hOpen _ _ (by decide +kernel) ?_,
    fun _ => hOpen _ _ (by decide +kernel) ?_, Machine.everyStep_nil _⟩
  · rintro _ _ _ _ _ hInput
    cases hInput
  · rintro _ _ _ _ _ hInput
    cases hInput
    rfl
  · rintro _ _ _ _ _ hInput
    cases hInput
    rfl

/-- Epoch 1 owes 100, of which 60 to account 5, and is reclaimed a year later. -/
def reclaimedBefore : List RewardPool.Input :=
  [.pool (RewardPool.smallEnv 1000 2)
      (.publishEpoch 1 (leafHash polynomialHash 1 5 60) 100),
    .pool (RewardPool.smallEnv 31537000 1) (.reclaimUnclaimed 1)]

def lateClaim : RewardPool.Input :=
  .pool (RewardPool.smallEnv 31537002 5) (.claim 1 5 60 [])

/-- The late claim takes 60 off the counter that holds 100 for epoch 2, and the
claim of account 6 underflows it. -/
theorem reward_epoch_not_honoured_lateClaim :
    ¬ ∀ (codec : AddressCodec) (lower : String → String) (keccak256 : Keccak)
      (d : RewardPool.Deployment) (before after : List RewardPool.Input) (epochId potWei : Int)
      (batches : List FinalizedBatch) (consumed : List String) (windowStart windowEnd : Option Int)
      (plan : EmissionEpochPlan) (epoch : RewardEpoch) (env : RewardPool.Env) (id total : Uint 256),
      buildEmissionEpoch codec lower epochId batches potWei consumed windowStart windowEnd
        = some plan →
      planToRewardEpoch codec keccak256 plan = some epoch →
      (id.val : Int) = epoch.epochId → (total.val : Int) = epoch.totalAmountWei →
      ((RewardPool.machine keccak256).step ((RewardPool.machine keccak256).run d.world before)
        (.pool env (.publishEpoch id epoch.merkleRoot total))).isSome →
      MerkleTree.CollisionFree keccak256 (treePreimages keccak256 id (epochRows codec epoch) ++
        after.flatMap (inputPreimages keccak256 id)) →
      (∀ i ∈ after, i.IsClaim) →
      (RewardPool.machine keccak256).EveryState (EntriesHonoured codec keccak256 epoch id)
        ((RewardPool.machine keccak256).run d.world
          (before ++ [.pool env (.publishEpoch id epoch.merkleRoot total)])) after := by
  intro hClaim
  have hEvery := hClaim hexCodec String.toLower polynomialHash RewardPool.smallDeployment reclaimedBefore
    [lateClaim] 2 100 smallBatches [] none none smallPlan smallEpoch
    (RewardPool.smallEnv 31537001 2) 2 100 buildEmissionEpoch_smallBatches
    planToRewardEpoch_smallPlan rfl rfl (by decide +kernel) (by decide +kernel)
    (by
      intro i hi
      rw [List.mem_singleton.mp hi]
      trivial)
  have hEntitled : Entitled hexCodec smallEpoch 6 67 [leaf5] :=
    ⟨⟨provider6, 67⟩, by simp [smallEpoch], by decide +kernel, rfl, by simp [smallEpoch]⟩
  obtain ⟨outcome, hOutcome⟩ := hEvery.last.claimable 6 67 [leaf5] hEntitled (by decide +kernel)
    (by decide +kernel) (by decide +kernel) (RewardPool.smallEnv 31537003 6) rfl
  have hFails : (RewardPool.claim polynomialHash (RewardPool.smallEnv 31537003 6)
      ((RewardPool.machine polynomialHash).run ((RewardPool.machine polynomialHash).run
        RewardPool.smallDeployment.world (reclaimedBefore ++ [smallPublication 31537001]))
          [lateClaim]).pool
      ((RewardPool.machine polynomialHash).run ((RewardPool.machine polynomialHash).run
        RewardPool.smallDeployment.world (reclaimedBefore ++ [smallPublication 31537001]))
          [lateClaim]).token 2 6 67 [leaf5]).isOk = false := by decide +kernel
  have hSucceeds := congrArg Except.isOk hOutcome
  exact Bool.noConfusion (hFails.symm.trans hSucceeds)

end Epochs
end Prsm
