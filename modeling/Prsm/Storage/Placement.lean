import Prsm.Foundations.Dict
import Prsm.Foundations.OrderedDict

/-!
# Where the shards go

`_compute_shard_placement` gives each shard a node from as many autonomous systems as it has
replicas.  The systems rotate from shard to shard, each has a cursor that goes on where the last
shard left it, and a second pass fills up from any node when there are too few systems.
-/

namespace Prsm.Storage.Placement

open Foundations

structure ShardPlacement where
  shardAssignments : Dict String (List String)
  keyShareHolders : List String
  contractKeyShareHolders : List String
  degradedConstraints : List String

structure PlacementError where
  available : ℕ
  minNodesNeeded : ℕ

def minNetworkNodes : ℕ := 3

/-- The nodes without the owner. -/
def eligible (ownerNodeId : String) (peerAsnMap : Dict String String) : List String :=
  (peerAsnMap.entries.map Prod.fst).filter (· ≠ ownerNodeId)

/-- The system of a node. -/
def asnOf (peerAsnMap : Dict String String) (nid : String) : String :=
  (peerAsnMap.get? nid).getD ""

/-- The nodes by their system, in the order in which the systems come up. -/
def asnGroups (ownerNodeId : String) (peerAsnMap : Dict String String) :
    List (String × List String) :=
  groupByKey ((eligible ownerNodeId peerAsnMap).map fun nid => (asnOf peerAsnMap nid, nid))

/-- `asn_groups[asn]`. -/
def group (groups : List (String × List String)) (asn : String) : List String :=
  ((groups.find? (·.1 = asn)).map Prod.snd).getD []

/-- `group[cursor % len(group)]`, of a group that is not empty. -/
def pick (nodes : List String) (cursor : ℕ) : String :=
  nodes[cursor % nodes.length]?.getD ""

/-- The first pass takes one node of each system. -/
def firstPass (groups : List (String × List String)) (replicationFactor : ℤ) :
    List String → List String → List String → (String → ℕ) → List String × (String → ℕ)
  | [], assigned, _, cursor => (assigned, cursor)
  | asn :: rest, assigned, usedAsns, cursor =>
      if replicationFactor ≤ assigned.length then (assigned, cursor)
      else if asn ∈ usedAsns then firstPass groups replicationFactor rest assigned usedAsns cursor
      else
        firstPass groups replicationFactor rest
          (assigned ++ [pick (group groups asn) (cursor asn)]) (asn :: usedAsns)
          (Function.update cursor asn (cursor asn + 1))

/-- The second pass takes any node that is not assigned. -/
def secondPass (replicationFactor : ℤ) : List String → List String → List String
  | [], assigned => assigned
  | nid :: rest, assigned =>
      if replicationFactor ≤ assigned.length then assigned
      else if nid ∉ assigned then secondPass replicationFactor rest (assigned ++ [nid])
      else secondPass replicationFactor rest assigned

/-- The loop's state. -/
structure Placing where
  shardAssignments : Dict String (List String)
  allShardNodes : List String
  asnCursor : String → ℕ
  asnList : List String
  degraded : List String

/-- One shard. -/
def placeShard (nodes : List String) (groups : List (String × List String))
    (replicationFactor : ℤ) (st : Placing) (shardHash : String) : Placing :=
  let first := firstPass groups replicationFactor st.asnList [] [] st.asnCursor
  let short : Bool := first.1.length < replicationFactor
  let assigned := if short then secondPass replicationFactor nodes first.1 else first.1
  { shardAssignments := st.shardAssignments.set shardHash assigned
    allShardNodes := st.allShardNodes ++ assigned
    asnCursor := first.2
    asnList := st.asnList.drop 1 ++ st.asnList.take 1
    degraded :=
      if short && !st.degraded.contains "asn_relaxed" then st.degraded ++ ["asn_relaxed"]
      else st.degraded }

def computeShardPlacement (shardHashes : List String) (replicationFactor : ℤ)
    (ownerNodeId : String) (peerAsnMap : Dict String String) :
    Except PlacementError ShardPlacement :=
  let nodes := eligible ownerNodeId peerAsnMap
  if nodes.length < minNetworkNodes then .error ⟨nodes.length, minNetworkNodes⟩
  else
    let groups := asnGroups ownerNodeId peerAsnMap
    let st := shardHashes.foldl (placeShard nodes groups replicationFactor)
      ⟨∅, [], fun _ => 0, groups.map Prod.fst, []⟩
    let nonShardNodes := nodes.filter (· ∉ st.allShardNodes)
    let relaxed := nonShardNodes.isEmpty
    let keyShareHolders := if relaxed then nodes else nonShardNodes
    .ok {
      shardAssignments := st.shardAssignments
      keyShareHolders := keyShareHolders
      contractKeyShareHolders := keyShareHolders
      degradedConstraints :=
        if relaxed then st.degraded ++ ["key_shard_separation_relaxed"] else st.degraded }

/-! ## The passes -/

theorem pick_mem {nodes : List String} (h : nodes ≠ []) (cursor : ℕ) :
    pick nodes cursor ∈ nodes := by
  have hLt : cursor % nodes.length < nodes.length :=
    Nat.mod_lt _ (List.length_pos_iff.mpr h)
  rw [pick, List.getElem?_eq_getElem hLt, Option.getD_some]
  exact List.getElem_mem hLt

theorem firstPass_spec {groups : List (String × List String)} (rf : ℤ) {asnOf : String → String}
    {nodes : List String}
    (hPick : ∀ asn, asn ∈ groups.map Prod.fst → ∀ cursor,
      asnOf (pick (group groups asn) cursor) = asn ∧ pick (group groups asn) cursor ∈ nodes)
    {rest : List String} (assigned used : List String) (cursor : String → ℕ)
    (hRest : ∀ asn ∈ rest, asn ∈ groups.map Prod.fst) (hNodup : rest.Nodup)
    (hUsed : ∀ asn ∈ rest, asn ∉ used) (hNodes : ∀ n ∈ assigned, n ∈ nodes) :
    (firstPass groups rf rest assigned used cursor).1.map asnOf =
        assigned.map asnOf ++ rest.take (rf.toNat - assigned.length) ∧
      ∀ n ∈ (firstPass groups rf rest assigned used cursor).1, n ∈ nodes := by
  induction rest generalizing assigned used cursor with
  | nil => simpa [firstPass] using hNodes
  | cons asn rest ih =>
      rw [List.forall_mem_cons] at hRest hUsed
      rw [List.nodup_cons] at hNodup
      rw [firstPass]
      split
      case isTrue hEnough =>
        have hZero : rf.toNat - assigned.length = 0 := by omega
        exact ⟨by simp [hZero], hNodes⟩
      case isFalse hShort =>
        obtain ⟨hAsn, hMem⟩ := hPick asn hRest.1 (cursor asn)
        rw [if_neg hUsed.1]
        have hNext := ih (assigned ++ [pick (group groups asn) (cursor asn)]) (asn :: used)
          (Function.update cursor asn (cursor asn + 1)) hRest.2 hNodup.2 (fun a ha hIn => ?_)
          (fun n hn => ?_)
        · refine ⟨?_, hNext.2⟩
          rw [hNext.1, List.map_append, List.map_singleton, hAsn, List.length_append,
            List.length_singleton, List.append_assoc, List.singleton_append,
            ← List.take_succ_cons]
          congr 2
          omega
        · rcases List.mem_cons.mp hIn with rfl | hOld
          · exact hNodup.1 ha
          · exact hUsed.2 a ha hOld
        · rcases List.mem_append.mp hn with hOld | hNew
          · exact hNodes n hOld
          · rw [List.mem_singleton.mp hNew]
            exact hMem

theorem secondPass_eq (rf : ℤ) {rest : List String} (hNodup : rest.Nodup)
    (assigned : List String) :
    secondPass rf rest assigned =
      assigned ++ (rest.filter (· ∉ assigned)).take (rf.toNat - assigned.length) := by
  induction rest generalizing assigned with
  | nil => simp [secondPass]
  | cons nid rest ih =>
      rw [List.nodup_cons] at hNodup
      rw [secondPass]
      split
      case isTrue hEnough =>
        have hZero : rf.toNat - assigned.length = 0 := by omega
        simp [hZero]
      case isFalse hShort =>
        split
        case isTrue hNew =>
          have hSame : rest.filter (· ∉ assigned ++ [nid]) = rest.filter (· ∉ assigned) := by
            refine List.filter_congr fun n hn => ?_
            have hNe : n ≠ nid := by
              rintro rfl
              exact hNodup.1 hn
            simp [hNe]
          rw [ih hNodup.2, hSame, List.filter_cons_of_pos (by simpa using hNew),
            List.length_append, List.length_singleton, List.append_assoc, List.singleton_append,
            ← List.take_succ_cons]
          congr 2
          omega
        case isFalse hOld =>
          rw [ih hNodup.2, List.filter_cons_of_neg (by simpa using hOld)]

/-! ## One shard -/

/-- What is asked of the nodes of a shard. -/
structure MeetsConstraints (nodes : List String) (asnOf : String → String) (rf : ℤ)
    (assigned : List String) : Prop where
  distinct : assigned.Nodup
  eligible : ∀ n ∈ assigned, n ∈ nodes
  count : assigned.length = (min rf nodes.length).toNat
  asns : (assigned.map asnOf).toFinset.card =
    (min rf (nodes.map asnOf).toFinset.card).toNat

/-- The nodes that a shard gets. -/
def assignedTo (nodes : List String) (groups : List (String × List String)) (rf : ℤ)
    (asnList : List String) (cursor : String → ℕ) : List String :=
  let first := firstPass groups rf asnList [] [] cursor
  if first.1.length < rf then secondPass rf nodes first.1 else first.1

section Shard

variable {nodes : List String} {asnOf : String → String} {rf : ℤ}

/-- The groups of some nodes. -/
@[reducible] def groupsOf (nodes : List String) (asnOf : String → String) :
    List (String × List String) :=
  groupByKey (nodes.map fun nid => (asnOf nid, nid))

theorem mem_asns {asn : String} :
    asn ∈ (groupsOf nodes asnOf).map Prod.fst ↔ asn ∈ nodes.map asnOf := by
  rw [(groupByKey_groups _).mem_keys]
  constructor
  · intro h
    obtain ⟨nid, hMem⟩ := List.exists_mem_of_ne_nil _ h
    rw [mem_valuesAt, List.mem_map] at hMem
    obtain ⟨n, hn, hSame⟩ := hMem
    exact List.mem_map.mpr ⟨n, hn, (Prod.mk.inj hSame).1⟩
  · intro h
    obtain ⟨n, hn, rfl⟩ := List.mem_map.mp h
    exact List.ne_nil_of_mem (mem_valuesAt.mpr (List.mem_map.mpr ⟨n, hn, rfl⟩))

theorem nodup_asns : ((groupsOf nodes asnOf).map Prod.fst).Nodup :=
  (groupByKey_groups _).nodup

theorem length_asns :
    ((groupsOf nodes asnOf).map Prod.fst).length = (nodes.map asnOf).toFinset.card := by
  rw [← List.toFinset_card_of_nodup nodup_asns]
  congr 1
  ext asn
  rw [List.mem_toFinset, List.mem_toFinset, mem_asns]

theorem mem_group {asn nid : String} (hAsn : asn ∈ (groupsOf nodes asnOf).map Prod.fst) :
    nid ∈ group (groupsOf nodes asnOf) asn ↔ nid ∈ nodes ∧ asnOf nid = asn := by
  have hGroups := groupByKey_groups (nodes.map fun nid => (asnOf nid, nid))
  obtain ⟨g, hg, rfl⟩ := List.mem_map.mp hAsn
  obtain ⟨found, hFound⟩ := Option.isSome_iff_exists.mp
    (List.find?_isSome.mpr ⟨g, hg, decide_eq_true rfl⟩ :
      ((groupsOf nodes asnOf).find? (·.1 = g.1)).isSome = true)
  have hKey : found.1 = g.1 := by simpa using List.find?_some hFound
  rw [group, hFound, Option.map_some, Option.getD_some,
    hGroups.values_eq found (List.mem_of_find?_eq_some hFound), mem_valuesAt, hKey]
  constructor
  · intro h
    obtain ⟨n, hn, hSame⟩ := List.mem_map.mp h
    obtain ⟨hFirst, rfl⟩ := Prod.mk.inj hSame
    exact ⟨hn, hFirst⟩
  · rintro ⟨hn, hFirst⟩
    exact List.mem_map.mpr ⟨nid, hn, by rw [hFirst]⟩

theorem pick_group {asn : String} (hAsn : asn ∈ (groupsOf nodes asnOf).map Prod.fst)
    (cursor : ℕ) :
    asnOf (pick (group (groupsOf nodes asnOf) asn) cursor) = asn ∧
      pick (group (groupsOf nodes asnOf) asn) cursor ∈ nodes := by
  have hSome : group (groupsOf nodes asnOf) asn ≠ [] := by
    obtain ⟨n, hn, hSame⟩ := List.mem_map.mp (mem_asns.mp hAsn)
    exact List.ne_nil_of_mem ((mem_group hAsn).mpr ⟨hn, hSame⟩)
  obtain ⟨hMem, hSame⟩ := (mem_group hAsn).mp (pick_mem hSome cursor)
  exact ⟨hSame, hMem⟩

theorem length_filter_not_mem {first : List String} (hNodes : nodes.Nodup) (hFirst : first.Nodup)
    (hMem : ∀ n ∈ first, n ∈ nodes) :
    (nodes.filter (· ∉ first)).length + first.length = nodes.length := by
  have hPerm : (nodes.filter (· ∈ first)).Perm first := by
    rw [List.perm_ext_iff_of_nodup (hNodes.filter _) hFirst]
    intro n
    rw [List.mem_filter, decide_eq_true_eq]
    exact ⟨And.right, fun hn => ⟨hMem n hn, hn⟩⟩
  have hSplit := List.length_eq_length_filter_add (l := nodes) (fun n => decide (n ∈ first))
  rw [hPerm.length_eq] at hSplit
  simp only [← decide_not] at hSplit
  omega

variable {asnList : List String}

theorem firstPass_asns (rf : ℤ) (hList : asnList.Perm ((groupsOf nodes asnOf).map Prod.fst))
    (cursor : String → ℕ) :
    (firstPass (groupsOf nodes asnOf) rf asnList [] [] cursor).1.map asnOf =
        asnList.take rf.toNat ∧
      ∀ n ∈ (firstPass (groupsOf nodes asnOf) rf asnList [] [] cursor).1, n ∈ nodes := by
  obtain ⟨hAsns, hMem⟩ := firstPass_spec rf (fun asn hAsn c => pick_group hAsn c) [] [] cursor
    (fun asn hAsn => hList.mem_iff.mp hAsn) (hList.nodup_iff.mpr nodup_asns) (by simp) (by simp)
  exact ⟨hAsns, hMem⟩

theorem length_firstPass (rf : ℤ) (hList : asnList.Perm ((groupsOf nodes asnOf).map Prod.fst))
    (cursor : String → ℕ) :
    (firstPass (groupsOf nodes asnOf) rf asnList [] [] cursor).1.length =
      min rf.toNat (nodes.map asnOf).toFinset.card := by
  rw [← List.length_map asnOf, (firstPass_asns rf hList cursor).1, List.length_take,
    hList.length_eq, length_asns]

theorem meetsConstraints_assignedTo (hNodes : nodes.Nodup)
    (hList : asnList.Perm ((groupsOf nodes asnOf).map Prod.fst)) (cursor : String → ℕ) :
    MeetsConstraints nodes asnOf rf
      (assignedTo nodes (groupsOf nodes asnOf) rf asnList cursor) := by
  have hListNodup : asnList.Nodup := hList.nodup_iff.mpr nodup_asns
  have hCount : asnList.length = (nodes.map asnOf).toFinset.card :=
    hList.length_eq.trans length_asns
  obtain ⟨hAsns, hMem⟩ := firstPass_asns rf hList cursor
  have hLength := length_firstPass rf hList cursor
  rw [assignedTo]
  generalize (firstPass (groupsOf nodes asnOf) rf asnList [] [] cursor).1 = first
    at hAsns hMem hLength
  have hFirstAsns : (first.map asnOf).Nodup := by
    rw [hAsns]
    exact hListNodup.sublist (List.take_sublist _ _)
  have hFirst : first.Nodup := hFirstAsns.of_map asnOf
  have hSubset : first.length ≤ nodes.length := (hFirst.subperm hMem).length_le
  split
  case isFalse hEnough =>
    refine ⟨hFirst, hMem, by omega, ?_⟩
    rw [List.toFinset_card_of_nodup hFirstAsns, List.length_map]
    omega
  case isTrue hShort =>
    have hAll : first.map asnOf = asnList := by
      rw [hAsns]
      exact List.take_of_length_le (by omega)
    have hRest := length_filter_not_mem hNodes hFirst hMem
    rw [secondPass_eq rf hNodes]
    refine ⟨?_, ?_, ?_, ?_⟩
    · refine List.nodup_append.mpr ⟨hFirst, (hNodes.filter _).sublist (List.take_sublist _ _), ?_⟩
      rintro a ha b hb rfl
      simpa [ha] using List.of_mem_filter (List.mem_of_mem_take hb)
    · intro n hn
      rcases List.mem_append.mp hn with hOld | hNew
      · exact hMem n hOld
      · exact List.mem_of_mem_filter (List.mem_of_mem_take hNew)
    · rw [List.length_append, List.length_take]
      omega
    · have hSame : ((first ++ (nodes.filter (· ∉ first)).take (rf.toNat - first.length)).map
          asnOf).toFinset = (nodes.map asnOf).toFinset := by
        ext asn
        rw [List.mem_toFinset, List.mem_toFinset, List.map_append, List.mem_append, hAll,
          hList.mem_iff, mem_asns]
        constructor
        · rintro (h | h)
          · exact h
          · exact List.map_subset _ (fun n hn => List.mem_of_mem_filter (List.mem_of_mem_take hn)) h
        · exact Or.inl
      rw [hSame]
      omega

/-! ## All shards -/

/-- What holds after some shards. -/
structure Placed (nodes : List String) (asnOf : String → String) (rf : ℤ) (done : List String)
    (st : Placing) : Prop where
  rotation : st.asnList.Perm ((groupsOf nodes asnOf).map Prod.fst)
  assigned : ∀ shardHash ∈ done, (st.shardAssignments.get? shardHash).isSome
  meets : ∀ shardHash assigned, st.shardAssignments.get? shardHash = some assigned →
    shardHash ∈ done ∧ MeetsConstraints nodes asnOf rf assigned ∧
      ∀ n ∈ assigned, n ∈ st.allShardNodes
  degraded : st.degraded =
    if done ≠ [] ∧ ((nodes.map asnOf).toFinset.card : ℤ) < rf then ["asn_relaxed"] else []

theorem rotate_perm (asnList : List String) :
    (asnList.drop 1 ++ asnList.take 1).Perm asnList := by
  refine List.perm_append_comm.trans ?_
  rw [List.take_append_drop]

theorem placeShard_assignments (nodes : List String) (rf : ℤ)
    (groups : List (String × List String)) (st : Placing) (shardHash : String) :
    (placeShard nodes groups rf st shardHash).shardAssignments =
        st.shardAssignments.set shardHash
          (assignedTo nodes groups rf st.asnList st.asnCursor) ∧
      (placeShard nodes groups rf st shardHash).allShardNodes =
        st.allShardNodes ++ assignedTo nodes groups rf st.asnList st.asnCursor := by
  simp [placeShard, assignedTo]

theorem placed_step (hNodes : nodes.Nodup) {done : List String} {st : Placing}
    (h : Placed nodes asnOf rf done st) (shardHash : String) :
    Placed nodes asnOf rf (done ++ [shardHash])
      (placeShard nodes (groupsOf nodes asnOf) rf st shardHash) := by
  obtain ⟨hAssignments, hShardNodes⟩ :=
    placeShard_assignments nodes rf (groupsOf nodes asnOf) st shardHash
  refine ⟨(rotate_perm st.asnList).trans h.rotation, ?_, ?_, ?_⟩
  · intro sh hsh
    rw [hAssignments, Dict.get?_set]
    split
    · rfl
    case isFalse hOther =>
      rcases List.mem_append.mp hsh with hOld | hNew
      · exact h.assigned sh hOld
      · exact absurd (List.mem_singleton.mp hNew) hOther
  · intro sh assigned hGet
    rw [hAssignments, Dict.get?_set] at hGet
    rw [hShardNodes]
    split at hGet
    case isTrue hSame =>
      obtain rfl := Option.some.inj hGet
      subst hSame
      exact ⟨by simp, meetsConstraints_assignedTo hNodes h.rotation _,
        fun n hn => List.mem_append_right _ hn⟩
    case isFalse =>
      obtain ⟨hDone, hMeets, hIn⟩ := h.meets sh assigned hGet
      exact ⟨List.mem_append_left _ hDone, hMeets, fun n hn => List.mem_append_left _ (hIn n hn)⟩
  · have hLength := length_firstPass rf h.rotation st.asnCursor
    simp only [placeShard, h.degraded, hLength]
    by_cases hFew : ((nodes.map asnOf).toFinset.card : ℤ) < rf
    · by_cases hDone : done = []
      · simp [hFew, hDone]
      · simp [hFew, hDone]
    · simp [hFew]

theorem placed_run (hNodes : nodes.Nodup) (shardHashes : List String) {done : List String}
    {st : Placing} (h : Placed nodes asnOf rf done st) :
    Placed nodes asnOf rf (done ++ shardHashes)
      (shardHashes.foldl (placeShard nodes (groupsOf nodes asnOf) rf) st) := by
  induction shardHashes generalizing done st with
  | nil => simpa using h
  | cons shardHash rest ih =>
      have hNext := ih (placed_step hNodes h shardHash)
      rwa [List.append_assoc, List.singleton_append] at hNext

theorem placed_start (nodes : List String) (asnOf : String → String) (rf : ℤ) :
    Placed nodes asnOf rf []
    ⟨∅, [], fun _ => 0, (groupsOf nodes asnOf).map Prod.fst, []⟩ := by
  refine ⟨List.Perm.refl _, by simp, ?_, by simp⟩
  intro shardHash assigned hGet
  cases hGet

end Shard

/-- The number of systems of some nodes. -/
def asnCount (peerAsnMap : Dict String String) (nodes : List String) : ℕ :=
  (nodes.map (asnOf peerAsnMap)).toFinset.card

/-- A placement that meets its constraints. -/
structure ShardPlacement.Valid (p : ShardPlacement) (shardHashes : List String)
    (replicationFactor : ℤ) (ownerNodeId : String) (peerAsnMap : Dict String String) : Prop where
  assigned : ∀ shardHash ∈ shardHashes,
    ∃ assigned, p.shardAssignments.get? shardHash = some assigned
  nodes : ∀ shardHash assigned, p.shardAssignments.get? shardHash = some assigned →
    assigned.Nodup ∧ ownerNodeId ∉ assigned ∧
      (∀ n ∈ assigned, (peerAsnMap.get? n).isSome) ∧
      assigned.length = (min replicationFactor (eligible ownerNodeId peerAsnMap).length).toNat ∧
      asnCount peerAsnMap assigned = (min replicationFactor
        (asnCount peerAsnMap (eligible ownerNodeId peerAsnMap))).toNat
  asnRelaxed : "asn_relaxed" ∈ p.degradedConstraints ↔
    ∃ shardHash ∈ shardHashes, ∃ assigned,
      p.shardAssignments.get? shardHash = some assigned ∧
        (asnCount peerAsnMap assigned : ℤ) < replicationFactor
  separation : "key_shard_separation_relaxed" ∉ p.degradedConstraints →
    ∀ holder, holder ∈ p.keyShareHolders ∨ holder ∈ p.contractKeyShareHolders →
      ∀ shardHash assigned, p.shardAssignments.get? shardHash = some assigned →
        holder ∉ assigned

theorem nodup_eligible (ownerNodeId : String) (peerAsnMap : Dict String String) :
    (eligible ownerNodeId peerAsnMap).Nodup :=
  peerAsnMap.nodup.filter _

theorem mem_eligible {ownerNodeId nid : String} {peerAsnMap : Dict String String} :
    nid ∈ eligible ownerNodeId peerAsnMap ↔
      (peerAsnMap.get? nid).isSome ∧ nid ≠ ownerNodeId := by
  have hKey : peerAsnMap.get? nid ≠ none ↔ nid ∈ peerAsnMap.entries.map Prod.fst := by
    rw [Ne, Dict.get?_eq_none_iff, not_not]
  rw [eligible, List.mem_filter, decide_eq_true_eq, Option.isSome_iff_ne_none, hKey]

/-- With three nodes beside the owner, every placement meets its constraints. -/
theorem computeShardPlacement_valid (shardHashes : List String) (replicationFactor : ℤ)
    (ownerNodeId : String) (peerAsnMap : Dict String String)
    (h : 3 ≤ (eligible ownerNodeId peerAsnMap).length) :
    ∃ p, computeShardPlacement shardHashes replicationFactor ownerNodeId peerAsnMap = .ok p ∧
      p.Valid shardHashes replicationFactor ownerNodeId peerAsnMap := by
  have hNodes := nodup_eligible ownerNodeId peerAsnMap
  have hPlaced := placed_run hNodes shardHashes
    (placed_start (eligible ownerNodeId peerAsnMap) (asnOf peerAsnMap) replicationFactor)
  rw [List.nil_append] at hPlaced
  rw [computeShardPlacement, if_neg (by rw [minNetworkNodes]; omega)]
  refine ⟨_, rfl, ?_⟩
  generalize hSt : shardHashes.foldl _ _ = st
  rw [show groupsOf (eligible ownerNodeId peerAsnMap) (asnOf peerAsnMap) =
    asnGroups ownerNodeId peerAsnMap from rfl, hSt] at hPlaced
  have hAssigned : ∀ shardHash ∈ shardHashes,
      ∃ assigned, st.shardAssignments.get? shardHash = some assigned :=
    fun shardHash hMem => Option.isSome_iff_exists.mp (hPlaced.assigned shardHash hMem)
  have hSystems : ∀ shardHash assigned, st.shardAssignments.get? shardHash = some assigned →
      ((asnCount peerAsnMap assigned : ℤ) < replicationFactor ↔
        (asnCount peerAsnMap (eligible ownerNodeId peerAsnMap) : ℤ) < replicationFactor) := by
    intro shardHash assigned hGet
    have hCount := (hPlaced.meets shardHash assigned hGet).2.1.asns
    simp only [asnCount, hCount]
    omega
  refine ⟨hAssigned, ?_, ?_, ?_⟩
  · intro shardHash assigned hGet
    obtain ⟨-, hMeets, -⟩ := hPlaced.meets shardHash assigned hGet
    have hEligible := fun n hn => mem_eligible.mp (hMeets.eligible n hn)
    exact ⟨hMeets.distinct, fun hOwner => (hEligible _ hOwner).2 rfl,
      fun n hn => (hEligible n hn).1, hMeets.count, hMeets.asns⟩
  · have hRelaxed : "asn_relaxed" ∈ st.degraded ↔ shardHashes ≠ [] ∧
        (asnCount peerAsnMap (eligible ownerNodeId peerAsnMap) : ℤ) < replicationFactor := by
      rw [hPlaced.degraded]
      split
      case isTrue hFew => simpa [asnCount] using hFew
      case isFalse hEnough => simpa [asnCount] using hEnough
    have hOther : "asn_relaxed" ≠ "key_shard_separation_relaxed" := by decide
    have hDegraded : ("asn_relaxed" ∈ if
        ((eligible ownerNodeId peerAsnMap).filter (· ∉ st.allShardNodes)).isEmpty then
          st.degraded ++ ["key_shard_separation_relaxed"] else st.degraded) ↔
        "asn_relaxed" ∈ st.degraded := by
      split <;> simp [hOther]
    rw [hDegraded, hRelaxed]
    constructor
    · rintro ⟨hSome, hFew⟩
      obtain ⟨shardHash, hMem⟩ := List.exists_mem_of_ne_nil _ hSome
      obtain ⟨assigned, hGet⟩ := hAssigned shardHash hMem
      exact ⟨shardHash, hMem, assigned, hGet, (hSystems shardHash assigned hGet).mpr hFew⟩
    · rintro ⟨shardHash, hMem, assigned, hGet, hFew⟩
      exact ⟨List.ne_nil_of_mem hMem, (hSystems shardHash assigned hGet).mp hFew⟩
  · intro hSeparate holder hHolder shardHash assigned hGet hIn
    obtain ⟨-, -, hAll⟩ := hPlaced.meets shardHash assigned hGet
    have hFree : ((eligible ownerNodeId peerAsnMap).filter
        (· ∉ st.allShardNodes)).isEmpty = false := by
      by_contra hNone
      rw [Bool.not_eq_false] at hNone
      simp only [hNone, if_true] at hSeparate
      exact hSeparate (List.mem_append_right _ (List.mem_singleton.mpr rfl))
    simp only [hFree, Bool.false_eq_true, if_false, or_self] at hHolder
    have hNotShard := List.of_mem_filter hHolder
    simp [hAll holder hIn] at hNotShard

def twoSystems : Dict String String :=
  Dict.ofEntries [("owner", "AS1"), ("n1", "AS1"), ("n2", "AS1"), ("n3", "AS2"), ("n4", "AS2")]

theorem computeShardPlacement_valid_twoSystems :
    ∃ p, computeShardPlacement ["s1", "s2"] 3 "owner" twoSystems = .ok p ∧
      p.Valid ["s1", "s2"] 3 "owner" twoSystems :=
  computeShardPlacement_valid ["s1", "s2"] 3 "owner" twoSystems (by decide +kernel)

end Prsm.Storage.Placement
