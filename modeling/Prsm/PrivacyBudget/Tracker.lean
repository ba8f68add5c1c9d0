import Prsm.PrivacyBudget.Store

/-!
# The persistent tracker

`PersistentPrivacyBudgetTracker` over a store: a spend is checked against the budget, written to
the journal as a signed entry, and then recorded in memory by the inherited method; a new
tracker reads its spends from the journal.
-/

namespace Prsm.PrivacyBudget

open Foundations
open Wire (Decoder)
open Evm (Bytes)
open Settlement (utf8 hex b64decode)

/-- A signer.  Its key derives its node id, and its own signatures verify. -/
structure NodeIdentity (lib : Library) where
  nodeId : String
  publicKeyB64 : String
  sign : Bytes → Bytes
  derived : (b64decode publicKeyB64).map (nodeIdForPublicKey lib) = some nodeId
  stripped : lib.strippedText (utf8 publicKeyB64) = some publicKeyB64
  length_sign : ∀ payload, (sign payload).length = 64
  verifies : ∀ payload, lib.verifySignature publicKeyB64 payload (sign payload) = true

/-- `x <= y`. -/
def lessEq (x y : PyFloat) : Bool :=
  match x.value, y.value with
  | some p, some q => p ≤ q
  | some _, none => y.text = "inf"
  | none, some _ => x.text = "-inf"
  | none, none =>
      (x.text = "-inf" && (y.text = "-inf" || y.text = "inf")) ||
        (x.text = "inf" && y.text = "inf")

/-- `math.isfinite(x) and x > 0.0`. -/
def isFinitePositive (x : PyFloat) : Bool :=
  match x.value with
  | some q => 0 < q
  | none => false

structure PrivacySpend where
  epsilon : PyFloat
  operation : String
  jobId : String
  modelId : String
  timestamp : PyFloat

/-- What a tracker holds besides its store and its identity. -/
structure PrivacyBudgetTracker where
  maxEpsilon : PyFloat
  spends : List PrivacySpend

/-- `0.0`. -/
def zeroFloat : PyFloat := ⟨"0.0", some 0, marked_zero, plain_zero⟩

section Tracker

variable (lib : Library)

namespace PrivacyBudgetTracker

def totalSpent (t : PrivacyBudgetTracker) : PyFloat := lib.sum (t.spends.map (·.epsilon))

def canSpend (t : PrivacyBudgetTracker) (epsilon : PyFloat) : Bool :=
  lessEq (lib.add (t.totalSpent lib) epsilon) t.maxEpsilon

/-- The inherited `record_spend`. -/
def recordSpend (t : PrivacyBudgetTracker) (epsilon : PyFloat) (operation jobId modelId : String)
    (now : PyFloat) : PrivacyBudgetTracker × Bool :=
  if isFinitePositive epsilon = false then (t, false)
  else if t.canSpend lib epsilon = false then (t, false)
  else ({ t with spends := t.spends ++ [⟨epsilon, operation, jobId, modelId, now⟩] }, true)

/-- The inherited `reset`. -/
def reset (t : PrivacyBudgetTracker) : PrivacyBudgetTracker := { t with spends := [] }

end PrivacyBudgetTracker

variable {lib} in
/-- `sign_entry`.  `dataclasses.replace` makes the checks of the constructor again. -/
def signEntry (identity : NodeIdentity lib) (entry : PrivacyBudgetEntry) :
    Decoder StoreError PrivacyBudgetEntry := do
  let intermediate ← PrivacyBudgetEntry.create entry.sequenceNumber entry.entryType
    identity.nodeId entry.epsilon entry.operation entry.modelId entry.timestamp
    entry.prevEntryHash entry.schemaVersion entry.signature
  PrivacyBudgetEntry.create intermediate.sequenceNumber intermediate.entryType
    intermediate.nodeId intermediate.epsilon intermediate.operation intermediate.modelId
    intermediate.timestamp intermediate.prevEntryHash intermediate.schemaVersion
    (identity.sign intermediate.signingPayload)

end Tracker

section Persistent

variable {σ : Type} {lib : Library} (store : PrivacyBudgetStore σ) (identity : NodeIdentity lib)

/-- The entry that `_append_entry` builds and signs. -/
def nextEntry (s : σ) (entryType : PrivacyBudgetEntryType) (epsilon : PyFloat)
    (operation modelId : String) (now : PyFloat) : Decoder StoreError PrivacyBudgetEntry := do
  let sequenceNumber ← store.len s
  let unsigned ← PrivacyBudgetEntry.create (.int sequenceNumber) entryType identity.nodeId
    epsilon operation modelId now (store.latestHash s) (.int entrySchemaVersion) []
  signEntry identity unsigned

def appendEntry (fault : Fault) (s : σ) (entryType : PrivacyBudgetEntryType) (epsilon : PyFloat)
    (operation modelId : String) (now : PyFloat) : σ × Decoder StoreError Unit :=
  match nextEntry store identity s entryType epsilon operation modelId now with
  | .error e => (s, .error e)
  | .ok signed => store.append fault s signed

namespace PersistentPrivacyBudgetTracker

/-- `record_spend`: the tracker and the store after it, and what it returns or raises.  The
clock is read for the entry and for the spend. -/
def recordSpend (fault : Fault) (t : PrivacyBudgetTracker) (s : σ) (epsilon : PyFloat)
    (operation modelId : String) (now later : PyFloat) :
    (PrivacyBudgetTracker × σ) × Decoder StoreError Bool :=
  if isFinitePositive epsilon = false then ((t, s), .ok false)
  else if t.canSpend lib epsilon = false then ((t, s), .ok false)
  else
    match appendEntry store identity fault s .spend epsilon operation modelId now with
    | (s', .error e) => ((t, s'), .error e)
    | (s', .ok ()) =>
        -- the third positional parameter of the inherited method is `job_id`
        (((t.recordSpend lib epsilon operation modelId "" later).1, s'),
          .ok (t.recordSpend lib epsilon operation modelId "" later).2)

def reset (fault : Fault) (t : PrivacyBudgetTracker) (s : σ) (now : PyFloat) :
    (PrivacyBudgetTracker × σ) × Decoder StoreError Unit :=
  match appendEntry store identity fault s .reset zeroFloat "" "" now with
  | (s', .error e) => ((t, s'), .error e)
  | (s', .ok ()) => ((t.reset, s'), .ok ())

/-- The loop of the constructor over the journal. -/
def replay : List (Decoder StoreError PrivacyBudgetEntry) → List PrivacySpend →
    Decoder StoreError (List PrivacySpend)
  | [], spends => .ok spends
  | read :: rest, spends => do
      let entry ← read
      match entry.entryType with
      | .reset => replay rest []
      | .spend =>
          replay rest
            (spends ++ [⟨entry.epsilon, entry.operation, "", entry.modelId, entry.timestamp⟩])

/-- `PersistentPrivacyBudgetTracker(max_epsilon, store=store, identity=identity)`. -/
def construct (maxEpsilon : PyFloat) (s : σ) : Decoder StoreError PrivacyBudgetTracker := do
  let verified ←
    verifyChain lib identity.publicKeyB64 (store.replay s) 0 genesisPrevHash
  if verified = false then .error (.protocol .journalCorruption)
  else do
    let spends ← replay (store.replay s) []
    return ⟨maxEpsilon, spends⟩

end PersistentPrivacyBudgetTracker

/-! ## The next entry -/

theorem isHex_nodeId (publicBytes : Bytes) :
    ∀ c ∈ (nodeIdForPublicKey lib publicBytes).toList, (c.isDigit || c.isLower) = true := by
  intro c hc
  rw [nodeIdForPublicKey, String.toList_ofList] at hc
  have hMem := List.mem_of_mem_take hc
  rw [Storage.Sha256.hexdigest, hex, String.toList_ofList] at hMem
  exact Settlement.isHexChar_of_mem_hexChars hMem

theorem NodeIdentity.unreserved : identity.nodeId.toList.any isReserved = false := by
  obtain ⟨publicBytes, -, hId⟩ := Option.map_eq_some_iff.mp identity.derived
  rw [List.any_eq_false]
  intro c hc hReserved
  rw [← hId] at hc
  have hHex := isHex_nodeId publicBytes c hc
  simp only [isReserved, Bool.or_eq_true, decide_eq_true_eq] at hReserved
  rcases hReserved with rfl | rfl <;> exact absurd hHex (by decide)

/-- An entry signed by its own node. -/
structure SignedBy (entry : PrivacyBudgetEntry) : Prop where
  nodeId : entry.nodeId = identity.nodeId
  signature : entry.signature = identity.sign entry.signingPayload

theorem verifyEntry_of_signedBy {entry : PrivacyBudgetEntry} (h : SignedBy identity entry) :
    verifyEntry lib identity.publicKeyB64 entry = true := by
  obtain ⟨publicBytes, hDecode, hId⟩ := Option.map_eq_some_iff.mp identity.derived
  have hSignature : entry.signature ≠ [] := by
    rw [h.signature]
    intro hNil
    have hLength := identity.length_sign entry.signingPayload
    rw [hNil] at hLength
    cases hLength
  rw [verifyEntry, if_neg hSignature, hDecode]
  simp only [hId, h.nodeId, decide_true, Bool.true_and]
  rw [h.signature]
  exact identity.verifies _

/-- What `_append_entry` hands to the store. -/
structure IsNext (s : σ) (entryType : PrivacyBudgetEntryType) (epsilon : PyFloat)
    (operation modelId : String) (now : PyFloat) (entry : PrivacyBudgetEntry) : Prop where
  len : store.len s = .ok entry.sequenceNumber.value.toNat
  prevEntryHash : entry.prevEntryHash = store.latestHash s
  entryType : entry.entryType = entryType
  epsilon : entry.epsilon = epsilon
  operation : entry.operation = operation
  modelId : entry.modelId = modelId
  timestamp : entry.timestamp = now
  signedBy : SignedBy identity entry

theorem create_eq_ok_iff {n v : PyInt} {t : PrivacyBudgetEntryType} {nodeId op model : String}
    {ε time : PyFloat} {prev sig : Bytes} {e : PrivacyBudgetEntry} :
    PrivacyBudgetEntry.create n t nodeId ε op model time prev v sig = .ok e ↔
      e.sequenceNumber = n ∧ e.entryType = t ∧ e.nodeId = nodeId ∧ e.epsilon = ε ∧
        e.operation = op ∧ e.modelId = model ∧ e.timestamp = time ∧ e.prevEntryHash = prev ∧
        e.schemaVersion = v ∧ e.signature = sig := by
  constructor
  · intro h
    unfold PrivacyBudgetEntry.create at h
    split_ifs at h
    cases h
    exact ⟨rfl, rfl, rfl, rfl, rfl, rfl, rfl, rfl, rfl, rfl⟩
  · rintro ⟨rfl, rfl, rfl, rfl, rfl, rfl, rfl, rfl, rfl, rfl⟩
    exact PrivacyBudgetEntry.create_self e

variable {store identity}

theorem isNext_of_nextEntry {s : σ} {t : PrivacyBudgetEntryType} {ε now : PyFloat}
    {operation modelId : String} {entry : PrivacyBudgetEntry}
    (h : nextEntry store identity s t ε operation modelId now = .ok entry) :
    IsNext store identity s t ε operation modelId now entry := by
  simp only [nextEntry, signEntry, bind_eq_ok_iff] at h
  obtain ⟨n, hLen, unsigned, hUnsigned, intermediate, hIntermediate, hSigned⟩ := h
  obtain ⟨hSeq, hType, hNode, hEps, hOp, hModel, hTime, hPrev, hVersion, -⟩ :=
    create_eq_ok_iff.mp hUnsigned
  obtain ⟨hSeq', hType', hNode', hEps', hOp', hModel', hTime', hPrev', hVersion', -⟩ :=
    create_eq_ok_iff.mp hIntermediate
  obtain ⟨hSeq2, hType2, hNode2, hEps2, hOp2, hModel2, hTime2, hPrev2, hVersion2, hSig2⟩ :=
    create_eq_ok_iff.mp hSigned
  have hPayload : entry.signingPayload = intermediate.signingPayload := by
    simp only [PrivacyBudgetEntry.signingPayload, PrivacyBudgetEntry.signedParts, hSeq2, hType2,
      hNode2, hEps2, hOp2, hModel2, hTime2, hPrev2, hVersion2]
  constructor
  · rw [hSeq2, hSeq', hSeq, hLen]
    rfl
  · rw [hPrev2, hPrev', hPrev]
  · rw [hType2, hType', hType]
  · rw [hEps2, hEps', hEps]
  · rw [hOp2, hOp', hOp]
  · rw [hModel2, hModel', hModel]
  · rw [hTime2, hTime', hTime]
  · constructor
    · rw [hNode2, hNode']
    · rw [hSig2, hPayload]

end Persistent

end Prsm.PrivacyBudget
