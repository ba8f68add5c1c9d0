import Mathlib
import Prsm.Settlement.MerkleTree
import Prsm.ShardDispatch.Dispatcher

/-!
# What a paid receipt is for

The verifier rebuilds the signed payload from the fields of the receipt, and nothing
compares these fields with the request.  So a provider is paid for a signature over some
job and shard; it is a signature for the job and shard of this dispatch, and the receipt
does no harm to a consensus group, exactly when the receipt names them.
-/

namespace Prsm.ShardDispatch

open Foundations
open Evm (Bytes)
open PaymentEscrow (EscrowEntry)
open Settlement (utf8 utf8_injective)
open Settlement.MerkleTree (CollisionFree)

/-! ## The signed text -/

theorem takeWhile_append_sep {xs us : List Char} {sep : Char} (h : sep ∉ xs) :
    (xs ++ sep :: us).takeWhile (fun c => c ≠ sep) = xs := by
  rw [List.takeWhile_append_of_pos, List.takeWhile_cons_of_neg (by simp), List.append_nil]
  intro c hc
  simpa using fun hSame : c = sep => h (hSame ▸ hc)

theorem eq_of_append_bar {s t u v : String} (hs : '|' ∉ s.toList) (ht : '|' ∉ t.toList)
    (h : s ++ "||" ++ u = t ++ "||" ++ v) : s = t := by
  have hLists := congrArg String.toList h
  have hBars : "||".toList = ['|', '|'] := by decide
  simp only [String.toList_append, hBars, List.append_assoc, List.cons_append,
    List.nil_append] at hLists
  have hParts := congrArg (List.takeWhile fun c => c ≠ '|') hLists
  rw [takeWhile_append_sep hs, takeWhile_append_sep ht] at hParts
  exact String.toList_inj.mp hParts

theorem eq_of_bar_append {s t u v : String} (hs : '|' ∉ s.toList) (ht : '|' ∉ t.toList)
    (h : u ++ "||" ++ s = v ++ "||" ++ t) : u = v ∧ s = t := by
  have hLists := congrArg (fun w => w.toList.reverse) h
  have hBars : "||".toList = ['|', '|'] := by decide
  simp only [String.toList_append, hBars, List.reverse_append, List.reverse_cons,
    List.nil_append, List.append_assoc, List.cons_append] at hLists
  have hParts := congrArg (List.takeWhile fun c => c ≠ '|') hLists
  rw [takeWhile_append_sep (by simpa using hs), takeWhile_append_sep (by simpa using ht)] at hParts
  rw [hParts] at hLists
  have hFront := List.append_cancel_left hLists
  simp only [List.cons.injEq, true_and] at hFront
  exact ⟨String.toList_inj.mp (List.reverse_injective hFront),
    String.toList_inj.mp (List.reverse_injective hParts)⟩

theorem append_cancel (s : String) {t u : String} (h : s ++ t = s ++ u) : t = u := by
  have hLists := congrArg String.toList h
  rw [String.toList_append, String.toList_append] at hLists
  exact String.toList_inj.mp (List.append_cancel_left hLists)

/-! ## Accepted responses -/

section Accepted

variable {lib : Library} {nodeId : String} {requireTee : Bool} {response : Response}

theorem of_readResponse {output : Tensor} {receipt : ReceiptDict}
    (h : readResponse lib nodeId requireTee response = .ok (output, receipt)) :
    decodeOutput lib response = some output ∧ response.receipt = .dict receipt ∧
      verify lib receipt output.data nodeId = true := by
  unfold readResponse at h
  split at h
  · cases h
  split at h
  · cases h
  cases hOutput : decodeOutput lib response with
  | none => simp [hOutput] at h
  | some output' =>
      cases hReceipt : response.receipt with
      | notADict => simp [hOutput, hReceipt] at h
      | dict receipt' =>
          simp only [hOutput, hReceipt] at h
          split at h
          · cases h
          case isFalse hVerified =>
              split at h
              · cases h
              · cases h
                exact ⟨rfl, rfl, by simpa using hVerified⟩

theorem of_verify {receipt : ReceiptDict} {outputBytes : Bytes}
    (h : verify lib receipt outputBytes nodeId = true) :
    ∃ r, ShardReceipt.fromDict receipt = some r ∧
      r.outputHash = .str (lib.sha256Hex outputBytes) ∧
      deriveNodeId lib r.providerPubkeyB64 = some nodeId ∧
      verifySignature lib r.providerPubkeyB64 (r.payload lib) r.signature = true := by
  unfold verify at h
  cases hReceipt : ShardReceipt.fromDict receipt with
  | none => simp [hReceipt] at h
  | some r =>
      cases hDerived : deriveNodeId lib r.providerPubkeyB64 with
      | none => simp [hReceipt, hDerived] at h
      | some derivedNodeId =>
          simp only [hReceipt, hDerived, Bool.and_eq_true, decide_eq_true_eq] at h
          obtain ⟨hHash, ⟨-, rfl⟩, hSignature⟩ := h
          exact ⟨r, rfl, hHash, hDerived, hSignature⟩

end Accepted

section Dispatch

variable {lib : Library} {config : Config} {shard : ModelShard} {input : Tensor}
  {nodeId jobId stakeTier : String} {amount : ℚ} {requireTee : Bool}

/-- What a dispatch may request: a release only for its own escrow, to its own provider
and for a response that was accepted. -/
def Pays (lib : Library) (shard : ModelShard) (nodeId jobId : String) (requireTee : Bool) :
    Request → Prop
  | .releaseEscrow key provider response =>
      key = escrowJobId jobId shard.shardIndex ∧ provider = nodeId ∧
        ∃ output receipt, readResponse lib nodeId requireTee response = .ok (output, receipt)
  | _ => True

/-- The response of an attempt that succeeds is accepted. -/
def Accepted (lib : Library) (nodeId : String) (requireTee : Bool) :
    Except Error (Except Failure (Tensor × ReceiptDict × Response)) → Prop
  | .ok (.ok (output, receipt, response)) =>
      readResponse lib nodeId requireTee response = .ok (output, receipt)
  | _ => True

variable {payload : ExecuteRequest}

theorem only_dispatchOnce :
    (dispatchOnce lib nodeId requireTee payload).Only (Pays lib shard nodeId jobId requireTee)
      (Accepted lib nodeId requireTee) := by
  refine ⟨trivial, fun answer => ?_⟩
  cases answer with
  | error e => cases e <;> trivial
  | ok response =>
      cases hRead : readResponse lib nodeId requireTee response with
      | error failure =>
          simp only [Coroutine.bind_returned, hRead]
          trivial
      | ok accepted =>
          simp only [Coroutine.bind_returned, hRead]
          exact hRead

theorem only_attempts {retries : ℕ} :
    (attempts lib nodeId requireTee payload retries).Only
      (Pays lib shard nodeId jobId requireTee) (Accepted lib nodeId requireTee) := by
  induction retries with
  | zero => exact only_dispatchOnce
  | succ retries ih =>
      apply Coroutine.only_bind
      refine only_dispatchOnce.imp fun outcome hAccepted => ?_
      match outcome, hAccepted with
      | .error e, _ => trivial
      | .ok (.ok accepted), hAccepted => exact hAccepted
      | .ok (.error failure), _ =>
          cases failure with
          | timeout => exact ih
          | _ => trivial

theorem only_fallback {P : Request → Prop} (h : P (.callFallback shard.shardIndex)) :
    (fallback shard nodeId).Only P fun _ => True := by
  refine ⟨h, fun answer => ?_⟩
  cases answer <;> trivial

theorem only_dispatchFunded :
    (dispatchFunded lib config shard input nodeId jobId stakeTier amount requireTee).Only
      (Pays lib shard nodeId jobId requireTee) fun _ => True := by
  unfold dispatchFunded
  split
  · trivial
  refine ⟨trivial, fun answer => ?_⟩
  match answer with
  | .error e => trivial
  | .ok none => trivial
  | .ok (some escrow) =>
      simp only [Coroutine.bind_returned]
      apply Coroutine.only_bind
      refine only_attempts.imp fun outcome hAccepted => ?_
      match outcome, hAccepted with
      | .error e, _ => trivial
      | .ok (.ok (output, receipt, response)), hAccepted =>
          refine ⟨⟨rfl, rfl, output, receipt, hAccepted⟩, fun released => ?_⟩
          match released with
          | .error e => trivial
          | .ok none => trivial
          | .ok (some tx) => trivial
      | .ok (.error failure), _ =>
          refine ⟨trivial, fun refunded => ?_⟩
          cases refunded with
          | error e => trivial
          | ok done =>
              simp only [Coroutine.bind_returned]
              split
              · exact only_fallback trivial
              · trivial

theorem only_dispatchWithReceipt :
    (dispatchWithReceipt lib config shard input nodeId jobId stakeTier amount requireTee).Only
      (Pays lib shard nodeId jobId requireTee) fun _ => True := by
  unfold dispatchWithReceipt
  split
  · split
    · exact only_fallback trivial
    · trivial
  · intro transport
    simp only [Coroutine.bind_returned]
    split
    · split
      · exact only_fallback trivial
      · trivial
    · exact only_dispatchFunded

theorem attempts_requests {retries : ℕ} {response : Response}
    {output : Tensor} {receipt : ReceiptDict} {r : Request}
    {next : Except Failure (Tensor × ReceiptDict × Response) → Method DispatchResult}
    (hRead : readResponse lib nodeId requireTee response = .ok (output, receipt))
    (h : (next (.ok (output, receipt, response))).Requests r) :
    ((attempts lib nodeId requireTee payload retries).bind next).Requests r := by
  cases retries with
  | zero =>
      refine Or.inr ⟨.ok response, ?_⟩
      simp only [Coroutine.bind_returned, hRead]
      exact h
  | succ retries =>
      refine Or.inr ⟨.ok response, ?_⟩
      simp only [Coroutine.bind_returned, hRead]
      exact h

theorem dispatchWithReceipt_requests {response : Response} {output : Tensor}
    {receipt : ReceiptDict} (hSize : shard.tensorData.length ≤ config.maxShardBytes)
    (hJob : jobId ≠ "")
    (hRead : readResponse lib nodeId requireTee response = .ok (output, receipt)) :
    (dispatchWithReceipt lib config shard input nodeId jobId stakeTier amount requireTee).Requests
      (.releaseEscrow (escrowJobId jobId shard.shardIndex) nodeId response) := by
  unfold dispatchWithReceipt
  rw [if_neg (by omega)]
  refine ⟨⟨[nodeId]⟩, ?_⟩
  simp only [Coroutine.bind_returned, List.contains_cons, beq_self_eq_true, Bool.true_or,
    Bool.not_true, Bool.false_eq_true, if_false]
  unfold dispatchFunded
  rw [if_neg hJob]
  let escrow : EscrowEntry :=
    ⟨"escrow", escrowJobId jobId shard.shardIndex, config.nodeId, amount, .pending, none, none,
      none, 0, none⟩
  refine Or.inr ⟨.ok (some escrow), ?_⟩
  simp only [Coroutine.bind_returned]
  exact attempts_requests hRead (Or.inl rfl)

end Dispatch

/-! ## What a receipt is for -/

/-- The receipt names the job and the shard, with a time that has no bar in its text. -/
def NamesRequest (jobId : String) (shardIndex : ℤ) (response : Response) : Prop :=
  ∃ receipt executedAtUnix, response.receipt = .dict receipt ∧
    receipt.jobId = some (.str jobId) ∧ receipt.shardIndex = some (.int shardIndex) ∧
      receipt.executedAtUnix = some executedAtUnix ∧ '|' ∉ executedAtUnix.text.toList

/-- The receipt of a response, as the consensus gets it. -/
def Response.shardReceipt (response : Response) : Option ShardReceipt :=
  match response.receipt with
  | .notADict => none
  | .dict receipt => ShardReceipt.fromDict receipt

/-- The signing text of the receipt's fields. -/
def ShardReceipt.text (r : ShardReceipt) : String :=
  signingText r.jobId r.shardIndex r.outputHash r.executedAtUnix

/-- The job, the shard and the output hash can be read off the text from the right. -/
def Attests (text jobId : String) (shardIndex : ℤ) (outputHash : String) : Prop :=
  '|' ∉ outputHash.toList ∧ ∃ executedAtUnix : PyValue, '|' ∉ executedAtUnix.text.toList ∧
    text = signingText (.str jobId) (.int shardIndex) (.str outputHash) executedAtUnix

theorem Attests.unique {text jobId jobId' outputHash outputHash' : String}
    {shardIndex shardIndex' : ℤ} (h : Attests text jobId shardIndex outputHash)
    (h' : Attests text jobId' shardIndex' outputHash') :
    jobId = jobId' ∧ shardIndex = shardIndex' ∧ outputHash = outputHash' := by
  obtain ⟨hHash, executedAtUnix, hTime, rfl⟩ := h
  obtain ⟨hHash', executedAtUnix', hTime', hText⟩ := h'
  obtain ⟨hHead, -⟩ := eq_of_bar_append hTime hTime' hText
  obtain ⟨hFront, hOutput⟩ := eq_of_bar_append hHash hHash' hHead
  obtain ⟨hJob, hShard⟩ := eq_of_bar_append (PyValue.bar_notMem_toString _)
    (PyValue.bar_notMem_toString _) hFront
  rw [Int.toString_eq_repr, Int.toString_eq_repr] at hShard
  exact ⟨hJob, Int.repr_injective hShard, hOutput⟩

/-- Whatever the keys have signed, if the signature of the response is none that was
forged and the hashes do not collide, then the provider's key has signed a text that
attests this job, this shard and the returned bytes. -/
def SignedForRequest (lib : Library) (nodeId jobId : String) (shardIndex : ℤ)
    (response : Response) : Prop :=
  ∀ (signed : List (PyValue × String)) (r : ShardReceipt),
    response.shardReceipt = some r →
    (∃ text, (r.providerPubkeyB64, text) ∈ signed ∧ lib.keccak256 (utf8 text) = r.payload lib) →
    CollisionFree lib.keccak256 (utf8 r.text :: signed.map fun entry => utf8 entry.2) →
    ∃ output key text, decodeOutput lib response = some output ∧
      deriveNodeId lib key = some nodeId ∧ (key, text) ∈ signed ∧
        Attests text jobId shardIndex (lib.sha256Hex output.data)

/-- Among receipts for this job and shard, the receipt never makes the consensus raise. -/
def HarmlessToGroup (jobId : String) (shardIndex : ℤ) (response : Response) : Prop :=
  ∀ (c : ShardConsensus) (before after : List ShardReceipt) (r : ShardReceipt),
    (∀ other ∈ before ++ after, other.jobId = .str jobId ∧ other.shardIndex = .int shardIndex) →
    response.shardReceipt = some r → ∃ outcome, c.resolve (before ++ r :: after) = .ok outcome

theorem resolve_ok_iff {c : ShardConsensus} {first : ShardReceipt} {rest : List ShardReceipt} :
    (∃ outcome, c.resolve (first :: rest) = .ok outcome) ↔
      ∀ r ∈ rest, first.mixedWith r = false := by
  constructor
  · intro ⟨outcome, hOk⟩ r hr
    by_contra hMixed
    obtain ⟨r', hFind⟩ := Option.isSome_iff_exists.mp
      (List.find?_isSome.mpr ⟨r, hr, by simpa using hMixed⟩)
    simp [ShardConsensus.resolve, hFind] at hOk
  · intro h
    have hFind : rest.find? first.mixedWith = none :=
      List.find?_eq_none.mpr fun r hr => by simp [h r hr]
    simp only [ShardConsensus.resolve, hFind]
    split
    · split
      · exact ⟨_, rfl⟩
      · exact ⟨_, rfl⟩
    · exact ⟨_, rfl⟩

theorem resolve_of_named {c : ShardConsensus} {jobId : String} {shardIndex : ℤ}
    {receipts : List ShardReceipt}
    (h : ∀ r ∈ receipts, r.jobId = .str jobId ∧ r.shardIndex = .int shardIndex) :
    ∃ outcome, c.resolve receipts = .ok outcome := by
  cases receipts with
  | nil => exact ⟨_, rfl⟩
  | cons first rest =>
      refine resolve_ok_iff.mpr fun r hr => ?_
      obtain ⟨hJob, hShard⟩ := h first List.mem_cons_self
      obtain ⟨hJob', hShard'⟩ := h r (List.mem_cons_of_mem first hr)
      simp [ShardReceipt.mixedWith, hJob, hShard, hJob', hShard']

section Paid

variable {lib : Library} {nodeId jobId : String} {shardIndex : ℤ} {response : Response}
  {requireTee : Bool} {output : Tensor} {receipt : ReceiptDict}

theorem shardReceipt_fields {r : ShardReceipt} (h : ShardReceipt.fromDict receipt = some r) :
    receipt.jobId = some r.jobId ∧ receipt.shardIndex = some r.shardIndex ∧
      receipt.executedAtUnix = some r.executedAtUnix := by
  simp only [ShardReceipt.fromDict, bind, Option.bind_eq_some_iff] at h
  obtain ⟨jobId, hJob, shardIndex, hShard, providerId, -, pubkey, -, outputHash, -, executedAt,
    hExecuted, signature, -, hReceipt⟩ := h
  cases hReceipt
  exact ⟨hJob, hShard, hExecuted⟩

theorem signed_of_names
    (hRead : readResponse lib nodeId requireTee response = .ok (output, receipt))
    (h : NamesRequest jobId shardIndex response) :
    SignedForRequest lib nodeId jobId shardIndex response := by
  obtain ⟨hOutput, hReceipt, hVerify⟩ := of_readResponse hRead
  obtain ⟨r, hFields, hHash, hDerived, hSignature⟩ := of_verify hVerify
  obtain ⟨receipt', executedAtUnix, hSame, hJob, hShard, hExecuted, hPlain⟩ := h
  rw [hReceipt] at hSame
  cases hSame
  obtain ⟨hJob', hShard', hExecuted'⟩ := shardReceipt_fields hFields
  obtain rfl := Option.some.inj (hExecuted.symm.trans hExecuted')
  have hThis : response.shardReceipt = some r := by
    rw [Response.shardReceipt, hReceipt]
    exact hFields
  intro signed r' hThis' hUnforged hFree
  obtain rfl : r = r' := Option.some.inj (hThis.symm.trans hThis')
  obtain ⟨text, hMem, hPayload⟩ := hUnforged
  -- without a collision the text that was signed is that of the receipt
  have hText : text = r.text := by
    apply utf8_injective
    apply hFree
    · exact List.mem_cons_of_mem _ (List.mem_map.mpr ⟨_, hMem, rfl⟩)
    · exact List.mem_cons_self
    · exact hPayload
  refine ⟨output, r.providerPubkeyB64, text, hOutput, hDerived, hMem, lib.sha256Hex_plain _,
    r.executedAtUnix, hPlain, ?_⟩
  rw [hText, ShardReceipt.text, hHash, Option.some.inj (hJob'.symm.trans hJob),
    Option.some.inj (hShard'.symm.trans hShard)]

theorem harmless_of_names (h : NamesRequest jobId shardIndex response) :
    HarmlessToGroup jobId shardIndex response := by
  obtain ⟨receipt, executedAtUnix, hReceipt, hJob, hShard, -, -⟩ := h
  intro c before after r hGroup hThis
  rw [Response.shardReceipt, hReceipt] at hThis
  obtain ⟨hJob', hShard', -⟩ := shardReceipt_fields hThis
  have hNamed : r.jobId = .str jobId ∧ r.shardIndex = .int shardIndex :=
    ⟨Option.some.inj (hJob'.symm.trans hJob), Option.some.inj (hShard'.symm.trans hShard)⟩
  have hNamedAll : ∀ other ∈ before ++ r :: after,
      other.jobId = .str jobId ∧ other.shardIndex = .int shardIndex := by
    intro other hOther
    rcases List.mem_append.mp hOther with hBefore | hAfter
    · exact hGroup other (List.mem_append_left after hBefore)
    · rcases List.mem_cons.mp hAfter with rfl | hLater
      · exact hNamed
      · exact hGroup other (List.mem_append_right before hLater)
  exact resolve_of_named hNamedAll

theorem names_of_signed
    (hRead : readResponse lib nodeId requireTee response = .ok (output, receipt))
    (hSigned : SignedForRequest lib nodeId jobId shardIndex response)
    (hHarmless : HarmlessToGroup jobId shardIndex response) :
    NamesRequest jobId shardIndex response := by
  obtain ⟨hOutput, hReceipt, hVerify⟩ := of_readResponse hRead
  obtain ⟨r, hFields, hHash, hDerived, hSignature⟩ := of_verify hVerify
  obtain ⟨hJob, hShard, hExecuted⟩ := shardReceipt_fields hFields
  have hThis : response.shardReceipt = some r := by
    rw [Response.shardReceipt, hReceipt]
    exact hFields
  -- one honest receipt beside this one already compares the fields
  let honest : ShardReceipt := { r with jobId := .str jobId, shardIndex := .int shardIndex }
  have hPair := hHarmless ⟨.single, 1, le_rfl⟩ [honest] [] r (by simp [honest]) hThis
  have hUnmixed := resolve_ok_iff.mp hPair r (by simp)
  simp only [ShardReceipt.mixedWith, honest, Bool.or_eq_false_iff, Bool.not_eq_false'] at hUnmixed
  have hJobId := PyValue.pyEq_str hUnmixed.1
  -- where the key has signed nothing but this receipt, it is this receipt that attests
  obtain ⟨output', key, text, hOutput', -, hMem, -, executedAtUnix, hPlain, hText⟩ :=
    hSigned [(r.providerPubkeyB64, r.text)] r hThis ⟨r.text, List.mem_singleton.mpr rfl, rfl⟩
      (by simp [CollisionFree])
  obtain rfl : output = output' := Option.some.inj (hOutput.symm.trans hOutput')
  obtain ⟨-, rfl⟩ := Prod.mk.inj (List.mem_singleton.mp hMem)
  have hRest : r.shardIndex.text ++ "||" ++
        (lib.sha256Hex output.data ++ "||" ++ r.executedAtUnix.text)
      = toString shardIndex ++ "||" ++ (lib.sha256Hex output.data ++ "||" ++
          executedAtUnix.text) := by
    apply append_cancel (jobId ++ "||")
    simpa only [ShardReceipt.text, signingText, hJobId, hHash, PyValue.text,
      String.append_assoc] using hText
  rcases PyValue.pyEq_int hUnmixed.2 with hIndex | hOther
  · simp only [hIndex, PyValue.text_int, String.append_assoc] at hRest
    have hTimes := append_cancel _ (append_cancel _ (append_cancel _ (append_cancel _ hRest)))
    refine ⟨receipt, r.executedAtUnix, hReceipt, ?_, ?_, hExecuted, ?_⟩
    · rw [hJob, hJobId]
    · rw [hShard, hIndex]
    · rw [hTimes]
      exact hPlain
  · -- the text of any other number that is equal to the index differs from the index's
    obtain ⟨hPlain', hDiffers⟩ := PyValue.text_ne_toString hOther shardIndex
    have hSame := eq_of_append_bar hPlain' (PyValue.bar_notMem_toString shardIndex) hRest
    exact absurd hSame hDiffers

end Paid

/-- A paid receipt is signed for this dispatch and does not disturb its group exactly when
it names the dispatch. -/
theorem paid_receipt_iff (lib : Library) (config : Config) (shard : ModelShard) (input : Tensor)
    (nodeId jobId stakeTier : String) (amount : ℚ) (requireTee : Bool) (key provider : String)
    (response : Response)
    (h : (dispatchWithReceipt lib config shard input nodeId jobId stakeTier amount
      requireTee).Requests (.releaseEscrow key provider response)) :
    (key = escrowJobId jobId shard.shardIndex ∧ provider = nodeId ∧
      SignedForRequest lib nodeId jobId shard.shardIndex response ∧
        HarmlessToGroup jobId shard.shardIndex response) ↔
      NamesRequest jobId shard.shardIndex response := by
  obtain ⟨hKey, hProvider, output, receipt, hRead⟩ :=
    only_dispatchWithReceipt.of_requests h
  constructor
  · intro ⟨_, _, hSigned, hHarmless⟩
    exact names_of_signed hRead hSigned hHarmless
  · intro hNames
    exact ⟨hKey, hProvider, signed_of_names hRead hNames, harmless_of_names hNames⟩

/-! ## A receipt that comes twice -/

/-- The one key has signed the one text; the key is empty and so is the signature. -/
def sampleLibrary : Library where
  sha256Hex := fun _ => "ab"
  sha256Hex_plain := fun _ => by decide
  keccak256 := fun data => Fin.ofNat _ (data.foldl (fun acc byte => acc * 257 + byte.val) 1)
  verifySignature := fun key data signature =>
    key = "" && signature = .str "" &&
      data = Fin.ofNat _ ((utf8 "job-1||0||ab||100").foldl (fun acc byte => acc * 257 + byte.val) 1)
  isArray := fun _ _ _ => true
  isAttested := fun _ => true

def sampleReceipt : ReceiptDict where
  jobId := some (.str "job-1")
  shardIndex := some (.int 0)
  providerId := some (.str "ab")
  providerPubkeyB64 := some (.str "")
  outputHash := some (.str "ab")
  executedAtUnix := some (.int 100)
  signature := some (.str "")
  teeAttestation := none

def sampleResponse : Response where
  status := some (.str "completed")
  error := none
  outputB64 := some (.str "")
  outputShape := some (.composite "[0]" "[0]" false)
  outputDtype := some (.str "float32")
  receipt := .dict sampleReceipt

def sampleConfig : Config := ⟨"requester", 0, 16, false⟩

def sampleShard : ModelShard := ⟨0, [], [0], ""⟩

def sampleInput : Tensor := ⟨[], .composite "[0]" "[0]" false, .str "float32"⟩

theorem sampleResponse_paid (jobId : String) (hJob : jobId ≠ "") :
    (dispatchWithReceipt sampleLibrary sampleConfig sampleShard sampleInput "ab" jobId "" 1
      false).Requests (.releaseEscrow (escrowJobId jobId 0) "ab" sampleResponse) := by
  have hRead : readResponse sampleLibrary "ab" false sampleResponse
      = .ok (⟨[], .composite "[0]" "[0]" false, .str "float32"⟩, sampleReceipt) := by
    decide +kernel
  have hSize : sampleShard.tensorData.length ≤ sampleConfig.maxShardBytes := Nat.zero_le _
  exact dispatchWithReceipt_requests hSize hJob hRead

/-- The receipt is paid for in the job that it names. -/
theorem paid_receipt_iff_sample :
    SignedForRequest sampleLibrary "ab" "job-1" 0 sampleResponse :=
  ((paid_receipt_iff sampleLibrary sampleConfig sampleShard sampleInput "ab" "job-1" "" 1 false
    (escrowJobId "job-1" 0) "ab" sampleResponse (sampleResponse_paid "job-1" (by decide))).mpr
      ⟨sampleReceipt, .int 100, rfl, rfl, rfl, rfl, by decide⟩).2.2.1

/-- The same receipt is paid for again in the next job, although the key has signed nothing
else; and beside a receipt of that job it makes the consensus raise. -/
theorem replayedReceipt_paid :
    (dispatchWithReceipt sampleLibrary sampleConfig sampleShard sampleInput "ab" "job-2" "" 1
      false).Requests (.releaseEscrow (escrowJobId "job-2" 0) "ab" sampleResponse) ∧
    ¬ SignedForRequest sampleLibrary "ab" "job-2" 0 sampleResponse ∧
    ¬ HarmlessToGroup "job-2" 0 sampleResponse := by
  let r : ShardReceipt :=
    ⟨.str "job-1", .int 0, .str "ab", .str "", .str "ab", .int 100, .str "", none⟩
  refine ⟨sampleResponse_paid "job-2" (by decide), ?_, ?_⟩
  · intro hSigned
    obtain ⟨output, key, text, -, -, hMem, hAttests⟩ :=
      hSigned [(.str "", "job-1||0||ab||100")] r rfl
        ⟨_, List.mem_singleton.mpr rfl, by decide +kernel⟩ (by decide +kernel)
    obtain ⟨-, rfl⟩ := Prod.mk.inj (List.mem_singleton.mp hMem)
    have hFirst : Attests "job-1||0||ab||100" "job-1" 0 "ab" :=
      ⟨by decide, .int 100, by decide, by decide +kernel⟩
    exact absurd (hFirst.unique hAttests).1 (by decide)
  · intro hHarmless
    obtain ⟨outcome, hOk⟩ := hHarmless ⟨.single, 1, le_rfl⟩
      [{ r with jobId := .str "job-2" }] [] r (by simp [r]) rfl
    have hRaises : (⟨.single, 1, le_rfl⟩ : ShardConsensus).resolve
        ([{ r with jobId := .str "job-2" }] ++ [r])
          = .error ⟨.str "job-2", .int 0, .str "job-1", .int 0⟩ := by
      decide +kernel
    rw [hRaises] at hOk
    cases hOk

end Prsm.ShardDispatch
