import Prsm.Pipeline.Orchestrator

/-!
# The pipeline and the whole model

The receipt of a run passes `_verify_chain` whatever the runners do.  The stages of a validated
partition have every layer once; that they are run in order is not checked, neither within a
stage nor from one stage to the next.
-/

namespace Prsm.Pipeline

open Foundations
open Evm (Bytes)

/-! ## The chain of a receipt -/

section Chain

variable {lib : Library}

theorem linked_of_runStages {stages : List Stage} {i : ℕ} {input output : Bytes}
    {receipts : List PerStageReceipt}
    (h : runStages lib i stages input = some (output, receipts)) :
    receipts.length = stages.length ∧ stagesLinked receipts = true ∧
      (∀ r ∈ receipts.head?, r.inputActivationHash = lib.sha.hexdigest input) ∧
      ∀ r ∈ receipts.getLast?, r.outputActivationHash = lib.sha.hexdigest output := by
  induction stages generalizing i input output receipts with
  | nil =>
      obtain ⟨rfl, rfl⟩ := Prod.mk.inj (Option.some.inj h)
      exact ⟨rfl, rfl, by simp, by simp⟩
  | cons stage rest ih =>
      rw [runStages] at h
      obtain ⟨middle, hRun, h⟩ := Option.bind_eq_some_iff.mp h
      obtain ⟨later, hLater, h⟩ := Option.bind_eq_some_iff.mp h
      obtain ⟨rfl, rfl⟩ := Prod.mk.inj (Option.some.inj h)
      obtain ⟨hLength, hLinked, hHead, hLast⟩ := ih hLater
      refine ⟨by simp [hLength], ?_, by simp, ?_⟩
      · cases hReceipts : later.2 with
        | nil => rfl
        | cons r receipts =>
            rw [hReceipts] at hLinked hHead
            rw [stagesLinked, hLinked, hHead r rfl]
            simp
      · intro r hr
        cases hReceipts : later.2 with
        | nil =>
            -- the stage is the last one: its output is what comes out
            rw [hReceipts] at hr hLength
            obtain rfl := List.eq_nil_of_length_eq_zero hLength.symm
            obtain ⟨hSame, -⟩ := Prod.mk.inj (Option.some.inj hLater)
            rw [← hSame]
            obtain rfl : _ = r := by simpa using hr
            rfl
        | cons first receipts =>
            rw [hReceipts, List.getLast?_cons_cons] at hr
            rw [hReceipts] at hLast
            exact hLast r hr

theorem verifyChain_receiptOf {stages : List Stage} (hStages : stages ≠ [])
    {prompt output : Bytes} {receipts : List PerStageReceipt} (p : PipelinePartition)
    (h : runStages lib 0 stages prompt = some (output, receipts)) :
    verifyChain (receiptOf lib p prompt output receipts) = true := by
  obtain ⟨hLength, hLinked, hHead, hLast⟩ := linked_of_runStages h
  have hReceipts : receipts ≠ [] := by
    intro hNone
    rw [hNone, List.length_nil] at hLength
    exact hStages (List.eq_nil_of_length_eq_zero hLength.symm)
  obtain ⟨first, hFirst⟩ := Option.ne_none_iff_exists'.mp (mt List.head?_eq_none_iff.mp hReceipts)
  obtain ⟨last, hFinal⟩ := Option.ne_none_iff_exists'.mp (mt List.getLast?_eq_none_iff.mp hReceipts)
  have hFields : (receiptOf lib p prompt output receipts).stageReceipts = receipts := rfl
  unfold verifyChain
  rw [hFields, hFirst, hFinal]
  simp only [hHead first hFirst, hLast last hFinal, hLinked]
  simp [receiptOf, signPipelineReceipt]

end Chain

/-! ## The layers that are applied -/

section Layers

/-- The runner applies the layers that it is given, in the order given. -/
def AppliesLayers (apply : ℤ → Bytes → Bytes) (runner : StageRunner) : Prop :=
  ∀ activations stage layers,
    runner activations stage layers = some (layers.foldl (fun a layer => apply layer a) activations)

variable {lib : Library} {apply : ℤ → Bytes → Bytes}

variable (lib) in
theorem runStages_applies {stages : List Stage}
    (h : ∀ stage ∈ stages, AppliesLayers apply stage.runner) (i : ℕ) (input : Bytes) :
    ∃ receipts, runStages lib i stages input =
      some ((stages.flatMap (·.layers)).foldl (fun a layer => apply layer a) input, receipts) := by
  induction stages generalizing i input with
  | nil => exact ⟨[], rfl⟩
  | cons stage rest ih =>
      obtain ⟨hStage, hRest⟩ := List.forall_mem_cons.mp h
      obtain ⟨receipts, hLater⟩ := ih hRest (i + 1)
        (stage.layers.foldl (fun a layer => apply layer a) input)
      rw [runStages, hStage input i stage.layers, List.flatMap_cons, List.foldl_append]
      exact ⟨_, by rw [Option.bind_eq_bind, Option.bind_some, hLater]; rfl⟩

theorem layers_stagesOf {p : PipelinePartition} {runners : List StageRunner}
    {attestations : Option (List AttestationVerificationResult)}
    (hRunners : runners.length = p.stageLayerRanges.length)
    (hAttestations : ∀ supplied ∈ attestations, supplied.length = p.stageLayerRanges.length) :
    (stagesOf p runners attestations).map (·.layers) = p.stageLayerRanges ∧
      (stagesOf p runners attestations).map (·.runner) = runners := by
  have hSupplied : (attestations.getD (p.stageLayerRanges.map fun _ => softwareFallback)).length =
      p.stageLayerRanges.length := by
    cases attestations with
    | none => simp
    | some supplied => exact hAttestations supplied rfl
  unfold stagesOf
  generalize attestations.getD (p.stageLayerRanges.map fun _ => softwareFallback) = supplied at *
  constructor
  · rw [List.map_map]
    show (runners.zip (p.stageLayerRanges.zip supplied)).map (Prod.fst ∘ Prod.snd) = _
    rw [← List.map_map, List.map_snd_zip, List.map_fst_zip]
    · omega
    · rw [List.length_zip]
      omega
  · rw [List.map_map]
    show (runners.zip (p.stageLayerRanges.zip supplied)).map Prod.fst = _
    rw [List.map_fst_zip]
    rw [List.length_zip]
    omega

end Layers

/-! ## Validated partitions -/

namespace PipelinePartition

theorem checkLayers_eq_ok {n : ℤ} {stage : ℕ} {layers seen seen' : List ℤ} :
    checkLayers n stage layers seen = .ok seen' ↔
      (∀ layer ∈ layers, 0 ≤ layer ∧ layer < n) ∧ layers.Nodup ∧ (∀ layer ∈ layers, layer ∉ seen) ∧
        seen' = layers.reverse ++ seen := by
  induction layers generalizing seen with
  | nil => simp [checkLayers, eq_comm]
  | cons layer rest ih =>
      rw [checkLayers]
      split_ifs with hRange hSeen
      · constructor
        · intro h
          cases h
        · intro h
          have hLayer := h.1 layer List.mem_cons_self
          omega
      · constructor
        · intro h
          cases h
        · exact fun h => absurd hSeen (h.2.2.1 layer List.mem_cons_self)
      · have hLayer : 0 ≤ layer ∧ layer < n := by omega
        rw [ih, List.forall_mem_cons, List.nodup_cons, List.forall_mem_cons, List.reverse_cons,
          List.append_assoc, List.singleton_append]
        simp only [List.mem_cons, not_or, hLayer, hSeen, not_false_eq_true, true_and, and_assoc]
        refine and_congr_right fun _ => ?_
        constructor
        · rintro ⟨hNodup, hFresh, rfl⟩
          exact ⟨fun hMem => (hFresh layer hMem).1 rfl, hNodup, fun x hx => (hFresh x hx).2, rfl⟩
        · rintro ⟨hNew, hNodup, hFresh, rfl⟩
          exact ⟨hNodup, fun x hx => ⟨fun hSame => hNew (hSame ▸ hx), hFresh x hx⟩, rfl⟩

theorem checkStages_eq_ok {n : ℤ} {stage : ℕ} {ranges : List (List ℤ)} {seen seen' : List ℤ} :
    checkStages n stage ranges seen = .ok seen' ↔
      (∀ layers ∈ ranges, layers ≠ [] ∧ consecutive (layers.insertionSort (· ≤ ·)) = true) ∧
        (∀ layer ∈ ranges.flatten, 0 ≤ layer ∧ layer < n) ∧ ranges.flatten.Nodup ∧
        (∀ layer ∈ ranges.flatten, layer ∉ seen) ∧ seen' = ranges.flatten.reverse ++ seen := by
  induction ranges generalizing stage seen with
  | nil =>
      constructor
      · intro h
        obtain rfl := Except.ok.inj h
        simp
      · rintro ⟨-, -, -, -, rfl⟩
        rfl
  | cons layers rest ih =>
      rw [checkStages, List.forall_mem_cons, List.flatten_cons, List.forall_mem_append,
        List.nodup_append', List.forall_mem_append, List.reverse_append, List.append_assoc]
      by_cases hEmpty : layers = []
      · rw [if_pos hEmpty]
        constructor
        · intro h
          cases h
        · exact fun h => absurd hEmpty h.1.1.1
      · rw [if_neg hEmpty, bind_eq_ok_iff]
        simp only [checkLayers_eq_ok]
        by_cases hBlock : consecutive (layers.insertionSort (· ≤ ·)) = true
        · simp only [if_pos hBlock, ih]
          constructor
          · rintro ⟨seen, ⟨hRange, hNodup, hFresh, rfl⟩, hStages, hLater, hLaterNodup, hNew, rfl⟩
            refine ⟨⟨⟨hEmpty, hBlock⟩, hStages⟩, ⟨hRange, hLater⟩, ⟨hNodup, hLaterNodup, ?_⟩,
              ⟨hFresh, ?_⟩, rfl⟩
            · intro x hx hMem
              exact hNew x hMem (List.mem_append_left _ (List.mem_reverse.mpr hx))
            · exact fun x hx hSeen => hNew x hx (List.mem_append_right _ hSeen)
          · rintro ⟨⟨-, hStages⟩, ⟨hRange, hLater⟩, ⟨hNodup, hLaterNodup, hDisjoint⟩,
              ⟨hFresh, hFreshLater⟩, rfl⟩
            refine ⟨_, ⟨hRange, hNodup, hFresh, rfl⟩, hStages, hLater, hLaterNodup, ?_, rfl⟩
            intro x hx hMem
            rcases List.mem_append.mp hMem with hLayer | hSeen
            · exact hDisjoint (List.mem_reverse.mp hLayer) hx
            · exact hFreshLater x hx hSeen
        · simp only [if_neg hBlock]
          constructor
          · rintro ⟨_, _, h⟩
            cases h
          · exact fun h => absurd h.1.1.2 hBlock

theorem validate_eq_ok {p : PipelinePartition} :
    p.validate = .ok () ↔ 1 ≤ p.totalLayers ∧ p.stageLayerRanges ≠ [] ∧
      p.stageNodeIds.length = p.stageLayerRanges.length ∧
        (∀ layers ∈ p.stageLayerRanges,
          layers ≠ [] ∧ consecutive (layers.insertionSort (· ≤ ·)) = true) ∧
        (∀ layer ∈ p.stageLayerRanges.flatten, 0 ≤ layer ∧ layer < p.totalLayers) ∧
        p.stageLayerRanges.flatten.Nodup ∧
        (p.stageLayerRanges.flatten.length : ℤ) = p.totalLayers := by
  unfold validate
  by_cases hTotal : p.totalLayers < 1
  · rw [if_pos hTotal]
    constructor
    · intro h
      cases h
    · intro h
      omega
  by_cases hNone : p.stageLayerRanges = []
  · rw [if_neg hTotal, if_pos hNone]
    constructor
    · intro h
      cases h
    · exact fun h => absurd hNone h.2.1
  by_cases hIds : p.stageNodeIds.length ≠ p.stageLayerRanges.length
  · rw [if_neg hTotal, if_neg hNone, if_pos hIds]
    constructor
    · intro h
      cases h
    · exact fun h => absurd h.2.2.1 hIds
  rw [if_neg hTotal, if_neg hNone, if_neg hIds, bind_eq_ok_iff]
  simp only [checkStages_eq_ok]
  constructor
  · rintro ⟨seen, ⟨hStages, hRange, hNodup, -, rfl⟩, hCount⟩
    split_ifs at hCount with hGaps
    simp only [ne_eq, not_not, List.append_nil, List.length_reverse] at hGaps
    exact ⟨by omega, hNone, not_not.mp hIds, hStages, hRange, hNodup, hGaps⟩
  · rintro ⟨-, -, -, hStages, hRange, hNodup, hCount⟩
    refine ⟨_, ⟨hStages, hRange, hNodup, by simp, rfl⟩, ?_⟩
    rw [List.append_nil, List.length_reverse, hCount, if_neg (not_not.mpr rfl)]

/-- Each stage lists its layers in ascending order, and so come the stages. -/
structure InOrder (p : PipelinePartition) : Prop where
  within : ∀ layers ∈ p.stageLayerRanges, layers.Pairwise (· < ·)
  across : p.stageLayerRanges.Pairwise fun earlier later => ∀ x ∈ earlier, ∀ y ∈ later, x < y

/-- The layers of the whole model. -/
def allLayers (p : PipelinePartition) : List ℤ := (List.range p.totalLayers.toNat).map Int.ofNat

theorem pairwise_range' (start size : ℕ) :
    ((List.range' start size).map Int.ofNat).Pairwise (· < ·) := by
  rw [List.pairwise_map]
  exact List.Pairwise.imp (fun h => Int.ofNat_lt.mpr h) (List.pairwise_lt_range' 1)

theorem pairwise_allLayers (p : PipelinePartition) : p.allLayers.Pairwise (· < ·) := by
  rw [allLayers, List.range_eq_range']
  exact pairwise_range' 0 _

theorem inOrder_iff {p : PipelinePartition} (h : p.validate = .ok ()) :
    p.InOrder ↔ p.stageLayerRanges.flatten = p.allLayers := by
  have hPairwise : p.InOrder ↔ p.stageLayerRanges.flatten.Pairwise (· < ·) := by
    rw [List.pairwise_flatten]
    exact ⟨fun h => ⟨h.within, h.across⟩, fun h => ⟨h.1, h.2⟩⟩
  obtain ⟨-, -, -, -, hRange, hNodup, hCount⟩ := validate_eq_ok.mp h
  rw [hPairwise]
  constructor
  · intro hSorted
    have hSubset : p.stageLayerRanges.flatten ⊆ p.allLayers := by
      intro layer hLayer
      have hBounds := hRange layer hLayer
      refine List.mem_map.mpr ⟨layer.toNat, List.mem_range.mpr ?_, ?_⟩
      · omega
      · simp only [Int.ofNat_eq_natCast]
        omega
    have hLength : p.allLayers.length ≤ p.stageLayerRanges.flatten.length := by
      rw [allLayers, List.length_map, List.length_range]
      omega
    have hPerm := (hNodup.subperm hSubset).perm_of_length_le hLength
    exact hPerm.eq_of_pairwise (fun a b _ _ hab hba => absurd hab (lt_asymm hba)) hSorted
      (pairwise_allLayers p)
  · intro hAll
    rw [hAll]
    exact pairwise_allLayers p

end PipelinePartition

/-! ## Computing the whole model -/

section WholeModel

variable (lib : Library)

/-- What the last stage gives. -/
def finalActivations (job : PipelineInferenceJob) (call : ExecuteCall) : Option Bytes :=
  (runStages lib 0 (stagesOf job.partition call.stageRunners call.stageAttestations)
    call.prompt).map Prod.fst

/-- With runners that apply their layers, each call on a job with the partition applies all layers
in order, and the receipt of the completed round passes the check of the chain. -/
def ComputesWholeModel (p : PipelinePartition) : Prop :=
  ∀ (apply : ℤ → Bytes → Bytes) (r : Records) (job : PipelineInferenceJob) (call : ExecuteCall),
    runnable r call = some job → job.partition = p →
      (∀ runner ∈ call.stageRunners, AppliesLayers apply runner) →
        finalActivations lib job call =
            some (p.allLayers.foldl (fun a layer => apply layer a) call.prompt) ∧
          (finishedRound lib job call).status = .completed ∧
            ∃ receipt ∈ (finishedRound lib job call).receipt, verifyChain receipt = true

variable {lib} {apply : ℤ → Bytes → Bytes} {r : Records} {job : PipelineInferenceJob}
  {call : ExecuteCall}

variable (lib) in
theorem finishedRound_applies (h : runnable r call = some job)
    (hStages : job.partition.stageLayerRanges ≠ [])
    (hRunners : ∀ runner ∈ call.stageRunners, AppliesLayers apply runner) :
    finalActivations lib job call = some (job.partition.stageLayerRanges.flatten.foldl
        (fun a layer => apply layer a) call.prompt) ∧
      (finishedRound lib job call).status = .completed ∧
        ∃ receipt ∈ (finishedRound lib job call).receipt, verifyChain receipt = true := by
  obtain ⟨-, -, hCount, hSupplied⟩ := runnable_eq_some h
  obtain ⟨hLayers, hOwn⟩ := layers_stagesOf hCount hSupplied
  have hApplies : ∀ stage ∈ stagesOf job.partition call.stageRunners call.stageAttestations,
      AppliesLayers apply stage.runner := by
    intro stage hStage
    refine hRunners stage.runner ?_
    rw [← hOwn]
    exact List.mem_map_of_mem hStage
  obtain ⟨receipts, hRun⟩ := runStages_applies lib hApplies 0 call.prompt
  have hNonempty : stagesOf job.partition call.stageRunners call.stageAttestations ≠ [] := by
    intro hNone
    rw [hNone] at hLayers
    exact hStages hLayers.symm
  rw [List.flatMap_def, hLayers] at hRun
  refine ⟨?_, ?_, ?_⟩
  · rw [finalActivations, hRun]
    rfl
  · rw [finishedRound, hRun]
  · rw [finishedRound, hRun]
    exact ⟨_, rfl, verifyChain_receiptOf hNonempty job.partition hRun⟩

/-! ## A layer that counts -/

/-- It takes as many zeros as its number says to one more, and anything else to a mark that stays
as it is. -/
def countLayer (layer : ℤ) (activations : Bytes) : Bytes :=
  if activations = List.replicate activations.length 0 ∧ layer = activations.length then
    0 :: activations
  else [1]

theorem countLayer_replicate (k : ℕ) :
    countLayer k (List.replicate k 0) = List.replicate (k + 1) 0 := by
  rw [countLayer, if_pos (by simp), List.replicate_succ]

theorem countLayer_of_ne {layer : ℤ} {k : ℕ} (h : layer ≠ k) :
    countLayer layer (List.replicate k 0) = [1] := by
  rw [countLayer, if_neg]
  simp [h]

theorem foldl_mark (layers : List ℤ) :
    layers.foldl (fun a layer => countLayer layer a) [1] = [1] := by
  induction layers with
  | nil => rfl
  | cons layer rest ih =>
      have hMark : countLayer layer [1] = [1] := by
        rw [countLayer, if_neg]
        simp
      rw [List.foldl_cons, hMark, ih]

theorem eq_range'_of_foldl {layers : List ℤ} {k : ℕ}
    (h : layers.foldl (fun a layer => countLayer layer a) (List.replicate k 0) =
      List.replicate (k + layers.length) 0) :
    layers = (List.range' k layers.length).map Int.ofNat := by
  induction layers generalizing k with
  | nil => rfl
  | cons layer rest ih =>
      rw [List.foldl_cons] at h
      by_cases hNext : layer = k
      · rw [hNext, countLayer_replicate] at h
        rw [hNext, List.length_cons, List.range'_succ, List.map_cons,
          ← ih (by rw [h, List.length_cons]; congr 1; omega)]
        rfl
      · -- the mark is no row of zeros
        rw [countLayer_of_ne hNext, foldl_mark] at h
        have hMark := congrArg (fun bytes => (1 : Fin 256) ∈ bytes) h
        simp at hMark

theorem foldl_range' (n k : ℕ) :
    ((List.range' k n).map Int.ofNat).foldl (fun a layer => countLayer layer a)
      (List.replicate k 0) = List.replicate (k + n) 0 := by
  induction n generalizing k with
  | zero => rfl
  | succ n ih =>
      rw [List.range'_succ, List.map_cons, List.foldl_cons]
      have hNext : countLayer (Int.ofNat k) (List.replicate k 0) = List.replicate (k + 1) 0 :=
        countLayer_replicate k
      rw [hNext, ih]
      congr 1
      omega

/-! ## When the whole model is computed -/

def layerRunner (apply : ℤ → Bytes → Bytes) : StageRunner := fun activations _ layers =>
  some (layers.foldl (fun a layer => apply layer a) activations)

def proposedJob (p : PipelinePartition) : PipelineInferenceJob :=
  ⟨"job", "model", p, .proposed, zeroTime⟩

/-- A call on the job with layers that count, from no activations. -/
def countingCall (p : PipelinePartition) : ExecuteCall where
  jobId := "job"
  prompt := []
  stageRunners := List.replicate p.stageLayerRanges.length (layerRunner countLayer)
  stageAttestations := none
  roundId := "round"
  startedAt := zeroTime
  completedAt := zeroTime
  error := ""

theorem runnable_countingCall (p : PipelinePartition) :
    runnable (Records.empty.withJob (proposedJob p)) (countingCall p) = some (proposedJob p) := by
  simp [runnable, Records.withJob, countingCall, proposedJob]

theorem inOrder_of_computes {p : PipelinePartition} (hValid : p.validate = .ok ())
    (h : ComputesWholeModel lib p) : p.InOrder := by
  rw [PipelinePartition.inOrder_iff hValid]
  obtain ⟨hTotal, hStages, -, -, -, -, hCount⟩ := PipelinePartition.validate_eq_ok.mp hValid
  have hApplies : ∀ runner ∈ (countingCall p).stageRunners, AppliesLayers countLayer runner := by
    intro runner hRunner
    rw [List.eq_of_mem_replicate hRunner]
    exact fun _ _ _ => rfl
  have hRunnable := runnable_countingCall p
  have hOwn := (finishedRound_applies lib hRunnable hStages hApplies).1
  have hWhole := (h countLayer _ _ _ hRunnable rfl hApplies).1
  have hFold := Option.some.inj (hOwn.symm.trans hWhole)
  have hAll : p.allLayers = (List.range' 0 p.stageLayerRanges.flatten.length).map Int.ofNat := by
    rw [PipelinePartition.allLayers, List.range_eq_range', ← hCount, Int.toNat_natCast]
  rw [hAll]
  apply eq_range'_of_foldl
  rw [show (proposedJob p).partition = p from rfl, hAll] at hFold
  exact hFold.trans (foldl_range' _ 0)

theorem computes_of_inOrder {p : PipelinePartition} (hValid : p.validate = .ok ())
    (h : p.InOrder) : ComputesWholeModel lib p := by
  intro apply r job call hRunnable hPartition hRunners
  have hAll := (PipelinePartition.inOrder_iff hValid).mp h
  have hStages := (PipelinePartition.validate_eq_ok.mp hValid).2.1
  subst hPartition
  rw [← hAll]
  exact finishedRound_applies lib hRunnable hStages hRunners

end WholeModel

/-! ## Even partitions -/

namespace PipelinePartition

theorem flatten_evenRanges (base remainder n i cursor : ℕ) :
    (evenRanges base remainder n i cursor).flatten =
      (List.range' cursor (n * base + (min (i + n) remainder - min i remainder))).map
        Int.ofNat := by
  induction n generalizing i cursor with
  | zero => simp [evenRanges]
  | succ n ih =>
      rw [evenRanges]
      simp only [List.flatten_cons, ih]
      rw [← List.map_append, List.range'_append_1]
      congr 2
      rw [Nat.succ_mul]
      split_ifs <;> omega

theorem mem_evenRanges {base remainder n i cursor : ℕ} {layers : List ℤ}
    (h : layers ∈ evenRanges base remainder n i cursor) :
    ∃ start size, base ≤ size ∧ layers = (List.range' start size).map Int.ofNat := by
  induction n generalizing i cursor with
  | zero => cases h
  | succ n ih =>
      rw [evenRanges] at h
      rcases List.mem_cons.mp h with rfl | hRest
      · exact ⟨_, _, Nat.le_add_right _ _, rfl⟩
      · exact ih hRest

theorem length_evenRanges (base remainder n i cursor : ℕ) :
    (evenRanges base remainder n i cursor).length = n := by
  induction n generalizing i cursor with
  | zero => rfl
  | succ n ih => simp [evenRanges, ih]

theorem consecutive_range' (start size : ℕ) :
    consecutive ((List.range' start size).map Int.ofNat) = true := by
  induction size generalizing start with
  | zero => rfl
  | succ size ih =>
      cases size with
      | zero => rfl
      | succ size =>
          have hRest := ih (start + 1)
          rw [List.range'_succ, List.map_cons] at hRest
          rw [List.range'_succ, List.map_cons, List.range'_succ, List.map_cons, consecutive, hRest]
          simp

theorem validate_even {totalLayers : ℤ} {nodeIds : List String} {p : PipelinePartition}
    (h : evenLayerPartition totalLayers nodeIds = some p) : p.validate = .ok () ∧ p.InOrder := by
  unfold evenLayerPartition at h
  split_ifs at h with hTotal hNone hMany
  obtain rfl := Option.some.inj h
  have hPositive : 0 < nodeIds.length := Nat.pos_of_ne_zero hNone
  have hBase : 1 ≤ totalLayers.toNat / nodeIds.length := by
    rw [Nat.one_le_div_iff hPositive]
    omega
  have hRemainder := Nat.mod_lt totalLayers.toNat hPositive
  have hSplit := Nat.div_add_mod totalLayers.toNat nodeIds.length
  generalize hParts : evenRanges (totalLayers.toNat / nodeIds.length)
    (totalLayers.toNat % nodeIds.length) nodeIds.length 0 0 = ranges
  have hAll : ranges.flatten = (List.range totalLayers.toNat).map Int.ofNat := by
    rw [← hParts, flatten_evenRanges, List.range_eq_range']
    congr 2
    omega
  have hValid : (PipelinePartition.mk totalLayers ranges nodeIds).validate = .ok () := by
    have hLayers : 1 ≤ totalLayers := by omega
    refine validate_eq_ok.mpr ⟨hLayers, ?_, ?_, ?_, ?_, ?_, ?_⟩
    · rintro rfl
      have hLength := length_evenRanges (totalLayers.toNat / nodeIds.length)
        (totalLayers.toNat % nodeIds.length) nodeIds.length 0 0
      rw [hParts] at hLength
      exact hNone hLength.symm
    · rw [← hParts, length_evenRanges]
    · intro layers hLayers
      rw [← hParts] at hLayers
      obtain ⟨start, size, hSize, rfl⟩ := mem_evenRanges hLayers
      constructor
      · intro hEmpty
        have hLength := congrArg List.length hEmpty
        simp at hLength
        omega
      · rw [((pairwise_range' start size).imp le_of_lt).insertionSort_eq]
        exact consecutive_range' start size
    · intro layer hLayer
      rw [hAll] at hLayer
      obtain ⟨i, hi, rfl⟩ := List.mem_map.mp hLayer
      have hBelow := List.mem_range.mp hi
      show 0 ≤ (i : ℤ) ∧ (i : ℤ) < totalLayers
      omega
    · rw [hAll]
      exact List.nodup_range.map Int.ofNat_injective
    · rw [hAll, List.length_map, List.length_range]
      exact Int.toNat_of_nonneg (by omega)
  exact ⟨hValid, (inOrder_iff hValid).mpr hAll⟩

end PipelinePartition

/-- A validated partition computes the whole model exactly when its layers are in order, as those
of an even partition are. -/
theorem computesWholeModel_iff (lib : Library) :
    (∀ p : PipelinePartition, p.validate = .ok () → (ComputesWholeModel lib p ↔ p.InOrder)) ∧
      ∀ totalLayers nodeIds p, evenLayerPartition totalLayers nodeIds = some p →
        p.validate = .ok () ∧ ComputesWholeModel lib p := by
  constructor
  · intro p hValid
    exact ⟨inOrder_of_computes hValid, computes_of_inOrder hValid⟩
  · intro totalLayers nodeIds p h
    obtain ⟨hValid, hOrder⟩ := PipelinePartition.validate_even h
    exact ⟨hValid, computes_of_inOrder hValid hOrder⟩

section Sample

def sampleLibrary : Library where
  sha := Storage.Sha256.ofTable []
  sign := fun _ => "sig"

def evenFive : PipelinePartition := ⟨5, [[0, 1, 2], [3, 4]], ["a", "b"]⟩

theorem computes_evenFive :
    evenFive.validate = .ok () ∧ ComputesWholeModel sampleLibrary evenFive :=
  (computesWholeModel_iff sampleLibrary).2 5 ["a", "b"] evenFive (by decide)

def swapped : PipelinePartition := ⟨2, [[1], [0]], ["a", "b"]⟩

theorem swapped_not_computed :
    swapped.validate = .ok () ∧ ¬ ComputesWholeModel sampleLibrary swapped := by
  have hValid : swapped.validate = .ok () := by decide
  refine ⟨hValid, fun h => ?_⟩
  have hAll := (PipelinePartition.inOrder_iff hValid).mp (inOrder_of_computes hValid h)
  exact absurd hAll (by decide)

end Sample

end Prsm.Pipeline
