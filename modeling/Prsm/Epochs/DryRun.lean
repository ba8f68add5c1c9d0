import Prsm.Epochs.ExactlyOnce

/-!
# Dry runs

A dry run writes no manifest and publishes nothing.  It changes the watermark all the same
where it recovers: the batches of a manifest whose epoch is published are adopted before the
flag is looked at, in memory and in the file.
-/

namespace Prsm.Epochs

open Foundations Evm Settlement

variable (lc : LowerCase) (codec : AddressCodec) (keccak256 : Keccak)

/-- `run_epoch` with `dry_run=True`, when no other call is running.  Where the process has
no watermark yet and the file is not one, `load` raises. -/
def Runner.dryRun (s : Runner) (malformedFile : Bool) (args : RunArgs) (available : Int)
    (readable saved : Bool) : Option Runner :=
  if s.memory = none ∧ malformedFile = true then some s
  else
    runnerStep lc codec keccak256 s
      (.runEpoch { args with dryRun := true } available readable saved)

/-- Nothing but the watermark's loading has happened: the stores are what they were, a
watermark in memory is kept, and one that is there afterwards is the one of the file. -/
structure Runner.Untouched (s s' : Runner) : Prop where
  disk : s'.disk = s.disk
  manifests : s'.manifests = s.manifests
  chain : s'.chain = s.chain
  call : s'.call = s.call
  kept : ∀ w, s.memory = some w → s'.memory = some w
  loaded : ∀ w, s'.memory = some w → w = s.watermark lc

variable {lc codec keccak256} {s : Runner} {args : RunArgs} {manifestDir : Option String}
  {available : Int} {readable saved : Bool}

theorem dryRun_eq (hIdle : s.call = .idle) {malformedFile : Bool}
    (hLoads : ¬ (s.memory = none ∧ malformedFile = true)) :
    s.dryRun lc codec keccak256 malformedFile args available readable saved =
      some (s.recover lc args.manifestDir readable saved).1 := by
  rw [Runner.dryRun, if_neg hLoads]
  simp only [runnerStep, hIdle]
  obtain ⟨s', outcome⟩ := s.recover lc args.manifestDir readable saved
  cases outcome with
  | error _ => rfl
  | ok w =>
      dsimp only
      cases Runner.planEpoch lc codec keccak256 w { args with dryRun := true } available <;> rfl

theorem untouched_loaded (s : Runner) :
    s.Untouched lc { s with memory := some (s.watermark lc) } where
  disk := rfl
  manifests := rfl
  chain := rfl
  call := rfl
  kept w hw := by
    show some ((s.memory).getD _) = some w
    rw [hw, Option.getD_some]
  loaded w hw := (Option.some.inj hw).symm

theorem recover_of_adopted_none (h : s.adopted lc manifestDir readable = none) :
    (s.recover lc manifestDir readable saved).1 =
      { s with memory := some (s.watermark lc) } := by
  unfold Runner.recover
  split
  · rfl
  split
  · rfl
  · rw [h]

theorem recover_of_adopted_some {prior : List String}
    (h : s.adopted lc manifestDir readable = some prior) :
    ∃ w, (s.recover lc manifestDir readable saved).1.memory = some w ∧
      w.lastEpochId = some (s.watermark lc).nextEpochId := by
  have hFound : ¬ ((s.watermark lc).lastEpochId = none ∨
      s.chain.epochExists (s.watermark lc).nextEpochId = false) := by
    intro hAbsent
    rw [Runner.adopted, if_pos hAbsent] at h
    cases h
  obtain ⟨hLast, hExists⟩ := not_or.mp hFound
  rw [Runner.recover, if_neg hExists, if_neg hLast, h]
  obtain ⟨last, hLast⟩ := Option.ne_none_iff_exists'.mp hLast
  have hNext : (s.watermark lc).nextEpochId = last + 1 := by
    rw [EpochWatermark.nextEpochId, hLast]
  have hBehind : (s.watermark lc).lastEpochId.any ((s.watermark lc).nextEpochId ≤ ·) = false := by
    rw [hLast, hNext]
    simp
  have hReconciled : ∃ w, (s.watermark lc).reconcileFromChain lc (s.watermark lc).nextEpochId
      prior true = some w ∧ w.lastEpochId = some (s.watermark lc).nextEpochId := by
    rw [EpochWatermark.reconcileFromChain, if_neg (by simp [hBehind]),
      EpochWatermark.commitEpoch, if_neg (by simp [hBehind])]
    exact ⟨_, rfl, rfl⟩
  obtain ⟨w, hReconciled, hMoved⟩ := hReconciled
  refine ⟨w, ?_, hMoved⟩
  simp only [Runner.adopt, hReconciled]
  split
  · rfl
  split <;> rfl

/-- A dry run leaves everything as it is exactly if it cannot load the watermark or has no
published epoch to adopt from a manifest. -/
theorem dryRun_untouched_iff (lc : LowerCase) (codec : AddressCodec) (keccak256 : Keccak)
    (s : Runner) (malformedFile : Bool) (args : RunArgs) (available : Int)
    (readable saved : Bool) (hIdle : s.call = .idle) :
    (∃ s', s.dryRun lc codec keccak256 malformedFile args available readable saved = some s' ∧
      s.Untouched lc s') ↔
      s.memory = none ∧ malformedFile = true ∨
        s.adopted lc args.manifestDir readable = none := by
  by_cases hLoads : s.memory = none ∧ malformedFile = true
  · refine iff_of_true ⟨s, if_pos hLoads, rfl, rfl, rfl, rfl, fun _ h => h, ?_⟩ (Or.inl hLoads)
    intro w hw
    rw [hLoads.1] at hw
    cases hw
  · rw [dryRun_eq hIdle hLoads, or_iff_right hLoads]
    simp only [Option.some.injEq, exists_eq_left']
    cases hAdopted : s.adopted lc args.manifestDir readable with
    | none =>
        rw [recover_of_adopted_none hAdopted]
        exact iff_of_true (untouched_loaded s) rfl
    | some prior =>
        refine iff_of_false (fun hSame => ?_) (Option.some_ne_none _)
        obtain ⟨w, hMemory, hMoved⟩ := @recover_of_adopted_some lc s args.manifestDir readable
          saved prior hAdopted
        -- the watermark has moved on by one epoch
        rw [hSame.loaded w hMemory] at hMoved
        have hNext : (s.watermark lc).nextEpochId = (s.watermark lc).nextEpochId + 1 := by
          conv_lhs => rw [EpochWatermark.nextEpochId, hMoved]
        omega

def behindByOne : Runner where
  memory := some ⟨["0xb1"], some 1⟩
  disk := some ⟨["0xb1"], some 1⟩
  manifests := Dict.ofEntries
    [(("/epochs", 2), ⟨⟨2, 40, [], ["0xb2"], [], ∅⟩, ⟨2, 0, 40, [], [], []⟩⟩)]
  call := .idle
  chain := ⟨[], [⟨2, 0, 40, ⟨2, 40, [], ["0xb2"], [], ∅⟩⟩]⟩

/-- The dry run records the second batch and epoch 2, in the file too. -/
theorem dryRun_adopts :
    behindByOne.call = .idle ∧
      ¬ ∃ s', behindByOne.dryRun asciiLowerCase hexCodec polynomialHash false (runArgs []) 0 true
        true = some s' ∧ behindByOne.Untouched asciiLowerCase s' := by
  refine ⟨rfl, ?_⟩
  rintro ⟨s', hRun, hSame⟩
  have hDisk : (behindByOne.dryRun asciiLowerCase hexCodec polynomialHash false (runArgs []) 0
      true true).map Runner.disk = some (some ⟨["0xb1", "0xb2"], some 2⟩) := by decide +kernel
  rw [hRun, Option.map_some, hSame.disk] at hDisk
  cases Option.some.inj hDisk

theorem dryRun_untouched_fresh :
    ∃ s', Runner.fresh.dryRun asciiLowerCase hexCodec polynomialHash false (runArgs [firstBatch])
      100 true true = some s' ∧ Runner.fresh.Untouched asciiLowerCase s' :=
  (dryRun_untouched_iff asciiLowerCase hexCodec polynomialHash .fresh false (runArgs [firstBatch])
    100 true true rfl).mpr (Or.inr (by decide +kernel))

end Prsm.Epochs
