import Prsm.Foundations.Machine
import Prsm.Pipeline.Orchestrator

/-!
# Pipeline jobs are one-shot

Runs of an orchestrator on its directory, with crashes between any two of its writes.  `execute`
refuses a job that is completed, but it does not look at the job's round; where the completed round
was written and the job was not, the job is run once more and its receipt replaced.
-/

namespace Prsm.Pipeline

open Foundations

/-- The records in memory and in the directory, and the receipts of completed rounds so far. -/
structure World where
  memory : Records
  disk : Records
  produced : List (String × PipelineInferenceReceipt)

def World.empty : World := ⟨Records.empty, Records.empty, []⟩

/-- A new process on the directory. -/
def World.restarted (w : World) : World := { w with memory := w.disk }

def World.writeJob (w : World) (job : PipelineInferenceJob) : World :=
  { w with memory := w.memory.withJob job, disk := w.disk.withJob job }

def World.writeRound (w : World) (round : PipelineInferenceRound) : World :=
  { w with memory := w.memory.withRound round, disk := w.disk.withRound round }

/-- Where a call of `execute` is cut off by a crash: after the write of the running round, or after
that of the round when the stages have run. -/
inductive Crash
  | afterStart
  | afterRound
  deriving DecidableEq

/-- A crash is followed by a restart. -/
inductive Input
  | propose (jobId modelId : String) (partition : PipelinePartition) (createdAt : PyFloat)
      (crash : Bool)
  | execute (call : ExecuteCall) (crash : Option Crash)
  | restart

section Steps

variable (lib : Library)

/-- `propose_job`, cut off before its write where there is a crash. -/
def proposed (w : World) (job : PipelineInferenceJob) (crash : Bool) : World :=
  if crash then w.restarted else w.writeJob job

/-- What follows the write of the running round. -/
def ended (w : World) (job : PipelineInferenceJob) (call : ExecuteCall) (crash : Bool) : World :=
  let round := finishedRound lib job call
  let written := w.writeRound round
  match round.receipt with
  | none => if crash then written.restarted else written
  | some receipt =>
      let produced := { written with produced := w.produced ++ [(call.jobId, receipt)] }
      if crash then produced.restarted else produced.writeJob { job with status := .completed }

def executed (w : World) (job : PipelineInferenceJob) (call : ExecuteCall) :
    Option Crash → World
  | some .afterStart => (w.writeRound (startedRound call)).restarted
  | some .afterRound => ended lib (w.writeRound (startedRound call)) job call true
  | none => ended lib (w.writeRound (startedRound call)) job call false

def step (w : World) : Input → Option World
  | .propose jobId modelId partition createdAt crash =>
      if partition.validate = .ok () then
        some (proposed w ⟨jobId, modelId, partition, .proposed, createdAt⟩ crash)
      else none
  | .execute call crash => (runnable w.memory call).map fun job => executed lib w job call crash
  | .restart => some w.restarted

def machine : Machine World Input := ⟨step lib⟩

end Steps

/-! ## What is claimed -/

/-- A completed round with the receipt. -/
def HasReceipt (r : Records) (jobId : String) (receipt : PipelineInferenceReceipt) : Prop :=
  ∃ round ∈ r.rounds jobId, round.status = .completed ∧ round.receipt = some receipt

/-- Each job has one receipt at most, and what was produced is still there. -/
structure OneShot (w : World) : Prop where
  once : (w.produced.map Prod.fst).Nodup
  kept : ∀ x ∈ w.produced, HasReceipt w.memory x.1 x.2 ∧ HasReceipt w.disk x.1 x.2

/-- A call that is accepted is on a job without a completed round. -/
def Unfinished (w : World) : Input → Prop
  | .execute call _ => ∀ round ∈ w.memory.rounds call.jobId, round.status ≠ .completed
  | _ => True

/-- The id of a proposed job is new. -/
def Fresh (w : World) : Input → Prop
  | .propose jobId _ _ _ _ => w.memory.jobs jobId = none ∧ w.memory.rounds jobId = none
  | _ => True

def Input.cutAfterRound : Input → Bool
  | .execute _ crash => crash = some .afterRound
  | _ => false

/-- Memory and directory agree, and completed rounds are those that were produced. -/
structure Consistent (w : World) : Prop where
  same : w.memory = w.disk
  produced : ∀ jobId, ∀ round ∈ w.memory.rounds jobId, round.status = .completed →
    ∃ receipt, round.receipt = some receipt ∧ (jobId, receipt) ∈ w.produced

section StepSpecs

variable {lib : Library} {w : World} {job : PipelineInferenceJob} {call : ExecuteCall}

theorem restarted_eq (h : w.memory = w.disk) : w.restarted = w := by
  obtain ⟨memory, disk, produced⟩ := w
  obtain rfl : memory = disk := h
  rfl

theorem finishedRound_cases (lib : Library) (job : PipelineInferenceJob) (call : ExecuteCall) :
    (finishedRound lib job call).jobId = call.jobId ∧
      ((∃ receipt, (finishedRound lib job call).status = .completed ∧
          (finishedRound lib job call).receipt = some receipt) ∨
        (finishedRound lib job call).status ≠ .completed ∧
          (finishedRound lib job call).receipt = none) := by
  unfold finishedRound
  cases runStages lib 0 (stagesOf job.partition call.stageRunners call.stageAttestations)
      call.prompt with
  | none => exact ⟨rfl, Or.inr ⟨by simp, rfl⟩⟩
  | some result => exact ⟨rfl, Or.inl ⟨_, rfl, rfl⟩⟩

/-- What a call leaves: its round for the job, the rounds of other jobs, and its receipt among
those produced where the round is completed.  The job is completed with it, unless a crash came
between. -/
structure Left (w w' : World) (job : PipelineInferenceJob) (call : ExecuteCall)
    (crash : Option Crash) (round : PipelineInferenceRound) : Prop where
  same : w'.memory = w'.disk
  rounds : w'.memory.rounds = Function.update w.memory.rounds call.jobId (some round)
  produced : (round.status ≠ .completed ∧ w'.produced = w.produced ∧
      w'.memory.jobs = w.memory.jobs) ∨
    ∃ receipt, round.status = .completed ∧ round.receipt = some receipt ∧
      w'.produced = w.produced ++ [(call.jobId, receipt)] ∧
        (crash = some .afterRound ∨ w'.memory.jobs =
          Function.update w.memory.jobs job.jobId (some { job with status := .completed }))

theorem writeRound_same (hSame : w.memory = w.disk) (round : PipelineInferenceRound) :
    (w.writeRound round).memory = (w.writeRound round).disk := by
  rw [World.writeRound, hSame]

theorem rounds_finished (lib : Library) (w : World) (job : PipelineInferenceJob)
    (call : ExecuteCall) : (w.writeRound (finishedRound lib job call)).memory.rounds =
      Function.update w.memory.rounds call.jobId (some (finishedRound lib job call)) := by
  rw [← (finishedRound_cases lib job call).1]
  rfl

theorem ended_spec (hSame : w.memory = w.disk) (job : PipelineInferenceJob)
    (call : ExecuteCall) (crash : Option Crash) :
    Left w (ended lib w job call (crash = some .afterRound)) job call crash
      (finishedRound lib job call) := by
  have hWritten := writeRound_same hSame (finishedRound lib job call)
  have hRounds := rounds_finished lib w job call
  unfold ended
  obtain ⟨-, ⟨receipt, hStatus, hReceipt⟩ | ⟨hStatus, hReceipt⟩⟩ :=
    finishedRound_cases lib job call
  · simp only [hReceipt]
    by_cases hCrash : crash = some .afterRound
    · simp only [hCrash, decide_true, if_true]
      refine ⟨rfl, ?_, Or.inr ⟨receipt, hStatus, hReceipt, rfl, Or.inl rfl⟩⟩
      show (w.writeRound (finishedRound lib job call)).disk.rounds = _
      rw [← hWritten, hRounds]
    · simp only [hCrash, decide_false]
      refine ⟨?_, hRounds, Or.inr ⟨receipt, hStatus, hReceipt, rfl, Or.inr rfl⟩⟩
      show Records.withJob _ _ = Records.withJob _ _
      rw [hWritten]
  · simp only [hReceipt, restarted_eq hWritten, ite_self]
    exact ⟨hWritten, hRounds, Or.inl ⟨hStatus, rfl, rfl⟩⟩

theorem executed_spec (hSame : w.memory = w.disk) (job : PipelineInferenceJob)
    (call : ExecuteCall) (crash : Option Crash) :
    ∃ round, Left w (executed lib w job call crash) job call crash round := by
  have hStarted := writeRound_same hSame (startedRound call)
  by_cases hCut : crash = some .afterStart
  · refine ⟨startedRound call, ?_⟩
    rw [hCut, executed, restarted_eq hStarted]
    exact ⟨hStarted, rfl, Or.inl ⟨by simp [startedRound], rfl, rfl⟩⟩
  · have hEnded : executed lib w job call crash =
        ended lib (w.writeRound (startedRound call)) job call (crash = some .afterRound) := by
      cases crash with
      | none => rfl
      | some cut =>
          cases cut with
          | afterStart => exact absurd rfl hCut
          | afterRound => rfl
    have hLeft : Left (w.writeRound (startedRound call)) (executed lib w job call crash) job call
        crash (finishedRound lib job call) := by
      rw [hEnded]
      exact ended_spec hStarted job call crash
    refine ⟨finishedRound lib job call, hLeft.same, ?_, hLeft.produced⟩
    rw [hLeft.rounds]
    exact Function.update_idem _ _ _

end StepSpecs

section OneStep

variable {lib : Library} {w w' : World} {i : Input}

theorem step_cases (hSame : w.memory = w.disk) (h : step lib w i = some w') :
    (w'.memory = w'.disk ∧ w'.memory.rounds = w.memory.rounds ∧ w'.produced = w.produced ∧
      Unfinished w i) ∨
    ∃ call crash job round, i = .execute call crash ∧ runnable w.memory call = some job ∧
      Left w w' job call crash round := by
  cases i with
  | propose jobId modelId partition createdAt crash =>
      left
      simp only [step] at h
      split_ifs at h with hValid
      obtain rfl := Option.some.inj h
      unfold proposed
      split_ifs with hCrash
      · rw [restarted_eq hSame]
        exact ⟨hSame, rfl, rfl, trivial⟩
      · refine ⟨?_, rfl, rfl, trivial⟩
        show Records.withJob _ _ = Records.withJob _ _
        rw [hSame]
  | execute call crash =>
      right
      obtain ⟨job, hRunnable, rfl⟩ := Option.map_eq_some_iff.mp h
      obtain ⟨round, hLeft⟩ := executed_spec hSame job call crash
      exact ⟨call, crash, job, round, rfl, hRunnable, hLeft⟩
  | restart =>
      left
      obtain rfl := Option.some.inj h
      rw [restarted_eq hSame]
      exact ⟨hSame, rfl, rfl, trivial⟩

theorem consistent_step (hw : Consistent w) (h : step lib w i = some w') : Consistent w' := by
  rcases step_cases hw.same h with ⟨hSame, hRounds, hProduced, -⟩ |
    ⟨call, crash, job, round, -, -, hLeft⟩
  · refine ⟨hSame, ?_⟩
    rw [hRounds, hProduced]
    exact hw.produced
  · refine ⟨hLeft.same, ?_⟩
    intro jobId stored hStored hCompleted
    rw [hLeft.rounds] at hStored
    by_cases hJob : jobId = call.jobId
    · rw [hJob, Function.update_self] at hStored
      obtain rfl := Option.some.inj hStored
      rcases hLeft.produced with ⟨hOther, -⟩ | ⟨receipt, -, hReceipt, hProduced, -⟩
      · exact absurd hCompleted hOther
      · exact ⟨receipt, hReceipt, by rw [hProduced, hJob]; simp⟩
    · rw [Function.update_of_ne hJob] at hStored
      obtain ⟨receipt, hReceipt, hMem⟩ := hw.produced jobId stored hStored hCompleted
      refine ⟨receipt, hReceipt, ?_⟩
      rcases hLeft.produced with ⟨-, hProduced, -⟩ | ⟨_, -, -, hProduced, -⟩
      · rw [hProduced]
        exact hMem
      · rw [hProduced]
        exact List.mem_append_left _ hMem

theorem oneShot_step_iff (hw : Consistent w) (hShot : OneShot w) (h : step lib w i = some w') :
    OneShot w' ↔ Unfinished w i := by
  rcases step_cases hw.same h with ⟨hSame, hRounds, hProduced, hUnfinished⟩ |
    ⟨call, crash, job, round, rfl, -, hLeft⟩
  · refine ⟨fun _ => hUnfinished, fun _ => ?_⟩
    refine ⟨by rw [hProduced]; exact hShot.once, ?_⟩
    intro x hx
    rw [hProduced] at hx
    have hKept := (hShot.kept x hx).1
    unfold HasReceipt
    rw [← hSame, hRounds]
    exact ⟨hKept, hKept⟩
  · have hRound : w'.memory.rounds call.jobId = some round := by
      rw [hLeft.rounds, Function.update_self]
    constructor
    · intro hShot' stored hStored hCompleted
      obtain ⟨receipt, -, hMem⟩ := hw.produced call.jobId stored hStored hCompleted
      rcases hLeft.produced with ⟨hStatus, hProduced, -⟩ | ⟨_, -, -, hProduced, -⟩
      · -- the round is written over with one that is not completed
        rw [← hProduced] at hMem
        obtain ⟨left, hLeftMem, hDone, -⟩ := (hShot'.kept _ hMem).1
        obtain rfl := Option.some.inj (hRound.symm.trans hLeftMem)
        exact hStatus hDone
      · -- the job has two receipts
        have hOnce := hShot'.once
        rw [hProduced, List.map_append, List.nodup_append'] at hOnce
        exact hOnce.2.2 (List.mem_map_of_mem hMem) (by simp)
    · intro hUnfinished
      have hNew : ∀ x ∈ w.produced, x.1 ≠ call.jobId := by
        intro x hx hJob
        obtain ⟨stored, hStored, hDone, -⟩ := (hShot.kept x hx).1
        rw [hJob] at hStored
        exact hUnfinished stored hStored hDone
      have hKept : ∀ x ∈ w.produced, HasReceipt w'.memory x.1 x.2 := by
        intro x hx
        obtain ⟨stored, hStored, hDone, hReceipt⟩ := (hShot.kept x hx).1
        refine ⟨stored, ?_, hDone, hReceipt⟩
        rw [hLeft.rounds, Function.update_of_ne (hNew x hx)]
        exact hStored
      have hBoth : ∀ x ∈ w'.produced, HasReceipt w'.memory x.1 x.2 := by
        rcases hLeft.produced with ⟨-, hProduced, -⟩ | ⟨receipt, hDone, hReceipt, hProduced, -⟩
        · rw [hProduced]
          exact hKept
        · rw [hProduced]
          intro x hx
          rcases List.mem_append.mp hx with hOld | hLast
          · exact hKept x hOld
          · obtain rfl := List.mem_singleton.mp hLast
            exact ⟨round, hRound, hDone, hReceipt⟩
      refine ⟨?_, fun x hx => ⟨hBoth x hx, hLeft.same ▸ hBoth x hx⟩⟩
      rcases hLeft.produced with ⟨-, hProduced, -⟩ | ⟨receipt, -, -, hProduced, -⟩
      · rw [hProduced]
        exact hShot.once
      · rw [hProduced, List.map_append, List.nodup_append']
        refine ⟨hShot.once, List.nodup_singleton _, ?_⟩
        intro jobId hMem hLast
        obtain ⟨x, hx, rfl⟩ := List.mem_map.mp hMem
        exact hNew x hx (by simpa using hLast)

/-! ## Without a crash between the two writes -/

/-- The jobs are under their ids, and those with a completed round are completed. -/
structure Settled (w : World) : Prop where
  consistent : Consistent w
  keyed : ∀ jobId, ∀ job ∈ w.memory.jobs jobId, job.jobId = jobId
  completed : ∀ jobId, ∀ round ∈ w.memory.rounds jobId, round.status = .completed →
    ∃ job ∈ w.memory.jobs jobId, job.status = .completed

theorem unfinished_of_settled (hw : Settled w) (h : (step lib w i).isSome = true) :
    Unfinished w i := by
  cases i with
  | execute call crash =>
      intro round hRound hCompleted
      obtain ⟨job, hJob, hDone⟩ := hw.completed call.jobId round hRound hCompleted
      have hRefused : runnable w.memory call = none := by
        unfold runnable
        rw [show w.memory.jobs call.jobId = some job from hJob]
        exact if_pos hDone
      simp [step, hRefused] at h
  | _ => trivial

theorem settled_propose (hw : Settled w) {job : PipelineInferenceJob}
    (hFresh : w.memory.rounds job.jobId = none) (hConsistent : Consistent (w.writeJob job)) :
    Settled (w.writeJob job) := by
  have hJobs : (w.writeJob job).memory.jobs =
      Function.update w.memory.jobs job.jobId (some job) := rfl
  refine ⟨hConsistent, ?_, ?_⟩
  · intro jobId known hKnown
    rw [hJobs] at hKnown
    by_cases hJob : jobId = job.jobId
    · rw [hJob, Function.update_self] at hKnown
      obtain rfl := Option.some.inj hKnown
      exact hJob.symm
    · rw [Function.update_of_ne hJob] at hKnown
      exact hw.keyed jobId known hKnown
  · intro jobId round hRound hCompleted
    have hStored : w.memory.rounds jobId = some round := hRound
    have hJob : jobId ≠ job.jobId := by
      rintro rfl
      rw [hFresh] at hStored
      cases hStored
    obtain ⟨known, hKnown, hDone⟩ := hw.completed jobId round hStored hCompleted
    exact ⟨known, by rw [hJobs, Function.update_of_ne hJob]; exact hKnown, hDone⟩

theorem settled_left (hw : Settled w) {job : PipelineInferenceJob} {call : ExecuteCall}
    {crash : Option Crash} {round : PipelineInferenceRound}
    (hRunnable : runnable w.memory call = some job) (hCrash : crash ≠ some .afterRound)
    (hConsistent : Consistent w') (hLeft : Left w w' job call crash round) : Settled w' := by
  have hKnown := (runnable_eq_some hRunnable).1
  have hJobId := hw.keyed call.jobId job hKnown
  have hOther : ∀ jobId, jobId ≠ call.jobId → w'.memory.jobs jobId = w.memory.jobs jobId := by
    intro jobId hJob
    rcases hLeft.produced with ⟨-, -, hJobs⟩ | ⟨_, -, -, -, hCut | hJobs⟩
    · rw [hJobs]
    · exact absurd hCut hCrash
    · rw [hJobs, Function.update_of_ne (hJobId ▸ hJob)]
  refine ⟨hConsistent, ?_, ?_⟩
  · intro jobId known hMem
    by_cases hJob : jobId = call.jobId
    · rcases hLeft.produced with ⟨-, -, hJobs⟩ | ⟨_, -, -, -, hCut | hJobs⟩
      · rw [hJobs] at hMem
        exact hw.keyed jobId known hMem
      · exact absurd hCut hCrash
      · rw [hJobs, hJob, ← hJobId, Function.update_self] at hMem
        obtain rfl := Option.some.inj hMem
        rw [hJob, ← hJobId]
    · rw [hOther jobId hJob] at hMem
      exact hw.keyed jobId known hMem
  · intro jobId stored hStored hCompleted
    rw [hLeft.rounds] at hStored
    by_cases hJob : jobId = call.jobId
    · rw [hJob, Function.update_self] at hStored
      obtain rfl := Option.some.inj hStored
      rcases hLeft.produced with ⟨hStatus, -, -⟩ | ⟨_, -, -, -, hCut | hJobs⟩
      · exact absurd hCompleted hStatus
      · exact absurd hCut hCrash
      · exact ⟨_, by rw [hJobs, hJob, ← hJobId, Function.update_self]; rfl, rfl⟩
    · rw [Function.update_of_ne hJob] at hStored
      rw [hOther jobId hJob]
      exact hw.completed jobId stored hStored hCompleted

theorem settled_step (hw : Settled w) (hFresh : Fresh w i) (hCut : i.cutAfterRound = false)
    (h : step lib w i = some w') : Settled w' := by
  have hConsistent := consistent_step hw.consistent h
  cases i with
  | propose jobId modelId partition createdAt crash =>
      simp only [step] at h
      split_ifs at h with hValid
      obtain rfl := Option.some.inj h
      unfold proposed at hConsistent ⊢
      split_ifs at hConsistent ⊢ with hCrash
      · rw [restarted_eq hw.consistent.same]
        exact hw
      · exact settled_propose hw hFresh.2 hConsistent
  | execute call crash =>
      obtain ⟨job, hRunnable, rfl⟩ := Option.map_eq_some_iff.mp h
      obtain ⟨round, hLeft⟩ := executed_spec hw.consistent.same job call crash
      exact settled_left hw hRunnable (by simpa [Input.cutAfterRound] using hCut) hConsistent hLeft
  | restart =>
      obtain rfl := Option.some.inj h
      rw [restarted_eq hw.consistent.same]
      exact hw

end OneStep

section Runs

theorem consistent_empty : Consistent World.empty where
  same := rfl
  produced := by
    intro jobId round hRound
    cases hRound

theorem oneShot_empty : OneShot World.empty where
  once := List.nodup_nil
  kept := by simp [World.empty]

theorem settled_empty : Settled World.empty where
  consistent := consistent_empty
  keyed := by
    intro jobId job hJob
    cases hJob
  completed := by
    intro jobId round hRound
    cases hRound

theorem everyState_oneShot_iff (lib : Library) (is : List Input) :
    (machine lib).EveryState OneShot World.empty is ↔
      (machine lib).EveryStep Unfinished World.empty is :=
  (machine lib).everyState_iff_everyStep Consistent OneShot Unfinished
    (fun _ _ _ hw h => consistent_step hw h) (fun _ _ _ hw hShot h => oneShot_step_iff hw hShot h)
    consistent_empty oneShot_empty is

theorem everyState_of_uncut (lib : Library) {is : List Input}
    (hFresh : (machine lib).EveryStep Fresh World.empty is)
    (hCut : ∀ i ∈ is, i.cutAfterRound = false) :
    (machine lib).EveryState OneShot World.empty is := by
  have hSteps := hFresh.and ((machine lib).everyStep_mem World.empty is)
  have hBoth := (machine lib).everyState_of_everyStep (fun w => Settled w ∧ OneShot w)
    (fun w i => Fresh w i ∧ i ∈ is) ?_ ⟨settled_empty, oneShot_empty⟩ hSteps
  · exact fun visited hVisited => (hBoth visited hVisited).2
  · rintro w i w' ⟨hw, hShot⟩ ⟨hNew, hi⟩ h
    have hAccepted : (step lib w i).isSome = true := by
      rw [show step lib w i = some w' from h]
      rfl
    exact ⟨settled_step hw hNew (hCut i hi) h,
      (oneShot_step_iff hw.consistent hShot h).mpr (unfinished_of_settled hw hAccepted)⟩

/-- In every state of a run each job has one receipt at most, which stays, exactly where no call
is accepted for a job with a completed round; and so it is where no crash comes between the write
of a completed round and that of its job. -/
theorem oneShot_run_iff (lib : Library) (is : List Input) :
    ((machine lib).EveryState OneShot World.empty is ↔
      (machine lib).EveryStep Unfinished World.empty is) ∧
    ((machine lib).EveryStep Fresh World.empty is → (∀ i ∈ is, i.cutAfterRound = false) →
      (machine lib).EveryState OneShot World.empty is) :=
  ⟨everyState_oneShot_iff lib is, everyState_of_uncut lib⟩

end Runs

/-! ## A job that is run twice -/

section Sample

def oneStage : PipelinePartition := ⟨1, [[0]], ["n"]⟩

def plainLibrary : Library where
  sha := Storage.Sha256.ofTable []
  sign := fun _ => "sig"

def sampleProposal : Input := .propose "j" "m" oneStage zeroTime false

def sampleCall (prompt : Evm.Bytes) (roundId : String) : ExecuteCall where
  jobId := "j"
  prompt := prompt
  stageRunners := [fun activations _ _ => some activations]
  stageAttestations := none
  roundId := roundId
  startedAt := zeroTime
  completedAt := zeroTime
  error := ""

instance decidableFresh (w : World) : (i : Input) → Decidable (Fresh w i)
  | .propose jobId _ _ _ _ =>
      inferInstanceAs (Decidable (w.memory.jobs jobId = none ∧ w.memory.rounds jobId = none))
  | .execute _ _ | .restart => isTrue trivial

theorem oneShot_sample : (machine plainLibrary).EveryState OneShot World.empty
    [sampleProposal, .execute (sampleCall [1] "r") none, .execute (sampleCall [2] "s") none] :=
  (oneShot_run_iff plainLibrary _).2 (by decide +kernel) (by decide)

/-- After a crash between the writes of the completed round and of its job, the job runs again. -/
theorem run_twice : ¬ (machine plainLibrary).EveryState OneShot World.empty
    [sampleProposal, .execute (sampleCall [1] "r") (some .afterRound),
      .execute (sampleCall [2] "s") none] := by
  intro h
  have hOnce := h.last.once
  exact absurd hOnce (by decide +kernel)

end Sample

end Prsm.Pipeline
