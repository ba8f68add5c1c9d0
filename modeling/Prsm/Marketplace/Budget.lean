import Prsm.Marketplace.Orchestrator

/-!
# The budget of a job

While one call has the orchestrator to itself, the two attributes are its own: a quote is
accepted only if it fits into what is left of the budget, so what is released for the job
stays within it.  Another call that starts or completes a shard in the meantime writes the
same attributes, and the consensus path reads neither of them.
-/

namespace Prsm.Marketplace

open Foundations

/-- What a record holds for one call. -/
def sumFor (me : ℕ) (record : List (ℕ × ℚ)) : ℚ :=
  ((record.filter fun entry => entry.1 = me).map Prod.snd).sum

/-- What was released to providers for a call. -/
def State.released (s : State) (me : ℕ) : ℚ :=
  sumFor me s.payments

/-- The quotes at which the shards of a call were completed. -/
def State.agreed (s : State) (me : ℕ) : ℚ :=
  sumFor me s.agreements

/-- What has been released is within the budget, and where the call has ended for its
budget, the quotes that it agreed to do not fit. -/
def Within (budget : ℚ) (s : State) (me : ℕ) (p : Method Unit) : Prop :=
  s.released me ≤ budget ∧
    ∀ shardIndex spent quoted ceiling,
      p.outcome = some (.error (.jobBudgetExceeded shardIndex spent quoted ceiling)) →
        budget < s.agreed me + quoted

/-- The policy sets a budget. -/
def Call.Budgeted (call : Call) : Prop :=
  0 < call.policy.maxTotalJob

instance (call : Call) : Decidable call.Budgeted :=
  inferInstanceAs (Decidable (_ < _))

/-- Every budget is kept. -/
def WithinBudgets (pool : MarketPool) : Prop :=
  ∀ me call p, pool.tasks[me]? = some (call, p) → call.Budgeted →
    Within call.policy.maxTotalJob pool.state me p

/-- What a dispatch may release: at most what it was to escrow, and nothing where the
provider is not paid. -/
def Allowed (_me : ℕ) (choice : Choice) (_s : State) : Request → Prop
  | .dispatch _ _ _ _ escrowAmount _ =>
      choice.released ≤ escrowAmount ∧
        (choice.outcome = .preempted ∨ choice.outcome = .missingAttestation →
          choice.released ≤ 0)
  | .dispatchWithConsensus _ nodeIds _ _ escrowPerProvider _ =>
      choice.released ≤ nodeIds.length * escrowPerProvider
  | _ => True

instance (me : ℕ) (choice : Choice) (s : State) (r : Request) :
    Decidable (Allowed me choice s r) := by
  cases r <;> unfold Allowed <;> infer_instance

/-- The most that a shard can cost in consensus mode. -/
def Call.ceiling (call : Call) : ℚ :=
  match call.policy.maxPricePerShard with
  | some maxPrice => maxPrice
  | none => (call.eligible.map Listing.pricePerShard).max?.getD 0 * call.policy.consensusK

/-- The shards of a job in consensus mode cannot cost more than the budget. -/
def Call.Fits (call : Call) : Prop :=
  call.policy.consensusRequested = true →
    call.shards.length * call.ceiling ≤ call.policy.maxTotalJob

instance (call : Call) : Decidable call.Fits :=
  inferInstanceAs (Decidable (_ → _))

/-- No call is made while one with a budget is in progress, and none with a budget while
any other is; and in consensus mode the budget fits. -/
def Separate (pool : MarketPool) : Turn Call Choice → Prop
  | .call call =>
      (∀ task ∈ pool.tasks, task.2.outcome = none → ¬ task.1.Budgeted ∧ ¬ call.Budgeted) ∧
        (call.Budgeted → call.Fits)
  | _ => True

instance (pool : MarketPool) (turn : Turn Call Choice) : Decidable (Separate pool turn) := by
  cases turn <;> unfold Separate <;> infer_instance

/-! ## The record of a call -/

section Record

variable {me other : ℕ} {x : ℚ} {record : List (ℕ × ℚ)}

@[simp] theorem sumFor_nil : sumFor me [] = 0 := rfl

@[simp] theorem sumFor_cons_self : sumFor me ((me, x) :: record) = x + sumFor me record := by
  simp [sumFor]

theorem sumFor_cons_of_ne (h : other ≠ me) :
    sumFor me ((other, x) :: record) = sumFor me record := by
  simp [sumFor, h]

end Record

/-- The writes of the code leave both records alone. -/
def recorder : Protocol State Request Answer Unit where
  Sees := fun _ _ _ => True
  Writes := fun _ f _ => ∀ s, (f s).payments = s.payments ∧ (f s).agreements = s.agreements
  Answers := fun _ _ _ _ => True

/-- The code keeps to `recorder`. -/
def Quiet {α : Type} (p : Method α) : Prop :=
  recorder.Follows (fun _ _ => True) () p

section Quiet

variable {α β : Type} {config : Config} {call : Call} {shard : Shard}

theorem quiet_bind {p : Method α} {f : α → Method β} (h : Quiet p) (hNext : ∀ a, Quiet (f a)) :
    Quiet (p.bind f) := by
  apply Protocol.follows_bind
  apply h.imp
  intro r st _
  cases r with
  | ok a => exact hNext a
  | error e => trivial

theorem quiet_ask (r : Request) : Quiet (Coroutine.ask r) :=
  fun _ => ⟨(), trivial, trivial⟩

theorem quiet_gets {f : State → α} : Quiet (Coroutine.gets f : Method α) :=
  fun _ => ⟨(), trivial, trivial⟩

theorem quiet_dispatchQuoted {listing : Listing} {quoted : ℚ} :
    Quiet (dispatchQuoted config call shard listing quoted) := by
  apply quiet_bind quiet_gets
  intro budget
  apply quiet_bind quiet_gets
  intro spent
  split
  · trivial
  · apply quiet_bind (quiet_ask _)
    intro outcome
    cases outcome with
    | completed hasReceipt =>
        have hForward : Quiet (forwardReceipt config call shard listing quoted hasReceipt) := by
          unfold forwardReceipt
          split
          · exact quiet_ask _
          · trivial
        refine ⟨(), fun s => ⟨rfl, rfl⟩, ?_⟩
        show Quiet ((forwardReceipt config call shard listing quoted hasReceipt).bind
          fun _ => pure true)
        exact quiet_bind hForward fun _ => trivial
    | _ => trivial

theorem quiet_tryListing {listing : Listing} : Quiet (tryListing config call shard listing) := by
  apply quiet_bind quiet_gets
  intro meets
  split
  · trivial
  · apply quiet_bind (quiet_ask _)
    intro quote
    cases quote with
    | quoted price =>
        show Quiet _
        simp only
        split
        · trivial
        · split
          · trivial
          · exact quiet_dispatchQuoted
    | _ => trivial

theorem quiet_dispatchOneShard {eligible : List Listing} :
    Quiet (dispatchOneShard config call shard eligible) := by
  induction eligible with
  | nil => trivial
  | cons listing rest ih =>
      apply quiet_bind quiet_tryListing
      intro done
      split
      · trivial
      · exact ih

theorem quiet_dispatchOneShardWithConsensus {eligible : List Listing} :
    Quiet (dispatchOneShardWithConsensus config call shard eligible) := by
  unfold dispatchOneShardWithConsensus
  split
  · trivial
  · apply quiet_bind quiet_gets
    intro tierEligible
    split
    · trivial
    · simp only
      split
      · apply quiet_bind (quiet_ask _)
        intro outcome
        cases outcome <;> trivial
      · trivial

theorem quiet_dispatchShards {shards : List Shard} :
    Quiet (dispatchShards config call shards) := by
  induction shards with
  | nil => trivial
  | cons shard rest ih =>
      apply quiet_bind
      · unfold dispatchShard
        split
        · exact quiet_dispatchOneShardWithConsensus
        · exact quiet_dispatchOneShard
      · exact fun _ => ih

theorem quiet_orchestrate : Quiet (orchestrateShardedInference config call) := by
  unfold orchestrateShardedInference
  split
  · trivial
  · exact ⟨(), fun s => ⟨rfl, rfl⟩, quiet_dispatchShards⟩

end Quiet

/-! ## A call that has the orchestrator to itself -/

/-- Nothing happens while the call waits but the answer. -/
def alone (me : ℕ) (budget : ℚ) : Discipline State Request Choice where
  Inv := fun s => s.released me ≤ budget
  Fresh := fun _ _ => True
  Rely := fun task s s' => task = me → s' = s
  Writes := fun _ _ => True
  Allowed := Allowed
  Before := fun _ _ _ => True
  rely_refl := fun _ _ _ => rfl
  rely_trans := fun _ _ _ _ h h' hMe => (h' hMe).trans (h hMe)
  writes_refl := fun _ => trivial
  writes_trans := fun _ _ _ _ _ => trivial
  fresh_stable := fun _ _ _ _ _ _ _ => trivial

/-- What the call has agreed to is what the orchestrator has counted, and covers what was
released. -/
structure Spending (me : ℕ) (budget : ℚ) (s : State) : Prop where
  ceiling : s.jobBudget = budget
  counted : s.jobSpent = s.agreed me
  covered : s.released me ≤ s.agreed me
  fits : s.agreed me ≤ budget

/-- The error is no abort, or the quotes do not fit. -/
def Justified (me : ℕ) (budget : ℚ) (e : Error) (s : State) : Prop :=
  ∀ shardIndex spent quoted ceiling,
    e = .jobBudgetExceeded shardIndex spent quoted ceiling → budget < s.agreed me + quoted

/-- How a budgeted call ends. -/
def Post (me : ℕ) (budget : ℚ) : Except Error Unit → State → Prop :=
  Ends (fun _ _ => True) (Justified me budget)

section Alone

variable {config : Config} {call : Call} {shard : Shard} {me : ℕ} {budget : ℚ} {s : State}
  {α : Type} {Q : Except Error α → State → Prop}

theorem safe_request {r : Request} {resume : Answer r → Method α}
    (hServe : ∀ choice answer s', Allowed me choice s r → serve me choice s r = some (answer, s') →
      s'.released me ≤ budget ∧ (alone me budget).Safe serve me Q (resume answer) s') :
    (alone me budget).Safe serve me Q (.await r resume) s := by
  intro s' hRely _
  obtain rfl := hRely rfl
  refine ⟨trivial, fun choice answer s'' hAllowed hServed => ?_⟩
  obtain ⟨hInv, hNext⟩ := hServe choice answer s'' hAllowed hServed
  refine ⟨⟨hInv, fun other hOther hMe => absurd hMe hOther⟩, fun s₃ hRely₃ _ => ?_⟩
  rw [hRely₃ rfl]
  exact hNext

theorem safe_write {f : State → State} {next : Method α} (hInv : (f s).released me ≤ budget)
    (hNext : (alone me budget).Safe serve me Q next (f s)) :
    (alone me budget).Safe serve me Q (.write f next) s :=
  ⟨⟨hInv, fun _ hOther hMe => absurd hMe hOther⟩, trivial, hNext⟩

theorem safe_forwardReceipt {listing : Listing} {quoted : ℚ} {hasReceipt : Bool}
    (h : Spending me budget s) :
    (alone me budget).Safe serve me (Ends (fun _ s => Spending me budget s) fun _ _ => False)
      (forwardReceipt config call shard listing quoted hasReceipt) s := by
  unfold forwardReceipt
  split
  · apply safe_request
    intro choice answer s' _ hServe
    cases hServe
    exact ⟨h.covered.trans h.fits, h.ceiling, h.counted, h.covered, h.fits⟩
  · exact h

theorem safe_dispatchQuoted {listing : Listing} {quoted : ℚ} (hBudget : 0 < budget)
    (h : Spending me budget s) :
    (alone me budget).Safe serve me
      (Ends (fun _ s => Spending me budget s) (Justified me budget))
      (dispatchQuoted config call shard listing quoted) s := by
  show (alone me budget).Safe serve me _
    (if 0 < s.jobBudget ∧ s.jobBudget < s.jobSpent + quoted then _ else _) s
  rw [h.ceiling, h.counted]
  split
  next hOver =>
    intro shardIndex spent quoted' ceiling hAbort
    cases hAbort
    exact hOver.2
  next hLeft =>
    have hFits : s.agreed me + quoted ≤ budget := not_lt.mp fun hOver => hLeft ⟨hBudget, hOver⟩
    have hCovered := h.covered
    apply safe_request
    intro choice outcome s' hAllowed hServe
    obtain ⟨hReleased, hUnpaid⟩ := hAllowed
    cases hServe
    have hPaid : sumFor me ((me, choice.released) :: s.payments)
        = choice.released + s.released me := sumFor_cons_self
    cases hOutcome : choice.outcome with
    | completed hasReceipt =>
        have hCounted : sumFor me ((me, quoted) :: s.agreements) = quoted + s.agreed me :=
          sumFor_cons_self
        have hInv : sumFor me ((me, choice.released) :: s.payments) ≤ budget := by linarith
        have hSpending : Spending me budget { s with
            jobSpent := s.jobSpent + quoted
            effectiveTier := choice.effectiveTier
            payments := (me, choice.released) :: s.payments
            agreements := (me, quoted) :: s.agreements } := by
          refine ⟨h.ceiling, ?_, ?_, ?_⟩
          · show s.jobSpent + quoted = sumFor me ((me, quoted) :: s.agreements)
            rw [hCounted, h.counted, add_comm]
          · show sumFor me ((me, choice.released) :: s.payments)
              ≤ sumFor me ((me, quoted) :: s.agreements)
            linarith
          · show sumFor me ((me, quoted) :: s.agreements) ≤ budget
            linarith
        refine ⟨hInv, safe_write hInv ?_⟩
        exact (safe_forwardReceipt hSpending).bind hInv (fun _ _ _ h => h)
          fun _ _ _ h => h.elim
    | preempted =>
        have hNothing := hUnpaid (Or.inl hOutcome)
        have hStill : sumFor me ((me, choice.released) :: s.payments) ≤ s.agreed me := by linarith
        exact ⟨hStill.trans h.fits, h.ceiling, h.counted, hStill, h.fits⟩
    | missingAttestation =>
        have hNothing := hUnpaid (Or.inr hOutcome)
        have hStill : sumFor me ((me, choice.released) :: s.payments) ≤ s.agreed me := by linarith
        exact ⟨hStill.trans h.fits, h.ceiling, h.counted, hStill, h.fits⟩
    | dispatchError =>
        exact ⟨(by linarith : sumFor me ((me, choice.released) :: s.payments) ≤ budget),
          fun _ _ _ _ hAbort => by cases hAbort⟩
    | raised =>
        exact ⟨(by linarith : sumFor me ((me, choice.released) :: s.payments) ≤ budget),
          fun _ _ _ _ hAbort => by cases hAbort⟩

theorem safe_tryListing {listing : Listing} (hBudget : 0 < budget) (h : Spending me budget s) :
    (alone me budget).Safe serve me
      (Ends (fun _ s => Spending me budget s) (Justified me budget))
      (tryListing config call shard listing) s := by
  show (alone me budget).Safe serve me _
    (if !(s.onchainTierMeets call.policy listing) then _ else _) s
  split
  · exact h
  · apply safe_request
    intro choice quote s' _ hServe
    cases hServe
    refine ⟨h.covered.trans h.fits, ?_⟩
    have h' : Spending me budget { s with effectiveTier := choice.effectiveTier } :=
      ⟨h.ceiling, h.counted, h.covered, h.fits⟩
    cases choice.quote with
    | timeout => exact h'
    | rejected => exact h'
    | raised => exact fun _ _ _ _ hAbort => by cases hAbort
    | quoted price =>
        show (alone me budget).Safe serve me _
          (if overCeiling call.policy price then _ else _) _
        split
        · exact h'
        · split
          · exact h'
          · exact safe_dispatchQuoted hBudget h'

theorem safe_dispatchOneShard {eligible : List Listing} (hBudget : 0 < budget)
    (h : Spending me budget s) :
    (alone me budget).Safe serve me
      (Ends (fun _ s => Spending me budget s) (Justified me budget))
      (dispatchOneShard config call shard eligible) s := by
  induction eligible generalizing s with
  | nil => exact fun _ _ _ _ hAbort => by cases hAbort
  | cons listing rest ih =>
      apply Discipline.Safe.bind (safe_tryListing hBudget h) (h.covered.trans h.fits)
      · intro done s _ hSpending
        split
        · exact hSpending
        · exact ih hSpending
      · exact fun _ _ _ hJustified => hJustified

theorem totalBudget_le {selected : List Listing} {total : ℚ} (hSelected : selected ⊆ call.eligible)
    (h : totalBudget call.policy selected = some total) : total ≤ call.ceiling := by
  unfold totalBudget at h
  unfold Call.ceiling
  cases hPrice : call.policy.maxPricePerShard with
  | some maxPrice =>
      simp only [hPrice] at h ⊢
      split at h
      · cases h
      · cases h
        exact le_rfl
  | none =>
      simp only [hPrice] at h ⊢
      obtain ⟨price, hMax, rfl⟩ := Option.map_eq_some_iff.mp h
      have hMem : price ∈ call.eligible.map Listing.pricePerShard :=
        List.map_subset _ hSelected (List.max?_mem hMax)
      cases hAll : (call.eligible.map Listing.pricePerShard).max? with
      | none =>
          rw [List.max?_eq_none_iff.mp hAll] at hMem
          cases hMem
      | some top =>
          have hTop : price ≤ top := (List.max?_eq_some_iff.mp hAll).2 price hMem
          exact mul_le_mul_of_nonneg_right hTop (Nat.cast_nonneg _)

theorem mem_of_selectTopK {listings : List Listing} {k : ℕ} {boost : ℚ} :
    selectTopK listings k boost ⊆ listings := fun _ h =>
  (List.perm_insertionSort _ _).subset (List.take_subset _ _ h)

theorem length_selectTopK {listings : List Listing} {k : ℕ} {boost : ℚ} (h : k ≤ listings.length) :
    (selectTopK listings k boost).length = k := by
  rw [selectTopK, List.length_take, List.length_insertionSort]
  exact min_eq_left h

theorem safe_dispatchOneShardWithConsensus {eligible : List Listing} {left : ℚ}
    (hEligible : eligible ⊆ call.eligible) (hShard : s.released me + call.ceiling ≤ budget)
    (hLeft : s.released me + call.ceiling ≤ left) :
    (alone me budget).Safe serve me
      (Ends (fun _ s => s.released me ≤ left) (Justified me budget))
      (dispatchOneShardWithConsensus config call shard eligible) s := by
  unfold dispatchOneShardWithConsensus
  split
  · exact fun _ _ _ _ hAbort => by cases hAbort
  let tierEligible := eligible.filter fun l => s.onchainTierMeets call.policy l
  show (alone me budget).Safe serve me _
    (if tierEligible.length < call.policy.consensusK then _ else _) s
  split
  · exact fun _ _ _ _ hAbort => by cases hAbort
  next hEnough =>
    simp only
    split
    next first total hFirst hTotal =>
      have hSubset : selectTopK tierEligible call.policy.consensusK
          call.policy.requesterPriorityBoost ⊆ call.eligible := fun l hl =>
        hEligible (List.mem_of_mem_filter (mem_of_selectTopK hl))
      have hLength : (selectTopK tierEligible call.policy.consensusK
          call.policy.requesterPriorityBoost).length = call.policy.consensusK :=
        length_selectTopK (not_lt.mp hEnough)
      have hCeiling := totalBudget_le hSubset hTotal
      have hPositive : (call.policy.consensusK : ℚ) ≠ 0 := by
        rw [← hLength, Nat.cast_ne_zero, List.length_eq_zero_iff.ne]
        intro hNone
        rw [hNone] at hFirst
        cases hFirst
      apply safe_request
      intro choice outcome s' hAllowed hServe
      have hReleased : choice.released ≤ total := by
        have hSplit := hAllowed
        simp only [Allowed, List.length_map] at hSplit
        rw [hLength, mul_div_cancel₀ total hPositive] at hSplit
        exact hSplit
      cases hServe
      have hPaid : sumFor me ((me, choice.released) :: s.payments)
          = choice.released + s.released me := sumFor_cons_self
      refine ⟨(by linarith : sumFor me ((me, choice.released) :: s.payments) ≤ budget), ?_⟩
      cases choice.consensus with
      | agreed =>
          show sumFor me ((me, choice.released) :: s.payments) ≤ left
          linarith
      | _ => exact fun _ _ _ _ hAbort => by cases hAbort
    · exact fun _ _ _ _ hAbort => by cases hAbort

theorem safe_dispatchShards_consensus {shards : List Shard}
    (hMode : call.policy.consensusRequested = true) (h : s.released me ≤ budget)
    (hShards : s.released me + shards.length * call.ceiling ≤ budget) :
    (alone me budget).Safe serve me (Post me budget) (dispatchShards config call shards) s := by
  induction shards generalizing s with
  | nil => trivial
  | cons shard rest ih =>
      rw [List.length_cons, Nat.cast_succ] at hShards
      have hShard : s.released me + call.ceiling ≤ budget := by
        rcases le_total 0 call.ceiling with hPos | hNeg
        · have hRest : 0 ≤ (rest.length : ℚ) * call.ceiling :=
            mul_nonneg (Nat.cast_nonneg _) hPos
          linarith
        · linarith
      have hSafe : (alone me budget).Safe serve me
          (Ends (fun _ s' => s'.released me ≤ s.released me + call.ceiling)
            (Justified me budget)) (dispatchShard config call shard) s := by
        unfold dispatchShard
        rw [if_pos hMode]
        exact safe_dispatchOneShardWithConsensus (List.perm_insertionSort _ _).subset hShard le_rfl
      apply Discipline.Safe.bind hSafe h
      · intro _ s' hInv hReleased
        apply ih hInv
        linarith [show s'.released me ≤ s.released me + call.ceiling from hReleased]
      · exact fun _ _ _ hJustified => hJustified

theorem safe_dispatchShards_single {shards : List Shard}
    (hMode : call.policy.consensusRequested = false) (hBudget : 0 < budget)
    (h : Spending me budget s) :
    (alone me budget).Safe serve me (Post me budget) (dispatchShards config call shards) s := by
  induction shards generalizing s with
  | nil => trivial
  | cons shard rest ih =>
      have hSafe : (alone me budget).Safe serve me
          (Ends (fun _ s => Spending me budget s) (Justified me budget))
          (dispatchShard config call shard) s := by
        unfold dispatchShard
        rw [hMode]
        exact safe_dispatchOneShard hBudget h
      apply Discipline.Safe.bind hSafe (h.covered.trans h.fits)
      · exact fun _ _ _ hSpending => ih hSpending
      · exact fun _ _ _ hJustified => hJustified

theorem safe_orchestrate (hBudget : call.Budgeted) (hFits : call.Fits)
    (hReleased : s.released me = 0) (hAgreed : s.agreed me = 0) :
    (alone me call.policy.maxTotalJob).Safe serve me (Post me call.policy.maxTotalJob)
      (orchestrateShardedInference config call) s := by
  have hInv : s.released me ≤ call.policy.maxTotalJob := hReleased.le.trans (le_of_lt hBudget)
  unfold orchestrateShardedInference
  split
  · exact fun _ _ _ _ hAbort => by cases hAbort
  let started : State := { s with jobBudget := call.policy.maxTotalJob, jobSpent := 0 }
  have hStarted : started.released me ≤ call.policy.maxTotalJob := hInv
  apply safe_write hInv
  cases hMode : call.policy.consensusRequested with
  | true =>
      have hAll : started.released me + call.shards.length * call.ceiling
          ≤ call.policy.maxTotalJob := by
        show s.released me + _ ≤ _
        rw [hReleased, zero_add]
        exact hFits hMode
      exact safe_dispatchShards_consensus hMode hStarted hAll
  | false =>
      have hSpending : Spending me call.policy.maxTotalJob started :=
        ⟨rfl, hAgreed.symm, (hReleased.trans hAgreed.symm).le,
          hAgreed.le.trans (le_of_lt hBudget)⟩
      exact safe_dispatchShards_single hMode hBudget hSpending

end Alone

section Runs

variable {config : Config} {pool pool' : MarketPool}

/-- A budgeted call has ended within its budget, or is the only one in progress. -/
structure Tracked (pool : MarketPool) : Prop where
  quiet : ∀ task ∈ pool.tasks, Quiet task.2
  fresh : ∀ me, pool.tasks.length ≤ me → pool.state.released me = 0 ∧ pool.state.agreed me = 0
  budgeted : ∀ me call p, pool.tasks[me]? = some (call, p) → call.Budgeted →
    (p.outcome ≠ none ∧ Within call.policy.maxTotalJob pool.state me p) ∨
      (pool.state.released me ≤ call.policy.maxTotalJob ∧
        (∀ other task, other ≠ me → pool.tasks[other]? = some task → task.2.outcome ≠ none) ∧
          (alone me call.policy.maxTotalJob).Safe serve me (Post me call.policy.maxTotalJob) p
            pool.state)

theorem tracked_start (effectiveTier : String → Option String) : Tracked (start effectiveTier) where
  quiet := fun task hTask => by simp [start] at hTask
  fresh := fun _ _ => ⟨rfl, rfl⟩
  budgeted := fun me call p hTask => by simp [start] at hTask

theorem Tracked.within (h : Tracked pool) : WithinBudgets pool := by
  intro me call p hTask hBudgeted
  rcases h.budgeted me call p hTask hBudgeted with ⟨-, hWithin⟩ | ⟨hReleased, -, hSafe⟩
  · exact hWithin
  · refine ⟨hReleased, fun shardIndex spent quoted ceiling hAbort => ?_⟩
    cases p with
    | raised e =>
        cases hAbort
        exact hSafe shardIndex spent quoted ceiling rfl
    | _ => cases hAbort

/-- What the turn of a task does: the records of the others stay, and a call that is alone
goes on safely. -/
structure Moved (me : ℕ) (pool pool' : MarketPool) (call : Call) (p p' : Method Unit) : Prop where
  task : pool.tasks[me]? = some (call, p)
  tasks : pool'.tasks = pool.tasks.set me (call, p')
  unfinished : p.outcome = none
  quiet : Quiet p'
  others : ∀ other, other ≠ me →
    pool'.state.released other = pool.state.released other ∧
      pool'.state.agreed other = pool.state.agreed other
  safe : ∀ budget, pool.state.released me ≤ budget →
    (alone me budget).Safe serve me (Post me budget) p pool.state →
      pool'.state.released me ≤ budget ∧
        (alone me budget).Safe serve me (Post me budget) p' pool'.state

theorem serve_others {me other : ℕ} {choice : Choice} {s s' : State} {r : Request}
    {answer : Answer r} (hOther : other ≠ me) (h : serve me choice s r = some (answer, s')) :
    s'.released other = s.released other ∧ s'.agreed other = s.agreed other := by
  have hPaid : sumFor other ((me, choice.released) :: s.payments) = sumFor other s.payments :=
    sumFor_cons_of_ne (Ne.symm hOther)
  cases r with
  | dispatch shard nodeId jobId stakeTier escrowAmount requireTee =>
      have hAgreed : sumFor other ((me, escrowAmount) :: s.agreements)
          = sumFor other s.agreements :=
        sumFor_cons_of_ne (Ne.symm hOther)
      cases h
      refine ⟨hPaid, ?_⟩
      cases hOutcome : choice.outcome with
      | completed _ => exact hAgreed
      | _ => rfl
  | dispatchWithConsensus =>
      cases h
      exact ⟨hPaid, rfl⟩
  | _ =>
      cases h
      exact ⟨rfl, rfl⟩

theorem Tracked.moved (h : Tracked pool) {turn : Turn Call Choice} {me : ℕ}
    (hMover : Program.mover turn = some me) (hAllowed : Program.Answerable Allowed pool turn)
    (hTurn : (program config).machine.step pool turn = some pool') :
    ∃ call p p', Moved me pool pool' call p p' := by
  cases turn with
  | resume task =>
      cases hMover
      obtain ⟨call, p, p', hTask, hMoved, hTasks⟩ := Program.of_turnOf hTurn
      obtain ⟨hState, hSettled, -⟩ := Coroutine.of_resumed hMoved
      have hQuiet := h.quiet _ (List.mem_of_getElem? hTask)
      have hSame := hQuiet.settle_keeps
        (fun s s' => s'.payments = s.payments ∧ s'.agreements = s.agreements)
        (fun _ => ⟨rfl, rfl⟩) (fun _ _ _ h h' => ⟨h'.1.trans h.1, h'.2.trans h.2⟩)
        (fun _ _ _ s hWrites => hWrites s) pool.state
      rw [← hState] at hSame
      refine ⟨call, p, p', hTask, hTasks, ?_, ?_, ?_, ?_⟩
      · cases p with
        | returned a => cases hMoved
        | raised e => cases hMoved
        | _ => rfl
      · obtain ⟨_, hNext⟩ := hQuiet.settle pool.state
        rwa [← hSettled] at hNext
      · intro other _
        rw [State.released, State.released, State.agreed, State.agreed, hSame.1, hSame.2]
        exact ⟨rfl, rfl⟩
      · intro budget hReleased hSafe
        obtain ⟨hGuarantee, -, hNext⟩ := hSafe.settle hReleased
        rw [← hState] at hGuarantee hNext
        rw [← hSettled] at hNext
        exact ⟨hGuarantee.1, hNext⟩
  | serve task choice =>
      cases hMover
      obtain ⟨call, p, p', hTask, hMoved, hTasks⟩ := Program.of_turnOf hTurn
      obtain ⟨r, resume, answer, rfl, hServe, rfl⟩ := Coroutine.of_served hMoved
      have hAnswered : Program.answered pool (Turn.serve me choice : Turn Call Choice) = some r := by
        simp [Program.answered, hTask, Coroutine.pending]
      refine ⟨call, _, _, hTask, hTasks, rfl, ?_, ?_, ?_⟩
      · obtain ⟨_, -, hNext⟩ := h.quiet _ (List.mem_of_getElem? hTask) answer
        exact hNext
      · exact fun other hOther => serve_others hOther hServe
      · intro budget hReleased hSafe
        obtain ⟨-, hAfter⟩ := hSafe pool.state (fun _ => rfl) hReleased
        obtain ⟨hGuarantee, hNext⟩ :=
          hAfter choice answer pool'.state (hAllowed me choice r rfl hAnswered) hServe
        exact ⟨hGuarantee.1, hNext pool'.state (fun _ => rfl) hGuarantee.1⟩
  | call call => cases hMover
  | crash => cases hMover

theorem Tracked.of_moved (h : Tracked pool) {me : ℕ} {call : Call} {p p' : Method Unit}
    (hMoved : Moved me pool pool' call p p') : Tracked pool' := by
  have hLength : me < pool.tasks.length := (List.getElem?_eq_some_iff.mp hMoved.task).1
  have hOther : ∀ other, other ≠ me → pool'.tasks[other]? = pool.tasks[other]? := by
    intro other hNe
    rw [hMoved.tasks, List.getElem?_set_ne (Ne.symm hNe)]
  have hMine : pool'.tasks[me]? = some (call, p') := by
    rw [hMoved.tasks, List.getElem?_set_self hLength]
  refine ⟨fun task hTask => ?_, fun other hNew => ?_, fun other call' q hTask hBudgeted => ?_⟩
  · rw [hMoved.tasks] at hTask
    rcases List.mem_or_eq_of_mem_set hTask with hOld | rfl
    · exact h.quiet task hOld
    · exact hMoved.quiet
  · rw [hMoved.tasks, List.length_set] at hNew
    obtain ⟨hReleased, hAgreed⟩ := hMoved.others other (by omega)
    rw [hReleased, hAgreed]
    exact h.fresh other hNew
  · by_cases hMe : other = me
    · subst hMe
      rw [hMine] at hTask
      cases hTask
      right
      rcases h.budgeted other call p hMoved.task hBudgeted with ⟨hEnded, -⟩ | hAlone
      · exact absurd hMoved.unfinished hEnded
      · obtain ⟨hReleased, hOthers, hSafe⟩ := hAlone
        obtain ⟨hReleased', hSafe'⟩ := hMoved.safe _ hReleased hSafe
        refine ⟨hReleased', fun third task hThird hTask => ?_, hSafe'⟩
        rw [hOther third hThird] at hTask
        exact hOthers third task hThird hTask
    · rw [hOther other hMe] at hTask
      rcases h.budgeted other call' q hTask hBudgeted with ⟨hEnded, hWithin⟩ | hAlone
      · left
        obtain ⟨hReleased, hAgreed⟩ := hMoved.others other hMe
        refine ⟨hEnded, ?_⟩
        rw [Within, hReleased, hAgreed]
        exact hWithin
      · exact absurd hMoved.unfinished (hAlone.2.1 me _ (Ne.symm hMe) hMoved.task)

theorem Tracked.of_call (h : Tracked pool) {call : Call} (hSeparate : Separate pool (.call call)) :
    Tracked (⟨pool.state, pool.tasks ++ [(call, orchestrateShardedInference config call)]⟩) := by
  obtain ⟨hProgress, hFits⟩ := hSeparate
  refine ⟨fun task hTask => ?_, fun me hNew => ?_, fun me call' p hTask hBudgeted => ?_⟩
  · rcases List.mem_append.mp hTask with hOld | hNew
    · exact h.quiet task hOld
    · rw [List.mem_singleton.mp hNew]
      exact quiet_orchestrate
  · rw [List.length_append] at hNew
    exact h.fresh me ((Nat.le_add_right _ _).trans hNew)
  · rw [List.getElem?_append] at hTask
    split at hTask
    next hOld =>
      left
      have hMem := List.mem_of_getElem? hTask
      have hEnded : p.outcome ≠ none := fun hNone => (hProgress _ hMem hNone).1 hBudgeted
      exact ⟨hEnded, h.within me call' p hTask hBudgeted⟩
    next hNew =>
      right
      have hLast : me - pool.tasks.length < 1 := (List.getElem?_eq_some_iff.mp hTask).1
      obtain rfl : me = pool.tasks.length := by omega
      rw [Nat.sub_self] at hTask
      cases hTask
      obtain ⟨hReleased, hAgreed⟩ := h.fresh pool.tasks.length le_rfl
      refine ⟨hReleased.le.trans (le_of_lt hBudgeted), fun other task hOther hTask => ?_,
        safe_orchestrate hBudgeted (hFits hBudgeted) hReleased hAgreed⟩
      have hBound := (List.getElem?_eq_some_iff.mp hTask).1
      rw [List.length_append, List.length_singleton] at hBound
      rw [List.getElem?_append_left (by omega)] at hTask
      exact fun hNone => (hProgress task (List.mem_of_getElem? hTask) hNone).2 hBudgeted

theorem Tracked.advance (h : Tracked pool) {turn : Turn Call Choice}
    (hAllowed : Program.Answerable Allowed pool turn) (hSeparate : Separate pool turn)
    (hTurn : (program config).machine.step pool turn = some pool') : Tracked pool' := by
  cases hMover : Program.mover turn with
  | some me =>
      obtain ⟨call, p, p', hMoved⟩ := h.moved hMover hAllowed hTurn
      exact h.of_moved hMoved
  | none =>
      cases turn with
      | call call =>
          cases hTurn
          exact h.of_call hSeparate
      | crash => cases hTurn
      | resume me => cases hMover
      | serve me choice => cases hMover

end Runs

/-- Where budgeted calls are separate, every budget is kept and no call aborts too soon. -/
theorem budgets_kept (config : Config) (effectiveTier : String → Option String)
    (turns : List (Turn Call Choice))
    (hDispatch : (program config).machine.EveryStep (Program.Answerable Allowed)
      (start effectiveTier) turns)
    (hSeparate : (program config).machine.EveryStep Separate (start effectiveTier) turns) :
    (program config).machine.EveryState WithinBudgets (start effectiveTier) turns := by
  have hTracked : (program config).machine.EveryState Tracked (start effectiveTier) turns := by
    apply (program config).machine.everyState_of_everyStep Tracked _ ?_
      (tracked_start effectiveTier) (hDispatch.and hSeparate)
    intro pool turn pool' hTracked hSteps hTurn
    exact hTracked.advance hSteps.1 hSteps.2 hTurn
  exact fun visited hPrefix => (hTracked visited hPrefix).within

/-! ## Two calls at once -/

def sampleConfig : Config := ⟨false, true⟩

def sampleCall (maxTotalJob : ℚ) (consensusMode : Option String) : Call where
  shards := [⟨0, 1⟩, ⟨1, 1⟩]
  jobId := "job"
  policy := ⟨some 8, maxTotalJob, 0, false, "open", consensusMode, 1, 0⟩
  eligible := [⟨"provider", 8, 1, "open"⟩]

/-- Every provider quotes 8, completes the shard and is paid. -/
def paid : Choice := ⟨.quoted 8, .completed false, .agreed, 8, fun _ => none⟩

def singleTurns (maxTotalJob : ℚ) : List (Turn Call Choice) :=
  [.call (sampleCall maxTotalJob none), .resume 0, .serve 0 paid, .resume 0, .serve 0 paid,
    .resume 0, .serve 0 paid, .resume 0, .serve 0 paid, .resume 0]

theorem budgets_kept_single :
    (program sampleConfig).machine.EveryState WithinBudgets (start fun _ => none)
      (singleTurns 16) :=
  budgets_kept sampleConfig (fun _ => none) (singleTurns 16) (by decide +kernel)
    (by decide +kernel)

def overlappingTurns : List (Turn Call Choice) :=
  [.call (sampleCall 10 none), .resume 0, .serve 0 paid, .resume 0, .serve 0 paid, .resume 0,
    .call (sampleCall 0 none), .resume 1, .serve 0 paid, .resume 0, .serve 0 paid]

def consensusTurns : List (Turn Call Choice) :=
  [.call (sampleCall 10 (some "majority")), .resume 0, .serve 0 paid, .resume 0, .serve 0 paid]

theorem released_of_within (turns : List (Turn Call Choice)) (maxTotalJob : ℚ)
    (mode : Option String)
    (hTask : (((program sampleConfig).machine.run (start fun _ => none) turns).tasks[0]?).map
      Prod.fst = some (sampleCall maxTotalJob mode))
    (hBudget : 0 < maxTotalJob)
    (h : WithinBudgets ((program sampleConfig).machine.run (start fun _ => none) turns)) :
    ((program sampleConfig).machine.run (start fun _ => none) turns).state.released 0
      ≤ maxTotalJob := by
  obtain ⟨⟨call, p⟩, hHere, hCall⟩ := Option.map_eq_some_iff.mp hTask
  cases hCall
  exact (h 0 _ p hHere hBudget).1

/-- Both runs release 16 of a budget of 10. -/
theorem overlappingCalls_overspend :
    ¬ WithinBudgets ((program sampleConfig).machine.run (start fun _ => none) overlappingTurns) ∧
    ¬ WithinBudgets ((program sampleConfig).machine.run (start fun _ => none) consensusTurns) := by
  constructor
  · intro h
    have hReleased := released_of_within overlappingTurns 10 none (by decide +kernel)
      (by norm_num) h
    exact absurd hReleased (by decide +kernel)
  · intro h
    have hReleased := released_of_within consensusTurns 10 (some "majority")
      (by decide +kernel) (by norm_num) h
    exact absurd hReleased (by decide +kernel)

end Prsm.Marketplace
