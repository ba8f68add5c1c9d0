import Prsm.RoyaltyBatches.Operations

/-!
# Royalties and payments

While transfers are still being made, what a settlement has sent is no longer
owed but still pending.  Counting it in, what was accumulated for a creator is
what was paid or is pending, and every step but two keeps that equation.

* A call of `accumulate` that waited for an address starts a new accumulator, and
  with it drops whatever other calls have made pending for the creator meanwhile.
* A settlement that is over clears creators by the amounts pending at that time,
  while it sent the amounts read when the batch was made.

The runs without these pay every royalty once.
-/

namespace Prsm.RoyaltyBatches

open Foundations
open MultiPartyEscrow (Entry)

/-! ## Pending amounts -/

section Pending

variable (e : MultiPartyEscrow) (royalty : PendingRoyalty) (creatorId : String)

theorem pendingAmount_startAccumulator (address : Option String) :
    (e.startAccumulator royalty address).pendingAmount creatorId =
      if creatorId = royalty.creatorId then royalty.amount else e.pendingAmount creatorId := by
  unfold MultiPartyEscrow.pendingAmount MultiPartyEscrow.startAccumulator
  rw [Dict.get?_set]
  split
  · simp [CreatorAccumulator.add]
  · rfl

theorem pendingAmount_accumulate :
    (e.accumulate royalty).pendingAmount creatorId =
      e.pendingAmount creatorId + amountFor creatorId [(royalty.creatorId, royalty.amount)] := by
  rw [amountFor_cons, amountFor_nil, add_zero]
  unfold MultiPartyEscrow.accumulate
  cases hAcc : e.pending.get? royalty.creatorId with
  | some acc =>
      unfold MultiPartyEscrow.pendingAmount
      rw [Dict.get?_set]
      by_cases hCreator : creatorId = royalty.creatorId
      · subst hCreator
        simp [hAcc, CreatorAccumulator.add]
      · simp [hCreator, Ne.symm hCreator]
  | none =>
      rw [pendingAmount_startAccumulator]
      by_cases hCreator : creatorId = royalty.creatorId
      · subst hCreator
        simp [MultiPartyEscrow.pendingAmount, hAcc]
      · simp [hCreator, Ne.symm hCreator]

theorem pendingAmount_clearSettled (settledIds : List String) :
    (e.clearSettled settledIds).pendingAmount creatorId =
      if creatorId ∈ settledIds then 0 else e.pendingAmount creatorId := by
  induction settledIds generalizing e with
  | nil => rfl
  | cons first rest ih =>
      rw [MultiPartyEscrow.clearSettled, List.foldl_cons]
      cases hAcc : e.pending.get? first with
      | none =>
          refine (ih e).trans ?_
          by_cases hCreator : creatorId = first
          · subst hCreator
            simp [MultiPartyEscrow.pendingAmount, hAcc]
          · simp [hCreator]
      | some acc =>
          refine (ih _).trans ?_
          by_cases hCreator : creatorId = first
          · subst hCreator
            simp [MultiPartyEscrow.pendingAmount]
          · simp [MultiPartyEscrow.pendingAmount, Dict.get?_erase, hCreator]

end Pending

/-! ## Settlements that wait -/

namespace Settlement

variable (t : Settlement)

/-- What the transfers answered so far have sent, by creator. -/
def sent : List (String × ℚ) :=
  (t.entries.zip t.outcomes).map fun p => (p.1.creatorId, if p.2 then p.1.amount else 0)

/-- What holds of a settlement that waits for the ledger. -/
structure Underway : Prop where
  nodup : (t.entries.map (·.creatorId)).Nodup
  outcomes_lt : t.outcomes.length < t.entries.length
  outcomes_eq_nil : t.ledger ≠ .transfer → t.outcomes = []

variable {t}

theorem zip_append_outcome {entries : List Entry} {outcomes : List Bool}
    (h : outcomes.length < entries.length) (success : Bool) :
    entries.zip (outcomes ++ [success]) =
      entries.zip outcomes ++ [(entries[outcomes.length], success)] := by
  induction outcomes generalizing entries with
  | nil =>
      cases entries with
      | nil => simp at h
      | cons entry entries => simp
  | cons outcome outcomes ih =>
      cases entries with
      | nil => simp at h
      | cons entry entries =>
          have hRest := @ih entries (by simpa using h)
          simp [hRest]

theorem keys_sent (h : t.outcomes.length ≤ t.entries.length) :
    t.sent.map Prod.fst = (t.entries.take t.outcomes.length).map (·.creatorId) := by
  have hZip : (t.entries.zip t.outcomes).map Prod.fst = t.entries.take t.outcomes.length := by
    rw [List.zip_eq_zip_take_min, Nat.min_eq_right h, List.take_length]
    exact List.map_fst_zip (by simp [h])
  rw [sent, List.map_map, ← hZip, List.map_map]
  rfl

theorem amountFor_sent_next (h : t.Underway) (success : Bool) (creatorId : String) :
    amountFor creatorId (sent { t with outcomes := t.outcomes ++ [success] }) =
      amountFor creatorId t.sent +
        amountFor creatorId [((t.entries.get ⟨t.outcomes.length, h.outcomes_lt⟩).creatorId,
          if success then (t.entries.get ⟨t.outcomes.length, h.outcomes_lt⟩).amount else 0)] := by
  rw [← amountFor_append, sent, zip_append_outcome h.outcomes_lt, List.map_append]
  rfl

theorem nodup_keys_sent (h : (t.entries.map (·.creatorId)).Nodup)
    (hLength : t.outcomes.length ≤ t.entries.length) : (t.sent.map Prod.fst).Nodup := by
  rw [keys_sent hLength]
  exact h.sublist ((List.take_sublist _ _).map _)

/-! ### The creators that a settlement clears -/

theorem exists_entry_addressToCreator {entry : Entry} (hMem : entry ∈ t.entries) :
    ∃ last ∈ t.entries, last.onchainAddress = entry.onchainAddress ∧
      last.creatorId = t.addressToCreator entry.onchainAddress := by
  have hKey : entry.onchainAddress ∈ (t.entries.map fun entry =>
      (entry.onchainAddress, entry.creatorId)).map Prod.fst := by
    rw [List.map_map]
    exact List.mem_map.mpr ⟨entry, hMem, rfl⟩
  obtain ⟨creatorId, hPair, hGet⟩ := Dict.exists_get?_ofEntries hKey
  obtain ⟨last, hLast, hEq⟩ := List.mem_map.mp hPair
  obtain ⟨hAddress, hCreator⟩ := Prod.mk.inj hEq
  refine ⟨last, hLast, hAddress, ?_⟩
  rw [addressToCreator, hGet, Option.getD_some, hCreator]

theorem mem_settledCreators (hNodup : (t.entries.map (·.creatorId)).Nodup)
    {entry : Entry} (hMem : entry ∈ t.entries) :
    entry.creatorId ∈ t.settledCreators ↔
      t.addressToCreator entry.onchainAddress = entry.creatorId ∧
        ∃ p ∈ t.entries.zip t.outcomes,
          p.2 = true ∧ p.1.onchainAddress = entry.onchainAddress := by
  unfold settledCreators
  simp only [List.mem_map, List.mem_filter]
  constructor
  · rintro ⟨p, ⟨hZip, hSuccess⟩, hCreator⟩
    obtain ⟨last, hLast, hAddress, hNamed⟩ :=
      exists_entry_addressToCreator (List.of_mem_zip hZip).1
    -- distinct creators: the named recipient is this one
    have hSame : last = entry :=
      List.inj_on_of_nodup_map hNodup hLast hMem (hNamed.trans hCreator)
    subst hSame
    rw [hAddress]
    exact ⟨hCreator, p, hZip, hSuccess, rfl⟩
  · rintro ⟨hNamed, p, hZip, hSuccess, hAddress⟩
    exact ⟨p, ⟨hZip, hSuccess⟩, by rw [hAddress, hNamed]⟩

theorem settledCreators_subset : t.settledCreators ⊆ t.entries.map (·.creatorId) := by
  intro creatorId hMem
  unfold settledCreators at hMem
  obtain ⟨p, hp, rfl⟩ := List.mem_map.mp hMem
  obtain ⟨last, hLast, -, hNamed⟩ :=
    exists_entry_addressToCreator (List.of_mem_zip (List.mem_filter.mp hp).1).1
  rw [← hNamed]
  exact List.mem_map_of_mem hLast

theorem clearedIds_subset : t.clearedIds ⊆ t.entries.map (·.creatorId) := by
  unfold clearedIds
  split
  · exact List.nil_subset _
  · split
    · exact List.Subset.refl _
    · exact settledCreators_subset

end Settlement

/-- For the transfers of a settlement of which some failed: a recipient that the
address map does not name was sent nothing, and one that it names has pending what
it was sent, if some transfer to its address succeeded. -/
def SettlesApart (e : MultiPartyEscrow) (t : Settlement) : Prop :=
  ∀ p ∈ t.entries.zip t.outcomes,
    if t.addressToCreator p.1.onchainAddress = p.1.creatorId then
      (∃ q ∈ t.entries.zip t.outcomes, q.2 = true ∧ q.1.onchainAddress = p.1.onchainAddress) →
        e.pendingAmount p.1.creatorId = if p.2 then p.1.amount else 0
    else p.2 = true → p.1.amount = 0

/-- Every recipient has pending what the ledger was asked to pay. -/
def StillPending (e : MultiPartyEscrow) (t : Settlement) : Prop :=
  ∀ entry ∈ t.entries, e.pendingAmount entry.creatorId = t.ledger.asked entry.amount

/-- The condition on a settlement whose transfers are all answered. -/
def TransfersMatch (e : MultiPartyEscrow) (t : Settlement) : Prop :=
  if t.outcomes.all (·) then StillPending e t else SettlesApart e t

/-- The condition on the ledger's answer to a settlement. -/
def AnswerMatches (e : MultiPartyEscrow) (t : Settlement) : Answer → Prop
  | .raised => ∀ p ∈ t.entries.zip t.outcomes, p.2 = true → p.1.amount = 0
  | .success =>
      if t.ledger = .transfer then
        t.outcomes.length + 1 = t.entries.length →
          TransfersMatch e { t with outcomes := t.outcomes ++ [true] }
      else StillPending e t
  | .failure =>
      t.ledger = .transfer → t.outcomes.length + 1 = t.entries.length →
        TransfersMatch e { t with outcomes := t.outcomes ++ [false] }

/-- The condition on a step. -/
def Meets (w : World) : Input → Prop
  | .resolved task _ =>
      ∀ royalty, w.resolving.get? task = some royalty →
        w.escrow.pendingAmount royalty.creatorId = 0
  | .answered task answer =>
      ∀ t, w.settling.get? task = some t → AnswerMatches w.escrow t answer
  | _ => True

section Decide

variable (e : MultiPartyEscrow) (t : Settlement)

instance : Decidable (SettlesApart e t) :=
  inferInstanceAs (Decidable (∀ p ∈ t.entries.zip t.outcomes, _))

instance : Decidable (StillPending e t) :=
  inferInstanceAs (Decidable (∀ entry ∈ t.entries, _))

instance : Decidable (TransfersMatch e t) :=
  inferInstanceAs (Decidable (if t.outcomes.all (·) then StillPending e t else SettlesApart e t))

instance : (answer : Answer) → Decidable (AnswerMatches e t answer)
  | .raised => inferInstanceAs (Decidable (∀ p ∈ t.entries.zip t.outcomes, _))
  | .success =>
      inferInstanceAs (Decidable (if t.ledger = .transfer then
        t.outcomes.length + 1 = t.entries.length →
          TransfersMatch e { t with outcomes := t.outcomes ++ [true] }
      else StillPending e t))
  | .failure =>
      inferInstanceAs (Decidable (t.ledger = .transfer →
        t.outcomes.length + 1 = t.entries.length →
          TransfersMatch e { t with outcomes := t.outcomes ++ [false] }))

/-- A condition on the value of an option. -/
instance decidableOfSome {α : Type} (o : Option α) (P : α → Prop) [DecidablePred P] :
    Decidable (∀ a, o = some a → P a) :=
  match o with
  | none => isTrue fun _ h => by cases h
  | some a => decidable_of_iff (P a) (by simp)

instance (w : World) : (i : Input) → Decidable (Meets w i)
  | .accumulate .. => isTrue trivial
  | .settleBatch .. => isTrue trivial
  | .resolved task _ =>
      decidableOfSome (w.resolving.get? task) fun royalty =>
        w.escrow.pendingAmount royalty.creatorId = 0
  | .answered task answer =>
      decidableOfSome (w.settling.get? task) fun t => AnswerMatches w.escrow t answer

end Decide

/-! ## The equation -/

namespace World

variable (w : World)

/-- What the settlements that wait have sent to a creator. -/
def inFlight (creatorId : String) : ℚ :=
  w.settling.total fun _ t => amountFor creatorId t.sent

/-- Counting what is in flight, everything accumulated is paid or pending. -/
def Balanced : Prop :=
  ∀ creatorId, w.accumulated creatorId + w.inFlight creatorId =
    w.paid creatorId + w.escrow.pendingAmount creatorId

def Coherent : Prop := w.settling.All fun _ t => t.Underway

end World

/-! ## A settlement that is over -/

section Done

variable {e : MultiPartyEscrow} {t : Settlement}

theorem all_cleared_iff {payments : List (String × ℚ)}
    (hKeys : payments.map Prod.fst = t.entries.map (·.creatorId))
    (hNodup : (t.entries.map (·.creatorId)).Nodup) :
    (∀ creatorId, amountFor creatorId payments =
      if creatorId ∈ t.entries.map (·.creatorId) then e.pendingAmount creatorId else 0) ↔
      ∀ p ∈ payments, p.2 = e.pendingAmount p.1 := by
  rw [forall_amountFor_eq_iff (hKeys ▸ hNodup) fun creatorId hOff => if_neg (hKeys ▸ hOff)]
  refine forall₂_congr fun p hMem => ?_
  rw [if_pos (hKeys ▸ List.mem_map_of_mem hMem)]

theorem mem_clearedIds_of_failed (hNodup : (t.entries.map (·.creatorId)).Nodup)
    (hFailed : ¬ t.outcomes.all (·) = true) {entry : Entry}
    (hMem : entry ∈ t.entries) :
    entry.creatorId ∈ t.clearedIds ↔
      t.addressToCreator entry.onchainAddress = entry.creatorId ∧
        ∃ p ∈ t.entries.zip t.outcomes,
          p.2 = true ∧ p.1.onchainAddress = entry.onchainAddress := by
  rw [Settlement.clearedIds, if_neg hFailed]
  by_cases hNone : t.outcomes.all (!·) = true
  · rw [if_pos hNone]
    refine iff_of_false List.not_mem_nil ?_
    rintro ⟨-, p, hZip, hSuccess, -⟩
    have hFalse := List.all_eq_true.mp hNone p.2 (List.of_mem_zip hZip).2
    simp [hSuccess] at hFalse
  · rw [if_neg hNone]
    exact Settlement.mem_settledCreators hNodup hMem

theorem transfersMatch_iff (hNodup : (t.entries.map (·.creatorId)).Nodup)
    (hLength : t.outcomes.length = t.entries.length) (hSome : 0 < t.entries.length)
    (hLedger : t.ledger = .transfer) :
    (∀ creatorId, amountFor creatorId t.sent =
      if creatorId ∈ t.clearedIds then e.pendingAmount creatorId else 0) ↔
      TransfersMatch e t := by
  have hKeys : t.sent.map Prod.fst = t.entries.map (·.creatorId) := by
    rw [Settlement.keys_sent hLength.le, hLength, List.take_length]
  unfold TransfersMatch
  by_cases hAll : t.outcomes.all (·) = true
  · have hTrue : ∀ p ∈ t.entries.zip t.outcomes, p.2 = true := fun p hp =>
      List.all_eq_true.mp hAll p.2 (List.of_mem_zip hp).2
    have hCleared : t.clearedIds = t.entries.map (·.creatorId) := by
      obtain ⟨first, hFirst⟩ := List.exists_mem_of_length_pos (hLength.symm ▸ hSome)
      have hNotNone : ¬ t.outcomes.all (!·) = true := by
        intro hNone
        have hNot := List.all_eq_true.mp hNone first hFirst
        have hYes := List.all_eq_true.mp hAll first hFirst
        simp [hYes] at hNot
      rw [Settlement.clearedIds, if_neg hNotNone, if_pos hAll]
    rw [if_pos hAll, hCleared, all_cleared_iff hKeys hNodup, Settlement.sent, StillPending,
      hLedger]
    constructor
    · intro h entry hMem
      have hZipped : entry ∈ (t.entries.zip t.outcomes).map Prod.fst := by
        rwa [List.map_fst_zip hLength.ge]
      obtain ⟨p, hp, rfl⟩ := List.mem_map.mp hZipped
      have hAmount := h _ (List.mem_map_of_mem hp)
      rw [if_pos (hTrue p hp)] at hAmount
      exact hAmount.symm
    · intro h payment hPayment
      obtain ⟨p, hp, rfl⟩ := List.mem_map.mp hPayment
      rw [if_pos (hTrue p hp)]
      exact (h p.1 (List.of_mem_zip hp).1).symm
  · rw [if_neg hAll, forall_amountFor_eq_iff (hKeys ▸ hNodup) fun creatorId hOff =>
      if_neg fun hMem => (hKeys ▸ hOff) (Settlement.clearedIds_subset hMem)]
    rw [Settlement.sent, List.forall_mem_map]
    refine forall₂_congr fun p hp => ?_
    have hCleared := mem_clearedIds_of_failed hNodup hAll (List.of_mem_zip hp).1
    by_cases hNamed : t.addressToCreator p.1.onchainAddress = p.1.creatorId
    · rw [if_pos hNamed]
      by_cases hSome : ∃ q ∈ t.entries.zip t.outcomes,
          q.2 = true ∧ q.1.onchainAddress = p.1.onchainAddress
      · rw [if_pos (hCleared.mpr ⟨hNamed, hSome⟩)]
        exact ⟨fun h _ => h.symm, fun h => (h hSome).symm⟩
      · rw [if_neg fun h => hSome (hCleared.mp h).2]
        have hNot : ¬ p.2 = true := fun h => hSome ⟨p, hp, h, rfl⟩
        rw [if_neg hNot]
        exact ⟨fun _ h => absurd h hSome, fun _ => rfl⟩
    · rw [if_neg hNamed, if_neg fun h => hNamed (hCleared.mp h).1]
      by_cases hSuccess : p.2 = true <;> simp [hSuccess]

theorem of_nextTransfer_done {success : Bool} {settledIds : List String} (h : t.Underway)
    (hDone : t.nextTransfer success = .done settledIds) :
    t.outcomes.length + 1 = t.entries.length ∧
      settledIds = Settlement.clearedIds { t with outcomes := t.outcomes ++ [success] } := by
  unfold Settlement.nextTransfer at hDone
  split at hDone
  case isTrue => cases hDone
  case isFalse hLast =>
      have hLength := h.outcomes_lt
      cases hDone
      exact ⟨by omega, rfl⟩

theorem lastTransfer_iff (h : t.Underway) (hLedger : t.ledger = .transfer) {success : Bool}
    (hLast : t.outcomes.length + 1 = t.entries.length) {payments : List (String × ℚ)}
    (hPayments : ∀ creatorId, amountFor creatorId payments =
      amountFor creatorId [((t.entries.get ⟨t.outcomes.length, h.outcomes_lt⟩).creatorId,
        if success then (t.entries.get ⟨t.outcomes.length, h.outcomes_lt⟩).amount else 0)]) :
    (∀ creatorId, amountFor creatorId t.sent + amountFor creatorId payments =
      if creatorId ∈ Settlement.clearedIds { t with outcomes := t.outcomes ++ [success] } then
        e.pendingAmount creatorId else 0) ↔
      TransfersMatch e { t with outcomes := t.outcomes ++ [success] } := by
  have hLength : (t.outcomes ++ [success]).length = t.entries.length := by
    rw [List.length_append, List.length_singleton, hLast]
  rw [← @transfersMatch_iff e { t with outcomes := t.outcomes ++ [success] } h.nodup hLength
    (show 0 < t.entries.length by omega) hLedger]
  refine forall_congr' fun creatorId => ?_
  rw [Settlement.amountFor_sent_next h, hPayments]

theorem sent_eq_cleared_iff (h : t.Underway) {answer : Answer} {settledIds : List String}
    (hDone : t.resume answer = .done settledIds) :
    (∀ creatorId, amountFor creatorId t.sent + amountFor creatorId (t.payments answer) =
      if creatorId ∈ settledIds then e.pendingAmount creatorId else 0) ↔
      AnswerMatches e t answer := by
  have hEntry := List.getElem?_eq_getElem h.outcomes_lt
  cases answer with
  | raised =>
      have hIds : settledIds = [] := by
        cases hDone
        rfl
      have hNodup := Settlement.nodup_keys_sent h.nodup h.outcomes_lt.le
      subst hIds
      simp only [Settlement.payments, amountFor_nil, add_zero, List.not_mem_nil, if_false]
      rw [forall_amountFor_eq_iff hNodup fun _ _ => rfl, Settlement.sent, List.forall_mem_map,
        AnswerMatches]
      refine forall₂_congr fun p _ => ?_
      by_cases hSuccess : p.2 = true <;> simp [hSuccess]
  | success =>
      rw [AnswerMatches]
      by_cases hLedger : t.ledger = .transfer
      · rw [Settlement.resume, hLedger] at hDone
        obtain ⟨hLast, rfl⟩ := of_nextTransfer_done h hDone
        rw [if_pos hLedger, lastTransfer_iff h hLedger hLast]
        · exact ⟨fun hMatch _ => hMatch, fun hMatch => hMatch hLast⟩
        · intro creatorId
          rw [Settlement.payments, hLedger, hEntry]
          rfl
      · have hAtomic : t.payments .success =
            t.entries.map fun entry => (entry.creatorId, t.ledger.asked entry.amount) := by
          unfold Settlement.payments
          split <;> simp_all
        have hIds : settledIds = t.entries.map (·.creatorId) := by
          unfold Settlement.resume at hDone
          split at hDone <;> simp_all
        have hSent : t.sent = [] := by
          rw [Settlement.sent, h.outcomes_eq_nil hLedger, List.zip_nil_right, List.map_nil]
        subst hIds
        simp only [hSent, amountFor_nil, zero_add]
        rw [if_neg hLedger, hAtomic, all_cleared_iff (by simp) h.nodup, List.forall_mem_map]
        exact forall₂_congr fun _ _ => eq_comm
  | failure =>
      rw [AnswerMatches]
      by_cases hLedger : t.ledger = .transfer
      · rw [Settlement.resume, hLedger] at hDone
        obtain ⟨hLast, rfl⟩ := of_nextTransfer_done h hDone
        rw [lastTransfer_iff h hLedger hLast]
        · exact ⟨fun hMatch _ _ => hMatch, fun hMatch => hMatch hLedger hLast⟩
        · intro creatorId
          simp [Settlement.payments]
      · have hIds : settledIds = [] := by
          unfold Settlement.resume at hDone
          split at hDone <;> simp_all
        have hSent : t.sent = [] := by
          rw [Settlement.sent, h.outcomes_eq_nil hLedger, List.zip_nil_right, List.map_nil]
        subst hIds
        simp [hSent, hLedger, Settlement.payments]

end Done

/-! ## Steps -/

section Steps

variable {w w' : World} {i : Input}

theorem map_entriesOf_sublist (creators : List (String × CreatorAccumulator)) :
    ((MultiPartyEscrow.entriesOf creators).map (·.creatorId)).Sublist
      (creators.map Prod.fst) := by
  unfold MultiPartyEscrow.entriesOf
  induction creators with
  | nil => exact List.Sublist.refl _
  | cons p creators ih =>
      rw [List.filterMap_cons]
      split
      case h_1 => exact ih.cons _
      case h_2 entry hEntry =>
          split at hEntry
          · cases hEntry
            exact ih.cons_cons _
          · cases hEntry

theorem createBatch_spec {e : MultiPartyEscrow} {force : Bool} {now : ℚ} {entries : List Entry}
    (h : e.createBatch force now = some entries) :
    (entries.map (·.creatorId)).Nodup ∧
      ∀ entry ∈ entries, e.pendingAmount entry.creatorId = entry.amount := by
  have hEntries : entries =
      MultiPartyEscrow.entriesOf (e.pending.entries.take e.config.maxBatchSize) := by
    unfold MultiPartyEscrow.createBatch at h
    split at h
    · cases h
    · split at h
      · cases h
      · exact (Option.some.inj h).symm
  subst hEntries
  constructor
  · exact e.pending.nodup.sublist
      ((map_entriesOf_sublist _).trans ((List.take_sublist _ _).map _))
  · intro entry hMem
    obtain ⟨p, hp, hEntry⟩ := List.mem_filterMap.mp hMem
    have hGet := Dict.mem_entries_iff.mp (List.mem_of_mem_take hp)
    split at hEntry
    · cases hEntry
      simp [MultiPartyEscrow.pendingAmount, hGet]
    · cases hEntry

theorem underway_nextTransfer {t t' : Settlement} (h : t.Underway) (hLedger : t.ledger = .transfer)
    {success : Bool} (hNext : t.nextTransfer success = .waiting t') :
    t'.Underway ∧ t' = { t with outcomes := t.outcomes ++ [success] } := by
  unfold Settlement.nextTransfer at hNext
  split at hNext
  case isFalse => cases hNext
  case isTrue hMore =>
      cases hNext
      exact ⟨⟨h.nodup, by simpa using hMore, fun hNot => absurd hLedger hNot⟩, rfl⟩

theorem transfer_of_waiting {t t' : Settlement} {answer : Answer}
    (hWaiting : t.resume answer = .waiting t') :
    t.ledger = .transfer ∧
      (answer = .success ∧ t.nextTransfer true = .waiting t' ∨
        answer = .failure ∧ t.nextTransfer false = .waiting t') := by
  cases answer with
  | raised => cases hWaiting
  | success => cases hLedger : t.ledger <;> simp_all [Settlement.resume]
  | failure => cases hLedger : t.ledger <;> simp_all [Settlement.resume]

theorem of_resume_waiting {t t' : Settlement} (h : t.Underway) {answer : Answer}
    (hWaiting : t.resume answer = .waiting t') :
    t'.Underway ∧ ∀ creatorId, amountFor creatorId t'.sent =
      amountFor creatorId t.sent + amountFor creatorId (t.payments answer) := by
  obtain ⟨hLedger, ⟨rfl, hNext⟩ | ⟨rfl, hNext⟩⟩ := transfer_of_waiting hWaiting
  · obtain ⟨hUnderway, rfl⟩ := underway_nextTransfer h hLedger hNext
    refine ⟨hUnderway, fun creatorId => ?_⟩
    rw [Settlement.amountFor_sent_next h, Settlement.payments, hLedger,
      List.getElem?_eq_getElem h.outcomes_lt]
    rfl
  · obtain ⟨hUnderway, rfl⟩ := underway_nextTransfer h hLedger hNext
    refine ⟨hUnderway, fun creatorId => ?_⟩
    rw [Settlement.amountFor_sent_next h]
    simp [Settlement.payments]

theorem answerMatches_of_waiting {e : MultiPartyEscrow} {t t' : Settlement} {answer : Answer}
    (hWaiting : t.resume answer = .waiting t') : AnswerMatches e t answer := by
  have hMore : ∀ success, t.nextTransfer success = .waiting t' →
      t.outcomes.length + 1 ≠ t.entries.length := by
    intro success hNext
    unfold Settlement.nextTransfer at hNext
    split at hNext
    · omega
    · cases hNext
  obtain ⟨hLedger, ⟨rfl, hNext⟩ | ⟨rfl, hNext⟩⟩ := transfer_of_waiting hWaiting
  · rw [AnswerMatches, if_pos hLedger]
    exact fun hLast => absurd hLast (hMore true hNext)
  · exact fun _ hLast => absurd hLast (hMore false hNext)

theorem coherent_step (h : w.Coherent) (hStep : w.step i = some w') : w'.Coherent := by
  cases i with
  | accumulate task royalty =>
      simp only [World.step] at hStep
      split at hStep
      · split at hStep
        · cases hStep
          exact h
        · cases hStep
      · cases hStep
        exact h
  | resolved task address =>
      obtain ⟨royalty, -, rfl⟩ := Option.map_eq_some_iff.mp hStep
      exact h
  | settleBatch task force now =>
      simp only [World.step] at hStep
      split at hStep
      · cases hStep
        exact h
      · cases hStep
        exact h
      · cases hStep
        exact h
      case h_4 entries ledger hNonempty hBatch hLedger =>
          split at hStep
          · cases hStep
            refine Dict.All.set h ⟨(createBatch_spec hBatch).1, ?_, fun _ => rfl⟩
            exact List.length_pos_of_ne_nil (by simpa using hNonempty)
          · cases hStep
  | answered task answer =>
      obtain ⟨t, hGet, hNext⟩ := Option.map_eq_some_iff.mp hStep
      split at hNext
      case h_1 t' hWaiting =>
          subst hNext
          exact Dict.All.set h (of_resume_waiting (h task t hGet) hWaiting).1
      case h_2 settledIds hDone =>
          subst hNext
          exact Dict.All.erase h task

theorem balanced_done_iff {task : Nat} {t : Settlement} {answer : Answer}
    {settledIds : List String} (h : w.Coherent) (hBalanced : w.Balanced)
    (hGet : w.settling.get? task = some t) (hDone : t.resume answer = .done settledIds) :
    World.Balanced
        { w with
          escrow := w.escrow.clearSettled settledIds
          settling := w.settling.erase task
          paid := credit w.paid (t.payments answer) } ↔
      AnswerMatches w.escrow t answer := by
  rw [← sent_eq_cleared_iff (h task t hGet) hDone]
  refine forall_congr' fun creatorId => ?_
  have hHere := hBalanced creatorId
  have hFlight :=
    Dict.total_erase (fun _ t => amountFor creatorId t.sent) w.settling task
  rw [Dict.part_of_some hGet] at hFlight
  simp only [World.inFlight, credit, pendingAmount_clearSettled] at hHere ⊢
  split
  · constructor <;> intro hEq <;> linarith
  · constructor <;> intro hEq <;> linarith

theorem balanced_step_iff (h : w.Coherent) (hBalanced : w.Balanced) (hStep : w.step i = some w') :
    w'.Balanced ↔ Meets w i := by
  cases i with
  | accumulate task royalty =>
      refine iff_of_true ?_ trivial
      simp only [World.step] at hStep
      split at hStep
      · split at hStep
        · cases hStep
          exact hBalanced
        · cases hStep
      · cases hStep
        intro creatorId
        have hHere := hBalanced creatorId
        simp only [World.inFlight, credit, pendingAmount_accumulate] at hHere ⊢
        linarith
  | resolved task address =>
      obtain ⟨royalty, hGet, rfl⟩ := Option.map_eq_some_iff.mp hStep
      have hMeets : Meets w (.resolved task address) ↔
          w.escrow.pendingAmount royalty.creatorId = 0 := by
        simp [Meets, hGet]
      rw [hMeets]
      constructor
      · intro hAfter
        have hHere := hBalanced royalty.creatorId
        have hThere := hAfter royalty.creatorId
        simp only [World.inFlight, credit, pendingAmount_startAccumulator, amountFor_cons,
          amountFor_nil, if_true] at hHere hThere
        linarith
      · intro hNone creatorId
        have hHere := hBalanced creatorId
        simp only [World.inFlight, credit, pendingAmount_startAccumulator, amountFor_cons,
          amountFor_nil] at hHere ⊢
        by_cases hCreator : creatorId = royalty.creatorId
        · subst hCreator
          rw [if_pos rfl, if_pos rfl]
          linarith
        · rw [if_neg hCreator, if_neg (Ne.symm hCreator)]
          linarith
  | settleBatch task force now =>
      refine iff_of_true ?_ trivial
      simp only [World.step] at hStep
      split at hStep
      · cases hStep
        exact hBalanced
      case h_2 entries hBatch hLedger =>
          cases hStep
          obtain ⟨hNodup, hAmounts⟩ := createBatch_spec hBatch
          intro creatorId
          have hHere := hBalanced creatorId
          have hPaid := (@all_cleared_iff w.escrow ⟨.transfer, entries, []⟩
            (entries.map fun entry => (entry.creatorId, entry.amount)) (by simp) hNodup).mpr
            (List.forall_mem_map.mpr fun entry hMem => (hAmounts entry hMem).symm) creatorId
          simp only [World.inFlight, credit, pendingAmount_clearSettled] at hHere hPaid ⊢
          rw [hPaid]
          split <;> linarith
      · cases hStep
        exact hBalanced
      case h_4 entries ledger _ _ _ =>
        split at hStep
        case isTrue hFree =>
            cases hStep
            intro creatorId
            have hHere := hBalanced creatorId
            have hFlight := @Dict.total_set _ _ _ _ _ (fun _ t => amountFor creatorId t.sent)
              w.settling task ⟨ledger, entries, []⟩
            rw [Dict.part_of_none hFree, Settlement.sent, List.zip_nil_right, List.map_nil,
              amountFor_nil] at hFlight
            simp only [World.inFlight] at hHere ⊢
            linarith
        case isFalse => cases hStep
  | answered task answer =>
      obtain ⟨t, hGet, hNext⟩ := Option.map_eq_some_iff.mp hStep
      have hMeets : Meets w (.answered task answer) ↔ AnswerMatches w.escrow t answer := by
        simp [Meets, hGet]
      rw [hMeets]
      split at hNext
      case h_1 t' hWaiting =>
          subst hNext
          obtain ⟨hUnderway, hSent⟩ := of_resume_waiting (h task t hGet) hWaiting
          refine iff_of_true (fun creatorId => ?_) (answerMatches_of_waiting hWaiting)
          have hHere := hBalanced creatorId
          have hFlight := @Dict.total_set _ _ _ _ _ (fun _ t => amountFor creatorId t.sent)
            w.settling task t'
          rw [Dict.part_of_some hGet, hSent] at hFlight
          simp only [World.inFlight, credit] at hHere ⊢
          linarith
      case h_2 settledIds hDone =>
          subst hNext
          exact balanced_done_iff h hBalanced hGet hDone

end Steps

theorem inFlight_of_quiescent {w : World} (h : w.Quiescent) (creatorId : String) :
    w.inFlight creatorId = 0 := by
  rw [World.inFlight, Dict.total, h.2]
  rfl

theorem balanced_iff_of_quiescent {w : World} (h : w.Quiescent) :
    w.Balanced ↔ ∀ creatorId,
      w.accumulated creatorId = w.paid creatorId + w.escrow.pendingAmount creatorId := by
  refine forall_congr' fun creatorId => ?_
  rw [inFlight_of_quiescent h, add_zero]

theorem balanced_newEscrow (ftnsLedger : Option LedgerKind) (config : EscrowConfig)
    (creatorRegistry : Bool) : (newEscrow ftnsLedger config creatorRegistry).Balanced := by
  intro creatorId
  rfl

theorem coherent_newEscrow (ftnsLedger : Option LedgerKind) (config : EscrowConfig)
    (creatorRegistry : Bool) : (newEscrow ftnsLedger config creatorRegistry).Coherent :=
  Dict.all_empty _

def batchLedger : World := newEscrow (some .transferBatch) {} false

def royaltyOf (creatorId : String) (amount : ℚ) : PendingRoyalty where
  creatorId := creatorId
  amount := amount
  sourceCid := "cid"
  accessorId := "accessor"
  timestamp := 1
  creatorAddress := some ("0x" ++ creatorId)

def settledRun : List Input :=
  [.accumulate 0 (royaltyOf "alice" 5), .accumulate 0 (royaltyOf "bob" 2),
    .settleBatch 0 true 10, .answered 0 .success, .accumulate 0 (royaltyOf "alice" 3)]

def lateRoyaltyRun : List Input :=
  [.accumulate 0 (royaltyOf "alice" 5), .accumulate 0 (royaltyOf "bob" 2),
    .settleBatch 0 true 10, .accumulate 0 (royaltyOf "alice" 3), .answered 0 .success]

end Prsm.RoyaltyBatches
