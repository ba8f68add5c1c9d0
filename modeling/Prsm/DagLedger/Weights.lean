import Prsm.DagLedger.WeightMethods

/-!
# Cumulative weights

The cumulative weight of a transaction is to be 1 plus the number of those that approve it,
directly or through others.  An approval through others is not counted.
-/

namespace Prsm.DagLedger

open Foundations

/-! ## Submissions one after the other -/

/-- A submission with the moments at which its requests are answered. -/
abbrev LoneSubmission := Submission × List Moment

/-- The ledger, with `submit_transaction` called again and again and every call at its end
before the next one.  A call that raises is no step. -/
def submissions (lib : Library) (verifySignatures : Bool) : Machine Ledger LoneSubmission where
  step := fun l call =>
    match (submitTransaction lib verifySignatures call.1).alone (Ledger.serve 0) call.2 l with
    | some (.ok _, l') => some l'
    | _ => none

namespace Weights

variable (w : Weights)

def Holds (txId : String) (tx : DAGTransaction) : Prop :=
  w.stored.get? txId = some tx ∨ w.loaded.get? txId = some tx

/-- The stored transaction `child` names `parent`. -/
def Names (child parent : String) : Prop :=
  ∃ tx, w.stored.get? child = some tx ∧ parent ∈ tx.parentIds

/-- The stored transactions from which one is reached through parent links. -/
def approvers (txId : String) : Set String :=
  {approver | Relation.TransGen w.Names approver txId}

/-- Cumulative weight: 1 + number of transactions approving this one. -/
def Count : Prop :=
  ∀ txId tx, w.Holds txId tx → tx.cumulativeWeight = 1 + (w.approvers txId).ncard

/-- The confirmation level is that of the weight. -/
def LevelsFollow : Prop :=
  ∀ txId tx, w.Holds txId tx → tx.confirmationLevel = min 1 ((tx.cumulativeWeight : ℚ) / 100)

/-- Nothing is stored but the first transaction, and it is in memory too. -/
def OnlyGenesis : Prop :=
  (∀ row ∈ w.stored.entries, row.1 = genesis.txId) ∧ (w.loaded.get? genesis.txId).isSome

instance : Decidable w.OnlyGenesis := inferInstanceAs (Decidable (_ ∧ _))

end Weights

variable {lib : Library} {verifySignatures : Bool} {l l' : Ledger} {call : LoneSubmission}

theorem of_submissions_step (h : (submissions lib verifySignatures).step l call = some l') :
    ∃ a, (submitTransaction lib verifySignatures call.1).alone (Ledger.serve 0) call.2 l =
      some (.ok a, l') := by
  simp only [submissions] at h
  split at h
  case h_1 a l'' hAlone =>
    cases h
    exact ⟨a, hAlone⟩
  case h_2 => cases h

section Runs

variable {w : Weights} {tx : DAGTransaction} {lib : Library} {verifySignatures : Bool}

theorem parentIds_buildTransaction {l : Ledger} {s : Submission} {tip : String}
    (hOrder : ∀ tips, (lib.setOrder tips).Perm tips) (hTips : l.memory.tips = [tip]) :
    (buildTransaction lib s l).parentIds = [tip] := by
  have hSame : lib.setOrder [tip] = [tip] := List.perm_singleton.mp (hOrder [tip])
  show selectTipsMcmc lib l (min 4 l.memory.tips.length) = [tip]
  simp [selectTipsMcmc, hTips, hSame]

theorem stored_buildTransaction {l : Ledger} {s : Submission} (hNew : ¬l.weights.Repeats s)
    (hDrawn : l.weights.stored.get? s.txId = none) :
    l.weights.stored.get? (buildTransaction lib s l).txId = none := by
  show l.weights.stored.get? ((truthy s.idempotentTxId).getD s.txId) = none
  cases hKey : s.idempotentTxId with
  | none => exact hDrawn
  | some txId =>
      by_cases hEmpty : txId = ""
      · simpa [truthy, hEmpty, Option.filter] using hDrawn
      · have hNone : l.weights.find? txId = none := by
          by_contra hSome
          apply hNew
          rw [Weights.Repeats, hKey, Option.bind_some]
          exact Option.isSome_iff_ne_none.mpr hSome
        simpa [truthy, hEmpty, Option.filter] using (Option.or_eq_none_iff.mp hNone).2

/-! ### The levels -/

/-- A transaction that nothing has approved is at level 0. -/
def Weights.HasUnconfirmed (w : Weights) : Prop :=
  ∃ txId tx, w.Holds txId tx ∧ tx.cumulativeWeight = 1 ∧ tx.confirmationLevel = 0

theorem Weights.HasUnconfirmed.not_levelsFollow (h : w.HasUnconfirmed) : ¬w.LevelsFollow := by
  obtain ⟨txId, tx, hHolds, hWeight, hLevel⟩ := h
  intro hFollow
  have hSame := hFollow txId tx hHolds
  rw [hWeight, hLevel] at hSame
  norm_num at hSame

theorem Weights.HasUnconfirmed.find {txId : String} (h : w.HasUnconfirmed)
    (hFound : w.find? txId = some tx) :
    { w with loaded := w.loaded.set txId tx }.HasUnconfirmed := by
  obtain ⟨other, unconfirmed, hHolds | hHolds, hRest⟩ := h
  · exact ⟨other, unconfirmed, .inl hHolds, hRest⟩
  · refine ⟨other, unconfirmed, .inr ?_, hRest⟩
    rw [Dict.get?_set]
    split
    case isTrue hSame =>
      subst hSame
      rw [find?, hHolds, Option.some_or] at hFound
      exact hFound.symm
    case isFalse => exact hHolds

theorem hasUnconfirmed_step {l l' : Ledger} {call : LoneSubmission}
    (h : l.weights.HasUnconfirmed)
    (hStep : (submissions lib verifySignatures).step l call = some l') :
    l'.weights.HasUnconfirmed := by
  obtain ⟨a, hAlone⟩ := of_submissions_step hStep
  have hEnsured : (submitTransaction lib verifySignatures call.1).Ensures (Ledger.serve 0)
      (fun _ l' => l'.weights.HasUnconfirmed) l := by
    apply ensures_submitTransaction
    · exact fun txId tx _ hFound => h.find hFound
    · intro checked l₁ _ _
      refine ensures_writeTransaction_loaded.imp fun _ l₂ hLoaded => ?_
      exact ⟨_, _, .inr hLoaded, rfl, rfl⟩
  exact hEnsured.alone hAlone

/-! ### The first transactions -/

namespace Weights

/-- Nothing but the genesis transaction. -/
structure Fresh (w : Weights) : Prop where
  stored : ∀ txId t, w.stored.get? txId = some t ↔ txId = genesis.txId ∧ t = genesis
  loaded : ∀ txId t, w.loaded.get? txId = some t → txId = genesis.txId ∧ t = genesis
  tips : w.tips = [genesis.txId]

/-- One transaction, which has approved the genesis transaction. -/
structure Once (w : Weights) (tx : DAGTransaction) : Prop where
  new : tx.txId ≠ genesis.txId
  parents : tx.parentIds = [genesis.txId]
  weight : tx.cumulativeWeight = 1
  stored : ∀ txId t, w.stored.get? txId = some t ↔
    txId = tx.txId ∧ t = tx ∨ txId = genesis.txId ∧ t = genesis.approved
  loaded : ∀ txId t, w.loaded.get? txId = some t →
    txId = tx.txId ∧ t = tx ∨ txId = genesis.txId ∧ t = genesis.approved
  tips : w.tips = [tx.txId]

theorem finite_approvers (txId : String) : (w.approvers txId).Finite := by
  apply (w.stored.entries.map Prod.fst).finite_toSet.subset
  intro approver hReaches
  obtain ⟨next, ⟨t, hStored, -⟩, -⟩ := Relation.TransGen.head'_iff.mp hReaches
  show approver ∈ w.stored.entries.map Prod.fst
  exact List.mem_map.mpr ⟨(approver, t), Dict.mem_entries_iff.mpr hStored, rfl⟩

variable {txId tip : String} {t : DAGTransaction}

theorem approvers_eq_empty (h : ∀ child, ¬w.Names child txId) :
    w.approvers txId = ∅ := by
  ext approver
  simp only [Set.mem_empty_iff_false, iff_false]
  intro hReaches
  obtain ⟨child, -, hNames⟩ := Relation.TransGen.tail'_iff.mp hReaches
  exact h child hNames

theorem Fresh.count (h : w.Fresh) : w.Count := by
  have hNames : ∀ child parent, ¬w.Names child parent := by
    rintro child parent ⟨t, hStored, hParent⟩
    obtain ⟨-, rfl⟩ := (h.stored child t).mp hStored
    cases hParent
  have hGenesis : ∀ txId t, w.Holds txId t → t = genesis := by
    rintro txId t (hStored | hLoaded)
    · exact ((h.stored txId t).mp hStored).2
    · exact (h.loaded txId t hLoaded).2
  intro txId t hHolds
  rw [hGenesis txId t hHolds, approvers_eq_empty fun child => hNames child txId, Set.ncard_empty]
  rfl

theorem Once.names_iff (h : w.Once tx) (child parent : String) :
    w.Names child parent ↔ child = tx.txId ∧ parent = genesis.txId := by
  constructor
  · rintro ⟨t, hStored, hParent⟩
    rcases (h.stored child t).mp hStored with ⟨rfl, rfl⟩ | ⟨rfl, rfl⟩
    · rw [h.parents] at hParent
      exact ⟨rfl, List.mem_singleton.mp hParent⟩
    · cases hParent
  · rintro ⟨rfl, rfl⟩
    refine ⟨tx, (h.stored _ _).mpr (.inl ⟨rfl, rfl⟩), ?_⟩
    rw [h.parents]
    exact List.mem_singleton_self _

theorem Once.count (h : w.Once tx) : w.Count := by
  have hGenesis : w.approvers genesis.txId = {tx.txId} := by
    ext approver
    constructor
    · intro hReaches
      obtain ⟨next, hNames, -⟩ := Relation.TransGen.head'_iff.mp hReaches
      exact ((h.names_iff approver next).mp hNames).1
    · rintro rfl
      exact .single ((h.names_iff _ _).mpr ⟨rfl, rfl⟩)
  have hNew : w.approvers tx.txId = ∅ :=
    approvers_eq_empty fun child hNames => h.new ((h.names_iff child _).mp hNames).2
  have hCases : ∀ txId t, w.Holds txId t →
      txId = tx.txId ∧ t = tx ∨ txId = genesis.txId ∧ t = genesis.approved := by
    rintro txId t (hStored | hLoaded)
    · exact (h.stored txId t).mp hStored
    · exact h.loaded txId t hLoaded
  intro txId t hHolds
  rcases hCases txId t hHolds with ⟨rfl, rfl⟩ | ⟨rfl, rfl⟩
  · rw [hNew, Set.ncard_empty, h.weight]
  · rw [hGenesis, Set.ncard_singleton]
    rfl

theorem Fresh.of_find (h : w.Fresh)
    (hFound : w.find? txId = some t) : txId = genesis.txId ∧ t = genesis := by
  rcases Option.or_eq_some_iff.mp hFound with hLoaded | ⟨-, hStored⟩
  · exact h.loaded txId t hLoaded
  · exact (h.stored txId t).mp hStored

theorem Once.of_find (h : w.Once tx)
    (hFound : w.find? txId = some t) :
    txId = tx.txId ∧ t = tx ∨ txId = genesis.txId ∧ t = genesis.approved := by
  rcases Option.or_eq_some_iff.mp hFound with hLoaded | ⟨-, hStored⟩
  · exact h.loaded txId t hLoaded
  · exact (h.stored txId t).mp hStored

theorem Fresh.find (h : w.Fresh)
    (hFound : w.find? txId = some t) : { w with loaded := w.loaded.set txId t }.Fresh := by
  refine ⟨h.stored, fun other u hLoaded => ?_, h.tips⟩
  rw [Dict.get?_set] at hLoaded
  split at hLoaded
  case isTrue hSame =>
    obtain rfl := Option.some.inj hLoaded
    exact hSame ▸ h.of_find hFound
  case isFalse => exact h.loaded other u hLoaded

theorem Once.find (h : w.Once tx)
    (hFound : w.find? txId = some t) : { w with loaded := w.loaded.set txId t }.Once tx := by
  refine ⟨h.new, h.parents, h.weight, h.stored, fun other u hLoaded => ?_, h.tips⟩
  rw [Dict.get?_set] at hLoaded
  split at hLoaded
  case isTrue hSame =>
    obtain rfl := Option.some.inj hLoaded
    exact hSame ▸ h.of_find hFound
  case isFalse => exact h.loaded other u hLoaded

/-! What is stored after a transaction is added. -/

theorem stored_add_of_not_loaded (h : w.loaded.get? tip = none) (txId : String) :
    (w.add tx tip).stored.get? txId =
      if txId = tx.txId then some tx else w.stored.get? txId := by
  simp only [add, approve, h, Dict.get?_set, Dict.get?_erase]
  split <;> rfl

theorem stored_add_of_loaded {row : DAGTransaction} (hTip : tip ≠ tx.txId)
    (h : w.loaded.get? tip = some t) (hRow : w.stored.get? tip = some row) (txId : String) :
    (w.add tx tip).stored.get? txId =
      if txId = tip then some { row with
        cumulativeWeight := t.approved.cumulativeWeight
        confirmationLevel := t.approved.confirmationLevel }
      else if txId = tx.txId then some tx else w.stored.get? txId := by
  simp only [add, approve, h, Dict.get?_set, Dict.get?_erase, hTip, if_false, hRow]
  split
  · rfl
  · split <;> rfl

theorem loaded_add_of_loaded
    (h : w.loaded.get? tip = some t) (txId : String) :
    (w.add tx tip).loaded.get? txId =
      if txId = tx.txId then some tx
      else if txId = tip then some t.approved else w.loaded.get? txId := by
  simp only [add, approve, h, Dict.get?_set]

theorem tips_add (tip : String) : (w.add tx tip).tips = [tx.txId] := by
  show (approve _ tip).tips = _
  unfold approve
  split <;> rfl

theorem names_add {child parent : String} (hTip : tip ≠ tx.txId) (hChild : child ≠ tx.txId)
    (hRow : (w.stored.get? tip).isSome) (h : w.Names child parent) :
    (w.add tx tip).Names child parent := by
  obtain ⟨t, hStored, hParent⟩ := h
  obtain ⟨row, hSome⟩ := Option.isSome_iff_exists.mp hRow
  cases hLoaded : w.loaded.get? tip with
  | none =>
      refine ⟨t, ?_, hParent⟩
      rw [stored_add_of_not_loaded hLoaded, if_neg hChild, hStored]
  | some loaded =>
      by_cases hSame : child = tip
      · subst hSame
        obtain rfl : row = t := Option.some.inj (hSome.symm.trans hStored)
        refine ⟨{ row with
          cumulativeWeight := loaded.approved.cumulativeWeight
          confirmationLevel := loaded.approved.confirmationLevel }, ?_, hParent⟩
        rw [stored_add_of_loaded hTip hLoaded hSome, if_pos rfl]
      · refine ⟨t, ?_, hParent⟩
        rw [stored_add_of_loaded hTip hLoaded hSome, if_neg hSame, if_neg hChild, hStored]

theorem stored_add_of_ne (hTip : tip ≠ tx.txId) (hNew : txId ≠ tx.txId)
    (hOther : txId ≠ tip) (hRow : (w.stored.get? tip).isSome) :
    (w.add tx tip).stored.get? txId = w.stored.get? txId := by
  obtain ⟨row, hSome⟩ := Option.isSome_iff_exists.mp hRow
  cases hLoaded : w.loaded.get? tip with
  | none => rw [stored_add_of_not_loaded hLoaded, if_neg hNew]
  | some loaded => rw [stored_add_of_loaded hTip hLoaded hSome, if_neg hOther, if_neg hNew]

theorem names_add_self {parent : String} (hTip : tip ≠ tx.txId)
    (hRow : (w.stored.get? tip).isSome) (hParent : parent ∈ tx.parentIds) :
    (w.add tx tip).Names tx.txId parent := by
  obtain ⟨row, hSome⟩ := Option.isSome_iff_exists.mp hRow
  refine ⟨tx, ?_, hParent⟩
  cases hLoaded : w.loaded.get? tip with
  | none => rw [stored_add_of_not_loaded hLoaded, if_pos rfl]
  | some loaded => rw [stored_add_of_loaded hTip hLoaded hSome, if_neg hTip.symm, if_pos rfl]

theorem Fresh.add (h : w.Fresh) (hLoaded : (w.loaded.get? genesis.txId).isSome)
    (hNew : w.stored.get? tx.txId = none) (hParents : tx.parentIds = [genesis.txId])
    (hWeight : tx.cumulativeWeight = 1) : (w.add tx genesis.txId).Once tx := by
  obtain ⟨t, hSome⟩ := Option.isSome_iff_exists.mp hLoaded
  obtain ⟨-, rfl⟩ := h.loaded _ _ hSome
  have hRow : w.stored.get? genesis.txId = some genesis := (h.stored _ _).mpr ⟨rfl, rfl⟩
  have hOther : tx.txId ≠ genesis.txId := by
    intro hSame
    rw [hSame, hRow] at hNew
    cases hNew
  refine ⟨hOther, hParents, hWeight, fun txId t => ?_, fun txId t hHeld => ?_, tips_add _⟩
  · rw [stored_add_of_loaded hOther.symm hSome hRow]
    by_cases hGenesis : txId = genesis.txId
    · subst hGenesis
      simp only [if_true, hOther.symm, false_and, true_and, false_or, Option.some.injEq]
      exact eq_comm
    · by_cases hHere : txId = tx.txId
      · simp [hHere, hOther, eq_comm]
      · simp only [hGenesis, hHere, if_false, false_and, or_self, iff_false]
        exact fun hStored => hGenesis ((h.stored txId t).mp hStored).1
  · rw [loaded_add_of_loaded hSome] at hHeld
    split at hHeld
    case isTrue hHere => exact .inl ⟨hHere, (Option.some.inj hHeld).symm⟩
    case isFalse =>
      split at hHeld
      case isTrue hGenesis => exact .inr ⟨hGenesis, (Option.some.inj hHeld).symm⟩
      case isFalse hOther => exact absurd (h.loaded txId t hHeld).1 hOther

theorem Fresh.not_count_add (h : w.Fresh) (hLoaded : w.loaded.get? genesis.txId = none)
    (hNew : w.stored.get? tx.txId = none) (hParents : tx.parentIds = [genesis.txId]) :
    ¬(w.add tx genesis.txId).Count := by
  have hRow : w.stored.get? genesis.txId = some genesis := (h.stored _ _).mpr ⟨rfl, rfl⟩
  have hOther : genesis.txId ≠ tx.txId := by
    intro hSame
    rw [← hSame, hRow] at hNew
    cases hNew
  intro hCount
  have hHolds : (w.add tx genesis.txId).Holds genesis.txId genesis :=
    .inl (by rw [stored_add_of_not_loaded hLoaded, if_neg hOther, hRow])
  have hWeight := hCount _ _ hHolds
  have hApproves : tx.txId ∈ (w.add tx genesis.txId).approvers genesis.txId :=
    .single (names_add_self hOther (by simp [hRow]) (by simp [hParents]))
  have hPos := (Set.ncard_pos (finite_approvers _)).mpr ⟨_, hApproves⟩
  have hOne : genesis.cumulativeWeight = 1 := rfl
  omega

theorem Once.not_count_add {tx' : DAGTransaction} (h : w.Once tx)
    (hNew : w.stored.get? tx'.txId = none) (hParents : tx'.parentIds = [tx.txId]) :
    ¬(w.add tx' tx.txId).Count := by
  have hFirst : w.stored.get? tx.txId = some tx := (h.stored _ _).mpr (.inl ⟨rfl, rfl⟩)
  have hGenesis : w.stored.get? genesis.txId = some genesis.approved :=
    (h.stored _ _).mpr (.inr ⟨rfl, rfl⟩)
  have hNotFirst : tx.txId ≠ tx'.txId := by
    intro hSame
    rw [← hSame, hFirst] at hNew
    cases hNew
  have hNotGenesis : genesis.txId ≠ tx'.txId := by
    intro hSame
    rw [← hSame, hGenesis] at hNew
    cases hNew
  have hRow : (w.stored.get? tx.txId).isSome := by simp [hFirst]
  intro hCount
  have hHolds : (w.add tx' tx.txId).Holds genesis.txId genesis.approved :=
    .inl ((stored_add_of_ne hNotFirst hNotGenesis h.new.symm hRow).trans hGenesis)
  have hWeight := hCount _ _ hHolds
  have hDirect : (w.add tx' tx.txId).Names tx.txId genesis.txId :=
    names_add hNotFirst hNotFirst hRow ((h.names_iff _ _).mpr ⟨rfl, rfl⟩)
  have hIndirect : (w.add tx' tx.txId).Names tx'.txId tx.txId :=
    names_add_self hNotFirst hRow (by simp [hParents])
  have hBoth : {tx.txId, tx'.txId} ⊆ (w.add tx' tx.txId).approvers genesis.txId := by
    rintro approver (rfl | rfl)
    · exact .single hDirect
    · exact .head hIndirect (.single hDirect)
  have hTwo := Set.ncard_le_ncard hBoth (finite_approvers _)
  rw [Set.ncard_pair hNotFirst] at hTwo
  have hGenesisWeight : genesis.approved.cumulativeWeight = 2 := rfl
  omega

end Weights

/-! ### One call after the other -/

theorem fresh_initializeLedger (now : ℚ) :
    (initializeLedger .empty now).weights.Fresh := by
  refine ⟨fun txId t => ?_, fun txId t h => ?_, rfl⟩
  · show ((∅ : Dict String DAGTransaction).set genesis.txId genesis).get? txId = some t ↔ _
    rw [Dict.get?_set]
    by_cases hSame : txId = genesis.txId
    · simp [hSame, eq_comm]
    · simp [hSame]
  · cases h

theorem weights_step {l l' : Ledger} {call : LoneSubmission} {tip : String}
    (hOrder : ∀ tips, (lib.setOrder tips).Perm tips) (hTips : l.weights.tips = [tip])
    (hUnnamed : l.weights.Unnamed tip) (hDrawn : l.weights.stored.get? call.1.txId = none)
    (hStep : (submissions lib verifySignatures).step l call = some l') :
    (l.weights.Repeats call.1 ∧ ∃ txId t, l.weights.find? txId = some t ∧
      l'.weights = { l.weights with loaded := l.weights.loaded.set txId t }) ∨
    (¬l.weights.Repeats call.1 ∧ ∃ tx : DAGTransaction,
      l.weights.stored.get? tx.txId = none ∧ tx.parentIds = [tip] ∧ tx.cumulativeWeight = 1 ∧
        l'.weights = l.weights.add tx tip) := by
  obtain ⟨a, hAlone⟩ := of_submissions_step hStep
  let Outcome : Weights → Prop := fun w =>
    (l.weights.Repeats call.1 ∧ ∃ txId t, l.weights.find? txId = some t ∧
      w = { l.weights with loaded := l.weights.loaded.set txId t }) ∨
    (¬l.weights.Repeats call.1 ∧ ∃ tx : DAGTransaction,
      l.weights.stored.get? tx.txId = none ∧ tx.parentIds = [tip] ∧ tx.cumulativeWeight = 1 ∧
        w = l.weights.add tx tip)
  have hEnsured : (submitTransaction lib verifySignatures call.1).Ensures (Ledger.serve 0)
      (fun _ l' => Outcome l'.weights) l := by
    apply ensures_submitTransaction
    · intro txId tx hKey hFound
      exact .inl ⟨by simp [Weights.Repeats, hKey, hFound], txId, tx, hFound, rfl⟩
    · intro checked l₁ hNew hSame
      have hTips₁ : l₁.memory.tips = [tip] := (congrArg Weights.tips hSame).trans hTips
      have hParents := parentIds_buildTransaction (s := call.1) hOrder hTips₁
      refine ensures_writeTransaction hTips₁ hParents (hSame ▸ hUnnamed) fun l₂ h₂ => .inr ?_
      rw [hSame] at h₂
      refine ⟨hNew, _, ?_, hParents, rfl, h₂⟩
      rw [← hSame] at hNew hDrawn ⊢
      exact stored_buildTransaction hNew hDrawn
  exact hEnsured.alone hAlone

/-- No more than one transaction, counted. -/
def Weights.Started (w : Weights) : Prop := w.Fresh ∨ ∃ tx, w.Once tx

theorem Weights.Fresh.unnamed (h : w.Fresh) : w.Unnamed genesis.txId := by
  intro txId t hLoaded hNamed
  obtain ⟨-, rfl⟩ := h.loaded txId t hLoaded
  cases hNamed

theorem Weights.Once.unnamed (h : w.Once tx) : w.Unnamed tx.txId := by
  intro txId t hLoaded hNamed
  rcases h.loaded txId t hLoaded with ⟨rfl, rfl⟩ | ⟨rfl, rfl⟩
  · rw [h.parents] at hNamed
    exact h.new (List.mem_singleton.mp hNamed)
  · cases hNamed

theorem started_step {l l' : Ledger} {call : LoneSubmission}
    (hOrder : ∀ tips, (lib.setOrder tips).Perm tips) (h : l.weights.Started)
    (hDrawn : l.weights.stored.get? call.1.txId = none)
    (hStep : (submissions lib verifySignatures).step l call = some l') :
    (l.weights.Repeats call.1 ∨ l.weights.OnlyGenesis) ∧ l'.weights.Started ∨
      ¬(l.weights.Repeats call.1 ∨ l.weights.OnlyGenesis) ∧ ¬l'.weights.Count := by
  rcases h with hFresh | ⟨tx, hOnce⟩
  · rcases weights_step hOrder hFresh.tips hFresh.unnamed hDrawn hStep with
      ⟨hRepeats, txId, t, hFound, hAfter⟩ | ⟨hNew, tx, hAbsent, hParents, hWeight, hAfter⟩
    · rw [hAfter]
      exact .inl ⟨.inl hRepeats, .inl (hFresh.find hFound)⟩
    · rw [hAfter]
      have hOnly : ∀ row ∈ l.weights.stored.entries, row.1 = genesis.txId :=
        fun row hRow => ((hFresh.stored row.1 row.2).mp (Dict.mem_entries_iff.mp hRow)).1
      by_cases hLoaded : (l.weights.loaded.get? genesis.txId).isSome
      · exact .inl ⟨.inr ⟨hOnly, hLoaded⟩,
          .inr ⟨tx, hFresh.add hLoaded hAbsent hParents hWeight⟩⟩
      · have hNone : l.weights.loaded.get? genesis.txId = none := by simpa using hLoaded
        refine .inr ⟨?_, hFresh.not_count_add hNone hAbsent hParents⟩
        rintro (hRepeats | hOnlyGenesis)
        · exact hNew hRepeats
        · exact hLoaded hOnlyGenesis.2
  · rcases weights_step hOrder hOnce.tips hOnce.unnamed hDrawn hStep with
      ⟨hRepeats, txId, t, hFound, hAfter⟩ | ⟨hNew, tx', hAbsent, hParents, -, hAfter⟩
    · rw [hAfter]
      exact .inl ⟨.inl hRepeats, .inr ⟨tx, hOnce.find hFound⟩⟩
    · rw [hAfter]
      refine .inr ⟨?_, hOnce.not_count_add hAbsent hParents⟩
      rintro (hRepeats | hOnlyGenesis)
      · exact hNew hRepeats
      · have hFirst := (hOnce.stored tx.txId tx).mpr (.inl ⟨rfl, rfl⟩)
        exact hOnce.new (hOnlyGenesis.1 (tx.txId, tx) (Dict.mem_entries_iff.mpr hFirst))

/-- In no state that successful submissions reach are all confirmation levels those of the
weights, since what nothing has approved yet is at level 0.  The weights count the approvers
in every state if and only if no call stores a transaction, except the first, and that with
the genesis transaction in memory: an indirect approval is not counted. -/
theorem weights_count_iff (hOrder : ∀ tips, (lib.setOrder tips).Perm tips) (now : ℚ)
    {calls : List LoneSubmission}
    (hDrawn : (submissions lib verifySignatures).EveryStep
      (fun l call => l.weights.stored.get? call.1.txId = none)
      (initializeLedger .empty now) calls) :
    (submissions lib verifySignatures).EveryState (fun l => ¬l.weights.LevelsFollow)
        (initializeLedger .empty now) calls ∧
      ((submissions lib verifySignatures).EveryState (fun l => l.weights.Count)
          (initializeLedger .empty now) calls ↔
        (submissions lib verifySignatures).EveryStep
          (fun l call => l.weights.Repeats call.1 ∨ l.weights.OnlyGenesis)
          (initializeLedger .empty now) calls) := by
  constructor
  · have hUnconfirmed : (initializeLedger .empty now).weights.HasUnconfirmed :=
      ⟨genesis.txId, genesis, .inl (((fresh_initializeLedger now).stored _ _).mpr ⟨rfl, rfl⟩),
        rfl, rfl⟩
    intro visited _
    refine Weights.HasUnconfirmed.not_levelsFollow ?_
    exact (submissions lib verifySignatures).run_invariant (fun l => l.weights.HasUnconfirmed)
      (fun l call l' => hasUnconfirmed_step) hUnconfirmed visited
  · refine Machine.everyState_iff_everyStep_within_while _ (fun l : Ledger => l.weights.Started)
      (fun l => l.weights.Count) _ _
      (fun l call l' hStarted hNew _ hCount hStep => ?_)
      (fun l call l' hStarted hNew _ hStep => ?_)
      (.inl (fresh_initializeLedger now)) (fresh_initializeLedger now).count hDrawn
    · rcases started_step hOrder hStarted hNew hStep with ⟨-, hNext⟩ | ⟨-, hWrong⟩
      · exact hNext
      · exact absurd hCount hWrong
    · rcases started_step hOrder hStarted hNew hStep with ⟨hMeets, hNext⟩ | ⟨hFails, hWrong⟩
      · refine iff_of_true ?_ hMeets
        rcases hNext with hFresh | ⟨tx, hOnce⟩
        · exact hFresh.count
        · exact hOnce.count
      · exact iff_of_false hWrong hFails

end Runs

/-- A credit under an idempotency key or without one, whose requests are answered without a
fault. -/
def lone (idempotentTxId : Option String) (txId : String) : LoneSubmission :=
  (⟨.reward, 5, none, "alice", "", none, none, idempotentTxId, txId⟩, List.replicate 16 calm)

/-- The genesis transaction is looked up, and then a credit is submitted. -/
theorem weights_count_once :
    (submissions plainLibrary false).EveryState (fun l => l.weights.Count)
      (initializeLedger .empty 0) [lone (some "genesis") "t0", lone none "t1"] :=
  (weights_count_iff (fun tips => .refl tips) 0 (by decide +kernel)).2.mpr (by decide +kernel)

/-- Of three credits the first is approved by the other two, and has a weight of 2. -/
theorem weights_miscount :
    ¬(submissions plainLibrary false).EveryState
      (fun l => l.weights.Count ∧ l.weights.LevelsFollow)
      (initializeLedger .empty 0) [lone none "t1", lone none "t2", lone none "t3"] := by
  intro h
  have hCount := h.last.1
  have hRows : ((((submissions plainLibrary false).run (initializeLedger .empty 0)
      [lone none "t1", lone none "t2", lone none "t3"]).weights.stored.entries.map
        fun row => (row.1, row.2.parentIds, row.2.cumulativeWeight)) =
      [("genesis", [], 1), ("t1", ["genesis"], 2), ("t2", ["t1"], 2), ("t3", ["t2"], 1)]) := by
    decide +kernel
  generalize ((submissions plainLibrary false).run (initializeLedger .empty 0)
    [lone none "t1", lone none "t2", lone none "t3"]).weights = w at hCount hRows
  have hRow : ∀ txId parentIds weight, (txId, parentIds, weight) ∈ w.stored.entries.map
      (fun row => (row.1, row.2.parentIds, row.2.cumulativeWeight)) →
        ∃ tx, w.stored.get? txId = some tx ∧ tx.parentIds = parentIds ∧
          tx.cumulativeWeight = weight := by
    intro txId parentIds weight h
    obtain ⟨⟨key, tx⟩, hEntry, hSame⟩ := List.mem_map.mp h
    obtain ⟨rfl, rfl, rfl⟩ : key = txId ∧ _ ∧ _ := by simpa using hSame
    exact ⟨tx, Dict.mem_entries_iff.mp hEntry, rfl, rfl⟩
  rw [hRows] at hRow
  obtain ⟨first, hFirst, -, hWeight⟩ := hRow "t1" ["genesis"] 2 (by decide)
  obtain ⟨second, hSecond, hParents, -⟩ := hRow "t2" ["t1"] 2 (by decide)
  obtain ⟨third, hThird, hParents', -⟩ := hRow "t3" ["t2"] 1 (by decide)
  have hDirect : w.Names "t2" "t1" := ⟨second, hSecond, by simp [hParents]⟩
  have hIndirect : w.Names "t3" "t2" := ⟨third, hThird, by simp [hParents']⟩
  have hBoth : {"t2", "t3"} ⊆ w.approvers "t1" := by
    rintro approver (rfl | rfl)
    · exact .single hDirect
    · exact .head hIndirect (.single hDirect)
  have hTwo := Set.ncard_le_ncard hBoth (Weights.finite_approvers _)
  rw [Set.ncard_pair (by decide)] at hTwo
  have hCounted := hCount "t1" first (.inl hFirst)
  omega

end Prsm.DagLedger
