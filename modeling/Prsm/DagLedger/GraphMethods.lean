import Prsm.DagLedger.Graph

/-!
# Submissions among each other

A submission stores its row, takes the tips that the row names out of memory and table, and
puts the row in.  Each method is walked through with what it holds of the graph; it ends
without a savepoint and with the graph whole, or with an error and the graph as it was.
-/

namespace Prsm.DagLedger

open Foundations

section Rules

variable {me : ℕ} {l l' : Ledger} {F G : View → Prop} {α β : Type}
  {R : Except Error β → Ledger → Prop}

variable {lib : Library} {verifySignatures : Bool} {s : Submission}

theorem View.Plain.sound {v : View} (h : v.Plain) : v.Sound := h.toWhole.sound

theorem safe_createWalletImpl {walletId displayName : String} {publicKey : Option String}
    {R : Except Error Unit → Ledger → Prop} (hInv : Kept l) (hHere : Under me View.Plain l)
    (hEnds : ∀ r l, Kept l → Under me View.Plain l → R r l) :
    graphDiscipline.Safe Ledger.serve me R
      (createWalletImpl walletId displayName publicKey) l := by
  have hRaised := fun e => hEnds (.error e)
  refine safe_neutral rfl hInv hHere (fun _ => View.Plain.sound) fun inserted l hInv hHere => ?_
  cases inserted with
  | error e => exact hRaised _ l hInv hHere
  | ok u =>
      refine safe_commit hInv hHere fun committed l hInv hHere => ?_
      cases committed with
      | error e => exact hRaised _ l hInv hHere
      | ok u =>
          cases truthy publicKey with
          | none => exact hEnds (.ok ()) l hInv hHere
          | some key =>
              refine safe_note
                (f := fun m => { m with walletPublicKeys := m.walletPublicKeys.set walletId key })
                hHere (fun _ => rfl) (fun _ => View.Plain.sound) ?_
              exact hEnds (.ok ())

theorem safe_createPayee {R : Except Error Unit → Ledger → Prop} (hInv : Kept l)
    (hHere : Under me View.Plain l) (hEnds : ∀ r l, Kept l → Under me View.Plain l → R r l) :
    graphDiscipline.Safe Ledger.serve me R (do
      if !(← walletExists s.toWallet) then
        createWalletImpl s.toWallet (shortName s.toWallet) none) l := by
  refine safe_neutral rfl hInv hHere (fun _ => View.Plain.sound) fun row l hInv hHere => ?_
  cases row with
  | error e => exact hEnds (.error _) l hInv hHere
  | ok row =>
      cases row with
      | some row => exact hEnds (.ok ()) l hInv hHere
      | none => exact safe_createWalletImpl hInv hHere hEnds

theorem safe_createParties {R : Except Error Unit → Ledger → Prop} (hInv : Kept l)
    (hHere : Under me View.Plain l) (hEnds : ∀ r l, Kept l → Under me View.Plain l → R r l) :
    graphDiscipline.Safe Ledger.serve me R (createParties s) l := by
  unfold createParties
  cases truthy s.fromWallet with
  | none => exact safe_createPayee hInv hHere hEnds
  | some fromWallet =>
      apply Discipline.safe_bind
      refine safe_neutral rfl hInv hHere (fun _ => View.Plain.sound) fun row l hInv hHere => ?_
      cases row with
      | error e => exact hEnds (.error _) l hInv hHere
      | ok row =>
          cases row with
          | some row => exact safe_createPayee hInv hHere hEnds
          | none =>
              show graphDiscipline.Safe Ledger.serve me R
                ((createWalletImpl fromWallet (shortName fromWallet) s.publicKey).bind _) l
              apply Discipline.safe_bind
              refine safe_createWalletImpl hInv hHere fun r l hInv hHere => ?_
              cases r with
              | error e => exact hEnds (.error e) l hInv hHere
              | ok u => exact safe_createPayee hInv hHere hEnds

theorem safe_rollbackBalanceCheck {R : Except Error Unit → Ledger → Prop} (hInv : Kept l)
    (hHere : Under me (fun v => v.Plain ∨ v.Guarded) l)
    (hEnds : ∀ l, Kept l → Under me View.Plain l → R (.ok ()) l) :
    graphDiscipline.Safe Ledger.serve me R rollbackBalanceCheck l := by
  unfold rollbackBalanceCheck
  apply Discipline.safe_tryCatch
  refine safe_execute (G := onOutcome View.Guarded View.Plain) hInv hHere
    (sound_onOutcome (fun _ h => h.sound) fun _ => View.Plain.sound) ?_ ?_
  · intro moment l a l' hBefore hAllowed hPerformed
    have hFault : moment.fault = none := Option.isNone_iff_eq_none.mp hAllowed
    rw [hFault] at hPerformed
    have hSaved := Ledger.rollbackTo_ok_iff_saved hPerformed
    cases a with
    | error e =>
        have hNone : l.view.saved = [] := by
          by_contra hSome
          obtain ⟨u, hOk⟩ := hSaved.mpr hSome
          cases hOk
        rw [Ledger.view_of_error hPerformed]
        rcases hBefore with hPlain | hGuarded
        · exact hPlain
        · rw [hGuarded.saved] at hNone
          cases hNone
    | ok u =>
        obtain ⟨g, rest, hStack, hView⟩ := Ledger.view_rollbackTo hPerformed
        have hStack' : l.view.saved = g :: rest := hStack
        rw [hView]
        rcases hBefore with hPlain | hGuarded
        · rw [hPlain.saved] at hStack'
          cases hStack'
        · obtain rfl : l.view.live = g := by
            rw [hGuarded.saved] at hStack'
            exact (List.cons.inj hStack').1
          exact hGuarded
  · intro a l hInv hHere
    cases a with
    | error e => exact hEnds l hInv hHere
    | ok u =>
        refine safe_execute (G := fun _ => View.Plain) hInv hHere (fun _ _ => View.Plain.sound)
          ?_ fun a l hInv hHere => ?_
        · intro moment l a l' hGuarded hAllowed hPerformed
          have hFault : moment.fault = none := Option.isNone_iff_eq_none.mp hAllowed
          rw [hFault] at hPerformed
          have hSome : l.view.saved ≠ [] := by
            rw [hGuarded.saved]
            exact List.cons_ne_nil _ _
          obtain ⟨u, rfl⟩ := Ledger.release_ok_of_saved hPerformed hSome
          exact View.Guarded.released (l := l.atMoment moment) hGuarded hPerformed
        · cases a with
          | ok u => exact hEnds l hInv hHere
          | error e => exact hEnds l hInv hHere

/-! ### The balance check -/

theorem safe_gets {f : Ledger → α} {next : α → Method β}
    (h : graphDiscipline.Safe Ledger.serve me R (next (f l)) l) :
    graphDiscipline.Safe Ledger.serve me R ((Coroutine.gets f).bind next) l :=
  h

theorem safe_getOrCreateBalanceCache {w : String} {R : Except Error (ℚ × ℕ) → Ledger → Prop}
    (hInv : Kept l) (hHere : Under me F l) (hSound : ∀ v, F v → v.Sound)
    (hEnds : ∀ r l, Kept l → Under me F l → R r l) :
    graphDiscipline.Safe Ledger.serve me R (getOrCreateBalanceCache w) l := by
  have hCache : ∀ (value : ℚ × ℕ) (version : ℕ) (l : Ledger), Under me F l →
      graphDiscipline.Safe Ledger.serve me R
        ((cacheVersion w version).bind fun _ => .returned value) l := by
    intro value version l hHere
    refine safe_note (f := fun m =>
      { m with balanceVersionCache := m.balanceVersionCache.set w version }) hHere
      (fun _ => rfl) hSound ?_
    exact hEnds (.ok value)
  unfold getOrCreateBalanceCache
  refine safe_neutral rfl hInv hHere hSound fun row l hInv hHere => ?_
  cases row with
  | error e => exact hEnds (.error _) l hInv hHere
  | ok row =>
      cases row with
      | some row =>
          show graphDiscipline.Safe Ledger.serve me R
            ((Coroutine.gets fun l => l.memory.balanceVersionCache.get? w).bind _) l
          apply safe_gets
          cases l.memory.balanceVersionCache.get? w with
          | some version => exact hEnds (.ok _) l hInv hHere
          | none => exact hCache (row.balance, row.version) row.version l hHere
      | none =>
          refine safe_neutral rfl hInv hHere hSound fun inserted l hInv hHere => ?_
          cases inserted with
          | error e => exact hEnds (.error _) l hInv hHere
          | ok u => exact hCache (0, 1) 1 l hHere

theorem safe_checkBalanceAtomic {w : String} {amount : ℚ}
    {R : Except Error (Bool × ℚ × ℕ) → Ledger → Prop} (hInv : Kept l)
    (hHere : Under me View.Plain l)
    (hRaised : ∀ e l, Kept l → Under me View.Plain l → R (.error e) l)
    (hDenied : ∀ balance version l, Kept l → Under me View.Plain l →
      R (.ok (false, balance, version)) l)
    (hOk : ∀ balance version l, Kept l → Under me View.Guarded l →
      R (.ok (true, balance, version)) l) :
    graphDiscipline.Safe Ledger.serve me R (checkBalanceAtomic w amount) l := by
  unfold checkBalanceAtomic
  apply Discipline.safe_tryCatch
  have hHandler : ∀ (e : Error) l, Kept l → Under me (fun v => v.Plain ∨ v.Guarded) l →
      graphDiscipline.Safe Ledger.serve me R (rollbackBalanceCheck.bind fun _ =>
        if e = .database (.fault true) then .raised (.balanceLock w) else .raised e) l := by
    intro e l hInv hHere
    apply Discipline.safe_bind
    refine safe_rollbackBalanceCheck hInv hHere fun l hInv hHere => ?_
    show graphDiscipline.Safe Ledger.serve me R (if _ then _ else _) l
    split
    · exact hRaised _ l hInv hHere
    · exact hRaised _ l hInv hHere
  have hGuarded : ∀ v : View, v.Guarded → v.Sound := fun _ h => h.sound
  refine safe_execute (G := onOutcome View.Guarded View.Plain) hInv hHere
    (sound_onOutcome hGuarded fun _ => View.Plain.sound) ?_ ?_
  · intro moment l a l' hPlain _ hPerformed
    cases a with
    | error e =>
        rw [Ledger.view_of_error hPerformed]
        exact hPlain
    | ok u =>
        rw [Ledger.view_savepoint hPerformed]
        refine ⟨⟨hPlain.live, hPlain.durable, hPlain.tips⟩, ?_⟩
        show l.view.live :: l.view.saved = [l.view.live]
        rw [hPlain.saved]
  · intro a l hInv hHere
    cases a with
    | error e => exact hHandler _ l hInv (hHere.imp fun _ => .inl)
    | ok u =>
        show graphDiscipline.Safe Ledger.serve me _ ((getOrCreateBalanceCache w).bind _) l
        apply Discipline.safe_bind
        refine safe_getOrCreateBalanceCache hInv hHere hGuarded fun r l hInv hHere => ?_
        cases r with
        | error e => exact hHandler e l hInv (hHere.imp fun _ => .inr)
        | ok found =>
            obtain ⟨balance, version⟩ := found
            by_cases hShort : balance < amount
            · simp only [Ends, hShort, if_true]
              refine safe_execute (G := onOutcome View.Plain View.Guarded) hInv hHere
                (sound_onOutcome (fun _ => View.Plain.sound) hGuarded) ?_ ?_
              · intro moment l a l' hGuarded _ hPerformed
                cases a with
                | error e =>
                    rw [Ledger.view_of_error hPerformed]
                    exact hGuarded
                | ok u =>
                    exact View.Guarded.released (l := l.atMoment moment) hGuarded hPerformed
              · intro a l hInv hHere
                cases a with
                | error e => exact hHandler _ l hInv (hHere.imp fun _ => .inr)
                | ok u => exact hDenied balance version l hInv hHere
            · simp only [Ends, hShort, if_false]
              exact hOk balance version l hInv hHere

/-! ### The writes -/

variable {g : TipGraph String} {tx : DAGTransaction} {depth : ℕ}

/-- The tips that are not taken yet. -/
def left (g : TipGraph String) (taken : List String) (txId : String) : Prop :=
  txId ∈ g.tips ∧ txId ∉ taken

theorem left_nil {txId : String} : left g [] txId ↔ txId ∈ g.tips := by
  simp [left]

theorem left_append {taken : List String} {p txId : String} :
    left g (taken ++ [p]) txId ↔ left g taken txId ∧ txId ≠ p := by
  simp [left, not_or, and_assoc]

theorem safe_discardTips {R : Except Error Unit → Ledger → Prop} (rest taken : List String)
    (hInv : Kept l) (hHere : Under me (View.Linking g tx depth (left g taken) (left g taken)) l)
    (hEnds : ∀ l, Kept l → Under me
      (View.Linking g tx depth (left g (taken ++ rest)) (left g (taken ++ rest))) l →
        R (.ok ()) l) :
    graphDiscipline.Safe Ledger.serve me R (discardTips rest) l := by
  induction rest generalizing taken l with
  | nil =>
      rw [List.append_nil] at hEnds
      exact hEnds l hInv hHere
  | cons p rest ih =>
      rw [List.append_cons] at hEnds
      show graphDiscipline.Safe Ledger.serve me R
        ((Coroutine.gets fun l => decide (p ∈ l.memory.tips)).bind _) l
      apply safe_gets
      by_cases hTip : p ∈ l.memory.tips
      · simp only [hTip, decide_true, if_true]
        refine safe_modify (f := fun m => { m with tips := removeTip p m.tips })
          (G := View.Linking g tx depth (left g taken) (left g (taken ++ [p]))) hHere ?_
          (fun _ h => h.sound) ?_
        · intro hLinking
          refine { hLinking with memory := fun txId => ?_ }
          rw [left_append, ← hLinking.memory]
          exact mem_removeTip
        · intro l hInv hHere
          refine safe_execute (G := onOutcome
            (View.Linking g tx depth (left g (taken ++ [p])) (left g (taken ++ [p])))
            fun _ => False) hInv hHere (sound_onOutcome (fun _ h => h.sound) fun _ => False.elim)
            ?_ ?_
          · intro moment l a l' hLinking hAllowed hPerformed
            have hFault : moment.fault = none := Option.isNone_iff_eq_none.mp hAllowed
            rw [hFault] at hPerformed
            obtain rfl : .ok () = a := (Prod.mk.inj hPerformed).1
            rw [Ledger.view_deleteTip hPerformed]
            refine { hLinking with disk := fun txId => ?_ }
            rw [left_append, ← hLinking.disk]
            exact mem_removeTip
          · intro a l hInv hHere
            cases a with
            | error e => exact hHere.2.elim
            | ok u => exact ih (taken ++ [p]) hInv hHere hEnds
      · simp only [hTip, decide_false]
        refine ih (taken ++ [p]) hInv ?_ hEnds
        -- What is no tip any more need not be taken.
        have hSame : ∀ txId, left g taken txId ↔ left g (taken ++ [p]) txId := by
          intro txId
          rw [left_append]
          refine ⟨fun h => ⟨h, ?_⟩, fun h => h.1⟩
          rintro rfl
          exact hTip ((hHere.2.memory txId).mpr h)
        exact hHere.imp fun _ h => { h with
          disk := fun txId => (h.disk txId).trans (hSame txId)
          memory := fun txId => (h.memory txId).trans (hSame txId) }

theorem safe_updateQueue {R : Except Error Unit → Ledger → Prop} (rounds : ℕ)
    (queue updated : List String) (hInv : Kept l) (hHere : Under me (View.Deep depth) l)
    (hRaised : ∀ e l, Kept l → Under me View.Plain l → R (.error e) l)
    (hOk : ∀ l, Kept l → Under me (View.Deep depth) l → R (.ok ()) l) :
    graphDiscipline.Safe Ledger.serve me R (updateQueue rounds queue updated) l := by
  have hDeep : ∀ v : View, v.Deep depth → v.Sound := fun _ h => h.sound
  induction rounds generalizing queue updated l with
  | zero => exact hOk l hInv hHere
  | succ rounds ih =>
      cases queue with
      | nil => exact hOk l hInv hHere
      | cons txId queue =>
          unfold updateQueue
          by_cases hUpdated : txId ∈ updated
          · rw [if_pos hUpdated]
            exact ih queue updated hInv hHere
          · rw [if_neg hUpdated]
            show graphDiscipline.Safe Ledger.serve me R
              ((Coroutine.gets fun l => l.memory.transactions.get? txId).bind _) l
            apply safe_gets
            cases l.memory.transactions.get? txId with
            | none => exact ih queue (txId :: updated) hInv hHere
            | some t =>
                refine safe_note (f := fun m => { m with
                  transactions := m.transactions.set txId { t with
                    cumulativeWeight := t.cumulativeWeight + 1
                    confirmationLevel := min 1 ((t.cumulativeWeight + 1 : ℕ) / 100 : ℚ) } })
                  hHere (fun _ => rfl) hDeep fun l hInv hHere => ?_
                refine safe_execute (G := onOutcome (View.Deep depth) View.Plain) hInv hHere
                  (sound_onOutcome hDeep fun _ => View.Plain.sound) ?_ ?_
                · intro moment l a l' hBefore hAllowed hPerformed
                  have hView := Ledger.view_of_neutral rfl hPerformed
                  rw [hView]
                  cases a with
                  | ok u => exact hBefore
                  | error e =>
                      refine ⟨hBefore.toWhole, ?_⟩
                      rcases (Bool.or_eq_true _ _).mp hAllowed with hNone | hEmpty
                      · rw [Option.isNone_iff_eq_none.mp hNone] at hPerformed
                        cases (Prod.mk.inj hPerformed).1
                      · show l.db.savepoints.map Tables.graph = []
                        rw [List.isEmpty_iff.mp hEmpty]
                        rfl
                · intro a l hInv hHere
                  cases a with
                  | error e => exact hRaised _ l hInv hHere
                  | ok u =>
                      show graphDiscipline.Safe Ledger.serve me R
                        ((Coroutine.gets fun l => l.memory.getChildren txId).bind _) l
                      apply safe_gets
                      exact ih _ _ hInv hHere

theorem safe_commitBalanceDeduction {w : String} {amount : ℚ} {version : ℕ}
    {R : Except Error Unit → Ledger → Prop} (hInv : Kept l) (hHere : Under me (View.Deep 1) l)
    (hOk : ∀ l, Kept l → Under me View.Plain l → R (.ok ()) l) :
    graphDiscipline.Safe Ledger.serve me R (commitBalanceDeduction w amount version) l := by
  unfold commitBalanceDeduction
  refine safe_execute (G := fun a v => a = .ok true ∧ v.Deep 1) hInv hHere
    (fun _ _ h => h.2.sound) ?_ ?_
  · intro moment l a l' hDeep hAllowed hPerformed
    obtain ⟨hFault, hVersion⟩ := (Bool.and_eq_true _ _).mp hAllowed
    have hView := Ledger.view_of_neutral rfl hPerformed
    rw [Option.isNone_iff_eq_none.mp hFault] at hPerformed
    rw [hView]
    refine ⟨?_, hDeep⟩
    obtain ⟨row, hRow, hSame⟩ := Option.map_eq_some_iff.mp (of_decide_eq_true hVersion)
    have hAnswer := (Prod.mk.inj hPerformed).1
    simp only [Ledger.atMoment, Statement.execute, Statement.onTables, hRow, hSame,
      if_true] at hAnswer
    exact hAnswer.symm
  · intro a l hInv hHere
    obtain ⟨hMine, rfl, hDeep⟩ := hHere
    refine safe_execute (G := onOutcome View.Plain fun _ => False) hInv
      (F := View.Deep 1) ⟨hMine, hDeep⟩
      (sound_onOutcome (fun _ => View.Plain.sound) fun _ => False.elim) ?_ ?_
    · intro moment l a l' hDeep hAllowed hPerformed
      have hFault : moment.fault = none := Option.isNone_iff_eq_none.mp hAllowed
      rw [hFault] at hPerformed
      have hSome : l.view.saved ≠ [] := by
        intro hNone
        have hDepth := hDeep.saved
        rw [hNone] at hDepth
        cases hDepth
      obtain ⟨u, rfl⟩ := Ledger.release_ok_of_saved hPerformed hSome
      exact View.plain_iff_deep.mpr
        (View.Deep.released (l := l.atMoment moment) hDeep hPerformed)
    · intro a l hInv hHere
      cases a with
      | error e => exact hHere.2.elim
      | ok u =>
          refine safe_note (f := fun m =>
            { m with balanceVersionCache := m.balanceVersionCache.set w (version + 1) }) hHere
            (fun _ => rfl) (fun _ => View.Plain.sound) ?_
          exact hOk

theorem safe_settle {R : Except Error DAGTransaction → Ledger → Prop} (hInv : Kept l)
    (hHere : Under me View.Plain l) (hEnds : ∀ r l, Kept l → Under me View.Plain l → R r l) :
    graphDiscipline.Safe Ledger.serve me R (do
      if s.toWallet ≠ "" then
        commitBalanceCredit s.toWallet s.amount
      execute (.commit (.submission s.amount))
      modifyMemory fun m => { m with transactions := m.transactions.set tx.txId tx }
      return tx) l := by
  have hSound : ∀ v : View, v.Plain → v.Sound := fun _ => View.Plain.sound
  have hConclude : ∀ l, Kept l → Under me View.Plain l →
      graphDiscipline.Safe Ledger.serve me R (do
        execute (.commit (.submission s.amount))
        modifyMemory fun m => { m with transactions := m.transactions.set tx.txId tx }
        return tx) l := by
    intro l hInv hHere
    refine safe_commit hInv hHere fun a l hInv hHere => ?_
    cases a with
    | error e => exact hEnds (.error _) l hInv hHere
    | ok u =>
        refine safe_note (f := fun m =>
          { m with transactions := m.transactions.set tx.txId tx }) hHere (fun _ => rfl) hSound ?_
        exact hEnds (.ok tx)
  by_cases hTo : s.toWallet = ""
  · simp only [hTo, ne_eq, not_true_eq_false, if_false]
    exact hConclude l hInv hHere
  · simp only [ne_eq, hTo, not_false_eq_true, if_true]
    refine safe_neutral rfl hInv hHere hSound fun a l hInv hHere => ?_
    cases a with
    | error e => exact hEnds (.error _) l hInv hHere
    | ok u =>
        refine safe_note (f := fun m => { m with
          balanceVersionCache := m.balanceVersionCache.set s.toWallet
            ((m.balanceVersionCache.get? s.toWallet).elim 1 (· + 1)) }) hHere (fun _ => rfl)
          hSound ?_
        exact hConclude

theorem safe_writeTransaction {checked : Option (String × ℕ)} {U : View → Prop}
    {R : Except Error DAGTransaction → Ledger → Prop} (hInv : Kept l) (hHere : Under me U l)
    (hDepth : ∀ v, U v → v.Deep (checked.elim 0 fun _ => 1))
    (hNamed : ∀ p ∈ tx.parentIds, p ∈ l.memory.tips)
    (hFailed : ∀ e l, Kept l → Under me U l → R (.error (.database e)) l)
    (hEnds : ∀ r l, Kept l → Under me View.Plain l → R r l) :
    graphDiscipline.Safe Ledger.serve me R (writeTransaction s checked tx) l := by
  have hWhole := hDepth _ hHere.2
  have hNew : Under me (fun v => v = l.view) l := ⟨hHere.1, rfl⟩
  have hU := hHere.2
  -- Nobody else changes the graph before the row is stored.
  generalize l.view = v at hNew hWhole hU hDepth
  have hTips : ∀ p ∈ tx.parentIds, p ∈ v.live.tips := fun p hp => by
    rw [← hWhole.tips, ← hNew.2]
    exact hNamed p hp
  unfold writeTransaction
  refine safe_execute (G := onOutcome
    (View.Linking v.live tx (checked.elim 0 fun _ => 1) (left v.live []) (left v.live []))
    fun v' => v' = v) hInv hNew
    (sound_onOutcome (fun _ h => h.sound) fun v' h => h ▸ hWhole.sound) ?_ ?_
  · rintro moment l a l' rfl hAllowed hPerformed
    cases a with
    | error e =>
        rw [Ledger.view_of_error hPerformed]
        rfl
    | ok u =>
        rw [Ledger.view_store hPerformed]
        have hFresh : l.view.live.parents tx.txId = none := by
          have hNone := Option.isNone_iff_eq_none.mp hAllowed
          show (l.db.live.dagTransactions.get? tx.txId).map (·.parentIds) = none
          rw [hNone]
          rfl
        exact ⟨hWhole.live, hFresh, hTips, rfl, hWhole.durable, hWhole.saved,
          fun txId => left_nil.symm, fun txId => (hWhole.tips txId).trans left_nil.symm⟩
  · intro a l hInv hHere
    cases a with
    | error e =>
        obtain ⟨hMine, hView⟩ := hHere
        exact hFailed e l hInv ⟨hMine, hView ▸ hU⟩
    | ok u =>
        show graphDiscipline.Safe Ledger.serve me R ((discardTips tx.parentIds).bind _) l
        apply Discipline.safe_bind
        refine safe_discardTips tx.parentIds [] hInv hHere fun l hInv hHere => ?_
        rw [List.nil_append] at hHere
        refine safe_modify (f := fun m => { m with tips := addTip tx.txId m.tips })
          (G := View.Linking v.live tx (checked.elim 0 fun _ => 1) (left v.live tx.parentIds)
            fun txId => txId = tx.txId ∨ left v.live tx.parentIds txId) hHere
          (fun h => { h with
            memory := fun txId => mem_addTip.trans (or_congr_right (h.memory txId)) })
          (fun _ h => h.sound) fun l hInv hHere => ?_
        refine safe_execute (G := onOutcome (View.Deep (checked.elim 0 fun _ => 1))
          fun _ => False) hInv hHere (sound_onOutcome (fun _ h => h.sound) fun _ => False.elim)
          ?_ ?_
        · intro moment l a l' hLinking hAllowed hPerformed
          have hFault : moment.fault = none := Option.isNone_iff_eq_none.mp hAllowed
          rw [hFault] at hPerformed
          obtain rfl : .ok () = a := (Prod.mk.inj hPerformed).1
          rw [Ledger.view_insertTip hPerformed]
          have hDisk : ∀ txId, txId ∈ addTip tx.txId l.view.live.tips ↔
              txId = tx.txId ∨ left v.live tx.parentIds txId :=
            fun txId => mem_addTip.trans (or_congr_right (hLinking.disk txId))
          exact View.Linking.deep { hLinking with disk := hDisk } fun txId => Iff.rfl
        · intro a l hInv hHere
          cases a with
          | error e => exact hHere.2.elim
          | ok u =>
              show graphDiscipline.Safe Ledger.serve me R ((updateWeights tx).bind _) l
              apply Discipline.safe_bind
              show graphDiscipline.Safe Ledger.serve me _ ((Coroutine.gets Ledger.edges).bind _) l
              apply safe_gets
              refine safe_updateQueue _ _ _ hInv hHere (fun e => hEnds (.error e))
                fun l hInv hHere => ?_
              cases checked with
              | none =>
                  have hPlain := hHere.imp fun _ => View.plain_iff_deep.mpr
                  refine safe_commit hInv hPlain fun a l hInv hHere => ?_
                  cases a with
                  | error e => exact hEnds (.error _) l hInv hHere
                  | ok u => exact safe_settle hInv hHere hEnds
              | some checked =>
                  show graphDiscipline.Safe Ledger.serve me R
                    ((commitBalanceDeduction checked.1 s.amount checked.2).bind _) l
                  apply Discipline.safe_bind
                  refine safe_commitBalanceDeduction hInv hHere fun l hInv hHere => ?_
                  exact safe_settle hInv hHere hEnds

/-! ### Submissions -/

theorem named_of_prepare (hOrder : ∀ tips, (lib.setOrder tips).Perm tips)
    (h : prepare lib verifySignatures s l = .ok tx) : ∀ p ∈ tx.parentIds, p ∈ l.memory.tips := by
  obtain ⟨rfl, -⟩ := of_prepare h
  exact fun p hp => mem_of_selectTipsMcmc hOrder hp

theorem safe_recordTransaction {checked : Option (String × ℕ)} {U : View → Prop}
    {R : Except Error DAGTransaction → Ledger → Prop}
    (hOrder : ∀ tips, (lib.setOrder tips).Perm tips) (hInv : Kept l) (hHere : Under me U l)
    (hDepth : ∀ v, U v → v.Deep (checked.elim 0 fun _ => 1))
    (hFailed : ∀ e l, e.isAtomic = false → Kept l → Under me U l → R (.error e) l)
    (hEnds : ∀ r l, Kept l → Under me View.Plain l → R r l) :
    graphDiscipline.Safe Ledger.serve me R
      (recordTransaction lib verifySignatures s checked) l := by
  show graphDiscipline.Safe Ledger.serve me R
    ((Coroutine.gets (prepare lib verifySignatures s)).bind _) l
  apply safe_gets
  cases hPrepared : prepare lib verifySignatures s l with
  | error e => exact hFailed e l (not_atomic_of_prepare hPrepared) hInv hHere
  | ok tx =>
      exact safe_writeTransaction hInv hHere hDepth (named_of_prepare hOrder hPrepared)
        (fun e l => hFailed _ l rfl) hEnds

theorem safe_submitLocked {R : Except Error DAGTransaction → Ledger → Prop}
    (hOrder : ∀ tips, (lib.setOrder tips).Perm tips) (hInv : Kept l)
    (hHere : Under me View.Plain l) (hEnds : ∀ r l, Kept l → Under me View.Plain l → R r l) :
    graphDiscipline.Safe Ledger.serve me R (submitLocked lib verifySignatures s) l := by
  show graphDiscipline.Safe Ledger.serve me R ((createParties s).bind _) l
  apply Discipline.safe_bind
  refine safe_createParties hInv hHere fun r l hInv hHere => ?_
  cases r with
  | error e => exact hEnds (.error e) l hInv hHere
  | ok u =>
      dsimp only [Ends]
      cases truthy s.fromWallet with
      | none =>
          exact safe_recordTransaction hOrder hInv hHere (fun _ => View.plain_iff_deep.mp)
            (fun e l _ => hEnds (.error e) l) hEnds
      | some w =>
          show graphDiscipline.Safe Ledger.serve me R ((checkBalanceAtomic w s.amount).bind _) l
          apply Discipline.safe_bind
          refine safe_checkBalanceAtomic hInv hHere (fun e => hEnds (.error e))
            (fun balance version l hInv hHere => ?_) fun balance version l hInv hHere => ?_
          · exact hEnds (.error _) l hInv hHere
          · apply Discipline.safe_tryCatch
            refine safe_recordTransaction hOrder hInv hHere (fun _ => View.Guarded.deep) ?_ ?_
            · intro e l hOrdinary hInv hHere
              simp only [Ends, hOrdinary, Bool.not_false, if_true]
              apply Discipline.safe_bind
              refine safe_rollbackBalanceCheck hInv (hHere.imp fun _ => .inr) ?_
              exact hEnds (.error e)
            · intro r l hInv hHere
              cases r with
              | ok tx => exact hEnds (.ok tx) l hInv hHere
              | error e =>
                  by_cases hAtomic : e.isAtomic = true
                  · simp only [Ends, hAtomic, Bool.not_true, Bool.false_eq_true, if_false]
                    exact hEnds (.error e) l hInv hHere
                  · simp only [Ends, hAtomic, Bool.not_false, if_true]
                    apply Discipline.safe_bind
                    refine safe_rollbackBalanceCheck hInv (hHere.imp fun _ => .inl) ?_
                    exact hEnds (.error e)

/-! ### Without the lock -/

theorem guarantee_of_view (hInv : Kept l) (hView : l'.view = l.view)
    (hLock : l'.writeLock = l.writeLock) : graphDiscipline.Guarantee me l l' := by
  refine ⟨?_, fun other _ hHeld => ⟨hLock.trans hHeld, hView⟩⟩
  show l'.view.Sound ∧ (l'.writeLock = none → l'.view.Plain)
  rw [hView, hLock]
  exact hInv

theorem safe_look {statement : Statement} (hSelect : statement.isSelect)
    {resume : Except DbError (Value statement) → Method β} (hInv : Kept l)
    (hResume : ∀ a l, Kept l → graphDiscipline.Safe Ledger.serve me R (resume a) l) :
    graphDiscipline.Safe Ledger.serve me R (.await (.execute statement) resume) l := by
  have hNeutral : statement.isNeutral := by
    cases statement <;> first | rfl | cases hSelect
  refine Discipline.safe_ask (H := fun _ => True) (K := fun _ _ => True) hInv trivial
    (fun _ _ _ _ _ _ => trivial) (fun _ _ _ _ _ _ _ => trivial) (fun _ _ _ => trivial) ?_
    fun a l hInv _ => hResume a l hInv
  intro moment a l l' hInv _ _ hServe
  have hPerformed := Option.some.inj hServe
  have hView := Ledger.view_of_neutral hNeutral hPerformed
  exact ⟨guarantee_of_view hInv hView (Ledger.perform_memory hPerformed).2, trivial⟩

theorem safe_withWriteLock {submission : Option Submission} {body : Method β} (hInv : Kept l)
    (hBody : ∀ l, Kept l → Under me View.Plain l →
      graphDiscipline.Safe Ledger.serve me (fun _ => Under me View.Plain) body l) :
    graphDiscipline.Safe Ledger.serve me (fun _ _ => True)
      (withWriteLock submission body) l := by
  refine Discipline.safe_ask (H := fun _ => True) (K := fun _ => Under me View.Plain) hInv trivial
    (fun _ _ _ _ _ _ => trivial) (fun _ => stable_under) (fun _ _ _ => trivial) ?_ ?_
  · intro moment a l l' hInv _ _ hServe
    cases hFree : l.writeLock with
    | some holder => simp [Ledger.serve, hFree] at hServe
    | none =>
        simp only [Ledger.serve, hFree, Option.some.injEq, Prod.mk.injEq, true_and] at hServe
        subst hServe
        have hPlain : l.view.Plain := hInv.2 hFree
        refine ⟨⟨⟨hPlain.sound, fun h => by cases h⟩, fun other _ hHeld => ?_⟩, rfl, hPlain⟩
        rw [hFree] at hHeld
        cases hHeld
  · intro a l hInv hHere
    apply Discipline.safe_andFinally
    refine (hBody l hInv hHere).imp hInv fun r l _ hDone => ?_
    obtain ⟨hMine, hPlain⟩ := hDone
    refine ⟨⟨⟨hPlain.sound, fun _ => hPlain⟩, fun other hOther hHeld => ?_⟩, trivial, trivial⟩
    rw [hMine] at hHeld
    exact absurd (Option.some.inj hHeld).symm hOther

theorem safe_submitTransaction (hOrder : ∀ tips, (lib.setOrder tips).Perm tips) (hInv : Kept l) :
    graphDiscipline.Safe Ledger.serve me (fun _ _ => True)
      (submitTransaction lib verifySignatures s) l := by
  have hLocked : ∀ l, Kept l → graphDiscipline.Safe Ledger.serve me (fun _ _ => True)
      (withWriteLock (some s) (submitLocked lib verifySignatures s)) l := by
    intro l hInv
    refine safe_withWriteLock hInv fun l hInv hHere => ?_
    exact safe_submitLocked hOrder hInv hHere fun _ _ _ h => h
  unfold submitTransaction
  by_cases hAmount : s.amount < 0
  · simp only [hAmount, if_true]
    trivial
  · simp only [hAmount, if_false]
    cases s.idempotentTxId with
    | none => exact hLocked l hInv
    | some txId =>
        show graphDiscipline.Safe Ledger.serve me _ ((getTransaction txId).bind _) l
        apply Discipline.safe_bind
        show graphDiscipline.Safe Ledger.serve me _
          ((Coroutine.gets fun l => l.memory.transactions.get? txId).bind _) l
        apply safe_gets
        cases l.memory.transactions.get? txId with
        | some tx => trivial
        | none =>
            refine safe_look rfl hInv fun row l hInv => ?_
            cases row with
            | error e => trivial
            | ok row =>
                cases row with
                | none => exact hLocked l hInv
                | some tx =>
                    have hGuarantee : graphDiscipline.Guarantee me l { l with
                        memory := { l.memory with
                          transactions := l.memory.transactions.set txId tx } } :=
                      guarantee_of_view hInv rfl rfl
                    exact ⟨hGuarantee, trivial, trivial⟩

/-! ### The calls -/

/-- The calls that end in `submit_transaction`. -/
def Call.submits : Call → Bool
  | .submitTransaction _ => true
  | .approveTransaction _ _ _ => true
  | .transfer _ _ _ _ _ _ _ => true
  | .credit _ _ _ _ _ _ _ _ => true
  | .debit _ _ _ _ _ _ _ => true
  | .issueWelcomeGrant _ _ _ _ => true
  | _ => false

theorem safe_discard {p : Method α} (hInv : Kept l)
    (h : graphDiscipline.Safe Ledger.serve me (fun _ _ => True) p l) :
    graphDiscipline.Safe Ledger.serve me (fun _ _ => True) (discard p) l :=
  h.bind hInv (fun _ _ _ _ => trivial) fun _ _ _ _ => trivial

theorem safe_body (hOrder : ∀ tips, (lib.setOrder tips).Perm tips) {c : Call}
    (hSubmits : c.submits) (hInv : Kept l) :
    graphDiscipline.Safe Ledger.serve me (fun _ _ => True) (body lib verifySignatures c) l := by
  cases c with
  | submitTransaction s => exact safe_discard hInv (safe_submitTransaction hOrder hInv)
  | approveTransaction approverWallet txId drawn =>
      apply safe_discard hInv
      show graphDiscipline.Safe Ledger.serve me _
        ((Coroutine.gets fun l => l.memory.transactions.get? txId).bind _) l
      apply safe_gets
      cases l.memory.transactions.get? txId with
      | none => trivial
      | some tx =>
          exact (safe_submitTransaction hOrder hInv).bind hInv (fun _ _ _ _ => trivial)
            fun _ _ _ _ => trivial
  | transfer fromWallet toWallet amount description signature publicKey drawn =>
      exact safe_discard hInv (safe_submitTransaction hOrder hInv)
  | credit walletId amount txType description signature publicKey idempotencyKey drawn =>
      exact safe_discard hInv (safe_submitTransaction hOrder hInv)
  | debit walletId amount txType description signature publicKey drawn =>
      apply safe_discard hInv
      show graphDiscipline.Safe Ledger.serve me _ ((getBalance walletId).bind _) l
      apply Discipline.safe_bind
      refine safe_look rfl hInv fun credits l hInv => ?_
      cases credits with
      | error e => trivial
      | ok credits =>
          refine safe_look rfl hInv fun debits l hInv => ?_
          cases debits with
          | error e => trivial
          | ok debits =>
              show graphDiscipline.Safe Ledger.serve me _
                (if roundTo 6 (credits - debits) < amount then _ else _) l
              split
              · trivial
              · exact safe_submitTransaction hOrder hInv
  | issueWelcomeGrant walletId amount description drawn =>
      apply safe_discard hInv
      refine safe_look rfl hInv fun granted l hInv => ?_
      cases granted with
      | error e => trivial
      | ok granted =>
          cases granted with
          | true => trivial
          | false => exact safe_submitTransaction hOrder hInv
  | _ => cases hSubmits

end Rules

end Prsm.DagLedger
