import Prsm.DagLedger.GraphMethods

/-!
# The graph stays acyclic

Nothing but what `undisturbed` leaves out does any harm to the graph of transactions, over
all runs of submissions and restarts.
-/

namespace Prsm.DagLedger

open Foundations

/-- No transaction is its own ancestor, and every parent is stored.  What is committed has in
its table of tips the transactions that no other names, and while no submission is under way
that holds of the tables as they are, with the same tips in memory. -/
structure Ledger.StaysDag (l : Ledger) : Prop where
  acyclic : l.db.live.graph.Acyclic
  committed : l.db.durable.graph.WellFormed
  tips : l.writeLock = none → (∀ txId, txId ∈ l.memory.tips ↔ txId ∈ l.db.live.tips) ∧
    ∀ txId, txId ∈ l.db.live.tips ↔ l.db.live.graph.IsTip txId

theorem kept_initializeLedger {tables : Tables} (now : ℚ) (h : tables.graph.WellFormed) :
    Kept (initializeLedger tables now) := by
  unfold initializeLedger
  by_cases hEmpty : tables.dagTransactions.entries.isEmpty = true
  · simp only [hEmpty, if_true]
    have hNone : tables.graph.parents genesis.txId = none := by
      have hEntries : tables.dagTransactions = ∅ := Dict.ext (List.isEmpty_iff.mp hEmpty)
      show (tables.dagTransactions.get? _).map _ = none
      rw [hEntries]
      rfl
    have hGenesis := graph_store tables genesis
    have hWhole : (Tables.graph { tables.store genesis with
        tips := addTip "genesis" (tables.store genesis).tips }).WellFormed := by
      refine h.grow hNone (fun p hp => (List.not_mem_nil hp).elim)
        ?_ fun txId => ?_
      · show (tables.store genesis).graph.parents = _
        rw [hGenesis]
        rfl
      · show txId ∈ addTip "genesis" tables.tips ↔ _
        rw [mem_addTip]
        exact or_congr_right (by simp [Tables.graph])
    exact ⟨⟨hWhole.toAcyclic, hWhole⟩, fun _ => ⟨⟨hWhole, hWhole, fun _ => Iff.rfl⟩, rfl⟩⟩
  · simp only [hEmpty]
    exact ⟨⟨h.toAcyclic, h⟩, fun _ => ⟨⟨h, h, fun _ => Iff.rfl⟩, rfl⟩⟩

variable {lib : Library} {verifySignatures : Bool}

/-- The turns of runs in which only submissions are called. -/
def OnlySubmits : Turn Call Moment → Prop
  | .call c => c.submits
  | _ => True

instance : (turn : Turn Call Moment) → Decidable (OnlySubmits turn)
  | .call c => inferInstanceAs (Decidable (c.submits = true))
  | .resume _ => isTrue trivial
  | .serve _ _ => isTrue trivial
  | .crash => isTrue trivial

/-- All submissions so far are safe. -/
abbrev GraphKept (lib : Library) (verifySignatures : Bool) (pool : State) : Prop :=
  (node lib verifySignatures).Good graphDiscipline (fun _ _ _ _ => True) pool

theorem GraphKept.step (hOrder : ∀ tips, (lib.setOrder tips).Perm tips) {pool pool' : State}
    {turn : Turn Call Moment} (h : GraphKept lib verifySignatures pool)
    (hSubmits : OnlySubmits turn)
    (hAnswerable : Program.Answerable (fun _ moment l r => undisturbed moment l r) pool turn)
    (hTurn : (node lib verifySignatures).machine.step pool turn = some pool') :
    GraphKept lib verifySignatures pool' := by
  refine h.advance (fun _ _ _ _ _ _ _ _ _ => trivial) hTurn ?_ hAnswerable ?_
  · rintro c me l rfl hInv _
    exact safe_body hOrder hSubmits hInv
  · rintro l rfl hRestart
    cases hRestart
    exact ⟨kept_initializeLedger _ h.inv.1.durable, fun _ => trivial⟩

theorem GraphKept.staysDag {pool : State} (h : GraphKept lib verifySignatures pool) :
    pool.state.StaysDag := by
  refine ⟨h.inv.1.live, h.inv.1.durable, fun hFree => ?_⟩
  have hPlain := h.inv.2 hFree
  exact ⟨hPlain.tips, hPlain.live.mem_tips_iff⟩

theorem graphKept_fresh (now : ℚ) : GraphKept lib verifySignatures (fresh now) := by
  refine ⟨kept_initializeLedger now ?_, fun me c p hTask => by simp [fresh] at hTask,
    fun _ _ => trivial⟩
  exact TipGraph.wellFormed_of_empty _ (fun _ => rfl) rfl

/-- In every run of submissions and restarts that stores no row under an identifier that is
stored already, and in which every deduction finds the version that was checked, the graph
stays acyclic with its parents stored, and its tips are on record. -/
theorem dag_stays_dag (hOrder : ∀ tips, (lib.setOrder tips).Perm tips) (now : ℚ)
    {turns : List (Turn Call Moment)}
    (h : (node lib verifySignatures).machine.EveryStep (fun pool turn => OnlySubmits turn ∧
      Program.Answerable (fun _ moment l r => undisturbed moment l r) pool turn)
      (fresh now) turns) :
    (node lib verifySignatures).machine.EveryState (fun pool => pool.state.StaysDag)
      (fresh now) turns := by
  have hKept := (node lib verifySignatures).machine.everyState_of_everyStep
    (GraphKept lib verifySignatures) _
    (fun _ _ _ hPool hTurn hStep => hPool.step hOrder hTurn.1 hTurn.2 hStep)
    (graphKept_fresh now) h
  exact fun visited hVisited => (hKept visited hVisited).staysDag

/-- Every signature is accepted, and the tips come in the order in which they came up. -/
def plainLibrary : Library where
  digest := fun data => data.txId
  verifySignature := fun _ _ _ => true
  sha256Hex := id
  lower := id
  tipWeight := fun weight => weight
  setOrder := id

def calm : Moment := ⟨0, [], none⟩

def orderly : List (Turn Call Moment) :=
  alone 0 (.credit "alice" 5 .reward "" none none (some "k") "t1") calm 16 ++
    alone 1 (.debit "alice" 1 .transfer "" none none "t2") calm 20 ++
    .crash :: alone 0 (.credit "bob" 2 .reward "" none none none "t3") calm 16

/-- Two credits under one idempotency key, of which both have looked for the transaction
before either has stored it. -/
def twoCredits : List (Turn Call Moment) :=
  [.call (.credit "alice" 5 .reward "" none none (some "k") "t1"),
    .call (.credit "alice" 5 .reward "" none none (some "k") "t2"),
    .resume 0, .serve 0 calm, .resume 1, .serve 1 calm] ++
    (List.replicate 16 [.resume 0, .serve 0 calm]).flatten ++
    (List.replicate 16 [.resume 1, .serve 1 calm]).flatten

def afterRestart : List (Turn Call Moment) :=
  alone 0 (.credit "alice" 5 .reward "" none none none "t1") calm 16 ++
    .crash :: alone 0 (.credit "alice" 5 .reward "" none none none "t2") calm 16 ++
    alone 1 (.debit "alice" 1 .transfer "" none none "t3") calm 20

theorem dag_stays_dag_orderly :
    (node plainLibrary false).machine.EveryState (fun pool => pool.state.StaysDag)
        (fresh 0) orderly ∧
      ((node plainLibrary false).machine.run (fresh 0) orderly).state.memory.tips = ["t3"] :=
  ⟨dag_stays_dag (fun tips => .refl tips) 0 (by decide +kernel), by decide +kernel⟩

/-- The second of two credits under one key names itself as its parent, and a debit that
fails on a version of the cache leaves a tip in memory that is not stored. -/
theorem dag_loops :
    ((∀ turn ∈ twoCredits, OnlySubmits turn) ∧
      ¬ (node plainLibrary false).machine.EveryState (fun pool => pool.state.StaysDag)
        (fresh 0) twoCredits) ∧
    ((∀ turn ∈ afterRestart, OnlySubmits turn) ∧
      ¬ (node plainLibrary false).machine.EveryState (fun pool => pool.state.StaysDag)
        (fresh 0) afterRestart) := by
  refine ⟨⟨by decide +kernel, fun h => ?_⟩, by decide +kernel, fun h => ?_⟩
  · refine h.last.acyclic.irrefl "idem-k" (.single ⟨["idem-k"], ?_, .head _⟩)
    decide +kernel
  · have hFree : ((node plainLibrary false).machine.run (fresh 0)
        afterRestart).state.writeLock = none := by decide +kernel
    have hTip := ((h.last.tips hFree).1 "t3").mp (by decide +kernel)
    revert hTip
    decide +kernel

end Prsm.DagLedger

/-!
# Weights and submissions

What a submission that nothing interrupts does to the weights.  `_update_weights` starts
from the parents of the new transaction and goes on from each to those that name it, away
from the transactions that are approved through it.  So where no transaction in memory names
the parent, nothing but the weight of the parent grows.
-/

namespace Prsm.DagLedger

open Foundations

/-- What a ledger shows of the weights: the rows as the connection sees them, the
transactions in memory, and the tips in memory. -/
@[ext] structure Weights where
  stored : Dict String DAGTransaction
  loaded : Dict String DAGTransaction
  tips : List String

def Ledger.weights (l : Ledger) : Weights :=
  ⟨l.db.live.dagTransactions, l.memory.transactions, l.memory.tips⟩

namespace Weights

variable (w : Weights)

/-- What `get_transaction` finds. -/
def find? (txId : String) : Option DAGTransaction :=
  (w.loaded.get? txId).or (w.stored.get? txId)

/-- The submission repeats one whose transaction is there. -/
def Repeats (s : Submission) : Prop :=
  (s.idempotentTxId.bind w.find?).isSome

instance (s : Submission) : Decidable (w.Repeats s) :=
  inferInstanceAs (Decidable (_ = true))

end Weights

/-- The weights that the statement leaves alone. -/
def Statement.sparesWeights : Statement → Bool
  | storeTransaction _ | updateWeight _ _ _ | rollbackTo => false
  | _ => true

/-- The transaction with one more approval. -/
def DAGTransaction.approved (tx : DAGTransaction) : DAGTransaction :=
  { tx with
    cumulativeWeight := tx.cumulativeWeight + 1
    confirmationLevel := min 1 ((tx.cumulativeWeight + 1 : ℕ) / 100 : ℚ) }

theorem rows_onTables {statement : Statement} (h : statement.sparesWeights) (t : Tables) :
    (statement.onTables t).2.dagTransactions = t.dagTransactions := by
  cases statement with
  | storeTransaction tx => cases h
  | updateWeight txId weight level => cases h
  | insertWallet walletId row =>
      simp only [Statement.onTables]
      split <;> rfl
  | updateWallet walletId column =>
      simp only [Statement.onTables, Tables.updateWallet]
      split <;> rfl
  | insertBalance walletId =>
      simp only [Statement.onTables]
      split <;> rfl
  | deductBalance walletId amount expectedVersion =>
      simp only [Statement.onTables]
      split
      · rfl
      · split <;> rfl
  | creditBalance walletId amount =>
      simp only [Statement.onTables, Tables.creditBalance]
      split
      · split <;> rfl
      · rfl
  | insertNonce nonce origin =>
      simp only [Statement.onTables]
      split <;> rfl
  | _ => rfl

section Rules

variable {l : Ledger} {α β : Type} {Post : α → Ledger → Prop}

/-- The call leaves the weights alone. -/
def SparesWeights (p : Method α) : Prop :=
  ∀ l, p.Ensures (Ledger.serve 0) (fun _ l' => l'.weights = l.weights) l

variable {statement : Statement}

theorem rows_execute {db db' : Connection Tables} {v : Value statement}
    (hSpares : statement.sparesWeights) (h : statement.execute db = (.ok v, db')) :
    db'.live.dagTransactions = db.live.dagTransactions := by
  by_cases hPlain : statement.isPlain = true
  · rw [Statement.execute_plain hPlain] at h
    have hDb := (Prod.mk.inj h).2
    split at hDb
    case isFalse =>
      rw [← hDb]
    case isTrue =>
      rw [← hDb, Connection.update_live]
      exact rows_onTables hSpares db.live
  · cases statement with
    | savepoint =>
        cases h
        rfl
    | release after =>
        simp only [Statement.execute] at h
        cases hRelease : db.release with
        | none =>
            rw [hRelease] at h
            cases (Prod.mk.inj h).1
        | some released =>
            rw [hRelease] at h
            obtain rfl : released = db' := (Prod.mk.inj h).2
            rw [(Connection.of_release hRelease).1]
    | rollbackTo => cases hSpares
    | commit barrier =>
        cases h
        rfl
    | _ => exact absurd rfl hPlain

theorem weights_execute {v : Value statement} {fault : Option Bool}
    {l' : Ledger} (hSpares : statement.sparesWeights)
    (h : l.perform fault statement = (.ok v, l')) : l'.weights = l.weights := by
  have hMemory := (Ledger.perform_memory h).1
  have hRows := rows_execute hSpares (Ledger.of_perform_ok h).2
  simp only [Ledger.weights, hRows, hMemory]

theorem ensures_execute {Post : Value statement → Ledger → Prop}
    (h : ∀ moment v l', (l.atMoment moment).perform none statement = (.ok v, l') → Post v l') :
    (execute statement).Ensures (Ledger.serve 0) Post l := by
  intro moment a l' hServe
  have hPerformed := Option.some.inj hServe
  cases a with
  | error e => trivial
  | ok v => exact h moment v l' ((Ledger.of_perform_ok hPerformed).1 ▸ hPerformed)

theorem ensures_spared {Post : Value statement → Ledger → Prop}
    (hSpares : statement.sparesWeights)
    (h : ∀ v l', l'.weights = l.weights → Post v l') :
    (execute statement).Ensures (Ledger.serve 0) Post l := by
  refine ensures_execute fun moment v l' hPerformed => h v l' ?_
  exact weights_execute (l := l.atMoment moment) hSpares hPerformed

namespace SparesWeights

variable {p : Method α} {f : α → Method β}

theorem execute {statement : Statement} (h : statement.sparesWeights) :
    SparesWeights (DagLedger.execute statement) :=
  fun _ => ensures_spared h fun _ _ hSame => hSame

theorem returned (a : α) : SparesWeights (.returned a) := fun _ => rfl

theorem raised (e : Error) : SparesWeights (.raised e : Method α) := fun _ => trivial

theorem bind (hp : SparesWeights p) (hf : ∀ a, SparesWeights (f a)) :
    SparesWeights (p.bind f) := by
  intro l
  rw [Coroutine.ensures_bind]
  refine (hp l).imp fun a l' hSame => ?_
  refine (hf a l').imp fun b l'' hSame' => ?_
  exact hSame'.trans hSame

theorem gets {g : Ledger → α} (hf : ∀ a, SparesWeights (f a)) :
    SparesWeights ((Coroutine.gets g).bind f) :=
  fun l => hf (g l) l

theorem modify {g : Memory → Memory} {q : Method β}
    (h : ∀ m, (g m).transactions = m.transactions ∧ (g m).tips = m.tips) (hq : SparesWeights q) :
    SparesWeights ((modifyMemory g).bind fun _ => q) := by
  intro l
  refine (hq { l with memory := g l.memory }).imp fun b l' hSame => hSame.trans ?_
  simp [Ledger.weights, h l.memory]

theorem tryCatch {handler : Error → Method α} (hp : SparesWeights p)
    (hHandler : ∀ e l, ∀ Post, (handler e).Ensures (Ledger.serve 0) Post l) :
    SparesWeights (p.tryCatch handler) :=
  fun l => (hp l).tryCatch fun e l' => hHandler e l' _

end SparesWeights

theorem sparesWeights_createWalletImpl (walletId displayName : String)
    (publicKey : Option String) :
    SparesWeights (createWalletImpl walletId displayName publicKey) := by
  refine SparesWeights.bind (.execute rfl) fun _ => .bind (.execute rfl) fun _ => ?_
  cases truthy publicKey with
  | none => exact .returned ()
  | some key => exact .modify (fun _ => ⟨rfl, rfl⟩) (.returned ())

theorem sparesWeights_walletExists (walletId : String) : SparesWeights (walletExists walletId) :=
  .bind (.execute rfl) fun _ => .returned _

theorem sparesWeights_createParties (s : Submission) : SparesWeights (createParties s) := by
  have hPayee : SparesWeights (do
      if !(← walletExists s.toWallet) then
        createWalletImpl s.toWallet (shortName s.toWallet) none) := by
    refine SparesWeights.bind (sparesWeights_walletExists _) fun present => ?_
    cases present with
    | true => exact .returned ()
    | false => exact sparesWeights_createWalletImpl _ _ _
  unfold createParties
  cases truthy s.fromWallet with
  | none => exact hPayee
  | some fromWallet =>
      refine SparesWeights.bind (sparesWeights_walletExists _) fun present => ?_
      cases present with
      | true => exact hPayee
      | false => exact .bind (sparesWeights_createWalletImpl _ _ _) fun _ => hPayee

theorem sparesWeights_getOrCreateBalanceCache (walletId : String) :
    SparesWeights (getOrCreateBalanceCache walletId) := by
  refine SparesWeights.bind (.execute rfl) fun row => ?_
  cases row with
  | none =>
      refine .bind (.execute rfl) fun _ => ?_
      exact .modify (fun _ => ⟨rfl, rfl⟩) (.returned _)
  | some row =>
      refine .gets fun version => ?_
      cases version with
      | some version => exact .returned _
      | none => exact .modify (fun _ => ⟨rfl, rfl⟩) (.returned _)

theorem sparesWeights_checkBalanceAtomic (walletId : String) (amount : ℚ) :
    SparesWeights (checkBalanceAtomic walletId amount) := by
  refine SparesWeights.tryCatch (.bind (.execute rfl) fun _ => ?_) fun e l Post => ?_
  · refine .bind (sparesWeights_getOrCreateBalanceCache walletId) fun found => ?_
    obtain ⟨balance, version⟩ := found
    by_cases hShort : balance < amount
    · simp only [hShort, if_true]
      exact .bind (.execute rfl) fun _ => .returned _
    · simp only [hShort, if_false]
      exact .returned _
  · refine Coroutine.ensures_bind_of_forall fun _ l => ?_
    show (if e = .database (.fault true) then _ else _ : Method _).Ensures _ _ _
    split
    · trivial
    · trivial

theorem sparesWeights_commitBalanceDeduction (walletId : String) (amount : ℚ) (version : ℕ) :
    SparesWeights (commitBalanceDeduction walletId amount version) := by
  refine SparesWeights.bind (.execute rfl) fun deducted => ?_
  cases deducted with
  | true => exact .bind (.execute rfl) fun _ => .modify (fun _ => ⟨rfl, rfl⟩) (.returned ())
  | false =>
      -- The rows go back to the savepoint, but the call raises.
      intro l
      refine Coroutine.ensures_bind_of_forall fun _ l => ?_
      exact Coroutine.ensures_bind_of_forall fun _ l => trivial

theorem sparesWeights_commitBalanceCredit (walletId : String) (amount : ℚ) :
    SparesWeights (commitBalanceCredit walletId amount) :=
  .bind (.execute rfl) fun _ => .modify (fun _ => ⟨rfl, rfl⟩) (.returned ())

/-! ### The writes -/

/-- One more approval of a transaction, where it is in memory. -/
def Weights.approve (w : Weights) (txId : String) : Weights :=
  match w.loaded.get? txId with
  | none => w
  | some tx =>
      { w with
        stored := match w.stored.get? txId with
          | none => w.stored
          | some row => w.stored.set txId
              { row with
                cumulativeWeight := tx.approved.cumulativeWeight
                confirmationLevel := tx.approved.confirmationLevel }
        loaded := w.loaded.set txId tx.approved }

/-- A transaction that has taken the place of the only tip. -/
def Weights.add (w : Weights) (tx : DAGTransaction) (tip : String) : Weights :=
  let approved : Weights :=
    approve ⟨(w.stored.erase tx.txId).set tx.txId tx, w.loaded, [tx.txId]⟩ tip
  { approved with loaded := approved.loaded.set tx.txId tx }

/-- No transaction in memory names this one. -/
def Weights.Unnamed (w : Weights) (tip : String) : Prop :=
  ∀ txId tx, w.loaded.get? txId = some tx → tip ∉ tx.parentIds

variable {tip : String} {s : Submission} {checked : Option (String × ℕ)} {tx : DAGTransaction}

theorem getChildren_of_unnamed (h : l.weights.Unnamed tip) :
    l.memory.getChildren tip = [] := by
  unfold Memory.getChildren
  rw [List.map_eq_nil_iff, List.filter_eq_nil_iff]
  rintro ⟨txId, tx⟩ hEntry
  simpa using h txId tx (Dict.mem_entries_iff.mp hEntry)

theorem ensures_updateQueue {rounds : ℕ} {Post : Unit → Ledger → Prop}
    (hUnnamed : l.weights.Unnamed tip)
    (h : ∀ l', l'.weights = l.weights.approve tip → Post () l') :
    (updateQueue (rounds + 2) [tip] []).Ensures (Ledger.serve 0) Post l := by
  show (match l.memory.transactions.get? tip with
    | none => _
    | some tx => _ : Method Unit).Ensures _ _ _
  cases hLoaded : l.memory.transactions.get? tip with
  | none =>
      refine h l ?_
      simp [Weights.approve, Ledger.weights, hLoaded]
  | some tx =>
      refine Coroutine.ensures_bind.mpr (Coroutine.ensures_bind.mpr ?_)
      refine ensures_execute fun moment v l' hPerformed => ?_
      show (updateQueue (rounds + 1) ([] ++ (l'.memory.getChildren tip).filter _) [tip]).Ensures
        _ _ _
      have hMemory := (Ledger.perform_memory hPerformed).1
      have hAfter : l'.weights = l.weights.approve tip := by
        have hDb := (Prod.mk.inj (Ledger.of_perform_ok hPerformed).2).2
        simp only [Ledger.weights, hMemory, ← hDb, Weights.approve, hLoaded]
        ext1
        · show (Tables.updateWeight _ _ _ _).dagTransactions = _
          unfold Tables.updateWeight
          show (match l.db.live.dagTransactions.get? tip with
            | none => _
            | some row => _ : Tables).dagTransactions = _
          cases l.db.live.dagTransactions.get? tip <;> rfl
        · rfl
        · rfl
      have hStill : l'.weights.Unnamed tip := by
        rw [hAfter]
        intro txId other hOther
        simp only [Weights.approve, Ledger.weights, hLoaded, Dict.get?_set] at hOther
        split at hOther
        · cases hOther
          exact hUnnamed tip tx hLoaded
        · exact hUnnamed txId other hOther
      rw [getChildren_of_unnamed hStill]
      exact h l' hAfter

theorem ensures_discardTip {Post : Unit → Ledger → Prop}
    (hTips : l.memory.tips = [tip])
    (h : ∀ l', l'.weights = { l.weights with tips := [] } → Post () l') :
    (discardTips [tip]).Ensures (Ledger.serve 0) Post l := by
  show (if decide (tip ∈ l.memory.tips) = true then _ else _ : Method Unit).Ensures _ _ _
  rw [if_pos (by simp [hTips])]
  refine Coroutine.ensures_bind.mpr (Coroutine.ensures_bind.mpr ?_)
  refine ensures_spared rfl fun _ l' hSame => h l' ?_
  rw [hSame]
  simp [Ledger.weights, removeTip, hTips]

theorem ensures_settle
    {Post : DAGTransaction → Ledger → Prop}
    (h : ∀ l', l'.weights =
      { l.weights with loaded := l.weights.loaded.set tx.txId tx } → Post tx l') :
    (do
      match checked with
      | some (fromWallet, version) => commitBalanceDeduction fromWallet s.amount version
      | none => execute (.commit .row)
      if s.toWallet ≠ "" then
        commitBalanceCredit s.toWallet s.amount
      execute (.commit (.submission s.amount))
      modifyMemory fun m => { m with transactions := m.transactions.set tx.txId tx }
      return tx : Method DAGTransaction).Ensures (Ledger.serve 0) Post l := by
  have hLast : ∀ l₁ : Ledger, l₁.weights = l.weights → (do
      execute (.commit (.submission s.amount))
      modifyMemory fun m => { m with transactions := m.transactions.set tx.txId tx }
      return tx : Method DAGTransaction).Ensures (Ledger.serve 0) Post l₁ := by
    intro l₁ h₁
    refine Coroutine.ensures_bind.mpr (ensures_spared rfl fun _ l₂ h₂ => h _ ?_)
    have hSame : l₂.weights = l.weights := h₂.trans h₁
    rw [← hSame]
    rfl
  have hCredit : ∀ l₁ : Ledger, l₁.weights = l.weights → (do
      if s.toWallet ≠ "" then
        commitBalanceCredit s.toWallet s.amount
      execute (.commit (.submission s.amount))
      modifyMemory fun m => { m with transactions := m.transactions.set tx.txId tx }
      return tx : Method DAGTransaction).Ensures (Ledger.serve 0) Post l₁ := by
    intro l₁ h₁
    by_cases hTo : s.toWallet = ""
    · simp only [hTo, ne_eq, not_true_eq_false, if_false]
      exact hLast l₁ h₁
    · simp only [ne_eq, hTo, not_false_eq_true, if_true]
      refine Coroutine.ensures_bind.mpr ?_
      refine (sparesWeights_commitBalanceCredit _ _ l₁).imp fun _ l₂ h₂ => hLast l₂ (h₂.trans h₁)
  cases checked with
  | none =>
      exact Coroutine.ensures_bind.mpr (ensures_spared rfl fun _ l₁ h₁ => hCredit l₁ h₁)
  | some checked =>
      refine Coroutine.ensures_bind.mpr ?_
      exact (sparesWeights_commitBalanceDeduction _ _ _ l).imp fun _ l₁ h₁ => hCredit l₁ h₁

theorem ensures_writeTransaction {Post : DAGTransaction → Ledger → Prop}
    (hTips : l.memory.tips = [tip]) (hParents : tx.parentIds = [tip])
    (hUnnamed : l.weights.Unnamed tip)
    (h : ∀ l', l'.weights = l.weights.add tx tip → Post tx l') :
    (writeTransaction s checked tx).Ensures (Ledger.serve 0) Post l := by
  unfold writeTransaction
  rw [hParents]
  refine Coroutine.ensures_bind.mpr (ensures_execute fun moment v l₁ hPerformed => ?_)
  have h₁ : l₁.weights =
      { l.weights with stored := (l.weights.stored.erase tx.txId).set tx.txId tx } := by
    have hDb := (Prod.mk.inj (Ledger.of_perform_ok hPerformed).2).2
    simp only [Ledger.weights, (Ledger.perform_memory hPerformed).1, ← hDb]
    rfl
  have hTips₁ : l₁.memory.tips = [tip] := (congrArg Weights.tips h₁).trans hTips
  refine Coroutine.ensures_bind.mpr (ensures_discardTip hTips₁ fun l₂ h₂ => ?_)
  refine Coroutine.ensures_bind.mpr ?_
  refine Coroutine.ensures_bind.mpr (ensures_spared rfl fun _ l₃ h₃ => ?_)
  have hGrown : l₃.weights = ⟨(l.weights.stored.erase tx.txId).set tx.txId tx, l.weights.loaded,
      [tx.txId]⟩ := by
    have hTips₂ : l₂.memory.tips = [] := congrArg Weights.tips h₂
    have hStored : l₂.weights.stored = (l.weights.stored.erase tx.txId).set tx.txId tx := by
      rw [h₂, h₁]
    have hLoaded : l₂.weights.loaded = l.weights.loaded := by rw [h₂, h₁]
    rw [h₃]
    ext1
    · exact hStored
    · exact hLoaded
    · show addTip tx.txId l₂.memory.tips = _
      rw [hTips₂]
      rfl
  refine Coroutine.ensures_bind.mpr ?_
  show (updateQueue (tx.parentIds.length + l₃.edges + 1) tx.parentIds []).Ensures _ _ l₃
  have hRounds : tx.parentIds.length + l₃.edges + 1 = l₃.edges + 2 := by
    rw [hParents, List.length_singleton]
    omega
  rw [hRounds, hParents]
  have hStill : l₃.weights.Unnamed tip := by
    rw [hGrown]
    exact hUnnamed
  refine ensures_updateQueue hStill fun l₄ h₄ => ensures_settle fun l₅ h₅ => h l₅ ?_
  rw [h₅, h₄, hGrown]
  rfl

theorem ensures_writeTransaction_loaded :
    (writeTransaction s checked tx).Ensures (Ledger.serve 0)
      (fun _ l' => l'.memory.transactions.get? tx.txId = some tx) l := by
  refine Coroutine.ensures_bind_of_forall fun _ l => ?_
  refine Coroutine.ensures_bind_of_forall fun _ l => ?_
  refine Coroutine.ensures_bind_of_forall fun _ l => ?_
  refine Coroutine.ensures_bind_of_forall fun _ l => ?_
  refine Coroutine.ensures_bind_of_forall fun _ l => ensures_settle fun l' h => ?_
  have hLoaded := congrArg Weights.loaded h
  show l'.weights.loaded.get? tx.txId = _
  rw [hLoaded, Dict.get?_set_self]

variable {lib : Library} {verifySignatures : Bool}

theorem ensures_gets_bind {α β : Type} {f : Ledger → α} {next : α → Method β}
    {Post : β → Ledger → Prop} (h : (next (f l)).Ensures (Ledger.serve 0) Post l) :
    (Coroutine.gets f >>= next).Ensures (Ledger.serve 0) Post l := h

theorem ensures_recordTransaction
    {Post : DAGTransaction → Ledger → Prop}
    (h : (writeTransaction s checked (buildTransaction lib s l)).Ensures (Ledger.serve 0) Post l) :
    (recordTransaction lib verifySignatures s checked).Ensures (Ledger.serve 0) Post l := by
  refine ensures_gets_bind ?_
  cases hPrepared : prepare lib verifySignatures s l with
  | error e => trivial
  | ok tx =>
      obtain ⟨rfl, -⟩ := of_prepare hPrepared
      exact h

theorem ensures_submitLocked {Post : DAGTransaction → Ledger → Prop}
    (h : ∀ checked l₁, l₁.weights = l.weights →
      (writeTransaction s checked (buildTransaction lib s l₁)).Ensures (Ledger.serve 0) Post l₁) :
    (submitLocked lib verifySignatures s).Ensures (Ledger.serve 0) Post l := by
  refine Coroutine.ensures_bind.mpr ((sparesWeights_createParties s l).imp fun _ l₁ h₁ => ?_)
  cases truthy s.fromWallet with
  | none => exact ensures_recordTransaction (h none l₁ h₁)
  | some fromWallet =>
      refine Coroutine.ensures_bind.mpr ?_
      refine (sparesWeights_checkBalanceAtomic fromWallet s.amount l₁).imp fun found l₂ h₂ => ?_
      obtain ⟨sufficient, balance, version⟩ := found
      refine Coroutine.Ensures.tryCatch ?_ fun e l₃ => ?_
      · cases sufficient with
        | false => trivial
        | true => exact ensures_recordTransaction (h _ l₂ (h₂.trans h₁))
      · -- What the handler cleans up, it raises again.
        cases hAtomic : e.isAtomic with
        | true =>
            simp only [Bool.not_true, Bool.false_eq_true, if_false]
            trivial
        | false =>
            simp only [Bool.not_false, if_true]
            exact Coroutine.ensures_bind_of_forall fun _ _ => trivial

theorem ensures_submitTransaction {Post : Weights → Prop}
    (hRepeats : ∀ txId tx, s.idempotentTxId = some txId → l.weights.find? txId = some tx →
      Post { l.weights with loaded := l.weights.loaded.set txId tx })
    (hWrites : ∀ checked l₁, ¬l.weights.Repeats s → l₁.weights = l.weights →
      (writeTransaction s checked (buildTransaction lib s l₁)).Ensures (Ledger.serve 0)
        (fun _ l' => Post l'.weights) l₁) :
    (submitTransaction lib verifySignatures s).Ensures (Ledger.serve 0)
      (fun _ l' => Post l'.weights) l := by
  have hLocked : ∀ l₁ : Ledger, l₁.weights = l.weights → ¬l.weights.Repeats s →
      (withWriteLock (some s) (submitLocked lib verifySignatures s)).Ensures (Ledger.serve 0)
        (fun _ l' => Post l'.weights) l₁ := by
    intro l₁ h₁ hNew
    refine Coroutine.ensures_bind.mpr fun moment answer l₂ hServe => ?_
    refine Coroutine.ensures_andFinally (ensures_submitLocked fun checked l₃ h₃ => ?_)
    refine hWrites checked l₃ hNew ?_
    rw [h₃, ← h₁]
    simp only [Ledger.serve] at hServe
    split at hServe
    · cases hServe
      rfl
    · cases hServe
  unfold submitTransaction
  by_cases hAmount : s.amount < 0
  · simp only [hAmount, if_true]
    trivial
  · simp only [hAmount, if_false]
    cases hKey : s.idempotentTxId with
    | none => exact hLocked l rfl (by simp [Weights.Repeats, hKey])
    | some txId =>
        refine Coroutine.ensures_bind.mpr ?_
        refine ensures_gets_bind ?_
        cases hLoaded : l.memory.transactions.get? txId with
        | some tx =>
            have hSame := hRepeats txId tx hKey (by simp [Weights.find?, Ledger.weights, hLoaded])
            rwa [show l.weights.loaded = l.memory.transactions from rfl,
              Dict.set_of_get? hLoaded] at hSame
        | none =>
            refine Coroutine.ensures_bind.mpr (ensures_execute fun moment row l₁ hPerformed => ?_)
            have h₁ : l₁.weights = l.weights :=
              weights_execute (l := l.atMoment moment) rfl hPerformed
            have hRow : l.weights.find? txId = row := by
              have hAnswer := (Prod.mk.inj (Ledger.of_perform_ok hPerformed).2).1
              simp only [Weights.find?, Ledger.weights, hLoaded, Option.none_or]
              exact Except.ok.inj hAnswer
            cases row with
            | none =>
                refine hLocked l₁ h₁ ?_
                rw [Weights.Repeats, hKey, Option.bind_some, hRow]
                exact Bool.false_ne_true
            | some tx =>
                have hPost := hRepeats txId tx hKey hRow
                rw [← h₁] at hPost
                exact hPost

end Rules

end Prsm.DagLedger
