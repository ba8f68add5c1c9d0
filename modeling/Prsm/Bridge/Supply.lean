import Prsm.Bridge.Delivery
import Prsm.BridgeSecurity.Validators

/-!
# What has left and what has arrived

The counters of a bridge are the sums over the transfers it has announced and delivered
(`counters_accounted`), and no transfer arrives twice (`delivered_once`).

On chains whose validators sign what a bridge has announced for their chain and nothing else,
every arrival is a transfer that has left for there.  So in every interleaving no more has
arrived on all chains than has left them (`arrivals_covered`).
-/

namespace Prsm.Bridge

open Foundations Evm
open BridgeSecurity (BridgeMessage ValidatorSignature)

section Calls

variable {crypto : Crypto} {env : Env} {s s' : State} {security security' : BridgeSecurity.State}
  {t t' : FtnsToken.State} {events : List Event}

theorem mintFee_total {fee total : Nat} (h : mintFee s t fee = .ok (t', total)) :
    total = s.totalFeesCollected + fee := by
  unfold mintFee at h
  split at h
  case isTrue =>
    simp only [bind_eq_ok_iff, checkedAdd_eq_ok_iff, pure_eq_ok_iff, Prod.mk.injEq] at h
    obtain ⟨_, -, _, ⟨-, rfl⟩, -, rfl⟩ := h
    rfl
  case isFalse hNone =>
    simp only [pure_eq_ok_iff, Prod.mk.injEq] at h
    rw [← h.2, Nat.eq_zero_of_not_pos hNone, Nat.add_zero]

theorem bridgeOut_books {amount destinationChain : Uint 256}
    (h : bridgeOut crypto env s security t amount destinationChain = .ok (s', t', events)) :
    s'.books = { s.books with
      nonces := s'.userBridgeOutNonce
      outbound := s.totalBridgedOut + (amount - amount.val * s.bridgeFeeBps / 10000)
      fees := s.totalFeesCollected + amount.val * s.bridgeFeeBps / 10000 } := by
  simp only [bridgeOut, bind_eq_ok_iff, checkedMul_eq_ok_iff, checkedSub_eq_ok_iff,
    checkedAdd_eq_ok_iff, pure_eq_ok_iff, Prod.mk.injEq] at h
  obtain ⟨-, -, -, -, -, -, -, -, -, -, -, -, product, ⟨-, rfl⟩, left, ⟨-, rfl⟩, nonce, -, moved,
    -, burnt, -, ⟨paid, fees⟩, hFee, total, ⟨-, rfl⟩, rfl, -⟩ := h
  obtain rfl := mintFee_total hFee
  rfl

theorem bridgeIn_books {m : BridgeMessage} {signatures : List ValidatorSignature}
    (h : bridgeIn crypto env s security t m signatures = .ok (s', security', t', events)) :
    s.processedSourceTx m.sourceTxId = false ∧
      s'.books = { s.books with
        processed := Function.update s.processedSourceTx m.sourceTxId true
        inbound := s.totalBridgedIn + m.amount } := by
  simp only [bridgeIn, bind_eq_ok_iff, require_eq_ok_iff, checkedAdd_eq_ok_iff, pure_eq_ok_iff,
    Prod.mk.injEq] at h
  obtain ⟨-, -, -, -, -, -, -, -, -, hNew, result, -, -, -, minted, -, total, ⟨-, rfl⟩, rfl,
    -⟩ := h
  exact ⟨hNew, rfl⟩

end Calls

/-! ## One chain -/

variable {crypto : Crypto} {w w' : World} {i : Input}

/-- What a step announces, delivers and counts. -/
inductive BooksMove (w : World) (i : Input) (w' : World) : Prop
  | announced (t : Transfer) (hAmount : t.amount ≤ t.gross) (hSent : w'.sent = t :: w.sent)
      (hDelivered : w'.delivered = w.delivered)
      (hBooks : w'.bridge.books = { w.bridge.books with
        nonces := w'.bridge.userBridgeOutNonce
        outbound := w.bridge.totalBridgedOut + t.amount
        fees := w.bridge.totalFeesCollected + (t.gross - t.amount) })
  | delivered (d : Delivery) (hInput : ∃ env signatures, i = .bridgeIn env d.message signatures)
      (hNew : w.bridge.processedSourceTx d.message.sourceTxId = false)
      (hSent : w'.sent = w.sent) (hDelivered : w'.delivered = d :: w.delivered)
      (hBooks : w'.bridge.books = { w.bridge.books with
        processed := Function.update w.bridge.processedSourceTx d.message.sourceTxId true
        inbound := w.bridge.totalBridgedIn + d.message.amount })
  | kept (hSent : w'.sent = w.sent) (hDelivered : w'.delivered = w.delivered)
      (hBooks : w'.bridge.books = w.bridge.books)

theorem step_booksMove (h : step crypto w i = some w') : BooksMove w i w' := by
  cases accepted_of_step h with
  | @bridgeOut env amount destinationChain security s t events hSecurity hCall =>
      obtain ⟨_, -, hFee, -, -, rfl⟩ := bridgeOut_eq_ok hCall
      refine .announced _ (Nat.sub_le _ _) rfl rfl ?_
      rw [Nat.sub_sub_self hFee]
      exact bridgeOut_books hCall
  | bridgeIn _ hCall =>
      obtain ⟨hNew, hBooks⟩ := bridgeIn_books hCall
      exact .delivered _ ⟨_, _, rfl⟩ hNew rfl rfl hBooks
  | admin hCall => exact .kept rfl rfl (adminCall_books hCall)
  | security => exact .kept rfl rfl rfl
  | token => exact .kept rfl rfl rfl

/-- The bridge has counted what it announced and delivered, and has marked what it
delivered by the transaction on the source chain, once each. -/
structure Booked (w : World) : Prop where
  outbound_eq : w.bridge.totalBridgedOut = (w.sent.map (·.amount)).sum
  fees_eq : w.bridge.totalFeesCollected = (w.sent.map fun t => t.gross - t.amount).sum
  inbound_eq : w.bridge.totalBridgedIn = (w.delivered.map fun d => d.message.amount.val).sum
  processed : ∀ d ∈ w.delivered, w.bridge.processedSourceTx d.message.sourceTxId = true
  nodup : (w.delivered.map (·.message.sourceTxId)).Nodup

theorem processed_step {id : Bytes32} (hId : w.bridge.processedSourceTx id = true)
    (h : step crypto w i = some w') : w'.bridge.processedSourceTx id = true := by
  cases step_booksMove h with
  | announced _ _ _ _ hBooks | kept _ _ hBooks =>
      exact (congrFun (congrArg Books.processed hBooks) id).trans hId
  | delivered d _ _ _ _ hBooks =>
      have hMarked : w'.bridge.processedSourceTx = Function.update w.bridge.processedSourceTx
        d.message.sourceTxId true := congrArg Books.processed hBooks
      by_cases hHere : id = d.message.sourceTxId
      · rw [hMarked, hHere, Function.update_self]
      · rw [hMarked, Function.update_of_ne hHere, hId]

theorem Booked.step (hw : Booked w) (h : step crypto w i = some w') : Booked w' := by
  have hMono := fun d hMem => processed_step (hw.processed d hMem) h
  cases step_booksMove h with
  | announced t hAmount hSent hDelivered hBooks =>
      refine ⟨?_, ?_, ?_, hDelivered ▸ hMono, hDelivered ▸ hw.nodup⟩
      · rw [hSent, List.map_cons, List.sum_cons, ← hw.outbound_eq, Nat.add_comm]
        exact congrArg Books.outbound hBooks
      · rw [hSent, List.map_cons, List.sum_cons, ← hw.fees_eq, Nat.add_comm]
        exact congrArg Books.fees hBooks
      · rw [hDelivered, ← hw.inbound_eq]
        exact congrArg Books.inbound hBooks
  | delivered d hInput hNew hSent hDelivered hBooks =>
      refine ⟨?_, ?_, ?_, ?_, ?_⟩
      · rw [hSent, ← hw.outbound_eq]
        exact congrArg Books.outbound hBooks
      · rw [hSent, ← hw.fees_eq]
        exact congrArg Books.fees hBooks
      · rw [hDelivered, List.map_cons, List.sum_cons, ← hw.inbound_eq, Nat.add_comm]
        exact congrArg Books.inbound hBooks
      · rw [hDelivered]
        refine List.forall_mem_cons.mpr ⟨?_, hMono⟩
        exact (congrFun (congrArg Books.processed hBooks) _).trans (Function.update_self ..)
      · rw [hDelivered]
        refine List.nodup_cons.mpr ⟨fun hMem => ?_, hw.nodup⟩
        -- A message with the same transaction would have been marked before.
        obtain ⟨other, hOlder, hSame⟩ := List.mem_map.mp hMem
        have hOld := hw.processed other hOlder
        rw [hSame, hNew] at hOld
        cases hOld
  | kept hSent hDelivered hBooks =>
      refine ⟨?_, ?_, ?_, hDelivered ▸ hMono, hDelivered ▸ hw.nodup⟩
      · rw [hSent, ← hw.outbound_eq]
        exact congrArg Books.outbound hBooks
      · rw [hSent, ← hw.fees_eq]
        exact congrArg Books.fees hBooks
      · rw [hDelivered, ← hw.inbound_eq]
        exact congrArg Books.inbound hBooks

theorem Deployment.booked (d : Deployment crypto) : Booked d.world := by
  have hConstructed := d.constructed
  simp only [construct, bind_eq_ok_iff, pure_eq_ok_iff] at hConstructed
  obtain ⟨-, -, hState⟩ := hConstructed
  have hBridge : d.world.bridge = d.state := rfl
  refine ⟨?_, ?_, ?_, fun _ hMem => absurd hMem List.not_mem_nil, List.nodup_nil⟩ <;>
    rw [hBridge, ← hState] <;> rfl

theorem booked_run (d : Deployment crypto) (inputs : List Input) :
    Booked ((machine crypto).run d.world inputs) :=
  (machine crypto).run_invariant Booked (fun _ _ _ hw hNext => hw.step hNext) d.booked inputs

/-- In every run, by any callers, the counters of the bridge are the sums over the transfers
that it has announced and over those that it has delivered. -/
theorem counters_accounted (d : Deployment crypto) (inputs : List Input) :
    let w := (machine crypto).run d.world inputs
    w.bridge.totalBridgedOut = (w.sent.map (·.amount)).sum ∧
      w.bridge.totalFeesCollected = (w.sent.map fun t => t.gross - t.amount).sum ∧
      w.bridge.totalBridgedIn = (w.delivered.map fun d => d.message.amount.val).sum :=
  let hw := booked_run d inputs
  ⟨hw.outbound_eq, hw.fees_eq, hw.inbound_eq⟩

/-- In every run, whoever calls what, no transaction of a source chain is delivered twice,
and one that has been delivered is refused from then on, whatever message and signatures it
comes with, also after the security contract has been replaced. -/
theorem delivered_once (d : Deployment crypto) (inputs more : List Input) :
    let w := (machine crypto).run d.world inputs
    let later := (machine crypto).run w more
    (w.delivered.map (·.message.sourceTxId)).Nodup ∧
      ∀ delivery ∈ w.delivered, ∀ env m signatures,
        m.sourceTxId = delivery.message.sourceTxId →
          step crypto later (.bridgeIn env m signatures) = none := by
  intro w later
  have hOnce := booked_run d inputs
  refine ⟨hOnce.nodup, fun delivery hMem env m signatures hSame => deliver_refused ?_⟩
  exact (machine crypto).run_invariant (fun w => w.bridge.processedSourceTx m.sourceTxId = true)
    (fun _ _ _ hId hNext => processed_step hId hNext) (hSame ▸ hOnce.processed delivery hMem) more

/-! ## The signatures of what is delivered -/

/-- Every security contract of the chain counts its validators and wants one signature at
least. -/
def Guarded (w : World) : Prop :=
  ∀ contract s, w.securities contract = some s → s.ValidatorsSound

theorem Guarded.update (hw : Guarded w) {contract : Address} {s : BridgeSecurity.State}
    (hs : s.ValidatorsSound) (hSame : w'.securities = Function.update w.securities contract s) :
    Guarded w' := by
  intro other t hOther
  rw [hSame] at hOther
  by_cases hHere : other = contract
  · rw [hHere, Function.update_self] at hOther
    exact Option.some.inj hOther ▸ hs
  · rw [Function.update_of_ne hHere] at hOther
    exact hw other t hOther

theorem Guarded.step (hw : Guarded w) (h : step crypto w i = some w') : Guarded w' := by
  cases accepted_of_step h with
  | bridgeOut | admin | token => exact hw
  | @bridgeIn _ _ _ security security' _ _ _ hSecurity hCall =>
      obtain ⟨-, -, hConsumed, -⟩ := bridgeIn_eq_ok hCall
      have hSound : security'.ValidatorsSound := by
        obtain ⟨hCounted, hPos, hLe⟩ := hw _ _ hSecurity
        exact hConsumed ▸ ⟨hCounted, hPos, hLe⟩
      exact hw.update hSound rfl
  | security hSecurity hCall =>
      exact hw.update (BridgeSecurity.call_sound (hw _ _ hSecurity) hCall) rfl

/-- A message is delivered on the signatures of validators of the security contract that the
bridge calls: of as many of them as it wants, and of one at least. -/
def SignedEnough (crypto : Crypto) (w : World) (i : Input) : Prop :=
  ∀ env m signatures, i = .bridgeIn env m signatures → ∃ s, w.security = some s ∧
    let signers := BridgeSecurity.signers crypto s
      (BridgeSecurity.hashBridgeMessage crypto (env.callSecurity w.bridge) s m) signatures
    signers ⊆ BridgeSecurity.flagged s.isValidator ∧ s.signatureThreshold ≤ signers.card ∧
      1 ≤ signers.card

/-- In every run, whoever calls what, each accepted delivery carries the valid signatures of as
many distinct registered validators as the threshold then says, and of one at least, also after
the last validator has been removed or the security contract has been replaced. -/
theorem deliveries_signed (d : Deployment crypto) (inputs : List Input) :
    (machine crypto).EveryStep (SignedEnough crypto) d.world inputs := by
  rintro before i - hAccepted env m signatures rfl
  have hGuarded : Guarded ((machine crypto).run d.world before) :=
    (machine crypto).run_invariant Guarded (fun _ _ _ hw hNext => hw.step hNext)
      (fun contract s hSecurity => by
        obtain ⟨_, _, _, _, hBuilt⟩ := d.initialised contract s hSecurity
        exact BridgeSecurity.construct_sound hBuilt) before
  obtain ⟨w', hStep⟩ : ∃ w', step crypto ((machine crypto).run d.world before)
      (.bridgeIn env m signatures) = some w' := Option.isSome_iff_exists.mp hAccepted
  cases accepted_of_step hStep with
  | @bridgeIn _ _ _ security _ _ _ _ hSecurity hCall =>
      have hPos := (hGuarded _ _ hSecurity).threshold_pos
      simp only [bridgeIn, bind_eq_ok_iff, raise_eq_ok_iff, require_eq_ok_iff] at hCall
      obtain ⟨-, -, -, -, -, -, -, -, -, -, result, hVerify, -, hValid, -⟩ := hCall
      obtain ⟨-, -, hEnough⟩ := BridgeSecurity.counted_of_accepted hVerify hValid
      refine ⟨security, hSecurity, fun a hSigner => ?_, hEnough, hPos.trans hEnough⟩
      exact BridgeSecurity.mem_flagged.mpr (mem_keysDecided.mp hSigner).1

/-! ## Several chains -/

section Chains

variable {ι : Type} [DecidableEq ι] (chainId : ι → Uint 256)

/-- The message has been announced for the chain. -/
def AnnouncedFor (ws : ι → World) (c : ι) (m : BridgeMessage) : Prop :=
  ∃ source, ∃ t ∈ (ws source).sent, t.destinationChain = chainId c ∧ t.message = m

/-- The validators of a chain sign only what some bridge has announced for their chain, so
nothing else arrives there. -/
def SignedAnnounced (ws : ι → World) (i : ι × Input) : Prop :=
  ∀ env m signatures, i.2 = .bridgeIn env m signatures → AnnouncedFor chainId ws i.1 m

def ArrivedAnnounced (ws : ι → World) : Prop :=
  ∀ c, ∀ d ∈ (ws c).delivered, AnnouncedFor chainId ws c d.message

variable {chainId} {ws ws' : ι → World} {i : ι × Input}

theorem AnnouncedFor.step {c : ι} {m : BridgeMessage} {w' : World}
    (h : AnnouncedFor chainId ws c m) (hStep : step crypto (ws i.1) i.2 = some w') :
    AnnouncedFor chainId (Function.update ws i.1 w') c m := by
  obtain ⟨source, t, hMem, hMatches⟩ := h
  refine ⟨source, t, ?_, hMatches⟩
  by_cases hSource : source = i.1
  · subst hSource
    rw [Function.update_self]
    cases step_booksMove hStep with
    | announced first _ hGrown => exact hGrown ▸ List.mem_cons_of_mem first hMem
    | delivered _ _ _ hSame | kept hSame => exact hSame ▸ hMem
  · rwa [Function.update_of_ne hSource]

theorem ArrivedAnnounced.step (hw : ArrivedAnnounced chainId ws)
    (hSigned : SignedAnnounced chainId ws i)
    (h : (machine crypto).sideBySide.step ws i = some ws') : ArrivedAnnounced chainId ws' := by
  obtain ⟨w', hStep, rfl⟩ := Option.map_eq_some_iff.mp h
  intro c d hMem
  refine AnnouncedFor.step ?_ hStep
  by_cases hChain : c = i.1
  · subst hChain
    rw [Function.update_self] at hMem
    cases step_booksMove hStep with
    | announced _ _ _ hSame | kept _ hSame => exact hw i.1 d (hSame ▸ hMem)
    | delivered first hInput _ _ hGrown =>
        obtain ⟨env, signatures, hInput⟩ := hInput
        rcases List.mem_cons.mp (hGrown ▸ hMem) with rfl | hOlder
        · exact hSigned _ _ _ hInput
        · exact hw i.1 d hOlder
  · rw [Function.update_of_ne hChain] at hMem
    exact hw c d hMem

/-- A bridge that delivers announced transfers only, and each once, has let in no more than
was announced. -/
theorem Booked.inbound_le {w : World} (hw : Booked w) {ts : List Transfer}
    (hFormed : ∀ t ∈ ts, t.message.amount.val = t.amount)
    (hAnnounced : ∀ d ∈ w.delivered, d.message ∈ ts.map Transfer.message) :
    w.bridge.totalBridgedIn ≤ (ts.map (·.amount)).sum := by
  have hNodup : (w.delivered.map Delivery.message).Nodup := by
    refine List.Nodup.of_map BridgeMessage.sourceTxId ?_
    rw [List.map_map]
    exact hw.nodup
  have hLe := sum_map_le_of_nodup hNodup hAnnounced
    (fun m _ => (Int.natCast_nonneg m.amount.val))
  have hAmounts : (ts.map Transfer.message).map (fun m => (m.amount.val : Int)) =
      ts.map fun t => (t.amount : Int) := by
    rw [List.map_map]
    exact List.map_congr_left fun t hMem => congrArg Nat.cast (hFormed t hMem)
  rw [hAmounts] at hLe
  rw [hw.inbound_eq]
  zify
  simpa [List.map_map, Function.comp_def] using hLe

/-- A transfer goes to one chain at most. -/
theorem sum_to_chains_le [Fintype ι] (hIds : Function.Injective chainId) (ts : List Transfer) :
    ∑ c, ((ts.filter fun t => t.destinationChain = chainId c).map (·.amount)).sum ≤
      (ts.map (·.amount)).sum := by
  induction ts with
  | nil => simp
  | cons t ts ih =>
      have hHere : ∑ c, (if t.destinationChain = chainId c then t.amount else 0) ≤ t.amount := by
        by_cases hSome : ∃ c, t.destinationChain = chainId c
        · obtain ⟨c, hChain⟩ := hSome
          simp [hChain, hIds.eq_iff]
        · simp [not_exists.mp hSome]
      have hSplit : ∀ c, (((t :: ts).filter fun t => t.destinationChain = chainId c).map
          (·.amount)).sum = (if t.destinationChain = chainId c then t.amount else 0) +
            ((ts.filter fun t => t.destinationChain = chainId c).map (·.amount)).sum := by
        intro c
        by_cases hChain : t.destinationChain = chainId c <;> simp [hChain]
      simp only [hSplit, Finset.sum_add_distrib, List.map_cons, List.sum_cons]
      omega

end Chains

/-- Chains with different identifiers, each with a deployed bridge, run side by side.  If
validators sign only what some bridge has announced for their chain, then in every
interleaving the bridges together have let in no more than they have let out. -/
theorem arrivals_covered {ι : Type} [DecidableEq ι] [Fintype ι] (chainId : ι → Uint 256)
    (hIds : Function.Injective chainId) (d : ι → Deployment crypto) (inputs : List (ι × Input))
    (hSigned : (machine crypto).sideBySide.EveryStep (SignedAnnounced chainId)
      (fun c => (d c).world) inputs) :
    let ws := (machine crypto).sideBySide.run (fun c => (d c).world) inputs
    ∑ c, (ws c).bridge.totalBridgedIn ≤ ∑ c, (ws c).bridge.totalBridgedOut := by
  intro ws
  have hMember : ∀ c, ws c = (machine crypto).run (d c).world (Machine.inputsOf c inputs) :=
    fun c => (machine crypto).run_sideBySide _ inputs c
  have hBooked : ∀ c, Booked (ws c) := fun c => hMember c ▸ booked_run (d c) _
  have hArrived : ArrivedAnnounced chainId ws :=
    ((machine crypto).sideBySide.everyState_of_everyStep (ArrivedAnnounced chainId) _
      (fun _ _ _ hw hHere hNext => hw.step hHere hNext)
      (fun _ _ hMem => absurd hMem List.not_mem_nil) hSigned).last
  let all := Finset.univ.toList.flatMap fun c => (ws c).sent
  let bound := fun c => all.filter fun t => t.destinationChain = chainId c
  have hAll : ∀ t, t ∈ all ↔ ∃ c, t ∈ (ws c).sent := fun t => by simp [all]
  have hTotal : (all.map (·.amount)).sum = ∑ c, ((ws c).sent.map (·.amount)).sum := by
    show ((Finset.univ.toList.flatMap fun c => (ws c).sent).map (·.amount)).sum = _
    rw [List.map_flatMap, List.flatMap_def, List.sum_flatten, List.map_map]
    exact Finset.sum_map_toList (Finset.univ : Finset ι) _
  have hChain : ∀ c, (ws c).bridge.totalBridgedIn ≤ ((bound c).map (·.amount)).sum := by
    intro c
    refine (hBooked c).inbound_le (fun t hMem => ?_) fun d hMem => ?_
    · obtain ⟨source, hSource⟩ := (hAll t).mp (List.mem_of_mem_filter hMem)
      rw [hMember source] at hSource
      exact ((sentWellFormed_run (d source) _).transfers t hSource).message_amount
    · obtain ⟨source, t, hSource, hDest, hMessage⟩ := hArrived c d hMem
      refine List.mem_map.mpr ⟨t, List.mem_filter.mpr ⟨(hAll t).mpr ⟨source, hSource⟩, ?_⟩,
        hMessage⟩
      simpa using hDest
  calc ∑ c, (ws c).bridge.totalBridgedIn ≤ ∑ c, ((bound c).map (·.amount)).sum :=
        Finset.sum_le_sum fun c _ => hChain c
    _ ≤ (all.map (·.amount)).sum := sum_to_chains_le hIds all
    _ = ∑ c, (ws c).bridge.totalBridgedOut :=
        hTotal.trans (Finset.sum_congr rfl fun c _ => (hBooked c).outbound_eq.symm)

/-- Chain `1` and chain `10`, with a fresh bridge each. -/
def twoChains (c : Bool) : Deployment namedSignerCrypto :=
  freshDeployment (if c then 10 else 1)

/-- A transfer from chain `1` and its delivery. -/
def oneTransferRun : List (Bool × Input) :=
  [(false, sendTo 10 3 50), (true, (relayOf (transferOf 3 50 1)).input)]

theorem arrivals_covered_oneTransferRun :
    let ws := (machine namedSignerCrypto).sideBySide.run (fun c => (twoChains c).world)
      oneTransferRun
    (ws true).bridge.totalBridgedIn = 99 ∧
      ∑ c, (ws c).bridge.totalBridgedIn ≤ ∑ c, (ws c).bridge.totalBridgedOut := by
  have hIds : Function.Injective fun c : Bool => (if c then 10 else 1 : Uint 256) := by decide
  refine ⟨?_, arrivals_covered _ hIds twoChains oneTransferRun ?_⟩
  · rw [Machine.run_sideBySide]
    decide +kernel
  · have hSent : transferOf 3 50 1 ∈
        ((machine namedSignerCrypto).exec (freshWorld 1) (sendTo 10 3 50)).sent := by
      decide +kernel
    refine (Machine.everyStep_cons _).mpr ⟨fun _ _ _ _ h => (by cases h),
      (Machine.everyStep_cons _).mpr ⟨fun _ env m signatures h => ?_, Machine.everyStep_nil _⟩⟩
    obtain rfl : (relayOf (transferOf 3 50 1)).transfer.message = m := by
      injection h
    refine ⟨false, transferOf 3 50 1, ?_, rfl, rfl⟩
    rw [Machine.exec_sideBySide]
    exact hSent

end Prsm.Bridge
