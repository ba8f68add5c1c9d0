import Prsm.PaymentAuth.Verifier

/-!
# The budget of a delegation

A relayed request reserves its ceiling against the cumulative cap of the funder's
delegation, and what it reserved is released once it turns out not to be needed.
The verifier holds a lock while it verifies and gives up control where it awaits
the balance.  Releases with the lock wait for the request to end; the lock-free
release and a crash do not.

The invariant is that the store, in memory and on disk, has consumed at least what is held
under each nonce.
-/

namespace Prsm.PaymentAuth

open Foundations Evm Settlement

/-! ## The verifier with its lock -/

/-- A hold: what a request reserved under a delegation, and what was released. -/
structure Hold where
  delegation : DelegationMessage
  reserved : Int
  released : Option Int

/-- What is reserved and not released. -/
def Hold.remaining (h : Hold) : Int := h.reserved - h.released.getD 0

structure BudgetState where
  stores : RelayerStores
  /-- The request that awaits the balance, with its funder.  It has the lock. -/
  waiting : Option (RelayerCall × String)
  holds : List Hold

inductive BudgetInput
  | verify (call : RelayerCall)
  /-- The balance reader answers. -/
  | resume
  /-- `release_reservation`, or `release_reservation_sync` without the lock. -/
  | release (locked : Bool) (hold : Nat) (delegationNonce : String) (amountWei : Int)
      (saved : Bool)
  | restart

/-- What a request holds once it has reserved. -/
def RelayerCall.hold (v : PaymentVerifier) (call : RelayerCall) : Option Hold := do
  let delegation ← buildDelegationTypedData v.delegation call.delegation
  let reserved ← call.auth.maxSpendWei
  some ⟨delegation, reserved, none⟩

/-- The end of a request, with its result.  The budget is reserved when the
request is accepted, and when only its nonce could not be persisted. -/
def conclude (v : PaymentVerifier) (s : BudgetState) (call : RelayerCall) (funder : String) :
    BudgetState × Option (Except Failure String) :=
  match verifyFromBalance v s.stores call funder with
  | (stores, .ok funder) =>
      ({ s with stores := stores, holds := s.holds ++ (call.hold v).toList }, some (.ok funder))
  | (stores, .error .nonceStore) =>
      ({ s with stores := stores, holds := s.holds ++ (call.hold v).toList },
        some (.error .nonceStore))
  | (stores, .error failure) => ({ s with stores := stores }, some (.error failure))

/-- One event, with the result of the request that it ends. -/
def respond (v : PaymentVerifier) (s : BudgetState) :
    BudgetInput → Option (BudgetState × Option (Except Failure String))
  | .verify call =>
      if s.waiting.isSome then none
      else
        match verifyUntilBalance v s.stores.nonces call with
        | .error failure => some (s, some (.error failure))
        | .ok funder =>
            if v.readsBalance then some ({ s with waiting := some (call, funder) }, none)
            else some (conclude v s call funder)
  | .resume =>
      match s.waiting with
      | none => none
      | some (call, funder) => some (conclude v { s with waiting := none } call funder)
  | .release locked i delegationNonce amountWei saved =>
      if locked ∧ s.waiting.isSome then none
      else
        match s.holds[i]? with
        | none => none
        | some hold =>
            -- each hold is released once, by at most what it reserved, under some
            -- spelling of the nonce that was signed
            if hold.released = none ∧ amountWei ≤ hold.reserved ∧
                bytes32Of delegationNonce = some hold.delegation.delegationNonce then
              some ({ s with
                stores := { s.stores with
                  budget := s.stores.budget.release v.lower delegationNonce amountWei saved }
                holds := s.holds.set i { hold with released := some (max 0 amountWei) } }, none)
            else none
  | .restart =>
      some ({ s with
        stores := ⟨s.stores.nonces.restart, s.stores.budget.restart v.lower⟩
        waiting := none }, none)

def budgetMachine (v : PaymentVerifier) : Machine BudgetState BudgetInput where
  step s i := (respond v s i).map Prod.fst

/-- A verifier over stores that do not exist yet. -/
def BudgetState.fresh : BudgetState := ⟨.fresh, none, []⟩

/-- What is reserved under a signed delegation and not released. -/
def BudgetState.heldUnder (s : BudgetState) (delegation : DelegationMessage) : Int :=
  sumWhere (fun h => h.delegation = delegation) Hold.remaining s.holds

/-! ## What the store covers -/

/-- Every key is the canonical spelling of 32 bytes. -/
def Canonical (d : Dict String Int) : Prop :=
  d.All fun key _ => ∃ raw : Bytes, raw.length = 32 ∧ key = canonicalKey raw

namespace BudgetStore

/-- Under each nonce the store has consumed at least what is held, in memory and
on disk. -/
structure Covers (store : BudgetStore) (held : Bytes → Int) : Prop where
  keys : Canonical store.consumed
  keysOnDisk : Canonical store.disk
  inMemory : ∀ raw, held raw ≤ amountAt store.consumed (canonicalKey raw)
  onDisk : ∀ raw, held raw ≤ amountAt store.disk (canonicalKey raw)

variable {store : BudgetStore} {held held' : Bytes → Int}

theorem Covers.record (h : store.Covers held) {raw : Bytes} (hRaw : raw.length = 32) {total : Int}
    {saved : Bool} (hHere : held' raw ≤ total)
    (hElse : ∀ other, other ≠ raw → held' other ≤ held other)
    (hLost : saved = false → held' raw ≤ held raw) :
    (store.record (canonicalKey raw) total saved).Covers held' := by
  have hKeys : Canonical (store.consumed.set (canonicalKey raw) total) :=
    h.keys.set ⟨raw, hRaw, rfl⟩
  have hMemory : ∀ other, held' other ≤
      amountAt (store.consumed.set (canonicalKey raw) total) (canonicalKey other) := by
    intro other
    rw [amountAt_set]
    split
    case isTrue hKey =>
      rw [canonicalKey_injective hKey]
      exact hHere
    case isFalse hKey =>
      have hNe : other ≠ raw := fun hEq => hKey (congrArg canonicalKey hEq)
      exact (hElse other hNe).trans (h.inMemory other)
  cases saved with
  | true => exact ⟨hKeys, hKeys, hMemory, hMemory⟩
  | false =>
      refine ⟨hKeys, h.keysOnDisk, hMemory, fun other => ?_⟩
      by_cases hEq : other = raw
      · exact hEq ▸ (hLost rfl).trans (h.onDisk raw)
      · exact (hElse other hEq).trans (h.onDisk other)

theorem Covers.mono (h : store.Covers held) (hLess : ∀ raw, held' raw ≤ held raw) :
    store.Covers held' :=
  ⟨h.keys, h.keysOnDisk, fun raw => (hLess raw).trans (h.inMemory raw),
    fun raw => (hLess raw).trans (h.onDisk raw)⟩

theorem Covers.release (h : store.Covers held) {lower : String → String} {nonce : String}
    {raw : Bytes} (hNonce : bytes32Of nonce = some raw) {amount : Int} (saved : Bool)
    (hHere : held' raw = held raw - max 0 amount)
    (hElse : ∀ other, other ≠ raw → held' other = held other) :
    (store.release lower nonce amount saved).Covers held' := by
  unfold BudgetStore.release
  split
  case isTrue hNone =>
    refine h.mono fun other => ?_
    by_cases hEq : other = raw
    · rw [hEq, hHere]
      omega
    · exact (hElse other hEq).le
  case isFalse hSome =>
    have hConsumed := h.inMemory raw
    rw [consumedUnder, budgetKey_of_bytes32Of hNonce]
    refine h.record (bytes32Of_eq_some_iff.mp hNonce).2 ?_ (fun other hEq => (hElse other hEq).le) ?_
    · show held' raw ≤ max 0 (amountAt store.consumed (canonicalKey raw) - amount)
      omega
    · intro _
      omega

theorem consumed_restart (lower : String → String) (h : Canonical store.disk) :
    (store.restart lower).consumed = store.disk := by
  have hSame : (store.disk.entries.map fun e => (budgetKey lower e.1, e.2)) =
      store.disk.entries := by
    refine (List.map_congr_left fun e he => ?_).trans (List.map_id _)
    obtain ⟨raw, hRaw, hKey⟩ := Dict.all_iff.mp h e he
    show (budgetKey lower e.1, e.2) = e
    rw [hKey, budgetKey_canonicalKey hRaw, ← hKey]
  apply Dict.ext
  show (Dict.ofEntries _).entries = _
  rw [hSame, Dict.entries_ofEntries store.disk.nodup]

theorem Covers.restart (h : store.Covers held) (lower : String → String) :
    (store.restart lower).Covers held := by
  have hConsumed := consumed_restart lower h.keysOnDisk
  refine ⟨?_, h.keysOnDisk, ?_, h.onDisk⟩
  · rw [hConsumed]
    exact h.keysOnDisk
  · rw [hConsumed]
    exact h.onDisk

end BudgetStore

/-! ## What a request holds -/

variable {v : PaymentVerifier} {call : RelayerCall} {funder : String} {s s' : BudgetState}

theorem exists_hold
    (h : checkRelayed v call = .ok funder) {cap amount : Int}
    (hCap : call.delegation.maxTotalSpendWei = some cap)
    (hAmount : call.auth.maxSpendWei = some amount) :
    ∃ delegation, call.hold v = some ⟨delegation, amount, none⟩ ∧
      bytes32Of call.delegation.delegationNonce.shown = some delegation.delegationNonce ∧
      cap = delegation.maxTotalSpendWei.val := by
  obtain ⟨delegSigner, -, hSigner, -, -⟩ := signers_of_checkRelayed h
  obtain ⟨-, delegation, -, hDelegation, -⟩ := recoverSigner_eq_ok hSigner
  obtain ⟨hMax, hNonce⟩ := fields_of_buildDelegationTypedData hDelegation
  refine ⟨delegation, ?_, bytes32Of_shown hNonce, ?_⟩
  · rw [RelayerCall.hold, hDelegation, hAmount]
    rfl
  · rw [hCap, Option.bind_some] at hMax
    exact (val_of_checkUint hMax).symm

/-- What is reserved under a nonce and not released. -/
def BudgetState.heldFor (s : BudgetState) (raw : Bytes) : Int :=
  sumWhere (fun h => h.delegation.delegationNonce = raw) Hold.remaining s.holds

structure BudgetState.Sound (v : PaymentVerifier) (s : BudgetState) : Prop where
  waiting : ∀ w ∈ s.waiting, checkRelayed v w.1 = .ok w.2
  nonneg : ∀ h ∈ s.holds, 0 ≤ h.remaining
  covers : s.stores.budget.Covers s.heldFor
  capped : ∀ delegation : DelegationMessage,
    s.heldUnder delegation ≤ delegation.maxTotalSpendWei.val

theorem BudgetState.sound_fresh (v : PaymentVerifier) : BudgetState.fresh.Sound v where
  waiting := fun _ hWaiting => by cases hWaiting
  nonneg := fun _ hHold => by cases hHold
  covers := ⟨Dict.all_empty _, Dict.all_empty _, fun _ => le_rfl, fun _ => le_rfl⟩
  capped := fun delegation => by
    show (0 : Int) ≤ _
    exact Int.natCast_nonneg _

theorem BudgetState.Sound.heldUnder_le (h : s.Sound v)
    (delegation : DelegationMessage) :
    s.heldUnder delegation ≤
      amountAt s.stores.budget.consumed (canonicalKey delegation.delegationNonce) := by
  have hPart : s.heldUnder delegation ≤ s.heldFor delegation.delegationNonce :=
    sumWhere_le_sumWhere (fun _ _ hSame => congrArg _ hSame) h.nonneg
  exact hPart.trans (h.covers.inMemory _)

theorem BudgetState.Sound.unlock (h : s.Sound v) :
    BudgetState.Sound v { s with waiting := none } :=
  { h with waiting := fun _ hWaiting => by cases hWaiting }

/-! ## The end of a request -/

theorem conclude_cases (v : PaymentVerifier) (s : BudgetState) (call : RelayerCall)
    (funder : String) :
    (∃ failure, failure.IsRefusal ∧ conclude v s call funder = (s, some (.error failure))) ∨
      ∃ cap amount, call.delegation.maxTotalSpendWei = some cap ∧
        call.auth.maxSpendWei = some amount ∧ 0 ≤ amount ∧
        s.stores.budget.consumedUnder v.lower call.delegation.delegationNonce.shown + amount ≤
          cap ∧
        if call.budgetSaved then
          ∃ nonces result, (result = .ok funder ∨ result = .error .nonceStore) ∧
            conclude v s call funder =
              ({ s with
                stores := ⟨nonces, call.reserved v s.stores.budget amount⟩
                holds := s.holds ++ (call.hold v).toList }, some result)
        else
          conclude v s call funder =
            ({ s with
              stores := { s.stores with budget := call.reserved v s.stores.budget amount } },
              some (.error .budgetStore)) := by
  unfold conclude
  rcases verifyFromBalance_cases v s.stores call funder with
    ⟨failure, hRefusal, hVerify⟩ | ⟨cap, amount, hCap, hAmount, hNonneg, hFits, hVerify⟩
  · refine .inl ⟨failure, hRefusal, ?_⟩
    rw [hVerify]
    cases failure <;> first | exact False.elim hRefusal | rfl
  · refine .inr ⟨cap, amount, hCap, hAmount, hNonneg, hFits, ?_⟩
    rw [hVerify]
    cases call.budgetSaved with
    | false => rfl
    | true =>
        cases call.nonceSaved with
        | false => exact ⟨_, _, .inr rfl, rfl⟩
        | true => exact ⟨_, _, .inl rfl, rfl⟩

theorem BudgetState.Sound.conclude (h : s.Sound v) (hChecked : checkRelayed v call = .ok funder) :
    (conclude v s call funder).1.Sound v := by
  rcases conclude_cases v s call funder with
    ⟨failure, -, hEnd⟩ | ⟨cap, amount, hCap, hAmount, hNonneg, hFits, hEnd⟩
  · rw [hEnd]
    exact h
  · obtain ⟨delegation, hHold, hNonce, rfl⟩ := exists_hold hChecked hCap hAmount
    have hKey : budgetKey v.lower call.delegation.delegationNonce.shown =
        canonicalKey delegation.delegationNonce := budgetKey_of_bytes32Of hNonce
    have hRaw : delegation.delegationNonce.length = 32 := (bytes32Of_eq_some_iff.mp hNonce).2
    have hConsumed : s.stores.budget.consumedUnder v.lower call.delegation.delegationNonce.shown =
        amountAt s.stores.budget.consumed (canonicalKey delegation.delegationNonce) := by
      rw [BudgetStore.consumedUnder, hKey]
    have hReserved : call.reserved v s.stores.budget amount =
        s.stores.budget.record (canonicalKey delegation.delegationNonce)
          (amountAt s.stores.budget.consumed (canonicalKey delegation.delegationNonce) + amount)
          call.budgetSaved := by
      rw [RelayerCall.reserved, hConsumed, hKey]
    rw [hConsumed] at hFits
    have hHeld := h.covers.inMemory delegation.delegationNonce
    cases hSaved : call.budgetSaved with
    | false =>
        -- the reservation is lost at the next restart, and nothing is held under it
        rw [hSaved, if_neg (by decide)] at hEnd
        rw [hEnd, hReserved]
        have hMore : s.heldFor delegation.delegationNonce ≤
            amountAt s.stores.budget.consumed (canonicalKey delegation.delegationNonce) + amount :=
          by omega
        exact ⟨h.waiting, h.nonneg,
          h.covers.record hRaw hMore (fun _ _ => le_rfl) fun _ => le_rfl, h.capped⟩
    | true =>
        rw [hSaved, if_pos rfl] at hEnd
        obtain ⟨nonces, result, -, hEnd⟩ := hEnd
        rw [hEnd, hReserved, hHold, hSaved]
        have hNew : (⟨delegation, amount, none⟩ : Hold).remaining = amount := sub_zero amount
        refine ⟨h.waiting, ?_, ?_, ?_⟩
        · intro hold hMem
          rcases List.mem_append.mp hMem with hOld | hLast
          · exact h.nonneg hold hOld
          · rw [Option.toList_some, List.mem_singleton] at hLast
            rw [hLast, hNew]
            exact hNonneg
        · refine h.covers.record hRaw ?_ ?_ fun hLost => by cases hLost
          · show sumWhere _ _ (s.holds ++ [_]) ≤ _
            rw [sumWhere_concat, if_pos rfl, hNew]
            exact Int.add_le_add_right hHeld amount
          · intro other hOther
            show sumWhere _ _ (s.holds ++ [_]) ≤ _
            rw [sumWhere_concat, if_neg (Ne.symm hOther), add_zero]
            exact le_rfl
        · intro other
          show sumWhere _ _ (s.holds ++ [_]) ≤ _
          rw [sumWhere_concat, hNew]
          split
          case isTrue hSame =>
            rw [← hSame]
            exact (Int.add_le_add_right (h.heldUnder_le delegation) amount).trans hFits
          case isFalse =>
            rw [add_zero]
            exact h.capped other

/-! ## Every event -/

theorem BudgetState.Sound.release (h : s.Sound v) {i : Nat}
    {hold : Hold} (hHold : s.holds[i]? = some hold) {delegationNonce : String} {amountWei : Int}
    (hUnreleased : hold.released = none) (hAmount : amountWei ≤ hold.reserved)
    (hNonce : bytes32Of delegationNonce = some hold.delegation.delegationNonce) (saved : Bool) :
    BudgetState.Sound v { s with
      stores := { s.stores with
        budget := s.stores.budget.release v.lower delegationNonce amountWei saved }
      holds := s.holds.set i { hold with released := some (max 0 amountWei) } } := by
  have hBefore : hold.remaining = hold.reserved := by
    rw [Hold.remaining, hUnreleased, Option.getD_none, sub_zero]
  have hReserved : 0 ≤ hold.reserved := hBefore ▸ h.nonneg hold (List.mem_of_getElem? hHold)
  have hAfter : Hold.remaining { hold with released := some (max 0 amountWei) } =
      hold.reserved - max 0 amountWei := rfl
  -- the hold stays under its delegation, so it moves only the sums it is part of
  have hSum := fun (p : DelegationMessage → Prop) [DecidablePred p] =>
    sumWhere_set (fun hold : Hold => p hold.delegation) Hold.remaining hHold
      { hold with released := some (max 0 amountWei) }
  simp only [hBefore, hAfter] at hSum
  refine ⟨h.waiting, ?_, ?_, ?_⟩
  · intro other hMem
    rcases List.mem_or_eq_of_mem_set hMem with hOld | rfl
    · exact h.nonneg other hOld
    · rw [hAfter]
      omega
  · refine h.covers.release hNonce saved ?_ ?_
    · have hHere := hSum fun delegation =>
        delegation.delegationNonce = hold.delegation.delegationNonce
      rw [if_pos rfl, if_pos rfl] at hHere
      show sumWhere _ _ (s.holds.set i _) = sumWhere _ _ s.holds - _
      omega
    · intro other hOther
      have hElse := hSum fun delegation => delegation.delegationNonce = other
      rw [if_neg (Ne.symm hOther), if_neg (Ne.symm hOther), add_zero, add_zero] at hElse
      exact hElse
  · intro delegation
    have hCapped := h.capped delegation
    have hPart := hSum (· = delegation)
    refine le_trans ?_ hCapped
    show sumWhere _ _ (s.holds.set i _) ≤ sumWhere _ _ s.holds
    split at hPart <;> omega

theorem respond_sound {i : BudgetInput}
    {result : Option (Except Failure String)} (h : s.Sound v)
    (hNext : respond v s i = some (s', result)) : s'.Sound v := by
  cases i with
  | verify call =>
      simp only [respond] at hNext
      split at hNext
      · cases hNext
      cases hUntil : verifyUntilBalance v s.stores.nonces call with
      | error failure =>
          rw [hUntil] at hNext
          cases hNext
          exact h
      | ok funder =>
          rw [hUntil] at hNext
          have hChecked := (verifyUntilBalance_eq_ok hUntil).1
          simp only at hNext
          split at hNext
          · cases hNext
            refine ⟨fun w hWaiting => ?_, h.nonneg, h.covers, h.capped⟩
            cases hWaiting
            exact hChecked
          · have hEnd := h.conclude hChecked
            rw [Option.some.inj hNext] at hEnd
            exact hEnd
  | resume =>
      simp only [respond] at hNext
      split at hNext
      · cases hNext
      case h_2 call funder hWaiting =>
        have hEnd := h.unlock.conclude (h.waiting (call, funder) hWaiting)
        rw [Option.some.inj hNext] at hEnd
        exact hEnd
  | release locked i delegationNonce amountWei saved =>
      simp only [respond] at hNext
      split at hNext
      · cases hNext
      split at hNext
      · cases hNext
      case h_2 hold hHold =>
        split at hNext
        case isTrue hAllowed =>
          cases hNext
          exact h.release hHold hAllowed.1 hAllowed.2.1 hAllowed.2.2 saved
        · cases hNext
  | restart =>
      cases hNext
      exact ⟨h.unlock.waiting, h.nonneg, h.covers.restart v.lower, h.capped⟩

theorem stores_of_conclude_rejected {reason : Reason}
    (h : conclude v s call funder = (s', some (.error (.rejected reason)))) :
    s'.stores = s.stores := by
  rcases conclude_cases v s call funder with
    ⟨failure, -, hEnd⟩ | ⟨cap, amount, -, -, -, -, hEnd⟩
  · rw [hEnd] at h
    cases h
    rfl
  · split at hEnd
    · obtain ⟨nonces, result, hResult, hEnd⟩ := hEnd
      rw [hEnd] at h
      rcases hResult with rfl | rfl <;> cases h
    · rw [hEnd] at h
      cases h

theorem stores_of_rejected {i : BudgetInput}
    {reason : Reason} (h : respond v s i = some (s', some (.error (.rejected reason)))) :
    s'.stores = s.stores := by
  cases i with
  | verify call =>
      simp only [respond] at h
      split at h
      · cases h
      split at h
      · cases h
        rfl
      split at h
      · cases h
      · exact stores_of_conclude_rejected (Option.some.inj h)
  | resume =>
      simp only [respond] at h
      split at h
      · cases h
      · have hStores := stores_of_conclude_rejected (Option.some.inj h)
        exact hStores
  | release locked i delegationNonce amountWei saved =>
      simp only [respond] at h
      split at h
      · cases h
      split at h
      · cases h
      split at h <;> cases h
  | restart => cases h

end Prsm.PaymentAuth
