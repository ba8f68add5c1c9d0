import Prsm.DagLedger.Assertions

/-!
# The key of a debit

The signature of a debit is checked with the key that the caller supplies, and with the
registered key only where the caller supplies none.  `KeyAgrees` is what is missing: a
submission that needs a signature names no key, or the one that is registered.
-/

namespace Prsm.DagLedger

open Foundations

/-- The caller supplies no key, or the one that is registered for the payer. -/
def KeyAgrees (s : Submission) (m : Memory) : Prop :=
  ∀ w ∈ s.fromWallet, ∀ k ∈ m.walletPublicKeys.get? w,
    truthy s.publicKey = none ∨ truthy s.publicKey = some k

variable (lib : Library) (verifySignatures : Bool)

/-- A debit that needs a signature carries one under the registered key of the payer. -/
def Verified (tx : DAGTransaction) (m : Memory) : Prop :=
  verifySignatures && isSignatureRequired tx.txType tx.fromWallet →
    ∀ w ∈ tx.fromWallet, ∀ k ∈ m.walletPublicKeys.get? w, ∃ signature ∈ tx.signature,
      lib.verifySignature (lib.hash tx) signature k

/-- A submission that needs a signature takes the lock with a key that agrees. -/
def TakesOwnKey (l : Ledger) : Request → Prop
  | .acquireWriteLock (some s) =>
      verifySignatures && isSignatureRequired s.txType s.fromWallet → KeyAgrees s l.memory
  | _ => True

instance (s : Submission) (m : Memory) : Decidable (KeyAgrees s m) :=
  inferInstanceAs (Decidable (∀ w ∈ s.fromWallet, ∀ k ∈ m.walletPublicKeys.get? w, _))

instance (tx : DAGTransaction) (m : Memory) : Decidable (Verified lib verifySignatures tx m) :=
  inferInstanceAs (Decidable (_ → ∀ w ∈ tx.fromWallet, ∀ k ∈ m.walletPublicKeys.get? w,
    ∃ signature ∈ tx.signature, _))

instance (l : Ledger) : (r : Request) → Decidable (TakesOwnKey verifySignatures l r)
  | .acquireWriteLock (some s) => inferInstanceAs (Decidable (_ → KeyAgrees s l.memory))
  | .acquireWriteLock none => isTrue trivial
  | .execute _ => isTrue trivial

/-- What the stages say of the keys. -/
def keyAssertions : Assertions where
  Rest := fun _ _ => True
  Assert := fun st _ m =>
    match st with
    | .held s _ | .ready s _ | .opened s _ | .absent s _ | .found s _ _ | .inserted s _
    | .weighed s _ _ _ =>
        verifySignatures && isSignatureRequired s.txType s.fromWallet → KeyAgrees s m
    | .prepared tx _ => Verified lib verifySignatures tx m
    | _ => True

variable {lib verifySignatures}

theorem truthy_eq_some {text : Option String} {t : String} (h : truthy text = some t) :
    text = some t := by
  obtain ⟨hText, -⟩ := Option.filter_eq_some_iff.mp h
  exact hText

theorem verified_of_prepare {s : Submission} {l : Ledger} {tx : DAGTransaction}
    (hKey : verifySignatures && isSignatureRequired s.txType s.fromWallet → KeyAgrees s l.memory)
    (h : prepare lib verifySignatures s l = .ok tx) :
    Verified lib verifySignatures tx l.memory := by
  obtain ⟨rfl, hChecked⟩ := of_prepare h
  intro hRequired w hFrom k hRegistered
  obtain ⟨signature, key, hSignature, hVerifyKey, hVerified⟩ := hChecked hRequired
  refine ⟨signature, truthy_eq_some hSignature, ?_⟩
  have hChosen : (truthy s.publicKey).or (l.memory.registeredKey s.fromWallet) = some k := by
    have hRegisteredKey : l.memory.registeredKey s.fromWallet = some k := by
      rw [show s.fromWallet = some w from hFrom]
      exact hRegistered
    obtain hNone | hSome := hKey hRequired w hFrom k hRegistered
    · rw [hNone, Option.none_or, hRegisteredKey]
    · rw [hSome, Option.some_or]
  rw [Memory.verifyKey, hChosen] at hVerifyKey
  obtain rfl := Option.some.inj (truthy_eq_some hVerifyKey)
  exact hVerified

theorem keyAgrees_register {s : Submission} {m : Memory} {w key : String}
    (hFrom : truthy s.fromWallet = some w) (hKey : truthy s.publicKey = some key) :
    KeyAgrees s { m with walletPublicKeys := m.walletPublicKeys.set w key } := by
  intro w' hFrom' k hRegistered
  rw [truthy_eq_some hFrom] at hFrom'
  cases hFrom'
  rw [Dict.get?_set_self] at hRegistered
  rw [hKey]
  exact Or.inr hRegistered

theorem keyAssertions_valid :
    (keyAssertions lib verifySignatures).Valid lib verifySignatures
      (fun _ => TakesOwnKey verifySignatures) where
  outside := fun _ _ => trivial
  acquire := by
    intro moment l submission _ hAllowed
    cases submission with
    | none => trivial
    | some s => exact hAllowed
  unlocks := by
    intro st st' db m hUnlocks _
    cases hUnlocks <;> exact ⟨trivial, trivial⟩
  sees := by
    intro st l st' hSees h
    cases hSees with
    | stay => exact h
    | cached => exact h
    | prepareCredit _ _ hPrepared => exact verified_of_prepare h hPrepared
    | prepareDebit _ _ _ hPrepared => exact verified_of_prepare h hPrepared
    | _ => trivial
  writes := by
    intro st g st' db m hWrites h
    cases hWrites with
    | registerOwn hFrom hKey => exact fun _ => keyAgrees_register hFrom hKey
    | cacheFound => exact h
    | cacheInserted => exact h
    | _ => trivial
  replies := by
    intro st statement a st' moment l l' hReplies h _ hPerform
    rw [(Ledger.perform_memory hPerform).1]
    cases hReplies with
    | failBare _ => trivial
    | failGuarded _ => trivial
    | failLate _ => trivial
    | payer => exact h
    | createPayer => exact h
    | commitPayer => exact h
    | payee => exact h
    | createPayee => exact h
    | commitPayee => exact h
    | save _ => exact h
    | missing => exact h
    | found => exact h
    | insert => exact h
    | _ => trivial
  remember := by
    intro st txId tx db m _ h
    cases st <;> exact h
  remember_rest := fun _ _ => trivial
  service := by
    intro st statement a moment l l' _ h _ hPerform
    rw [(Ledger.perform_memory hPerform).1]
    cases st <;> exact h
  service_rest := fun _ _ _ _ => trivial

theorem stage_of_store {st st' : Stage} {tx : DAGTransaction}
    (h : Replies st (.storeTransaction tx) (.ok ()) st') :
    ∃ version, st = .prepared tx version := by
  cases h with
  | look h => cases h
  | service h => cases h
  | read h => cases h
  | tend h => cases h
  | spoil h => cases h
  | patch h => cases h
  | graph h => cases h
  | store => exact ⟨_, rfl⟩

/-- Every debit that is stored and needs a signature carries one under the key that is
registered for its payer, if every submission that needs one takes the lock with no key
of its own or with the registered one. -/
theorem registered_key_spends (tables : Tables) (now : ℚ) {turns : List (Turn Call Moment)}
    (h : (node lib verifySignatures).machine.EveryStep
      (Program.Answerable fun _ _ => TakesOwnKey verifySignatures)
      ⟨initializeLedger tables now, []⟩ turns) :
    (node lib verifySignatures).machine.EveryStep
      (fun pool turn => ∀ tx ∈ storedBy pool turn,
        Verified lib verifySignatures tx pool.state.memory)
      ⟨initializeLedger tables now, []⟩ turns := by
  intro before turn hPrefix _ tx hStored
  have hAnswered := Assertions.answered_of_storedBy hStored
  have hTracked := Assertions.everyState_tracked keyAssertions_valid
    (Program.Answerable fun _ _ => TakesOwnKey verifySignatures) (fun _ _ h => h)
    (fun _ _ _ => trivial) (Assertions.initializeLedger_free tables now) trivial h
  have hHere := hTracked before ((List.prefix_append before [turn]).trans hPrefix)
  obtain ⟨st, hAssert, hReplies⟩ := Assertions.stage_of_answered hHere hAnswered
  obtain ⟨st', hStore⟩ := hReplies (.ok ())
  obtain ⟨version, rfl⟩ := stage_of_store hStore
  exact hAssert

def signedLibrary : Library where
  digest := fun data => data.txId
  verifySignature := fun hash signature key => signature = key ++ ":" ++ hash
  sha256Hex := id
  lower := id
  tipWeight := fun weight => weight
  setOrder := id

/-- Alice has a key and is paid, and then a transfer from her to Mallory is submitted with
some key. -/
def transferRun (key : Option String) (signature : String) : List (Turn Call Moment) :=
  alone 0 (.createWallet "alice" "" (some "A")) ⟨0, [], none⟩ 5 ++
    alone 1 (.credit "alice" 5 .reward "" none none none "t1") ⟨0, [], none⟩ 16 ++
    alone 2 (.transfer "alice" "mallory" 5 "" (some signature) key "t2") ⟨0, [], none⟩ 16

/-- Mallory signs with a key of her own, and supplies it. -/
theorem foreignKey_spends :
    ¬(node signedLibrary true).machine.EveryStep
      (fun pool turn => ∀ tx ∈ storedBy pool turn,
        Verified signedLibrary true tx pool.state.memory)
      ⟨initializeLedger .empty 0, []⟩ (transferRun (some "M") "M:t2") := by
  decide +kernel

/-- Alice signs herself and supplies no key. -/
theorem registered_key_spends_transfer :
    (node signedLibrary true).machine.EveryStep
      (fun pool turn => ∀ tx ∈ storedBy pool turn,
        Verified signedLibrary true tx pool.state.memory)
      ⟨initializeLedger .empty 0, []⟩ (transferRun none "A:t2") :=
  registered_key_spends .empty 0 (by decide +kernel)

end Prsm.DagLedger
