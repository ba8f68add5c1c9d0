import Mathlib.FieldTheory.Finite.GaloisField
import Prsm.Evm.Platform
import Prsm.Foundations.Lists
import Prsm.Foundations.SecretSharing

/-!
# Shares of a key

`split_key` shares the two halves of an AES-256 key by Shamir's scheme, and `combine_shares`
puts shares together whose `key_id`, `m` and `n` are the same.  Shamir's scheme itself comes from
outside: what is assumed of it is that a share is a value of the polynomial drawn, and that as
many values of one polynomial as its threshold give back its constant term.
-/

namespace Prsm.Storage.KeySharing

open Foundations
open Evm (Bytes)

/-- 16 bytes. -/
@[reducible] def Block : Type := { b : Bytes // b.length = 16 }

/-- The block of a number below 256. -/
def blockOf (i : ℕ) : Block :=
  ⟨List.replicate 15 0 ++ [Fin.ofNat _ i], by simp⟩

/-- `Crypto.Protocol.SecretSharing.Shamir`, over the field whose elements are the blocks. -/
structure Shamir (F : Type) [Field F] where
  element : Block ≃ F
  element_zero : element (blockOf 0) = 0
  split : (ℕ → F) → ℕ → ℕ → Block → List (ℕ × Block)
  combine : List (ℕ × Block) → Block
  split_eq : ∀ drawn k n secret, 0 < k → k ≤ n → n ≤ 255 →
    split drawn k n secret = (List.range n).map fun i =>
      (i + 1, element.symm
        ((sharing k (element secret) drawn).eval (element (blockOf (i + 1)))))
  combine_eq : ∀ (p : Polynomial F) (indices : List ℕ), indices.Nodup →
    (∀ i ∈ indices, 1 ≤ i ∧ i ≤ 255) → p.degree < indices.length →
      combine (indices.map fun i => (i, element.symm (p.eval (element (blockOf i))))) =
        element.symm (p.eval 0)

structure AESKey where
  keyId : String
  keyBytes : Bytes
  length_keyBytes : keyBytes.length = 32

namespace AESKey

def firstHalf (key : AESKey) : Block :=
  ⟨key.keyBytes.take 16, by simp [key.length_keyBytes]⟩

def secondHalf (key : AESKey) : Block :=
  ⟨key.keyBytes.drop 16, by simp [key.length_keyBytes]⟩

/-- The first half, or the second. -/
def half (key : AESKey) : Bool → Block
  | false => key.firstHalf
  | true => key.secondHalf

def ofHalves (keyId : String) (a b : Block) : AESKey :=
  ⟨keyId, a.val ++ b.val, by simp [a.property, b.property]⟩

theorem ofHalves_halves (key : AESKey) :
    ofHalves key.keyId key.firstHalf key.secondHalf = key := by
  cases key
  simp [ofHalves, firstHalf, secondHalf]

theorem firstHalf_ofHalves (keyId : String) (a b : Block) :
    (ofHalves keyId a b).firstHalf = a := by
  apply Subtype.ext
  simp [ofHalves, firstHalf, a.property]

end AESKey

structure KeyShare where
  index : ℤ
  firstHalf : Block
  secondHalf : Block
  keyId : String
  m : ℤ
  n : ℤ

inductive ShamirError
  | mNotPositive (m : ℤ)
  | nBelowM (n m : ℤ)
  | nTooLarge (n : ℤ)
  | indexDrift (first second slot : ℕ)
  | missingSlot (slot : ℕ)
  | noShares
  | differentSplits (index : ℤ)
  | indexOutOfRange (index n : ℤ)
  | duplicateIndex (index : ℤ)
  | insufficient (needed : ℤ) (got : ℕ)

/-! ## Split -/

section Split

variable {F : Type} [Field F] (shamir : Shamir F)

def validateParams (m n : ℤ) : Except ShamirError Unit := do
  require (0 < m) (.mNotPositive m)
  require (m ≤ n) (.nBelowM n m)
  require (n ≤ 255) (.nTooLarge n)

/-- The tuple of a slot. -/
def slot (shares : List (ℕ × Block)) (i : ℕ) : Except ShamirError (ℕ × Block) :=
  match shares[i]? with
  | some share => .ok share
  | none => .error (.missingSlot i)

/-- The share of a slot. -/
def shareAt (firstShares secondShares : List (ℕ × Block)) (keyId : String) (m n : ℤ) (i : ℕ) :
    Except ShamirError KeyShare := do
  let first ← slot firstShares i
  let second ← slot secondShares i
  require (first.1 = second.1 ∧ second.1 = i + 1) (.indexDrift first.1 second.1 i)
  return ⟨i, first.2, second.2, keyId, m, n⟩

/-- `split_key`, with what is drawn for the two halves. -/
def splitKey (first second : ℕ → F) (key : AESKey) (m n : ℤ) :
    Except ShamirError (List KeyShare) := do
  validateParams m n
  let firstShares := shamir.split first m.toNat n.toNat key.firstHalf
  let secondShares := shamir.split second m.toNat n.toNat key.secondHalf
  (List.range n.toNat).mapM (shareAt firstShares secondShares key.keyId m n)

/-! ## Combine -/

/-- The loop of `combine_shares`, with the indices seen so far. -/
def checkShares (m n : ℤ) (keyId : String) : List KeyShare → List ℤ → Except ShamirError Unit
  | [], _ => .ok ()
  | s :: rest, seen => do
      require (¬ (s.m ≠ m ∨ s.n ≠ n ∨ s.keyId ≠ keyId)) (.differentSplits s.index)
      require (¬ (s.index < 0 ∨ n ≤ s.index)) (.indexOutOfRange s.index n)
      require (s.index ∉ seen) (.duplicateIndex s.index)
      checkShares m n keyId rest (s.index :: seen)

/-- `sorted(shares, key=lambda s: s.index)[:m]`. -/
def pickedShares (m : ℤ) (shares : List KeyShare) : List KeyShare :=
  (shares.mergeSort fun s t => s.index ≤ t.index).take
    (if 0 ≤ m then m.toNat else (shares.length + m).toNat)

def combineShares (shares : List KeyShare) : Except ShamirError AESKey :=
  match shares with
  | [] => .error .noShares
  | first :: _ => do
      checkShares first.m first.n first.keyId shares []
      require (first.m ≤ shares.length) (.insufficient first.m shares.length)
      let picked := pickedShares first.m shares
      let firstHalf := shamir.combine (picked.map fun s => ((s.index + 1).toNat, s.firstHalf))
      let secondHalf := shamir.combine (picked.map fun s => ((s.index + 1).toNat, s.secondHalf))
      return .ofHalves first.keyId firstHalf secondHalf

end Split

/-! ## Calls and the shares they produce -/

/-- A call of `split_key`. -/
structure SplitCall where
  key : AESKey
  m : ℤ
  n : ℤ

structure SplitCall.Valid (call : SplitCall) : Prop where
  pos : 0 < call.m
  le : call.m ≤ call.n
  bound : call.n ≤ 255

/-- What the calls draw: for each of them, for the first half and for the second. -/
@[reducible] def Draws (F : Type) : Type := ℕ → Bool → ℕ → F

section Shares

variable {F : Type} [Field F] (shamir : Shamir F) (draws : Draws F) (calls : List SplitCall)

/-- A share is named by the call and by its index. -/
@[reducible] def Ref : Type := Fin calls.length × ℕ

variable {calls}

def Ref.call (r : Ref calls) : SplitCall := calls.get r.1

/-- The share is one that its call has produced. -/
structure Ref.Produced (r : Ref calls) : Prop where
  valid : r.call.Valid
  index : (r.2 : ℤ) < r.call.n

/-- The share that the call returns at its index. -/
def produced (r : Ref calls) : Option KeyShare :=
  match splitKey shamir (draws r.1 false) (draws r.1 true) r.call.key r.call.m r.call.n with
  | .ok shares => shares[r.2]?
  | .error _ => none

/-- The block of a share for one half. -/
noncomputable def blockAt (r : Ref calls) (half : Bool) : Block :=
  shamir.element.symm ((sharing r.call.m.toNat (shamir.element (r.call.key.half half))
    (draws r.1 half)).eval (shamir.element (blockOf (r.2 + 1))))

/-- The share that a reference names. -/
noncomputable def shareOf (r : Ref calls) : KeyShare where
  index := r.2
  firstHalf := blockAt shamir draws r false
  secondHalf := blockAt shamir draws r true
  keyId := r.call.key.keyId
  m := r.call.m
  n := r.call.n

variable {shamir draws}

theorem slot_split {drawn : ℕ → F} {k n i : ℕ} {secret : Block} (hk : 0 < k) (hkn : k ≤ n)
    (hn : n ≤ 255) (hi : i < n) :
    slot (shamir.split drawn k n secret) i = .ok (i + 1, shamir.element.symm
      ((sharing k (shamir.element secret) drawn).eval (shamir.element (blockOf (i + 1))))) := by
  rw [slot, shamir.split_eq drawn k n secret hk hkn hn, List.getElem?_map,
    List.getElem?_range hi]
  rfl

theorem splitKey_of_valid {r : Ref calls} (h : r.call.Valid) :
    splitKey shamir (draws r.1 false) (draws r.1 true) r.call.key r.call.m r.call.n =
      .ok ((List.range r.call.n.toNat).map fun i => shareOf shamir draws (r.1, i)) := by
  obtain ⟨hPos, hLe, hBound⟩ := h
  have hSlots : ∀ i ∈ List.range r.call.n.toNat, ∃ share,
      shareAt (shamir.split (draws r.1 false) r.call.m.toNat r.call.n.toNat r.call.key.firstHalf)
        (shamir.split (draws r.1 true) r.call.m.toNat r.call.n.toNat r.call.key.secondHalf)
        r.call.key.keyId r.call.m r.call.n i = .ok share ∧
          shareOf shamir draws (r.1, i) = share := by
    intro i hi
    rw [List.mem_range] at hi
    refine ⟨_, ?_, rfl⟩
    rw [shareAt, slot_split (by omega) (by omega) (by omega) hi,
      slot_split (by omega) (by omega) (by omega) hi, ok_bind, ok_bind,
      require_of_pos _ ⟨rfl, rfl⟩, ok_bind]
    rfl
  obtain ⟨shares, hShares, hEach⟩ := exists_mapM_ok hSlots
  have hSame := map_eq_map_of_forall₂ (g := id) hEach
  rw [List.map_id] at hSame
  rw [splitKey, validateParams, require_of_pos _ hPos, ok_bind, require_of_pos _ hLe, ok_bind,
    require_of_pos _ hBound, ok_bind, hShares, ← hSame]

theorem produced_eq {r : Ref calls} (h : r.Produced) :
    produced shamir draws r = some (shareOf shamir draws r) := by
  have hIndex := h.index
  rw [produced, splitKey_of_valid h.valid]
  show ((List.range r.call.n.toNat).map _)[r.2]? = _
  rw [List.getElem?_map, List.getElem?_range (by omega)]
  rfl

/-- The shares of some references. -/
def sharesOf (shamir : Shamir F) (draws : Draws F) (refs : List (Ref calls)) : List KeyShare :=
  refs.filterMap (produced shamir draws)

theorem sharesOf_eq {refs : List (Ref calls)} (h : ∀ r ∈ refs, r.Produced) :
    sharesOf shamir draws refs = refs.map (shareOf shamir draws) := by
  rw [sharesOf, ← List.filterMap_eq_map]
  exact List.filterMap_congr fun r hr => produced_eq (h r hr)

end Shares

/-! ## What is accepted -/

section Accepted

variable {F : Type} [Field F] {shamir : Shamir F} {calls : List SplitCall}

theorem checkShares_eq_ok_iff {m n : ℤ} {keyId : String} {shares : List KeyShare}
    {seen : List ℤ} :
    checkShares m n keyId shares seen = .ok () ↔
      (∀ s ∈ shares, (s.m = m ∧ s.n = n ∧ s.keyId = keyId) ∧ (0 ≤ s.index ∧ s.index < n) ∧
        s.index ∉ seen) ∧ (shares.map KeyShare.index).Nodup := by
  induction shares generalizing seen with
  | nil => simp [checkShares]
  | cons s rest ih =>
      rw [List.forall_mem_cons, List.map_cons, List.nodup_cons]
      simp only [checkShares, bind_eq_ok_iff, require_eq_ok_iff, ih, not_or, not_not, not_lt,
        not_le, List.mem_cons]
      constructor
      · rintro ⟨-, hTag, -, hRange, -, hSeen, hRest, hNodup⟩
        refine ⟨⟨⟨hTag, hRange, hSeen⟩, fun t ht => ?_⟩, ?_, hNodup⟩
        · obtain ⟨hTag', hRange', hSeen'⟩ := hRest t ht
          exact ⟨hTag', hRange', hSeen'.2⟩
        · intro hIn
          obtain ⟨t, ht, hSame⟩ := List.mem_map.mp hIn
          exact (hRest t ht).2.2.1 hSame
      · rintro ⟨⟨⟨hTag, hRange, hSeen⟩, hRest⟩, hNot, hNodup⟩
        refine ⟨(), hTag, (), hRange, (), hSeen, fun t ht => ?_, hNodup⟩
        obtain ⟨hTag', hRange', hSeen'⟩ := hRest t ht
        exact ⟨hTag', hRange', fun hSame => hNot (List.mem_map.mpr ⟨t, ht, hSame⟩), hSeen'⟩

/-- What a share says of its call. -/
def Ref.tag (r : Ref calls) : String × ℤ × ℤ :=
  (r.call.key.keyId, r.call.m, r.call.n)

/-- The list passes the checks of `combine_shares`. -/
structure Accepted (refs : List (Ref calls)) : Prop where
  nonempty : refs ≠ []
  tagged : ∀ r ∈ refs, ∀ r' ∈ refs, r.tag = r'.tag
  distinct : (refs.map Prod.snd).Nodup
  enough : ∀ r ∈ refs, r.call.m ≤ refs.length

/-- The references of the shares that are combined: of lowest index, as many as the threshold. -/
def pickedRefs (m : ℤ) (refs : List (Ref calls)) : List (Ref calls) :=
  (refs.mergeSort fun r r' => r.2 ≤ r'.2).take m.toNat

variable {draws : Draws F} {refs : List (Ref calls)}

theorem pickedShares_map (shamir : Shamir F) (draws : Draws F) (refs : List (Ref calls)) {m : ℤ}
    (hm : 0 ≤ m) :
    pickedShares m (refs.map (shareOf shamir draws)) =
      (pickedRefs m refs).map (shareOf shamir draws) := by
  have hSorted := List.map_mergeSort (l := refs) (f := shareOf shamir draws)
    (r := fun r r' => decide (r.2 ≤ r'.2)) (s := fun s t => decide (s.index ≤ t.index))
    (fun r _ r' _ => by simp [shareOf])
  rw [pickedShares, if_pos hm, ← hSorted, pickedRefs, List.map_take]

/-- The half of the key that some shares give. -/
noncomputable def combined (shamir : Shamir F) (draws : Draws F) (picked : List (Ref calls))
    (half : Bool) : Block :=
  shamir.combine (picked.map fun r => (r.2 + 1, blockAt shamir draws r half))
variable {first : Ref calls} {rest : List (Ref calls)} {picked : List (Ref calls)}

theorem accepted_cons_iff (shamir : Shamir F) (draws : Draws F)
    (h : ∀ r ∈ first :: rest, r.Produced) :
    Accepted (first :: rest) ↔
      checkShares first.call.m first.call.n first.call.key.keyId
          ((first :: rest).map (shareOf shamir draws)) [] = .ok () ∧
        first.call.m ≤ (first :: rest).length := by
  have hIndices : (((first :: rest).map (shareOf shamir draws)).map KeyShare.index).Nodup ↔
      ((first :: rest).map Prod.snd).Nodup := by
    rw [List.map_map, show KeyShare.index ∘ shareOf shamir draws =
      (Nat.cast : ℕ → ℤ) ∘ Prod.snd from rfl, ← List.map_map,
      List.nodup_map_iff Nat.cast_injective]
  rw [checkShares_eq_ok_iff, hIndices, List.forall_mem_map]
  constructor
  · intro hAccepted
    refine ⟨⟨fun r hr => ⟨?_, ⟨by simp [shareOf], ?_⟩, by simp⟩, hAccepted.distinct⟩,
      hAccepted.enough first (by simp)⟩
    · obtain ⟨hId, hTag⟩ := Prod.mk.inj (hAccepted.tagged r hr first (by simp))
      obtain ⟨hm, hn⟩ := Prod.mk.inj hTag
      exact ⟨hm, hn, hId⟩
    · have hTag := congrArg (fun t => t.2.2) (hAccepted.tagged r hr first (by simp))
      exact (h r hr).index.trans_eq hTag
  · rintro ⟨⟨hEach, hNodup⟩, hEnough⟩
    have hTag : ∀ r ∈ first :: rest, r.tag = first.tag := by
      intro r hr
      obtain ⟨⟨hm, hn, hId⟩, -, -⟩ := hEach r hr
      exact Prod.ext hId (Prod.ext hm hn)
    refine ⟨List.cons_ne_nil _ _, fun r hr r' hr' => (hTag r hr).trans (hTag r' hr').symm,
      hNodup, fun r hr => ?_⟩
    rw [show r.call.m = first.call.m from congrArg (fun t => t.2.1) (hTag r hr)]
    exact hEnough

theorem combineShares_eq_ok_iff {key : AESKey}
    (h : ∀ r ∈ first :: rest, r.Produced) :
    combineShares shamir ((first :: rest).map (shareOf shamir draws)) = .ok key ↔
      Accepted (first :: rest) ∧
        key = .ofHalves first.call.key.keyId
          (combined shamir draws (pickedRefs first.call.m (first :: rest)) false)
          (combined shamir draws (pickedRefs first.call.m (first :: rest)) true) := by
  have hm := (h first (by simp)).valid.pos.le
  have hPicked := pickedShares_map shamir draws (first :: rest) hm
  have hIndex : ∀ r : Ref calls, ((r.2 : ℤ) + 1).toNat = r.2 + 1 := fun r => by omega
  have hFirst : shamir.combine
      ((pickedShares first.call.m ((first :: rest).map (shareOf shamir draws))).map fun s =>
        ((s.index + 1).toNat, s.firstHalf)) =
      combined shamir draws (pickedRefs first.call.m (first :: rest)) false := by
    rw [hPicked, List.map_map, combined]
    exact congrArg _ (List.map_congr_left fun r _ => by simp [shareOf, hIndex])
  have hSecond : shamir.combine
      ((pickedShares first.call.m ((first :: rest).map (shareOf shamir draws))).map fun s =>
        ((s.index + 1).toNat, s.secondHalf)) =
      combined shamir draws (pickedRefs first.call.m (first :: rest)) true := by
    rw [hPicked, List.map_map, combined]
    exact congrArg _ (List.map_congr_left fun r _ => by simp [shareOf, hIndex])
  rw [accepted_cons_iff shamir draws h, ← hFirst, ← hSecond,
    List.map_cons, combineShares]
  simp only [bind_eq_ok_iff, require_eq_ok_iff, pure_eq_ok_iff, List.length_cons, List.length_map]
  constructor
  · rintro ⟨_, hChecked, -, hEnough, rfl⟩
    exact ⟨⟨hChecked, hEnough⟩, rfl⟩
  · rintro ⟨⟨hChecked, hEnough⟩, rfl⟩
    exact ⟨(), hChecked, (), hEnough, rfl⟩

/-! ## What is combined -/

/-- The shares come from one call. -/
def OneSplit (refs : List (Ref calls)) : Prop :=
  ∀ r ∈ refs, ∀ r' ∈ refs, r.1 = r'.1

/-- The element at which a share is taken. -/
def point (shamir : Shamir F) (i : ℕ) : F :=
  shamir.element (blockOf (i + 1))

theorem blockOf_injOn {i j : ℕ} (hi : i < 256) (hj : j < 256) (h : blockOf i = blockOf j) :
    i = j := by
  have hLast := congrArg (fun b : Block => b.val.getLast?) h
  simp only [blockOf, List.getLast?_append, List.getLast?_singleton, Option.some_or] at hLast
  have hVal := congrArg Fin.val (Option.some.inj hLast)
  rw [Fin.val_ofNat, Fin.val_ofNat] at hVal
  omega

theorem point_injOn {i j : ℕ} (hi : i < 255) (hj : j < 255)
    (h : point shamir i = point shamir j) : i = j := by
  have hBlocks := blockOf_injOn (by omega) (by omega) (shamir.element.injective h)
  omega

theorem point_ne_zero {i : ℕ} (hi : i < 255) : point shamir i ≠ 0 := by
  intro h
  have hBlocks := blockOf_injOn (by omega) (by omega)
    (shamir.element.injective (h.trans shamir.element_zero.symm))
  omega

theorem length_pickedRefs {m : ℤ} (h : m ≤ refs.length) :
    (pickedRefs m refs).length = m.toNat := by
  rw [pickedRefs, List.length_take, List.length_mergeSort]
  omega

theorem mem_of_mem_pickedRefs {m : ℤ} {r : Ref calls} (h : r ∈ pickedRefs m refs) : r ∈ refs :=
  (List.mergeSort_perm refs _).mem_iff.mp (List.mem_of_mem_take h)

theorem nodup_pickedRefs {m : ℤ} (h : (refs.map Prod.snd).Nodup) :
    ((pickedRefs m refs).map Prod.snd).Nodup := by
  rw [pickedRefs, List.map_take]
  refine List.Nodup.sublist (List.take_sublist _ _) ?_
  exact (((List.mergeSort_perm refs _).map Prod.snd).nodup_iff).mpr h

theorem combine_values (hProduced : ∀ r ∈ picked, r.Produced)
    (hNodup : (picked.map Prod.snd).Nodup) {p : Polynomial F} (hDegree : p.degree < picked.length)
    {half : Bool}
    (hValues : ∀ r ∈ picked, blockAt shamir draws r half =
      shamir.element.symm (p.eval (point shamir r.2))) :
    combined shamir draws picked half = shamir.element.symm (p.eval 0) := by
  have hCombined := shamir.combine_eq p (picked.map fun r => r.2 + 1) (by
      have hNext : (picked.map fun r => r.2 + 1) = (picked.map Prod.snd).map (· + 1) := by
        rw [List.map_map]
        rfl
      rw [hNext]
      exact hNodup.map (add_left_injective 1)) (by
      intro i hi
      obtain ⟨r, hr, rfl⟩ := List.mem_map.mp hi
      have hIndex := (hProduced r hr).index
      have hBound := (hProduced r hr).valid.bound
      omega) (by rwa [List.length_map])
  rw [← hCombined, combined, List.map_map]
  exact congrArg _ (List.map_congr_left fun r hr => Prod.ext rfl (hValues r hr))

theorem combined_of_oneSplit (shamir : Shamir F) (draws : Draws F)
    (hProduced : ∀ r ∈ picked, r.Produced) (hNodup : (picked.map Prod.snd).Nodup)
    (hOne : ∀ r ∈ picked, r.1 = first.1) (hLength : picked.length = first.call.m.toNat)
    (hPos : 0 < first.call.m) (half : Bool) :
    combined shamir draws picked half = first.call.key.half half := by
  rw [combine_values hProduced hNodup (p := sharing first.call.m.toNat
    (shamir.element (first.call.key.half half)) (draws first.1 half)), eval_zero_sharing,
    Equiv.symm_apply_apply]
  · rw [hLength]
    exact degree_sharing_lt (by omega) _ _
  · intro r hr
    have hCall : r.call = first.call := by rw [Ref.call, hOne r hr, Ref.call]
    rw [blockAt, hCall, hOne r hr]
    rfl

theorem combineShares_of_oneSplit (shamir : Shamir F) (draws : Draws F)
    (hProduced : ∀ r ∈ first :: rest, r.Produced)
    (hAccepted : Accepted (first :: rest))
    (hOne : OneSplit (pickedRefs first.call.m (first :: rest))) :
    ∃ r ∈ first :: rest,
      combineShares shamir ((first :: rest).map (shareOf shamir draws)) = .ok r.call.key := by
  have hPos := (hProduced first (by simp)).valid.pos
  have hLength := length_pickedRefs (hAccepted.enough first (by simp))
  obtain ⟨r, hr⟩ := List.exists_mem_of_length_pos (l := pickedRefs first.call.m (first :: rest))
    (by omega)
  have hMem := mem_of_mem_pickedRefs hr
  have hTag := hAccepted.tagged r hMem first (by simp)
  have hId : r.call.key.keyId = first.call.key.keyId := congrArg (fun t => t.1) hTag
  have hm : r.call.m = first.call.m := congrArg (fun t => t.2.1) hTag
  have hHalf := combined_of_oneSplit shamir draws
    (fun r' hr' => hProduced r' (mem_of_mem_pickedRefs hr')) (nodup_pickedRefs hAccepted.distinct)
    (fun r' hr' => hOne r' hr' r hr) (by rw [hm]; exact hLength) (by omega)
  refine ⟨r, hMem, (combineShares_eq_ok_iff hProduced).mpr ⟨hAccepted, ?_⟩⟩
  rw [hHalf, hHalf, ← hId]
  exact r.call.key.ofHalves_halves.symm

theorem exists_wrong_half {r₀ r₁ : Ref calls} (h₀ : r₀ ∈ picked)
    (h₁ : r₁ ∈ picked) (hOther : r₀.1 ≠ r₁.1) (hProduced : ∀ r ∈ picked, r.Produced)
    (hNodup : (picked.map Prod.snd).Nodup) (hLength : picked.length = r₀.call.m.toNat)
    (hKeys : ∀ r ∈ picked, r.call.key = r₀.call.key) (shamir : Shamir F) :
    ∃ draws, combined shamir draws picked false ≠ r₀.call.key.firstHalf := by
  classical
  have hIndex : ∀ r ∈ picked, r.2 < 255 := fun r hr => by
    have hLt := (hProduced r hr).index
    have hBound := (hProduced r hr).valid.bound
    omega
  have hSame : ∀ r ∈ picked, ∀ r' ∈ picked, point shamir r.2 = point shamir r'.2 → r = r' :=
    fun r hr r' hr' h => List.inj_on_of_nodup_map hNodup hr hr'
      (point_injOn (hIndex r hr) (hIndex r' hr') h)
  let secret := shamir.element r₀.call.key.firstHalf
  let points : Finset F := (picked.map fun r => point shamir r.2).toFinset
  let own : Finset F := ((picked.filter fun r => r.1 = r₀.1).map fun r => point shamir r.2).toFinset
  have hPoints : ∀ r ∈ picked, point shamir r.2 ∈ points := fun r hr =>
    List.mem_toFinset.mpr (List.mem_map.mpr ⟨r, hr, rfl⟩)
  have hOwn : ∀ r ∈ picked, point shamir r.2 ∈ own ↔ r.1 = r₀.1 := by
    intro r hr
    rw [List.mem_toFinset, List.mem_map]
    constructor
    · rintro ⟨r', hr', hPoint⟩
      obtain ⟨hMem, hFirst⟩ := List.mem_filter.mp hr'
      rw [← hSame r' hMem r hr hPoint]
      exact of_decide_eq_true hFirst
    · intro hFirst
      exact ⟨r, List.mem_filter.mpr ⟨hr, decide_eq_true hFirst⟩, rfl⟩
  have hCard : points.card = picked.length := by
    rw [List.toFinset_card_of_nodup (List.Nodup.map_on hSame hNodup.of_map), List.length_map]
  have hZero : (0 : F) ∉ points := by
    intro hIn
    obtain ⟨r, hr, hNull⟩ := List.mem_map.mp (List.mem_toFinset.mp hIn)
    exact point_ne_zero (hIndex r hr) hNull
  have hProper : own ⊂ points := by
    rw [Finset.ssubset_iff_of_subset]
    · exact ⟨point shamir r₁.2, hPoints r₁ h₁, fun hIn => hOther ((hOwn r₁ h₁).mp hIn).symm⟩
    · intro x hx
      obtain ⟨r, hr, rfl⟩ := List.mem_map.mp (List.mem_toFinset.mp hx)
      exact hPoints r (List.mem_of_mem_filter hr)
  obtain ⟨d, p, hdZero, hdDegree, hpDegree, hpOwn, hpRest, hpZero⟩ :=
    exists_mixture secret hZero hProper ⟨point shamir r₀.2, (hOwn r₀ h₀).mpr rfl⟩
  obtain ⟨drawn, hDrawn⟩ := exists_sharing_eq secret hdZero
    (hdDegree.trans_eq (by rw [hCard, hLength]))
  refine ⟨fun k half => if k = r₀.1 ∧ half = false then drawn else fun _ => 0, ?_⟩
  rw [combine_values hProduced hNodup (hpDegree.trans_eq (by rw [hCard]))]
  · intro hRight
    have hBack := congrArg shamir.element hRight
    rw [Equiv.apply_symm_apply] at hBack
    exact hpZero hBack
  · intro r hr
    rw [blockAt]
    congr 1
    by_cases hFirst : r.1 = r₀.1
    · have hCall : r.call = r₀.call := by rw [Ref.call, hFirst, Ref.call]
      rw [hCall, if_pos ⟨congrArg Fin.val hFirst, rfl⟩, AESKey.half, hDrawn, Polynomial.eval_add,
        Polynomial.eval_C]
      exact (hpOwn _ ((hOwn r hr).mpr hFirst)).symm
    · rw [if_neg (fun h => hFirst (Fin.ext h.1)), sharing_zero, Polynomial.eval_C, hKeys r hr,
        AESKey.half]
      exact (hpRest _ (hPoints r hr) (fun hIn => hFirst ((hOwn r hr).mp hIn))).symm

/-- The call raises, or returns a key that has been split. -/
def NeverWrong (calls : List SplitCall) (result : Except ShamirError AESKey) : Prop :=
  ∀ key, result = .ok key → ∃ call ∈ calls, call.key = key

theorem call_mem (r : Ref calls) : r.call ∈ calls :=
  List.get_mem calls r.1

theorem exists_wrong_key
    (hKeys : ∀ a ∈ calls, ∀ b ∈ calls, a.key.keyId = b.key.keyId → a.key = b.key)
    (hProduced : ∀ r ∈ first :: rest, r.Produced) (hAccepted : Accepted (first :: rest))
    {r₀ r₁ : Ref calls} (h₀ : r₀ ∈ pickedRefs first.call.m (first :: rest))
    (h₁ : r₁ ∈ pickedRefs first.call.m (first :: rest)) (hOther : r₀.1 ≠ r₁.1)
    (shamir : Shamir F) :
    ∃ draws, ¬ NeverWrong calls
      (combineShares shamir ((first :: rest).map (shareOf shamir draws))) := by
  have hTag : ∀ r ∈ pickedRefs first.call.m (first :: rest), r.tag = r₀.tag := fun r hr =>
    hAccepted.tagged r (mem_of_mem_pickedRefs hr) r₀ (mem_of_mem_pickedRefs h₀)
  have hFirst := hAccepted.tagged first (by simp) r₀ (mem_of_mem_pickedRefs h₀)
  have hFirstId : first.call.key.keyId = r₀.call.key.keyId := congrArg (fun t => t.1) hFirst
  have hFirstM : first.call.m = r₀.call.m := congrArg (fun t => t.2.1) hFirst
  obtain ⟨draws, hWrong⟩ := exists_wrong_half h₀ h₁ hOther
    (fun r hr => hProduced r (mem_of_mem_pickedRefs hr)) (nodup_pickedRefs hAccepted.distinct)
    (by rw [length_pickedRefs (hAccepted.enough first (by simp)), hFirstM])
    (fun r hr => hKeys _ (call_mem r) _ (call_mem r₀) (congrArg (fun t => t.1) (hTag r hr)))
    shamir
  refine ⟨draws, fun hNever => ?_⟩
  obtain ⟨call, hCall, hKey⟩ := hNever _ ((combineShares_eq_ok_iff hProduced).mpr ⟨hAccepted, rfl⟩)
  have hSame := hKeys call hCall _ (call_mem r₀) (by rw [hKey]; exact hFirstId)
  rw [← hSame, hKey, AESKey.firstHalf_ofHalves] at hWrong
  exact hWrong rfl

end Accepted

/-! ## The field with 2^128 elements -/

section GaloisField

variable {F : Type} (element : Block ≃ F)

/-- The element of an index. -/
def valueAt (shares : List (ℕ × Block)) (i : ℕ) : F :=
  element (((shares.find? fun share => share.1 = i).map Prod.snd).getD (blockOf 0))

theorem valueAt_map {indices : List ℕ} {i : ℕ} (h : i ∈ indices) (value : ℕ → F) :
    valueAt element (indices.map fun j => (j, element.symm (value j))) i = value i := by
  obtain ⟨j, hj⟩ := Option.isSome_iff_exists.mp
    (List.find?_isSome.mpr ⟨i, h, decide_eq_true rfl⟩ :
      (indices.find? fun j => j = i).isSome = true)
  have hSame : j = i := by simpa using List.find?_some hj
  rw [valueAt, List.find?_map, show (fun share : ℕ × Block => decide (share.1 = i)) ∘
    (fun j => (j, element.symm (value j))) = fun j => decide (j = i) from rfl, hj, hSame]
  simp

/-- The scheme with interpolation over a field of blocks. -/
noncomputable def Shamir.ofField [Field F] (element_zero : element (blockOf 0) = 0) : Shamir F where
  element := element
  element_zero := element_zero
  split := fun drawn k n secret => (List.range n).map fun i => (i + 1, element.symm
    ((sharing k (element secret) drawn).eval (element (blockOf (i + 1)))))
  combine := fun shares => element.symm ((Lagrange.interpolate
    (shares.map Prod.fst).toFinset (fun i => element (blockOf i)) (valueAt element shares)).eval 0)
  split_eq := fun _ _ _ _ _ _ _ => rfl
  combine_eq := by
    intro p indices hNodup hRange hDegree
    have hIndices : (indices.map fun i => (i, element.symm (p.eval (element (blockOf i))))).map
        Prod.fst = indices := by
      rw [List.map_map]
      exact List.map_id indices
    have hPoints : Set.InjOn (fun i => element (blockOf i)) indices.toFinset := by
      intro i hi j hj hSame
      have hi := hRange i (List.mem_toFinset.mp hi)
      have hj := hRange j (List.mem_toFinset.mp hj)
      exact blockOf_injOn (by omega) (by omega) (element.injective hSame)
    have hInterpolated := Lagrange.eq_interpolate_of_eval_eq
      (valueAt element (indices.map fun i => (i, element.symm (p.eval (element (blockOf i))))))
      hPoints (by rwa [List.toFinset_card_of_nodup hNodup])
      (fun i hi => (valueAt_map element (List.mem_toFinset.mp hi)
        (fun i => p.eval (element (blockOf i)))).symm)
    rw [hIndices, ← hInterpolated]

end GaloisField

namespace Sample

theorem card_blocks : Nat.card Block = 2 ^ 128 := by
  show Nat.card (List.Vector (Evm.Uint 8) 16) = 2 ^ 128
  rw [Nat.card_eq_fintype_card, card_vector, Fintype.card_fin]
  norm_num

theorem card_field : Nat.card (GaloisField 2 128) = 2 ^ 128 :=
  GaloisField.card 2 128 (by norm_num)

/-- The blocks as a field, with the block of zeros as zero. -/
noncomputable def element : Block ≃ GaloisField 2 128 :=
  let e := ((Nat.equivFinOfCardPos (card_blocks.trans_ne (by norm_num))).trans
    (finCongr (card_blocks.trans card_field.symm))).trans
      (Nat.equivFinOfCardPos (card_field.trans_ne (by norm_num))).symm
  e.trans (Equiv.subRight (e (blockOf 0)))

theorem element_zero : element (blockOf 0) = 0 :=
  sub_self _

noncomputable def shamir : Shamir (GaloisField 2 128) :=
  .ofField element element_zero

def key : AESKey :=
  ⟨"key-1", List.replicate 32 7, List.length_replicate⟩

def splitOnce : List SplitCall :=
  [⟨key, 1, 1⟩]

def splitTwice : List SplitCall :=
  [⟨key, 2, 3⟩, ⟨key, 2, 3⟩]

def onlyShare : Ref splitOnce :=
  (⟨0, Nat.zero_lt_one⟩, 0)

def mixed : List (Ref splitTwice) :=
  [(⟨0, Nat.zero_lt_two⟩, 0), (⟨1, Nat.one_lt_two⟩, 1)]

end Sample

end Prsm.Storage.KeySharing
