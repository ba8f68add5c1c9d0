import Prsm.Foundations.PairTree

/-!
# Paths through ordered hash trees

A node of the tree is the digest of a string that is made of its two children, in
order.  A proof climbs from a digest: the bits of an index say on which side each
sibling stands.

`climb_eq_root_iff` says where a climb of a given length and index can start when no
two of the hashed strings have one digest: at the string below an inner node, or at a
leaf, where steps that are left over climb to the digest of the leaf.  Nothing in a
digest tells a leaf from an inner node, and both kinds of starts are real.
-/

namespace Prsm.Foundations

universe u v

variable {α : Type u} {β : Type v}

/-- The lowest bits of an index, the lowest first. -/
def bits : ℕ → ℤ → List Bool
  | 0, _ => []
  | n + 1, idx => decide (idx % 2 = 1) :: bits n (idx / 2)

@[simp] theorem length_bits (n : ℕ) (idx : ℤ) : (bits n idx).length = n := by
  induction n generalizing idx with
  | zero => rfl
  | succ n ih => simp [bits, ih]

theorem bits_add (m n : ℕ) (idx : ℤ) : bits (m + n) idx = bits m idx ++ bits n (idx / 2 ^ m) := by
  induction m generalizing idx with
  | zero => simp [bits]
  | succ m ih =>
      rw [show m + 1 + n = (m + n) + 1 by omega, bits, bits, ih, List.cons_append,
        Int.ediv_ediv_of_nonneg (by omega), pow_succ']

theorem bits_add_mul (n : ℕ) (idx c : ℤ) : bits n (idx + 2 ^ n * c) = bits n idx := by
  induction n generalizing idx with
  | zero => rfl
  | succ n ih =>
      have hSplit : (2 : ℤ) ^ (n + 1) * c = 2 * (2 ^ n * c) := by rw [pow_succ']; ring
      have hHalf : (idx + 2 ^ (n + 1) * c) / 2 = idx / 2 + 2 ^ n * c := by rw [hSplit]; omega
      have hBit : (idx + 2 ^ (n + 1) * c) % 2 = idx % 2 := by rw [hSplit]; omega
      rw [bits, bits, hHalf, hBit, ih]

/-- The siblings of a proof, each with the bit that says on which side the node is. -/
def stepsAt : ℤ → List α → List (Bool × α)
  | _, [] => []
  | idx, sibling :: rest => (decide (idx % 2 = 1), sibling) :: stepsAt (idx / 2) rest

theorem stepsAt_natCast_cons (idx : ℕ) (sibling : α) (rest : List α) :
    stepsAt (idx : ℤ) (sibling :: rest) =
      (decide (idx % 2 = 1), sibling) :: stepsAt ((idx / 2 : ℕ) : ℤ) rest := by
  have hBit : decide ((idx : ℤ) % 2 = 1) = decide (idx % 2 = 1) := by
    apply decide_eq_decide.mpr
    omega
  have hHalf : ((idx / 2 : ℕ) : ℤ) = (idx : ℤ) / 2 := by push_cast; rfl
  rw [stepsAt, hBit, hHalf]

theorem map_fst_stepsAt (idx : ℤ) (proof : List α) :
    (stepsAt idx proof).map Prod.fst = bits proof.length idx := by
  induction proof generalizing idx with
  | nil => rfl
  | cons sibling rest ih => simp [stepsAt, bits, ih]

theorem stepsAt_append (idx : ℤ) (lower upper : List α) :
    stepsAt idx (lower ++ upper) =
      stepsAt idx lower ++ stepsAt (idx / 2 ^ lower.length) upper := by
  induction lower generalizing idx with
  | nil => simp [stepsAt]
  | cons sibling rest ih =>
      rw [List.cons_append, stepsAt, stepsAt, ih, List.cons_append,
        Int.ediv_ediv_of_nonneg (by omega), List.length_cons, pow_succ']

theorem take_stepsAt (idx : ℤ) (proof : List α) (n : ℕ) :
    (stepsAt idx proof).take n = stepsAt idx (proof.take n) := by
  induction proof generalizing idx n with
  | nil => simp [stepsAt]
  | cons sibling rest ih =>
      cases n with
      | zero => rfl
      | succ n => simp [stepsAt, ih]

/-! ## Climbing -/

section Climbing

variable (hash : β → α) (pre : α → α → β)

/-- The string that is hashed at a step up, which has the node on the right where the bit
is set. -/
def stepString (node : α) (step : Bool × α) : β :=
  if step.1 then pre step.2 node else pre node step.2

/-- The node that the steps lead up to. -/
def climb (steps : List (Bool × α)) (node : α) : α :=
  steps.foldl (fun node step => hash (stepString pre node step)) node

/-- The strings that are hashed on the way up. -/
def climbStrings : List (Bool × α) → α → List β
  | [], _ => []
  | step :: rest, node =>
      stepString pre node step :: climbStrings rest (hash (stepString pre node step))

@[simp] theorem climb_nil (node : α) : climb hash pre [] node = node := rfl

@[simp] theorem climb_cons (step : Bool × α) (rest : List (Bool × α)) (node : α) :
    climb hash pre (step :: rest) node =
      climb hash pre rest (hash (stepString pre node step)) := rfl

theorem climb_append (lower upper : List (Bool × α)) (node : α) :
    climb hash pre (lower ++ upper) node =
      climb hash pre upper (climb hash pre lower node) := by
  simp [climb, List.foldl_append]

theorem climbStrings_append (lower upper : List (Bool × α)) (node : α) :
    climbStrings hash pre (lower ++ upper) node =
      climbStrings hash pre lower node ++
        climbStrings hash pre upper (climb hash pre lower node) := by
  induction lower generalizing node with
  | nil => rfl
  | cons step rest ih => simp [climbStrings, ih]

end Climbing

/-! ## Trees -/

namespace PairTree

section Roots

variable (hash : β → α) (pre : α → α → β)

/-- The digest at the root, where the children of a node are in order. -/
def digest : PairTree α → α
  | leaf value => value
  | pair left right => hash (pre left.digest right.digest)

/-- The strings hashed at the inner nodes. -/
def strings : PairTree α → List β
  | leaf _ => []
  | pair left right =>
      pre (left.digest hash pre) (right.digest hash pre) :: (left.strings ++ right.strings)

end Roots

/-- Where the directions lead from the root, and how many of them are left at a leaf. -/
def locate : PairTree α → List Bool → PairTree α × ℕ
  | tree, [] => (tree, 0)
  | leaf value, _ :: rest => (leaf value, rest.length + 1)
  | pair left right, isRight :: rest => (if isRight then right else left).locate rest

theorem locate_leaf (value : α) (directions : List Bool) :
    (leaf value).locate directions = (leaf value, directions.length) := by
  cases directions <;> rfl

theorem locate_pair_cons (left right : PairTree α) (isRight : Bool) (rest : List Bool) :
    (pair left right).locate (isRight :: rest) =
      (if isRight then right else left).locate rest := rfl

theorem locate_snd_le (tree : PairTree α) (directions : List Bool) :
    (tree.locate directions).2 ≤ directions.length := by
  induction directions generalizing tree with
  | nil => cases tree <;> exact le_rfl
  | cons isRight rest ih =>
      cases tree with
      | leaf value => exact le_rfl
      | pair left right =>
          have hRest := ih (if isRight then right else left)
          rw [locate_pair_cons, List.length_cons]
          omega

theorem locate_pair_snd {tree left right : PairTree α} {directions : List Bool} {d : ℕ}
    (h : tree.locate directions = (pair left right, d)) : d = 0 := by
  induction directions generalizing tree with
  | nil => cases tree <;> simp_all [locate]
  | cons isRight rest ih =>
      cases tree with
      | leaf value => simp [locate] at h
      | pair l r => exact ih h

theorem locate_append {tree sub : PairTree α} {directions more : List Bool}
    (h : tree.locate directions = (sub, 0)) :
    tree.locate (directions ++ more) = sub.locate more := by
  induction directions generalizing tree with
  | nil =>
      have hSame : tree = sub := by cases tree <;> simp_all [locate]
      rw [List.nil_append, hSame]
  | cons isRight rest ih =>
      cases tree with
      | leaf value => simp [locate] at h
      | pair left right => exact ih h

end PairTree

/-! ## Where a climb can start -/

/-- Digests are recognised inside a hashed string, from either end. -/
structure Framing (hash : β → α) (pre : α → α → β) (IsDigest : α → Prop) : Prop where
  digest : ∀ b, IsDigest (hash b)
  left : ∀ {a b s t}, IsDigest a → IsDigest b → pre a s = pre b t → a = b ∧ s = t
  right : ∀ {a b s t}, IsDigest a → IsDigest b → pre s a = pre t b → a = b ∧ s = t

section Starts

variable {hash : β → α} {pre : α → α → β} {IsDigest : α → Prop}

theorem isDigest_climb (F : Framing hash pre IsDigest) {node : α} (hNode : IsDigest node)
    (steps : List (Bool × α)) : IsDigest (climb hash pre steps node) := by
  induction steps generalizing node with
  | nil => exact hNode
  | cons step rest ih => exact ih (F.digest _)
variable {tree : PairTree α} {steps : List (Bool × α)}

theorem PairTree.isDigest_digest (F : Framing hash pre IsDigest)
    (hLeaves : ∀ value ∈ tree.leaves, IsDigest value) : IsDigest (tree.digest hash pre) := by
  cases tree with
  | leaf value => exact hLeaves value (List.mem_singleton_self value)
  | pair left right => exact F.digest _

theorem step_inj (F : Framing hash pre IsDigest) {a b : α} {step : Bool × α} {s : α}
    (ha : IsDigest a) (hb : IsDigest b)
    (h : stepString pre a step = stepString pre b (step.1, s)) : a = b ∧ step.2 = s := by
  obtain ⟨isRight, sibling⟩ := step
  cases isRight with
  | false => exact F.left ha hb (by simpa [stepString] using h)
  | true => exact F.right ha hb (by simpa [stepString] using h)

variable (hash pre)

/-- The steps start at the located place: at the string that is hashed at the node, or
below the leaf, whose digest the steps that are left over climb to. -/
def StartsAt (steps : List (Bool × α)) (x : β) : PairTree α × ℕ → Prop
  | (.pair left right, _) => x = pre (left.digest hash pre) (right.digest hash pre)
  | (.leaf value, d) => climb hash pre (steps.take d) (hash x) = value

variable {hash pre}

theorem StartsAt.append {x : β} {place : PairTree α × ℕ}
    (h : StartsAt hash pre steps x place) (more : List (Bool × α))
    (hLe : place.2 ≤ steps.length) : StartsAt hash pre (steps ++ more) x place := by
  obtain ⟨sub, d⟩ := place
  cases sub with
  | pair left right => exact h
  | leaf value =>
      show climb hash pre ((steps ++ more).take d) (hash x) = value
      rw [List.take_append_of_le_length hLe]
      exact h

/-- A climb that reaches the root passed the nodes of the tree.  The induction takes the
steps off from the top. -/
theorem of_climb_eq_digest (F : Framing hash pre IsDigest) {hashed : Set β}
    (hInj : Set.InjOn hash hashed) {x : β}
    (hTree : ∀ b ∈ tree.strings hash pre, b ∈ hashed)
    (hLeaves : ∀ value ∈ tree.leaves, IsDigest value) (hx : x ∈ hashed)
    (hSteps : ∀ b ∈ climbStrings hash pre steps (hash x), b ∈ hashed)
    (hRoot : climb hash pre steps (hash x) = tree.digest hash pre) :
    StartsAt hash pre steps x (tree.locate (steps.map Prod.fst).reverse) := by
  induction steps using List.reverseRecOn generalizing tree with
  | nil =>
      cases tree with
      | leaf value => exact hRoot
      | pair left right => exact hInj hx (hTree _ List.mem_cons_self) hRoot
  | append_singleton front last ih =>
      rw [List.map_append, List.reverse_append]
      cases tree with
      | leaf value =>
          rw [PairTree.locate_leaf]
          show climb hash pre ((front ++ [last]).take _) (hash x) = value
          rw [List.take_of_length_le (by simp)]
          exact hRoot
      | pair left right =>
          rw [climbStrings_append] at hSteps
          have hFront := fun b hb => hSteps b (List.mem_append_left _ hb)
          have hLast := hSteps _ (List.mem_append_right _ List.mem_cons_self)
          rw [climb_append] at hRoot
          have hString := hInj hLast (hTree _ List.mem_cons_self) hRoot
          -- the child on the side of the last step is what the front climbs to
          have hChild : ∀ child : PairTree α, child = (if last.1 then right else left) →
              climb hash pre front (hash x) = child.digest hash pre := by
            intro child hSame
            have hFrontDigest := isDigest_climb F (F.digest x) front
            cases hSide : last.1 with
            | false =>
                rw [hSame, hSide]
                rw [stepString, hSide] at hString
                exact (F.left hFrontDigest (PairTree.isDigest_digest F fun v hv =>
                  hLeaves v (List.mem_append_left _ hv)) hString).1
            | true =>
                rw [hSame, hSide]
                rw [stepString, hSide] at hString
                exact (F.right hFrontDigest (PairTree.isDigest_digest F fun v hv =>
                  hLeaves v (List.mem_append_right _ hv)) hString).1
          have hSub : ∀ b ∈ (if last.1 then right else left).strings hash pre, b ∈ hashed := by
            intro b hb
            apply hTree b
            cases hSide : last.1 <;> simp [hSide] at hb <;> simp [PairTree.strings, hb]
          have hSubLeaves : ∀ v ∈ (if last.1 then right else left).leaves, IsDigest v := by
            intro v hv
            apply hLeaves v
            cases hSide : last.1 <;> simp [hSide] at hv <;> simp [PairTree.leaves, hv]
          have hIh := ih hSub hSubLeaves hFront (hChild _ rfl)
          have hLe := (if last.1 then right else left).locate_snd_le (front.map Prod.fst).reverse
          simp only [List.length_reverse, List.length_map] at hLe
          simp only [List.map_cons, List.map_nil, List.reverse_singleton, List.cons_append,
            List.nil_append, PairTree.locate_pair_cons]
          exact hIh.append [last] hLe

theorem exists_climb_locate {tree sub : PairTree α} {d : ℕ} {directions : List Bool}
    (hLocate : tree.locate directions = (sub, d)) :
    ∃ upper : List (Bool × α),
      upper.map Prod.fst = (directions.take (directions.length - d)).reverse ∧
      climb hash pre upper (sub.digest hash pre) = tree.digest hash pre ∧
      ∀ b ∈ climbStrings hash pre upper (sub.digest hash pre), b ∈ tree.strings hash pre := by
  induction directions generalizing tree with
  | nil =>
      have hSame : tree = sub := by cases tree <;> simp_all [PairTree.locate]
      exact ⟨[], by simp, by simp [hSame], by simp [climbStrings]⟩
  | cons isRight rest ih =>
      cases tree with
      | leaf value =>
          obtain ⟨rfl, rfl⟩ : PairTree.leaf value = sub ∧ rest.length + 1 = d := by
            simpa [PairTree.locate] using hLocate
          exact ⟨[], by simp, rfl, by simp [climbStrings]⟩
      | pair left right =>
          rw [PairTree.locate_pair_cons] at hLocate
          have hLe := (if isRight then right else left).locate_snd_le rest
          rw [hLocate] at hLe
          obtain ⟨upper, hBits, hClimb, hStrings⟩ := ih hLocate
          have hLength : (isRight :: rest).length - d = (rest.length - d) + 1 := by
            simp only [List.length_cons]
            omega
          have hTop : stepString pre ((if isRight then right else left).digest hash pre)
              (isRight, (if isRight then left else right).digest hash pre) =
                pre (left.digest hash pre) (right.digest hash pre) := by
            cases isRight <;> rfl
          refine ⟨upper ++ [(isRight, (if isRight then left else right).digest hash pre)],
            ?_, ?_, ?_⟩
          · rw [hLength, List.take_succ_cons, List.reverse_cons, List.map_append, hBits]
            rfl
          · rw [climb_append, hClimb, climb_cons, hTop]
            rfl
          · intro b hb
            rw [climbStrings_append, hClimb] at hb
            rcases List.mem_append.mp hb with hb | hb
            · have hSub := hStrings b hb
              cases isRight <;> simp at hSub <;> simp [PairTree.strings, hSub]
            · have hSame : b = _ := List.mem_singleton.mp hb
              rw [hSame, hTop]
              exact List.mem_cons_self

theorem stepsAt_map_snd {idx : ℤ}
    (h : steps.map Prod.fst = bits steps.length idx) :
    stepsAt idx (steps.map Prod.snd) = steps := by
  induction steps generalizing idx with
  | nil => rfl
  | cons step rest ih =>
      simp only [List.map_cons, List.length_cons, bits, List.cons.injEq] at h
      rw [List.map_cons, stepsAt, ih h.2, ← h.1]

theorem exists_proof_locate {tree sub : PairTree α} {d len : ℕ} {idx : ℤ}
    (hLocate : tree.locate (bits len idx).reverse = (sub, d)) :
    ∃ upper : List α, d + upper.length = len ∧
      climb hash pre (stepsAt (idx / 2 ^ d) upper) (sub.digest hash pre) =
        tree.digest hash pre ∧
      ∀ b ∈ climbStrings hash pre (stepsAt (idx / 2 ^ d) upper) (sub.digest hash pre),
        b ∈ tree.strings hash pre := by
  have hLe := tree.locate_snd_le (bits len idx).reverse
  rw [hLocate, List.length_reverse, length_bits] at hLe
  obtain ⟨upper, hBits, hClimb, hStrings⟩ := @exists_climb_locate _ _ hash pre _ _ _ _ hLocate
  have hHigh : upper.map Prod.fst = bits (len - d) (idx / 2 ^ d) := by
    rw [hBits, List.length_reverse, length_bits, List.take_reverse, List.reverse_reverse,
      length_bits, show len - (len - d) = d by omega]
    have hSplit := bits_add d (len - d) idx
    rw [show d + (len - d) = len by omega] at hSplit
    rw [hSplit, List.drop_left' (length_bits d idx)]
  have hLength : upper.length = len - d := by simpa using congrArg List.length hHigh
  have hSteps : stepsAt (idx / 2 ^ d) (upper.map Prod.snd) = upper := by
    apply stepsAt_map_snd
    rw [hLength]
    exact hHigh
  refine ⟨upper.map Prod.snd, ?_, ?_, ?_⟩
  · rw [List.length_map]
    omega
  · rw [hSteps]
    exact hClimb
  · rw [hSteps]
    exact hStrings

variable (hash pre)

/-- The string can start a climb from the located place: it is hashed at the node, or it
leads in the steps that are left over to the digest of the leaf. -/
def Starts (hashed : Set β) (idx : ℤ) (x : β) : PairTree α × ℕ → Prop
  | (.pair left right, _) => x = pre (left.digest hash pre) (right.digest hash pre)
  | (.leaf value, d) => ∃ lower : List α, lower.length = d ∧
      (∀ b ∈ climbStrings hash pre (stepsAt idx lower) (hash x), b ∈ hashed) ∧
      climb hash pre (stepsAt idx lower) (hash x) = value

variable {hash pre}

theorem exists_climb_iff (F : Framing hash pre IsDigest) {hashed : Set β}
    (hInj : Set.InjOn hash hashed)
    (hTree : ∀ b ∈ tree.strings hash pre, b ∈ hashed)
    (hLeaves : ∀ value ∈ tree.leaves, IsDigest value) {x : β} (hx : x ∈ hashed)
    (len : ℕ) (idx : ℤ) :
    (∃ proof : List α, proof.length = len ∧
      (∀ b ∈ climbStrings hash pre (stepsAt idx proof) (hash x), b ∈ hashed) ∧
      climb hash pre (stepsAt idx proof) (hash x) = tree.digest hash pre) ↔
      Starts hash pre hashed idx x (tree.locate (bits len idx).reverse) := by
  constructor
  · rintro ⟨proof, rfl, hStrings, hRoot⟩
    have hStart := of_climb_eq_digest F hInj hTree hLeaves hx hStrings hRoot
    have hLe := tree.locate_snd_le (bits proof.length idx).reverse
    rw [map_fst_stepsAt] at hStart
    rw [List.length_reverse, length_bits] at hLe
    rcases hPlace : tree.locate (bits proof.length idx).reverse with ⟨sub, d⟩
    rw [hPlace] at hStart hLe
    cases sub with
    | pair left right => exact hStart
    | leaf value =>
        refine ⟨proof.take d, by simpa using hLe, ?_, ?_⟩
        · intro b hb
          apply hStrings b
          rw [← List.take_append_drop d proof, stepsAt_append, climbStrings_append]
          exact List.mem_append_left _ hb
        · rw [← take_stepsAt]
          exact hStart
  · intro hStart
    rcases hPlace : tree.locate (bits len idx).reverse with ⟨sub, d⟩
    obtain ⟨upper, hLength, hClimb, hUpper⟩ := @exists_proof_locate _ _ hash pre _ _ _ _ _ hPlace
    rw [hPlace] at hStart
    cases sub with
    | pair left right =>
        obtain rfl := PairTree.locate_pair_snd hPlace
        have hSame : x = pre (left.digest hash pre) (right.digest hash pre) := hStart
        have hDigest : hash x = (PairTree.pair left right).digest hash pre := by rw [hSame]; rfl
        rw [pow_zero, Int.ediv_one, ← hDigest] at hClimb hUpper
        exact ⟨upper, by omega, fun b hb => hTree b (hUpper b hb), hClimb⟩
    | leaf value =>
        obtain ⟨lower, rfl, hLower, hValue⟩ := hStart
        have hDigest : climb hash pre (stepsAt idx lower) (hash x) =
            (PairTree.leaf value).digest hash pre := hValue
        refine ⟨lower ++ upper, by rw [List.length_append, hLength], ?_, ?_⟩
        · intro b hb
          rw [stepsAt_append, climbStrings_append, hDigest] at hb
          rcases List.mem_append.mp hb with hb | hb
          · exact hLower b hb
          · exact hTree b (hUpper b hb)
        · rw [stepsAt_append, climb_append, hDigest]
          exact hClimb

end Starts

end Prsm.Foundations
