import Prsm.Foundations.Weighted

/-!
# `rejection_sample_speculation`

Draft tokens are accepted or corrected one after another.  Probabilities are exact rationals,
and a uniform draw below a bound is a flip of that probability.  The residual that a
correction is drawn from knows of the draft only what it says of its own token, so the target
distribution is kept for some drafts alone; `Preserved` says for which.
-/

namespace Prsm.Speculation

open Foundations

/-- A distribution over the tokens of a vocabulary. -/
structure Distribution (vocabSize : ℕ) where
  weight : Fin vocabSize → ℚ
  nonneg : ∀ t, 0 ≤ weight t
  sum_eq : ∑ t, weight t = 1

inductive SamplingError
  | probsLength (k probs : ℕ)
  | targetsLength (targets k : ℕ)

variable {n : ℕ}

def acceptProb (pD qD : ℚ) : ℚ :=
  if qD ≤ 0 then 1 else min 1 (pD / qD)

/-- The residual before it is normalised. -/
def residual (p : Fin n → ℚ) (d : Fin n) (qD : ℚ) : Fin n → ℚ :=
  Function.update p d (max 0 (p d - qD))

def correction (p : Fin n → ℚ) (d : Fin n) (qD : ℚ) : Weighted (Fin n) :=
  if ∑ t, residual p d qD t ≤ 0 then .choice p
  else .choice fun t => residual p d qD t / ∑ t, residual p d qD t

/-- The loop over the proposals from the `i`-th on. -/
def examine (i : ℕ) : List (Fin n → ℚ) → List (Fin n × ℚ) → List (Fin n) →
    Weighted (List (Fin n) × ℕ)
  | p :: targets, (d, qD) :: proposals, accepted => do
      if ← Weighted.flip (acceptProb (p d) qD) then
        examine (i + 1) targets proposals (accepted ++ [d])
      else
        let token ← correction p d qD
        return (accepted ++ [token], i)
  | p :: _, [], accepted => do
      let bonus ← Weighted.choice p
      return (accepted ++ [bonus], i)
  -- not reached: there is one target more than there are proposals
  | [], _, accepted => return (accepted, i)

def rejectionSampleSpeculation (targetDistributions : List (Fin n → ℚ))
    (proposedTokenIds : List (Fin n)) (proposedTokenProbs : List ℚ) :
    Weighted (Except SamplingError (List (Fin n) × ℕ)) :=
  if proposedTokenProbs.length ≠ proposedTokenIds.length then
    return .error (.probsLength proposedTokenIds.length proposedTokenProbs.length)
  else if targetDistributions.length ≠ proposedTokenIds.length + 1 then
    return .error (.targetsLength targetDistributions.length proposedTokenIds.length)
  else do
    let outcome ← examine 0 targetDistributions (proposedTokenIds.zip proposedTokenProbs) []
    return .ok outcome

/-! ## Rounds -/

/-- A draft that draws each token by itself and reports the probability of what it has
drawn. -/
def propose : List (Distribution n) → Weighted (List (Fin n × ℚ))
  | [] => return []
  | q :: drafts => do
      let d ← Weighted.choice q.weight
      let rest ← propose drafts
      return (d, q.weight d) :: rest

/-- A round of speculation. -/
def speculate (targets drafts : List (Distribution n)) :
    Weighted (Except SamplingError (List (Fin n) × ℕ)) := do
  let proposals ← propose drafts
  rejectionSampleSpeculation (targets.map Distribution.weight) (proposals.map Prod.fst)
    (proposals.map Prod.snd)

/-- The first `i` proposals are accepted. -/
def acceptsFirst (i : ℕ) : Except SamplingError (List (Fin n) × ℕ) → Bool
  | .ok (_, acceptedCount) => i ≤ acceptedCount
  | .error _ => false

/-- So they are, and the token after them is `t`. -/
def returnsNext (i : ℕ) (t : Fin n) : Except SamplingError (List (Fin n) × ℕ) → Bool
  | .ok (verifiedTokenIds, acceptedCount) =>
      i ≤ acceptedCount && verifiedTokenIds[i]? = some t
  | .error _ => false

/-- The draft gives the tokens that it does not overrate the same share of their target, and
it overrates one token only, or only tokens that the target excludes. -/
def Preserved (p q : Distribution n) : Prop :=
  (∃ share, ∀ t, q.weight t ≤ p.weight t → q.weight t = share * p.weight t) ∧
    ∀ t, p.weight t < q.weight t →
      p.weight t = 0 ∨ ∀ other, p.weight other < q.weight other → other = t

/-! ## One token -/

namespace Distribution

variable (p : Distribution n)

theorem weight_le_one (t : Fin n) : p.weight t ≤ 1 := by
  rw [← p.sum_eq]
  exact Finset.single_le_sum (fun s _ => p.nonneg s) (Finset.mem_univ t)

end Distribution

variable {p q : Distribution n} {d t : Fin n}

theorem sum_residual (p : Fin n → ℚ) (d : Fin n) (qD : ℚ) :
    ∑ t, residual p d qD t = max 0 (p d - qD) + (∑ t, p t - p d) := by
  unfold residual
  rw [Finset.sum_update_of_mem (Finset.mem_univ d), ← Finset.sum_erase_eq_sub (Finset.mem_univ d),
    Finset.sdiff_singleton_eq_erase]

theorem mean_correction_one (p : Distribution n) (d : Fin n) (qD : ℚ) :
    (correction p.weight d qD).mean (fun _ => 1) = 1 := by
  unfold correction
  split
  case isTrue h => rw [Weighted.mean_choice]; simpa using p.sum_eq
  case isFalse h =>
      rw [Weighted.mean_choice]
      simp only [mul_one]
      rw [← Finset.sum_div, div_self (not_le.mp h).ne']

theorem prob_correction (h : p.weight d < q.weight d) :
    (correction p.weight d (q.weight d)).prob (fun s => s = t) =
      if t = d then 0 else p.weight t / (1 - p.weight d) := by
  have hLess : p.weight d < 1 := h.trans_le (q.weight_le_one d)
  have hSum : ∑ s, residual p.weight d (q.weight d) s = 1 - p.weight d := by
    rw [sum_residual, p.sum_eq, max_eq_left (by linarith), zero_add]
  have hPos : ¬ ∑ s, residual p.weight d (q.weight d) s ≤ 0 := by
    rw [hSum]
    linarith
  unfold correction Weighted.prob
  rw [if_neg hPos, Weighted.mean_choice, hSum]
  simp only [decide_eq_true_eq, mul_ite, mul_one, mul_zero, Finset.sum_ite_eq', Finset.mem_univ,
    if_true]
  unfold residual
  by_cases hSame : t = d
  · subst hSame
    rw [Function.update_self, max_eq_left (by linarith), if_pos rfl, zero_div]
  · rw [Function.update_of_ne hSame, if_neg hSame]

theorem weight_mul_acceptProb (p q : Distribution n) (d : Fin n) :
    q.weight d * acceptProb (p.weight d) (q.weight d) = min (q.weight d) (p.weight d) := by
  unfold acceptProb
  rcases (q.nonneg d).eq_or_lt with hZero | hPos
  · rw [← hZero, zero_mul, min_eq_left (p.nonneg d)]
  · rw [if_neg (not_le.mpr hPos), mul_min_of_nonneg _ _ hPos.le, mul_one,
      mul_div_cancel₀ _ hPos.ne']

/-- The probability that a proposal is accepted. -/
def overlap (p q : Distribution n) : ℚ :=
  ∑ d, q.weight d * acceptProb (p.weight d) (q.weight d)

/-- The probability that a proposal is replaced by, or is, this token. -/
def marginal (p q : Distribution n) (t : Fin n) : ℚ :=
  ∑ d, q.weight d * (acceptProb (p.weight d) (q.weight d) * (if d = t then 1 else 0) +
    (1 - acceptProb (p.weight d) (q.weight d)) *
      (correction p.weight d (q.weight d)).prob (fun s => s = t))

/-- By how much the correction of a token raises the others, relative to their weights. -/
def excess (p q : Distribution n) (d : Fin n) : ℚ :=
  if p.weight d < q.weight d then (q.weight d - p.weight d) / (1 - p.weight d) else 0

theorem excess_pos (h : p.weight d < q.weight d) : 0 < excess p q d := by
  unfold excess
  rw [if_pos h]
  exact div_pos (sub_pos.mpr h) (sub_pos.mpr (h.trans_le (q.weight_le_one d)))

theorem excess_nonneg : 0 ≤ excess p q d := by
  by_cases h : p.weight d < q.weight d
  · exact (excess_pos h).le
  · simp [excess, h]

theorem marginal_eq (p q : Distribution n) (t : Fin n) :
    marginal p q t = min (q.weight t) (p.weight t) +
      p.weight t * (∑ d, excess p q d - excess p q t) := by
  have hTerm : ∀ d, q.weight d * (acceptProb (p.weight d) (q.weight d) *
      (if d = t then 1 else 0) + (1 - acceptProb (p.weight d) (q.weight d)) *
        (correction p.weight d (q.weight d)).prob (fun s => s = t)) =
      (if d = t then min (q.weight t) (p.weight t) else 0) +
        p.weight t * (excess p q d - if d = t then excess p q t else 0) := by
    intro d
    have hAccept := weight_mul_acceptProb p q d
    by_cases hOver : p.weight d < q.weight d
    · have hReject : q.weight d * (1 - acceptProb (p.weight d) (q.weight d)) =
          q.weight d - p.weight d := by
        rw [mul_sub, mul_one, hAccept, min_eq_right hOver.le]
      rw [prob_correction hOver, mul_add, ← mul_assoc, ← mul_assoc, hAccept, hReject]
      by_cases hSame : d = t
      · subst hSame
        simp
      · simp only [hSame, Ne.symm hSame, if_false, excess, hOver, if_true]
        ring
    · have hReject : q.weight d * (1 - acceptProb (p.weight d) (q.weight d)) = 0 := by
        rw [mul_sub, mul_one, hAccept, min_eq_left (not_lt.mp hOver), sub_self]
      rw [mul_add, ← mul_assoc, ← mul_assoc, hAccept, hReject]
      by_cases hSame : d = t
      · subst hSame
        simp
      · simp [hSame, excess, hOver]
  unfold marginal
  simp only [hTerm]
  rw [Finset.sum_add_distrib, ← Finset.mul_sum, Finset.sum_sub_distrib]
  simp

theorem sum_excess_mul (hOver : ∀ t, p.weight t < q.weight t →
    p.weight t = 0 ∨ ∀ other, p.weight other < q.weight other → other = t) :
    (∑ d, excess p q d) * (∑ t with ¬ p.weight t < q.weight t, p.weight t) =
      ∑ d with p.weight d < q.weight d, (q.weight d - p.weight d) := by
  have hSplit := Finset.sum_filter_add_sum_filter_not Finset.univ
    (fun t => p.weight t < q.weight t) p.weight
  rw [p.sum_eq] at hSplit
  have hEach : ∀ d, p.weight d < q.weight d →
      ∑ t with p.weight t < q.weight t, p.weight t = p.weight d := by
    intro d hd
    rcases hOver d hd with hZero | hOnly
    · rw [hZero]
      refine Finset.sum_eq_zero fun t ht => ?_
      have hLess := (Finset.mem_filter.mp ht).2
      rcases hOver t hLess with hNone | hAlone
      · exact hNone
      · rw [← hAlone d hd]
        exact hZero
    · refine Finset.sum_eq_single_of_mem d (by simp [hd]) fun t ht hne => ?_
      exact absurd (hOnly t (Finset.mem_filter.mp ht).2) hne
  rw [Finset.sum_mul, ← Finset.sum_filter_add_sum_filter_not Finset.univ
    (fun t => p.weight t < q.weight t)]
  have hRest : ∑ d with ¬ p.weight d < q.weight d, excess p q d *
      (∑ t with ¬ p.weight t < q.weight t, p.weight t) = 0 := by
    refine Finset.sum_eq_zero fun d hd => ?_
    simp [excess, (Finset.mem_filter.mp hd).2]
  rw [hRest, add_zero]
  refine Finset.sum_congr rfl fun d hd => ?_
  have hLess := (Finset.mem_filter.mp hd).2
  have hOne : p.weight d < 1 := hLess.trans_le (q.weight_le_one d)
  have hShare : ∑ t with ¬ p.weight t < q.weight t, p.weight t = 1 - p.weight d := by
    rw [hEach d hLess] at hSplit
    linarith
  rw [hShare, excess, if_pos hLess]
  exact div_mul_cancel₀ _ (sub_pos.mpr hOne).ne'

theorem share_eq {share : ℚ}
    (hShare : ∀ t, q.weight t ≤ p.weight t → q.weight t = share * p.weight t)
    (hOver : ∀ t, p.weight t < q.weight t →
      p.weight t = 0 ∨ ∀ other, p.weight other < q.weight other → other = t)
    (hUnder : q.weight t ≤ p.weight t) :
    p.weight t - q.weight t = p.weight t * ∑ d, excess p q d := by
  have hSplit := Finset.sum_filter_add_sum_filter_not Finset.univ
    (fun t => p.weight t < q.weight t) p.weight
  have hSplit' := Finset.sum_filter_add_sum_filter_not Finset.univ
    (fun t => p.weight t < q.weight t) q.weight
  have hUnders : ∑ t with ¬ p.weight t < q.weight t, q.weight t =
      share * ∑ t with ¬ p.weight t < q.weight t, p.weight t := by
    rw [Finset.mul_sum]
    exact Finset.sum_congr rfl fun s hs => hShare s (not_lt.mp (Finset.mem_filter.mp hs).2)
  have hExcess := sum_excess_mul hOver
  rw [Finset.sum_sub_distrib] at hExcess
  rw [p.sum_eq] at hSplit
  rw [q.sum_eq, hUnders] at hSplit'
  rw [hShare t hUnder]
  -- either the tokens that are not overrated have no weight, or the share is determined
  rcases eq_or_ne (∑ t with ¬ p.weight t < q.weight t, p.weight t) 0 with hZero | hSome
  · have hNone : p.weight t = 0 := by
      have hMem : t ∈ Finset.univ.filter fun t => ¬ p.weight t < q.weight t := by
        simp [hUnder]
      exact (Finset.sum_eq_zero_iff_of_nonneg fun s _ => p.nonneg s).mp hZero t hMem
    simp [hNone]
  · have hDetermined : ∑ d, excess p q d = 1 - share :=
      mul_right_cancel₀ hSome (by linarith)
    rw [hDetermined]
    ring

theorem marginal_eq_iff : (∀ t, marginal p q t = p.weight t) ↔ Preserved p q := by
  simp only [marginal_eq]
  constructor
  · intro h
    refine ⟨⟨1 - ∑ d, excess p q d, fun t hUnder => ?_⟩, fun t hOver => ?_⟩
    · have hHere := h t
      rw [min_eq_left hUnder, excess, if_neg (not_lt.mpr hUnder), sub_zero] at hHere
      linarith
    · have hHere := h t
      rw [min_eq_right hOver.le, add_eq_left, mul_eq_zero, sub_eq_zero] at hHere
      refine hHere.imp id fun hSum other hOther => ?_
      by_contra hne
      have hTwo := Finset.add_le_sum (fun d _ => excess_nonneg) (Finset.mem_univ t)
        (Finset.mem_univ other) (Ne.symm hne) (f := excess p q)
      have hPos := excess_pos hOther
      linarith
  · rintro ⟨⟨share, hShare⟩, hOver⟩ t
    rcases lt_or_ge (p.weight t) (q.weight t) with hMore | hUnder
    · rw [min_eq_right hMore.le]
      rcases hOver t hMore with hZero | hOnly
      · simp [hZero]
      · have hSum : ∑ d, excess p q d = excess p q t := by
          refine Finset.sum_eq_single_of_mem t (Finset.mem_univ t) fun d _ hne => ?_
          rw [excess, if_neg fun hd => hne (hOnly d hd)]
        rw [hSum, sub_self, mul_zero, add_zero]
    · have hKept := share_eq hShare hOver hUnder
      rw [min_eq_left hUnder, excess, if_neg (not_lt.mpr hUnder), sub_zero]
      linarith

section Loop

variable {targets drafts : List (Distribution n)}

theorem mean_propose_cons (g : List (Fin n × ℚ) → ℚ) :
    (propose (q :: drafts)).mean g = ∑ d, q.weight d *
      (propose drafts).mean fun rest => g ((d, q.weight d) :: rest) := by
  simp only [propose, Weighted.mean_bind, Weighted.mean_pure, Weighted.mean_choice]

theorem mean_propose_congr {g g' : List (Fin n × ℚ) → ℚ}
    (h : ∀ proposals, proposals.length = drafts.length → g proposals = g' proposals) :
    (propose drafts).mean g = (propose drafts).mean g' := by
  induction drafts generalizing g g' with
  | nil =>
      simp only [propose, Weighted.mean_pure]
      exact h [] rfl
  | cons q rest ih =>
      rw [mean_propose_cons, mean_propose_cons]
      refine Finset.sum_congr rfl fun d _ => ?_
      rw [ih fun proposals hLength => h ((d, q.weight d) :: proposals) (by simp [hLength])]

theorem mean_propose_const (c : ℚ) : (propose drafts).mean (fun _ => c) = c := by
  induction drafts with
  | nil => simp [propose]
  | cons q rest ih => rw [mean_propose_cons, ih, ← Finset.sum_mul, q.sum_eq, one_mul]

/-- The loop on what the draft proposes. -/
def loopMean (g : List (Fin n) × ℕ → ℚ) (i : ℕ) (targets drafts : List (Distribution n))
    (accepted : List (Fin n)) : ℚ :=
  (propose drafts).mean fun proposals =>
    (examine i (targets.map Distribution.weight) proposals accepted).mean g

variable {g : List (Fin n) × ℕ → ℚ} {i : ℕ} {accepted : List (Fin n)}

theorem loopMean_nil : loopMean g i (p :: targets) [] accepted =
    ∑ t, p.weight t * g (accepted ++ [t], i) := by
  simp only [loopMean, propose, List.map_cons, examine, Weighted.mean_pure, Weighted.mean_bind,
    Weighted.mean_choice]

theorem loopMean_cons : loopMean g i (p :: targets) (q :: drafts) accepted =
    ∑ d, q.weight d * (acceptProb (p.weight d) (q.weight d) *
        loopMean g (i + 1) targets drafts (accepted ++ [d]) +
      (1 - acceptProb (p.weight d) (q.weight d)) *
        (correction p.weight d (q.weight d)).mean fun t => g (accepted ++ [t], i)) := by
  unfold loopMean
  rw [mean_propose_cons]
  refine Finset.sum_congr rfl fun d _ => ?_
  congr 1
  simp only [List.map_cons, examine, Weighted.mean_bind, Weighted.mean_flip, if_true,
    Bool.false_eq_true, if_false, Weighted.mean_pure]
  rw [Weighted.mean_add, Weighted.mean_mul, mean_propose_const]

theorem loopMean_const {c : ℚ} (hLength : targets.length = drafts.length + 1)
    (h : ∀ verified count, accepted <+: verified → i ≤ count → g (verified, count) = c) :
    loopMean g i targets drafts accepted = c := by
  induction drafts generalizing targets i accepted with
  | nil =>
      obtain ⟨p, rfl⟩ := List.length_eq_one_iff.mp hLength
      rw [loopMean_nil]
      simp only [h _ i (List.prefix_append _ _) le_rfl]
      rw [← Finset.sum_mul, p.sum_eq, one_mul]
  | cons q drafts ih =>
      obtain ⟨p, targets, rfl⟩ := List.exists_cons_of_length_eq_add_one hLength
      have hNext : ∀ d, loopMean g (i + 1) targets drafts (accepted ++ [d]) = c := by
        intro d
        refine ih (Nat.succ.inj hLength) fun verified count hPrefix hCount => ?_
        exact h verified count ((List.prefix_append _ _).trans hPrefix) (by omega)
      rw [loopMean_cons]
      simp only [hNext, h _ i (List.prefix_append _ _) le_rfl]
      have hCorrected : ∀ d, (correction p.weight d (q.weight d)).mean (fun _ => c) = c := by
        intro d
        rw [show (fun _ : Fin n => c) = fun _ => c * 1 by simp, Weighted.mean_mul,
          mean_correction_one, mul_one]
      simp only [hCorrected, ← add_mul, add_sub_cancel, one_mul]
      rw [← Finset.sum_mul, q.sum_eq, one_mul]

/-- The probability that the first proposals are accepted. -/
def reach : List (Distribution n) → List (Distribution n) → ℕ → ℚ
  | _, _, 0 => 1
  | p :: targets, q :: drafts, i + 1 => overlap p q * reach targets drafts i
  | _, _, _ + 1 => 0

/-- The probability that they are, with this token after them. -/
def emitted : List (Distribution n) → List (Distribution n) → ℕ → Fin n → ℚ
  | p :: _, q :: _, 0, t => marginal p q t
  | p :: _, [], 0, t => p.weight t
  | p :: targets, q :: drafts, i + 1, t => overlap p q * emitted targets drafts i t
  | _, _, _, _ => 0

theorem loopMean_accepts {m : ℕ} (hLength : targets.length = drafts.length + 1) :
    loopMean (fun r => if m ≤ r.2 then 1 else 0) i targets drafts accepted =
      reach targets drafts (m - i) := by
  rcases le_or_gt m i with hPast | hAhead
  · rw [Nat.sub_eq_zero_of_le hPast, reach]
    exact loopMean_const hLength fun _ count _ hCount => if_pos (hPast.trans hCount)
  · induction drafts generalizing targets i accepted with
    | nil =>
        obtain ⟨p, rfl⟩ := List.length_eq_one_iff.mp hLength
        obtain ⟨k, hk⟩ : ∃ k, m - i = k + 1 := ⟨m - i - 1, by omega⟩
        rw [loopMean_nil, hk]
        simp [reach, not_le.mpr hAhead]
    | cons q drafts ih =>
        obtain ⟨p, targets, rfl⟩ := List.exists_cons_of_length_eq_add_one hLength
        have hNext : ∀ d, loopMean (fun r => if m ≤ r.2 then 1 else 0) (i + 1) targets drafts
            (accepted ++ [d]) = reach targets drafts (m - (i + 1)) := by
          intro d
          rcases le_or_gt m (i + 1) with hPast | hMore
          · rw [Nat.sub_eq_zero_of_le hPast, reach]
            exact loopMean_const (Nat.succ.inj hLength) fun _ count _ hCount =>
              if_pos (hPast.trans hCount)
          · exact ih (Nat.succ.inj hLength) hMore
        rw [loopMean_cons, show m - i = m - (i + 1) + 1 by omega, reach, overlap, Finset.sum_mul]
        simp only [hNext, not_le.mpr hAhead, if_false]
        refine Finset.sum_congr rfl fun d _ => ?_
        rw [show (fun _ : Fin n => (0 : ℚ)) = fun _ => 0 * 1 by simp, Weighted.mean_mul]
        ring

theorem loopMean_returns {j : ℕ} (hLength : targets.length = drafts.length + 1)
    (hAccepted : accepted.length = i) :
    loopMean (fun r => if i + j ≤ r.2 ∧ r.1[i + j]? = some t then 1 else 0) i targets drafts
      accepted = emitted targets drafts j t := by
  induction drafts generalizing targets i accepted j with
  | nil =>
      obtain ⟨p, rfl⟩ := List.length_eq_one_iff.mp hLength
      rw [loopMean_nil]
      cases j with
      | zero => simp [emitted, ← hAccepted]
      | succ j => simp [emitted]
  | cons q drafts ih =>
      obtain ⟨p, targets, rfl⟩ := List.exists_cons_of_length_eq_add_one hLength
      have hRest := Nat.succ.inj hLength
      rw [loopMean_cons]
      cases j with
      | zero =>
          have hSettled : ∀ d, loopMean (fun r => if i + 0 ≤ r.2 ∧ r.1[i + 0]? = some t then 1
              else 0) (i + 1) targets drafts (accepted ++ [d]) = if d = t then 1 else 0 := by
            intro d
            refine loopMean_const hRest fun verified count hPrefix hCount => ?_
            obtain ⟨rest, rfl⟩ := hPrefix
            have hCounted : accepted.length ≤ count := by omega
            simp [hCounted, ← hAccepted]
          have hHere : ∀ s : Fin n, (if i + 0 ≤ i ∧ (accepted ++ [s])[i + 0]? = some t then (1 : ℚ)
              else 0) = if decide (s = t) = true then 1 else 0 := by
            intro s
            simp [← hAccepted]
          simp only [hSettled, hHere]
          rfl
      | succ j =>
          have hNext : ∀ d, loopMean (fun r => if i + (j + 1) ≤ r.2 ∧
              r.1[i + (j + 1)]? = some t then 1 else 0) (i + 1) targets drafts
                (accepted ++ [d]) = emitted targets drafts j t := by
            intro d
            rw [show i + (j + 1) = i + 1 + j by omega]
            exact ih hRest (by simp [hAccepted])
          have hShort : ∀ s : Fin n, (if i + (j + 1) ≤ i ∧
              (accepted ++ [s])[i + (j + 1)]? = some t then (1 : ℚ) else 0) = 0 * 1 := by
            intro s
            simp
          simp only [hNext, hShort, Weighted.mean_mul]
          rw [emitted, overlap, Finset.sum_mul]
          exact Finset.sum_congr rfl fun d _ => by ring

theorem emitted_iff (hTarget : targets[i]? = some p) (hDraft : drafts[i]? = some q) :
    (∀ t, emitted targets drafts i t = reach targets drafts i * p.weight t) ↔
      reach targets drafts i = 0 ∨ Preserved p q := by
  induction i generalizing targets drafts with
  | zero =>
      cases targets with
      | nil => cases hTarget
      | cons p' targets =>
          cases drafts with
          | nil => cases hDraft
          | cons q' drafts =>
              cases hTarget
              cases hDraft
              simp only [emitted, reach, one_mul, one_ne_zero, false_or]
              exact marginal_eq_iff
  | succ i ih =>
      cases targets with
      | nil => cases hTarget
      | cons p' targets =>
          cases drafts with
          | nil => cases hDraft
          | cons q' drafts =>
              simp only [emitted, reach, mul_assoc, mul_eq_mul_left_iff, mul_eq_zero]
              rw [forall_or_right, ih hTarget hDraft]
              tauto

theorem emitted_bonus (hTarget : targets[drafts.length]? = some p) :
    emitted targets drafts drafts.length t = reach targets drafts drafts.length * p.weight t := by
  induction drafts generalizing targets with
  | nil =>
      cases targets with
      | nil => cases hTarget
      | cons p' targets =>
          cases hTarget
          simp [emitted, reach]
  | cons q drafts ih =>
      cases targets with
      | nil => cases hTarget
      | cons p' targets =>
          simp only [List.length_cons, emitted, reach]
          rw [ih hTarget, mul_assoc]

/-! ## Rounds -/

theorem mean_speculate {g : Except SamplingError (List (Fin n) × ℕ) → ℚ}
    (hLength : targets.length = drafts.length + 1) :
    (speculate targets drafts).mean g = loopMean (fun r => g (.ok r)) 0 targets drafts [] := by
  unfold speculate loopMean
  rw [Weighted.mean_bind]
  refine mean_propose_congr fun proposals hProposals => ?_
  have hZip : (proposals.map Prod.fst).zip (proposals.map Prod.snd) = proposals := by
    rw [List.zip_map']
    simp
  unfold rejectionSampleSpeculation
  rw [if_neg (by simp), if_neg (by simp [hLength, hProposals]), hZip, Weighted.mean_bind]
  simp only [Weighted.mean_pure]

theorem prob_acceptsFirst (hLength : targets.length = drafts.length + 1) (i : ℕ) :
    (speculate targets drafts).prob (acceptsFirst i) = reach targets drafts i := by
  unfold Weighted.prob
  rw [mean_speculate hLength]
  simp only [acceptsFirst, decide_eq_true_eq]
  exact loopMean_accepts hLength

theorem prob_returnsNext (hLength : targets.length = drafts.length + 1) (i : ℕ) (t : Fin n) :
    (speculate targets drafts).prob (returnsNext i t) = emitted targets drafts i t := by
  unfold Weighted.prob
  rw [mean_speculate hLength]
  simp only [returnsNext, Bool.and_eq_true, decide_eq_true_eq]
  have hReturns := @loopMean_returns _ t targets drafts 0 [] i hLength rfl
  simpa only [Nat.zero_add] using hReturns

end Loop

/-- Given that the first tokens were accepted, the next one has the target distribution
exactly if this can be relied on for the draft at that place, or if it never comes to that.
The bonus token always has it, and the first place is always reached. -/
theorem sampling_preserves_iff (targets drafts : List (Distribution n))
    (hLength : targets.length = drafts.length + 1) :
    (∀ i p q, targets[i]? = some p → drafts[i]? = some q →
      ((∀ t, (speculate targets drafts).prob (returnsNext i t) =
          (speculate targets drafts).prob (acceptsFirst i) * p.weight t) ↔
        (speculate targets drafts).prob (acceptsFirst i) = 0 ∨ Preserved p q)) ∧
    (∀ p, targets[drafts.length]? = some p → ∀ t,
      (speculate targets drafts).prob (returnsNext drafts.length t) =
        (speculate targets drafts).prob (acceptsFirst drafts.length) * p.weight t) ∧
    (speculate targets drafts).prob (acceptsFirst 0) = 1 := by
  simp only [prob_acceptsFirst hLength, prob_returnsNext hLength]
  refine ⟨fun i p q hTarget hDraft => emitted_iff hTarget hDraft,
    fun p hTarget t => emitted_bonus hTarget, ?_⟩
  simp [reach]

/-! ## Three tokens -/

def uniform : Distribution 3 where
  weight := fun _ => 1 / 3
  nonneg := by decide +kernel
  sum_eq := by decide +kernel

def greedy : Distribution 3 where
  weight := fun t => if t = 0 then 1 else 0
  nonneg := by decide +kernel
  sum_eq := by decide +kernel

def undecided : Distribution 3 where
  weight := fun t => if t = 2 then 0 else 1 / 2
  nonneg := by decide +kernel
  sum_eq := by decide +kernel

theorem sampling_preserves_iff_greedy :
    (speculate [uniform, uniform] [greedy]).prob (returnsNext 0 2) =
      (speculate [uniform, uniform] [greedy]).prob (acceptsFirst 0) * (1 / 3) := by
  refine ((sampling_preserves_iff [uniform, uniform] [greedy] rfl).1 0 uniform greedy rfl
    rfl).mpr (Or.inr ⟨⟨0, ?_⟩, ?_⟩) 2
  · decide +kernel
  · intro t hOver
    refine Or.inr fun other hOther => ?_
    revert t other
    decide +kernel

/-- The third token comes half as often as it should. -/
theorem sampling_skewed :
    (speculate [uniform, uniform] [undecided]).prob (returnsNext 0 2) = 1 / 6 ∧
      uniform.weight 2 = 1 / 3 := by
  decide +kernel

end Prsm.Speculation
