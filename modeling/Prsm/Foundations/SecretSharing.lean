import Mathlib.LinearAlgebra.Lagrange

/-!
# Sharing a secret by a polynomial

A secret is the constant term of a polynomial of degree below a threshold, and the shares are
its values at points other than zero.  Values of one polynomial at as many points determine the
secret.  Values of several such polynomials, each with the same constant term, do not: the
coefficients can be such that the polynomial through them has another one.
-/

namespace Prsm.Foundations

open Polynomial

variable {F : Type} [Field F]

/-- The polynomial with the secret as its constant term and the other coefficients drawn. -/
noncomputable def sharing (threshold : ℕ) (secret : F) (drawn : ℕ → F) : F[X] :=
  C secret + ∑ j ∈ Finset.range (threshold - 1), C (drawn j) * X ^ (j + 1)

theorem eval_zero_sharing (threshold : ℕ) (secret : F) (drawn : ℕ → F) :
    (sharing threshold secret drawn).eval 0 = secret := by
  simp [sharing, eval_finsetSum]

theorem sharing_zero (threshold : ℕ) (secret : F) :
    sharing threshold secret (fun _ => 0) = C secret := by
  simp [sharing]

theorem degree_sharing_lt {threshold : ℕ} (h : 0 < threshold) (secret : F) (drawn : ℕ → F) :
    (sharing threshold secret drawn).degree < threshold := by
  refine (degree_add_le _ _).trans_lt (max_lt ?_ ?_)
  · exact degree_C_le.trans_lt (by exact_mod_cast h)
  · refine (degree_sum_le _ _).trans_lt ?_
    rw [Finset.sup_lt_iff (by exact_mod_cast WithBot.bot_lt_coe threshold)]
    intro j hj
    refine (degree_C_mul_X_pow_le _ _).trans_lt ?_
    rw [Finset.mem_range] at hj
    exact_mod_cast (by omega : j + 1 < threshold)

theorem exists_sharing_eq {threshold : ℕ} (secret : F) {d : F[X]} (hZero : d.eval 0 = 0)
    (hDegree : d.degree < threshold) :
    ∃ drawn, sharing threshold secret drawn = C secret + d := by
  refine ⟨fun j => d.coeff (j + 1), ?_⟩
  rw [sharing]
  congr 1
  ext n
  rw [finsetSum_coeff]
  simp only [coeff_C_mul, coeff_X_pow]
  cases n with
  | zero =>
      rw [coeff_zero_eq_eval_zero, hZero]
      exact Finset.sum_eq_zero fun j _ => by simp
  | succ n =>
      by_cases hLow : n ∈ Finset.range (threshold - 1)
      · rw [Finset.sum_eq_single_of_mem n hLow]
        · simp
        · intro j _ hj
          simp [Ne.symm hj]
      · have hHigh : d.degree < (n + 1 : ℕ) := by
          refine hDegree.trans_le ?_
          rw [Finset.mem_range] at hLow
          exact_mod_cast (by omega : threshold ≤ n + 1)
        rw [coeff_eq_zero_of_degree_lt hHigh]
        refine Finset.sum_eq_zero fun j hj => ?_
        have hNe : n ≠ j := by
          rintro rfl
          exact hLow hj
        simp [hNe]

/-- The values of two polynomials with one constant term, put together: some points of a set
are on the first and the others on the constant one, and the polynomial through all of them has
another constant term. -/
theorem exists_mixture (secret : F) {points own : Finset F} (hZero : (0 : F) ∉ points)
    (hOwn : own ⊂ points) (hSome : own.Nonempty) :
    ∃ d p : F[X], d.eval 0 = 0 ∧ d.degree < points.card ∧ p.degree < points.card ∧
      (∀ x ∈ own, p.eval x = secret + d.eval x) ∧
      (∀ x ∈ points, x ∉ own → p.eval x = secret) ∧ p.eval 0 ≠ secret := by
  classical
  obtain ⟨x₀, hx₀⟩ := hSome
  have hMem := hOwn.subset hx₀
  have hCard := Finset.card_lt_card hOwn
  -- zero at all points but the one chosen
  let q : F[X] := Lagrange.nodal (points.erase x₀) id
  let d : F[X] := X * Lagrange.nodal (own.erase x₀) id
  have hq : ∀ x, x ∉ points.erase x₀ → q.eval x ≠ 0 := fun x hx =>
    Lagrange.eval_nodal_not_at_node fun y hy hSame => hx (by rwa [hSame])
  have hqOther : ∀ x ∈ points, x ≠ x₀ → q.eval x = 0 := fun x hx hNe =>
    Lagrange.eval_nodal_at_node (v := id) (Finset.mem_erase.mpr ⟨hNe, hx⟩)
  have hdOther : ∀ x ∈ own, x ≠ x₀ → d.eval x = 0 := by
    intro x hx hNe
    have hRoot := Lagrange.eval_nodal_at_node (v := id) (Finset.mem_erase.mpr ⟨hNe, hx⟩)
    rw [eval_mul, show eval x (Lagrange.nodal (own.erase x₀) id) = 0 from hRoot, mul_zero]
  have hdOwn : d.eval x₀ ≠ 0 := by
    rw [eval_mul, eval_X]
    refine mul_ne_zero (fun hNull => hZero (hNull ▸ hMem)) ?_
    exact Lagrange.eval_nodal_not_at_node fun y hy hSame =>
      (Finset.ne_of_mem_erase hy) hSame.symm
  have hqOwn : q.eval x₀ ≠ 0 := hq x₀ (Finset.notMem_erase x₀ points)
  refine ⟨d, C secret + C (d.eval x₀ / q.eval x₀) * q, by simp [d], ?_, ?_, ?_, ?_, ?_⟩
  · rw [degree_mul, degree_X, Lagrange.degree_nodal, Finset.card_erase_of_mem hx₀]
    have hPos := Finset.card_pos.mpr ⟨x₀, hx₀⟩
    exact_mod_cast (by omega : 1 + (own.card - 1) < points.card)
  · have hPos := Finset.card_pos.mpr ⟨x₀, hMem⟩
    refine (degree_add_le _ _).trans_lt (max_lt ?_ ?_)
    · exact degree_C_le.trans_lt (by exact_mod_cast hPos)
    · rw [degree_C_mul (div_ne_zero hdOwn hqOwn), Lagrange.degree_nodal,
        Finset.card_erase_of_mem hMem]
      exact_mod_cast (by omega : points.card - 1 < points.card)
  · intro x hx
    by_cases hSame : x = x₀
    · subst hSame
      simp [div_mul_cancel₀ _ hqOwn]
    · simp [hqOther x (hOwn.subset hx) hSame, hdOther x hx hSame]
  · intro x hx hNot
    have hNe : x ≠ x₀ := fun hSame => hNot (hSame ▸ hx₀)
    simp [hqOther x hx hNe]
  · have hqZero : q.eval 0 ≠ 0 := hq 0 fun hIn => hZero (Finset.mem_of_mem_erase hIn)
    simp [hqZero, hdOwn, hqOwn]

end Prsm.Foundations
