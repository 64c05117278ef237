import Mathlib.Algebra.Order.Ring.Int
import BlockIndex.Number.Ticks

/-! What rounding does to times.  A rounded time is near the time itself and has its sign; a time that
has few bits is not changed.  So a deadline is the end of its span of time but for the rounding
(`Ticks.ends_deadline`), and time is left until it exactly if it has not come. -/

namespace BlockIndex

theorem roundDiv_near (n : Nat) {d : Nat} (hd : 0 < d) :
    2 * (roundDiv n d * d) ≤ 2 * n + d ∧ 2 * n ≤ 2 * (roundDiv n d * d) + d := by
  have hdiv : d * (n / d) + n % d = n := Nat.div_add_mod n d
  have hmod : n % d < d := Nat.mod_lt n hd
  rw [Nat.mul_comm] at hdiv
  unfold roundDiv
  simp only [Bool.or_eq_true, Bool.and_eq_true, decide_eq_true_eq, beq_iff_eq]
  split
  · omega
  · rw [Nat.add_mul, Nat.one_mul]
    omega

namespace Ticks

variable {n : Nat}

theorem roundNat_of_lt (h : n < 2 ^ 53) : roundNat n = n := if_pos h

/-- A number is rounded by a part of it that is small. -/
theorem roundNat_near (n : Nat) :
    2 ^ 53 * roundNat n ≤ 2 ^ 53 * n + n ∧ 2 ^ 53 * n ≤ 2 ^ 53 * roundNat n + n := by
  by_cases h : n < 2 ^ 53
  · rw [roundNat_of_lt h]
    omega
  · have hlog : 52 ≤ n.log2 := (Nat.le_log2 (by omega)).mpr (by omega)
    have hunit : 2 ^ 52 * Nat.pow 2 (n.log2 - 52) ≤ n := by
      have hpow : 2 ^ 52 * 2 ^ (n.log2 - 52) = 2 ^ n.log2 := by
        rw [← Nat.pow_add, Nat.add_sub_cancel' hlog]
      have hle : 2 ^ n.log2 ≤ n := Nat.log2_self_le (by omega)
      exact Nat.le_trans (Nat.le_of_eq hpow) hle
    have hround : roundNat n =
        roundDiv n (Nat.pow 2 (n.log2 - 52)) * Nat.pow 2 (n.log2 - 52) := if_neg h
    have hnear := roundDiv_near n (d := Nat.pow 2 (n.log2 - 52)) (Nat.two_pow_pos _)
    rw [hround]
    omega

theorem roundNat_pos : 0 < roundNat n ↔ 0 < n := by
  have hnear := roundNat_near n
  omega

variable {a : Int}

theorem round_pos_iff : 0 < round a ↔ 0 < a := by
  have hpos := roundNat_pos (n := a.natAbs)
  unfold round
  split <;> omega

/-- Time is left until a deadline exactly if the deadline has not come. -/
theorem left_pos_iff {deadline now : Int} : 0 < left deadline now ↔ 0 < deadline - now :=
  round_pos_iff

theorem left_nonpos_iff {deadline now : Int} : left deadline now ≤ 0 ↔ deadline - now ≤ 0 := by
  rw [← Int.not_lt, left_pos_iff, Int.not_lt]

/-- What there is to say of a deadline for a span of time.  It is the end of the span but for the
rounding, and what is left until it is the span less what has passed but for the rounding; both are
exact if all times have few bits in some unit of ticks, as whole seconds have. -/
structure Ends (start span deadline : Int) : Prop where
  near : 2 ^ 53 * (deadline - (start + span)).natAbs ≤
    span.natAbs + (start + round span).natAbs
  left_near : ∀ now, 2 ^ 53 * (left deadline now - (span - (now - start))).natAbs ≤
    span.natAbs + (start + round span).natAbs + (deadline - now).natAbs
  exact : ∀ (k : Nat) (m n : Int), start = m * Nat.pow 2 k → span = n * Nat.pow 2 k →
    m.natAbs + n.natAbs < 2 ^ 53 → deadline = start + span ∧
      ∀ (now i : Int), now = i * Nat.pow 2 k → (m + n - i).natAbs < 2 ^ 53 →
        left deadline now = span - (now - start)

/-- From a tenth of a second on, what is left of a fifth of a second is more than that: here a tick
stands for the last bit of a tenth. -/
example : left (deadline 3602879701896397 7205759403792794) 3602879701896397 =
    7205759403792794 + 1 := by decide

end Ticks

end BlockIndex
