import Mathlib.Algebra.Group.Nat.Defs
import RestClient.Proofs.Retrying

/-!
# Exponential delays

The first delay is doubled from retry to retry as far as a 32-bit word can say how often it is
taken.  Up to the thirty-second retry that is the delay by the formula, later only where the first
delay is zero or the longest one has been reached.
-/

namespace RestClient

theorem Duration.nanos_inj {a b : Duration} : a.nanos = b.nanos <-> a = b := by
  rcases a with ⟨n, hn⟩
  rcases b with ⟨m, hm⟩
  exact (Duration.mk.injEq n hn m hm).symm.to_iff

namespace Strategy

theorem doublings_of_le {retry : Nat} (h : retry ≤ 32) : doublings retry = 2 ^ (retry - 1) := by
  have hexponent : (retry - 1) % UInt32.size = retry - 1 :=
    Nat.mod_eq_of_lt (Nat.lt_of_le_of_lt (Nat.sub_le_sub_right h 1) (by decide))
  unfold doublings
  dsimp only
  rw [hexponent, if_pos (by omega), Nat.one_shiftLeft]

theorem doublings_lt (retry : Nat) : doublings retry < 2 ^ 32 := by
  unfold doublings
  dsimp only
  by_cases h : (retry - 1) % UInt32.size < 32
  · rw [if_pos h, Nat.one_shiftLeft]
    exact Nat.pow_lt_pow_right (by decide) h
  · rw [if_neg h]
    decide

theorem doublings_lt_of_lt {retry : Nat} (h : 32 < retry) :
    doublings retry < 2 ^ (retry - 1) := by
  have hpower : 2 ^ 32 ≤ 2 ^ (retry - 1) :=
    Nat.pow_le_pow_right (by decide) (Nat.le_sub_one_of_lt h)
  exact Nat.lt_of_lt_of_le (doublings_lt retry) hpower

theorem doublings_le (retry : Nat) : doublings retry ≤ 2 ^ (retry - 1) := by
  rcases Nat.lt_or_ge 32 retry with h | h
  · exact Nat.le_of_lt (doublings_lt_of_lt h)
  · exact Nat.le_of_eq (doublings_of_le h)

/-- Neither delay is beyond the range of durations, so that only the longest one cuts. -/
theorem nanos_min_scale (initial longest : Duration) (k : Nat) :
    (min (initial.scale k) longest).nanos = min (initial.nanos * k) longest.nanos := by
  have hlongest : longest.nanos < Duration.bound := longest.nanos_lt
  rw [Duration.nanos_min, Duration.nanos_scale]
  omega

/-- The delay by the formula, in nanoseconds. -/
def doubled (initial longest : Duration) (retry : Nat) : Nat :=
  min (initial.nanos * 2 ^ (retry - 1)) longest.nanos

theorem min_mul_doublings_eq_iff (initial longest : Duration) (retry : Nat) :
    min (initial.nanos * doublings retry) longest.nanos = doubled initial longest retry <->
      retry ≤ 32 ∨ initial.nanos = 0 ∨
        min (initial.nanos * doublings retry) longest.nanos = longest.nanos := by
  have hle : initial.nanos * doublings retry ≤ initial.nanos * 2 ^ (retry - 1) :=
    Nat.mul_le_mul_left initial.nanos (doublings_le retry)
  unfold doubled
  constructor
  · intro heq
    by_contra hnone
    rw [not_or, not_or] at hnone
    rcases hnone with ⟨hretry, hinitial, hreached⟩
    have hlt : initial.nanos * doublings retry < initial.nanos * 2 ^ (retry - 1) :=
      Nat.mul_lt_mul_of_pos_left (doublings_lt_of_lt (Nat.lt_of_not_le hretry))
        (Nat.pos_of_ne_zero hinitial)
    omega
  · rintro (hretry | hinitial | hreached)
    · rw [doublings_of_le hretry]
    · rw [hinitial, Nat.zero_mul, Nat.zero_mul]
    · omega

/-- Behind the last retry there is no delay.  Before a retry there is one, never longer than the
formula says, and as long exactly up to the thirty-second retry, if the first delay is zero, or
once the longest one has been reached. -/
theorem delays_double_up_to_thirty_second_retry (initial longest : Duration)
    (maxRetries retry : Nat) (jitter : Jitter) :
    (maxRetries < retry ->
        (exponential initial longest maxRetries false).delay? retry jitter = none) ∧
      (retry ≤ maxRetries -> exists delay,
        (exponential initial longest maxRetries false).delay? retry jitter = some delay ∧
          delay.nanos ≤ doubled initial longest retry ∧
          (delay.nanos = doubled initial longest retry <->
            retry ≤ 32 ∨ initial.nanos = 0 ∨ delay = longest)) := by
  rw [delay?_of_unjittered rfl]
  constructor
  · intro hretry
    exact if_pos hretry
  · intro hretry
    have hnanos := nanos_min_scale initial longest (doublings retry)
    refine ⟨min (initial.scale (doublings retry)) longest, if_neg (Nat.not_lt_of_le hretry), ?_, ?_⟩
    · have hle := Nat.mul_le_mul_left initial.nanos (doublings_le retry)
      unfold doubled
      rw [hnanos]
      omega
    · rw [← Duration.nanos_inj, hnanos]
      exact min_mul_doublings_eq_iff initial longest retry

end Strategy

namespace Sample

/-- The fourth delay is the first one doubled three times, and there is no eleventh. -/
theorem fourth_delay_is_eightfold :
    (Strategy.exponential (.ofMillis 100) (.ofSeconds 30) 10 false).delay? 11 .whole = none ∧
      (Strategy.exponential (.ofMillis 100) (.ofSeconds 30) 10 false).delay? 4 .whole =
        some (.ofMillis 800) := by
  have hdelays := fun retry => Strategy.delays_double_up_to_thirty_second_retry (.ofMillis 100)
    (.ofSeconds 30) 10 retry .whole
  rcases (hdelays 4).2 (by decide) with ⟨delay, hdelay, _, hdoubled⟩
  have hnanos : delay.nanos = (Duration.ofMillis 800).nanos :=
    (hdoubled.mpr (Or.inl (by decide))).trans (by decide)
  refine ⟨(hdelays 11).1 (by decide), ?_⟩
  rw [hdelay, Duration.nanos_inj.mp hnanos]

/-- The delay of a nanosecond, doubled thirty-three times, is more than thirty-two bits can say. -/
theorem thirty_fourth_delay_is_too_short :
    ¬ forall (initial longest : Duration) (maxRetries retry : Nat) (jitter : Jitter), 1 ≤ retry ->
      retry ≤ maxRetries -> exists delay,
        (Strategy.exponential initial longest maxRetries false).delay? retry jitter = some delay ∧
          delay.nanos = Strategy.doubled initial longest retry := by
  intro h
  have hdelay : (Strategy.exponential (.saturate 1) (.ofSeconds 100) 40 false).delay? 34 .whole =
      some (.saturate 4_294_967_295) := by
    decide +kernel
  rcases h (.saturate 1) (.ofSeconds 100) 40 34 .whole (by decide) (by decide) with
    ⟨delay, hsome, hnanos⟩
  rw [hdelay] at hsome
  cases hsome
  exact absurd hnanos (by decide +kernel)

end Sample
end RestClient
