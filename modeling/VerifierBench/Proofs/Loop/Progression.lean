import VerifierBench.Loop.Progression
import VerifierBench.Proofs.Loop.Trace

/-! Progressions: membership as a statement about unbounded integers, also as 64-bit words compute it,
and the counters of a guarded loop as the progression of its runs. -/
namespace VerifierBench

namespace Progression
variable {p : Progression} {x : Int32}

/-- A delta of zero repeats the start value. -/
lemma contains_of_delta_eq_zero (hd : p.delta.toInt = 0) :
    p.contains x = true ↔ 1 ≤ p.count.toNat ∧ x.toInt - p.start.toInt = 0 := by
  by_cases hc : p.count = 0
  · simp [contains, hc]
  · have hpos : p.count.toNat ≠ 0 := UInt64.toNat_inj.not.mpr hc
    simp only [contains, if_neg hc, hd, if_true, decide_eq_true_eq]
    omega

/-- No quotient lies between one and zero, so a count of zero needs no test of its own. -/
lemma contains_of_delta_ne_zero (hd : p.delta.toInt ≠ 0) :
    p.contains x = true ↔ p.delta.toInt ∣ x.toInt - p.start.toInt ∧
      1 ≤ (x.toInt - p.start.toInt) / p.delta.toInt ∧
      (x.toInt - p.start.toInt) / p.delta.toInt ≤ p.count.toNat := by
  rw [Int.dvd_iff_emod_eq_zero]
  by_cases hc : p.count = 0
  · simp only [contains, hc, if_true, Bool.false_eq_true, false_iff, UInt64.toNat_zero]
    omega
  · simp only [contains, if_neg hc, if_neg hd, decide_eq_true_eq]

/-- Membership has an exact meaning on unbounded integers. -/
theorem contains_iff (p : Progression) (x : Int32) : p.contains x = true ↔
    ∃ k : ℤ, 1 ≤ k ∧ k ≤ p.count.toNat ∧ p.start.toInt + k * p.delta.toInt = x.toInt := by
  by_cases hd : p.delta.toInt = 0
  · rw [contains_of_delta_eq_zero hd]
    simp only [hd, Int.mul_zero]
    constructor
    · rintro ⟨hcount, hx⟩
      exact ⟨1, le_rfl, by omega, by omega⟩
    · rintro ⟨k, hpos, hle, hx⟩
      omega
  · rw [contains_of_delta_ne_zero hd]
    constructor
    · rintro ⟨hdvd, hpos, hle⟩
      refine ⟨_, hpos, hle, ?_⟩
      rw [Int.ediv_mul_cancel hdvd]
      omega
    · rintro ⟨k, hpos, hle, hx⟩
      have hoffset : x.toInt - p.start.toInt = k * p.delta.toInt := by omega
      rw [hoffset, Int.mul_ediv_cancel k hd]
      exact ⟨Int.dvd_mul_left _ _, hpos, hle⟩

/-- `contains` on 64-bit words: none if any intermediate result overflows. A positive quotient is
compared with the count as an unsigned word. -/
def contains64 (p : Progression) (x : Int32) : Option Bool :=
  if p.count = 0 then return false
  else do
    let offset ← word64 (x.toInt - p.start.toInt)
    if p.delta.toInt = 0 then return decide (offset = 0)
    else
      let remainder ← remainder64 offset p.delta.toInt
      if remainder = 0 then
        let quotient ← quotient64 offset p.delta.toInt
        return decide (1 ≤ quotient ∧ UInt64.ofInt quotient ≤ p.count)
      else return false

lemma ofInt_le_iff {k : ℤ} (hpos : 1 ≤ k) (hk : k < 18446744073709551616) (n : UInt64) :
    UInt64.ofInt k ≤ n ↔ k ≤ n.toNat := by
  obtain ⟨m, rfl⟩ := Int.eq_ofNat_of_zero_le (le_trans zero_le_one hpos)
  have hm : (UInt64.ofNat m).toNat = m := UInt64.toNat_ofNat_of_lt' (by rw [UInt64.size]; omega)
  rw [ofInt_natCast, UInt64.le_iff_toNat_le, hm]
  omega

/-- No intermediate result overflows, and division toward zero makes no difference. -/
theorem contains64_eq (p : Progression) (x : Int32) : p.contains64 x = some (p.contains x) := by
  have hsl := p.start.le_toInt
  have hsu := p.start.toInt_lt
  have hxl := x.le_toInt
  have hxu := x.toInt_lt
  have hoffset := word64_eq_some (n := x.toInt - p.start.toInt) (by omega) (by omega)
  by_cases hc : p.count = 0
  · simp [contains64, contains, hc]
  by_cases hd : p.delta.toInt = 0
  · simp [contains64, contains, hc, hd, hoffset]
  have hq := quotient64_eq_some hd (m := x.toInt - p.start.toInt) (by omega) (by omega)
  simp only [contains64, contains, if_neg hc, if_neg hd, Option.bind_eq_bind, remainder64, hoffset, hq,
    Option.bind_some, Option.map_some, Option.pure_def, ← Int.dvd_iff_tmod_eq_zero,
    ← Int.dvd_iff_emod_eq_zero]
  by_cases hdvd : p.delta.toInt ∣ x.toInt - p.start.toInt
  · have hle := Int.natAbs_tdiv_le_natAbs (x.toInt - p.start.toInt) p.delta.toInt
    rw [Int.tdiv_eq_ediv_of_dvd hdvd] at hle ⊢
    simp only [hdvd, if_true, true_and, Option.some.injEq, decide_eq_decide]
    refine and_congr_right fun hpos => ofInt_le_iff hpos (by omega) p.count
  · simp only [hdvd, false_and, if_false, decide_false]

end Progression

namespace GuardedLoop
variable {l : GuardedLoop} {start : Int32} {n : ℕ} {xs : List Int32}

/-- The counters of a trace are those of the unbounded loop after one to `n` runs. -/
lemma mem_counters_iff
    (hxs : xs.map Int32.toInt = (List.range n).map fun k => l.counterAfter start (k + 1)) (x : Int32) :
    x ∈ xs ↔ ∃ k : ℤ, 1 ≤ k ∧ k ≤ n ∧ start.toInt + k * l.delta.toInt = x.toInt := by
  have hmem : x ∈ xs ↔ x.toInt ∈ xs.map Int32.toInt := by
    rw [List.mem_map]
    exact ⟨fun hx => ⟨x, hx, rfl⟩, fun ⟨y, hy, hyx⟩ => Int32.toInt_inj.mp hyx ▸ hy⟩
  rw [hmem, hxs, List.mem_map]
  constructor
  · rintro ⟨k, hk, hx⟩
    have hlt := List.mem_range.mp hk
    exact ⟨(k + 1 : ℕ), by omega, by omega, hx⟩
  · rintro ⟨k, hpos, hle, hx⟩
    obtain ⟨m, rfl⟩ := Int.eq_ofNat_of_zero_le (le_trans zero_le_one hpos)
    obtain ⟨m, rfl⟩ := Nat.exists_eq_add_of_le' (show 1 ≤ m by omega)
    exact ⟨m, List.mem_range.mpr (by omega), hx⟩

end GuardedLoop

/-- A progression contains exactly the words `start + k * delta` for `k` from one to the count, and
64-bit words decide that without overflow. If the number of runs of a guarded loop is worked out, the
progression of that many runs contains exactly the counters of the literal execution. -/
theorem Progression.membership_exact :
    (∀ (p : Progression) x, p.contains64 x = some (p.contains x) ∧ (p.contains x = true ↔
      ∃ k : ℤ, 1 ≤ k ∧ k ≤ p.count.toNat ∧ p.start.toInt + k * p.delta.toInt = x.toInt)) ∧
    ∀ (l : GuardedLoop) start count, l.iterations start = .ok count →
      ∃ xs, (∀ ys, l.Trace start ys ↔ ys = xs) ∧ xs.length = count.toNat ∧
        l.execute start = some (xs.getLastD start) ∧
        ∀ x, Progression.contains ⟨start, l.delta, count⟩ x = true ↔ x ∈ xs := by
  refine ⟨fun p x => ⟨p.contains64_eq x, p.contains_iff x⟩, ?_⟩
  intro l start count h
  obtain ⟨hexits, hfits, hcount⟩ := GuardedLoop.exits_of_iterations h
  obtain ⟨xs, htrace, hxs⟩ := hexits.exists_trace rfl (GuardedLoop.isInt32_counterAfter hfits)
  have hlength : xs.length = count.toNat := by simpa using congrArg List.length hxs
  refine ⟨xs, fun ys => ⟨htrace.unique, fun hys => hys ▸ htrace⟩, hlength, ?_, ?_⟩
  · exact htrace.executeFor_eq UInt32.size (by rw [hlength, UInt32.size]; omega)
  · intro x
    rw [Progression.contains_iff, GuardedLoop.mem_counters_iff hxs]

/-- The loop in steps of three from zero to a bound of ten passes through exactly these four counters. -/
theorem Progression.membership_stride_three :
    (GuardedLoop.whileBelow 10 3).iterations 0 = .ok 4 ∧
    ∃ xs, (∀ ys, (GuardedLoop.whileBelow 10 3).Trace 0 ys ↔ ys = xs) ∧ xs.length = 4 ∧
      (GuardedLoop.whileBelow 10 3).execute 0 = some (xs.getLastD 0) ∧
      ∀ x, Progression.contains ⟨0, 3, 4⟩ x = true ↔ x ∈ xs := by
  have hfour : (GuardedLoop.whileBelow 10 3).iterations 0 = .ok 4 := by decide
  exact ⟨hfour, membership_exact.2 (GuardedLoop.whileBelow 10 3) 0 4 hfour⟩

end VerifierBench
