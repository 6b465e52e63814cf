import Mathlib.Data.Nat.Find
import VerifierBench.Loop.Assertion
import VerifierBench.Proofs.Loop.Progression

/-! Progressions against loops on words, whose counters wrap around. A progression holds the counters
of such a loop up to the first one that is no word; the counter there is a new one, so a progression
holds all counters only if the loop never wraps. -/
namespace VerifierBench.Progression
variable {p : Progression} {x : Int32} {k : UInt64}

/-- The counter on words after `k` runs of the body. -/
def counter (p : Progression) (k : UInt64) : Int32 :=
  Accumulation.iterated ⟨p.start, [⟨k, p.delta⟩]⟩

/-- The counter on unbounded integers. -/
def exactCounter (p : Progression) (n : ℕ) : ℤ := p.start.toInt + n * p.delta.toInt

/-- The loop on words has this counter after one of its runs. -/
def Passes (p : Progression) (x : Int32) : Prop :=
  ∃ k : UInt64, 1 ≤ k ∧ k ≤ p.count ∧ p.counter k = x

lemma counter_eq_ofInt (p : Progression) (k : UInt64) :
    p.counter k = Int32.ofInt (p.exactCounter k.toNat) := by
  rw [counter, Accumulation.iterated_eq_ofInt]
  simp [Accumulation.exact, Step.exact, exactCounter]

lemma toInt_counter (h : isInt32 (p.exactCounter k.toNat) = true) :
    (p.counter k).toInt = p.exactCounter k.toNat := by
  rw [counter_eq_ofInt, toInt_ofInt_of_isInt32 h]

/-- The words of a progression are the counters that the loop reaches without wrapping. -/
theorem contains_iff_exact (p : Progression) (x : Int32) : p.contains x = true ↔
    ∃ k : UInt64, 1 ≤ k ∧ k ≤ p.count ∧ p.counter k = x ∧
      isInt32 (p.exactCounter k.toNat) = true := by
  rw [contains_iff]
  constructor
  · rintro ⟨k, hpos, hle, hx⟩
    obtain ⟨n, rfl⟩ := Int.eq_ofNat_of_zero_le (le_trans zero_le_one hpos)
    have hlt := p.count.toNat_lt
    have hn : (UInt64.ofNat n).toNat = n := UInt64.toNat_ofNat_of_lt' (by rw [UInt64.size]; omega)
    have hexact : p.exactCounter (UInt64.ofNat n).toNat = x.toInt := by rw [hn]; exact hx
    refine ⟨UInt64.ofNat n, ?_, ?_, ?_, hexact ▸ isInt32_toInt x⟩
    · rw [UInt64.le_iff_toNat_le, hn]
      exact_mod_cast hpos
    · rw [UInt64.le_iff_toNat_le, hn]
      exact_mod_cast hle
    · rw [counter_eq_ofInt, hexact, Int32.ofInt_toInt]
  · rintro ⟨k, hpos, hle, rfl, hfits⟩
    rw [UInt64.le_iff_toNat_le] at hpos hle
    refine ⟨k.toNat, ?_, ?_, (toInt_counter hfits).symm⟩
    · exact_mod_cast hpos
    · exact_mod_cast hle

lemma exactCounter_succ (p : Progression) (n : ℕ) :
    p.exactCounter (n + 1) = p.exactCounter n + p.delta.toInt := by
  simp only [exactCounter]
  push_cast
  ring

/-- The counters of a loop lie between its first and its last one. -/
lemma isInt32_exactCounter {n : ℕ} (h : isInt32 (p.exactCounter n) = true) (m : ℕ) (hm : m ≤ n) :
    isInt32 (p.exactCounter m) = true :=
  GuardedLoop.isInt32_counterAfter (l := GuardedLoop.whileBelow 0 p.delta) h m hm

/-- One step out of the range of words is taken back by one turn. -/
lemma bmod_exactCounter_succ {n : ℕ} (hfits : isInt32 (p.exactCounter n) = true)
    (hwraps : isInt32 (p.exactCounter (n + 1)) = false) :
    0 < p.delta.toInt ∧ (p.exactCounter (n + 1)).bmod Int32.size =
        p.exactCounter (n + 1) - 4294967296 ∨
      p.delta.toInt < 0 ∧ (p.exactCounter (n + 1)).bmod Int32.size =
        p.exactCounter (n + 1) + 4294967296 := by
  have hl := p.delta.le_toInt
  have hu := p.delta.toInt_lt
  rw [isInt32_iff] at hfits
  rw [Bool.eq_false_iff, ne_eq, isInt32_iff] at hwraps
  have hstep := p.exactCounter_succ n
  rw [Int32.size, Int.bmod_def]
  omega

/-- The first counter that wraps is none of the progression: the ones before it that have the same
word are more than a turn away. -/
theorem contains_eq_false_of_first_wrap {n : ℕ} (hfits : isInt32 (p.exactCounter n) = true)
    (hwraps : isInt32 (p.exactCounter (n + 1)) = false) :
    p.contains (Int32.ofInt (p.exactCounter (n + 1))) = false := by
  rw [Bool.eq_false_iff, ne_eq, contains_iff]
  rintro ⟨j, hpos, -, hj⟩
  rw [Int32.toInt_ofInt] at hj
  have hsl := p.start.le_toInt
  have hsu := p.start.toInt_lt
  have hturn := bmod_exactCounter_succ hfits hwraps
  rw [isInt32_iff] at hfits
  -- `n + 1 - j` steps make a whole turn, but `n` steps between two words do not.
  have hsteps : (n + 1 - j) * p.delta.toInt =
      p.exactCounter (n + 1) - (p.start.toInt + j * p.delta.toInt) := by
    simp only [exactCounter]
    push_cast
    ring
  have hrange : n * p.delta.toInt = p.exactCounter n - p.start.toInt := by
    simp only [exactCounter]
    ring
  rcases hturn with ⟨hd, hmod⟩ | ⟨hd, hmod⟩
  · have hle := Int.mul_le_mul_of_nonneg_right (show n + 1 - j ≤ n by omega) hd.le
    omega
  · have hle := Int.mul_le_mul_of_nonpos_right (show n + 1 - j ≤ n by omega) hd.le
    omega

/-- A loop that wraps at all has a counter that the progression misses. -/
lemma exists_missed_of_wrap (h : isInt32 (p.exactCounter p.count.toNat) = false) :
    ∃ x, p.Passes x ∧ p.contains x = false := by
  have hexists : ∃ n, isInt32 (p.exactCounter n) = false := ⟨_, h⟩
  have hfirst := Nat.find_spec hexists
  have hle : Nat.find hexists ≤ p.count.toNat := Nat.find_le h
  cases hn : Nat.find hexists with
  | zero =>
    rw [hn] at hfirst
    simp [exactCounter, isInt32_toInt] at hfirst
  | succ n =>
    have hbefore : isInt32 (p.exactCounter n) = true :=
      Bool.eq_true_of_not_eq_false (Nat.find_min hexists (by omega))
    rw [hn] at hfirst hle
    have hlt := p.count.toNat_lt
    have hsize : (UInt64.ofNat (n + 1)).toNat = n + 1 :=
      UInt64.toNat_ofNat_of_lt' (by rw [UInt64.size]; omega)
    refine ⟨_, ⟨UInt64.ofNat (n + 1), ?_, ?_, ?_⟩, contains_eq_false_of_first_wrap hbefore hfirst⟩
    · rw [UInt64.le_iff_toNat_le, hsize]
      exact Nat.le_add_left 1 n
    · rwa [UInt64.le_iff_toNat_le, hsize]
    · rw [counter_eq_ofInt, hsize]

/-- An assertion in the loop that excludes a word fails exactly if the loop passes that word. -/
lemma passes_iff_assertion_fails (p : Progression) (x : Int32) : p.Passes x ↔
    ∃ k : UInt64, 1 ≤ k ∧ k ≤ p.count ∧
      (ScalarPredicate.notEquals x).holds (p.counter k) = false := by
  simp only [Passes, ScalarPredicate.holds, bne_eq_false_iff_eq]

/-- A progression contains the counters that the loop on words reaches without wrapping. So it only
contains words that make an assertion in the loop fail, and it misses such a word exactly if the loop
wraps before its last run is over. -/
theorem missed_iff_wraps (p : Progression) :
    (∀ x, p.contains x = true ↔ ∃ k : UInt64, 1 ≤ k ∧ k ≤ p.count ∧ p.counter k = x ∧
      isInt32 (p.exactCounter k.toNat) = true) ∧
    (∀ x, p.Passes x ↔ ∃ k : UInt64, 1 ≤ k ∧ k ≤ p.count ∧
      (ScalarPredicate.notEquals x).holds (p.counter k) = false) ∧
    ((∃ x, p.Passes x ∧ p.contains x = false) ↔
      isInt32 (p.exactCounter p.count.toNat) = false) := by
  refine ⟨p.contains_iff_exact, p.passes_iff_assertion_fails, ?_, exists_missed_of_wrap⟩
  rintro ⟨x, ⟨k, hpos, hle, hx⟩, hmissed⟩
  by_contra hfits
  rw [Bool.not_eq_false] at hfits
  have hk := isInt32_exactCounter hfits _ (UInt64.le_iff_toNat_le.mp hle)
  have hcontains := (p.contains_iff_exact x).mpr ⟨k, hpos, hle, hx, hk⟩
  exact absurd hmissed (by simp [hcontains])

/-- One step up from the largest word leads to the least one, where an assertion that excludes it
fails; the progression of that step does not contain it. -/
theorem least_word_missed :
    Passes ⟨2147483647, 1, 1⟩ (-2147483648) ∧
    (ScalarPredicate.notEquals (-2147483648)).holds (counter ⟨2147483647, 1, 1⟩ 1) = false ∧
    contains ⟨2147483647, 1, 1⟩ (-2147483648) = false :=
  ⟨⟨1, by decide, by decide, by decide⟩, by decide, by decide⟩

end VerifierBench.Progression
