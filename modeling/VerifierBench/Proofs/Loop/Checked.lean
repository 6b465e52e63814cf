import VerifierBench.Proofs.Loop.Exit

/-! The number of runs of a guarded loop as 64-bit words compute it, with every intermediate result
checked. No check ever fails, and division toward zero makes no difference. -/
namespace VerifierBench

/-- The result of a 64-bit operation, or none on overflow. -/
def word64 (n : ℤ) : Option ℤ := if isInt64 n then some n else none

/-- Division toward zero; none for a divisor of zero and on overflow. -/
def quotient64 (m n : ℤ) : Option ℤ := if n = 0 then none else word64 (m.tdiv n)

/-- The remainder of `quotient64`, which fails where the division does. -/
def remainder64 (m n : ℤ) : Option ℤ := (quotient64 m n).map fun _ => m.tmod n

lemma word64_eq_some {n : ℤ} (hl : -9223372036854775808 ≤ n) (hu : n < 9223372036854775808) :
    word64 n = some n := by
  rw [word64, if_pos ((isInt64_iff n).mpr ⟨hl, hu⟩)]

/-- A quotient is no larger than its dividend, so division only fails at the very end of the range. -/
lemma quotient64_eq_some {m n : ℤ} (hn : n ≠ 0) (hl : -9223372036854775808 < m)
    (hu : m < 9223372036854775808) : quotient64 m n = some (m.tdiv n) := by
  have hle := Int.natAbs_tdiv_le_natAbs m n
  rw [quotient64, if_neg hn]
  exact word64_eq_some (by omega) (by omega)

lemma ofInt_natCast (n : ℕ) : UInt64.ofInt n = UInt64.ofNat n := by
  have h : ((n : ℤ) % 2 ^ 64).toNat = n % UInt64.size := by
    simp only [UInt64.size]
    omega
  rw [UInt64.ofInt, h, UInt64.ofNat_mod_size]

namespace GuardedLoop

def approach64? (l : GuardedLoop) (start : Int32) : Option (Option (ℤ × ℤ)) :=
  match l.guard with
  | .below b =>
    if 0 < l.delta.toInt then do
      let distance ← word64 (b.toInt - start.toInt)
      return some (distance, l.delta.toInt)
    else return none
  | .above b =>
    if l.delta.toInt < 0 then do
      let distance ← word64 (start.toInt - b.toInt)
      let speed ← word64 (-l.delta.toInt)
      return some (distance, speed)
    else return none

def stepsToCover64 (distance speed : ℤ) : Option ℤ := do
  let sum ← word64 (distance + speed)
  let dividend ← word64 (sum - 1)
  quotient64 dividend speed

def stepsToExit64 (l : GuardedLoop) (start : Int32) (toGuard : ℤ) : Option ℤ :=
  match l.breakAt with
  | none => return toGuard
  | some e => do
    let offset ← word64 (e.toInt - start.toInt)
    let remainder ← remainder64 offset l.delta.toInt
    if remainder = 0 then
      let quotient ← quotient64 offset l.delta.toInt
      return if 1 ≤ quotient ∧ quotient ≤ toGuard then quotient else toGuard
    else return toGuard

/-- `iterations` on 64-bit words: none if any intermediate result overflows. -/
def iterations64 (l : GuardedLoop) (start : Int32) : Option (Except Error UInt64) :=
  if l.guard.holds start then do
    match ← l.approach64? start with
    | none => return .error (.nonTerminatingLoop l)
    | some (distance, speed) =>
      let toGuard ← stepsToCover64 distance speed
      let count ← l.stepsToExit64 start toGuard
      let change ← word64 (count * l.delta.toInt)
      let last ← word64 (start.toInt + change)
      return if isInt32 last then .ok (UInt64.ofInt count) else .error (.overflowingSummary l)
  else return .ok 0

lemma approach64?_eq (l : GuardedLoop) (start : Int32) :
    l.approach64? start = some (l.approach? start) := by
  have hl := start.le_toInt
  have hu := start.toInt_lt
  have hdl := l.delta.le_toInt
  have hdu := l.delta.toInt_lt
  cases hg : l.guard with
  | below b =>
    have hb := b.le_toInt
    have hb' := b.toInt_lt
    simp only [approach64?, approach?, hg]
    split
    · rw [word64_eq_some (by omega) (by omega)]
      rfl
    · rfl
  | above b =>
    have hb := b.le_toInt
    have hb' := b.toInt_lt
    simp only [approach64?, approach?, hg]
    split
    · rw [word64_eq_some (by omega) (by omega), word64_eq_some (by omega) (by omega)]
      rfl
    · rfl

lemma stepsToCover64_eq {distance speed : ℤ} (hd : 0 < distance) (hd' : distance ≤ 4294967295)
    (hs : 0 < speed) (hs' : speed ≤ 2147483648) :
    stepsToCover64 distance speed = some (stepsToCover distance speed) := by
  have hq := quotient64_eq_some (m := distance + speed - 1) hs.ne' (by omega) (by omega)
  rw [Int.tdiv_eq_ediv_of_nonneg (by omega)] at hq
  simp only [stepsToCover64, Option.bind_eq_bind, word64_eq_some (n := distance + speed) (by omega)
    (by omega), word64_eq_some (n := distance + speed - 1) (by omega) (by omega), Option.bind_some,
    hq, stepsToCover]

/-- The two divisions agree on whether there is a remainder, and on the quotient if there is none. -/
lemma stepsToExit64_eq {l : GuardedLoop} (hd : l.delta.toInt ≠ 0) (start : Int32) (toGuard : ℤ) :
    l.stepsToExit64 start toGuard = some (l.stepsToExit start toGuard) := by
  have hl := start.le_toInt
  have hu := start.toInt_lt
  cases he : l.breakAt with
  | none => simp only [stepsToExit64, stepsToExit, he]; rfl
  | some e =>
    have hel := e.le_toInt
    have heu := e.toInt_lt
    have hq := quotient64_eq_some (m := e.toInt - start.toInt) hd (by omega) (by omega)
    simp only [stepsToExit64, stepsToExit, he, Option.bind_eq_bind, remainder64, hq,
      word64_eq_some (n := e.toInt - start.toInt) (by omega) (by omega), Option.bind_some,
      Option.map_some, Option.pure_def, ← Int.dvd_iff_tmod_eq_zero, ← Int.dvd_iff_emod_eq_zero]
    by_cases hdvd : l.delta.toInt ∣ e.toInt - start.toInt
    · simp only [hdvd, if_true, true_and, Int.tdiv_eq_ediv_of_dvd hdvd]
    · simp only [hdvd, false_and, if_false]

lemma approach_of_found {l : GuardedLoop} {start : Int32} {distance speed : ℤ}
    (h : l.approach? start = some (distance, speed)) : l.Approach start distance speed := by
  have happroaches : l.Approaches := by
    by_contra hdiverges
    cases h.symm.trans ((l.approach?_eq_none_iff start).mpr hdiverges)
  obtain ⟨distance', speed', ha⟩ := exists_approach happroaches start
  cases h.symm.trans ha.found
  exact ha

/-- The whole change of the counter overshoots the distance by less than one step. -/
lemma Approach.change_bounds {l : GuardedLoop} {start : Int32} {distance speed count : ℤ}
    (ha : l.Approach start distance speed) (hpos : 1 ≤ count)
    (hle : count ≤ stepsToCover distance speed) :
    -(distance + speed) < count * l.delta.toInt ∧ count * l.delta.toInt < distance + speed := by
  have hs := ha.speed_pos
  have hlt : count * speed < distance + speed :=
    (Int.mul_le_mul_of_nonneg_right hle hs.le).trans_lt (stepsToCover_mul_lt hs distance)
  have hnonneg : 0 ≤ count * speed := Int.mul_nonneg (by omega) hs.le
  rcases ha.speed_eq with h | h
  · rw [← h]
    omega
  · have hneg : count * l.delta.toInt = -(count * speed) := by rw [h, Int.mul_neg, neg_neg]
    omega

/-- No intermediate result overflows, and the words give the number of runs. -/
theorem iterations64_eq (l : GuardedLoop) (start : Int32) :
    l.iterations64 start = some (l.iterations start) := by
  by_cases hg : l.guard.holds start = true
  · simp only [iterations64, iterations, if_pos hg, approach64?_eq, Option.bind_eq_bind,
      Option.bind_some]
    cases hfound : l.approach? start with
    | none => rfl
    | some found =>
      obtain ⟨distance, speed⟩ := found
      have ha := approach_of_found hfound
      have hl := start.le_toInt
      have hu := start.toInt_lt
      have hdl := l.delta.le_toInt
      have hdu := l.delta.toInt_lt
      have hs := ha.speed_pos
      have hs' : speed ≤ 2147483648 := by rcases ha.speed_eq with h | h <;> omega
      have hd := ha.distance_le
      have hcover := ha.one_le_stepsToCover hg
      have hd' : 0 < distance := by
        have h := (lt_stepsToCover_iff hs 0 distance).mp (by omega)
        omega
      obtain ⟨hpos, hle, -, -⟩ := stepsToExit_first start ha.delta_ne_zero hcover
      obtain ⟨hlow, hhigh⟩ := ha.change_bounds hpos hle
      have hcount : UInt64.ofInt (l.stepsToExit start (stepsToCover distance speed)) =
          UInt64.ofNat (l.stepsToExit start (stepsToCover distance speed)).toNat := by
        obtain ⟨n, hn⟩ := Int.eq_ofNat_of_zero_le (le_trans zero_le_one hpos)
        rw [hn, Int.toNat_natCast, ofInt_natCast]
      simp only [stepsToCover64_eq hd' hd hs hs', stepsToExit64_eq ha.delta_ne_zero,
        Option.bind_some, hcount]
      rw [word64_eq_some (by omega) (by omega), Option.bind_some,
        word64_eq_some (by omega) (by omega), Option.bind_some]
      rfl
  · simp only [iterations64, iterations, if_neg hg]
    rfl

end GuardedLoop
end VerifierBench
