import Mathlib.Tactic.Ring
import VerifierBench.Loop.Guarded

/-! Guarded loops on unbounded integers: when they exit and with which counter. The number of runs
that is worked out by division is the one after which the loop exits. -/
namespace VerifierBench

/-- The loop condition on unbounded integers. -/
def Guard.admits : Guard → ℤ → Prop
  | below b, x => x < b.toInt
  | above b, x => b.toInt < x

lemma Guard.holds_iff (g : Guard) (x : Int32) : g.holds x = true ↔ g.admits x.toInt := by
  cases g <;> simp [holds, admits, Int32.lt_iff_toInt_lt]

namespace GuardedLoop

/-- The body leaves the loop when it makes the counter this integer. -/
def BreaksAt (l : GuardedLoop) (x : ℤ) : Prop := ∃ e, l.breakAt = some e ∧ e.toInt = x

/-- The loop on unbounded integers: from `x` the body runs `n` times, and the counter ends at `y`. -/
inductive Exits (l : GuardedLoop) : ℤ → ℕ → ℤ → Prop
  | stop {x} (h : ¬ l.guard.admits x) : Exits l x 0 x
  | leave {x} (h : l.guard.admits x) (hb : l.BreaksAt (x + l.delta.toInt)) :
      Exits l x 1 (x + l.delta.toInt)
  | next {x n y} (h : l.guard.admits x) (hb : ¬ l.BreaksAt (x + l.delta.toInt))
      (tail : Exits l (x + l.delta.toInt) n y) : Exits l x (n + 1) y

/-- The counter after `n` runs of the body, on unbounded integers. -/
def counterAfter (l : GuardedLoop) (start : Int32) (n : ℕ) : ℤ := start.toInt + n * l.delta.toInt

/-- The step takes the counter towards the bound. -/
def Approaches (l : GuardedLoop) : Prop :=
  match l.guard with
  | .below _ => 0 < l.delta.toInt
  | .above _ => l.delta.toInt < 0

theorem Exits.counter {l : GuardedLoop} {x y : ℤ} {n : ℕ} (h : l.Exits x n y) :
    y = x + n * l.delta.toInt := by
  induction h with
  | stop => simp
  | leave => simp
  | next _ _ _ ih =>
    rw [ih]
    push_cast
    ring

/-- The loop is deterministic. -/
theorem Exits.unique {l : GuardedLoop} {x y z : ℤ} {m n : ℕ} (h : l.Exits x n y)
    (h' : l.Exits x m z) : m = n ∧ z = y := by
  induction h generalizing m z with
  | stop hstop =>
    cases h' with
    | stop => exact ⟨rfl, rfl⟩
    | leave ha _ => exact absurd ha hstop
    | next ha _ _ => exact absurd ha hstop
  | leave ha hb =>
    cases h' with
    | stop hstop => exact absurd ha hstop
    | leave => exact ⟨rfl, rfl⟩
    | next _ hb' _ => exact absurd hb hb'
  | next ha hb _ ih =>
    cases h' with
    | stop hstop => exact absurd ha hstop
    | leave _ hb' => exact absurd hb' hb
    | next _ _ tail =>
      obtain ⟨rfl, rfl⟩ := ih tail
      exact ⟨rfl, rfl⟩

/-- The first run of the body moved into the start value. -/
lemma add_mul_succ (x d : ℤ) (k : ℕ) : x + d + k * d = x + (k + 1 : ℕ) * d := by
  push_cast
  ring

/-- The loop exits after `n` runs if until then the guard admits every counter and none breaks. -/
lemma exits_of_first (l : GuardedLoop) (n : ℕ) (x : ℤ)
    (hadmits : ∀ k < n, l.guard.admits (x + k * l.delta.toInt))
    (hstay : ∀ k, 0 < k → k < n → ¬ l.BreaksAt (x + k * l.delta.toInt))
    (hexit : 0 < n ∧ l.BreaksAt (x + n * l.delta.toInt) ∨
      ¬ l.guard.admits (x + n * l.delta.toInt)) :
    l.Exits x n (x + n * l.delta.toInt) := by
  induction n generalizing x with
  | zero =>
    have hstop : ¬ l.guard.admits x := by simpa using hexit
    simpa using Exits.stop hstop
  | succ n ih =>
    have hfirst : l.guard.admits x := by simpa using hadmits 0 (by omega)
    have hshift := add_mul_succ x l.delta.toInt
    by_cases hb : l.BreaksAt (x + l.delta.toInt)
    · have hn : n = 0 := by
        by_contra hn
        exact hstay 1 (by omega) (by omega) (by simpa using hb)
      subst hn
      simpa using Exits.leave hfirst hb
    · rw [← hshift n]
      apply Exits.next hfirst hb
      apply ih
      · intro k hk
        rw [hshift k]
        exact hadmits (k + 1) (by omega)
      · intro k hpos hk
        rw [hshift k]
        exact hstay (k + 1) (by omega) (by omega)
      · rw [hshift n]
        rcases hexit with ⟨_, hbreak⟩ | hstop
        · rcases Nat.eq_zero_or_pos n with rfl | hn
          · exact absurd (by simpa using hbreak) hb
          · exact Or.inl ⟨hn, hbreak⟩
        · exact Or.inr hstop

/-- A distance and a speed that say for every number of runs whether the guard admits the counter. -/
structure Approach (l : GuardedLoop) (start : Int32) (distance speed : ℤ) : Prop where
  found : l.approach? start = some (distance, speed)
  speed_eq : speed = l.delta.toInt ∨ speed = -l.delta.toInt
  speed_pos : 0 < speed
  distance_le : distance ≤ 4294967295
  admits_iff : ∀ k : ℤ, l.guard.admits (start.toInt + k * l.delta.toInt) ↔ k * speed < distance

lemma approach?_eq_none_iff (l : GuardedLoop) (start : Int32) :
    l.approach? start = none ↔ ¬ l.Approaches := by
  unfold approach? Approaches
  cases l.guard <;> simp

theorem exists_approach {l : GuardedLoop} (h : l.Approaches) (start : Int32) :
    ∃ distance speed, l.Approach start distance speed := by
  have hl := start.le_toInt
  have hu := start.toInt_lt
  unfold Approaches at h
  cases hg : l.guard with
  | below b =>
    rw [hg] at h
    have hb := b.toInt_lt
    refine ⟨b.toInt - start.toInt, l.delta.toInt, by simp [approach?, hg, h], .inl rfl, h, ?_, ?_⟩
    · omega
    · intro k
      simp only [Guard.admits, hg]
      omega
  | above b =>
    rw [hg] at h
    have hb := b.le_toInt
    refine ⟨start.toInt - b.toInt, -l.delta.toInt, by simp [approach?, hg, h], .inr rfl, ?_, ?_, ?_⟩
    · simp only at h
      omega
    · omega
    · intro k
      simp only [Guard.admits, hg, Int.mul_neg]
      omega

/-- Rounding up: fewer runs than that leave some of the distance. -/
theorem lt_stepsToCover_iff {speed : ℤ} (hs : 0 < speed) (k distance : ℤ) :
    k < stepsToCover distance speed ↔ k * speed < distance := by
  have hle : k < stepsToCover distance speed ↔ k + 1 ≤ (distance + speed - 1) / speed := Iff.rfl
  rw [hle, Int.le_ediv_iff_mul_le hs, Int.add_mul, Int.one_mul]
  omega

/-- The last run needed to cover a distance begins before the distance is covered. -/
lemma stepsToCover_mul_lt {speed : ℤ} (hs : 0 < speed) (distance : ℤ) :
    stepsToCover distance speed * speed < distance + speed := by
  have h := (lt_stepsToCover_iff hs (stepsToCover distance speed - 1) distance).mp (by omega)
  rw [Int.sub_mul, Int.one_mul] at h
  omega

/-- The first run that breaks, if that is no later than the run that makes the guard fail. -/
theorem stepsToExit_first {l : GuardedLoop} (start : Int32) {toGuard : ℤ}
    (hd : l.delta.toInt ≠ 0) (hg : 1 ≤ toGuard) :
    1 ≤ l.stepsToExit start toGuard ∧ l.stepsToExit start toGuard ≤ toGuard ∧
      (∀ k, 1 ≤ k → k < l.stepsToExit start toGuard →
        ¬ l.BreaksAt (start.toInt + k * l.delta.toInt)) ∧
      (l.BreaksAt (start.toInt + l.stepsToExit start toGuard * l.delta.toInt) ∨
        l.stepsToExit start toGuard = toGuard) := by
  cases he : l.breakAt with
  | none =>
    have hn : l.stepsToExit start toGuard = toGuard := by simp only [stepsToExit, he]
    rw [hn]
    refine ⟨hg, le_rfl, ?_, .inr rfl⟩
    rintro k - - ⟨e, he', -⟩
    simp [he] at he'
  | some e =>
    -- The break value is met after exactly one number of runs, if at all.
    have hmeet : ∀ k, l.BreaksAt (start.toInt + k * l.delta.toInt) ↔
        e.toInt - start.toInt = k * l.delta.toInt := by
      intro k
      simp only [BreaksAt, he, Option.some.injEq, exists_eq_left']
      omega
    by_cases hc : (e.toInt - start.toInt) % l.delta.toInt = 0 ∧
        1 ≤ (e.toInt - start.toInt) / l.delta.toInt ∧
        (e.toInt - start.toInt) / l.delta.toInt ≤ toGuard
    · have hn : l.stepsToExit start toGuard = (e.toInt - start.toInt) / l.delta.toInt := by
        simp only [stepsToExit, he, if_pos hc]
      have hoffset : e.toInt - start.toInt =
          (e.toInt - start.toInt) / l.delta.toInt * l.delta.toInt :=
        (Int.ediv_mul_cancel (Int.dvd_of_emod_eq_zero hc.1)).symm
      rw [hn]
      refine ⟨hc.2.1, hc.2.2, ?_, .inl ((hmeet _).mpr hoffset)⟩
      intro k _ hk hbreak
      have hsame := Int.eq_of_mul_eq_mul_right hd (((hmeet k).mp hbreak).symm.trans hoffset)
      omega
    · have hn : l.stepsToExit start toGuard = toGuard := by simp only [stepsToExit, he, if_neg hc]
      rw [hn]
      refine ⟨hg, le_rfl, ?_, .inr rfl⟩
      intro k hpos hk hbreak
      have hoffset := (hmeet k).mp hbreak
      apply hc
      rw [hoffset, Int.mul_ediv_cancel k hd]
      exact ⟨Int.mul_emod_left k l.delta.toInt, hpos, by omega⟩

lemma Approach.delta_ne_zero {l : GuardedLoop} {start : Int32} {distance speed : ℤ}
    (ha : l.Approach start distance speed) : l.delta.toInt ≠ 0 := by
  have hs := ha.speed_pos
  rcases ha.speed_eq with h | h <;> omega

lemma Approach.one_le_stepsToCover {l : GuardedLoop} {start : Int32} {distance speed : ℤ}
    (ha : l.Approach start distance speed) (hg : l.guard.holds start = true) :
    1 ≤ stepsToCover distance speed := by
  have hadmits : l.guard.admits (start.toInt + 0 * l.delta.toInt) := by
    simpa using (l.guard.holds_iff start).mp hg
  exact (lt_stepsToCover_iff ha.speed_pos 0 distance).mpr ((ha.admits_iff 0).mp hadmits)

/-- No loop on words runs longer than there are words. -/
lemma Approach.stepsToCover_le {l : GuardedLoop} {start : Int32} {distance speed : ℤ}
    (ha : l.Approach start distance speed) : stepsToCover distance speed ≤ 4294967295 := by
  have hs := ha.speed_pos
  have hd := ha.distance_le
  by_contra hlt
  have hcover := (lt_stepsToCover_iff hs 4294967295 distance).mp (by omega)
  omega

theorem Approach.exits {l : GuardedLoop} {start : Int32} {distance speed : ℤ}
    (ha : l.Approach start distance speed) (hg : l.guard.holds start = true) :
    ∃ n : ℕ, l.stepsToExit start (stepsToCover distance speed) = n ∧ n ≤ 4294967295 ∧
      l.Exits start.toInt n (l.counterAfter start n) := by
  have hcover := ha.one_le_stepsToCover hg
  have hbound := ha.stepsToCover_le
  obtain ⟨hpos, hle, hstay, hlast⟩ := stepsToExit_first start ha.delta_ne_zero hcover
  obtain ⟨n, hn⟩ := Int.eq_ofNat_of_zero_le (le_trans zero_le_one hpos)
  rw [hn] at hpos hle hstay hlast
  have hadmits : ∀ k : ℤ, l.guard.admits (start.toInt + k * l.delta.toInt) ↔
      k < stepsToCover distance speed := by
    intro k
    rw [ha.admits_iff, lt_stepsToCover_iff ha.speed_pos]
  refine ⟨n, hn, by omega, l.exits_of_first n start.toInt ?_ ?_ ?_⟩
  · intro k hk
    exact (hadmits k).mpr (by omega)
  · intro k hk hkn
    exact hstay k (by omega) (by omega)
  · rcases hlast with hbreak | hguard
    · exact .inl ⟨by omega, hbreak⟩
    · exact .inr fun hadmit => absurd ((hadmits n).mp hadmit) (by omega)

/-- A loop that approaches its guard exits, and the number of runs is worked out exactly if its last
counter is a word. -/
theorem exists_exits {l : GuardedLoop} (h : l.Approaches) (start : Int32) :
    ∃ n : ℕ, n ≤ 4294967295 ∧ l.Exits start.toInt n (l.counterAfter start n) ∧
      l.iterations start = if isInt32 (l.counterAfter start n) then .ok (UInt64.ofNat n)
        else .error (.overflowingSummary l) := by
  by_cases hg : l.guard.holds start = true
  · obtain ⟨distance, speed, ha⟩ := exists_approach h start
    obtain ⟨n, hn, hle, hexits⟩ := ha.exits hg
    refine ⟨n, hle, hexits, ?_⟩
    simp only [iterations, if_pos hg, ha.found, hn, Int.toNat_natCast, counterAfter]
    rfl
  · have hzero : l.counterAfter start 0 = start.toInt := by simp [counterAfter]
    refine ⟨0, by omega, ?_, ?_⟩
    · rw [hzero]
      exact .stop fun hadmits => hg ((l.guard.holds_iff start).mpr hadmits)
    · rw [hzero, if_pos (isInt32_toInt start), iterations, if_neg hg]
      rfl

end GuardedLoop
end VerifierBench
