import VerifierBench.Proofs.Loop.Trace

/-! Guarded loops whose step does not approach the bound. Their guard never fails, so on unbounded
integers they exit by their break or not at all. The number of runs is refused for all of them, also
for those that break. -/
namespace VerifierBench.GuardedLoop
variable {l : GuardedLoop} {x y : ℤ} {n : ℕ}

/-- A step that does not approach the bound stays on its side. -/
lemma admits_add_delta (hd : ¬ l.Approaches) (h : l.guard.admits x) :
    l.guard.admits (x + l.delta.toInt) := by
  unfold Approaches at hd
  cases hg : l.guard with
  | below b =>
    simp only [hg, Guard.admits] at *
    omega
  | above b =>
    simp only [hg, Guard.admits] at *
    omega

lemma admits_add_mul (hd : ¬ l.Approaches) (h : l.guard.admits x) (k : ℕ) :
    l.guard.admits (x + k * l.delta.toInt) := by
  induction k generalizing x with
  | zero => simpa using h
  | succ k ih =>
    rw [← add_mul_succ]
    exact ih (admits_add_delta hd h)

/-- By induction on the run: the guard holds before every run of the body, so the last one breaks. -/
lemma Exits.breaksAt (h : l.Exits x n y) (hd : ¬ l.Approaches) (hx : l.guard.admits x) :
    1 ≤ n ∧ l.BreaksAt y := by
  induction h with
  | stop hstop => exact absurd hx hstop
  | leave _ hb => exact ⟨le_rfl, hb⟩
  | next hg _ _ ih => exact ⟨by omega, (ih (admits_add_delta hd hg)).2⟩

/-- The first break that is met is the exit. -/
theorem exits_iff_breaks (hd : ¬ l.Approaches) (hx : l.guard.admits x) :
    (∃ n y, l.Exits x n y) ↔ ∃ k : ℕ, 1 ≤ k ∧ l.BreaksAt (x + k * l.delta.toInt) := by
  classical
  constructor
  · rintro ⟨n, y, h⟩
    obtain ⟨hpos, hb⟩ := h.breaksAt hd hx
    exact ⟨n, hpos, h.counter ▸ hb⟩
  · intro h
    obtain ⟨hpos, hb⟩ := Nat.find_spec h
    refine ⟨Nat.find h, _, l.exits_of_first _ x (fun k _ => admits_add_mul hd hx k) ?_ (.inl ⟨hpos, hb⟩)⟩
    intro k hk hlt hbreak
    exact Nat.find_min h hlt ⟨hk, hbreak⟩

lemma iterations_eq_nonTerminatingLoop_iff (l : GuardedLoop) (start : Int32) :
    l.iterations start = .error (.nonTerminatingLoop l) ↔
      l.guard.holds start = true ∧ ¬ l.Approaches := by
  rw [← l.approach?_eq_none_iff start, iterations]
  by_cases hg : l.guard.holds start = true
  · rw [if_pos hg]
    cases hfound : l.approach? start with
    | none => simp [hg]
    | some found =>
      obtain ⟨distance, speed⟩ := found
      simp only [reduceCtorEq, and_false, iff_false]
      split <;> simp
  · rw [if_neg hg]
    simp [hg]

/-- A loop is refused as one that never exits exactly if it starts and its step does not approach the
bound. Such a loop does exit if it has a break value on its way. -/
theorem refused_exits_iff (l : GuardedLoop) (start : Int32) :
    (l.iterations start = .error (.nonTerminatingLoop l) ↔
      l.guard.holds start = true ∧ ¬ l.Approaches) ∧
    (l.iterations start = .error (.nonTerminatingLoop l) →
      ((∃ n y, l.Exits start.toInt n y) ↔ ∃ k : ℕ, 1 ≤ k ∧ l.BreaksAt (l.counterAfter start k))) := by
  refine ⟨l.iterations_eq_nonTerminatingLoop_iff start, fun h => ?_⟩
  obtain ⟨hg, hd⟩ := (l.iterations_eq_nonTerminatingLoop_iff start).mp h
  exact exits_iff_breaks hd ((l.guard.holds_iff start).mp hg)

/-- Down from zero with a break at minus three: the loop runs below ten, exits after three runs of its
body, and is refused. -/
theorem refused_with_break_behind :
    iterations ⟨.below 10, -1, some (-3)⟩ 0 =
      .error (.nonTerminatingLoop ⟨.below 10, -1, some (-3)⟩) ∧
    Exits ⟨.below 10, -1, some (-3)⟩ 0 3 (-3) ∧
    execute ⟨.below 10, -1, some (-3)⟩ 0 = some (-3) := by
  have hdiverges : ¬ Approaches ⟨.below 10, -1, some (-3)⟩ := by
    unfold Approaches
    decide
  have hexits : Exits ⟨.below 10, -1, some (-3)⟩ 0 3 (-3) := by
    refine exits_of_first ⟨.below 10, -1, some (-3)⟩ 3 0 (fun k _ => ?_) ?_ ?_
    · exact admits_add_mul hdiverges (by simp [Guard.admits]) k
    · rintro k hpos hlt ⟨e, he, hk⟩
      cases he
      change (-3 : ℤ) = 0 + k * -1 at hk
      omega
    · exact .inl ⟨by omega, -3, rfl, rfl⟩
  have htrace : Trace ⟨.below 10, -1, some (-3)⟩ 0 [-1, -2, -3] :=
    .next rfl (by decide) (.next rfl (by decide) (.leave rfl rfl))
  refine ⟨by decide, hexits, htrace.executeFor_eq UInt32.size ?_⟩
  rw [UInt32.size]
  decide

end VerifierBench.GuardedLoop
