import VerifierBench.Proofs.Loop.Checked
import VerifierBench.Proofs.Loop.ClosedForm

/-! Guarded loops on words: the literal execution, and the number of runs as 64-bit words compute it.
Where the last counter of the unbounded loop is a word, the execution never wraps and follows that
loop; the computation of the number of runs never overflows at all. -/
namespace VerifierBench

lemma toInt_add_of_isInt32 {x y : Int32} (h : isInt32 (x.toInt + y.toInt) = true) :
    (x + y).toInt = x.toInt + y.toInt := by
  rw [← toInt_ofInt_of_isInt32 h, Int32.ofInt_add, Int32.ofInt_toInt, Int32.ofInt_toInt]

namespace GuardedLoop

/-- The literal execution on words: the counter after each run of the body, up to the exit. -/
inductive Trace (l : GuardedLoop) : Int32 → List Int32 → Prop
  | stop {x} (h : l.guard.holds x = false) : Trace l x []
  | leave {x} (h : l.guard.holds x = true) (hb : l.breakAt = some (x + l.delta)) :
      Trace l x [x + l.delta]
  | next {x xs} (h : l.guard.holds x = true) (hb : l.breakAt ≠ some (x + l.delta))
      (tail : Trace l (x + l.delta) xs) : Trace l x ((x + l.delta) :: xs)

/-- The execution is deterministic. -/
theorem Trace.unique {l : GuardedLoop} {x : Int32} {xs ys : List Int32} (h : l.Trace x xs)
    (h' : l.Trace x ys) : ys = xs := by
  induction h generalizing ys with
  | stop hstop =>
    cases h' with
    | stop => rfl
    | leave hg _ => cases hstop.symm.trans hg
    | next hg _ _ => cases hstop.symm.trans hg
  | leave hg hb =>
    cases h' with
    | stop hstop => cases hstop.symm.trans hg
    | leave => rfl
    | next _ hb' _ => exact absurd hb hb'
  | next hg hb _ ih =>
    cases h' with
    | stop hstop => cases hstop.symm.trans hg
    | leave _ hb' => exact absurd hb' hb
    | next _ _ tail => rw [ih tail]

/-- Execution needs one unit of fuel for each run of the body, and ends at the last counter. -/
theorem Trace.executeFor_eq {l : GuardedLoop} {x : Int32} {xs : List Int32} (h : l.Trace x xs)
    (fuel : ℕ) (hf : xs.length ≤ fuel) : l.executeFor fuel x = some (xs.getLastD x) := by
  induction h generalizing fuel with
  | stop hstop => cases fuel <;> simp [executeFor, hstop]
  | leave hg hb =>
    obtain ⟨fuel, rfl⟩ := Nat.exists_eq_add_of_le' hf
    simp [executeFor, hg, hb]
  | @next x xs hg hb _ ih =>
    obtain ⟨fuel, rfl⟩ := Nat.exists_eq_add_of_le' (Nat.le_of_add_left_le hf)
    have hrest := ih fuel (by simpa using hf)
    simp only [executeFor, hg, if_true, if_neg hb, hrest, List.getLastD_cons]

lemma toInt_add_delta {l : GuardedLoop} {w : Int32} {x : ℤ} (hw : w.toInt = x)
    (h : isInt32 (x + l.delta.toInt) = true) : (w + l.delta).toInt = x + l.delta.toInt := by
  rw [← hw] at h ⊢
  exact toInt_add_of_isInt32 h

lemma breaksAt_toInt (l : GuardedLoop) (x : Int32) :
    l.BreaksAt x.toInt ↔ l.breakAt = some x := by
  constructor
  · rintro ⟨e, he, hx⟩
    rw [he, Int32.toInt_inj.mp hx]
  · intro h
    exact ⟨x, h, rfl⟩

/-- As long as the exact counters are words, the execution on words follows the unbounded loop. -/
theorem Exits.exists_trace {l : GuardedLoop} {x y : ℤ} {n : ℕ} (h : l.Exits x n y) {w : Int32}
    (hw : w.toInt = x) (hfits : ∀ k ≤ n, isInt32 (x + k * l.delta.toInt) = true) :
    ∃ xs, l.Trace w xs ∧
      xs.map Int32.toInt = (List.range n).map fun k => x + (k + 1 : ℕ) * l.delta.toInt := by
  induction h generalizing w with
  | stop hstop =>
    have hfails : l.guard.holds w = false := by
      rw [Bool.eq_false_iff, ne_eq, Guard.holds_iff, hw]
      exact hstop
    exact ⟨[], .stop hfails, rfl⟩
  | leave hg hb =>
    have hadd := toInt_add_delta hw (by simpa using hfits 1 le_rfl)
    rw [← hw, ← Guard.holds_iff] at hg
    rw [← hadd, breaksAt_toInt] at hb
    exact ⟨[w + l.delta], .leave hg hb, by simp [hadd]⟩
  | @next x n y hg hb _ ih =>
    have hadd := toInt_add_delta hw (by simpa using hfits 1 (by omega))
    rw [← hw, ← Guard.holds_iff] at hg
    rw [← hadd, breaksAt_toInt] at hb
    have hshift := add_mul_succ x l.delta.toInt
    have hrest : ∀ k ≤ n, isInt32 (x + l.delta.toInt + k * l.delta.toInt) = true := by
      intro k hk
      rw [hshift k]
      exact hfits (k + 1) (by omega)
    obtain ⟨xs, htrace, hxs⟩ := ih hadd hrest
    refine ⟨(w + l.delta) :: xs, .next hg hb htrace, ?_⟩
    rw [List.map_cons, hadd, hxs, List.range_succ_eq_map, List.map_cons, List.map_map]
    simp only [hshift]
    simp [Function.comp_def]

/-- The counters of a loop lie between its first and its last one. -/
lemma isInt32_counterAfter {l : GuardedLoop} {start : Int32} {n : ℕ}
    (h : isInt32 (l.counterAfter start n) = true) (k : ℕ) (hk : k ≤ n) :
    isInt32 (l.counterAfter start k) = true := by
  have hl := start.le_toInt
  have hu := start.toInt_lt
  rw [isInt32_iff, counterAfter] at h ⊢
  have hkn : (k : ℤ) ≤ n := by exact_mod_cast hk
  have hk0 : (0 : ℤ) ≤ k := Int.natCast_nonneg k
  rcases Int.le_total 0 l.delta.toInt with hd | hd
  · have hlow := Int.mul_nonneg hk0 hd
    have hhigh := Int.mul_le_mul_of_nonneg_right hkn hd
    omega
  · have hlow := Int.mul_le_mul_of_nonpos_right hkn hd
    have hhigh := Int.mul_nonpos_of_nonneg_of_nonpos hk0 hd
    omega

lemma getLastD_eq_counterAfter {l : GuardedLoop} {start : Int32} {n : ℕ} {xs : List Int32}
    (hxs : xs.map Int32.toInt = (List.range n).map fun k => l.counterAfter start (k + 1)) :
    xs.getLastD start = Int32.ofInt (l.counterAfter start n) := by
  have hlast := congrArg List.getLast? hxs
  rw [List.getLast?_map, List.getLast?_map, List.getLast?_range] at hlast
  rw [List.getLastD_eq_getLast?]
  cases n with
  | zero =>
    have hnone : xs.getLast? = none := by simpa using hlast
    simp [hnone, counterAfter]
  | succ n =>
    obtain ⟨x, hx, hcounter⟩ : ∃ x, xs.getLast? = some x ∧
        x.toInt = l.counterAfter start (n + 1) := by simpa using hlast
    rw [hx, Option.getD_some, ← hcounter, Int32.ofInt_toInt]

lemma run_eq_of_iterations {l : GuardedLoop} {start : Int32} {count : UInt64}
    (h : l.iterations start = .ok count) (limit : UInt64) :
    ∃ crossChecked,
      l.run start limit = .ok ⟨Int32.ofInt (l.counterAfter start count.toNat), crossChecked⟩ := by
  have hexact : Accumulation.exact ⟨start, [⟨count, l.delta⟩]⟩ =
      l.counterAfter start count.toNat := by
    simp [Accumulation.exact, Step.exact, counterAfter]
  have hrun : l.run start limit = Accumulation.run ⟨start, [⟨count, l.delta⟩]⟩ limit := by
    simp only [run, summarize, h]
    rfl
  rw [hrun, ← hexact]
  exact ⟨_, Accumulation.run_eq_ok _ limit⟩

/-- A number of runs that is worked out is that of the unbounded loop, whose counters are words. -/
theorem exits_of_iterations {l : GuardedLoop} {start : Int32} {count : UInt64}
    (h : l.iterations start = .ok count) :
    l.Exits start.toInt count.toNat (l.counterAfter start count.toNat) ∧
      isInt32 (l.counterAfter start count.toNat) = true ∧ count.toNat ≤ 4294967295 := by
  by_cases hg : l.guard.holds start = true
  · rw [iterations, if_pos hg] at h
    cases hfound : l.approach? start with
    | none =>
      rw [hfound] at h
      cases h
    | some found =>
      obtain ⟨distance, speed⟩ := found
      obtain ⟨n, hn, hle, hexits⟩ := (approach_of_found hfound).exits hg
      simp only [hfound, hn, Int.toNat_natCast] at h
      split at h
      · next hfits =>
        cases h
        have hsize : (UInt64.ofNat n).toNat = n :=
          UInt64.toNat_ofNat_of_lt' (by rw [UInt64.size]; omega)
        rw [hsize]
        exact ⟨hexits, hfits, hle⟩
      · cases h
  · rw [iterations, if_neg hg] at h
    cases h
    have hzero : l.counterAfter start (0 : UInt64).toNat = start.toInt := by simp [counterAfter]
    rw [hzero]
    refine ⟨.stop fun hadmits => hg ((l.guard.holds_iff start).mpr hadmits), ?_, by decide⟩
    exact isInt32_toInt start

/-- The loop on unbounded integers exits after `n` runs, and the number of runs worked out, the
literal execution on words and the reported run all follow it. -/
structure FollowsExit (l : GuardedLoop) (start : Int32) (n : ℕ) : Prop where
  exits : ∀ m y, l.Exits start.toInt m y ↔ m = n ∧ y = l.counterAfter start n
  /-- A last counter that is no word is refused. -/
  refused : isInt32 (l.counterAfter start n) = false →
    l.iterations start = .error (.overflowingSummary l)
  counted : isInt32 (l.counterAfter start n) = true →
    ∃ count, l.iterations start = .ok count ∧ count.toNat = n
  /-- The execution makes `n` runs of the body, and every counter on the way is exact. -/
  traced : isInt32 (l.counterAfter start n) = true →
    ∃ xs, l.Trace start xs ∧
      xs.map Int32.toInt = (List.range n).map fun k => l.counterAfter start (k + 1)
  executed : isInt32 (l.counterAfter start n) = true →
    l.execute start = some (Int32.ofInt (l.counterAfter start n))
  /-- Whatever the limit, the reported value is that of the execution. -/
  reported : isInt32 (l.counterAfter start n) = true → ∀ limit, ∃ crossChecked,
    l.run start limit = .ok ⟨Int32.ofInt (l.counterAfter start n), crossChecked⟩
  /-- No intermediate result on 64-bit words overflows. -/
  fits64 : l.iterations64 start = some (l.iterations start)

/-- A loop that approaches its guard exits on unbounded integers, and everything follows that exit. -/
theorem exists_followsExit {l : GuardedLoop} (h : l.Approaches) (start : Int32) :
    ∃ n, l.FollowsExit start n := by
  obtain ⟨n, hn, hexits, hcount⟩ := exists_exits h start
  have hsize : (UInt64.ofNat n).toNat = n := UInt64.toNat_ofNat_of_lt' (by rw [UInt64.size]; omega)
  have htrace : isInt32 (l.counterAfter start n) = true → ∃ xs, l.Trace start xs ∧
      xs.map Int32.toInt = (List.range n).map fun k => l.counterAfter start (k + 1) :=
    fun hfits => hexits.exists_trace rfl (isInt32_counterAfter hfits)
  refine ⟨n, ?_, ?_, ?_, htrace, ?_, ?_, l.iterations64_eq start⟩
  · intro m y
    constructor
    · exact hexits.unique
    · rintro ⟨rfl, rfl⟩
      exact hexits
  · intro hfits
    rw [hcount, hfits, if_neg Bool.false_ne_true]
  · intro hfits
    exact ⟨UInt64.ofNat n, by rw [hcount, if_pos hfits], hsize⟩
  · intro hfits
    obtain ⟨xs, hxs, hcounters⟩ := htrace hfits
    have hlength : xs.length = n := by simpa using congrArg List.length hcounters
    rw [execute, hxs.executeFor_eq UInt32.size (by rw [hlength, UInt32.size]; omega),
      getLastD_eq_counterAfter hcounters]
  · intro hfits limit
    have hrun := run_eq_of_iterations (hcount.trans (if_pos hfits)) limit
    rwa [hsize] at hrun

/-- Steps of three from zero to a bound of ten make four runs of the body. -/
theorem followsExit_stride_three :
    (whileBelow 10 3).Approaches ∧ (whileBelow 10 3).FollowsExit 0 4 := by
  have happroaches : (whileBelow 10 3).Approaches := by
    change (0 : ℤ) < (3 : Int32).toInt
    decide
  have hfour : (whileBelow 10 3).iterations 0 = .ok 4 := by decide
  obtain ⟨n, hn⟩ := exists_followsExit happroaches 0
  have hcount : n = 4 := by
    cases hfits : isInt32 ((whileBelow 10 3).counterAfter 0 n) with
    | false => cases hfour.symm.trans (hn.refused hfits)
    | true =>
      obtain ⟨count, hcounted, rfl⟩ := hn.counted hfits
      cases hfour.symm.trans hcounted
      rfl
  exact ⟨happroaches, hcount ▸ hn⟩

end GuardedLoop
end VerifierBench
