import VerifierBench.Proofs.Loop.ClosedForm

/-! Which runs are confirmed by literal iteration, and how many additions that takes. The limit is
compared with a total that stays at the largest word once the counts exceed it. No limit is above
that word, so as a limit it is none: under it every run is iterated, however long. -/
namespace VerifierBench

/-- A result with the number of additions that were executed for it. -/
structure Counted (α : Type) where
  value : α
  additions : ℕ

/-- `addTimes` with its additions counted. -/
def countedTimes (delta : Int32) (count : UInt64) (x : Counted Int32) : Counted Int32 :=
  if count = 0 then x
  else countedTimes delta (count - 1) ⟨x.value + delta, x.additions + 1⟩
termination_by count.toNat
decreasing_by
  have := toNat_sub_one_add_one ‹count ≠ 0›
  omega

theorem countedTimes_eq (delta : Int32) (count : UInt64) (x : Counted Int32) :
    countedTimes delta count x =
      ⟨addTimes delta count x.value, x.additions + count.toNat⟩ := by
  fun_induction countedTimes delta count x with
  | case1 x => simp [addTimes]
  | case2 count x hne ih =>
    have hstep := toNat_sub_one_add_one hne
    rw [ih, addTimes.eq_def delta count, if_neg hne]
    simp only [Counted.mk.injEq, true_and]
    omega

namespace Accumulation

/-- The number of additions of the literal iteration, without an upper bound. -/
def additions (a : Accumulation) : ℕ := (a.steps.map fun s => s.count.toNat).sum

/-- `iterated` with its additions counted. -/
def countedIteration (a : Accumulation) : Counted Int32 :=
  a.steps.foldl (fun x s => countedTimes s.delta s.count x) ⟨a.initial, 0⟩

/-- `run` with the additions of its iteration counted. -/
def countedRun (a : Accumulation) (limit : UInt64) : Counted (Except Error Summary) :=
  if limit < a.totalIterations then ⟨.ok ⟨a.closedForm, false⟩, 0⟩
  else
    let iteration := a.countedIteration
    if iteration.value = a.closedForm then ⟨.ok ⟨a.closedForm, true⟩, iteration.additions⟩
    else ⟨.error (.summaryMismatch iteration.value a.closedForm), iteration.additions⟩

lemma foldl_countedTimes (steps : List Step) (x : Counted Int32) :
    steps.foldl (fun y s => countedTimes s.delta s.count y) x =
      ⟨steps.foldl (fun y s => addTimes s.delta s.count y) x.value,
        x.additions + (steps.map fun s => s.count.toNat).sum⟩ := by
  induction steps generalizing x with
  | nil => rfl
  | cons s steps ih =>
    rw [List.foldl_cons, ih, countedTimes_eq, List.foldl_cons, List.map_cons, List.sum_cons,
      Nat.add_assoc]

theorem countedIteration_eq (a : Accumulation) : a.countedIteration = ⟨a.iterated, a.additions⟩ := by
  rw [countedIteration, foldl_countedTimes, Nat.zero_add]
  rfl

/-- Counting changes no result, and a run that iterates executes all its additions. -/
theorem countedRun_eq (a : Accumulation) (limit : UInt64) :
    a.countedRun limit =
      ⟨a.run limit, if a.totalIterations ≤ limit then a.additions else 0⟩ := by
  by_cases h : limit < a.totalIterations
  · simp only [countedRun, run, if_pos h, if_neg (UInt64.not_le.mpr h)]
  · simp only [countedRun, run, if_neg h, if_pos (UInt64.not_lt.mp h), countedIteration_eq]
    split <;> rfl

lemma toNat_saturatingAdd (m n : UInt64) :
    (saturatingAdd m n).toNat = min (m.toNat + n.toNat) (UInt64.size - 1) := by
  by_cases h : m.toNat + n.toNat < UInt64.size
  · rw [saturatingAdd, if_pos h, UInt64.toNat_add, Nat.mod_eq_of_lt h]
    omega
  · rw [saturatingAdd, if_neg h, UInt64.toNat_ofNat_of_lt' (by decide)]
    omega

/-- The total is the exact number of additions, cut off at the largest word: a sum that was cut off
once stays there. -/
lemma toNat_foldl_saturatingAdd (steps : List Step) (total : UInt64) :
    (steps.foldl (fun total s => saturatingAdd total s.count) total).toNat =
      min (total.toNat + (steps.map fun s => s.count.toNat).sum) (UInt64.size - 1) := by
  induction steps generalizing total with
  | nil =>
    have hlt := total.toNat_lt_size
    simp only [List.foldl_nil, List.map_nil, List.sum_nil]
    omega
  | cons s steps ih =>
    rw [List.foldl_cons, ih, toNat_saturatingAdd, List.map_cons, List.sum_cons]
    omega

theorem toNat_totalIterations (a : Accumulation) :
    a.totalIterations.toNat = min a.additions (UInt64.size - 1) := by
  rw [totalIterations, toNat_foldl_saturatingAdd, UInt64.toNat_zero, Nat.zero_add, additions]

/-- Every total passes the largest limit; any other limit is below the cut. -/
theorem totalIterations_le_iff (a : Accumulation) (limit : UInt64) :
    a.totalIterations ≤ limit ↔
      a.additions ≤ limit.toNat ∨ limit.toNat = UInt64.size - 1 := by
  have hlt := limit.toNat_lt_size
  rw [UInt64.le_iff_toNat_le, toNat_totalIterations]
  omega

/-- A run is confirmed by iteration exactly if its additions are within the limit or the limit is the
largest word. It executes all of its additions or none, and more than the limit allows exactly if
there are `2 ^ 64` or more under the largest limit. -/
theorem crossCheck_exact (a : Accumulation) (limit : UInt64) :
    ∃ crossChecked, a.run limit = .ok ⟨a.closedForm, crossChecked⟩ ∧
      (crossChecked = true ↔
        a.additions ≤ limit.toNat ∨ limit.toNat = UInt64.size - 1) ∧
      a.countedRun limit = ⟨a.run limit, if crossChecked then a.additions else 0⟩ ∧
      (limit.toNat < (a.countedRun limit).additions ↔
        limit.toNat = UInt64.size - 1 ∧ UInt64.size ≤ a.additions) := by
  have hiff := a.totalIterations_le_iff limit
  have hlt := limit.toNat_lt_size
  refine ⟨decide (a.totalIterations ≤ limit), ?_, ?_, ?_, ?_⟩
  · rw [closedForm_eq_ofInt]
    exact a.run_eq_ok limit
  · rw [decide_eq_true_iff, hiff]
  · simp only [countedRun_eq, decide_eq_true_iff]
  · simp only [countedRun_eq, hiff]
    split <;> omega

/-- Ones added `2 ^ 64` times, in two steps since a count is a word. -/
def wholeTurn : Accumulation := ⟨0, [⟨18446744073709551615, 1⟩, ⟨1, 1⟩]⟩

/-- A whole turn of additions is executed under the largest limit, which is one less. -/
theorem largest_limit_exceeded :
    wholeTurn.run 18446744073709551615 = .ok ⟨0, true⟩ ∧
    (18446744073709551615 : UInt64).toNat < wholeTurn.additions ∧
    (18446744073709551615 : UInt64).toNat < (wholeTurn.countedRun 18446744073709551615).additions := by
  have hwithin : wholeTurn.totalIterations ≤ 18446744073709551615 := by decide
  refine ⟨?_, by decide, ?_⟩
  · rw [run_eq_ok, decide_eq_true hwithin]
    rfl
  · rw [countedRun_eq, if_pos hwithin]
    decide

end Accumulation
end VerifierBench
