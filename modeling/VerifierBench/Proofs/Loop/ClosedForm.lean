import Mathlib.Tactic.Ring
import VerifierBench.Loop.Accumulation

/-! The value of an accumulation. Words are integers modulo `2 ^ 32`, so the closed form and the
literal iteration are the word of one exact sum, however large the counts are. -/
namespace VerifierBench

/-- The change a step makes on unbounded integers. -/
def Step.exact (s : Step) : ℤ := s.count.toNat * s.delta.toInt

lemma toInt32_toUInt32 (n : UInt64) : n.toUInt32.toInt32 = Int32.ofInt n.toNat := by
  apply Int32.toBitVec.inj
  apply BitVec.eq_of_toNat_eq
  simp

theorem Step.net_eq_ofInt (s : Step) : s.net = Int32.ofInt s.exact := by
  simp only [Step.net, Step.exact, toInt32_toUInt32, Int32.ofInt_mul, Int32.ofInt_toInt]

/-- Repeated wrapping addition is one addition of the exact product. -/
theorem addTimes_eq_add_ofInt (delta : Int32) (n : UInt64) (x : Int32) :
    addTimes delta n x = x + Int32.ofInt (n.toNat * delta.toInt) := by
  fun_induction addTimes delta n x with
  | case1 x => simp
  | case2 n x hne ih =>
    have hstep : (n.toNat : ℤ) * delta.toInt = delta.toInt + (n - 1).toNat * delta.toInt := by
      rw [← toNat_sub_one_add_one hne]
      push_cast
      ring
    rw [ih, hstep, Int32.ofInt_add, Int32.ofInt_toInt, Int32.add_assoc]

lemma foldl_add_ofInt (g : Step → ℤ) (steps : List Step) (x : Int32) :
    steps.foldl (fun y s => y + Int32.ofInt (g s)) x = x + Int32.ofInt (steps.map g).sum := by
  induction steps generalizing x with
  | nil => simp
  | cons s steps ih =>
    rw [List.foldl_cons, ih, List.map_cons, List.sum_cons, Int32.ofInt_add, Int32.add_assoc]

namespace Accumulation

/-- The initial value plus `count * delta` of every step, on unbounded integers. -/
def exact (a : Accumulation) : ℤ := a.initial.toInt + (a.steps.map Step.exact).sum

theorem closedForm_eq_ofInt (a : Accumulation) : a.closedForm = Int32.ofInt a.exact := by
  have hnet : Step.net = fun s => Int32.ofInt s.exact := funext Step.net_eq_ofInt
  rw [closedForm, hnet, foldl_add_ofInt, exact, Int32.ofInt_add, Int32.ofInt_toInt]

theorem iterated_eq_ofInt (a : Accumulation) : a.iterated = Int32.ofInt a.exact := by
  have hadd : (fun x (s : Step) => addTimes s.delta s.count x) =
      fun x s => x + Int32.ofInt s.exact := by
    funext x s
    exact addTimes_eq_add_ofInt s.delta s.count x
  rw [iterated, hadd, foldl_add_ofInt, exact, Int32.ofInt_add, Int32.ofInt_toInt]

/-- The comparison of the two values never fails; only the mark depends on the limit. -/
theorem run_eq_ok (a : Accumulation) (limit : UInt64) :
    a.run limit = .ok ⟨Int32.ofInt a.exact, decide (a.totalIterations ≤ limit)⟩ := by
  simp only [run, closedForm_eq_ofInt, iterated_eq_ofInt, if_true]
  by_cases h : limit < a.totalIterations
  · simp [h]
  · simp [h, UInt64.not_lt.mp h]

/-- The closed form is the literal iteration, both are the exact sum reduced to a signed word, and a
run gives that value for every limit. -/
theorem run_value_exact (a : Accumulation) :
    a.closedForm = a.iterated ∧ a.closedForm.toInt = a.exact.bmod Int32.size ∧
      a.iterated.toInt = a.exact.bmod Int32.size ∧
      ∀ limit, ∃ crossChecked, a.run limit = .ok ⟨a.closedForm, crossChecked⟩ := by
  have hc := closedForm_eq_ofInt a
  have hi := iterated_eq_ofInt a
  refine ⟨hc.trans hi.symm, ?_, ?_, fun limit => ?_⟩
  · rw [hc, Int32.toInt_ofInt]
  · rw [hi, Int32.toInt_ofInt]
  · rw [hc]
    exact ⟨_, run_eq_ok a limit⟩

/-- A hundred steps of two from near the top go through the overflow. -/
example : (closedForm ⟨2147483547, [⟨100, 2⟩]⟩).toInt = -2147483549 := by decide

end Accumulation
end VerifierBench
