import VerifierBench.Proofs.Fixture.Script

/-! Programs over one counter, executed statement by statement on words. An execution shows which
assertions fail and which additions wrap, in order. -/
namespace VerifierBench

/-- A program whose only variable is the counter. -/
inductive CounterProgram
  | add (delta : Int32)
  | assert (variableName : String) (predicate : ScalarPredicate)
  | seq (first second : CounterProgram)
  | ifHolds (g : Guard) (body : CounterProgram)
  | whileHolds (g : Guard) (body : CounterProgram)
  | times (count : ℕ) (body : CounterProgram)

inductive CounterEvent
  | failed (violation : Violation)
  | wrapped (x delta : Int32)

/-- An addition on words is silent unless the exact sum is no word. -/
def addEvents (x delta : Int32) : List CounterEvent :=
  if isInt32 (x.toInt + delta.toInt) then [] else [.wrapped x delta]

namespace CounterProgram

/-- From counter `x` the program ends with counter `y`. The assertions belong to a location; a
failed one does not stop the program. -/
inductive Executes (l : Location) :
    CounterProgram → Int32 → List CounterEvent → Int32 → Prop
  | add {delta x} : Executes l (.add delta) x (addEvents x delta) (x + delta)
  | assert {name p x} :
      Executes l (.assert name p) x ((p.judge l name x).violations.map .failed) x
  | seq {c d x es y fs z} (first : Executes l c x es y) (second : Executes l d y fs z) :
      Executes l (.seq c d) x (es ++ fs) z
  | enter {g c x es y} (h : g.holds x = true) (body : Executes l c x es y) :
      Executes l (.ifHolds g c) x es y
  | skip {g c x} (h : g.holds x = false) : Executes l (.ifHolds g c) x [] x
  | stop {g c x} (h : g.holds x = false) : Executes l (.whileHolds g c) x [] x
  | loop {g c x es y fs z} (h : g.holds x = true) (body : Executes l c x es y)
      (rest : Executes l (.whileHolds g c) y fs z) : Executes l (.whileHolds g c) x (es ++ fs) z
  | never {c x} : Executes l (.times 0 c) x [] x
  | again {n c x es y fs z} (body : Executes l c x es y) (rest : Executes l (.times n c) y fs z) :
      Executes l (.times (n + 1) c) x (es ++ fs) z

variable {l : Location} {c body : CounterProgram} {x y z : Int32} {es fs : List CounterEvent}

/-- Execution is deterministic. -/
theorem Executes.unique (h : Executes l c x es y) (h' : Executes l c x fs z) : fs = es ∧ z = y := by
  induction h generalizing fs z with
  | add | assert =>
    cases h'
    exact ⟨rfl, rfl⟩
  | seq _ _ ihfirst ihsecond =>
    cases h' with
    | seq first second =>
      obtain ⟨rfl, rfl⟩ := ihfirst first
      obtain ⟨rfl, rfl⟩ := ihsecond second
      exact ⟨rfl, rfl⟩
  | enter hg _ ih =>
    cases h' with
    | enter _ body => exact ih body
    | skip hg' => exact absurd (hg.symm.trans hg') (by decide)
  | skip hg =>
    cases h' with
    | enter hg' _ => exact absurd (hg.symm.trans hg') (by decide)
    | skip => exact ⟨rfl, rfl⟩
  | stop hg =>
    cases h' with
    | stop => exact ⟨rfl, rfl⟩
    | loop hg' _ _ => exact absurd (hg.symm.trans hg') (by decide)
  | loop hg _ _ ihbody ihrest =>
    cases h' with
    | stop hg' => exact absurd (hg.symm.trans hg') (by decide)
    | loop _ body rest =>
      obtain ⟨rfl, rfl⟩ := ihbody body
      obtain ⟨rfl, rfl⟩ := ihrest rest
      exact ⟨rfl, rfl⟩
  | never =>
    cases h'
    exact ⟨rfl, rfl⟩
  | again _ _ ihbody ihrest =>
    cases h' with
    | again body rest =>
      obtain ⟨rfl, rfl⟩ := ihbody body
      obtain ⟨rfl, rfl⟩ := ihrest rest
      exact ⟨rfl, rfl⟩

/-- The program ends, no addition wraps, and these assertions fail, in this order. -/
def Fails (c : CounterProgram) (l : Location) (x : Int32) (vs : List Violation) : Prop :=
  ∃ y, ∀ es z, c.Executes l x es z ↔ es = vs.map .failed ∧ z = y

lemma Executes.fails {vs : List Violation} (h : c.Executes l x (vs.map .failed) y) :
    c.Fails l x vs := by
  refine ⟨y, fun es z => ⟨h.unique, ?_⟩⟩
  rintro ⟨rfl, rfl⟩
  exact h

lemma addEvents_eq_nil {delta : Int32} (h : isInt32 (x.toInt + delta.toInt) = true) :
    addEvents x delta = [] := if_pos h

lemma executes_add {delta : Int32} (h : y.toInt = x.toInt + delta.toInt) :
    Executes l (.add delta) x [] y := by
  have hfits : isInt32 (x.toInt + delta.toInt) = true := h ▸ isInt32_toInt y
  have hy : y = x + delta := Int32.toInt_inj.mp (h.trans (toInt_add_of_isInt32 hfits).symm)
  have hadd : Executes l (.add delta) x (addEvents x delta) (x + delta) := .add
  rwa [addEvents_eq_nil hfits, ← hy] at hadd

/-- Repeated additions wrap nowhere if their exact sum is a word: each partial sum lies between the
first counter and the last one. -/
theorem executes_times_add {delta : Int32} (n : ℕ) (h : y.toInt = x.toInt + n * delta.toInt) :
    Executes l (.times n (.add delta)) x [] y := by
  induction n generalizing x with
  | zero =>
    obtain rfl : y = x := Int32.toInt_inj.mp (by simpa using h)
    exact .never
  | succ n ih =>
    have hsplit : y.toInt = x.toInt + delta.toInt + n * delta.toInt := by
      rw [h]
      push_cast
      ring
    have hfits : isInt32 (x.toInt + delta.toInt) = true := by
      have hx := x.le_toInt
      have hx' := x.toInt_lt
      have hy := y.le_toInt
      have hy' := y.toInt_lt
      rw [isInt32_iff]
      rcases Int.le_total 0 delta.toInt with hd | hd
      · have hrest := Int.mul_nonneg (Int.natCast_nonneg n) hd
        omega
      · have hrest := Int.mul_nonpos_of_nonneg_of_nonpos (Int.natCast_nonneg n) hd
        omega
    have hstep := toInt_add_of_isInt32 hfits
    have hrest := ih (x := x + delta) (by rw [hstep, hsplit])
    exact .again (executes_add hstep) hrest

/-- A loop whose body takes the counter one up meets its bound exactly. Only the last run of the
body may show anything. -/
theorem executes_whileBelow {bound : Int32}
    (hbody : ∀ x y : Int32, x < bound → y.toInt = x.toInt + 1 →
      Executes l body x (if y = bound then es else []) y)
    (h : x < bound) : Executes l (.whileHolds (.below bound) body) x es bound := by
  obtain ⟨n, hn⟩ : ∃ n : ℕ, bound.toInt = x.toInt + (n + 1 : ℕ) := by
    rw [Int32.lt_iff_toInt_lt] at h
    exact ⟨(bound.toInt - x.toInt - 1).toNat, by omega⟩
  have henter : (Guard.below bound).holds x = true := decide_eq_true h
  -- Induction on the distance to the bound, less the last run.
  induction n generalizing x with
  | zero =>
    have hexit : (Guard.below bound).holds bound = false := decide_eq_false Int32.lt_irrefl
    have hlast := hbody x bound h (by omega)
    rw [if_pos rfl] at hlast
    rw [← List.append_nil es]
    exact .loop henter hlast (.stop hexit)
  | succ n ih =>
    have hl := x.le_toInt
    have hu := bound.toInt_lt
    have hone : (1 : Int32).toInt = 1 := rfl
    have hnext : (x + 1).toInt = x.toInt + 1 := by
      rw [toInt_add_of_isInt32 (by rw [hone, isInt32_iff]; omega), hone]
    have hlt : x + 1 < bound := by
      rw [Int32.lt_iff_toInt_lt, hnext]
      omega
    have hfirst := hbody x (x + 1) h hnext
    rw [if_neg (Int32.ne_of_lt hlt)] at hfirst
    exact .loop henter hfirst (ih hlt (by omega) (decide_eq_true hlt))

end CounterProgram
end VerifierBench
