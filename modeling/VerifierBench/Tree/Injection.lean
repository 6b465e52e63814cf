import VerifierBench.Error

/-! Putting faults into a decision tree. An accepted fault changes one conjunct of one guard and
nothing else. -/
namespace VerifierBench.DecisionTree

/-- The tree with one conjunct replaced. -/
def inject (t : DecisionTree) (f : Fault) : Except Error DecisionTree :=
  let cascade := t.cascadeAt f.site
  match cascade.guard? f.site.candidate with
  | none => .error (.unknownFaultSite f.site)
  | some guard =>
    if f.conjunct.toNat < guard.length then
      let changed := cascade.replaceConjunct f.site.candidate f.conjunct.toNat f.replacement
      .ok { t.setCascadeAt changed f.site with fault := some f }
    else .error (.conjunctOutOfRange f.site f.conjunct guard.length)

/-- The tree with several faults put in one after the other; the first one refused decides. -/
def injectAll (t : DecisionTree) : List Fault → Except Error DecisionTree
  | [] => .ok t
  | f :: fs => do injectAll (← t.inject f) fs

theorem fault_inject {t t' : DecisionTree} {f : Fault} (h : t.inject f = .ok t') :
    t'.fault = some f := by
  simp only [inject] at h
  split at h
  · cases h
  · split at h
    · cases h; rfl
    · cases h

end VerifierBench.DecisionTree
