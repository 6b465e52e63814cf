import VerifierBench.Proofs.Tree.Leaves

/-! Trying to put one fault after another into a tree. A refused fault keeps the tree. The accepted
ones alone lead to the same tree, so it has the shape and the leaves of the tree at the start, and it
remembers the last of them. -/
namespace VerifierBench.DecisionTree
variable {t u : DecisionTree} {f : Fault} {cause : Error}

/-- The tree after trying to put in a fault. -/
def attempt (t : DecisionTree) (f : Fault) : DecisionTree :=
  match t.inject f with
  | .ok t' => t'
  | .error _ => t

def attemptAll (t : DecisionTree) (fs : List Fault) : DecisionTree := fs.foldl attempt t

/-- The faults that are accepted when they are tried one after the other. -/
def accepted (t : DecisionTree) : List Fault → List Fault
  | [] => []
  | f :: fs =>
    match t.inject f with
    | .ok t' => f :: accepted t' fs
    | .error _ => accepted t fs

lemma attemptAll_of_ok (h : t.inject f = .ok u) (fs : List Fault) :
    t.attemptAll (f :: fs) = u.attemptAll fs := by
  simp only [attemptAll, List.foldl_cons, attempt, h]

lemma attemptAll_of_error (h : t.inject f = .error cause) (fs : List Fault) :
    t.attemptAll (f :: fs) = t.attemptAll fs := by
  simp only [attemptAll, List.foldl_cons, attempt, h]

lemma accepted_of_ok (h : t.inject f = .ok u) (fs : List Fault) :
    t.accepted (f :: fs) = f :: u.accepted fs := by
  simp only [accepted, h]

lemma accepted_of_error (h : t.inject f = .error cause) (fs : List Fault) :
    t.accepted (f :: fs) = t.accepted fs := by
  simp only [accepted, h]

/-- Refused faults can be left out. -/
theorem injectAll_accepted (t : DecisionTree) (fs : List Fault) :
    t.injectAll (t.accepted fs) = .ok (t.attemptAll fs) := by
  induction fs generalizing t with
  | nil => rfl
  | cons f fs ih =>
    cases hf : t.inject f with
    | ok next =>
      rw [accepted_of_ok hf, attemptAll_of_ok hf, injectAll, hf]
      exact ih next
    | error cause =>
      rw [accepted_of_error hf, attemptAll_of_error hf]
      exact ih t

theorem fault_injectAll {fs : List Fault} (h : t.injectAll fs = .ok u) :
    u.fault = fs.getLast?.or t.fault := by
  induction fs generalizing t with
  | nil =>
    cases h
    rfl
  | cons f fs ih =>
    cases hf : t.inject f with
    | error cause =>
      rw [injectAll, hf] at h
      cases h
    | ok next =>
      rw [injectAll, hf] at h
      rw [ih h, fault_inject hf, List.getLast?_cons]
      cases fs.getLast? <;> rfl

lemma SameShape.isOk_inject (h : t.SameShape u) (f : Fault) :
    (t.inject f).isOk = (u.inject f).isOk := by
  cases hu : u.inject f with
  | error cause => rw [h.inject_eq_error_iff.mpr hu]
  | ok next =>
    cases ht : t.inject f with
    | error cause => cases hu.symm.trans (h.inject_eq_error_iff.mp ht)
    | ok _ => rfl

/-- Faults that were put in before change nothing about which ones are accepted. -/
theorem SameShape.accepted_eq (h : t.SameShape u) (fs : List Fault) :
    t.accepted fs = fs.filter fun f => (u.inject f).isOk := by
  induction fs generalizing t with
  | nil => rfl
  | cons f fs ih =>
    rw [List.filter_cons, ← h.isOk_inject f]
    cases hf : t.inject f with
    | ok next =>
      rw [accepted_of_ok hf, ih ((sameShape_inject hf).trans h)]
      rfl
    | error cause =>
      rw [accepted_of_error hf, ih h]
      rfl

/-- What no fault can break about the derived tree. -/
structure Intact (t : DecisionTree) : Prop where
  shape : t.SameShape derived
  leaves_eq : t.leaves = derived.leaves
  length_leaves : t.leaves.length = 30
  nodup_leaves : t.leaves.Nodup
  leaf_mem : ∀ v, (t.select v).leaf ∈ t.leaves
  max_ne_min : ∀ v, (t.select v).leaf.max ≠ (t.select v).leaf.min
  result_eq : ∀ v, (t.select v).result = ⟨v.get (t.select v).leaf.max, v.get (t.select v).leaf.min⟩

theorem SameShape.intact (h : t.SameShape derived) : t.Intact where
  shape := h
  leaves_eq := h.leaves
  length_leaves := h.leaves ▸ length_leaves_derived
  nodup_leaves := h.leaves ▸ nodup_leaves_derived
  leaf_mem := t.leaf_mem_leaves
  max_ne_min := fun v => max_ne_min_of_mem_leaves_derived _ (h.leaves ▸ t.leaf_mem_leaves v)
  result_eq := fun _ => rfl

/-- However many faults are tried on the derived tree, all seven cascades keep their shapes, there are
the same thirty leaves, and every answer is at one of them. The tree remembers the last fault that was
accepted, and each fault is accepted or refused as on the derived tree. -/
theorem attemptAll_derived_intact (fs : List Fault) :
    (derived.attemptAll fs).Intact ∧
    (derived.attemptAll fs).fault = (derived.accepted fs).getLast? ∧
    ((derived.attemptAll fs).fault = none ↔ derived.accepted fs = []) ∧
    derived.accepted fs = fs.filter fun f => (derived.inject f).isOk := by
  have hrun := injectAll_accepted derived fs
  have hfault : (derived.attemptAll fs).fault = (derived.accepted fs).getLast? :=
    (fault_injectAll hrun).trans Option.or_none
  refine ⟨(sameShape_injectAll hrun).intact, hfault, ?_, (SameShape.refl derived).accepted_eq fs⟩
  rw [hfault, List.getLast?_eq_none_iff]

end VerifierBench.DecisionTree
