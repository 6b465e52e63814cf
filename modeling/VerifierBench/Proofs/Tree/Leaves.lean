import VerifierBench.Proofs.Tree.Shape

/-! The leaves of a tree. A fault changes what guards compare and not what they choose between, so
all trees with faults have the leaves of the derived tree. -/
namespace VerifierBench

/-- Leaves are told apart by their texts. -/
lemma Leaf.text_inj {k l : Leaf} : k.text = l.text ↔ k = l := by
  rcases k with ⟨kMax, kMin⟩
  rcases l with ⟨lMax, lMin⟩
  rw [Leaf.mk.injEq, ← String.toList_inj]
  simp [Leaf.text, Position.name, Position.letter_inj]

namespace DecisionTree

theorem leaves_injectAll {fs : List Fault} {t t' : DecisionTree} (h : t.injectAll fs = .ok t') :
    t'.leaves = t.leaves :=
  (sameShape_injectAll h).leaves

lemma nodup_leaves_derived : derived.leaves.Nodup := by decide

lemma max_ne_min_of_mem_leaves_derived : ∀ l ∈ derived.leaves, l.max ≠ l.min := by decide

theorem leaf_mem_leaves (t : DecisionTree) (v : Sextuple) : (t.select v).leaf ∈ t.leaves := by
  rw [leaves, List.mem_flatMap]
  exact ⟨t.max.resolve v, t.max.resolve_mem_outcomes v,
    List.mem_map_of_mem ((t.min.get (t.max.resolve v)).resolve_mem_outcomes v)⟩

end DecisionTree
end VerifierBench
