import VerifierBench.Proofs.Campaign.Accounting
import VerifierBench.Proofs.Campaign.Repeated
import VerifierBench.Proofs.Source.Stream

/-! Campaigns on a stream of words. A campaign looks at consecutive blocks of six words, in the order
of the positions, and leaves the source behind the last block looked at. -/
namespace VerifierBench

namespace Sextuple

/-- The six words of a stream from the `k`-th on. -/
def ofStream (words : ℕ → Int32) (k : ℕ) : Sextuple := .ofFn fun p => words (k + p.index)

/-- So many sextuples of a stream, one behind the other. -/
def blocks (words : ℕ → Int32) (k : ℕ) : ℕ → List Sextuple
  | 0 => []
  | n + 1 => ofStream words k :: blocks words (k + 6) n

@[simp] lemma length_blocks (words : ℕ → Int32) (k n : ℕ) : (blocks words k n).length = n := by
  induction n generalizing k with
  | zero => rfl
  | succ n ih => rw [blocks, List.length_cons, ih]

lemma getElem?_blocks (words : ℕ → Int32) {k n j : ℕ} (h : j < n) :
    (blocks words k n)[j]? = some (ofStream words (k + 6 * j)) := by
  induction n generalizing k j with
  | zero => cases h
  | succ n ih =>
    cases j with
    | zero => rfl
    | succ j =>
      rw [blocks, List.getElem?_cons_succ, ih (Nat.lt_of_succ_lt_succ h)]
      congr 2
      omega

lemma take_blocks (words : ℕ → Int32) {k n j : ℕ} (h : j ≤ n) :
    (blocks words k n).take j = blocks words k j := by
  induction j generalizing k n with
  | zero => rfl
  | succ j ih =>
    obtain ⟨n, rfl⟩ := Nat.exists_eq_add_one_of_ne_zero (Nat.ne_zero_of_lt h)
    rw [blocks, blocks, List.take_succ_cons, ih (Nat.le_of_succ_le_succ h)]

/-- A front part of the blocks is a row of blocks itself. -/
lemma eq_blocks_of_prefix {words : ℕ → Int32} {k n : ℕ} {vs : List Sextuple}
    (h : vs <+: blocks words k n) : vs = blocks words k vs.length := by
  have hle := h.length_le
  rw [length_blocks] at hle
  rw [← take_blocks words hle]
  exact List.prefix_iff_eq_take.mp h

/-- Blocks, word by word, are the stream. -/
lemma flatMap_blocks (words : ℕ → Int32) (k n : ℕ) :
    (blocks words k n).flatMap Slots.toList = (List.range' k (6 * n)).map words := by
  induction n generalizing k with
  | zero => rfl
  | succ n ih =>
    rw [blocks, List.flatMap_cons, ih, Nat.mul_succ, Nat.add_comm (6 * n), ← List.range'_append_1,
      List.map_append]
    rfl

end Sextuple

section Draws
variable {σ μ : Type} {source : Nondet σ} {states : ℕ → σ} {words : ℕ → Int32}

lemma Nondet.Draws.drawSextuple_eq (h : source.Draws states words) (k : ℕ) :
    source.drawSextuple (states k) = .ok (Sextuple.ofStream words k, states (k + 6)) := by
  unfold Draws at h
  simp only [drawSextuple, h, bind, Except.bind]
  rfl

namespace DecisionTree

/-- Repeated runs take the blocks of their stream as a sweep takes its supply, and six words for each
block. -/
theorem drawProcessed_eq (h : source.Draws states words) (t : DecisionTree) (failFast : Bool)
    (n k : ℕ) :
    t.drawProcessed source failFast n (states k) =
      .ok (t.processed failFast (Sextuple.blocks words k n),
        states (k + 6 * (t.processed failFast (Sextuple.blocks words k n)).length)) := by
  induction n generalizing k with
  | zero => rfl
  | succ n ih =>
    simp only [drawProcessed, h.drawSextuple_eq, Sextuple.blocks, processed, ih]
    split
    · rfl
    · -- The first sextuple took six words, so the rest starts six words later.
      have hlast : ∀ len, k + 6 + 6 * len = k + 6 * (len + 1) := fun len => by omega
      simp only [Except.map, List.length_cons, hlast]

theorem campaignFrom_eq (h : source.Draws states words)
    (t : DecisionTree) (sink : Sink μ) (failFast : Bool) (n k : ℕ) (r : CampaignReport) (m : μ) :
    t.campaignFrom source sink failFast n r (states k) m =
      .ok (t.recordAll (t.processed failFast (Sextuple.blocks words k n)) r,
        states (k + 6 * (t.processed failFast (Sextuple.blocks words k n)).length),
        t.reachAll sink (t.processed failFast (Sextuple.blocks words k n)) m) := by
  rw [campaignFrom_eq_map, runRepeatedly_eq_map, drawProcessed_eq h]
  simp only [Except.map, List.foldl_map]
  rfl

/-- On a source that supplies a stream every campaign succeeds. -/
theorem campaign_eq {s : σ} (h : source.Supplies s words) (t : DecisionTree) (sink : Sink μ)
    (failFast : Bool) (cases : UInt64) (m : μ) :
    ∃ s', t.campaign source sink failFast cases s m =
      .ok (t.recordAll (t.processed failFast (Sextuple.blocks words 0 cases.toNat)) .empty, s',
        t.reachAll sink (t.processed failFast (Sextuple.blocks words 0 cases.toNat)) m) := by
  obtain ⟨states, rfl, hdraw⟩ := h
  exact ⟨_, campaignFrom_eq hdraw t sink failFast cases.toNat 0 .empty m⟩

end DecisionTree
end Draws
end VerifierBench
