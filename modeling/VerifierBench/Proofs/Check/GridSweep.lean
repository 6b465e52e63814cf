import VerifierBench.Check.Service
import VerifierBench.Proofs.Campaign.Accounting
import VerifierBench.Proofs.Source.Odometer

/-! Sweep requests. The service accepts a grid that is not empty and whose size is a 64-bit number,
and then every sextuple over its range is one case. -/
namespace VerifierBench

namespace Grid
variable {low high : Int32}

lemma width_between (low high : Int32) :
    ((between low high).width : ℤ) = max 0 (high.toInt - low.toInt + 1) := by
  change ((high.toInt - low.toInt + 1).toNat : ℤ) = _
  omega

lemma checkedSize_map_toNat (g : Grid) :
    g.checkedSize.map UInt64.toNat = if g.size < UInt64.size then some g.size else none := by
  rw [checkedSize]
  split
  · next h => exact congrArg some (UInt64.toNat_ofNat_of_lt' h)
  · rfl

lemma toNat_saturatedSize (g : Grid) : g.saturatedSize.toNat = min g.size (UInt64.size - 1) := by
  rw [saturatedSize, checkedSize]
  split
  · next h =>
    rw [Option.getD_some, UInt64.toNat_ofNat_of_lt' h]
    omega
  · next h =>
    rw [Option.getD_none, UInt64.toNat_ofNat_of_lt' (by decide)]
    omega

lemma isEmpty_between_iff : (between low high).isEmpty = true ↔ high < low := by
  have hwidth := width_between low high
  rw [isEmpty, beq_iff_eq, Int32.lt_iff_toInt_lt]
  omega

lemma isNone_checkedSize_iff (g : Grid) : g.checkedSize.isNone = true ↔ UInt64.size ≤ g.size := by
  rw [checkedSize]
  split <;> simp <;> omega

end Grid

namespace CheckRequest

/-- A sweep is refused for its domain first, and then for its fault. -/
lemma perform_sweep (limit : UInt64) (low high : Int32) (fault : Option Fault) (failFast : Bool) :
    (sweep low high fault failFast).perform limit =
      if high < low ∨ UInt64.size ≤ (Grid.between low high).size then
        .error (.invalidDomain low high)
      else (treeWith fault).map fun t =>
        let swept := t.sweep .recorder failFast (.ofGrid (.between low high)) #[]
        campaignOutcome t swept.1 swept.2
          ("sweep_" ++ wordText low ++ "_" ++ wordText high ++ ".json") := by
  have hguard : ((Grid.between low high).isEmpty || (Grid.between low high).checkedSize.isNone)
      = true ↔ high < low ∨ UInt64.size ≤ (Grid.between low high).size := by
    rw [Bool.or_eq_true, Grid.isEmpty_between_iff, Grid.isNone_checkedSize_iff]
  rw [perform]
  split
  · next h => rw [if_pos (hguard.mp h)]
  · next h =>
    rw [if_neg (hguard.not.mp h)]
    cases treeWith fault <;> rfl

lemma respond_sweep_eq_ok_iff {limit : UInt64} {low high : Int32} {fault : Option Fault}
    {failFast : Bool} {response : CheckResponse} :
    (sweep low high fault failFast).respond limit = .ok response ↔
      low ≤ high ∧ (Grid.between low high).size < UInt64.size ∧
      ∃ t, treeWith fault = .ok t ∧
        let swept := t.sweep .recorder failFast (.ofGrid (.between low high)) #[]
        response = ⟨.ofRecords swept.2.toList, .campaign (.ofReport t swept.1)⟩ := by
  rw [respond, perform_sweep]
  split
  · next h =>
    constructor
    · intro hresponse
      cases hresponse
    · rintro ⟨hle, hlt, -⟩
      rcases h with hempty | hlarge
      · exact absurd hempty (Int32.not_lt.mpr hle)
      · omega
  · next h =>
    rw [not_or, Int32.not_lt, Nat.not_le] at h
    cases hfault : treeWith fault with
    | error e => simp [Except.map]
    | ok t => simp [Except.map, h, campaignOutcome, eq_comm]

lemma exists_respond_sweep_iff {limit : UInt64} {low high : Int32} {fault : Option Fault}
    {failFast : Bool} :
    (∃ response, (sweep low high fault failFast).respond limit = .ok response) ↔
      low ≤ high ∧ (Grid.between low high).size < UInt64.size ∧
      ∃ t, treeWith fault = .ok t := by
  constructor
  · rintro ⟨response, h⟩
    obtain ⟨hle, hlt, t, ht, -⟩ := respond_sweep_eq_ok_iff.mp h
    exact ⟨hle, hlt, t, ht⟩
  · rintro ⟨hle, hlt, t, ht⟩
    exact ⟨_, respond_sweep_eq_ok_iff.mpr ⟨hle, hlt, t, ht, rfl⟩⟩

/-- A sweep that does not fail fast takes every sextuple over the range as a case. -/
lemma cases_of_respond_sweep {limit : UInt64} {low high : Int32} {fault : Option Fault}
    {response : CheckResponse} (h : (sweep low high fault false).respond limit = .ok response) :
    ∃ summary, response.details = .campaign summary ∧
      summary.cases = (Grid.between low high).size := by
  obtain ⟨-, -, t, -, rfl⟩ := respond_sweep_eq_ok_iff.mp h
  have hcases := (t.accounts_sweep Sink.recorder false
    (Supply.ofGrid (.between low high)) #[]).cases_eq
  rw [t.processed_false, Supply.length_ofGrid_between] at hcases
  exact ⟨_, rfl, hcases⟩

end CheckRequest

/-- A grid gives out every sextuple over its range once and in lexicographic order, the words being
exact sums, and nothing after that; so does the odometer. The sizes are those of the list, and a
sweep request is answered with that many cases. -/
theorem Grid.enumeration_exact (low high : Int32) :
    ∃ (w : ℕ) (vs : List Sextuple),
      (w : ℤ) = max 0 (high.toInt - low.toInt + 1) ∧
      (∀ k, nthAnswer call k (between low high) = vs[k]?) ∧
      (∀ k, nthAnswer Odometer.call k (.between low high) = vs[k]?) ∧
      (∀ v, v ∈ vs ↔ ∀ p, low ≤ v.get p ∧ v.get p ≤ high) ∧
      vs.Nodup ∧ (vs.Pairwise fun u v => u.toList < v.toList) ∧
      vs.length = w ^ 6 ∧ (high < low → vs = []) ∧
      (∀ k v, vs[k]? = some v → ∀ p,
        (v.get p).toInt = low.toInt + (k / w ^ (5 - p.index) % w : ℕ)) ∧
      (between low high).checkedSize.map UInt64.toNat =
        (if w ^ 6 < 2 ^ 64 then some (w ^ 6) else none) ∧
      (between low high).saturatedSize.toNat = min (w ^ 6) (2 ^ 64 - 1) ∧
      ∀ limit fault,
        ((∃ response, (CheckRequest.sweep low high fault false).respond limit = .ok response) ↔
          low ≤ high ∧ w ^ 6 < 2 ^ 64 ∧ ∃ t, CheckRequest.treeWith fault = .ok t) ∧
        ∀ response, (CheckRequest.sweep low high fault false).respond limit = .ok response →
          ∃ summary, response.details = .campaign summary ∧
            (summary.cases : ℤ) = (high.toInt - low.toInt + 1) ^ 6 := by
  obtain ⟨w, hwidth⟩ : ∃ w, (between low high).width = w := ⟨_, rfl⟩
  have hw : (w : ℤ) = max 0 (high.toInt - low.toInt + 1) := hwidth ▸ width_between low high
  have hsize : (between low high).size = w ^ 6 := congrArg (· ^ 6) hwidth
  have hlength : (Supply.ofGrid (between low high)).toList.length = w ^ 6 :=
    (Supply.length_ofGrid_between low high).trans hsize
  refine ⟨w, (Supply.ofGrid (between low high)).toList, hw, nthAnswer_between low high, ?_,
    fun v => Supply.mem_ofGrid_between, nodup_ofGrid_between low high,
    pairwise_ofGrid_between low high, hlength, ?_, ?_, ?_, ?_, ?_⟩
  · intro k
    rw [Odometer.nthAnswer_between, nthAnswer_between]
  · intro hempty
    rw [Int32.lt_iff_toInt_lt] at hempty
    have hzero : w = 0 := by omega
    exact List.eq_nil_of_length_eq_zero (by rw [hlength, hzero]; rfl)
  · intro k v hv p
    rw [← hwidth]
    exact toInt_get_of_getElem? hv p
  · rw [checkedSize_map_toNat, hsize]
    rfl
  · rw [toNat_saturatedSize, hsize]
    rfl
  · intro limit fault
    refine ⟨by rw [CheckRequest.exists_respond_sweep_iff, hsize]; rfl, ?_⟩
    intro response h
    obtain ⟨summary, hdetails, hcases⟩ := CheckRequest.cases_of_respond_sweep h
    have hle := (CheckRequest.exists_respond_sweep_iff.mp ⟨response, h⟩).1
    have hpos : (w : ℤ) = high.toInt - low.toInt + 1 := by
      rw [Int32.le_iff_toInt_le] at hle
      omega
    refine ⟨summary, hdetails, ?_⟩
    rw [hcases, hsize, ← hpos]
    exact Nat.cast_pow w 6

end VerifierBench
