import VerifierBench.Proofs.Json.Form
import VerifierBench.Proofs.Json.Text
import VerifierBench.Wire.Tree

/-! The JSON forms of sextuples and faults: reading undoes writing, and changes that a form tolerates go
unnoticed. -/
namespace VerifierBench
open Json

namespace Position

lemma faithful : Faithful toJson ofJson? where
  read_write p := by cases p <;> rfl
  write_ne_null _ := Json.noConfusion

lemma readable {depth : ℕ} (p : Position) : Readable depth p.toJson := .str _

end Position

namespace Sextuple

lemma faithful : Faithful toJson ofJson? where
  read_write v := by
    rw [ofJson?, toJson, (faithful_int32.ofList).read_write]
    exact Slots.ofList?_toList v
  write_ne_null _ := Json.noConfusion

lemma readable {depth : ℕ} (v : Sextuple) : Readable (depth + 1) v.toJson :=
  readable_ofList readable_int32 _

end Sextuple

namespace Comparison

def form : Form := .record [("lhs", .plain), ("rhs", .plain)] []

lemma faithful : Faithful toJson ofJson? where
  read_write c := by
    have hfields : record? ["lhs", "rhs"] c.toJson = some [some c.lhs.toJson, some c.rhs.toJson] :=
      members?_of_nodup (by simp)
    simp only [ofJson?, hfields, Option.bind_eq_bind, Option.bind_some, required?, Option.pure_def,
      Position.faithful.read_write]
  write_ne_null _ := Json.noConfusion

lemma readable {depth : ℕ} (c : Comparison) : Readable (depth + 1) c.toJson :=
  .obj (by simp) (by simpa using ⟨c.lhs.readable, c.rhs.readable⟩)

lemma described (c : Comparison) : form.Describes c.toJson :=
  .record (.present .plain (.present .plain .nil))

lemma unnoticed : form.UnnoticedBy ofJson? := by
  refine Form.unnoticedBy_bind (fun _ _ h => h.record? (by decide)) ?_
  rintro _ _ (_ | ⟨hlhs, _ | ⟨hrhs, ⟨⟩⟩⟩)
  rw [hlhs.eq_of_plain (by simp), hrhs.eq_of_plain (by simp)]

end Comparison

namespace FaultSite

def form : Form :=
  .variants [("MaxGuard", .record [("candidate", .plain)] []),
    ("MinGuard", .record [("max", .plain), ("candidate", .plain)] [])]

lemma faithful : Faithful toJson ofJson? where
  read_write s := by
    cases s with
    | maxGuard p =>
      have hread : ofJson? (toJson (maxGuard p)) =
          (do return maxGuard (← Position.ofJson? p.toJson)) := rfl
      rw [hread, Position.faithful.read_write]
      rfl
    | minGuard m p =>
      have hread : ofJson? (toJson (minGuard m p)) =
          (do return minGuard (← Position.ofJson? m.toJson) (← Position.ofJson? p.toJson)) := rfl
      rw [hread, Position.faithful.read_write, Position.faithful.read_write]
      rfl
  write_ne_null s := by cases s <;> exact Json.noConfusion

lemma readable {depth : ℕ} (s : FaultSite) : Readable (depth + 2) s.toJson := by
  cases s with
  | maxGuard p =>
    have hpayload : Readable (depth + 1) (obj [("candidate", p.toJson)]) :=
      .obj (by simp) (by simpa using p.readable)
    exact .obj (by simp) (by simpa using hpayload)
  | minGuard m p =>
    have hpayload : Readable (depth + 1) (obj [("max", m.toJson), ("candidate", p.toJson)]) :=
      .obj (by simp) (by simpa using ⟨m.readable, p.readable⟩)
    exact .obj (by simp) (by simpa using hpayload)

lemma described (s : FaultSite) : form.Describes s.toJson := by
  cases s with
  | maxGuard p => exact .payload (.head _) (.record (.present .plain .nil))
  | minGuard m p =>
    exact .payload (.tail _ (.head _)) (.record (.present .plain (.present .plain .nil)))

lemma unnoticed : form.UnnoticedBy ofJson? := by
  refine Form.unnoticedBy_variants fun payload hpayload => ?_
  rcases hpayload with _ | ⟨_, _ | ⟨_, ⟨⟩⟩⟩
  · refine Form.unnoticedBy_bind (fun _ _ h => h.members? (by decide)) ?_
    rintro _ _ (_ | ⟨hcandidate, ⟨⟩⟩)
    rw [hcandidate.eq_of_plain (by simp)]
  · refine Form.unnoticedBy_bind (fun _ _ h => h.members? (by decide)) ?_
    rintro _ _ (_ | ⟨hmax, _ | ⟨hcandidate, ⟨⟩⟩⟩)
    rw [hmax.eq_of_plain (by simp), hcandidate.eq_of_plain (by simp)]

end FaultSite

namespace Fault

def form : Form :=
  .record [("site", FaultSite.form), ("conjunct", .plain), ("replacement", Comparison.form)] []

lemma faithful : Faithful toJson ofJson? where
  read_write f := by
    have hfields : record? ["site", "conjunct", "replacement"] f.toJson =
        some [some f.site.toJson, some (ofUInt64 f.conjunct), some f.replacement.toJson] :=
      members?_of_nodup (by simp)
    simp only [ofJson?, hfields, Option.bind_eq_bind, Option.bind_some, required?, Option.pure_def,
      FaultSite.faithful.read_write, faithful_uint64.read_write, Comparison.faithful.read_write]
  write_ne_null _ := Json.noConfusion

lemma readable {depth : ℕ} (f : Fault) : Readable (depth + 3) f.toJson :=
  .obj (by simp) (by simpa using ⟨f.site.readable, readable_uint64 _, f.replacement.readable⟩)

lemma described (f : Fault) : form.Describes f.toJson :=
  .record (.present f.site.described (.present .plain (.present f.replacement.described .nil)))

lemma unnoticed : form.UnnoticedBy ofJson? := by
  refine Form.unnoticedBy_bind (fun _ _ h => h.record? (by decide)) ?_
  rintro _ _ (_ | ⟨hsite, _ | ⟨hconjunct, _ | ⟨hreplacement, ⟨⟩⟩⟩⟩)
  simp only [hsite.required? FaultSite.unnoticed (by simp), hconjunct.eq_of_plain (by simp),
    hreplacement.required? Comparison.unnoticed (by simp)]

end Fault
end VerifierBench
