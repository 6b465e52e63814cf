import Mathlib.Tactic.Lemma
import VerifierBench.Proofs.Source.Stream

/-! Mixed sources, draw by draw. Every draw goes to one of two sources, so the states of both advance at
rates of their own; after `n` draws with period `p`, the second source has given `n / p` words and the
first one the others. Mixtures of mixtures give the words that follow from this by composition. -/
namespace VerifierBench

/-- Two sources that are drawn from in turn, and how often they were. -/
structure Interleaving (σ τ : Type) where
  primary : σ
  secondary : τ
  period : ℕ
  drawn : ℕ

/-- The word of draw number `n + 1` if every `period`-th draw takes the next word of the second stream
and all others take the next word of the first. -/
def interleaved (first second : ℕ → Int32) (period n : ℕ) : Int32 :=
  if period ∣ n + 1 then second ((n + 1) / period - 1) else first (n - (n + 1) / period)

section Interleaved
variable {first second : ℕ → Int32} {period n : ℕ}

lemma interleaved_of_dvd (h : period ∣ n + 1) :
    interleaved first second period n = second (n / period) := by
  rw [interleaved, if_pos h, Nat.succ_div_of_dvd h, Nat.add_sub_cancel]

lemma interleaved_of_not_dvd (h : ¬ period ∣ n + 1) :
    interleaved first second period n = first (n - n / period) := by
  rw [interleaved, if_neg h, Nat.succ_div_of_not_dvd h]

/-- The draws at multiples of the period give the second stream from its start on, in order. -/
theorem map_interleaved_dvd (first second : ℕ → Int32) (period n : ℕ) :
    ((List.range n).filter fun k => period ∣ k + 1).map (interleaved first second period) =
      (List.range (n / period)).map second := by
  induction n with
  | zero => simp
  | succ n ih =>
    rw [List.range_succ, List.filter_append, List.map_append, ih]
    by_cases h : period ∣ n + 1
    · simp [Nat.succ_div_of_dvd h, List.range_succ, h, interleaved_of_dvd h]
    · simp [Nat.succ_div_of_not_dvd h, h]

/-- The other draws give the first stream from its start on, in order. -/
theorem map_interleaved_not_dvd (first second : ℕ → Int32) (period n : ℕ) :
    ((List.range n).filter fun k => ¬ period ∣ k + 1).map (interleaved first second period) =
      (List.range (n - n / period)).map first := by
  induction n with
  | zero => simp
  | succ n ih =>
    have hle := Nat.div_le_self n period
    rw [List.range_succ, List.filter_append, List.map_append, ih]
    by_cases h : period ∣ n + 1
    · have hcount : n + 1 - (n / period + 1) = n - n / period := by omega
      simp [Nat.succ_div_of_dvd h, h, hcount]
    · have hcount : n + 1 - n / period = n - n / period + 1 := by omega
      simp [Nat.succ_div_of_not_dvd h, h, hcount, List.range_succ, interleaved_of_not_dvd h]

end Interleaved

namespace Nondet
variable {σ τ : Type} {first : Nondet σ} {second : Nondet τ} {ss : ℕ → σ} {ts : ℕ → τ}
  {xs ys : ℕ → Int32}

/-- Any two sources as one: every `period`-th word is drawn from the second. -/
def interleave (first : Nondet σ) (second : Nondet τ) : Nondet (Interleaving σ τ) where
  draw i :=
    if (i.drawn + 1) % i.period = 0 then
      (second.draw i.secondary).map fun (x, t) =>
        (x, { i with secondary := t, drawn := i.drawn + 1 })
    else
      (first.draw i.primary).map fun (x, s) => (x, { i with primary := s, drawn := i.drawn + 1 })

/-- A draw advances the source it goes to by one word and leaves the other one alone. -/
theorem Draws.interleave (hfirst : first.Draws ss xs) (hsecond : second.Draws ts ys) (period : ℕ) :
    (first.interleave second).Draws (fun n => ⟨ss (n - n / period), ts (n / period), period, n⟩)
      (interleaved xs ys period) := by
  intro n
  have hle := Nat.div_le_self n period
  -- The quotient goes up by one at multiples of the period and the difference everywhere else.
  by_cases h : period ∣ n + 1
  · have hcount : n + 1 - (n / period + 1) = n - n / period := by omega
    simp only [Nondet.interleave, if_pos (Nat.mod_eq_zero_of_dvd h), hsecond (n / period), Except.map,
      interleaved_of_dvd h, Nat.succ_div_of_dvd h, hcount]
  · have hmod : (n + 1) % period ≠ 0 := fun hmod => h (Nat.dvd_of_mod_eq_zero hmod)
    have hcount : n + 1 - n / period = n - n / period + 1 := by omega
    simp only [Nondet.interleave, if_neg hmod, hfirst (n - n / period), Except.map,
      interleaved_of_not_dvd h, Nat.succ_div_of_not_dvd h, hcount]

/-- A source that draws as another one, state by state, gives the same words. -/
lemma Draws.of_draw_eq {source : Nondet σ} {other : Nondet τ} {f : σ → τ}
    (hdraw : ∀ s, other.draw (f s) = (source.draw s).map fun (x, s) => (x, f s))
    (h : source.Draws ss xs) : other.Draws (fun n => f (ss n)) xs := by
  intro n
  rw [hdraw, h n]
  rfl

end Nondet

namespace Source

/-- Two built-in sources, mixed, as a built-in source. -/
def ofInterleaving (i : Interleaving Source Source) : Source :=
  .interleave i.primary i.secondary i.period i.drawn

/-- The built-in mix is the mix of any two sources, for built-in ones. -/
lemma draw_ofInterleaving (i : Interleaving Source Source) :
    nondet.draw (ofInterleaving i) =
      ((nondet.interleave nondet).draw i).map fun (x, i) => (x, ofInterleaving i) := by
  obtain ⟨primary, secondary, period, drawn⟩ := i
  have hmix : nondet.draw (ofInterleaving ⟨primary, secondary, period, drawn⟩) =
      draw (.interleave primary secondary period drawn) := rfl
  rw [hmix, draw]
  simp only [Nondet.interleave]
  split
  · change _ = (secondary.draw.map _).map _
    cases secondary.draw <;> rfl
  · change _ = (primary.draw.map _).map _
    cases primary.draw <;> rfl

theorem supplies_mix {primary secondary : Source} {xs ys : ℕ → Int32}
    (hprimary : nondet.Supplies primary xs) (hsecondary : nondet.Supplies secondary ys)
    (period : ℕ) :
    nondet.Supplies (.mix primary secondary period) (interleaved xs ys (max period 1)) := by
  obtain ⟨ss, rfl, hss⟩ := hprimary
  obtain ⟨ts, rfl, hts⟩ := hsecondary
  refine ⟨_, ?_, (Nondet.Draws.interleave hss hts (max period 1)).of_draw_eq draw_ofInterleaving⟩
  simp only [Nat.zero_div, Nat.sub_self]
  rfl

end Source

/-- How a source is put together from lists, random words and mixes of two. -/
inductive Mixture
  | fixed (values : List Int32)
  | boundary
  | random (seed : UInt64) (range : Option WordRange)
  | mix (primary secondary : Mixture) (period : ℕ)

namespace Mixture

def source : Mixture → Source
  | fixed values => .fixed values
  | boundary => .boundary
  | random seed range => .seeded seed range
  | mix primary secondary period => .mix primary.source secondary.source period

/-- The random sources in a mixture. -/
def randoms : Mixture → List (UInt64 × Option WordRange)
  | fixed _ => []
  | boundary => []
  | random seed range => [(seed, range)]
  | mix primary secondary _ => primary.randoms ++ secondary.randoms

/-- The words of a mixture, given those of random sources. -/
def words (outputs : UInt64 × Option WordRange → ℕ → Int32) : Mixture → ℕ → Int32
  | fixed values => Source.replayed values
  | boundary => Source.replayed Source.boundaryValues
  | random seed range => outputs (seed, range)
  | mix primary secondary period =>
    interleaved (primary.words outputs) (secondary.words outputs) (max period 1)

/-- What the random sources in a mixture give determines every draw from it. -/
theorem supplies (m : Mixture) {outputs : UInt64 × Option WordRange → ℕ → Int32}
    (h : ∀ k ∈ m.randoms, Source.nondet.Supplies (.seeded k.1 k.2) (outputs k)) :
    Source.nondet.Supplies m.source (m.words outputs) := by
  induction m with
  | fixed values => exact Source.supplies_fixed values
  | boundary => exact Source.supplies_fixed Source.boundaryValues
  | random seed range => exact h (seed, range) (List.mem_singleton.mpr rfl)
  | mix primary secondary period ihprimary ihsecondary =>
    exact Source.supplies_mix (ihprimary fun k hk => h k (List.mem_append_left _ hk))
      (ihsecondary fun k hk => h k (List.mem_append_right _ hk)) period

end Mixture

/-- Draw number `n + 1` from two sources with period `p` is word number `(n + 1) / p` of the second one
if `p` divides `n + 1`, and word number `n + 1 - (n + 1) / p` of the first one if not. A source
advances only in the draws that go to it, so both give their words in order, none left out and none
twice. The built-in mix draws like this too, and so does a mixture of mixtures at every level. -/
theorem Nondet.mixed_draws_exact {σ τ : Type} {first : Nondet σ} {second : Nondet τ} {ss : ℕ → σ}
    {ts : ℕ → τ} {xs ys : ℕ → Int32} (hfirst : first.Draws ss xs) (hsecond : second.Draws ts ys)
    (period : ℕ) :
    ∃ p words, p = max period 1 ∧
      (first.interleave second).Draws (fun n => ⟨ss (n - n / p), ts (n / p), p, n⟩) words ∧
      (∀ n, words n =
        if p ∣ n + 1 then ys ((n + 1) / p - 1) else xs (n + 1 - (n + 1) / p - 1)) ∧
      (∀ n, ((List.range n).filter fun k => p ∣ k + 1).map words = (List.range (n / p)).map ys) ∧
      (∀ n, ((List.range n).filter fun k => ¬ p ∣ k + 1).map words =
        (List.range (n - n / p)).map xs) ∧
      (∀ primary secondary, Source.mix primary secondary period =
        .ofInterleaving ⟨primary, secondary, p, 0⟩) ∧
      (∀ i, Source.nondet.draw (.ofInterleaving i) =
        ((Source.nondet.interleave Source.nondet).draw i).map fun (x, i) =>
          (x, Source.ofInterleaving i)) ∧
      ∀ (m : Mixture) (outputs : UInt64 × Option WordRange → ℕ → Int32),
        (∀ k ∈ m.randoms, Source.nondet.Supplies (.seeded k.1 k.2) (outputs k)) →
          Source.nondet.Supplies m.source (m.words outputs) := by
  refine ⟨max period 1, interleaved xs ys (max period 1), rfl, hfirst.interleave hsecond _, ?_,
    map_interleaved_dvd xs ys _, map_interleaved_not_dvd xs ys _, fun _ _ => rfl,
    Source.draw_ofInterleaving, fun m _ => m.supplies⟩
  intro n
  rw [interleaved, Nat.sub_right_comm, Nat.add_sub_cancel]

/-- Sevens with a boundary word at every third place, and a mix inside another one. -/
theorem Nondet.mixed_draws_of_sevens :
    Source.nondet.Draws (Source.replaying [7]) (Source.replayed [7]) ∧
    Source.nondet.Draws (Source.replaying Source.boundaryValues)
      (Source.replayed Source.boundaryValues) ∧
    (∃ words, (Source.nondet.interleave Source.nondet).Draws (fun n =>
        ⟨Source.replaying [7] (n - n / 3), Source.replaying Source.boundaryValues (n / 3), 3, n⟩)
        words ∧ (List.range 7).map words = [7, 7, 0, 7, 7, 1, 7]) ∧
    ∃ words, Source.nondet.Supplies (.mix (.mix (.seeded 42 none) (.fixed [7]) 2) .boundary 3)
      words ∧ words 1 = 7 ∧ words 2 = 0 := by
  have hsevens := Source.draws_fixed [7]
  have hboundary := Source.draws_fixed Source.boundaryValues
  obtain ⟨p, words, rfl, hdraws, hwords, -, -, -, -, hmixture⟩ :=
    mixed_draws_exact hsevens hboundary 3
  have hnested := hmixture (.mix (.mix (.random 42 none) (.fixed [7]) 2) .boundary 3)
    (fun k => Source.randomWords k.1) (by
      intro k hk
      obtain rfl : k = (42, none) := by simpa [Mixture.randoms] using hk
      exact Source.supplies_seeded 42)
  refine ⟨hsevens, hboundary, ⟨words, hdraws, ?_⟩, _, hnested, by decide, by decide⟩
  rw [funext hwords]
  decide

end VerifierBench
