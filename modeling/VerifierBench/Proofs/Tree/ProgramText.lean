import Mathlib.Combinatorics.Enumerative.DyckWord
import VerifierBench.Proofs.Tree.Attempts
import VerifierBench.Proofs.Tree.ProgramReader

/-! The text of a tree as a program. The text can be written in one pass over the branches that leaves
each `else` block open and closes all of them at the end. It reads as one nested program, which assigns
the positions that the tree picks; and it determines all guards, so trees with one text agree in all
cascades. -/
namespace VerifierBench

namespace Cascade
open Program (indent guardText)
variable {body : Position → ℕ → String} {leaf : Position → Program} {v : Sextuple}

/-- Writes a branch behind a text at some depth. Its `else` block stays open, so all that follows is
one step deeper. -/
def writeBranch (body : Position → ℕ → String) (e : Extremum) (written : String × ℕ) (b : Branch) :
    String × ℕ :=
  let (text, depth) := written
  (text ++ indent depth ++ "if (" ++ guardText e b.guard ++ ") \x7b\n" ++
    body b.candidate (depth + 1) ++ indent depth ++ "\x7d else \x7b\n", depth + 1)

/-- Writes the branches, then the fallback, and then closes the open blocks, the innermost first. -/
def write (body : Position → ℕ → String) (c : Cascade) (depth : ℕ) : String :=
  let opened := c.branches.foldl (writeBranch body c.extremum) ("", depth)
  (List.range c.branches.length).reverse.foldl
    (fun text level => text ++ indent (opened.2 - (c.branches.length - level)) ++ "\x7d\n")
    (opened.1 ++ body c.fallback opened.2)

lemma depth_writeBranch (body : Position → ℕ → String) (e : Extremum) (bs : List Branch)
    (text : String) (depth : ℕ) :
    (bs.foldl (writeBranch body e) (text, depth)).2 = depth + bs.length := by
  induction bs generalizing text depth with
  | nil => rfl
  | cons b bs ih =>
    rw [List.foldl_cons, List.length_cons]
    exact (ih _ (depth + 1)).trans (by omega)

lemma program_cons (e : Extremum) (b : Branch) (bs : List Branch) (fallback : Position)
    (leaf : Position → Program) : program ⟨e, b :: bs, fallback⟩ leaf =
      .branch e b.guard (leaf b.candidate) (program ⟨e, bs, fallback⟩ leaf) .done := rfl

/-- By induction on the branches, for any text in front: the last block to be closed is the one that
the first branch left open. -/
lemma close_opened (hbody : ∀ p depth, body p depth = (leaf p).render depth) (e : Extremum)
    (bs : List Branch) (fallback : Position) (text : String) (depth : ℕ) :
    (List.range bs.length).reverse.foldl
      (fun text level => text ++ indent (depth + level) ++ "\x7d\n")
      ((bs.foldl (writeBranch body e) (text, depth)).1 ++ body fallback (depth + bs.length)) =
      text ++ (program ⟨e, bs, fallback⟩ leaf).render depth := by
  induction bs generalizing text depth with
  | nil => simp [program, hbody]
  | cons b bs ih =>
    rw [List.foldl_cons, List.length_cons, List.range_succ_eq_map, List.reverse_cons,
      ← List.map_reverse, List.foldl_append, List.foldl_map]
    have hdepth : ∀ level, depth + 1 + level = depth + level.succ := fun level => by omega
    have hrest := ih (writeBranch body e (text, depth) b).1 (depth + 1)
    simp only [hdepth] at hrest
    refine (congrArg (fun inner => inner ++ indent depth ++ "\x7d\n") hrest).trans ?_
    simp only [writeBranch, hbody, program_cons, Program.render, String.append_assoc,
      String.append_empty]

theorem write_eq_render (hbody : ∀ p depth, body p depth = (leaf p).render depth) (c : Cascade)
    (depth : ℕ) : c.write body depth = (c.program leaf).render depth := by
  have hclose := close_opened hbody c.extremum c.branches c.fallback "" depth
  rw [String.empty_append] at hclose
  simp only [write, depth_writeBranch]
  refine Eq.trans ?_ hclose
  apply List.foldl_ext
  intro text level hlevel
  have hlt := List.mem_range.mp (List.mem_reverse.mp hlevel)
  have hdepth : depth + c.branches.length - (c.branches.length - level) = depth + level := by omega
  rw [hdepth]

/-- Running the branches comes down to what is done with the position picked. -/
theorem run_program (c : Cascade) (leaf : Position → Program) (v : Sextuple)
    (s : Option Position × Option Position) :
    (c.program leaf).run v s = (leaf (c.resolve v)).run v s := by
  obtain ⟨e, bs, fallback⟩ := c
  induction bs with
  | nil => rfl
  | cons b bs ih =>
    rw [program_cons, Program.run, resolve_cons, ih, Branch.accepts]
    split <;> rfl

/-- Where assignments stand at the ends, the program shows the guards, and what follows each
assignment that can be reached. -/
theorem program_injective {target : Extremum} {next next' : Position → Program} {c d : Cascade}
    (he : c.extremum = d.extremum)
    (h : (c.program fun p => .assign target p (next p)) =
      d.program fun p => .assign target p (next' p)) :
    c = d ∧ ∀ p ∈ c.outcomes, next p = next' p := by
  obtain ⟨e, bs, x⟩ := c
  obtain ⟨e', ds, y⟩ := d
  obtain rfl : e = e' := he
  induction bs generalizing ds with
  | nil =>
    cases ds with
    | nil =>
      obtain ⟨-, rfl, hnext⟩ := Program.assign.inj h
      exact ⟨rfl, by simpa [outcomes] using hnext⟩
    | cons d ds => cases h
  | cons b bs ih =>
    cases ds with
    | nil => cases h
    | cons d ds =>
      rw [program_cons, program_cons] at h
      obtain ⟨-, hguard, hyes, hno, -⟩ := Program.branch.inj h
      obtain ⟨hrest, hsame⟩ := ih ds hno
      obtain ⟨p, guard⟩ := b
      obtain ⟨q, guard'⟩ := d
      obtain ⟨-, rfl, hnext⟩ := Program.assign.inj hyes
      obtain rfl : guard = guard' := hguard
      cases hrest
      refine ⟨rfl, fun r hr => ?_⟩
      rcases List.mem_cons.mp hr with rfl | hr
      · exact hnext
      · exact hsame r hr

end Cascade

namespace Program

/-- Nested branches on one operator, with an assignment at each end that `after` follows. -/
inductive Decides (e : Extremum) (after : Program → Prop) : Program → Prop
  | assign (p : Position) {next : Program} (hnext : after next) :
      Decides e after (.assign e p next)
  | branch {guard : List Comparison} {yes no : Program} (hguard : guard ≠ [])
      (hyes : Decides e after yes) (hno : Decides e after no) :
      Decides e after (.branch e guard yes no .done)

/-- A decision on the maximum, and behind each assignment one on the minimum. -/
def DecidesBoth : Program → Prop := Decides .max (Decides .min (· = .done))

lemma Decides.guarded {e : Extremum} {after : Program → Prop} {p : Program}
    (hafter : ∀ q, after q → q.Guarded) (h : p.Decides e after) : p.Guarded := by
  induction h with
  | assign p hnext =>
    have hguarded := hafter _ hnext
    exact hguarded
  | branch hguard _ _ hyes hno => exact ⟨hguard, hyes, hno, trivial⟩

lemma DecidesBoth.guarded {p : Program} (h : p.DecidesBoth) : p.Guarded := by
  have hdone : ∀ q : Program, q = .done → q.Guarded := by
    rintro q rfl
    trivial
  exact Decides.guarded (fun _ => Decides.guarded hdone) h

lemma decides_program {e : Extremum} {after : Program → Prop} {c : Cascade}
    {leaf : Position → Program} (he : c.extremum = e) (hguards : ∀ b ∈ c.branches, b.guard ≠ [])
    (hleaf : ∀ p, (leaf p).Decides e after) : (c.program leaf).Decides e after := by
  obtain ⟨e', bs, fallback⟩ := c
  obtain rfl : e' = e := he
  induction bs with
  | nil => exact hleaf fallback
  | cons b bs ih =>
    obtain ⟨hguard, hrest⟩ := List.forall_mem_cons.mp hguards
    exact .branch hguard (hleaf b.candidate) (ih hrest)

/-- The braces of a text in order: an opening one is a step up, a closing one a step down. -/
def braces (cs : List Char) : List DyckStep :=
  cs.filterMap fun c => if c = '{' then some .U else if c = '}' then some .D else none

lemma braces_append (cs ds : List Char) : braces (cs ++ ds) = braces cs ++ braces ds :=
  List.filterMap_append

lemma braces_open (cs : List Char) : braces ('{' :: cs) = .U :: braces cs := rfl

lemma braces_close (cs : List Char) : braces ('}' :: cs) = .D :: braces cs := rfl

lemma braces_cons {c : Char} (hopen : c ≠ '{') (hclose : c ≠ '}') (cs : List Char) :
    braces (c :: cs) = braces cs := by
  simp [braces, hopen, hclose]

lemma braces_letter (p : Position) (cs : List Char) : braces (p.letter :: cs) = braces cs := by
  apply braces_cons <;> cases p <;> decide

lemma braces_operator (e : Extremum) (cs : List Char) : braces (e.operator :: cs) = braces cs := by
  apply braces_cons <;> cases e <;> decide

lemma braces_indent (depth : ℕ) : braces (indent depth).toList = [] := by
  simp [indent, braces]

lemma braces_name (e : Extremum) : braces e.name.toList = [] := by
  cases e <;> rfl

lemma braces_guardText (e : Extremum) (guard : List Comparison) :
    braces (guardText e guard).toList = [] := by
  induction guard with
  | nil => simp [guardText, braces]
  | cons c guard ih =>
    cases guard with
    | nil =>
      rw [toList_guardText_singleton]
      simp (disch := decide) only [braces_cons, braces_letter, braces_operator]
      rfl
    | cons d guard =>
      rw [toList_guardText_cons_cons]
      simp (disch := decide) only [braces_cons, braces_letter, braces_operator, ih]

/-- The braces of a program are a Dyck word: every one has its partner, and they are nested. -/
theorem exists_dyckWord_render (p : Program) (depth : ℕ) :
    ∃ w : DyckWord, w.toList = braces (p.render depth).toList := by
  induction p generalizing depth with
  | done => exact ⟨0, rfl⟩
  | assign e p next ih =>
    obtain ⟨w, hw⟩ := ih depth
    refine ⟨w, ?_⟩
    rw [toList_render_assign]
    simp (disch := decide) only [braces_append, braces_indent, braces_name, braces_cons,
      braces_letter, List.nil_append, hw]
  | branch e guard yes no next ihyes ihno ihnext =>
    obtain ⟨wyes, hyes⟩ := ihyes (depth + 1)
    obtain ⟨wno, hno⟩ := ihno (depth + 1)
    obtain ⟨wnext, hnext⟩ := ihnext depth
    refine ⟨wyes.nest + wno.nest + wnext, ?_⟩
    have hnested : (wyes.nest + wno.nest + wnext).toList =
        ([.U] ++ wyes.toList ++ [.D]) ++ ([.U] ++ wno.toList ++ [.D]) ++ wnext.toList := rfl
    rw [toList_render_branch, hnested, hyes, hno, hnext]
    simp (disch := decide) only [braces_append, braces_indent, braces_guardText, braces_cons,
      braces_open, braces_close, List.nil_append, List.cons_append, List.append_assoc]

end Program

namespace DecisionTree
open Program (indent)
variable {t u : DecisionTree}

/-- The text of a tree, written in one pass over each cascade. -/
def written (t : DecisionTree) : String :=
  t.max.write (fun max depth =>
    indent depth ++ "max = " ++ max.name ++ ";\n" ++
      (t.min.get max).write (fun min depth => indent depth ++ "min = " ++ min.name ++ ";\n") depth) 0

lemma written_eq_text (t : DecisionTree) : t.written = t.text := by
  rw [written, text, program]
  apply Cascade.write_eq_render
  intro max depth
  have hmin : ∀ min depth, indent depth ++ "min = " ++ Position.name min ++ ";\n" =
      (Program.assign .min min .done).render depth := by
    intro min depth
    simp [Program.render, Extremum.name, String.append_assoc]
  rw [Program.render, Cascade.write_eq_render hmin]
  simp [Extremum.name, String.append_assoc]

theorem run_program (t : DecisionTree) (v : Sextuple) (s : Option Position × Option Position) :
    t.program.run v s = (some (t.select v).leaf.max, some (t.select v).leaf.min) := by
  rw [program, Cascade.run_program, Program.run, Cascade.run_program]
  rfl

lemma SameShape.extremum_min (h : t.SameShape derived) (m : Position) :
    (t.min.get m).extremum = .min :=
  (h.min m).extremum.trans (by rw [derived_min]; rfl)

theorem SameShape.decidesBoth_program (h : t.SameShape derived) : t.program.DecidesBoth := by
  refine Program.decides_program h.max.extremum
    (h.max.guard_ne_nil (Cascade.guard_ne_nil_derive _ _ _)) fun max => .assign max ?_
  refine Program.decides_program (h.extremum_min max) ((h.min max).guard_ne_nil ?_)
    fun min => .assign min rfl
  rw [derived_min]
  exact Cascade.guard_ne_nil_derive _ _ _

/-- Every position can be the maximum, so the program shows all cascades for the minimum. -/
theorem SameShape.cascades_eq (ht : t.SameShape derived) (hu : u.SameShape derived)
    (h : t.program = u.program) : u.max = t.max ∧ u.min = t.min := by
  obtain ⟨hmax, hnext⟩ :=
    Cascade.program_injective (ht.max.extremum.trans hu.max.extremum.symm) h
  refine ⟨hmax.symm, Slots.ext_get fun m => ?_⟩
  have hall : t.max.outcomes = Position.all := ht.max.outcomes
  have hextremum := (ht.extremum_min m).trans (hu.extremum_min m).symm
  exact (Cascade.program_injective hextremum (hnext m (hall ▸ m.mem_all))).1.symm

/-- The text of a tree with faults is a program of properly nested branches. It reads back as one
whose run assigns the positions that the tree picks, and no tree with other cascades has this text. -/
theorem text_means_tree {fs : List Fault} (ht : derived.injectAll fs = .ok t) :
    t.written = t.text ∧
    (∃ w : DyckWord, w.toList = Program.braces t.text.toList) ∧
    (∃ p, Program.ofText? t.text = some p ∧ p.DecidesBoth ∧
      ∀ v s, p.run v s = (some (t.select v).leaf.max, some (t.select v).leaf.min)) ∧
    ∀ gs u, derived.injectAll gs = .ok u → u.text = t.text → u.max = t.max ∧ u.min = t.min := by
  have hshape := sameShape_injectAll ht
  have hread : ∀ {u : DecisionTree}, u.SameShape derived →
      Program.ofText? u.text = some u.program := fun h =>
    Program.ofText?_render h.decidesBoth_program.guarded 0
  refine ⟨t.written_eq_text, t.program.exists_dyckWord_render 0,
    ⟨t.program, hread hshape, hshape.decidesBoth_program, t.run_program⟩, ?_⟩
  intro gs u hu htext
  have hother := sameShape_injectAll hu
  have hprogram : some t.program = some u.program := by
    rw [← hread hshape, ← hread hother, htext]
  exact hshape.cascades_eq hother (Option.some.inj hprogram)

/-- With the published fault, running the text on the published counterexample assigns `c` to the
maximum instead of `a`. -/
theorem text_means_tree_ko2 :
    ∃ t p, derived.injectAll [.ko2] = .ok t ∧ Program.ofText? t.text = some p ∧
      p.run ⟨1, -3, 0, -2, -1, -2⟩ (none, none) = (some .c, some .b) := by
  obtain ⟨t, ht⟩ : ∃ t, derived.injectAll [.ko2] = .ok t := ⟨_, rfl⟩
  obtain ⟨-, -, ⟨p, hread, -, hrun⟩, -⟩ := text_means_tree ht
  refine ⟨t, p, ht, hread, (hrun _ _).trans ?_⟩
  cases ht
  decide

end DecisionTree
end VerifierBench
