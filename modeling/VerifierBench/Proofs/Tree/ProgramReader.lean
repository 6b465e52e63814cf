import Mathlib.Data.List.Basic
import Mathlib.Tactic.Lemma
import VerifierBench.Tree.Program

/-! Reading program text. Blanks only separate tokens; a condition has one or more conjuncts that all
use the same operator; each block is closed before the one around it. The reader accepts exactly the
token sequences of programs, and it undoes rendering. -/
namespace VerifierBench

/-- A word or a mark of program text. -/
inductive Token
  | ifWord
  | elseWord
  | target (e : Extremum)
  | position (p : Position)
  | operator (e : Extremum)
  | conjunction
  | equals
  | semicolon
  | openParen
  | closeParen
  | openBrace
  | closeBrace
  deriving DecidableEq, Repr

namespace Token

/-- The tokens of a text, if every character belongs to one or is blank. No two words of a program
stand side by side, so there is no need to look where a word ends. -/
def scan : List Char → Option (List Token)
  | [] => some []
  | ' ' :: cs => scan cs
  | '\n' :: cs => scan cs
  | '(' :: cs => (scan cs).map (openParen :: ·)
  | ')' :: cs => (scan cs).map (closeParen :: ·)
  | '{' :: cs => (scan cs).map (openBrace :: ·)
  | '}' :: cs => (scan cs).map (closeBrace :: ·)
  | '=' :: cs => (scan cs).map (equals :: ·)
  | ';' :: cs => (scan cs).map (semicolon :: ·)
  | '>' :: cs => (scan cs).map (operator .max :: ·)
  | '<' :: cs => (scan cs).map (operator .min :: ·)
  | '&' :: '&' :: cs => (scan cs).map (conjunction :: ·)
  | 'i' :: 'f' :: cs => (scan cs).map (ifWord :: ·)
  | 'e' :: 'l' :: 's' :: 'e' :: cs => (scan cs).map (elseWord :: ·)
  | 'm' :: 'a' :: 'x' :: cs => (scan cs).map (target .max :: ·)
  | 'm' :: 'i' :: 'n' :: cs => (scan cs).map (target .min :: ·)
  | c :: cs =>
    match Position.all.find? fun p => p.letter = c with
    | some p => (scan cs).map (position p :: ·)
    | none => none

/-- The rest behind some expected tokens. -/
def expect (marks ts : List Token) : Option (List Token) := ts.dropPrefix? marks

@[simp] lemma expect_nil (ts : List Token) : expect [] ts = some ts := by
  cases ts <;> rfl

@[simp] lemma expect_cons_self (m : Token) (marks ts : List Token) :
    expect (m :: marks) (m :: ts) = expect marks ts := by
  simp [expect, List.dropPrefix?]

lemma eq_append_of_expect {marks ts rest : List Token} (h : expect marks ts = some rest) :
    ts = marks ++ rest := by
  obtain ⟨start, rfl, hstart⟩ := List.dropPrefix?_eq_some_iff.mp h
  rw [eq_of_beq hstart]

end Token

namespace Program
open Token

def conjunctTokens (e : Extremum) (c : Comparison) : List Token :=
  [openParen, position c.lhs, operator e, position c.rhs, closeParen]

def guardTokens (e : Extremum) : List Comparison → List Token
  | [] => []
  | [c] => conjunctTokens e c
  | c :: d :: cs => conjunctTokens e c ++ conjunction :: guardTokens e (d :: cs)

/-- The program without its layout. -/
def tokens : Program → List Token
  | done => []
  | assign e p next => [target e, equals, position p, semicolon] ++ next.tokens
  | branch e guard yes no next =>
    [ifWord, openParen] ++ guardTokens e guard ++ [closeParen, openBrace] ++ yes.tokens ++
      [closeBrace, elseWord, openBrace] ++ no.tokens ++ [closeBrace] ++ next.tokens

/-- Every condition has a conjunct. -/
def Guarded : Program → Prop
  | done => True
  | assign _ _ next => next.Guarded
  | branch _ guard yes no next => guard ≠ [] ∧ yes.Guarded ∧ no.Guarded ∧ next.Guarded

/-- Conjuncts as long as `&&` follows. -/
def readGuard : List Token → Option (Extremum × List Comparison × List Token)
  | openParen :: position l :: operator e :: position r :: closeParen :: conjunction :: ts => do
    let (e', guard, ts) ← readGuard ts
    if e' = e then return (e, ⟨l, r⟩ :: guard, ts) else none
  | openParen :: position l :: operator e :: position r :: closeParen :: ts =>
    some (e, [⟨l, r⟩], ts)
  | _ => none

/-- The statements up to a token that begins none. -/
def readBlock : (fuel : ℕ) → List Token → Option (Program × List Token)
  | 0, _ => none
  | fuel + 1, target e :: equals :: position p :: semicolon :: ts => do
    let (next, ts) ← readBlock fuel ts
    return (assign e p next, ts)
  | fuel + 1, ifWord :: openParen :: ts => do
    let (e, guard, ts) ← readGuard ts
    let (yes, ts) ← readBlock fuel (← expect [closeParen, openBrace] ts)
    let (no, ts) ← readBlock fuel (← expect [closeBrace, elseWord, openBrace] ts)
    let (next, ts) ← readBlock fuel (← expect [closeBrace] ts)
    return (branch e guard yes no next, ts)
  | _ + 1, ts => some (done, ts)

/-- The program that some tokens spell; every block needs a token. -/
def ofTokens? (ts : List Token) : Option Program :=
  match readBlock (ts.length + 1) ts with
  | some (p, []) => some p
  | _ => none

def ofText? (text : String) : Option Program := do
  ofTokens? (← scan text.toList)

lemma readGuard_guardTokens (e : Extremum) {guard : List Comparison} (h : guard ≠ [])
    (ts : List Token) :
    readGuard (guardTokens e guard ++ closeParen :: ts) = some (e, guard, closeParen :: ts) := by
  induction guard with
  | nil => exact absurd rfl h
  | cons c guard ih =>
    cases guard with
    | nil => rfl
    | cons d guard =>
      have hrest := ih (List.cons_ne_nil d guard)
      simp only [guardTokens, conjunctTokens, List.cons_append, List.nil_append, readGuard, hrest]
      simp

lemma eq_guardTokens_of_readGuard {ts rest : List Token} {e : Extremum} {guard : List Comparison}
    (h : readGuard ts = some (e, guard, rest)) : guard ≠ [] ∧ ts = guardTokens e guard ++ rest := by
  fun_induction readGuard ts generalizing e guard rest with
  | case1 l e' r ts ih =>
    simp only [Option.bind_eq_bind, Option.bind_eq_some_iff] at h
    obtain ⟨⟨e'', conjuncts, ts'⟩, hrest, h⟩ := h
    obtain ⟨hne, rfl⟩ := ih hrest
    split at h
    · next heq =>
      obtain rfl : e'' = e' := heq
      cases h
      obtain ⟨d, conjuncts, rfl⟩ := List.exists_cons_of_ne_nil hne
      exact ⟨List.cons_ne_nil _ _, rfl⟩
    · cases h
  | case2 l e' r ts =>
    cases h
    exact ⟨List.cons_ne_nil _ _, rfl⟩
  | case3 => cases h

/-- Nothing, or a token that no statement begins with. -/
def Ends (ts : List Token) : Prop := ∀ t ∈ ts.head?, t ≠ ifWord ∧ ∀ e, t ≠ target e

lemma ends_nil : Ends [] := nofun

lemma ends_closeBrace (ts : List Token) : Ends (closeBrace :: ts) := by
  rintro t ⟨⟩
  exact ⟨nofun, nofun⟩

lemma readBlock_of_ends {ts : List Token} (h : Ends ts) (fuel : ℕ) :
    readBlock (fuel + 1) ts = some (done, ts) := by
  rw [readBlock]
  · rintro e p ts rfl
    exact (h _ rfl).2 e rfl
  · rintro ts rfl
    exact (h _ rfl).1 rfl

/-- Reading stops behind the statements. The induction is on the program, with any rest that begins
no statement and any fuel beyond the number of tokens. -/
theorem readBlock_tokens {p : Program} (hp : p.Guarded) {rest : List Token} (hrest : Ends rest)
    {fuel : ℕ} (hfuel : p.tokens.length < fuel) :
    readBlock fuel (p.tokens ++ rest) = some (p, rest) := by
  induction p generalizing fuel rest with
  | done =>
    cases fuel with
    | zero => cases hfuel
    | succ fuel => exact readBlock_of_ends hrest fuel
  | assign e p next ih =>
    cases fuel with
    | zero => cases hfuel
    | succ fuel =>
      simp only [tokens, List.length_append, List.length_cons] at hfuel
      have hnext := ih hp hrest (show next.tokens.length < fuel by omega)
      simp [tokens, readBlock, hnext]
  | branch e guard yes no next ihyes ihno ihnext =>
    cases fuel with
    | zero => cases hfuel
    | succ fuel =>
      obtain ⟨hguard, hyes, hno, hnext⟩ := hp
      simp only [tokens, List.length_append, List.length_cons] at hfuel
      have hreadGuard := readGuard_guardTokens e hguard
      have hreadYes := fun ts => ihyes hyes (ends_closeBrace ts) (show _ < fuel by omega)
      have hreadNo := fun ts => ihno hno (ends_closeBrace ts) (show _ < fuel by omega)
      have hreadNext := ihnext hnext hrest (show _ < fuel by omega)
      simp [tokens, readBlock, hreadGuard, hreadYes, hreadNo, hreadNext]

/-- What is read is spelled by the tokens in front of the rest. -/
theorem eq_tokens_of_readBlock {fuel : ℕ} {ts rest : List Token} {p : Program}
    (h : readBlock fuel ts = some (p, rest)) : p.Guarded ∧ ts = p.tokens ++ rest := by
  fun_induction readBlock fuel ts generalizing p rest with
  | case1 => cases h
  | case2 fuel e q ts ih =>
    simp only [Option.bind_eq_bind, Option.bind_eq_some_iff] at h
    obtain ⟨⟨next, ts'⟩, hnext, h⟩ := h
    cases h
    obtain ⟨hguarded, rfl⟩ := ih hnext
    exact ⟨hguarded, rfl⟩
  | case3 fuel ts ih =>
    simp only [Option.bind_eq_bind, Option.bind_eq_some_iff] at h
    obtain ⟨⟨e, guard, ts₁⟩, hguard, ts₂, hopen, ⟨yes, ts₃⟩, hyes, ts₄, helse, ⟨no, ts₅⟩, hno, ts₆,
      hclose, ⟨next, ts₇⟩, hnext, h⟩ := h
    cases h
    obtain ⟨hne, rfl⟩ := eq_guardTokens_of_readGuard hguard
    obtain rfl := eq_append_of_expect hopen
    obtain ⟨hgyes, rfl⟩ := ih _ hyes
    obtain rfl := eq_append_of_expect helse
    obtain ⟨hgno, rfl⟩ := ih _ hno
    obtain rfl := eq_append_of_expect hclose
    obtain ⟨hgnext, rfl⟩ := ih _ hnext
    refine ⟨⟨hne, hgyes, hgno, hgnext⟩, ?_⟩
    simp only [tokens, List.cons_append, List.nil_append, List.append_assoc]
  | case4 =>
    cases h
    exact ⟨trivial, rfl⟩

/-- Exactly the token sequences of programs are read. -/
theorem ofTokens?_eq_some_iff {ts : List Token} {p : Program} :
    ofTokens? ts = some p ↔ p.Guarded ∧ p.tokens = ts := by
  rw [ofTokens?]
  constructor
  · intro h
    split at h
    · next hread =>
      cases h
      obtain ⟨hguarded, hts⟩ := eq_tokens_of_readBlock hread
      exact ⟨hguarded, by rw [hts, List.append_nil]⟩
    · cases h
  · rintro ⟨hguarded, rfl⟩
    have hread := readBlock_tokens hguarded ends_nil (Nat.lt_succ_self p.tokens.length)
    rw [List.append_nil] at hread
    simp only [hread]

/-- Layout is skipped. -/
lemma scan_indent (depth : ℕ) (cs : List Char) :
    scan ((indent depth).toList ++ cs) = scan cs := by
  rw [indent, String.toList_ofList]
  induction 4 * depth with
  | zero => rfl
  | succ n ih => rw [List.replicate_succ, List.cons_append, scan, ih]

lemma scan_name (e : Extremum) (cs : List Char) :
    scan (e.name.toList ++ cs) = (scan cs).map (target e :: ·) := by
  cases e <;> rfl

lemma scan_operator (e : Extremum) (cs : List Char) :
    scan (e.operator :: cs) = (scan cs).map (operator e :: ·) := by
  cases e <;> rfl

/-- Only the letter `e` could begin a word. -/
lemma scan_letter (p : Position) {c : Char} (hc : c ≠ 'l') (cs : List Char) :
    scan (p.letter :: c :: cs) = (scan (c :: cs)).map (position p :: ·) := by
  cases p with
  | e => simp [Position.letter, Position.all, scan, hc]
  | _ => rfl

lemma scan_conjunct (e : Extremum) (c : Comparison) (cs : List Char) :
    scan ('(' :: c.lhs.letter :: e.operator :: c.rhs.letter :: ')' :: cs) =
      (scan cs).map (conjunctTokens e c ++ ·) := by
  have hoperator : e.operator ≠ 'l' := by cases e <;> decide
  rw [scan, scan_letter _ hoperator, scan_operator, scan_letter _ (by decide), scan]
  simp only [Option.map_map]
  rfl

lemma toList_guardText_singleton (e : Extremum) (c : Comparison) :
    (guardText e [c]).toList = ['(', c.lhs.letter, e.operator, c.rhs.letter, ')'] := by
  simp [guardText, Comparison.text]

lemma toList_guardText_cons_cons (e : Extremum) (c d : Comparison) (guard : List Comparison) :
    (guardText e (c :: d :: guard)).toList =
      '(' :: c.lhs.letter :: e.operator :: c.rhs.letter :: ')' :: ' ' :: '&' :: '&' :: ' ' ::
        (guardText e (d :: guard)).toList := by
  simp [guardText, Comparison.text, String.toList_intercalate]

lemma scan_guardText (e : Extremum) (guard : List Comparison) (cs : List Char) :
    scan ((guardText e guard).toList ++ cs) = (scan cs).map (guardTokens e guard ++ ·) := by
  induction guard with
  | nil => simp [guardText, guardTokens]
  | cons c guard ih =>
    cases guard with
    | nil =>
      rw [toList_guardText_singleton]
      exact scan_conjunct e c cs
    | cons d guard =>
      rw [toList_guardText_cons_cons]
      simp only [List.cons_append, scan_conjunct, scan, ih, Option.map_map]
      rfl

lemma toList_render_assign (e : Extremum) (p : Position) (next : Program) (depth : ℕ) :
    ((assign e p next).render depth).toList = (indent depth).toList ++ (e.name.toList ++
      (' ' :: '=' :: ' ' :: p.letter :: ';' :: '\n' :: (next.render depth).toList)) := by
  simp [render, Position.name]

lemma toList_render_branch (e : Extremum) (guard : List Comparison) (yes no next : Program)
    (depth : ℕ) :
    ((branch e guard yes no next).render depth).toList =
      (indent depth).toList ++ ('i' :: 'f' :: ' ' :: '(' :: ((guardText e guard).toList ++
        (')' :: ' ' :: '{' :: '\n' :: ((yes.render (depth + 1)).toList ++
      ((indent depth).toList ++ ('}' :: ' ' :: 'e' :: 'l' :: 's' :: 'e' :: ' ' :: '{' :: '\n' ::
        ((no.render (depth + 1)).toList ++
      ((indent depth).toList ++ ('}' :: '\n' :: (next.render depth).toList))))))))) := by
  simp [render]

/-- Rendering spells the tokens of a program, and what stands behind it is left alone. -/
theorem scan_render (p : Program) (depth : ℕ) (cs : List Char) :
    scan ((p.render depth).toList ++ cs) = (scan cs).map (p.tokens ++ ·) := by
  induction p generalizing depth cs with
  | done => simp [render, tokens]
  | assign e p next ih =>
    simp only [toList_render_assign, List.append_assoc, List.cons_append, scan_indent, scan_name,
      scan, scan_letter _ (show ';' ≠ 'l' by decide), ih, Option.map_map]
    rfl
  | branch e guard yes no next ihyes ihno ihnext =>
    simp only [toList_render_branch, List.append_assoc, List.cons_append, scan_indent,
      scan_guardText, scan, ihyes, ihno, ihnext, Option.map_map]
    congr 1
    funext ts
    simp [tokens]

/-- The text of a program is read back, whatever the depth it is written at. -/
theorem ofText?_render {p : Program} (hp : p.Guarded) (depth : ℕ) :
    ofText? (p.render depth) = some p := by
  have hscan := scan_render p depth []
  rw [List.append_nil, scan, Option.map_some, List.append_nil] at hscan
  rw [ofText?, hscan]
  exact ofTokens?_eq_some_iff.mpr ⟨hp, rfl⟩

end Program
end VerifierBench
