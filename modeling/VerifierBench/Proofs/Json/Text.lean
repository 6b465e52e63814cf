import Mathlib.Data.Int.Notation
import Mathlib.Data.List.Nodup
import Mathlib.Tactic.Lemma
import VerifierBench.Json.Printer
import VerifierBench.Json.Reader
import VerifierBench.Proofs.Text.Numeral

/-! JSON texts on one line: what is written is read back, whatever follows. Doubles are left out, and
objects have every name once. -/
namespace VerifierBench.Json

/-- Values whose texts are read back while `depth` levels may still be opened. Integers are in range, and
no name stands twice in an object. -/
inductive Readable : ℕ → Json → Prop
  | null {depth} : Readable depth null
  | bool {depth} (b : Bool) : Readable depth (bool b)
  | int {depth n} (h : isInteger n = true) : Readable depth (int n)
  | str {depth} (s : String) : Readable depth (str s)
  | arr {depth items} (h : ∀ item ∈ items, Readable depth item) : Readable (depth + 1) (arr items)
  | obj {depth members} (hnodup : (members.map Prod.fst).Nodup)
      (h : ∀ entry ∈ members, Readable depth entry.2) : Readable (depth + 1) (obj members)

/-- What may follow a value inside a text. -/
inductive Delimited : List Char → Prop
  | nil : Delimited []
  | comma (cs) : Delimited (',' :: cs)
  | bracket (cs) : Delimited (']' :: cs)
  | brace (cs) : Delimited ('\x7d' :: cs)

section Numerals
variable {c : Char} {ds rest : List Char} {n : ℕ}

lemma isDigit_of_mem_toDigits (h : c ∈ Nat.toDigits 10 n) : isDigit c = true := by
  have hdigit := Nat.isDigit_of_mem_toDigits (by decide) (by decide) h
  simp only [Char.isDigit, Bool.and_eq_true, decide_eq_true_eq] at hdigit
  exact decide_eq_true hdigit

/-- Only the numeral of zero begins with a zero. -/
lemma exists_toDigits_cons (h : 0 < n) : ∃ c ds, Nat.toDigits 10 n = c :: ds ∧ c ≠ '0' := by
  induction n using Nat.strongRecOn with
  | ind n ih =>
    by_cases hlt : n < 10
    · have hchar : ∀ d < 10, 0 < d → d.digitChar ≠ '0' := by decide
      exact ⟨n.digitChar, [], Nat.toDigits_of_lt_base hlt, hchar n hlt h⟩
    · obtain ⟨c, ds, hds, hc⟩ := ih (n / 10) (by omega) (by omega)
      refine ⟨c, ds ++ [(n % 10).digitChar], ?_, hc⟩
      rw [Nat.toDigits_of_base_le (by decide) (by omega), hds, List.cons_append]

lemma digitsValue_toDigits (n : ℕ) : digitsValue (Nat.toDigits 10 n) = n := by
  have hfold : ∀ ds acc, ds.foldl (fun n c => n * 10 + (c.toNat - 48)) acc =
      Nat.ofDigitChars 10 ds acc := by
    intro ds acc
    simp only [Nat.ofDigitChars, Nat.mul_comm]
    rfl
  rw [digitsValue, hfold, Nat.ofDigitChars_ten_toDigits]

lemma Delimited.takeWhile_isDigit (h : Delimited rest) (hds : ∀ c ∈ ds, isDigit c = true) :
    (ds ++ rest).takeWhile isDigit = ds := by
  rw [List.takeWhile_append_of_pos hds]
  cases h <;> simp [isDigit]

lemma Delimited.dropWhile_isDigit (h : Delimited rest) (hds : ∀ c ∈ ds, isDigit c = true) :
    (ds ++ rest).dropWhile isDigit = rest := by
  rw [List.dropWhile_append_of_pos hds]
  cases h <;> simp [isDigit]

lemma Delimited.readWhole (h : Delimited rest) (n : ℕ) :
    readWhole (Nat.toDigits 10 n ++ rest) = some (Nat.toDigits 10 n, rest) := by
  have hds : ∀ c ∈ Nat.toDigits 10 n, isDigit c = true := fun _ => isDigit_of_mem_toDigits
  have htake := h.takeWhile_isDigit hds
  have hdrop := h.dropWhile_isDigit hds
  rcases Nat.eq_zero_or_pos n with rfl | hn
  · cases h <;> rfl
  · obtain ⟨c, ds, hcons, hc⟩ := exists_toDigits_cons hn
    rw [hcons] at htake hdrop ⊢
    simp only [List.cons_append] at htake hdrop ⊢
    unfold Json.readWhole
    split
    · next hzero => exact absurd (List.cons.inj hzero).1 hc
    · rw [htake, hdrop]

lemma Delimited.readFraction (h : Delimited rest) : readFraction rest = some (none, rest) := by
  cases h <;> rfl

lemma Delimited.readExponent (h : Delimited rest) : readExponent rest = some (none, rest) := by
  cases h <;> simp [Json.readExponent]

/-- After the sign there are digits only, no fraction and no exponent. -/
lemma Delimited.numberValue_read (h : Delimited rest) (negative : Bool) (n : ℕ) {value : Json}
    (hvalue : numberValue negative (Nat.toDigits 10 n) none none = some value) :
    (do
      let (whole, cs) ← Json.readWhole (Nat.toDigits 10 n ++ rest)
      let (fraction, cs) ← Json.readFraction cs
      let (exponent, cs) ← Json.readExponent cs
      return (← numberValue negative whole fraction exponent, cs)) = some (value, rest) := by
  simp only [h.readWhole, h.readFraction, h.readExponent, hvalue, Option.bind_eq_bind,
    Option.bind_some, Option.pure_def]

lemma exists_digit_cons (n : ℕ) : ∃ c ds, Nat.toDigits 10 n = c :: ds ∧ isDigit c = true := by
  obtain ⟨c, ds, hcons⟩ := List.exists_cons_of_ne_nil (Nat.toDigits_ne_nil (n := n) (b := 10))
  exact ⟨c, ds, hcons, isDigit_of_mem_toDigits (hcons ▸ List.mem_cons_self ..)⟩

lemma ne_of_isDigit {d : Char} (h : isDigit c = true) (hd : isDigit d = false) : c ≠ d := by
  rintro rfl
  exact Bool.false_ne_true (hd.symm.trans h)

theorem Delimited.readNumber (h : Delimited rest) {n : ℤ} (hn : isInteger n = true) :
    readNumber ((toString n).toList ++ rest) = some (int n, rest) := by
  rw [Text.toList_toString]
  by_cases hpos : 0 ≤ n
  · have hvalue : numberValue false (Nat.toDigits 10 n.toNat) none none = some (int n) := by
      simp [numberValue, digitsValue_toDigits, Int.toNat_of_nonneg hpos, hn]
    rw [if_pos hpos, ← h.numberValue_read false n.toNat hvalue]
    have hsign : ∀ cs, Nat.toDigits 10 n.toNat ++ rest ≠ '-' :: cs := by
      intro cs hcs
      obtain ⟨c, ds, hcons, hc⟩ := exists_digit_cons n.toNat
      rw [hcons] at hcs
      exact ne_of_isDigit hc (by decide) (List.cons.inj hcs).1
    unfold Json.readNumber
    split
    next hsplit =>
      split at hsplit
      · next hcs => exact absurd hcs (hsign _)
      · cases hsplit
        rfl
  · have hvalue : numberValue true (Nat.toDigits 10 (-n).toNat) none none = some (int n) := by
      have hcast : ((-n).toNat : ℤ) = -n := Int.toNat_of_nonneg (by omega)
      have hzero : -n ≠ 0 := by omega
      simp [numberValue, digitsValue_toDigits, hcast, hn, hzero]
    rw [if_neg hpos, List.cons_append, ← h.numberValue_read true (-n).toNat hvalue]
    rfl

end Numerals

section Strings
variable {c : Char} {rest acc : List Char} {fuel : ℕ}

lemma hexDigit?_digitChar : ∀ d < 16, Text.hexDigit? d.digitChar = some d := by decide

/-- A control character is written with two hexadecimal digits. -/
lemma unicodeEscape_control (h : c.toNat < 32) (rest : List Char) :
    unicodeEscape ('0' :: '0' :: Nat.digitChar (c.toNat / 16) :: Nat.digitChar (c.toNat % 16) :: rest) =
      some (c, rest) := by
  have hzero : Text.hexDigit? '0' = some 0 := by decide
  have hquad : hexQuad ('0' :: '0' :: Nat.digitChar (c.toNat / 16) ::
      Nat.digitChar (c.toNat % 16) :: rest) = some (c.toNat, rest) := by
    simp only [hexQuad, hzero, hexDigit?_digitChar _ (show c.toNat / 16 < 16 by omega),
      hexDigit?_digitChar _ (show c.toNat % 16 < 16 by omega), Option.bind_eq_bind, Option.bind_some,
      Option.pure_def, Option.some.injEq, Prod.mk.injEq, and_true]
    omega
  simp only [unicodeEscape, hquad, Option.bind_eq_bind, Option.bind_some]
  rw [if_neg (by omega), if_neg (by omega), Char.ofNat_toNat]

lemma eq_ofNat_of_toNat_eq {n : ℕ} (h : c.toNat = n) : c = Char.ofNat n := by
  rw [← h, Char.ofNat_toNat]

/-- One character is read for every escape. -/
lemma readChars_escape (c : Char) :
    readChars (fuel + 1) acc (escape c ++ rest) = readChars fuel (c :: acc) rest := by
  unfold escape
  split
  · next h => subst h; rfl
  split
  · next h => subst h; rfl
  iterate 5
    split
    · next h => rw [eq_ofNat_of_toNat_eq h]; rfl
  split
  · next h =>
    simp only [List.cons_append, List.nil_append, readChars, escaped, unicodeEscape_control h,
      Option.bind_eq_bind, Option.bind_some]
  · next hquote hbackslash _ _ _ _ _ hcontrol =>
    rw [List.singleton_append, readChars, if_neg hcontrol]
    · exact hquote
    · exact hbackslash

theorem readChars_flatMap_escape (cs : List Char) (h : cs.length < fuel) :
    readChars fuel acc (cs.flatMap escape ++ '"' :: rest) = some (acc.reverse ++ cs, rest) := by
  induction cs generalizing fuel acc with
  | nil =>
    obtain ⟨fuel, rfl⟩ := Nat.exists_eq_succ_of_ne_zero (Nat.ne_of_gt h)
    simp [readChars]
  | cons c cs ih =>
    obtain ⟨fuel, rfl⟩ := Nat.exists_eq_succ_of_ne_zero (Nat.ne_zero_of_lt h)
    rw [List.flatMap_cons, List.append_assoc, readChars_escape, ih (Nat.lt_of_succ_lt_succ h),
      List.reverse_cons, List.append_assoc, List.singleton_append]

lemma length_le_length_flatMap_escape (cs : List Char) : cs.length ≤ (cs.flatMap escape).length := by
  induction cs with
  | nil => exact Nat.le_refl _
  | cons c cs ih =>
    have hpos : 1 ≤ (escape c).length := by
      unfold escape
      repeat' split
      all_goals simp
    rw [List.flatMap_cons, List.length_append, List.length_cons]
    omega

lemma toList_quoted (s : String) : (quoted s).toList = '"' :: (s.toList.flatMap escape ++ ['"']) := by
  rw [quoted, String.toList_ofList, List.cons_append]

/-- What is left of a written string after its opening quote. -/
theorem readString_quoted (s : String) (rest : List Char) :
    readString (s.toList.flatMap escape ++ '"' :: rest) = some (s, rest) := by
  have hlength := length_le_length_flatMap_escape s.toList
  rw [readString, readChars_flatMap_escape s.toList (by rw [List.length_append]; omega)]
  simp only [List.reverse_nil, List.nil_append, Option.bind_eq_bind, Option.bind_some,
    Option.pure_def, String.ofList_toList]

end Strings

section Values
variable {depth fuel : ℕ} {j x v : Json} {c : Char} {cs rest : List Char}

lemma toList_compact_arr (x : Json) (xs : List Json) : (arr (x :: xs)).compact.toList =
    '[' :: (x.compact.toList ++ ((compactItems xs).toList ++ [']'])) := by
  simp [compact]

lemma toList_compactItems_cons (x : Json) (xs : List Json) : (compactItems (x :: xs)).toList =
    ',' :: (x.compact.toList ++ (compactItems xs).toList) := by
  simp [compactItems]

lemma toList_compact_obj (name : String) (v : Json) (members : List (String × Json)) :
    (obj ((name, v) :: members)).compact.toList =
      '\x7b' :: '"' :: (name.toList.flatMap escape ++ '"' :: ':' ::
        (v.compact.toList ++ ((compactMembers members).toList ++ ['\x7d']))) := by
  simp [compact, toList_quoted]

lemma toList_compactMembers_cons (name : String) (v : Json) (members : List (String × Json)) :
    (compactMembers ((name, v) :: members)).toList =
      ',' :: '"' :: (name.toList.flatMap escape ++ '"' :: ':' ::
        (v.compact.toList ++ (compactMembers members).toList)) := by
  simp [compactMembers, toList_quoted]

lemma skipSpace_cons (h : isSpace c = false) : skipSpace (c :: cs) = c :: cs := by
  rw [skipSpace, List.dropWhile_cons_of_neg (by simp [h])]

/-- The value is read off every text that begins with its own and then ends or goes on with a mark. As
many steps as its text has characters, and one more, are enough. -/
def ReadsBack (depth : ℕ) (j : Json) : Prop :=
  ∀ fuel rest, j.compact.toList.length ≤ fuel → Delimited rest →
    readValue (fuel + 1) depth (j.compact.toList ++ rest) = some (j, rest)

lemma exists_toString_cons (n : ℤ) :
    ∃ c cs, (toString n).toList = c :: cs ∧ (c = '-' ∨ isDigit c = true) := by
  rw [Text.toList_toString]
  split
  · obtain ⟨c, cs, hcons, hc⟩ := exists_digit_cons n.toNat
    exact ⟨c, cs, hcons, .inr hc⟩
  · exact ⟨'-', _, rfl, .inl rfl⟩

/-- A numeral begins with none of the characters that any other value begins with. -/
lemma ne_of_numeral (h : c = '-' ∨ isDigit c = true) {d : Char} (hminus : d ≠ '-')
    (hdigit : isDigit d = false) : c ≠ d := by
  rcases h with rfl | h
  · exact hminus.symm
  · exact ne_of_isDigit h hdigit

lemma isSpace_numeral (h : c = '-' ∨ isDigit c = true) : isSpace c = false := by
  simp [isSpace, ne_of_numeral h (d := ' ') (by decide) (by decide),
    ne_of_numeral h (d := '\t') (by decide) (by decide),
    ne_of_numeral h (d := '\n') (by decide) (by decide),
    ne_of_numeral h (d := '\r') (by decide) (by decide)]

lemma readValue_numeral (h : c = '-' ∨ isDigit c = true) :
    readValue (fuel + 1) depth (c :: cs) = readNumber (c :: cs) := by
  rw [readValue, skipSpace_cons (isSpace_numeral h)]
  split
  case h_7 => rfl
  all_goals
    next hcs => exact absurd (List.cons.inj hcs).1 (ne_of_numeral h (by decide) (by decide))

lemma Readable.exists_cons (h : Readable depth j) :
    ∃ c cs, j.compact.toList = c :: cs ∧ isSpace c = false ∧ c ≠ ']' := by
  cases h with
  | null => exact ⟨'n', _, rfl, by decide, by decide⟩
  | bool b => cases b <;> exact ⟨_, _, rfl, by decide, by decide⟩
  | @int _ n h =>
    obtain ⟨c, cs, hcons, hc⟩ := exists_toString_cons n
    exact ⟨c, cs, hcons, isSpace_numeral hc, ne_of_numeral hc (by decide) (by decide)⟩
  | str s => exact ⟨'"', _, toList_quoted s, by decide, by decide⟩
  | @arr _ items h =>
    cases items with
    | nil => exact ⟨'[', _, rfl, by decide, by decide⟩
    | cons x xs => exact ⟨'[', _, toList_compact_arr x xs, by decide, by decide⟩
  | @obj _ members h =>
    cases members with
    | nil => exact ⟨'\x7b', _, rfl, by decide, by decide⟩
    | cons entry members =>
      exact ⟨'\x7b', _, toList_compact_obj entry.1 entry.2 members, by decide, by decide⟩

lemma readValue_bracket (hspace : isSpace c = false) (hc : c ≠ ']') :
    readValue (fuel + 1) (depth + 1) ('[' :: c :: cs) = readItems fuel depth [] (c :: cs) := by
  rw [readValue, skipSpace_cons (by decide)]
  simp only [skipSpace_cons hspace]
  rw [if_neg (Nat.succ_ne_zero depth)]
  split
  · next hcs => exact absurd (List.cons.inj hcs).1 hc
  · rfl

lemma readValue_brace : readValue (fuel + 1) (depth + 1) ('\x7b' :: '"' :: cs) =
    readMembers fuel depth [] ('"' :: cs) := by
  rw [readValue, skipSpace_cons (by decide)]
  simp only [skipSpace_cons (show isSpace '"' = false by decide)]
  rw [if_neg (Nat.succ_ne_zero depth)]
  rfl

/-- By induction on the items still to be read, with the items before them in `acc`. -/
theorem readItems_compact {acc xs : List Json} (h : ∀ item ∈ x :: xs, ReadsBack depth item)
    (hfuel : x.compact.toList.length + (compactItems xs).toList.length ≤ fuel) :
    readItems (fuel + 2) depth acc (x.compact.toList ++ ((compactItems xs).toList ++ ']' :: rest)) =
      some (arr (acc.reverse ++ x :: xs), rest) := by
  have hx : ReadsBack depth x := h x (List.mem_cons_self ..)
  induction xs generalizing x acc fuel with
  | nil =>
    rw [compactItems, String.toList_empty, List.nil_append, readItems,
      hx fuel _ (by omega) (.bracket rest)]
    simp only [Option.bind_eq_bind, Option.bind_some,
      skipSpace_cons (show isSpace ']' = false by decide), List.reverse_cons]
  | cons y ys ih =>
    rw [toList_compactItems_cons] at hfuel ⊢
    simp only [List.length_cons, List.length_append] at hfuel
    obtain ⟨fuel, rfl⟩ : ∃ n, fuel = n + 1 := ⟨fuel - 1, by omega⟩
    have hys : readItems (fuel + 2) depth (x :: acc)
        (y.compact.toList ++ ((compactItems ys).toList ++ ']' :: rest)) =
        some (arr ((x :: acc).reverse ++ y :: ys), rest) :=
      ih (fun item hitem => h item (List.mem_cons_of_mem _ hitem)) (by omega)
        (h y (List.mem_cons_of_mem _ (List.mem_cons_self ..)))
    rw [List.cons_append, List.append_assoc, readItems, hx (fuel + 1) _ (by omega) (.comma _)]
    simp only [Option.bind_eq_bind, Option.bind_some,
      skipSpace_cons (show isSpace ',' = false by decide), hys, List.reverse_cons, List.append_assoc,
      List.singleton_append]

lemma putMember_of_notMem {members : List (String × Json)} {name : String}
    (h : name ∉ members.map Prod.fst) (v : Json) :
    putMember members name v = members ++ [(name, v)] := by
  induction members with
  | nil => rfl
  | cons entry members ih =>
    obtain ⟨key, w⟩ := entry
    rw [List.map_cons, List.mem_cons, not_or] at h
    rw [putMember, if_neg (Ne.symm h.1), ih h.2, List.cons_append]

lemma putMember_of_nodup {acc members : List (String × Json)} {name : String}
    (hnodup : ((acc ++ (name, v) :: members).map Prod.fst).Nodup) :
    putMember acc name v = acc ++ [(name, v)] := by
  rw [List.map_append, List.nodup_append] at hnodup
  exact putMember_of_notMem (fun hmem => hnodup.2.2 _ hmem _ (List.mem_cons_self ..) rfl) v

section Members
variable {acc : List (String × Json)} (name : String)

/-- One member is read, and others follow. -/
lemma readMembers_comma
    (hv : readValue fuel depth (v.compact.toList ++ ',' :: rest) = some (v, ',' :: rest)) :
    readMembers (fuel + 1) depth acc ('"' :: (name.toList.flatMap escape ++ '"' :: ':' ::
      (v.compact.toList ++ ',' :: rest))) = readMembers fuel depth (putMember acc name v) rest := by
  rw [readMembers, skipSpace_cons (by decide)]
  simp only [readString_quoted, Option.bind_eq_bind, Option.bind_some,
    skipSpace_cons (show isSpace ':' = false by decide), hv,
    skipSpace_cons (show isSpace ',' = false by decide)]

/-- The last member is read. -/
lemma readMembers_brace
    (hv : readValue fuel depth (v.compact.toList ++ '\x7d' :: rest) = some (v, '\x7d' :: rest)) :
    readMembers (fuel + 1) depth acc ('"' :: (name.toList.flatMap escape ++ '"' :: ':' ::
      (v.compact.toList ++ '\x7d' :: rest))) = some (obj (putMember acc name v), rest) := by
  rw [readMembers, skipSpace_cons (by decide)]
  simp only [readString_quoted, Option.bind_eq_bind, Option.bind_some,
    skipSpace_cons (show isSpace ':' = false by decide), hv,
    skipSpace_cons (show isSpace '\x7d' = false by decide)]

end Members

/-- By induction on the members still to be read. None of them is among those before them, so each goes
to the end. -/
theorem readMembers_compact {acc members : List (String × Json)} {name : String}
    (hnodup : ((acc ++ (name, v) :: members).map Prod.fst).Nodup)
    (h : ∀ entry ∈ (name, v) :: members, ReadsBack depth entry.2)
    (hfuel : v.compact.toList.length + (compactMembers members).toList.length ≤ fuel) :
    readMembers (fuel + 2) depth acc ('"' :: (name.toList.flatMap escape ++ '"' :: ':' ::
      (v.compact.toList ++ ((compactMembers members).toList ++ '\x7d' :: rest)))) =
      some (obj (acc ++ (name, v) :: members), rest) := by
  have hv : ReadsBack depth v := h _ (List.mem_cons_self ..)
  induction members generalizing name v acc fuel with
  | nil =>
    rw [compactMembers, String.toList_empty, List.nil_append,
      readMembers_brace name (hv fuel _ (by omega) (.brace rest)), putMember_of_nodup hnodup]
  | cons entry members ih =>
    obtain ⟨next, w⟩ := entry
    rw [toList_compactMembers_cons] at hfuel ⊢
    simp only [List.length_cons, List.length_append] at hfuel
    obtain ⟨fuel, rfl⟩ : ∃ n, fuel = n + 1 := ⟨fuel - 1, by omega⟩
    simp only [List.cons_append, List.append_assoc]
    rw [readMembers_comma name (hv (fuel + 1) _ (by omega) (.comma _)), putMember_of_nodup hnodup]
    have hsplit : acc ++ (name, v) :: (next, w) :: members =
        acc ++ [(name, v)] ++ (next, w) :: members := List.append_cons ..
    rw [hsplit] at hnodup ⊢
    exact ih hnodup (fun entry hentry => h entry (List.mem_cons_of_mem _ hentry)) (by omega)
      (h (next, w) (List.mem_cons_of_mem _ (List.mem_cons_self ..)))

/-- By induction on the value: items and members are read back before the value they stand in. -/
theorem Readable.readsBack (h : Readable depth j) : ReadsBack depth j := by
  induction h with
  | null => exact fun _ _ _ _ => rfl
  | bool b => cases b <;> exact fun _ _ _ _ => rfl
  | @int _ n hn =>
    rintro fuel rest - hrest
    obtain ⟨c, cs, hcons, hc⟩ := exists_toString_cons n
    have hread := hrest.readNumber hn
    have htext : (Json.int n).compact.toList = (toString n).toList := rfl
    rw [hcons, List.cons_append] at hread
    rw [htext, hcons, List.cons_append, readValue_numeral hc, hread]
  | str s =>
    rintro fuel rest - -
    have htext : (Json.str s).compact.toList = (quoted s).toList := rfl
    rw [htext, toList_quoted, List.cons_append, List.append_assoc, readValue,
      skipSpace_cons (by decide)]
    simp only [List.singleton_append, readString_quoted]
    rfl
  | @arr _ items h ih =>
    rintro fuel rest hfuel -
    cases items with
    | nil => rfl
    | cons x xs =>
      obtain ⟨c, cs, hcons, hspace, hc⟩ := (h x (List.mem_cons_self ..)).exists_cons
      rw [toList_compact_arr] at hfuel ⊢
      simp only [List.length_cons, List.length_append] at hfuel
      obtain ⟨fuel, rfl⟩ : ∃ n, fuel = n + 2 := ⟨fuel - 2, by omega⟩
      simp only [List.cons_append, List.append_assoc, List.nil_append]
      rw [hcons, List.cons_append, readValue_bracket hspace hc, ← List.cons_append, ← hcons]
      exact readItems_compact ih (by omega)
  | @obj _ members hnodup h ih =>
    rintro fuel rest hfuel -
    cases members with
    | nil => rfl
    | cons entry members =>
      obtain ⟨name, v⟩ := entry
      rw [toList_compact_obj] at hfuel ⊢
      simp only [List.length_cons, List.length_append] at hfuel
      obtain ⟨fuel, rfl⟩ : ∃ n, fuel = n + 2 := ⟨fuel - 2, by omega⟩
      simp only [List.cons_append, List.append_assoc, List.nil_append]
      rw [readValue_brace]
      exact readMembers_compact hnodup ih (by omega)

/-- What is written on one line is read back. -/
theorem read_compact (h : Readable depthLimit j) : read j.compact = some j := by
  have hvalue := h.readsBack (2 * j.compact.toList.length + 1) [] (by omega) .nil
  rw [List.append_nil] at hvalue
  simp only [read, hvalue]
  rfl

end Values

section Writers
variable {α : Type} {depth : ℕ} {write : α → Json}

lemma readable_int32 (x : Int32) : Readable depth (ofInt32 x) := by
  have hl := x.le_toInt
  have hu := x.toInt_lt
  refine .int ?_
  rw [isInteger, (isInt64_iff _).mpr ⟨by omega, by omega⟩, Bool.true_or]

lemma readable_uint64 (n : UInt64) : Readable depth (ofUInt64 n) := by
  refine .int ?_
  rw [isInteger, isUInt64_toNat, Bool.or_true]

lemma readable_ofList (h : ∀ a, Readable depth (write a)) (xs : List α) :
    Readable (depth + 1) (ofList write xs) := by
  refine .arr fun item hitem => ?_
  obtain ⟨a, -, rfl⟩ := List.mem_map.mp hitem
  exact h a

lemma readable_ofOption (h : ∀ a, Readable depth (write a)) (x : Option α) :
    Readable depth (ofOption write x) := by
  cases x with
  | none => exact .null
  | some a => exact h a

end Writers
end VerifierBench.Json
