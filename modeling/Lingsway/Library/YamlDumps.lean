import Lingsway.Library.Yaml

/-!
# JSON texts are YAML

A value that is dumped reads back as it is. A string that is dumped in ASCII
reads back unless it has a character beyond the first plane, since YAML knows
no surrogates.
-/
namespace Lingsway.Library.Yaml

open Json

section Strings

@[simp] theorem quoted_end (rest : List Char) : quoted ('"' :: rest) = some ([], rest) := by
  rw [quoted.eq_def]
  simp

/-- An escape of one letter. -/
theorem quoted_short {l : Char} (hx : l ≠ 'x') (hu : l ≠ 'u') (hU : l ≠ 'U') (tail : List Char) :
    quoted ('\\' :: l :: tail) = push (letter l) (quoted tail) := by
  rw [quoted.eq_def]
  simp [hx, hu, hU]

theorem quoted_number (h₁ h₂ h₃ h₄ : Char) (tail : List Char) :
    quoted ('\\' :: 'u' :: h₁ :: h₂ :: h₃ :: h₄ :: tail) = push (escaped [h₁, h₂, h₃, h₄]) (quoted tail) := by
  rw [quoted.eq_def]
  simp

theorem quoted_cons {c : Char} (hquote : c ≠ '"') (hbackslash : c ≠ '\\') (hcontrol : 0x20 ≤ c.toNat)
    (tail : List Char) : quoted (c :: tail) = push (some c) (quoted tail) := by
  rw [quoted.eq_def]
  simp only [hquote, hbackslash, if_false]
  rw [if_neg (by omega)]

theorem hexValue_digitChar : ∀ d < 16, hexValue (Nat.digitChar d) = some d := by
  decide

theorem hexNumber_digits {n : ℕ} (h : n < 0x10000) :
    hexNumber [Nat.digitChar (n / 4096 % 16), Nat.digitChar (n / 256 % 16), Nat.digitChar (n / 16 % 16),
      Nat.digitChar (n % 16)] = some n := by
  have h₁ := hexValue_digitChar (n / 4096 % 16) (Nat.mod_lt _ (by norm_num))
  have h₂ := hexValue_digitChar (n / 256 % 16) (Nat.mod_lt _ (by norm_num))
  have h₃ := hexValue_digitChar (n / 16 % 16) (Nat.mod_lt _ (by norm_num))
  have h₄ := hexValue_digitChar (n % 16) (Nat.mod_lt _ (by norm_num))
  simp only [hexNumber, List.foldlM_cons, List.foldlM_nil, h₁, h₂, h₃, h₄, Option.map_some, Option.bind_eq_bind,
    Option.bind_some, Option.pure_def, Option.some.injEq]
  omega

theorem scalar_toNat (c : Char) : scalar c.toNat = some c := by
  have hvalid : c.toNat.isValidChar := c.valid
  rw [scalar, if_pos hvalid, Char.ofNat_toNat]

theorem scalar_surrogate {n : ℕ} (h : 0xd800 ≤ n ∧ n < 0xe000) : scalar n = none := by
  rw [scalar, if_neg]
  unfold Nat.isValidChar
  omega

/-- Four hexadecimal digits are read as the character of their number, if there is one. -/
theorem quoted_hexEscape {n : ℕ} (h : n < 0x10000) (tail : List Char) :
    quoted (hexEscape n ++ tail) = push (scalar n) (quoted tail) := by
  have hescaped : escaped [Nat.digitChar (n / 4096 % 16), Nat.digitChar (n / 256 % 16), Nat.digitChar (n / 16 % 16),
      Nat.digitChar (n % 16)] = scalar n := by
    rw [escaped, hexNumber_digits h, Option.bind_some]
  simp only [hexEscape, List.cons_append, List.nil_append]
  rw [quoted_number, hescaped]

theorem quoted_letter {c l : Char} (h : letterEscape c = some l) (tail : List Char) :
    quoted ('\\' :: l :: tail) = push (some c) (quoted tail) := by
  have hletter : letter l = some c ∧ l ≠ 'x' ∧ l ≠ 'u' ∧ l ≠ 'U' := by
    unfold letterEscape at h
    split_ifs at h with h₁ h₂ h₃ h₄ h₅ h₆ h₇
    all_goals
      obtain rfl := Option.some.inj h
      subst c
      decide
  obtain ⟨hread, hx, hu, hU⟩ := hletter
  rw [quoted_short hx hu hU, hread]

/-- A character that needs no escape stands for itself. -/
theorem quoted_raw {c : Char} (h : letterEscape c = none) (hcontrol : 0x20 ≤ c.toNat) (tail : List Char) :
    quoted (c :: tail) = push (some c) (quoted tail) := by
  have hbackslash : c ≠ '\\' := by
    rintro rfl
    simp [letterEscape] at h
  have hquote : c ≠ '"' := by
    rintro rfl
    simp [letterEscape] at h
  exact quoted_cons hquote hbackslash hcontrol tail

theorem quoted_escapeChar (c : Char) (tail : List Char) :
    quoted (escapeChar c ++ tail) = push (some c) (quoted tail) := by
  unfold escapeChar
  cases hletter : letterEscape c with
  | some l => exact quoted_letter hletter tail
  | none =>
    by_cases hcontrol : c.toNat < 0x20
    · simp only [if_pos hcontrol]
      rw [quoted_hexEscape (by omega), scalar_toNat]
    · simp only [if_neg hcontrol, List.cons_append, List.nil_append]
      exact quoted_raw hletter (by omega) tail

/-- A character of the first plane. -/
def basic (c : Char) : Bool := c.toNat < 0x10000

theorem quoted_escapeAscii (c : Char) (tail : List Char) :
    quoted (escapeAscii c ++ tail) = if basic c = true then push (some c) (quoted tail) else none := by
  unfold escapeAscii
  cases hletter : letterEscape c with
  | some l =>
    have hbasic : basic c = true := by
      unfold letterEscape at hletter
      split_ifs at hletter
      all_goals
        subst c
        decide
    rw [if_pos hbasic]
    exact quoted_letter hletter tail
  | none =>
    by_cases hbasic : basic c = true
    · have hplane : c.toNat < 0x10000 := by simpa [basic] using hbasic
      rw [if_pos hbasic]
      by_cases hprinted : 0x20 ≤ c.toNat ∧ c.toNat ≤ 0x7e
      · simp only [if_pos hprinted, List.cons_append, List.nil_append]
        exact quoted_raw hletter hprinted.1 tail
      · simp only [if_neg hprinted, if_pos hplane]
        rw [quoted_hexEscape hplane, scalar_toNat]
    · -- the first of two surrogates is refused
      have hplane : ¬c.toNat < 0x10000 := by simpa [basic] using hbasic
      have hvalid : c.toNat < 0x110000 := by
        have := c.valid
        simp only [UInt32.isValidChar, Nat.isValidChar] at this
        simp only [Char.toNat]
        omega
      rw [if_neg hbasic]
      simp only [if_neg (by omega : ¬(0x20 ≤ c.toNat ∧ c.toNat ≤ 0x7e)), if_neg hplane, List.append_assoc]
      rw [quoted_hexEscape (by omega), scalar_surrogate (by omega)]
      rfl

theorem quoted_escaped (cs rest : List Char) : quoted (cs.flatMap escapeChar ++ '"' :: rest) = some (cs, rest) := by
  induction cs with
  | nil => simp
  | cons c cs ih =>
    rw [List.flatMap_cons, List.append_assoc, quoted_escapeChar, ih]
    rfl

/-- A string that is written in ASCII is read if it is of the first plane. -/
theorem quoted_ascii (cs rest : List Char) : quoted (cs.flatMap escapeAscii ++ '"' :: rest) =
    if cs.all basic = true then some (cs, rest) else none := by
  induction cs with
  | nil => simp
  | cons c cs ih =>
    rw [List.flatMap_cons, List.append_assoc, quoted_escapeAscii, ih]
    by_cases hc : basic c = true
    · by_cases hcs : cs.all basic = true
      · simp [hc, hcs, push]
      · simp [hc, hcs, push]
    · simp [hc]

end Strings

section Words

theorem takeWhile_word {w rest : List Char} (hw : ∀ c ∈ w, isWordChar c = true)
    (hrest : ∀ c ∈ rest.head?, isWordChar c = false) :
    (w ++ rest).takeWhile isWordChar = w ∧ (w ++ rest).dropWhile isWordChar = rest := by
  induction w with
  | nil =>
    cases rest with
    | nil => simp
    | cons c rest =>
      have hc := hrest c (by simp)
      simp [hc]
  | cons c w ih =>
    obtain ⟨htake, hdrop⟩ := ih fun d hd => hw d (List.mem_cons_of_mem _ hd)
    have hc := hw c List.mem_cons_self
    simp [hc, htake, hdrop]

theorem plain_word {w rest : List Char} {v : Json} (hw : ∀ c ∈ w, isWordChar c = true)
    (hrest : ∀ c ∈ rest.head?, isWordChar c = false) (hv : resolve w = some v) :
    plain (w ++ rest) = some (v, rest) := by
  obtain ⟨htake, hdrop⟩ := takeWhile_word hw hrest
  rw [plain, htake, hdrop, hv, Option.map_some]

theorem naturalOf_toDigits (n : ℕ) : naturalOf (Nat.toDigits 10 n) = some n := by
  have hdigits : (Nat.toDigits 10 n).all Char.isDigit = true := by
    rw [List.all_eq_true]
    intro c hc
    exact Nat.isDigit_of_mem_toDigits (by norm_num) (by norm_num) hc
  rw [naturalOf, if_pos ⟨Nat.toDigits_ne_nil, hdigits⟩, Nat.ofDigitChars_toDigits (by norm_num) (by norm_num)]

/-- The digits of a number, with its sign. -/
theorem toList_toString (n : ℤ) :
    (toString n).toList = (if n < 0 then ['-'] else []) ++ Nat.toDigits 10 n.natAbs := by
  cases n with
  | ofNat m =>
    have hneg : ¬Int.ofNat m < 0 := by simp
    rw [if_neg hneg]
    change (toString m).toList = _
    simp
  | negSucc m =>
    rw [if_pos (Int.negSucc_lt_zero m)]
    change ("-" ++ toString (m + 1)).toList = _
    simp [String.toList_append]

theorem word_of_digit {c : Char} (h : c.isDigit = true) : isWordChar c = true := by
  simp [isWordChar, Char.isAlphanum, h]

theorem integer_word (n : ℤ) : ∀ c ∈ (toString n).toList, isWordChar c = true := by
  intro c hc
  rw [toList_toString] at hc
  obtain hsign | hdigit := List.mem_append.mp hc
  · split_ifs at hsign
    · obtain rfl := List.mem_singleton.mp hsign
      decide
    · cases hsign
  · exact word_of_digit (Nat.isDigit_of_mem_toDigits (by norm_num) (by norm_num) hdigit)

theorem resolve_integer (n : ℤ) : resolve (toString n).toList = some (.int n) := by
  have hinteger : integerOf (toString n).toList = some n := by
    rw [toList_toString]
    by_cases hneg : n < 0
    · rw [if_pos hneg, List.cons_append, List.nil_append]
      simp [integerOf, naturalOf_toDigits, abs_of_neg hneg]
    · have habs : ((n.natAbs : ℕ) : ℤ) = n := by omega
      rw [if_neg hneg, List.nil_append]
      cases hdigits : Nat.toDigits 10 n.natAbs with
      | nil => exact absurd hdigits Nat.toDigits_ne_nil
      | cons c digits =>
        have hc : c.isDigit = true :=
          Nat.isDigit_of_mem_toDigits (b := 10) (n := n.natAbs) (by norm_num) (by norm_num)
            (hdigits ▸ List.mem_cons_self)
        have hminus : c ≠ '-' := by
          rintro rfl
          simp [Char.isDigit] at hc
        have hplus : c ≠ '+' := by
          rintro rfl
          simp [Char.isDigit] at hc
        simp only [integerOf, if_neg hminus, if_neg hplus, ← hdigits, naturalOf_toDigits, Option.map_some]
        exact congrArg some habs
  rw [resolve.eq_def, hinteger]

end Words

section Values

/-- What follows a node in one line. -/
def Stops (rest : List Char) : Prop := ∀ c ∈ rest.head?, isWordChar c = false

theorem stops_cons {c : Char} {rest : List Char} (h : isWordChar c = false) : Stops (c :: rest) := by
  intro d hd
  obtain rfl := Option.some.inj hd
  exact h

theorem dropSpaces_cons {c : Char} (h : c ≠ ' ') (rest : List Char) : dropSpaces (c :: rest) = c :: rest := by
  simp [dropSpaces, h]

theorem node_word {w rest : List Char} {v : Json} (hw : ∀ c ∈ w, isWordChar c = true) (hne : w ≠ [])
    (hrest : Stops rest) (hv : resolve w = some v) {fuel : ℕ} (hfuel : 0 < fuel) :
    node fuel (w ++ rest) = some (v, rest) := by
  obtain ⟨fuel, rfl⟩ := Nat.exists_eq_succ_of_ne_zero hfuel.ne'
  have hplain := plain_word hw hrest hv
  cases w with
  | nil => exact absurd rfl hne
  | cons c w =>
    have hc := hw c List.mem_cons_self
    have hspace : c ≠ ' ' := by
      rintro rfl
      exact absurd hc (by decide)
    have hquote : c ≠ '"' := by
      rintro rfl
      exact absurd hc (by decide)
    have hbrace : c ≠ '\x7b' := by
      rintro rfl
      exact absurd hc (by decide)
    have hbracket : c ≠ '[' := by
      rintro rfl
      exact absurd hc (by decide)
    rw [List.cons_append] at hplain ⊢
    simp only [node, dropSpaces_cons hspace, if_neg hquote, if_neg hbrace, if_neg hbracket, hplain]

theorem node_string (s : String) (rest : List Char) {fuel : ℕ} (hfuel : 0 < fuel) :
    node fuel (quoteWith escapeChar s ++ rest) = some (.str s, rest) := by
  obtain ⟨fuel, rfl⟩ := Nat.exists_eq_succ_of_ne_zero hfuel.ne'
  have hspace : ¬ '"' = ' ' := by decide
  simp only [quoteWith, List.cons_append, List.append_assoc, List.nil_append, node, dropSpaces_cons hspace, if_true,
    quoted_escaped, Option.map_some, String.ofList_toList]

/-- A dumped value begins with neither a blank nor an end. -/
theorem dumps_head {v : Json} (hv : plainValue v = true) :
    ∃ c cs, dumps v = c :: cs ∧ c ≠ ' ' ∧ c ≠ ']' := by
  cases v with
  | null => exact ⟨'n', "ull".toList, rfl, by decide, by decide⟩
  | bool b =>
    cases b with
    | true => exact ⟨'t', "rue".toList, rfl, by decide, by decide⟩
    | false => exact ⟨'f', "alse".toList, rfl, by decide, by decide⟩
  | int n =>
    have hword := integer_word n
    have hresolve := resolve_integer n
    cases hdigits : (toString n).toList with
    | nil =>
      rw [hdigits] at hresolve
      cases hresolve
    | cons c cs =>
      have hc := hword c (hdigits ▸ List.mem_cons_self)
      refine ⟨c, cs, by rw [dumps, hdigits], ?_, ?_⟩
      · rintro rfl
        exact absurd hc (by decide)
      · rintro rfl
        exact absurd hc (by decide)
  | float r => cases hv
  | str s => exact ⟨'"', _, rfl, by decide, by decide⟩
  | arr xs => exact ⟨'[', _, by rw [dumps]; rfl, by decide, by decide⟩
  | obj ms => exact ⟨'\x7b', _, by rw [dumps]; rfl, by decide, by decide⟩

theorem word_null : ∀ c ∈ "null".toList, isWordChar c = true := List.all_eq_true.mp (by decide +kernel)

theorem word_bool (b : Bool) : ∀ c ∈ dumps (.bool b), isWordChar c = true := by
  cases b with
  | true => exact List.all_eq_true.mp (by decide +kernel)
  | false => exact List.all_eq_true.mp (by decide +kernel)

theorem resolve_null : resolve "null".toList = some .null := by decide +kernel

theorem resolve_bool (b : Bool) : resolve (dumps (.bool b)) = some (.bool b) := by
  cases b with
  | true => decide +kernel
  | false => decide +kernel

theorem dumps_pos {v : Json} (hv : plainValue v = true) {fuel : ℕ} (h : (dumps v).length ≤ fuel) : 0 < fuel := by
  obtain ⟨c, cs, hhead, -, -⟩ := dumps_head hv
  rw [hhead] at h
  exact Nat.lt_of_lt_of_le (Nat.succ_pos _) h

theorem dumps_ne_nil {v : Json} (hv : plainValue v = true) : dumps v ≠ [] := by
  obtain ⟨c, cs, hhead, -, -⟩ := dumps_head hv
  rw [hhead]
  exact List.cons_ne_nil c cs

mutual

/-- A dumped value is read in one line. -/
theorem node_dumps : ∀ (v : Json), plainValue v = true → ∀ (rest : List Char), Stops rest →
    ∀ fuel, (dumps v).length ≤ fuel → node fuel (dumps v ++ rest) = some (v, rest)
  | .null, hv, rest, hrest, fuel, hfuel =>
    node_word word_null (dumps_ne_nil hv) hrest resolve_null (dumps_pos hv hfuel)
  | .bool b, hv, rest, hrest, fuel, hfuel =>
    node_word (word_bool b) (dumps_ne_nil hv) hrest (resolve_bool b) (dumps_pos hv hfuel)
  | .int n, hv, rest, hrest, fuel, hfuel =>
    node_word (integer_word n) (dumps_ne_nil hv) hrest (resolve_integer n) (dumps_pos hv hfuel)
  | .float _, hv, _, _, _, _ => absurd hv (by simp [plainValue])
  | .str s, _, rest, _, fuel, hfuel => by
    rw [dumps] at hfuel ⊢
    exact node_string s rest (Nat.lt_of_lt_of_le (by simp [quoteWith]) hfuel)
  | .arr [], hv, rest, _, fuel, hfuel => by
    obtain ⟨fuel, rfl⟩ := Nat.exists_eq_succ_of_ne_zero (dumps_pos hv hfuel).ne'
    simp [dumps, dumpsItems, node, dropSpaces]
  | .arr (x :: xs), hv, rest, hrest, fuel, hfuel => by
    simp only [dumps, List.cons_append, List.length_cons, List.length_append, List.length_nil] at hfuel
    obtain ⟨fuel, rfl⟩ := Nat.exists_eq_succ_of_ne_zero (by omega : fuel ≠ 0)
    rw [plainValue] at hv
    have hitems := flowItems_dumps x xs hv rest fuel (by omega)
    have hx : plainValue x = true := by
      simp only [plainItems, Bool.and_eq_true] at hv
      exact hv.1
    obtain ⟨c, cs, hhead, hspace, hend⟩ := dumps_head hx
    have hbegin : ∃ ds, dumpsItems (x :: xs) = c :: ds := by
      cases xs with
      | nil => exact ⟨cs, by rw [dumpsItems, hhead]⟩
      | cons y ys => exact ⟨cs ++ ',' :: dumpsItems (y :: ys), by rw [dumpsItems, hhead, List.cons_append]⟩
    obtain ⟨ds, hds⟩ := hbegin
    have hopen : ¬ '[' = ' ' := by decide
    have hnot : (dropSpaces (dumpsItems (x :: xs) ++ ']' :: rest)).head? ≠ some ']' := by
      rw [hds, List.cons_append, dropSpaces_cons hspace]
      simpa using hend
    simp only [dumps, List.cons_append, List.append_assoc, List.nil_append, node, dropSpaces_cons hopen]
    rw [if_neg (by decide), if_neg (by decide), if_pos trivial, if_neg hnot, hitems, Option.map_some]
  | .obj [], hv, rest, _, fuel, hfuel => by
    obtain ⟨fuel, rfl⟩ := Nat.exists_eq_succ_of_ne_zero (dumps_pos hv hfuel).ne'
    simp [dumps, dumpsMembers, node, dropSpaces]
  | .obj ((k, x) :: ms), hv, rest, hrest, fuel, hfuel => by
    simp only [dumps, List.cons_append, List.length_cons, List.length_append, List.length_nil] at hfuel
    obtain ⟨fuel, rfl⟩ := Nat.exists_eq_succ_of_ne_zero (by omega : fuel ≠ 0)
    rw [plainValue, Bool.and_eq_true] at hv
    obtain ⟨hkeys, hmembers⟩ := hv
    have hread := flowMembers_dumps k x ms hmembers rest fuel (by omega)
    have hbegin : ∃ ds, dumpsMembers ((k, x) :: ms) = '"' :: ds := by
      cases ms with
      | nil => exact ⟨_, by rw [dumpsMembers, quoteWith]; rfl⟩
      | cons m ms => exact ⟨_, by rw [dumpsMembers, quoteWith]; rfl⟩
    obtain ⟨ds, hds⟩ := hbegin
    have hopen : ¬ '\x7b' = ' ' := by decide
    have hquote : ¬ '"' = ' ' := by decide
    have hnot : (dropSpaces (dumpsMembers ((k, x) :: ms) ++ '\x7d' :: rest)).head? ≠ some '\x7d' := by
      rw [hds, List.cons_append, dropSpaces_cons hquote]
      simp
    simp only [dumps, List.cons_append, List.append_assoc, List.nil_append, node, dropSpaces_cons hopen]
    rw [if_neg (by decide), if_pos trivial, if_neg hnot, hread, Option.bind_some, mapping, if_pos (by simpa using hkeys)]
termination_by v => sizeOf v

theorem flowItems_dumps : ∀ (x : Json) (xs : List Json), plainItems (x :: xs) = true → ∀ (rest : List Char),
    ∀ fuel, (dumpsItems (x :: xs)).length + 1 ≤ fuel →
    flowItems fuel (dumpsItems (x :: xs) ++ ']' :: rest) = some (x :: xs, rest)
  | x, [], hv, rest, fuel, hfuel => by
    obtain ⟨fuel, rfl⟩ := Nat.exists_eq_succ_of_ne_zero (by omega : fuel ≠ 0)
    rw [dumpsItems] at hfuel ⊢
    simp only [plainItems, Bool.and_true] at hv
    have hx := node_dumps x hv (']' :: rest) (stops_cons (by decide)) fuel (by omega)
    have hend : ¬ ']' = ' ' := by decide
    simp only [flowItems, hx, Option.bind_eq_bind, Option.bind_some, dropSpaces_cons hend]
    rw [if_neg (by decide), if_pos trivial]
  | x, y :: ys, hv, rest, fuel, hfuel => by
    obtain ⟨fuel, rfl⟩ := Nat.exists_eq_succ_of_ne_zero (by omega : fuel ≠ 0)
    rw [dumpsItems] at hfuel ⊢
    rw [plainItems, Bool.and_eq_true] at hv
    simp only [List.length_append, List.length_cons] at hfuel
    have hx := node_dumps x hv.1 (',' :: (dumpsItems (y :: ys) ++ ']' :: rest)) (stops_cons (by decide)) fuel (by omega)
    have hys := flowItems_dumps y ys hv.2 rest fuel (by omega)
    have hcomma : ¬ ',' = ' ' := by decide
    simp only [List.append_assoc, List.cons_append, flowItems, hx, Option.bind_eq_bind, Option.bind_some,
      dropSpaces_cons hcomma, if_true, hys]
termination_by x xs => sizeOf (x :: xs)

theorem flowMembers_dumps : ∀ (k : String) (x : Json) (ms : List (String × Json)),
    plainMembers ((k, x) :: ms) = true → ∀ (rest : List Char), ∀ fuel,
    (dumpsMembers ((k, x) :: ms)).length + 1 ≤ fuel →
    flowMembers fuel (dumpsMembers ((k, x) :: ms) ++ '\x7d' :: rest) = some ((k, x) :: ms, rest)
  | k, x, [], hv, rest, fuel, hfuel => by
    obtain ⟨fuel, rfl⟩ := Nat.exists_eq_succ_of_ne_zero (by omega : fuel ≠ 0)
    rw [dumpsMembers] at hfuel ⊢
    simp only [plainMembers, Bool.and_true] at hv
    simp only [List.length_append, List.length_cons] at hfuel
    have hx := node_dumps x hv ('\x7d' :: rest) (stops_cons (by decide)) fuel (by omega)
    have hquote : ¬ '"' = ' ' := by decide
    have hcolon : ¬ ':' = ' ' := by decide
    have hend : ¬ '\x7d' = ' ' := by decide
    simp only [quoteWith, List.cons_append, List.append_assoc, List.nil_append, flowMembers, dropSpaces_cons hquote,
      if_true, quoted_escaped, Option.bind_eq_bind, Option.bind_some, dropSpaces_cons hcolon, hx,
      dropSpaces_cons hend, String.ofList_toList]
    rw [if_neg (by decide)]
  | k, x, (l, y) :: ms, hv, rest, fuel, hfuel => by
    obtain ⟨fuel, rfl⟩ := Nat.exists_eq_succ_of_ne_zero (by omega : fuel ≠ 0)
    rw [dumpsMembers] at hfuel ⊢
    rw [plainMembers, Bool.and_eq_true] at hv
    simp only [List.length_append, List.length_cons] at hfuel
    have hx := node_dumps x hv.1 (',' :: (dumpsMembers ((l, y) :: ms) ++ '\x7d' :: rest)) (stops_cons (by decide)) fuel
      (by omega)
    have hms := flowMembers_dumps l y ms hv.2 rest fuel (by omega)
    have hquote : ¬ '"' = ' ' := by decide
    have hcolon : ¬ ':' = ' ' := by decide
    have hcomma : ¬ ',' = ' ' := by decide
    simp only [quoteWith, List.cons_append, List.append_assoc, List.nil_append, flowMembers, dropSpaces_cons hquote,
      if_true, quoted_escaped, Option.bind_eq_bind, Option.bind_some, dropSpaces_cons hcolon, hx,
      dropSpaces_cons hcomma, String.ofList_toList, hms]
termination_by k x ms => sizeOf ((k, x) :: ms)

end

theorem inline_ascii (s : String) : inline (dumpsAscii s) = if s.toList.all basic = true then some (.str s) else none := by
  have hspace : ¬ '"' = ' ' := by decide
  have hread := quoted_ascii s.toList []
  simp only [inline, dumpsAscii, quoteWith, List.cons_append, node, dropSpaces_cons hspace, if_true, hread]
  by_cases hbasic : s.toList.all basic = true
  · simp [hbasic, dropSpaces]
  · simp [hbasic]

end Values

section Lines

/-- A character that does not break a line. -/
def within (c : Char) : Bool := c ≠ '\n' && c ≠ '\r'

theorem within_hexEscape (n : ℕ) : ∀ c ∈ hexEscape n, within c = true := by
  have hdigit : ∀ d < 16, within (Nat.digitChar d) = true := by decide +kernel
  intro c hc
  simp only [hexEscape, List.mem_cons, List.not_mem_nil, or_false] at hc
  obtain rfl | rfl | rfl | rfl | rfl | rfl := hc
  · decide
  · decide
  all_goals exact hdigit _ (Nat.mod_lt _ (by norm_num))

theorem within_letter {c l : Char} (h : letterEscape c = some l) : ∀ d ∈ ['\\', l], within d = true := by
  have hl : within l = true := by
    unfold letterEscape at h
    split_ifs at h
    all_goals
      obtain rfl := Option.some.inj h
      decide
  intro d hd
  simp only [List.mem_cons, List.not_mem_nil, or_false] at hd
  obtain rfl | rfl := hd
  · decide
  · exact hl

theorem within_raw {c : Char} (h : letterEscape c = none) : within c = true := by
  by_contra hbreak
  have hc : c = '\n' ∨ c = '\r' := by
    by_contra hnot
    exact hbreak (by simpa [within, not_or] using hnot)
  obtain rfl | rfl := hc
  · simp [letterEscape] at h
  · simp [letterEscape] at h

theorem within_escapeChar (c : Char) : ∀ d ∈ escapeChar c, within d = true := by
  unfold escapeChar
  cases hletter : letterEscape c with
  | some l => exact within_letter hletter
  | none =>
    by_cases hcontrol : c.toNat < 0x20
    · simpa only [if_pos hcontrol] using within_hexEscape c.toNat
    · simpa [hcontrol] using within_raw hletter

theorem within_quoteWith {escape : Char → List Char} (h : ∀ c, ∀ d ∈ escape c, within d = true) (s : String) :
    ∀ c ∈ quoteWith escape s, within c = true := by
  intro c hc
  simp only [quoteWith, List.cons_append, List.mem_cons, List.mem_append, List.mem_flatMap, List.not_mem_nil,
    or_false] at hc
  obtain rfl | ⟨d, -, hd⟩ | rfl := hc
  · decide
  · exact h d c hd
  · decide

theorem within_word {w : List Char} (h : ∀ c ∈ w, isWordChar c = true) : ∀ c ∈ w, within c = true := by
  intro c hc
  have hword := h c hc
  by_contra hbreak
  have hbad : c = '\n' ∨ c = '\r' := by
    by_contra hnot
    exact hbreak (by simpa [within, not_or] using hnot)
  obtain rfl | rfl := hbad
  · exact absurd hword (by decide)
  · exact absurd hword (by decide)

mutual

/-- A dumped value stays in its line. -/
theorem within_dumps : ∀ (v : Json), plainValue v = true → ∀ c ∈ dumps v, within c = true
  | .null, _ => within_word word_null
  | .bool b, _ => within_word (word_bool b)
  | .int n, _ => within_word (integer_word n)
  | .float _, hv => absurd hv (by simp [plainValue])
  | .str s, _ => within_quoteWith within_escapeChar s
  | .arr xs, hv => by
    intro c hc
    simp only [dumps, List.cons_append, List.mem_cons, List.mem_append, List.not_mem_nil, or_false] at hc
    obtain rfl | hc | rfl := hc
    · decide
    · exact within_dumpsItems xs (by simpa [plainValue] using hv) c hc
    · decide
  | .obj ms, hv => by
    rw [plainValue, Bool.and_eq_true] at hv
    intro c hc
    simp only [dumps, List.cons_append, List.mem_cons, List.mem_append, List.not_mem_nil, or_false] at hc
    obtain rfl | hc | rfl := hc
    · decide
    · exact within_dumpsMembers ms hv.2 c hc
    · decide

theorem within_dumpsItems : ∀ (xs : List Json), plainItems xs = true → ∀ c ∈ dumpsItems xs, within c = true
  | [], _ => by simp [dumpsItems]
  | [x], hv => by
    rw [dumpsItems]
    exact within_dumps x (by simpa [plainItems] using hv)
  | x :: y :: ys, hv => by
    rw [plainItems, Bool.and_eq_true] at hv
    intro c hc
    simp only [dumpsItems, List.mem_append, List.mem_cons] at hc
    obtain hc | rfl | hc := hc
    · exact within_dumps x hv.1 c hc
    · decide
    · exact within_dumpsItems (y :: ys) hv.2 c hc

theorem within_dumpsMembers : ∀ (ms : List (String × Json)), plainMembers ms = true →
    ∀ c ∈ dumpsMembers ms, within c = true
  | [], _ => by simp [dumpsMembers]
  | [(k, x)], hv => by
    intro c hc
    simp only [dumpsMembers, List.mem_append, List.mem_cons] at hc
    obtain hc | rfl | hc := hc
    · exact within_quoteWith within_escapeChar k c hc
    · decide
    · exact within_dumps x (by simpa [plainMembers] using hv) c hc
  | (k, x) :: m :: ms, hv => by
    rw [plainMembers, Bool.and_eq_true] at hv
    intro c hc
    simp only [dumpsMembers, List.mem_append, List.mem_cons] at hc
    obtain (hc | rfl | hc) | rfl | hc := hc
    · exact within_quoteWith within_escapeChar k c hc
    · decide
    · exact within_dumps x hv.1 c hc
    · decide
    · exact within_dumpsMembers (m :: ms) hv.2 c hc

end

end Lines

section Blocks

/-- A text that is a node of its own line. -/
structure Leaf (text : List Char) : Prop where
  head : ∃ c cs, text = c :: cs ∧ c ≠ ' ' ∧ c ≠ '-'
  alone : ∀ indent, (Line.mk indent text).entry = none

theorem leaf_dumpsAscii (s : String) : Leaf (dumpsAscii s) := by
  refine ⟨⟨'"', _, rfl, by decide, by decide⟩, ?_⟩
  intro indent
  have hread := quoted_ascii s.toList []
  simp only [Line.entry, dumpsAscii, quoteWith, List.cons_append, if_true, hread]
  by_cases hbasic : s.toList.all basic = true
  · simp [hbasic, afterColon]
  · simp [hbasic]

def dashed (indent : ℕ) (text : List Char) : Line := ⟨indent, '-' :: ' ' :: text⟩

theorem item_dashed (indent : ℕ) {text : List Char} (h : Leaf text) :
    (dashed indent text).item = some ⟨indent + 2, text⟩ := by
  obtain ⟨c, cs, rfl, hspace, -⟩ := h.head
  simp [dashed, Line.item, dropSpaces, hspace]

theorem block_leaf {indent fuel : ℕ} {text : List Char} (h : Leaf text) (lines : List Line) :
    block (fuel + 1) (⟨indent, text⟩ :: lines) = (inline text).map fun v => (v, lines) := by
  have hitem : (Line.mk indent text).item = none := by
    obtain ⟨c, cs, rfl, -, hdash⟩ := h.head
    simp only [Line.item]
    split
    · rename_i heq
      cases heq
      exact absurd rfl hdash
    · rfl
  simp [block, hitem, h.alone indent]

/-- The entries of a sequence of leaves are read line by line. -/
theorem items_leaves {indent : ℕ} {texts : List (List Char)} {rest : List Line} (h : ∀ text ∈ texts, Leaf text)
    (hrest : ∀ line ∈ rest.head?, line.indent < indent) {fuel : ℕ} (hfuel : texts.length + 2 ≤ fuel) :
    items fuel indent (texts.map (dashed indent) ++ rest) = (texts.mapM inline).map fun vs => (vs, rest) := by
  induction texts generalizing fuel with
  | nil =>
    obtain ⟨fuel, rfl⟩ := Nat.exists_eq_succ_of_ne_zero (by omega : fuel ≠ 0)
    cases rest with
    | nil => simp [items]
    | cons line rest => simp [items, hrest line (by simp)]
  | cons text texts ih =>
    simp only [List.length_cons] at hfuel
    obtain ⟨fuel, rfl⟩ := Nat.exists_eq_succ_of_ne_zero (by omega : fuel ≠ 0)
    obtain ⟨below, rfl⟩ := Nat.exists_eq_succ_of_ne_zero (by omega : fuel ≠ 0)
    have htext := h text List.mem_cons_self
    have hlater := ih (fun t ht => h t (List.mem_cons_of_mem _ ht)) (by omega : texts.length + 2 ≤ below + 1)
    have hindent : (dashed indent text).indent = indent := rfl
    simp only [List.map_cons, List.cons_append, items, hindent, lt_irrefl, if_false, item_dashed indent htext,
      block_leaf htext, List.mapM_cons]
    cases hinline : inline text with
    | none => simp
    | some v =>
      simp only [Option.map_some, Option.bind_eq_bind, Option.bind_some, hlater]
      cases htexts : texts.mapM inline with
      | none => simp
      | some vs => simp

theorem block_leaves (indent : ℕ) {texts : List (List Char)} (rest : List Line) (hne : texts ≠ [])
    (h : ∀ text ∈ texts, Leaf text) (hrest : ∀ line ∈ rest.head?, line.indent < indent) {fuel : ℕ}
    (hfuel : texts.length + 3 ≤ fuel) :
    block fuel (texts.map (dashed indent) ++ rest) = (texts.mapM inline).map fun vs => (.arr vs, rest) := by
  obtain ⟨fuel, rfl⟩ := Nat.exists_eq_succ_of_ne_zero (by omega : fuel ≠ 0)
  have hitems := items_leaves h hrest (by omega : texts.length + 2 ≤ fuel)
  cases texts with
  | nil => exact absurd rfl hne
  | cons text texts =>
    have hitem := item_dashed indent (h text List.mem_cons_self)
    have hindent : (dashed indent text).indent = indent := rfl
    rw [List.map_cons, List.cons_append] at hitems ⊢
    simp only [block, hitem, Option.isSome_some, if_true, hindent, hitems, Option.map_map]
    rfl

/-- An entry whose value stands in the lines below. -/
theorem entries_nested {fuel indent : ℕ} {head : List Char} {lines : List Line} {key : String}
    (hentry : (Line.mk indent head).entry = some (key, [])) (hnested : nested indent lines = true) :
    entries (fuel + 1) indent (⟨indent, head⟩ :: lines) =
      (block fuel lines).bind fun r => (entries fuel indent r.2).map fun s => ((key, r.1) :: s.1, s.2) := by
  simp only [entries, lt_irrefl, if_false, hentry, hnested, if_true, ne_eq, not_true_eq_false]
  cases block fuel lines with
  | none => simp
  | some r =>
    cases hrest : entries fuel indent r.2 with
    | none => simp [hrest]
    | some s => simp [hrest]

theorem entries_inline {fuel indent : ℕ} {head text : List Char} {lines : List Line} {key : String} {v : Json}
    (hentry : (Line.mk indent head).entry = some (key, text)) (hne : text ≠ []) (hv : inline text = some v) :
    entries (fuel + 1) indent (⟨indent, head⟩ :: lines) =
      (entries fuel indent lines).map fun s => ((key, v) :: s.1, s.2) := by
  simp only [entries, lt_irrefl, if_false, hentry, hne, ne_eq, not_false_eq_true, if_true, hv]
  cases hrest : entries fuel indent lines with
  | none => simp [hrest]
  | some s => simp [hrest]

/-- A mapping ends where the indentation falls back. -/
theorem entries_end {fuel indent : ℕ} {lines : List Line} (h : ∀ line ∈ lines.head?, line.indent < indent) :
    entries (fuel + 1) indent lines = some ([], lines) := by
  cases lines with
  | nil => rfl
  | cons line lines => simp [entries, h line (by simp)]

theorem items_end {fuel indent : ℕ} {lines : List Line} (h : ∀ line ∈ lines.head?, line.indent < indent) :
    items (fuel + 1) indent lines = some ([], lines) := by
  cases lines with
  | nil => rfl
  | cons line lines => simp [items, h line (by simp)]

theorem block_mapping {fuel indent : ℕ} {head : List Char} {lines : List Line}
    (hitem : (Line.mk indent head).item = none) (hentry : (Line.mk indent head).entry.isSome = true) :
    block (fuel + 1) (⟨indent, head⟩ :: lines) =
      (entries fuel indent (⟨indent, head⟩ :: lines)).bind fun r => mapping r.1 r.2 := by
  simp [block, hitem, hentry]

theorem items_entry {fuel indent : ℕ} {head : List Char} {inner : Line} {lines : List Line}
    (hitem : (Line.mk indent head).item = some inner) :
    items (fuel + 1) indent (⟨indent, head⟩ :: lines) =
      (block fuel (inner :: lines)).bind fun r => (items fuel indent r.2).map fun s => (r.1 :: s.1, s.2) := by
  simp only [items, lt_irrefl, if_false, hitem]
  cases block fuel (inner :: lines) with
  | none => simp
  | some r =>
    cases hrest : items fuel indent r.2 with
    | none => simp [hrest]
    | some s => simp [hrest]

theorem block_sequence {fuel indent : ℕ} {head : List Char} {lines : List Line}
    (hitem : (Line.mk indent head).item.isSome = true) :
    block (fuel + 1) (⟨indent, head⟩ :: lines) =
      (items fuel indent (⟨indent, head⟩ :: lines)).map fun r => (.arr r.1, r.2) := by
  simp only [block, hitem, if_true]

theorem mapM_inline_ascii (ss : List String) : (ss.map dumpsAscii).mapM inline =
    if (ss.all fun s => s.toList.all basic) = true then some (ss.map .str) else none := by
  induction ss with
  | nil => rfl
  | cons s ss ih =>
    rw [List.map_cons, List.mapM_cons, inline_ascii, ih]
    by_cases hs : s.toList.all basic = true
    · by_cases hss : (ss.all fun s => s.toList.all basic) = true
      · simp [hs, hss]
      · simp [hs, hss]
    · simp [hs]

end Blocks

end Lingsway.Library.Yaml
