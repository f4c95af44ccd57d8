import BlockFlow.Cli.Options
import BlockFlow.Decimal.Numeral

/-!
# Counts in arguments

A count is a text of decimal digits, at least one, behind a plus sign or not, whose value fits a
machine word (`IsCount`). Any other text is refused for the first character at which reading it
has to stop (`NoCount`). Both are decided by `readCount` (`readCount_eq_ok_iff`,
`readCount_eq_error_iff`).
-/

set_option autoImplicit false

namespace BlockFlow.Cli

/-- The number that decimal digits stand for. -/
def digitsValue (digits : List Char) : Nat := Numeral.ofDigits (digits.map Numeral.digitValue)

/-- The characters of a text behind a plus sign, or all if it does not begin with one. -/
def unsigned (text : String) : List Char :=
  match text.toList with
  | '+' :: cs => cs
  | cs => cs

/-- The text is a count with this value. -/
structure IsCount (text : String) (n : Nat) : Prop where
  nonempty : unsigned text ≠ []
  digits : ∀ c ∈ unsigned text, c.isDigit
  value : digitsValue (unsigned text) = n
  fits : n < wordBound

/-- The text is no count for this reason. Behind digits whose value fits a word stands a character
that is no digit, or the digit with which the value fits no more. -/
inductive NoCount : String → CountError → Prop where
  | empty : NoCount "" .empty
  | signOnly : NoCount "+" .invalidDigit
  | invalidDigit {text : String} {digits : List Char} {c : Char} {rest : List Char}
      (split : unsigned text = digits ++ c :: rest) (all : ∀ d ∈ digits, d.isDigit)
      (fits : digitsValue digits < wordBound) (stop : ¬ c.isDigit) : NoCount text .invalidDigit
  | tooLarge {text : String} {digits : List Char} {c : Char} {rest : List Char}
      (split : unsigned text = digits ++ c :: rest) (all : ∀ d ∈ digits, d.isDigit)
      (fits : digitsValue digits < wordBound) (digit : c.isDigit)
      (large : wordBound ≤ digitsValue (digits ++ [c])) : NoCount text .tooLarge

/-! ## Digits -/

theorem isDigit_iff {c : Char} : c.isDigit ↔ '0' ≤ c ∧ c ≤ '9' := by
  simp [Char.isDigit, Char.le_def]

theorem digit?_of_isDigit {c : Char} (h : c.isDigit) : digit? c = some (Numeral.digitValue c) := by
  rw [digit?, if_pos (isDigit_iff.1 h)]
  rfl

theorem digit?_of_not_isDigit {c : Char} (h : ¬ c.isDigit) : digit? c = none := by
  rw [digit?, if_neg fun hbounds => h (isDigit_iff.2 hbounds)]

/-- The number that digits stand for behind others whose value is `n`. -/
def valueBehind (n : Nat) (digits : List Char) : Nat :=
  digits.foldl (fun n c => 10 * n + Numeral.digitValue c) n

theorem digitsValue_eq (digits : List Char) : digitsValue digits = valueBehind 0 digits := by
  rw [digitsValue, Numeral.ofDigits, List.foldl_map, valueBehind]

theorem valueBehind_cons (n : Nat) (c : Char) (digits : List Char) :
    valueBehind n (c :: digits) = valueBehind (10 * n + Numeral.digitValue c) digits := by
  rw [valueBehind, List.foldl_cons, valueBehind]

theorem valueBehind_append_singleton (n : Nat) (digits : List Char) (c : Char) :
    valueBehind n (digits ++ [c]) = 10 * valueBehind n digits + Numeral.digitValue c := by
  rw [valueBehind, List.foldl_append, List.foldl_cons, List.foldl_nil, valueBehind]

/-- More digits make no smaller number. -/
theorem le_valueBehind (n : Nat) (digits : List Char) : n ≤ valueBehind n digits := by
  induction digits generalizing n with
  | nil => exact Nat.le_refl n
  | cons c digits ih =>
    have hstep := ih (10 * n + Numeral.digitValue c)
    rw [valueBehind_cons]
    omega

/-! ## Reading digits -/

/-- How reading ends with what stands behind digits whose value is `n`. -/
inductive DigitsEnd (n : Nat) : List Char → Except CountError Nat → Prop where
  | all : DigitsEnd n [] (.ok n)
  | invalidDigit {c : Char} {rest : List Char} (stop : ¬ c.isDigit) :
      DigitsEnd n (c :: rest) (.error .invalidDigit)
  | tooLarge {c : Char} {rest : List Char} (digit : c.isDigit)
      (large : wordBound ≤ 10 * n + Numeral.digitValue c) :
      DigitsEnd n (c :: rest) (.error .tooLarge)

theorem readDigits_cons_of_isDigit {n : Nat} {c : Char} (h : c.isDigit) (cs : List Char) :
    readDigits n (c :: cs) =
      if 10 * n + Numeral.digitValue c < wordBound then
        readDigits (10 * n + Numeral.digitValue c) cs
      else
        .error .tooLarge := by
  rw [readDigits, digit?_of_isDigit h]

theorem DigitsEnd.readDigits_eq {n : Nat} {cs : List Char} {result : Except CountError Nat}
    (h : DigitsEnd n cs result) : readDigits n cs = result := by
  cases h with
  | all => rfl
  | invalidDigit stop => rw [readDigits, digit?_of_not_isDigit stop]
  | tooLarge digit large => rw [readDigits_cons_of_isDigit digit, if_neg (Nat.not_lt.2 large)]

/-- Digits whose value fits a word are read over. -/
theorem readDigits_append {n : Nat} {digits : List Char} (hdigits : ∀ c ∈ digits, c.isDigit)
    (hfits : valueBehind n digits < wordBound) (rest : List Char) :
    readDigits n (digits ++ rest) = readDigits (valueBehind n digits) rest := by
  induction digits generalizing n with
  | nil => rfl
  | cons c digits ih =>
    obtain ⟨hc, hmore⟩ := List.forall_mem_cons.1 hdigits
    -- no number on the way is larger than the last
    have hstep := Nat.lt_of_le_of_lt (le_valueBehind _ digits) hfits
    rw [List.cons_append, readDigits_cons_of_isDigit hc, if_pos hstep, ih hmore hfits,
      valueBehind_cons]

/-- By induction over the characters: reading takes digits as long as their value fits a word. -/
theorem exists_digitsEnd (n : Nat) (hn : n < wordBound) (cs : List Char) :
    ∃ digits rest, cs = digits ++ rest ∧ (∀ c ∈ digits, c.isDigit) ∧
      valueBehind n digits < wordBound ∧
      DigitsEnd (valueBehind n digits) rest (readDigits n cs) := by
  induction cs generalizing n with
  | nil => exact ⟨[], [], rfl, nofun, hn, .all⟩
  | cons c cs ih =>
    by_cases hc : c.isDigit
    · rw [readDigits_cons_of_isDigit hc]
      split
      · rename_i hfits
        obtain ⟨digits, rest, rfl, hdigits, hvalue, hend⟩ := ih _ hfits
        exact ⟨c :: digits, rest, rfl, List.forall_mem_cons.2 ⟨hc, hdigits⟩, hvalue, hend⟩
      · rename_i hlarge
        exact ⟨[], c :: cs, rfl, nofun, hn, .tooLarge hc (Nat.not_lt.1 hlarge)⟩
    · rw [readDigits, digit?_of_not_isDigit hc]
      exact ⟨[], c :: cs, rfl, nofun, hn, .invalidDigit hc⟩

/-! ## Reading a count -/

/-- Behind its sign a count is read digit by digit. -/
theorem readCount_of_nonempty {text : String} (h : unsigned text ≠ []) :
    readCount text = readDigits 0 (unsigned text) := by
  unfold unsigned at h ⊢
  rw [readCount]
  split
  all_goals simp_all

theorem unsigned_eq_nil {text : String} (h : unsigned text = []) : text = "" ∨ text = "+" := by
  unfold unsigned at h
  split at h
  · rename_i cs hsigned
    exact .inr (String.toList_inj.1 (by rw [hsigned, h]; rfl))
  · exact .inl (String.toList_inj.1 h)

/-- What `readCount` finds out about a text. -/
def Counted (text : String) : Except CountError Nat → Prop
  | .ok n => IsCount text n
  | .error reason => NoCount text reason

theorem counted_readCount (text : String) : Counted text (readCount text) := by
  by_cases hempty : unsigned text = []
  · rcases unsigned_eq_nil hempty with rfl | rfl
    · exact NoCount.empty
    · exact NoCount.signOnly
  · obtain ⟨digits, rest, hsplit, hdigits, hfits, hend⟩ :=
      exists_digitsEnd 0 (by decide) (unsigned text)
    rw [readCount_of_nonempty hempty]
    rw [← digitsValue_eq] at hfits hend
    generalize readDigits 0 (unsigned text) = result at hend ⊢
    cases hend with
    | all =>
      rw [List.append_nil] at hsplit
      exact ⟨hempty, hsplit ▸ hdigits, congrArg digitsValue hsplit, hfits⟩
    | invalidDigit stop => exact .invalidDigit hsplit hdigits hfits stop
    | tooLarge digit large =>
      refine .tooLarge hsplit hdigits hfits digit ?_
      rw [digitsValue_eq, valueBehind_append_singleton, ← digitsValue_eq]
      exact large

theorem readCount_of_counted {text : String} {result : Except CountError Nat}
    (h : Counted text result) : readCount text = result := by
  cases result with
  | ok n =>
    obtain ⟨hnonempty, hdigits, rfl, hfits⟩ := h
    rw [digitsValue_eq] at hfits ⊢
    have hread := readDigits_append hdigits hfits []
    rw [List.append_nil] at hread
    rw [readCount_of_nonempty hnonempty, hread, readDigits]
  | error reason =>
    cases h with
    | empty => rfl
    | signOnly => rfl
    | invalidDigit split all fits stop =>
      rw [digitsValue_eq] at fits
      rw [readCount_of_nonempty (by simp [split]), split, readDigits_append all fits]
      exact (DigitsEnd.invalidDigit stop).readDigits_eq
    | tooLarge split all fits digit large =>
      rw [digitsValue_eq] at fits large
      rw [valueBehind_append_singleton] at large
      rw [readCount_of_nonempty (by simp [split]), split, readDigits_append all fits]
      exact (DigitsEnd.tooLarge digit large).readDigits_eq

theorem readCount_eq_ok_iff {text : String} {n : Nat} :
    readCount text = .ok n ↔ IsCount text n := by
  refine ⟨fun h => ?_, fun h => readCount_of_counted (show Counted text (.ok n) from h)⟩
  have hcounted := counted_readCount text
  rwa [h] at hcounted

theorem readCount_eq_error_iff {text : String} {reason : CountError} :
    readCount text = .error reason ↔ NoCount text reason := by
  refine ⟨fun h => ?_, fun h => readCount_of_counted (show Counted text (.error reason) from h)⟩
  have hcounted := counted_readCount text
  rwa [h] at hcounted

end BlockFlow.Cli
