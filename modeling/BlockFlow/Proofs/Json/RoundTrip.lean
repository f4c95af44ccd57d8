import BlockFlow.Json.Printer
import BlockFlow.Json.Reader
import BlockFlow.Proofs.Decimal.WellFormed

/-!
# Reading back what was written

A value is written as its tokens, with blanks between them (`Written.scan_pretty`), and the reader
takes the tokens of a value to that value, whatever is open around it (`Written.reads`). Together: a
value whose numbers and strings a text can hold is read back from its text
(`Written.parse_pretty`).
-/

set_option autoImplicit false

namespace BlockFlow.Json

/-! ## Values that can be written -/

/-- A string without quotes, backslashes and controls, which is written as it is. -/
def Literal.Plain (l : Literal) : Prop := ∀ c ∈ l.raw, c ≠ '"' ∧ c ≠ '\\' ∧ 0x20 ≤ c.toNat

/-- A value whose numbers and strings a text can hold. -/
inductive Written : Json → Prop
  | null : Written .null
  | bool (b : Bool) : Written (.bool b)
  | number {n : Numeral} (h : n.WellFormed) : Written (.number n)
  | string {s : Literal} (h : s.Plain) : Written (.string s)
  | array {items : List Json} (h : ∀ v ∈ items, Written v) : Written (.array items)
  | object {members : List (Literal × Json)} (hnames : ∀ m ∈ members, m.1.Plain)
      (hvalues : ∀ m ∈ members, Written m.2) : Written (.object members)

mutual

/-- The tokens of a value. -/
def tokens : Json → List Token
  | .null => [.null]
  | .bool b => [.bool b]
  | .number n => [.number n]
  | .string s => [.string s]
  | .array items => .openBracket :: itemTokens items ++ [.closeBracket]
  | .object members => .openBrace :: memberTokens members ++ [.closeBrace]

/-- The tokens of the items of an array. -/
def itemTokens : List Json → List Token
  | [] => []
  | [v] => tokens v
  | v :: w :: rest => tokens v ++ .comma :: itemTokens (w :: rest)

/-- The tokens of the members of an object. -/
def memberTokens : List (Literal × Json) → List Token
  | [] => []
  | [(k, v)] => .string k :: .colon :: tokens v
  | (k, v) :: m :: rest => .string k :: .colon :: tokens v ++ .comma :: memberTokens (m :: rest)

end

/-! ## From characters to tokens -/

namespace Token

/-- A text falls into tokens. -/
inductive Scans : List Char → List Token → Prop
  | nil : Scans [] []
  | blank {c : Char} {cs : List Char} {ts : List Token} (hblank : isBlank c = true)
      (h : Scans cs ts) : Scans (c :: cs) ts
  | token {c : Char} {cs rest : List Char} {t : Token} {ts : List Token}
      (hblank : isBlank c = false) (hnext : next? (c :: cs) = some (t, rest))
      (hshorter : rest.length ≤ cs.length) (h : Scans rest ts) : Scans (c :: cs) (t :: ts)

namespace Scans

variable {cs rest : List Char} {ts : List Token}

/-- As much fuel as the text has characters is enough: a token has at least one. -/
theorem scanFor_eq (h : Scans cs ts) {fuel : Nat} (hfuel : cs.length ≤ fuel) :
    scanFor fuel cs = some ts := by
  induction h generalizing fuel with
  | nil => cases fuel <;> rfl
  | blank hblank h ih =>
    cases fuel with
    | zero => exact absurd hfuel (by simp)
    | succ fuel =>
      rw [scanFor, if_pos hblank]
      exact ih (Nat.le_of_succ_le_succ hfuel)
  | token hblank hnext hshorter h ih =>
    cases fuel with
    | zero => exact absurd hfuel (by simp)
    | succ fuel =>
      rw [scanFor, if_neg (by simp [hblank]), hnext]
      dsimp only
      rw [ih (Nat.le_trans hshorter (Nat.le_of_succ_le_succ hfuel))]
      rfl

theorem scan_eq (h : Scans cs ts) : scan cs = some ts := h.scanFor_eq Nat.le.refl

theorem newLine (level : Nat) (h : Scans rest ts) : Scans (newLine level ++ rest) ts := by
  refine .blank rfl ?_
  induction 2 * level with
  | zero => exact h
  | succ n ih => exact .blank rfl ih

theorem punctuation {c : Char} {t : Token} (hc : ofPunctuation? c = some t) (h : Scans rest ts) :
    Scans (c :: rest) (t :: ts) := by
  unfold ofPunctuation? at hc
  split at hc
  case h_7 => exact nomatch hc
  all_goals
    obtain rfl := Option.some.inj hc
    exact .token rfl rfl Nat.le.refl h

end Scans

theorem Scans.keyword {c : Char} (word : List Char) {rest : List Char} {t : Token}
    {ts : List Token} (hblank : isBlank c = false)
    (hnext : next? (c :: (word ++ rest)) = some (t, rest)) (h : Scans rest ts) :
    Scans (c :: (word ++ rest)) (t :: ts) :=
  .token hblank hnext (by rw [List.length_append]; exact Nat.le_add_left _ _) h

/-! ### Strings -/

/-- A plain string is read up to its closing quote. -/
theorem stringBody_append {raw : List Char} (h : Literal.Plain ⟨raw⟩) (rest : List Char) :
    stringBody (raw ++ '"' :: rest) = some (raw, rest) := by
  induction raw with
  | nil => rfl
  | cons c raw ih =>
    obtain ⟨hquote, hslash, hcontrol⟩ := h c List.mem_cons_self
    have hplain : (c == '\\' || c.toNat < 0x20) = false := by
      simpa [hslash] using hcontrol
    rw [List.cons_append, stringBody, if_neg (by simp [hplain]), ih fun d hd => h d (.tail c hd)]
    · rfl
    · exact hquote
    · intro a b d e more hc
      exact absurd hc hslash
    · intro d more hc
      exact absurd hc hslash

theorem Scans.literal {l : Literal} {rest : List Char} {ts : List Token} (hl : l.Plain)
    (h : Scans rest ts) : Scans (l.chars ++ rest) (.string l :: ts) := by
  have hbody := stringBody_append hl rest
  have hchars : l.chars ++ rest = '"' :: (l.raw ++ '"' :: rest) := by simp [Literal.chars]
  rw [hchars]
  refine .token rfl ?_ ?_ h
  · show (stringBody (l.raw ++ '"' :: rest)).map _ = _
    rw [hbody]
    rfl
  · simp only [List.length_append, List.length_cons]
    omega

/-! ### Numbers -/

/-- A text that does not go on with a digit. -/
def NoDigit (cs : List Char) : Prop := ∀ c ∈ cs.head?, c.isDigit = false

/-- A text that goes on with neither a digit nor a point. -/
def EndsFraction (cs : List Char) : Prop := ∀ c ∈ cs.head?, c.isDigit = false ∧ c ≠ '.'

/-- A text that does not go on with anything that a number may have. -/
def EndsNumber (cs : List Char) : Prop :=
  ∀ c ∈ cs.head?, c.isDigit = false ∧ c ≠ '.' ∧ c ≠ 'e' ∧ c ≠ 'E'

open Numeral

theorem EndsFraction.noDigit {cs : List Char} (h : EndsFraction cs) : NoDigit cs :=
  fun c hc => (h c hc).1

theorem EndsNumber.noDigit {cs : List Char} (h : EndsNumber cs) : NoDigit cs :=
  fun c hc => (h c hc).1

/-- All digits are taken and nothing behind them. -/
theorem digits_append {ds : List Nat} {rest : List Char} (h : ∀ d ∈ ds, d < 10)
    (hrest : NoDigit rest) : digits (digitChars ds ++ rest) = (ds, rest) := by
  induction ds with
  | nil =>
    cases rest with
    | nil => rfl
    | cons c rest => simp [digits, digitChars, hrest c rfl]
  | cons d ds ih =>
    have hd : d < 10 := h d List.mem_cons_self
    have hmore := ih fun e he => h e (.tail d he)
    simp only [digits, Prod.mk.injEq] at hmore
    simpa [digits, digitChars, Nat.isDigit_digitChar, hd, digitValue_digitChar hd] using hmore

theorem wholePart?_append {ds : List Nat} {rest : List Char} (h : WholeDigits ds)
    (hrest : NoDigit rest) : wholePart? (digitChars ds ++ rest) = some (ds, rest) := by
  by_cases hzero : ds.head? = some 0
  · rw [h.eq_zero hzero]
    rfl
  · have hdigits := digits_append h.lt_ten hrest
    obtain ⟨d, ds, rfl⟩ := List.exists_cons_of_ne_nil h.ne_nil
    rw [wholePart?, hdigits]
    intro more hmore
    have hd : d.digitChar = '0' := (List.cons.inj hmore).1
    exact hzero (congrArg some (Nat.digitChar_eq_zero.1 hd))

/-- The characters of a fraction. -/
def fractionChars : Option (List Nat) → List Char
  | none => []
  | some ds => '.' :: digitChars ds

/-- The characters of an exponent. -/
def exponentChars : Option (Bool × List Nat) → List Char
  | none => []
  | some (negative, ds) => 'e' :: (if negative then '-' else '+') :: digitChars ds

theorem chars_eq (n : Numeral) : n.chars =
    (if n.negative then ['-'] else []) ++
      (digitChars n.whole ++ (fractionChars n.fraction ++ exponentChars n.exponent)) := by
  obtain ⟨negative, whole, fraction, exponent⟩ := n
  cases fraction <;> cases exponent <;> simp [chars, fractionChars, exponentChars]

theorem endsFraction_append {e : Option (Bool × List Nat)} {rest : List Char}
    (hrest : EndsNumber rest) : EndsFraction (exponentChars e ++ rest) := by
  cases e with
  | none => exact fun c hc => ⟨(hrest c hc).1, (hrest c hc).2.1⟩
  | some e =>
    intro c hc
    obtain rfl := Option.some.inj hc
    decide

theorem noDigit_fractionChars {f : Option (List Nat)} {rest : List Char} (hrest : NoDigit rest) :
    NoDigit (fractionChars f ++ rest) := by
  cases f with
  | none => exact hrest
  | some ds =>
    intro c hc
    obtain rfl := Option.some.inj hc
    rfl

theorem fractionPart?_append {f : Option (List Nat)} {rest : List Char}
    (h : ∀ ds ∈ f, Digits ds) (hrest : EndsFraction rest) :
    fractionPart? (fractionChars f ++ rest) = some (f, rest) := by
  cases f with
  | none =>
    rw [fractionChars, List.nil_append, fractionPart?]
    intro more hmore
    exact (hrest '.' (by rw [hmore]; rfl)).2 rfl
  | some ds =>
    have hds := h ds rfl
    have hdigits := digits_append hds.lt_ten hrest.noDigit
    obtain ⟨d, ds, rfl⟩ := List.exists_cons_of_ne_nil hds.ne_nil
    rw [fractionChars, List.cons_append, fractionPart?, hdigits]

theorem exponentPart?_append {e : Option (Bool × List Nat)} {rest : List Char}
    (h : ∀ x ∈ e, Digits x.2) (hrest : EndsNumber rest) :
    exponentPart? (exponentChars e ++ rest) = some (e, rest) := by
  cases e with
  | none =>
    cases rest with
    | nil => rfl
    | cons c rest =>
      obtain ⟨-, -, hlower, hupper⟩ := hrest c rfl
      rw [exponentChars, List.nil_append, exponentPart?, if_neg (by simp [hlower, hupper])]
  | some x =>
    obtain ⟨negative, ds⟩ := x
    have hds : Digits ds := h (negative, ds) rfl
    have hdigits := digits_append hds.lt_ten hrest.noDigit
    have hsign : exponentSign ((if negative then '-' else '+') :: (digitChars ds ++ rest)) =
        (negative, digitChars ds ++ rest) := by
      cases negative <;> rfl
    obtain ⟨d, ds, rfl⟩ := List.exists_cons_of_ne_nil hds.ne_nil
    rw [exponentChars, List.cons_append, List.cons_append, exponentPart?,
      if_pos (show ('e' == 'e' || 'e' == 'E') = true from rfl), hsign, hdigits]

theorem numberSign_append (negative : Bool) {ds : List Nat} (h : Digits ds) (rest : List Char) :
    numberSign ((if negative then ['-'] else []) ++ (digitChars ds ++ rest)) =
      (negative, digitChars ds ++ rest) := by
  cases negative with
  | true => rfl
  | false =>
    obtain ⟨d, ds, rfl⟩ := List.exists_cons_of_ne_nil h.ne_nil
    rw [if_neg (by simp), List.nil_append, numberSign]
    intro more hmore
    exact Nat.digitChar_ne '-' rfl (List.cons.inj hmore).1

/-- A number is read with all its parts, and nothing behind it. -/
theorem numeral?_append {n : Numeral} {rest : List Char} (h : n.WellFormed)
    (hrest : EndsNumber rest) : numeral? (n.chars ++ rest) = some (n, rest) := by
  have hends : EndsFraction (exponentChars n.exponent ++ rest) := endsFraction_append hrest
  have hsign := numberSign_append n.negative h.whole.toDigits
    (fractionChars n.fraction ++ (exponentChars n.exponent ++ rest))
  have hwhole := wholePart?_append h.whole (noDigit_fractionChars (f := n.fraction) hends.noDigit)
  have hfraction := fractionPart?_append h.fraction hends
  have hexponent := exponentPart?_append h.exponent hrest
  rw [chars_eq]
  simp only [List.append_assoc]
  simp [numeral?, hsign, hwhole, hfraction, hexponent]

theorem exists_chars_eq_cons {n : Numeral} (h : n.WellFormed) :
    ∃ c cs, n.chars = c :: cs ∧ (c.isDigit = true ∨ c = '-') := by
  rw [chars_eq]
  cases n.negative with
  | true => exact ⟨'-', _, rfl, .inr rfl⟩
  | false =>
    obtain ⟨d, ds, hds⟩ := List.exists_cons_of_ne_nil h.whole.ne_nil
    refine ⟨d.digitChar, digitChars ds ++ _, by rw [hds]; rfl, .inl ?_⟩
    rw [Nat.isDigit_digitChar]
    exact decide_eq_true (h.whole.lt_ten d (by rw [hds]; exact List.mem_cons_self))

/-- A token that starts like a number is one. -/
theorem next?_eq_numeral {c : Char} (cs : List Char) (hc : c.isDigit = true ∨ c = '-') :
    isBlank c = false ∧ next? (c :: cs) = (numeral? (c :: cs)).map fun r => (number r.1, r.2) := by
  have hne : ∀ d : Char, d.isDigit = false → d ≠ '-' → c ≠ d := by
    rintro d hdigit hminus rfl
    rcases hc with hc | hc
    · exact Bool.noConfusion (hdigit.symm.trans hc)
    · exact hminus hc
  have hpunctuation : ofPunctuation? c = none := by
    unfold ofPunctuation?
    split
    case h_7 => rfl
    all_goals exact absurd rfl (hne _ rfl (by decide))
  constructor
  · simp [isBlank, hne]
  · rw [next?, hpunctuation]
    all_goals exact hne _ rfl (by decide)

theorem Scans.numeral {n : Numeral} {rest : List Char} {ts : List Token} (hn : n.WellFormed)
    (hrest : EndsNumber rest) (h : Scans rest ts) :
    Scans (n.chars ++ rest) (.number n :: ts) := by
  have hnumeral := numeral?_append hn hrest
  obtain ⟨c, cs, hchars, hc⟩ := exists_chars_eq_cons hn
  rw [hchars, List.cons_append] at hnumeral ⊢
  obtain ⟨hblank, hnext⟩ := next?_eq_numeral (cs ++ rest) hc
  refine .token hblank (by rw [hnext, hnumeral]; rfl) ?_ h
  rw [List.length_append]
  exact Nat.le_add_left _ _

end Token

/-! ### Values -/

open Token

theorem endsNumber_cons {c : Char} (hc : c.isDigit = false ∧ c ≠ '.' ∧ c ≠ 'e' ∧ c ≠ 'E')
    (rest : List Char) : EndsNumber (c :: rest) := by
  intro d hd
  obtain rfl := Option.some.inj hd
  exact hc

theorem endsNumber_newLine (level : Nat) (rest : List Char) :
    EndsNumber (newLine level ++ rest) := endsNumber_cons (by decide) _

/-- The text of the value falls into its tokens, whatever stands behind it. -/
def Prints (v : Json) : Prop :=
  ∀ (level : Nat) {rest : List Char} {ts : List Token}, EndsNumber rest → Scans rest ts →
    Scans (prettyChars level v ++ rest) (tokens v ++ ts)

theorem scans_prettyItems {items : List Json} (hitems : ∀ v ∈ items, Prints v) (level : Nat)
    {rest : List Char} {ts : List Token} (hrest : EndsNumber rest) (h : Scans rest ts) :
    Scans (prettyItems level items ++ rest) (itemTokens items ++ ts) := by
  induction items with
  | nil => exact h
  | cons v items ih =>
    have hv : Prints v := hitems v List.mem_cons_self
    cases items with
    | nil =>
      rw [prettyItems, itemTokens, List.append_assoc]
      exact (hv level hrest h).newLine level
    | cons w items =>
      have hmore := ih fun u hu => hitems u (.tail v hu)
      rw [prettyItems, itemTokens]
      simp only [List.append_assoc, List.cons_append]
      exact (hv level (endsNumber_cons (by decide) _) (hmore.punctuation rfl)).newLine level

theorem scans_prettyMembers {members : List (Literal × Json)}
    (hnames : ∀ m ∈ members, m.1.Plain) (hvalues : ∀ m ∈ members, Prints m.2) (level : Nat)
    {rest : List Char} {ts : List Token} (hrest : EndsNumber rest) (h : Scans rest ts) :
    Scans (prettyMembers level members ++ rest) (memberTokens members ++ ts) := by
  -- a member is its name, a colon, a blank and its value
  have hmember : ∀ {k : Literal} {v : Json} {cs : List Char} {ts : List Token}, k.Plain →
      Scans (prettyChars level v ++ cs) (tokens v ++ ts) →
      Scans (Json.newLine level ++ (k.chars ++ ':' :: ' ' :: (prettyChars level v ++ cs)))
        (.string k :: .colon :: (tokens v ++ ts)) :=
    fun hk hscans => ((((hscans.blank rfl).punctuation rfl)).literal hk).newLine level
  induction members with
  | nil => exact h
  | cons m members ih =>
    obtain ⟨k, v⟩ := m
    have hk : k.Plain := hnames (k, v) List.mem_cons_self
    have hv : Prints v := hvalues (k, v) List.mem_cons_self
    cases members with
    | nil =>
      rw [prettyMembers, memberTokens]
      simp only [List.append_assoc, List.cons_append]
      exact hmember hk (hv level hrest h)
    | cons m members =>
      have hmore := ih (fun n hn => hnames n (.tail _ hn)) (fun n hn => hvalues n (.tail _ hn))
      rw [prettyMembers, memberTokens]
      simp only [List.append_assoc, List.cons_append]
      exact hmember hk (hv level (endsNumber_cons (by decide) _) (hmore.punctuation rfl))

theorem prints_array {items : List Json} (hitems : ∀ v ∈ items, Prints v) :
    Prints (.array items) := by
  intro level rest ts hrest h
  rw [tokens]
  cases items with
  | nil => exact (h.punctuation (c := ']') rfl).punctuation rfl
  | cons v items =>
    rw [prettyChars]
    simp only [List.append_assoc, List.cons_append, List.nil_append]
    exact (scans_prettyItems hitems (level + 1) (endsNumber_newLine level _)
      ((h.punctuation rfl).newLine level)).punctuation rfl

theorem prints_object {members : List (Literal × Json)} (hnames : ∀ m ∈ members, m.1.Plain)
    (hvalues : ∀ m ∈ members, Prints m.2) : Prints (.object members) := by
  intro level rest ts hrest h
  rw [tokens]
  cases members with
  | nil => exact (h.punctuation (c := '\x7d') rfl).punctuation rfl
  | cons m members =>
    rw [prettyChars]
    simp only [List.append_assoc, List.cons_append, List.nil_append]
    exact (scans_prettyMembers hnames hvalues (level + 1) (endsNumber_newLine level _)
      ((h.punctuation rfl).newLine level)).punctuation rfl

/-- By induction on the value; its numbers are where what stands behind it matters. -/
theorem Written.prints {v : Json} (h : Written v) : Prints v := by
  induction h with
  | null => exact fun _ _ _ _ hscans => hscans.keyword ['u', 'l', 'l'] rfl rfl
  | bool b =>
    intro level rest ts _ hscans
    cases b with
    | true => exact hscans.keyword ['r', 'u', 'e'] rfl rfl
    | false => exact hscans.keyword ['a', 'l', 's', 'e'] rfl rfl
  | number hn => exact fun _ _ _ hrest hscans => hscans.numeral hn hrest
  | string hs => exact fun _ _ _ _ hscans => hscans.literal hs
  | array _ ih => exact prints_array ih
  | object hnames _ ih => exact prints_object hnames ih

/-- The text of a value falls into its tokens. -/
theorem Written.scan_pretty {v : Json} (h : Written v) :
    scan v.pretty.toList = some v.tokens := by
  have hscans : Scans (prettyChars 0 v ++ []) (v.tokens ++ []) := h.prints 0 nofun .nil
  rw [List.append_nil, List.append_nil] at hscans
  rw [pretty, String.toList_ofList]
  exact hscans.scan_eq

/-! ## From tokens to values -/

namespace Reader

theorem takeAll_cons {r r' : Reader} {t : Token} (h : take r t = some r') (ts : List Token) :
    r.takeAll (t :: ts) = r'.takeAll ts := by
  rw [takeAll, List.foldlM_cons, h]
  rfl

/-- A value may stand where an array may end. -/
theorem takeAll_itemOrEnd (v : Json) (stack : List Frame) (ts : List Token) :
    (itemOrEnd stack).takeAll (v.tokens ++ ts) =
      (value (.array [] :: stack)).takeAll (v.tokens ++ ts) := by
  cases v <;> rfl

/-- The reader takes the tokens of the value to the value, whatever is open around it. -/
def Reads (v : Json) : Prop :=
  ∀ (stack : List Frame) (ts : List Token),
    (value stack).takeAll (v.tokens ++ ts) = (deliver v stack).takeAll ts

theorem takeAll_itemTokens {v : Json} {items : List Json} (hitems : ∀ u ∈ v :: items, Reads u)
    (done : List Json) (stack : List Frame) (ts : List Token) :
    (value (.array done :: stack)).takeAll (itemTokens (v :: items) ++ .closeBracket :: ts) =
      (deliver (.array (done.reverse ++ v :: items)) stack).takeAll ts := by
  have hv := hitems v List.mem_cons_self
  induction items generalizing v done with
  | nil =>
    rw [itemTokens, hv, deliver, takeAll_cons rfl, List.reverse_cons]
  | cons w items ih =>
    rw [itemTokens, List.append_assoc, hv, deliver, List.cons_append, takeAll_cons rfl,
      ih (fun u hu => hitems u (.tail v hu)) _ (hitems w (.tail v List.mem_cons_self)),
      List.reverse_cons, List.append_assoc]
    rfl

theorem takeAll_memberTokens {m : Literal × Json} {members : List (Literal × Json)}
    (hvalues : ∀ n ∈ m :: members, Reads n.2) (done : List (Literal × Json))
    (stack : List Frame) (ts : List Token) :
    (key done stack).takeAll (memberTokens (m :: members) ++ .closeBrace :: ts) =
      (deliver (.object (done.reverse ++ m :: members)) stack).takeAll ts := by
  have hv := hvalues m List.mem_cons_self
  induction members generalizing m done with
  | nil =>
    obtain ⟨k, v⟩ := m
    rw [memberTokens, List.cons_append, takeAll_cons rfl, List.cons_append, takeAll_cons rfl, hv,
      deliver, takeAll_cons rfl, List.reverse_cons]
  | cons n members ih =>
    obtain ⟨k, v⟩ := m
    simp only [memberTokens, List.cons_append, List.append_assoc]
    rw [takeAll_cons rfl, takeAll_cons rfl, hv, deliver, takeAll_cons rfl,
      ih (fun u hu => hvalues u (.tail _ hu)) _ (hvalues n (.tail _ List.mem_cons_self)),
      List.reverse_cons, List.append_assoc]
    rfl

theorem reads_array {items : List Json} (hitems : ∀ v ∈ items, Reads v) :
    Reads (.array items) := by
  intro stack ts
  cases items with
  | nil => rfl
  | cons v items =>
    have htaken : (itemOrEnd stack).takeAll (itemTokens (v :: items) ++ .closeBracket :: ts) =
        (value (.array [] :: stack)).takeAll (itemTokens (v :: items) ++ .closeBracket :: ts) := by
      cases items <;> simp only [itemTokens, List.append_assoc, takeAll_itemOrEnd]
    simp only [tokens, List.cons_append, List.append_assoc, List.nil_append]
    rw [takeAll_cons rfl, htaken, takeAll_itemTokens hitems]
    rfl

theorem reads_object {members : List (Literal × Json)} (hvalues : ∀ m ∈ members, Reads m.2) :
    Reads (.object members) := by
  intro stack ts
  cases members with
  | nil => rfl
  | cons m members =>
    -- the first name is taken where the object may end as it is after a comma
    have htaken : (keyOrEnd stack).takeAll (memberTokens (m :: members) ++ .closeBrace :: ts) =
        (key [] stack).takeAll (memberTokens (m :: members) ++ .closeBrace :: ts) := by
      cases members <;> rfl
    simp only [tokens, List.cons_append, List.append_assoc, List.nil_append]
    rw [takeAll_cons rfl, htaken, takeAll_memberTokens hvalues]
    rfl

end Reader

open Reader

/-- The reader keeps what is open on its stack, so that the induction is on the value alone. -/
theorem Written.reads {v : Json} (h : Written v) : Reads v := by
  induction h with
  | null => exact fun _ _ => rfl
  | bool _ => exact fun _ _ => rfl
  | number _ => exact fun _ _ => rfl
  | string _ => exact fun _ _ => rfl
  | array _ ih => exact reads_array ih
  | object _ _ ih => exact reads_object ih

/-- A text with the tokens of a value is read as that value. -/
theorem Written.parse_of_scan {v : Json} (h : Written v) {text : String}
    (hscan : Token.scan text.toList = some v.tokens) : parse text = some v := by
  have hreads : (value []).takeAll (v.tokens ++ []) = some (complete v) := h.reads [] []
  rw [List.append_nil] at hreads
  rw [parse, hscan]
  show ((value []).takeAll v.tokens).bind result? = some v
  rw [hreads]
  rfl

/-- A value that a text can hold is read back from its text. -/
theorem Written.parse_pretty {v : Json} (h : Written v) : parse v.pretty = some v :=
  h.parse_of_scan h.scan_pretty

end BlockFlow.Json
