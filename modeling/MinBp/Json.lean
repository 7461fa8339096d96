import Mathlib.Data.List.Forall2
import Mathlib.Data.Nat.Digits.Defs

/-!
# JSON

A parser for JSON texts as RFC 8259 has them (`Json.parse`), and rules for texts that some program
prints. `Reads` says that the parser reads a text as a value wherever a value can end. There is a
rule for each way to print a value : a natural number (`reads_nat`), a string that needs no escapes
(`reads_str`), an array and an object with their parts separated by commas (`reads_arr`,
`reads_obj`), and white space in front of any of them (`Reads.ws`).

The parser takes fuel, of which twice the length of the text is enough : each bracket, comma and
value takes some.
-/

namespace Json

/-- A JSON value. A number is a mantissa and a power of ten, an object the list of its members in
the order of the text. -/
inductive Value where
  | null
  | bool (b : Bool)
  | num (mantissa exponent : ℤ)
  | str (s : String)
  | arr (vs : List Value)
  | obj (ms : List (String × Value))

/-! ## The parser -/

def isWs (c : Char) : Bool :=
  c = ' ' ∨ c = '\t' ∨ c = '\n' ∨ c = '\r'

def skipWs (cs : List Char) : List Char :=
  cs.dropWhile isWs

/-- One or more digits : their value and how many there are. -/
def digits (cs : List Char) : Option (ℕ × ℕ × List Char) :=
  let ds := cs.takeWhile Char.isDigit
  if ds = [] then none
  else some (Nat.ofDigitChars 10 ds 0, ds.length, cs.dropWhile Char.isDigit)

/-- The digits before the point, without leading zeros. -/
def integer : List Char → Option (ℕ × List Char)
  | [] => none
  | c :: cs =>
    if c = '0' then some (0, cs) else (digits (c :: cs)).map fun (n, _, cs) => (n, cs)

/-- The digits after a point, appended to `m`, and how many there are. -/
def fraction (m : ℕ) : List Char → Option (ℕ × ℕ × List Char)
  | [] => some (m, 0, [])
  | c :: cs =>
    if c = '.' then (digits cs).map fun (n, k, cs) => (m * 10 ^ k + n, k, cs)
    else some (m, 0, c :: cs)

def exponent : List Char → Option (ℤ × List Char)
  | [] => some (0, [])
  | c :: cs =>
    if c = 'e' ∨ c = 'E' then
      match cs with
      | [] => none
      | s :: ds =>
        if s = '-' then (digits ds).map fun (n, _, cs) => (-n, cs)
        else (digits (if s = '+' then ds else s :: ds)).map fun (n, _, cs) => (n, cs)
    else some (0, c :: cs)

/-- A number without its sign. -/
def unsigned (cs : List Char) : Option ((ℕ × ℤ) × List Char) :=
  match integer cs with
  | none => none
  | some (n, cs) =>
    match fraction n cs with
    | none => none
    | some (m, k, cs) => (exponent cs).map fun (e, cs) => ((m, e - k), cs)

def number : List Char → Option (Value × List Char)
  | [] => none
  | c :: cs =>
    if c = '-' then (unsigned cs).map fun ((m, e), cs) => (.num (-m) e, cs)
    else (unsigned (c :: cs)).map fun ((m, e), cs) => (.num m e, cs)

def hexDigit (c : Char) : Option ℕ :=
  if c.isDigit then some (c.toNat - '0'.toNat)
  else if 'a' ≤ c ∧ c ≤ 'f' then some (c.toNat - 'a'.toNat + 10)
  else if 'A' ≤ c ∧ c ≤ 'F' then some (c.toNat - 'A'.toNat + 10)
  else none

/-- The characters that stand for another after a backslash. -/
def escape (c : Char) : Option Char :=
  if c = '"' ∨ c = '\\' ∨ c = '/' then some c
  else if c = 'b' then some '\x08'
  else if c = 'f' then some '\x0c'
  else if c = 'n' then some '\n'
  else if c = 'r' then some '\r'
  else if c = 't' then some '\t'
  else none

/-- The UTF-16 units and code points of a string up to its closing quote. -/
def units : List Char → Option (List ℕ × List Char)
  | [] => none
  | c :: cs =>
    if c = '"' then some ([], cs)
    else if c = '\\' then
      match cs with
      | 'u' :: x₃ :: x₂ :: x₁ :: x₀ :: cs =>
        match hexDigit x₃, hexDigit x₂, hexDigit x₁, hexDigit x₀ with
        | some d₃, some d₂, some d₁, some d₀ =>
          (units cs).map fun (us, cs) => ((((d₃ * 16 + d₂) * 16 + d₁) * 16 + d₀) :: us, cs)
        | _, _, _, _ => none
      | x :: cs =>
        match escape x with
        | some e => (units cs).map fun (us, cs) => (e.toNat :: us, cs)
        | none => none
      | [] => none
    else if c.toNat < 0x20 then none
    else (units cs).map fun (us, cs) => (c.toNat :: us, cs)

def isHigh (u : ℕ) : Bool :=
  0xd800 ≤ u ∧ u < 0xdc00

def isLow (u : ℕ) : Bool :=
  0xdc00 ≤ u ∧ u < 0xe000

/-- A unit by itself. A surrogate without its other half becomes the replacement character. -/
def scalar (u : ℕ) : Char :=
  if isHigh u ∨ isLow u then '\ufffd' else Char.ofNat u

/-- The characters of a string. Two surrogates are one character. -/
def combine : List ℕ → List Char
  | [] => []
  | [u] => [scalar u]
  | u :: w :: us =>
    if isHigh u ∧ isLow w then
      Char.ofNat (0x10000 + (u - 0xd800) * 0x400 + (w - 0xdc00)) :: combine us
    else scalar u :: combine (w :: us)

/-- A string after its opening quote. -/
def string (cs : List Char) : Option (String × List Char) :=
  (units cs).map fun (us, cs) => (String.ofList (combine us), cs)

/-- The rest of a name such as `true`. -/
def literal (w : String) (v : Value) (cs : List Char) : Option (Value × List Char) :=
  if w.toList <+: cs then some (v, cs.drop w.length) else none

/-- The character `c`, after white space. -/
def expect (c : Char) (cs : List Char) : Option (List Char) :=
  match skipWs cs with
  | [] => none
  | d :: cs => if d = c then some cs else none

/-- What follows an element : a comma, or the end. -/
def separator (close : Char) (cs : List Char) : Option (Bool × List Char) :=
  match skipWs cs with
  | [] => none
  | d :: cs =>
    if d = ',' then some (true, cs) else if d = close then some (false, cs) else none

mutual

/-- A value, after white space. -/
def value : ℕ → List Char → Option (Value × List Char)
  | 0, _ => none
  | fuel + 1, cs =>
    match skipWs cs with
    | [] => none
    | c :: cs =>
      if c = '"' then (string cs).map fun (s, cs) => (.str s, cs)
      else if c = '[' then
        match expect ']' cs with
        | some cs => some (.arr [], cs)
        | none => (elements fuel cs).map fun (vs, cs) => (.arr vs, cs)
      else if c = '\x7b' then
        match expect '\x7d' cs with
        | some cs => some (.obj [], cs)
        | none => (members fuel cs).map fun (ms, cs) => (.obj ms, cs)
      else if c = 't' then literal "rue" (.bool true) cs
      else if c = 'f' then literal "alse" (.bool false) cs
      else if c = 'n' then literal "ull" .null cs
      else number (c :: cs)

/-- One or more elements, and the closing bracket. -/
def elements : ℕ → List Char → Option (List Value × List Char)
  | 0, _ => none
  | fuel + 1, cs =>
    match value fuel cs with
    | none => none
    | some (v, cs) =>
      match separator ']' cs with
      | none => none
      | some (true, cs) => (elements fuel cs).map fun (vs, cs) => (v :: vs, cs)
      | some (false, cs) => some ([v], cs)

/-- One or more members, and the closing brace. -/
def members : ℕ → List Char → Option (List (String × Value) × List Char)
  | 0, _ => none
  | fuel + 1, cs =>
    match (expect '"' cs).bind string with
    | none => none
    | some (k, cs) =>
      match (expect ':' cs).bind (value fuel) with
      | none => none
      | some (v, cs) =>
        match separator '\x7d' cs with
        | none => none
        | some (true, cs) => (members fuel cs).map fun (ms, cs) => ((k, v) :: ms, cs)
        | some (false, cs) => some ([(k, v)], cs)

end

/-- The value of a JSON text. -/
def parse (s : String) : Option Value :=
  match value (2 * s.toList.length + 2) s.toList with
  | none => none
  | some (v, cs) => if skipWs cs = [] then some v else none

example : (parse " \x7b\"a\" : [-1.5e3, \"\\u0041\\n\"]\x7d").isSome := by
  decide +kernel

example : (parse "[1,]").isNone ∧ (parse "[01]").isNone ∧ (parse "[1] 2").isNone := by
  decide +kernel

/-! ## Reading printed texts -/

/-- A value can end here. -/
def Ends (rest : List Char) : Prop :=
  ∀ c ∈ rest.head?, c = ',' ∨ c = ']' ∨ c = '\x7d' ∨ isWs c = true

/-- With that much fuel the parser reads the text as the value, whatever follows it. -/
def Reads (fuel : ℕ) (t : List Char) (v : Value) : Prop :=
  ∀ n, fuel ≤ n → ∀ rest, Ends rest → value n (t ++ rest) = some (v, rest)

/-- White space. -/
def Ws (ws : List Char) : Prop :=
  ∀ c ∈ ws, isWs c = true

/-- Characters that stand for themselves in a string. -/
def Plain (s : List Char) : Prop :=
  ∀ c ∈ s, c ≠ '"' ∧ c ≠ '\\' ∧ 0x20 ≤ c.toNat

instance (ws : List Char) : Decidable (Ws ws) :=
  List.decidableBAll _ ws

instance (s : List Char) : Decidable (Plain s) :=
  List.decidableBAll _ s

theorem plain_append_iff {s t : List Char} : Plain (s ++ t) ↔ Plain s ∧ Plain t :=
  List.forall_mem_append

theorem skipWs_append {ws : List Char} (h : Ws ws) (cs : List Char) :
    skipWs (ws ++ cs) = skipWs cs := by
  rw [skipWs, List.dropWhile_append_of_pos h]
  rfl

theorem skipWs_cons {c : Char} (h : isWs c = false) (cs : List Char) :
    skipWs (c :: cs) = c :: cs :=
  List.dropWhile_cons_of_neg (by simp [h])

theorem ends_cons {c : Char} (h : c = ',' ∨ c = ']' ∨ c = '\x7d' ∨ isWs c = true)
    (cs : List Char) : Ends (c :: cs) := by
  intro d hd
  rw [← Option.some.inj hd]
  exact h

theorem ends_append {ws : List Char} (h : Ws ws) {rest : List Char} (hr : Ends rest) :
    Ends (ws ++ rest) := by
  rcases ws with _ | ⟨c, ws⟩
  · exact hr
  · exact ends_cons (.inr (.inr (.inr (h c List.mem_cons_self)))) _

theorem expect_cons {c : Char} (hc : isWs c = false) {ws : List Char} (h : Ws ws)
    (cs : List Char) : expect c (ws ++ c :: cs) = some cs := by
  rw [expect, skipWs_append h, skipWs_cons hc]
  exact if_pos rfl

theorem separator_comma (close : Char) (cs : List Char) :
    separator close (',' :: cs) = some (true, cs) :=
  rfl

theorem separator_close {close : Char} (hc : isWs close = false) (hne : close ≠ ',')
    {ws : List Char} (h : Ws ws) (cs : List Char) :
    separator close (ws ++ close :: cs) = some (false, cs) := by
  rw [separator, skipWs_append h, skipWs_cons hc]
  simp [hne]

theorem value_ws {ws : List Char} (h : Ws ws) (n : ℕ) (cs : List Char) :
    value n (ws ++ cs) = value n cs := by
  rcases n with _ | n
  · rfl
  · rw [value, value, skipWs_append h]

theorem Reads.ws {fuel : ℕ} {t : List Char} {v : Value} (h : Reads fuel t v) {ws : List Char}
    (hws : Ws ws) : Reads fuel (ws ++ t) v := by
  intro n hn rest hrest
  rw [List.append_assoc, value_ws hws, h n hn rest hrest]

theorem Reads.mono {fuel fuel' : ℕ} {t : List Char} {v : Value} (h : Reads fuel t v)
    (hle : fuel ≤ fuel') : Reads fuel' t v :=
  fun n hn => h n (hle.trans hn)

/-! ### Strings -/

theorem units_quote (rest : List Char) : units ('"' :: rest) = some ([], rest) := by
  unfold units
  exact if_pos rfl

theorem units_cons {c : Char} (hquote : c ≠ '"') (hslash : c ≠ '\\') (hcontrol : 0x20 ≤ c.toNat)
    (cs : List Char) : units (c :: cs) = (units cs).map fun (us, cs) => (c.toNat :: us, cs) := by
  rw [units.eq_def]
  dsimp only
  rw [if_neg hquote, if_neg hslash, if_neg (not_lt.2 hcontrol)]

theorem units_plain {s : List Char} (h : Plain s) (rest : List Char) :
    units (s ++ '"' :: rest) = some (s.map Char.toNat, rest) := by
  induction s with
  | nil => exact units_quote rest
  | cons c s ih =>
    obtain ⟨hquote, hslash, hcontrol⟩ := h c List.mem_cons_self
    rw [List.cons_append, units_cons hquote hslash hcontrol,
      ih fun d hd => h d (List.mem_cons_of_mem _ hd)]
    rfl

/-- A character is no surrogate. -/
theorem isHigh_toNat (c : Char) : isHigh c.toNat = false := by
  have := c.valid
  simp only [UInt32.isValidChar, Nat.isValidChar] at this
  simp only [isHigh, Char.toNat, decide_eq_false_iff_not]
  omega

theorem isLow_toNat (c : Char) : isLow c.toNat = false := by
  have := c.valid
  simp only [UInt32.isValidChar, Nat.isValidChar] at this
  simp only [isLow, Char.toNat, decide_eq_false_iff_not]
  omega

theorem scalar_toNat (c : Char) : scalar c.toNat = c := by
  rw [scalar, isHigh_toNat, isLow_toNat]
  simp

theorem combine_map_toNat : ∀ s : List Char, combine (s.map Char.toNat) = s
  | [] => rfl
  | [c] => by rw [List.map_singleton, combine, scalar_toNat]
  | c :: d :: s => by
    have hrest := combine_map_toNat (d :: s)
    rw [List.map_cons] at hrest
    rw [List.map_cons, List.map_cons, combine, isHigh_toNat, scalar_toNat, hrest]
    simp

theorem string_plain {s : List Char} (h : Plain s) (rest : List Char) :
    string (s ++ '"' :: rest) = some (String.ofList s, rest) := by
  rw [string, units_plain h, Option.map_some]
  dsimp only
  rw [combine_map_toNat]

theorem reads_str {s : List Char} (h : Plain s) :
    Reads 1 ('"' :: s ++ ['"']) (.str (String.ofList s)) := by
  intro n hn rest _
  obtain ⟨n, rfl⟩ := Nat.exists_eq_add_of_le' hn
  rw [List.append_assoc, List.singleton_append, List.cons_append, value, skipWs_cons (by decide)]
  dsimp only
  rw [if_pos rfl, string_plain h]
  rfl

/-! ### Numbers -/

theorem isDigit_of_mem_toDigits {n : ℕ} {c : Char} (h : c ∈ Nat.toDigits 10 n) :
    c.isDigit = true :=
  Nat.isDigit_of_mem_toDigits (by norm_num) le_rfl h

/-- No digit goes on where a value can end, and no point or exponent. -/
theorem Ends.notMem {rest : List Char} (h : Ends rest) {c : Char} (hc : c ∈ rest.head?) :
    c.isDigit = false ∧ c ≠ '.' ∧ c ≠ 'e' ∧ c ≠ 'E' := by
  have hws : isWs c = true ↔ c = ' ' ∨ c = '\t' ∨ c = '\n' ∨ c = '\r' := by simp [isWs]
  rcases h c hc with rfl | rfl | rfl | h
  · decide
  · decide
  · decide
  · rcases hws.1 h with rfl | rfl | rfl | rfl
    · decide
    · decide
    · decide
    · decide

theorem digits_append {ds : List Char} (hne : ds ≠ []) (hds : ∀ c ∈ ds, c.isDigit = true)
    {rest : List Char} (h : Ends rest) :
    digits (ds ++ rest) = some (Nat.ofDigitChars 10 ds 0, ds.length, rest) := by
  have htake : rest.takeWhile Char.isDigit = [] := by
    rcases rest with _ | ⟨c, rest⟩
    · rfl
    · exact List.takeWhile_cons_of_neg (by simp [(h.notMem rfl).1])
  have hdrop : rest.dropWhile Char.isDigit = rest := by
    rcases rest with _ | ⟨c, rest⟩
    · rfl
    · exact List.dropWhile_cons_of_neg (by simp [(h.notMem rfl).1])
  rw [digits, List.takeWhile_append_of_pos hds, List.dropWhile_append_of_pos hds, htake, hdrop,
    List.append_nil]
  exact if_neg hne

/-- The first digit of a positive number is not zero. -/
theorem head_toDigits {n : ℕ} (hn : 0 < n) : (Nat.toDigits 10 n).head? ≠ some '0' := by
  induction n using Nat.strong_induction_on with
  | _ n ih =>
    rw [Nat.toDigits_eq_if (by norm_num)]
    split
    · rename_i hlt
      have : ∀ k : Fin 10, 0 < k.val → ([Nat.digitChar k.val] : List Char).head? ≠ some '0' := by
        decide
      exact this ⟨n, hlt⟩ hn
    · rename_i hge
      rw [List.head?_append_of_ne_nil _ Nat.toDigits_ne_nil]
      exact ih (n / 10) (by omega) (by omega)

theorem integer_toDigits (n : ℕ) {rest : List Char} (h : Ends rest) :
    integer (Nat.toDigits 10 n ++ rest) = some (n, rest) := by
  rcases Nat.eq_zero_or_pos n with rfl | hn
  · rfl
  · obtain ⟨c, ds, hds⟩ := List.exists_cons_of_ne_nil (@Nat.toDigits_ne_nil n 10)
    have hc : c ≠ '0' := by
      intro hc
      refine head_toDigits hn ?_
      rw [hds, hc]
      rfl
    have hdigits := digits_append (@Nat.toDigits_ne_nil n 10)
      (fun c hc => isDigit_of_mem_toDigits hc) h
    rw [Nat.ofDigitChars_ten_toDigits] at hdigits
    rw [hds, List.cons_append] at hdigits ⊢
    rw [integer, if_neg hc, hdigits]
    rfl

theorem fraction_of_ends {rest : List Char} (h : Ends rest) (m : ℕ) :
    fraction m rest = some (m, 0, rest) := by
  rcases rest with _ | ⟨c, rest⟩
  · rfl
  · exact if_neg (h.notMem rfl).2.1

theorem exponent_of_ends {rest : List Char} (h : Ends rest) : exponent rest = some (0, rest) := by
  rcases rest with _ | ⟨c, rest⟩
  · rfl
  · have hc := h.notMem rfl
    exact if_neg (by simp [hc.2.2.1, hc.2.2.2])

theorem number_toDigits (n : ℕ) {rest : List Char} (h : Ends rest) :
    number (Nat.toDigits 10 n ++ rest) = some (.num n 0, rest) := by
  have hu : unsigned (Nat.toDigits 10 n ++ rest) = some ((n, 0), rest) := by
    rw [unsigned, integer_toDigits n h]
    dsimp only
    rw [fraction_of_ends h]
    dsimp only
    rw [exponent_of_ends h]
    rfl
  obtain ⟨c, ds, hds⟩ := List.exists_cons_of_ne_nil (@Nat.toDigits_ne_nil n 10)
  have hc : c ≠ '-' := by
    rintro rfl
    exact absurd (@isDigit_of_mem_toDigits n '-' (hds ▸ List.mem_cons_self)) (by decide)
  rw [hds, List.cons_append] at hu ⊢
  rw [number, if_neg hc, hu]
  rfl

theorem reads_nat (n : ℕ) : Reads 1 (Nat.toDigits 10 n) (.num n 0) := by
  intro k hk rest hrest
  obtain ⟨k, rfl⟩ := Nat.exists_eq_add_of_le' hk
  have hnum := number_toDigits n hrest
  obtain ⟨c, ds, hds⟩ := List.exists_cons_of_ne_nil (@Nat.toDigits_ne_nil n 10)
  have hc : c.isDigit = true := @isDigit_of_mem_toDigits n c (hds ▸ List.mem_cons_self)
  have hne : ∀ d : Char, d.isDigit = false → c ≠ d := by
    rintro d hd rfl
    exact Bool.false_ne_true (hd.symm.trans hc)
  have hws : isWs c = false := by
    simp [isWs, hne ' ' (by decide), hne '\t' (by decide), hne '\n' (by decide),
      hne '\r' (by decide)]
  rw [hds, List.cons_append] at hnum ⊢
  rw [value, skipWs_cons hws]
  dsimp only
  rw [if_neg (hne _ (by decide)), if_neg (hne _ (by decide)), if_neg (hne _ (by decide)),
    if_neg (hne _ (by decide)), if_neg (hne _ (by decide)), if_neg (hne _ (by decide)), hnum]

/-! ### Arrays and objects -/

/-- The texts with commas between them. -/
def commas (ts : List (List Char)) : List Char :=
  [','].intercalate ts

theorem commas_singleton (t : List Char) : commas [t] = t := by
  simp [commas, List.intercalate]

theorem commas_cons {ts : List (List Char)} (hne : ts ≠ []) (t : List Char) :
    commas (t :: ts) = t ++ ',' :: commas ts := by
  obtain ⟨u, us, rfl⟩ := List.exists_cons_of_ne_nil hne
  simp [commas, List.intercalate]

theorem elements_commas {fuel : ℕ} {ts : List (List Char)} {vs : List Value}
    (h : List.Forall₂ (Reads fuel) ts vs) (hne : ts ≠ []) {ws : List Char} (hws : Ws ws)
    (rest : List Char) {n : ℕ} (hn : fuel + ts.length ≤ n) :
    elements n (commas ts ++ (ws ++ ']' :: rest)) = some (vs, rest) := by
  induction h generalizing n with
  | nil => exact absurd rfl hne
  | @cons t v ts vs ht hts ih =>
    rw [List.length_cons] at hn
    obtain ⟨n, rfl⟩ := Nat.exists_eq_add_of_le' (show 1 ≤ n by omega)
    by_cases hnil : ts = []
    · -- the last element
      subst hnil
      obtain rfl := List.forall₂_nil_left_iff.1 hts
      have hread := ht n (by omega) _ (ends_append hws (ends_cons (.inr (.inl rfl)) rest))
      rw [commas_singleton, elements, hread]
      dsimp only
      rw [separator_close (by decide) (by decide) hws]
    · have hread := ht n (by omega) _
        (ends_cons (.inl rfl) (commas ts ++ (ws ++ ']' :: rest)))
      rw [commas_cons hnil, List.append_assoc, List.cons_append, elements, hread]
      dsimp only
      rw [separator_comma]
      dsimp only
      rw [ih hnil (by omega)]
      rfl

/-- What is read as a value does not begin with a closing bracket. -/
theorem Reads.expect_eq_none {fuel : ℕ} {t : List Char} {v : Value} (h : Reads fuel t v)
    {rest : List Char} (hrest : Ends rest) : expect ']' (t ++ rest) = none := by
  have hread := h (fuel + 1) (Nat.le_succ _) rest hrest
  rw [value] at hread
  rw [expect]
  rcases hcs : skipWs (t ++ rest) with _ | ⟨c, cs⟩
  · rfl
  · rw [hcs] at hread
    refine if_neg ?_
    rintro rfl
    simp [number, unsigned, integer, digits] at hread

theorem reads_arr_nil {ws : List Char} (hws : Ws ws) : Reads 1 ('[' :: ws ++ [']']) (.arr []) := by
  intro n hn rest _
  obtain ⟨n, rfl⟩ := Nat.exists_eq_add_of_le' hn
  rw [List.append_assoc, List.singleton_append, List.cons_append, value, skipWs_cons (by decide)]
  dsimp only
  rw [if_neg (by decide), if_pos rfl, expect_cons (by decide) hws]

theorem reads_arr {fuel : ℕ} {ts : List (List Char)} {vs : List Value}
    (h : List.Forall₂ (Reads fuel) ts vs) (hne : ts ≠ []) {ws : List Char} (hws : Ws ws) :
    Reads (fuel + ts.length + 1) ('[' :: commas ts ++ (ws ++ [']'])) (.arr vs) := by
  intro n hn rest _
  obtain ⟨n, rfl⟩ := Nat.exists_eq_add_of_le' (show 1 ≤ n by omega)
  have hexpect : expect ']' (commas ts ++ (ws ++ ']' :: rest)) = none := by
    have hend : Ends (ws ++ ']' :: rest) := ends_append hws (ends_cons (.inr (.inl rfl)) rest)
    obtain ⟨t, ts, rfl⟩ := List.exists_cons_of_ne_nil hne
    obtain ⟨v, vs, ht, -, rfl⟩ := List.forall₂_cons_left_iff.1 h
    by_cases hnil : ts = []
    · rw [hnil, commas_singleton]
      exact ht.expect_eq_none hend
    · rw [commas_cons hnil, List.append_assoc, List.cons_append]
      exact ht.expect_eq_none (ends_cons (.inl rfl) _)
  rw [List.append_assoc, List.append_assoc, List.singleton_append, List.cons_append, value,
    skipWs_cons (by decide)]
  dsimp only
  rw [if_neg (by decide), if_pos rfl, hexpect]
  dsimp only
  rw [elements_commas h hne hws rest (by omega)]
  rfl

/-- A text of a member : white space, the name, and the text of the value. -/
structure ReadsMember (fuel : ℕ) (t : List Char) (m : String × Value) : Prop where
  exists_text : ∃ ws k vt, Ws ws ∧ Plain k ∧ t = ws ++ '"' :: (k ++ '"' :: ':' :: vt) ∧
    m.1 = String.ofList k ∧ Reads fuel vt m.2

theorem readsMember {fuel : ℕ} {ws k vt : List Char} {v : Value} (hws : Ws ws) (hk : Plain k)
    (hv : Reads fuel vt v) :
    ReadsMember fuel (ws ++ '"' :: (k ++ '"' :: ':' :: vt)) (String.ofList k, v) :=
  ⟨ws, k, vt, hws, hk, rfl, rfl, hv⟩

theorem members_commas {fuel : ℕ} {ts : List (List Char)} {ms : List (String × Value)}
    (h : List.Forall₂ (ReadsMember fuel) ts ms) (hne : ts ≠ []) {ws : List Char} (hws : Ws ws)
    (rest : List Char) {n : ℕ} (hn : fuel + ts.length ≤ n) :
    members n (commas ts ++ (ws ++ '\x7d' :: rest)) = some (ms, rest) := by
  induction h generalizing n with
  | nil => exact absurd rfl hne
  | @cons t m ts ms ht hts ih =>
    rw [List.length_cons] at hn
    obtain ⟨n, rfl⟩ := Nat.exists_eq_add_of_le' (show 1 ≤ n by omega)
    obtain ⟨k, v⟩ := m
    obtain ⟨ws', k', vt, hws', hk, rfl, hm, hv⟩ := ht.exists_text
    obtain rfl : k = String.ofList k' := hm
    have hname (cs : List Char) : (expect '"' (ws' ++ '"' :: (k' ++ '"' :: cs))).bind string =
        some (String.ofList k', cs) := by
      rw [expect_cons (by decide) hws', Option.bind_some, string_plain hk]
    have hvalue {cs : List Char} (hcs : Ends cs) :
        (expect ':' (':' :: (vt ++ cs))).bind (value n) = some (v, cs) := by
      have hcolon : expect ':' (':' :: (vt ++ cs)) = some (vt ++ cs) := rfl
      rw [hcolon, Option.bind_some]
      exact hv n (by omega) cs hcs
    by_cases hnil : ts = []
    · -- the last member
      subst hnil
      obtain rfl := List.forall₂_nil_left_iff.1 hts
      rw [commas_singleton, members]
      simp only [List.append_assoc, List.cons_append]
      rw [hname]
      dsimp only
      rw [hvalue (ends_append hws (ends_cons (.inr (.inr (.inl rfl))) rest))]
      dsimp only
      rw [separator_close (by decide) (by decide) hws]
    · rw [commas_cons hnil, members]
      simp only [List.append_assoc, List.cons_append]
      rw [hname]
      dsimp only
      rw [hvalue (ends_cons (.inl rfl) _)]
      dsimp only
      rw [separator_comma]
      dsimp only
      rw [ih hnil (by omega)]
      rfl

theorem ReadsMember.expect_eq_none {fuel : ℕ} {t : List Char} {m : String × Value}
    (h : ReadsMember fuel t m) (rest : List Char) : expect '\x7d' (t ++ rest) = none := by
  obtain ⟨ws, k, vt, hws, -, rfl, -⟩ := h.exists_text
  rw [expect, List.append_assoc, skipWs_append hws, List.cons_append, skipWs_cons (by decide)]
  exact if_neg (by decide)

theorem reads_obj {fuel : ℕ} {ts : List (List Char)} {ms : List (String × Value)}
    (h : List.Forall₂ (ReadsMember fuel) ts ms) (hne : ts ≠ []) {ws : List Char} (hws : Ws ws) :
    Reads (fuel + ts.length + 1) ('\x7b' :: commas ts ++ (ws ++ ['\x7d'])) (.obj ms) := by
  intro n hn rest _
  obtain ⟨n, rfl⟩ := Nat.exists_eq_add_of_le' (show 1 ≤ n by omega)
  have hexpect : expect '\x7d' (commas ts ++ (ws ++ '\x7d' :: rest)) = none := by
    obtain ⟨t, ts, rfl⟩ := List.exists_cons_of_ne_nil hne
    obtain ⟨m, ms, ht, -, rfl⟩ := List.forall₂_cons_left_iff.1 h
    by_cases hnil : ts = []
    · rw [hnil, commas_singleton]
      exact ht.expect_eq_none _
    · rw [commas_cons hnil, List.append_assoc]
      exact ht.expect_eq_none _
  rw [List.append_assoc, List.append_assoc, List.singleton_append, List.cons_append, value,
    skipWs_cons (by decide)]
  dsimp only
  rw [if_neg (by decide), if_neg (by decide), if_pos rfl, hexpect]
  dsimp only
  rw [members_commas h hne hws rest (by omega)]
  rfl

/-- A text that is read as a value, and white space, is a JSON text. -/
theorem parse_eq_some {fuel : ℕ} {t : List Char} {v : Value} (h : Reads fuel t v)
    {ws : List Char} (hws : Ws ws) (hfuel : fuel ≤ 2 * (t ++ ws).length + 2) :
    parse (String.ofList (t ++ ws)) = some v := by
  have hend : Ends ws := by
    rw [← List.append_nil ws]
    exact ends_append hws (fun _ hc => absurd hc (by simp))
  have hskip : skipWs ws = [] := by
    rw [← List.append_nil ws, skipWs_append hws]
    rfl
  rw [parse, String.toList_ofList, h _ hfuel ws hend]
  exact if_pos hskip

/-- Texts of some length take their room. -/
theorem length_commas {m : ℕ} : ∀ {ts : List (List Char)}, (∀ t ∈ ts, m ≤ t.length) →
    ts.length * m ≤ (commas ts).length
  | [], _ => by simp
  | [t], h => by
    rw [commas_singleton, List.length_singleton, one_mul]
    exact h t List.mem_cons_self
  | t :: u :: ts, h => by
    have ht := h t List.mem_cons_self
    have hrest := length_commas fun t' ht' => h t' (List.mem_cons_of_mem t ht')
    have hlen : (t :: u :: ts).length * m = (u :: ts).length * m + m := Nat.succ_mul _ _
    rw [hlen, commas_cons (List.cons_ne_nil u ts), List.length_append, @List.length_cons _ ',']
    omega

/-! ## Hexadecimal text -/

/-- The number that hexadecimal digits stand for. -/
def hexNumber (cs : List Char) : Option ℕ :=
  cs.foldlM (fun n c => (hexDigit c).map (16 * n + ·)) 0

/-- The bytes that pairs of hexadecimal digits stand for. -/
def hexBytes : List Char → Option (List UInt8)
  | [] => some []
  | [_] => none
  | x :: y :: cs =>
    match hexDigit x, hexDigit y with
    | some d, some e => (hexBytes cs).map (UInt8.ofNat (16 * d + e) :: ·)
    | _, _ => none

theorem hexDigit_digitChar {d : ℕ} (hd : d < 16) : hexDigit (Nat.digitChar d) = some d := by
  have : ∀ d : Fin 16, hexDigit (Nat.digitChar d.val) = some d.val := by decide
  exact this ⟨d, hd⟩

theorem hexNumber_toDigits (n : ℕ) : hexNumber (Nat.toDigits 16 n) = some n := by
  induction n using Nat.strong_induction_on with
  | _ n ih =>
    rw [Nat.toDigits_eq_if (by norm_num)]
    split
    · rename_i hlt
      simp [hexNumber, hexDigit_digitChar hlt]
    · have hdiv := ih (n / 16) (by omega)
      rw [hexNumber] at hdiv ⊢
      rw [List.foldlM_append, hdiv]
      simp [hexDigit_digitChar (Nat.mod_lt n (by norm_num : 0 < 16)), Nat.div_add_mod]

/-- The two digits of a byte. -/
def byteDigits (b : UInt8) : List Char :=
  [Nat.digitChar (b.toNat / 16), Nat.digitChar (b.toNat % 16)]

theorem hexBytes_flatMap (bs : List UInt8) : hexBytes (bs.flatMap byteDigits) = some bs := by
  induction bs with
  | nil => rfl
  | cons b bs ih =>
    have hb := b.toNat_lt
    have hhigh : b.toNat / 16 < 16 := by omega
    have hlow : b.toNat % 16 < 16 := Nat.mod_lt _ (by norm_num)
    rw [List.flatMap_cons, byteDigits, List.cons_append, List.cons_append, List.nil_append,
      hexBytes, hexDigit_digitChar hhigh, hexDigit_digitChar hlow]
    dsimp only
    rw [ih, Nat.div_add_mod]
    simp

end Json
