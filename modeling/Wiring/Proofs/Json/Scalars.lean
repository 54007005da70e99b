import Wiring.Document.Json.Printer
import Wiring.Document.Json.Reader

/-!
# Scalars of JSON text

A scalar that is written before some rest is read back as one token, and the rest is left. Text is
read back whatever its characters are. A number must not run into the rest: what follows it must not
go on with a digit, a point or an exponent.

Results:
1. `Json.token?_quote`: quoted text is read back.
2. `Json.token?_toString`: an integer that fits 64 bits is read back.
-/

namespace Wiring.Json

/-! ## Text -/

/-- Whether a character is written by its number: a control character without a letter of its own.
-/
def isNumbered (c : Char) : Bool :=
  c < ' ' && !(['\x08', '\x0c', '\n', '\r', '\t'].contains c)

/-- The piece that a written character is read as. -/
def pieceOf (c : Char) : Piece :=
  if isNumbered c then .unit c.toNat else .char c

theorem hexDigit?_hexDigit : ∀ n < 16, hexDigit? (hexDigit n) = some n := by
  decide

theorem hexUnit?_hexDigit {n : Nat} (h : n < 256) :
    hexUnit? '0' '0' (hexDigit (n / 16)) (hexDigit (n % 16)) = some n := by
  have hzero : hexDigit? '0' = some 0 := by decide
  rw [hexUnit?, hzero, hexDigit?_hexDigit (n / 16) (by omega),
    hexDigit?_hexDigit (n % 16) (by omega)]
  show some _ = some n
  congr 1
  omega

theorem toNat_lt_of_lt_blank {c : Char} (h : c < ' ') : c.toNat < 32 :=
  h

theorem pieces?_unit {a b c d : Char} {n : Nat} (h : hexUnit? a b c d = some n) (cs : List Char) :
    pieces? ('\\' :: 'u' :: a :: b :: c :: d :: cs) =
      (pieces? cs).map (fun p => (.unit n :: p.1, p.2)) := by
  rw [pieces?, h]
  cases pieces? cs <;> rfl

theorem pieces?_letter {e c : Char} (h : unescape? e = some c) (cs : List Char) :
    pieces? ('\\' :: e :: cs) = (pieces? cs).map (fun p => (.char c :: p.1, p.2)) := by
  have hu : e ≠ 'u' := by
    rintro rfl
    cases h
  rw [pieces?, h]
  · cases pieces? cs <;> rfl
  · exact fun _ _ _ _ _ heq _ => hu heq

theorem pieces?_char {c : Char} (hquote : c ≠ '"') (hslash : c ≠ '\\') (hblank : ¬ c < ' ')
    (cs : List Char) :
    pieces? (c :: cs) = (pieces? cs).map (fun p => (.char c :: p.1, p.2)) := by
  have hc : ¬ (c < ' ' ∨ c = '\\') := fun h => h.elim hblank hslash
  rw [pieces?, if_neg hc]
  · cases pieces? cs <;> rfl
  · exact hquote
  · exact fun _ _ _ _ _ heq _ => hslash heq
  · exact fun _ _ heq _ => hslash heq

/-- One written character gives one piece. -/
theorem pieces?_escape (c : Char) (cs : List Char) :
    pieces? (escape c ++ cs) = (pieces? cs).map (fun p => (pieceOf c :: p.1, p.2)) := by
  unfold escape
  -- seven characters have a letter
  iterate 7
    split
    · next h =>
      subst h
      exact pieces?_letter rfl cs
  split
  · next hb hf hn hr ht hlt =>
    have hpiece : pieceOf c = .unit c.toNat := by
      rw [pieceOf, isNumbered]
      simp [hlt, hb, hf, hn, hr, ht]
    rw [hpiece]
    exact pieces?_unit (hexUnit?_hexDigit (Nat.lt_trans (toNat_lt_of_lt_blank hlt) (by decide))) cs
  · next hquote hslash _ _ _ _ _ hlt =>
    have hpiece : pieceOf c = .char c := by
      rw [pieceOf, isNumbered]
      simp [hlt]
    rw [hpiece]
    exact pieces?_char hquote hslash hlt cs

theorem pieces?_escapeAll (cs rest : List Char) :
    pieces? (escapeAll cs rest) = some (cs.map pieceOf, rest) := by
  induction cs with
  | nil => rfl
  | cons c cs ih =>
    rw [escapeAll, List.foldr_cons, pieces?_escape, ← escapeAll, ih]
    rfl

/-- A code unit that is no half of a pair stands for itself, whatever follows it. -/
theorem join?_unit {n : Nat} (h : n < 0xd800) (ps : List Piece) :
    join? (.unit n :: ps) = (join? ps).map (Char.ofNat n :: ·) := by
  have hhigh : isHigh n = false := by simp [isHigh]; omega
  have hlow : isLow n = false := by simp [isLow]; omega
  cases ps with
  | nil => simp [join?, hhigh, hlow]
  | cons p ps =>
    cases p with
    | char c => simp [join?, hhigh, hlow]
    | unit m => simp [join?, hhigh, hlow]

theorem join?_map_pieceOf (cs : List Char) : join? (cs.map pieceOf) = some cs := by
  induction cs with
  | nil => rfl
  | cons c cs ih =>
    rw [List.map_cons, pieceOf]
    split
    · next hc =>
      have hlt : c.toNat < 32 := toNat_lt_of_lt_blank (by simp [isNumbered] at hc; exact hc.1)
      rw [join?_unit (by omega), ih, Char.ofNat_toNat]
      rfl
    · rw [join?, ih]
      rfl

theorem text?_escapeAll (s : String) (rest : List Char) :
    text? (escapeAll s.toList rest) = some (.str s, rest) := by
  rw [text?, pieces?_escapeAll]
  simp only [join?_map_pieceOf, String.ofList_toList]

theorem token?_quote (s : String) (rest : List Char) :
    token? (quote s rest) = some (.text (.str s), rest) := by
  rw [quote, token?, text?_escapeAll]
  rfl

/-! ## Numbers -/

/-- What follows does not go on with a number. -/
def EndsNumber (rest : List Char) : Prop :=
  ∀ c ∈ rest.head?, c.isDigit = false ∧ c ≠ '.' ∧ c ≠ 'e' ∧ c ≠ 'E'

theorem digit?_eq (c : Char) :
    digit? c = if c.isDigit then some (c.toNat - '0'.toNat) else none := by
  have hiff : ('0' ≤ c ∧ c ≤ '9') ↔ c.isDigit := Char.isDigit_iff_toNat.symm
  simp only [digit?, hiff]

theorem digits_append {cs rest : List Char} (hcs : ∀ c ∈ cs, c.isDigit) (hrest : EndsNumber rest) :
    digits (cs ++ rest) = (cs.map (fun c => c.toNat - '0'.toNat), rest) := by
  induction cs with
  | nil =>
    cases rest with
    | nil => rfl
    | cons c rest =>
      have hc := (hrest c rfl).1
      rw [List.nil_append, digits, digit?_eq, hc]
      rfl
  | cons c cs ih =>
    rw [List.cons_append, digits, digit?_eq, if_pos (hcs c List.mem_cons_self),
      ih (fun d hd => hcs d (List.mem_cons_of_mem _ hd))]
    rfl

/-- The digits of a number. -/
def decimals (n : Nat) : List Nat :=
  (Nat.toDigits 10 n).map (fun c => c.toNat - '0'.toNat)

theorem ofDigits_decimals (n : Nat) : ofDigits (decimals n) = n := by
  rw [ofDigits, decimals, List.foldl_map]
  simp only [Nat.mul_comm _ 10]
  rw [← Nat.ofDigitChars_eq_foldl, Nat.ofDigitChars_ten_toDigits]

theorem decimals_of_lt {n : Nat} (h : n < 10) : decimals n = [n] := by
  have hall : ∀ n < 10, (Nat.digitChar n).toNat - '0'.toNat = n := by decide
  rw [decimals, Nat.toDigits_of_lt_base h, List.map_singleton, hall n h]

theorem decimals_of_le {n : Nat} (h : 10 ≤ n) :
    decimals n = decimals (n / 10) ++ decimals (n % 10) := by
  have hlast : n % 10 < 10 := Nat.mod_lt n (by decide)
  simp only [decimals]
  rw [Nat.toDigits_of_base_le (by decide) h, Nat.toDigits_of_lt_base hlast, List.map_append]

theorem decimals_ne_nil (n : Nat) : decimals n ≠ [] := by
  simp [decimals]

/-- A leading zero stands by itself. -/
theorem decimals_ne_zero_cons (n d : Nat) (ds : List Nat) : decimals n ≠ 0 :: d :: ds := by
  have hhead : ∀ n, 0 < n → ∀ ds, decimals n ≠ 0 :: ds := by
    intro n
    induction n using Nat.strongRecOn with
    | ind n ih =>
      intro hn ds heq
      by_cases hlt : n < 10
      · rw [decimals_of_lt hlt] at heq
        exact Nat.ne_of_gt hn (List.cons.inj heq).1
      · rw [decimals_of_le (by omega)] at heq
        rcases List.append_eq_cons_iff.1 heq with ⟨hnil, -⟩ | ⟨ds', hds', -⟩
        · exact decimals_ne_nil _ hnil
        · exact ih (n / 10) (by omega) (by omega) ds' hds'
  intro heq
  cases n with
  | zero => cases heq
  | succ n => exact hhead (n + 1) (Nat.succ_pos n) _ heq

theorem whole?_toDigits (n : Nat) {rest : List Char} (hrest : EndsNumber rest) :
    whole? (Nat.toDigits 10 n ++ rest) = some (decimals n, rest) := by
  have hdigits : digits (Nat.toDigits 10 n ++ rest) = (decimals n, rest) :=
    digits_append (fun c hc => Nat.isDigit_of_mem_toDigits (by decide) (by decide) hc) hrest
  unfold whole?
  rw [hdigits]
  split
  · next heq => exact absurd (Prod.mk.inj heq).1 (decimals_ne_nil n)
  · next heq => exact absurd (Prod.mk.inj heq).1 (decimals_ne_zero_cons n _ _)
  · next heq => rw [(Prod.mk.inj heq).1, (Prod.mk.inj heq).2]

theorem EndsNumber.fraction? {rest : List Char} (h : EndsNumber rest) :
    fraction? rest = some (none, rest) := by
  unfold Json.fraction?
  split
  · exact absurd rfl (h '.' rfl).2.1
  · rfl

theorem EndsNumber.exponent? {rest : List Char} (h : EndsNumber rest) :
    exponent? rest = some (none, rest) := by
  cases rest with
  | nil => rfl
  | cons c rest =>
    obtain ⟨-, -, he, hE⟩ := h c rfl
    rw [Json.exponent?, if_neg (fun hc => hc.elim he hE)]

theorem ne_of_isDigit {c d : Char} (hc : c.isDigit) (hd : d.isDigit = false) : c ≠ d := by
  rintro rfl
  exact Bool.noConfusion (hd.symm.trans hc)

/-- A token that starts with a digit is a number without a sign. -/
theorem token?_of_isDigit {c : Char} (h : c.isDigit) (cs : List Char) :
    token? (c :: cs) = (unsigned? false (c :: cs)).map (fun p => (.atom p.1, p.2)) := by
  have hnumber : number? (c :: cs) = unsigned? false (c :: cs) := by
    rw [number?]
    exact fun _ heq => ne_of_isDigit h rfl (List.cons.inj heq).1
  rw [token?, hnumber]
  all_goals exact fun _ heq => ne_of_isDigit h rfl (List.cons.inj heq).1

theorem exists_toList_toString (n : Nat) :
    ∃ c cs, c.isDigit ∧ (toString n).toList = c :: cs ∧ Nat.toDigits 10 n = c :: cs := by
  have htext : (toString n).toList = Nat.toDigits 10 n := by
    rw [Nat.toString_eq_ofList_toDigits, String.toList_ofList]
  cases hdigits : Nat.toDigits 10 n with
  | nil => exact absurd hdigits Nat.toDigits_ne_nil
  | cons c cs =>
    have hc : c ∈ Nat.toDigits 10 n := hdigits ▸ List.mem_cons_self
    exact ⟨c, cs, Nat.isDigit_of_mem_toDigits (by decide) (by decide) hc, htext.trans hdigits, rfl⟩

theorem token?_toString {n : Nat} (h : n < UInt64.size) {rest : List Char}
    (hrest : EndsNumber rest) :
    token? ((toString n).toList ++ rest) = some (.atom (.nat n), rest) := by
  have hnumber : unsigned? false (Nat.toDigits 10 n ++ rest) = some (.nat n, rest) := by
    rw [unsigned?, whole?_toDigits n hrest]
    simp [hrest.fraction?, hrest.exponent?, Numeral.value, ofDigits_decimals, h]
  obtain ⟨c, cs, hc, htext, hdigits⟩ := exists_toList_toString n
  rw [hdigits] at hnumber
  rw [htext, List.cons_append, token?_of_isDigit hc, ← List.cons_append, hnumber]
  rfl

end Wiring.Json
