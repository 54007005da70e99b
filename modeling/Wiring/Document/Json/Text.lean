import Wiring.Document.Basic

/-!
# Text in JSON

Text stands between double quotes. A backslash starts an escape, and `\u` gives a UTF-16 code unit
by four hexadecimal digits; a character beyond the first plane takes a pair of them.
-/

namespace Wiring.Json

/-- The value of a hexadecimal digit. -/
def hexDigit? (c : Char) : Option Nat :=
  if '0' ≤ c ∧ c ≤ '9' then some (c.toNat - '0'.toNat)
  else if 'a' ≤ c ∧ c ≤ 'f' then some (c.toNat - 'a'.toNat + 10)
  else if 'A' ≤ c ∧ c ≤ 'F' then some (c.toNat - 'A'.toNat + 10)
  else none

/-- The code unit of four hexadecimal digits. -/
def hexUnit? (a b c d : Char) : Option Nat := do
  let a ← hexDigit? a
  let b ← hexDigit? b
  let c ← hexDigit? c
  let d ← hexDigit? d
  return a * 4096 + b * 256 + c * 16 + d

/-- The character that a one-letter escape stands for. -/
def unescape? : Char → Option Char
  | '"' => some '"'
  | '\\' => some '\\'
  | '/' => some '/'
  | 'b' => some '\x08'
  | 'f' => some '\x0c'
  | 'n' => some '\n'
  | 'r' => some '\r'
  | 't' => some '\t'
  | _ => none

/-- A part of quoted text: a character, or a code unit given by number. -/
inductive Piece where
  | char (c : Char)
  | unit (n : Nat)
deriving DecidableEq, Repr

/-- The parts up to the closing quote and what follows it. Control characters must be escaped. -/
def pieces? : List Char → Option (List Piece × List Char)
  | [] => none
  | '"' :: cs => some ([], cs)
  | '\\' :: 'u' :: a :: b :: c :: d :: cs =>
    match hexUnit? a b c d, pieces? cs with
    | some n, some (ps, rest) => some (.unit n :: ps, rest)
    | _, _ => none
  | '\\' :: e :: cs =>
    match unescape? e, pieces? cs with
    | some c, some (ps, rest) => some (.char c :: ps, rest)
    | _, _ => none
  | c :: cs =>
    if c < ' ' ∨ c = '\\' then none
    else
      match pieces? cs with
      | some (ps, rest) => some (.char c :: ps, rest)
      | none => none

/-- Whether a code unit is the first half of a pair. -/
def isHigh (n : Nat) : Bool :=
  0xd800 ≤ n && n < 0xdc00

/-- Whether a code unit is the second half of a pair. -/
def isLow (n : Nat) : Bool :=
  0xdc00 ≤ n && n < 0xe000

/-- The characters of the parts, if every half of a pair has its other half beside it. -/
def join? : List Piece → Option (List Char)
  | [] => some []
  | .char c :: ps => (join? ps).map (c :: ·)
  | .unit n :: .unit m :: ps =>
    if isHigh n then
      if isLow m then
        (join? ps).map (Char.ofNat (0x10000 + (n - 0xd800) * 0x400 + (m - 0xdc00)) :: ·)
      else none
    else if isLow n then none
    else (join? (.unit m :: ps)).map (Char.ofNat n :: ·)
  | .unit n :: ps =>
    if isHigh n || isLow n then none else (join? ps).map (Char.ofNat n :: ·)

/-- The scalar of quoted text, after the opening quote, and what follows it. -/
def text? (cs : List Char) : Option (Scalar × List Char) :=
  match pieces? cs with
  | none => none
  | some (ps, rest) =>
    match join? ps with
    | some s => some (.str (String.ofList s), rest)
    | none => some (.only .unreadable, rest)

/-- The hexadecimal digit of a number below sixteen. -/
def hexDigit (n : Nat) : Char :=
  if n < 10 then Char.ofNat ('0'.toNat + n) else Char.ofNat ('a'.toNat + (n - 10))

/-- How a character is written between quotes: quotes, backslashes and control characters are
escaped, with a letter if there is one. -/
def escape (c : Char) : List Char :=
  if c = '"' then ['\\', '"']
  else if c = '\\' then ['\\', '\\']
  else if c = '\x08' then ['\\', 'b']
  else if c = '\x0c' then ['\\', 'f']
  else if c = '\n' then ['\\', 'n']
  else if c = '\r' then ['\\', 'r']
  else if c = '\t' then ['\\', 't']
  else if c < ' ' then ['\\', 'u', '0', '0', hexDigit (c.toNat / 16), hexDigit (c.toNat % 16)]
  else [c]

/-- Characters between quotes, the closing quote, and what follows it. -/
def escapeAll (cs rest : List Char) : List Char :=
  cs.foldr (fun c r => escape c ++ r) ('"' :: rest)

/-- Quoted text before `rest`. -/
def quote (s : String) (rest : List Char) : List Char :=
  '"' :: escapeAll s.toList rest

/-! ## What is read is taken off the head -/

theorem pieces?_lt {cs : List Char} {p : List Piece × List Char} (h : pieces? cs = some p) :
    p.2.length < cs.length := by
  fun_induction pieces? cs generalizing p with
  | case1 => exact nomatch h
  | case2 cs =>
    obtain rfl := Option.some.inj h
    exact Nat.lt_succ_self _
  | case3 a b c d cs n ps rest hp _ ih =>
    obtain rfl := Option.some.inj h
    have := ih hp
    simp only [List.length_cons] at this ⊢
    omega
  | case4 => exact nomatch h
  | case5 e cs _ c ps rest hp _ ih =>
    obtain rfl := Option.some.inj h
    have := ih hp
    simp only [List.length_cons] at this ⊢
    omega
  | case6 => exact nomatch h
  | case7 => exact nomatch h
  | case8 c cs _ _ _ hc ps rest hp ih =>
    obtain rfl := Option.some.inj h
    have := ih hp
    simp only [List.length_cons] at this ⊢
    omega
  | case9 => exact nomatch h

theorem text?_lt {cs : List Char} {p : Scalar × List Char} (h : text? cs = some p) :
    p.2.length < cs.length := by
  unfold text? at h
  split at h
  · exact nomatch h
  · rename_i ps rest hp
    have := pieces?_lt hp
    split at h <;> (obtain rfl := Option.some.inj h; exact this)

end Wiring.Json
