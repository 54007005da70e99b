import Wiring.Document.Basic

/-!
# Numbers in JSON text

A number is an optional minus sign, digits without a needless leading zero, and optionally a
fraction and an exponent. Written as plain digits it is an integer if it fits 64 bits; in any
other case it is a real, if it is in the range of a double.
-/

namespace Wiring.Json

/-- Rounds to 53 binary digits, a tie to the even neighbour. -/
def roundBinary (n : Nat) : Nat :=
  if n < Nat.pow 2 53 then n
  else
    let k := n.log2 - 52
    let unit := Nat.pow 2 k
    let q := n / unit
    let r := n % unit
    let half := unit / 2
    if r < half || (r == half && q % 2 == 0) then q * unit else (q + 1) * unit

/-- Whether `m` times ten to the power `e`, both rounded to doubles, is in the range of a double. -/
def inRange (m : Nat) (e : Int) : Bool :=
  if e < 0 || m == 0 then true
  else if e ≤ 308 then
    roundBinary m * roundBinary (Nat.pow 10 e.toNat) < Nat.pow 2 1024 - Nat.pow 2 970
  else false

/-- Takes up digits as long as the number stays below 2^64; the rest is left. -/
def absorb (m : Nat) : List Nat → Nat × List Nat
  | [] => (m, [])
  | d :: ds => if m * 10 + d < UInt64.size then absorb (m * 10 + d) ds else (m, d :: ds)

/-- The number that a list of decimal digits stands for. -/
def ofDigits (ds : List Nat) : Nat :=
  ds.foldl (fun n d => n * 10 + d) 0

/-- The parts of a written number. -/
structure Numeral where
  negative : Bool
  whole : List Nat
  fraction : Option (List Nat)
  exponent : Option (Bool × List Nat)
deriving Repr

namespace Numeral

/-- Whether the number is in the range of a double. Digits beyond the first 2^64 count by their
place only. -/
def isFinite (n : Numeral) : Bool :=
  let (m, left) := absorb 0 n.whole
  let places := n.fraction.getD []
  let (m', left') := absorb m places
  let shift : Int := (left.length : Int) - (places.length - left'.length : Nat)
  match n.exponent with
  | none => inRange m' shift
  | some (false, ds) => inRange m' (shift + ofDigits ds)
  | some (true, ds) => inRange m' (shift - ofDigits ds)

/-- The value of a number. Minus zero is no integer. -/
def value (n : Numeral) : Value :=
  let other := if n.isFinite then Value.real else Value.unreadable
  match n.fraction, n.exponent with
  | none, none =>
    let k := ofDigits n.whole
    if n.negative then
      if k = 0 then .real else if k ≤ UInt64.size / 2 then .int (-(k : Int)) else other
    else if k < UInt64.size then .nat k else other
  | _, _ => other

end Numeral

/-- The value of a decimal digit. -/
def digit? (c : Char) : Option Nat :=
  if '0' ≤ c ∧ c ≤ '9' then some (c.toNat - '0'.toNat) else none

/-- The digits at the head and what follows them. -/
def digits : List Char → List Nat × List Char
  | [] => ([], [])
  | c :: cs =>
    match digit? c with
    | some d => let (ds, rest) := digits cs; (d :: ds, rest)
    | none => ([], c :: cs)

/-- At least one digit, a leading zero only by itself. -/
def whole? (cs : List Char) : Option (List Nat × List Char) :=
  match digits cs with
  | ([], _) => none
  | (0 :: _ :: _, _) => none
  | (ds, rest) => some (ds, rest)

/-- At least one digit. -/
def places? (cs : List Char) : Option (List Nat × List Char) :=
  match digits cs with
  | ([], _) => none
  | (ds, rest) => some (ds, rest)

/-- The fraction, if there is a point. -/
def fraction? : List Char → Option (Option (List Nat) × List Char)
  | '.' :: cs => (places? cs).map (fun (ds, rest) => (some ds, rest))
  | cs => some (none, cs)

/-- The digits of an exponent with its sign. -/
def signedPlaces? : List Char → Option ((Bool × List Nat) × List Char)
  | '-' :: cs => (places? cs).map (fun (ds, rest) => ((true, ds), rest))
  | '+' :: cs => (places? cs).map (fun (ds, rest) => ((false, ds), rest))
  | cs => (places? cs).map (fun (ds, rest) => ((false, ds), rest))

/-- The exponent, if there is a mark. -/
def exponent? : List Char → Option (Option (Bool × List Nat) × List Char)
  | c :: cs =>
    if c = 'e' ∨ c = 'E' then (signedPlaces? cs).map (fun (e, rest) => (some e, rest))
    else some (none, c :: cs)
  | [] => some (none, [])

/-- A number without its sign. -/
def unsigned? (negative : Bool) (cs : List Char) : Option (Value × List Char) := do
  let (whole, cs) ← whole? cs
  let (fraction, cs) ← fraction? cs
  let (exponent, cs) ← exponent? cs
  return (Numeral.value ⟨negative, whole, fraction, exponent⟩, cs)

/-- The number at the head and what follows it. -/
def number? : List Char → Option (Value × List Char)
  | '-' :: cs => unsigned? true cs
  | cs => unsigned? false cs

/-! ## What is read is taken off the head -/

theorem digits_length (cs : List Char) :
    (digits cs).1.length + (digits cs).2.length = cs.length := by
  induction cs with
  | nil => rfl
  | cons c cs ih =>
    rw [digits]
    cases digit? c with
    | none => simp
    | some d => simp only [List.length_cons]; omega

theorem places?_lt {cs : List Char} {p : List Nat × List Char} (h : places? cs = some p) :
    p.2.length < cs.length := by
  unfold places? at h
  have hl := digits_length cs
  split at h
  · exact nomatch h
  · rename_i ds rest hne heq
    rw [heq] at hl
    obtain rfl := Option.some.inj h
    cases ds with
    | nil => exact absurd rfl hne
    | cons d ds =>
      simp only [List.length_cons] at hl
      show rest.length < cs.length
      omega

theorem whole?_lt {cs : List Char} {p : List Nat × List Char} (h : whole? cs = some p) :
    p.2.length < cs.length := by
  unfold whole? at h
  have hl := digits_length cs
  split at h
  · exact nomatch h
  · exact nomatch h
  · rename_i ds rest hne _ heq
    rw [heq] at hl
    obtain rfl := Option.some.inj h
    cases ds with
    | nil => exact absurd rfl hne
    | cons d ds =>
      simp only [List.length_cons] at hl
      show rest.length < cs.length
      omega

theorem fraction?_le {cs : List Char} {p : Option (List Nat) × List Char}
    (h : fraction? cs = some p) : p.2.length ≤ cs.length := by
  unfold fraction? at h
  split at h
  · obtain ⟨q, hq, rfl⟩ := Option.map_eq_some_iff.1 h
    have := places?_lt hq
    simp only [List.length_cons]
    omega
  · obtain rfl := Option.some.inj h
    exact Nat.le_refl _

theorem signedPlaces?_lt {cs : List Char} {p : (Bool × List Nat) × List Char}
    (h : signedPlaces? cs = some p) : p.2.length < cs.length := by
  unfold signedPlaces? at h
  split at h
  all_goals
    obtain ⟨q, hq, rfl⟩ := Option.map_eq_some_iff.1 h
    have := places?_lt hq
    simp only [List.length_cons]
    omega

theorem exponent?_le {cs : List Char} {p : Option (Bool × List Nat) × List Char}
    (h : exponent? cs = some p) : p.2.length ≤ cs.length := by
  unfold exponent? at h
  split at h
  · split at h
    · obtain ⟨q, hq, rfl⟩ := Option.map_eq_some_iff.1 h
      have := signedPlaces?_lt hq
      simp only [List.length_cons]
      omega
    · obtain rfl := Option.some.inj h
      exact Nat.le_refl _
  · obtain rfl := Option.some.inj h
    exact Nat.le_refl _

theorem unsigned?_lt {neg : Bool} {cs : List Char} {p : Value × List Char}
    (h : unsigned? neg cs = some p) : p.2.length < cs.length := by
  unfold unsigned? at h
  simp only [bind, Option.bind_eq_some_iff, pure, Option.some.injEq] at h
  obtain ⟨a, ha, b, hb, c, hc, rfl⟩ := h
  have h1 := whole?_lt ha
  have h2 := fraction?_le hb
  have h3 := exponent?_le hc
  show c.2.length < cs.length
  omega

theorem number?_lt {cs : List Char} {p : Value × List Char} (h : number? cs = some p) :
    p.2.length < cs.length := by
  unfold number? at h
  split at h
  · have := unsigned?_lt h
    simp only [List.length_cons]
    omega
  · exact unsigned?_lt h

end Wiring.Json
