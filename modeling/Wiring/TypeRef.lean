/-!
# Type references

A type is named in one of three ways: closed, with type arguments if it is generic; as a generic
definition of some arity, still open; or as a type parameter. This module has their text, their
order, the closing of definitions and the substitution of parameters.
-/

namespace Wiring

/-- A reference to a type. -/
inductive TypeRef where
  /-- A concrete type; its arguments may mention parameters. -/
  | closed (name : String) (args : List TypeRef)
  /-- A generic definition without arguments, such as `Repository<>`. -/
  | generic (name : String) (arity : UInt64)
  /-- A type parameter, such as `T`. -/
  | param (name : String)
deriving Repr, Inhabited

namespace TypeRef

/-! ## Equality -/

mutual
/-- Equality of type references is decided constructor by constructor. -/
def decEq : (a b : TypeRef) → Decidable (a = b)
  | .closed n as, .closed m bs =>
    if hn : n = m then
      match decEqAll as bs with
      | isTrue h => isTrue (by rw [hn, h])
      | isFalse h => isFalse (fun e => h (TypeRef.closed.inj e).2)
    else isFalse (fun e => hn (TypeRef.closed.inj e).1)
  | .generic n k, .generic m l =>
    if hn : n = m then
      if hk : k = l then isTrue (by rw [hn, hk])
      else isFalse (fun e => hk (TypeRef.generic.inj e).2)
    else isFalse (fun e => hn (TypeRef.generic.inj e).1)
  | .param n, .param m =>
    if hn : n = m then isTrue (by rw [hn]) else isFalse (fun e => hn (TypeRef.param.inj e))
  | .closed _ _, .generic _ _ => isFalse (fun e => nomatch e)
  | .closed _ _, .param _ => isFalse (fun e => nomatch e)
  | .generic _ _, .closed _ _ => isFalse (fun e => nomatch e)
  | .generic _ _, .param _ => isFalse (fun e => nomatch e)
  | .param _, .closed _ _ => isFalse (fun e => nomatch e)
  | .param _, .generic _ _ => isFalse (fun e => nomatch e)

/-- Equality of argument lists. -/
def decEqAll : (as bs : List TypeRef) → Decidable (as = bs)
  | [], [] => isTrue rfl
  | [], _ :: _ => isFalse (fun e => nomatch e)
  | _ :: _, [] => isFalse (fun e => nomatch e)
  | a :: as, b :: bs =>
    match decEq a b, decEqAll as bs with
    | isTrue h, isTrue t => isTrue (by rw [h, t])
    | isFalse h, _ => isFalse (fun e => h (List.cons.inj e).1)
    | _, isFalse t => isFalse (fun e => t (List.cons.inj e).2)
end

instance : DecidableEq TypeRef := decEq

/-! ## Parts -/

/-- The name without type arguments. -/
def name : TypeRef → String
  | .closed n _ => n
  | .generic n _ => n
  | .param n => n

/-- The type arguments of a closed type. -/
def args : TypeRef → List TypeRef
  | .closed _ as => as
  | _ => []

/-- Whether the reference is a generic definition. -/
def isOpen : TypeRef → Bool
  | .generic _ _ => true
  | _ => false

/-- Whether the reference is a type parameter. -/
def isParam : TypeRef → Bool
  | .param _ => true
  | _ => false

/-- What follows the last `::`, or `best` if there is none. -/
def afterColons (best : List Char) : List Char → List Char
  | ':' :: ':' :: r => afterColons r (':' :: r)
  | _ :: r => afterColons best r
  | [] => best

/-- What follows the last `.`, or `best` if there is none. -/
def afterDot (best : List Char) : List Char → List Char
  | '.' :: r => afterDot r r
  | _ :: r => afterDot best r
  | [] => best

/-- The last segment of a qualified name, whichever of `::` and `.` qualifies it. -/
def lastSegment (name : String) : String :=
  let tail := afterColons name.toList name.toList
  String.ofList (afterDot tail tail)

/-- The name without namespaces. -/
def simpleName (t : TypeRef) : String :=
  lastSegment t.name

mutual
/-- Whether `inner` occurs somewhere among the type arguments. -/
def nests (inner : TypeRef) : TypeRef → Bool
  | .closed _ as => nestsAny inner as
  | .generic _ _ => false
  | .param _ => false

/-- Whether some reference of the list is `inner` or nests it. -/
def nestsAny (inner : TypeRef) : List TypeRef → Bool
  | [] => false
  | a :: as => a == inner || nests inner a || nestsAny inner as
end

/-! ## Text and order -/

mutual
/-- The text of a type: arguments in angle brackets, a definition with its commas only. -/
def text : TypeRef → String
  | .closed n [] => n
  | .closed n (a :: as) => n ++ "<" ++ ", ".intercalate (text a :: textAll as) ++ ">"
  | .generic n k => n ++ "<" ++ String.ofList (List.replicate (k.toNat - 1) ',') ++ ">"
  | .param n => n

/-- The texts of a list of types. -/
def textAll : List TypeRef → List String
  | [] => []
  | a :: as => text a :: textAll as
end

instance : ToString TypeRef := ⟨text⟩

mutual
/-- Closed types come before definitions and definitions before parameters; then names decide by
code point, then arguments from the left, or the arity. -/
def cmp : TypeRef → TypeRef → Ordering
  | .closed n as, .closed m bs => (compare n m).then (cmpAll as bs)
  | .closed _ _, _ => .lt
  | .generic _ _, .closed _ _ => .gt
  | .generic n k, .generic m l => (compare n m).then (compare k l)
  | .generic _ _, .param _ => .lt
  | .param n, .param m => compare n m
  | .param _, _ => .gt

/-- Argument lists from the left; a list comes before its extensions. -/
def cmpAll : List TypeRef → List TypeRef → Ordering
  | [], [] => .eq
  | [], _ :: _ => .lt
  | _ :: _, [] => .gt
  | a :: as, b :: bs => (cmp a b).then (cmpAll as bs)
end

instance : Ord TypeRef := ⟨cmp⟩

/-! ## Closing definitions and substituting parameters -/

/-- The generic definition that a closed generic type instantiates. -/
def openDefinition : TypeRef → Option TypeRef
  | .closed _ [] => none
  | .closed n (a :: as) => some (.generic n (UInt64.ofNat (a :: as).length))
  | _ => none

/-- Closes a definition over parameter names, one for each place; other types are closed as they
are. -/
def closeOver (params : List String) : TypeRef → Option TypeRef
  | .generic n k => if k.toNat = params.length then some (.closed n (params.map .param)) else none
  | t => some t

/-- The argument at the first place where the parameter is listed. -/
def lookup (params : List String) (args : List TypeRef) (p : String) : Option TypeRef :=
  match params, args with
  | q :: qs, a :: as => if q = p then some a else lookup qs as p
  | _, _ => none

mutual
/-- Replaces each listed parameter by the argument at its place and leaves the others. -/
def substitute (params : List String) (args : List TypeRef) : TypeRef → TypeRef
  | .closed n as => .closed n (substituteAll params args as)
  | .generic n k => .generic n k
  | .param p => (lookup params args p).getD (.param p)

/-- Substitution in each type of a list. -/
def substituteAll (params : List String) (args : List TypeRef) : List TypeRef → List TypeRef
  | [] => []
  | a :: as => substitute params args a :: substituteAll params args as
end

/-! ## Induction and list forms -/

/-- What passes from the arguments of a closed type to the type holds of all types. -/
@[elab_as_elim]
theorem induct {P : TypeRef → Prop} (closed : ∀ n as, (∀ a ∈ as, P a) → P (.closed n as))
    (generic : ∀ n k, P (.generic n k)) (param : ∀ x, P (.param x)) : ∀ t, P t
  | .closed n as => closed n as (fun a _ => induct closed generic param a)
  | .generic n k => generic n k
  | .param x => param x

theorem textAll_eq_map : ∀ ts : List TypeRef, textAll ts = ts.map text
  | [] => rfl
  | t :: ts => by rw [textAll, textAll_eq_map ts, List.map_cons]

theorem substituteAll_eq_map (params : List String) (args : List TypeRef) :
    ∀ ts : List TypeRef, substituteAll params args ts = ts.map (substitute params args)
  | [] => rfl
  | t :: ts => by rw [substituteAll, substituteAll_eq_map params args ts, List.map_cons]

theorem nestsAny_eq_any (inner : TypeRef) :
    ∀ ts : List TypeRef, nestsAny inner ts = ts.any (fun a => a == inner || nests inner a)
  | [] => rfl
  | t :: ts => by rw [nestsAny, nestsAny_eq_any inner ts, List.any_cons]

end TypeRef

end Wiring
