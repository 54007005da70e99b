import Mathlib.Data.List.Forall2
import Wiring.Proofs.Resolvability.Roots

/-!
# Arguments that wrap earlier ones

The walk takes a generic service for a cycle if the same node stands on the path already, with
arguments that the new ones wrap. This module says what that means for the size of the arguments,
counted in types: no argument gets smaller and some argument gets larger, since a type among the
arguments of another is always the smaller one of the two.

Results:
1. `TypeRef.nests_iff_inside`: nesting is to be an argument, or to be inside of one.
2. `widens_iff_wraps`: what the walk tests of two lists of arguments.
3. `widened?_grows`: a cut is made at the outermost service of the node that the arguments wrap, and
   these are strictly larger.
4. `smaller_cut_below_smallest`: a service smaller than one on the path may still be cut, namely at
   another that is smaller yet.
-/

namespace Wiring

namespace TypeRef

/-! ## Sizes -/

mutual
/-- The number of types that a type is put together from, itself included. -/
def size : TypeRef → Nat
  | .closed _ as => 1 + sizeAll as
  | .generic _ _ => 1
  | .param _ => 1

/-- The size of all types of a list together. -/
def sizeAll : List TypeRef → Nat
  | [] => 0
  | a :: as => size a + sizeAll as
end

theorem size_le_sizeAll {t : TypeRef} {ts : List TypeRef} (h : t ∈ ts) : t.size ≤ sizeAll ts := by
  induction ts with
  | nil => exact absurd h List.not_mem_nil
  | cons u ts ih =>
    rw [sizeAll]
    rcases List.mem_cons.1 h with rfl | h
    · exact Nat.le_add_right _ _
    · exact Nat.le_trans (ih h) (Nat.le_add_left _ _)

/-! ## Types inside of others -/

/-- The one type is an argument of the other, or inside of an argument. -/
inductive Inside (inner : TypeRef) : TypeRef → Prop
  | arg {n : String} {as : List TypeRef} : inner ∈ as → Inside inner (.closed n as)
  | deeper {n : String} {as : List TypeRef} {a : TypeRef} : a ∈ as → Inside inner a →
      Inside inner (.closed n as)

variable {a b c : TypeRef}

theorem nests_iff_inside : nests a b ↔ Inside a b := by
  induction b using induct with
  | closed n as ih =>
    rw [nests, nestsAny_eq_any, List.any_eq_true]
    constructor
    · rintro ⟨u, hu, h⟩
      rcases (Bool.or_eq_true _ _).mp h with h | h
      · exact .arg (eq_of_beq h ▸ hu)
      · exact .deeper hu ((ih u hu).1 h)
    · intro h
      cases h with
      | arg h => exact ⟨a, h, by rw [beq_self_eq_true, Bool.true_or]⟩
      | deeper hu h => exact ⟨_, hu, by rw [(ih _ hu).2 h, Bool.or_true]⟩
  | generic n k =>
    constructor
    · intro h
      rw [nests] at h
      exact absurd h Bool.false_ne_true
    · intro h
      cases h
  | param x =>
    constructor
    · intro h
      rw [nests] at h
      exact absurd h Bool.false_ne_true
    · intro h
      cases h

theorem Inside.trans (hab : Inside a b) (hbc : Inside b c) : Inside a c := by
  induction hbc with
  | arg h => exact .deeper h hab
  | deeper h _ ih => exact .deeper h ih

theorem Inside.size_lt (h : Inside a b) : a.size < b.size := by
  induction h with
  | arg h =>
    have := size_le_sizeAll h
    rw [size]
    omega
  | deeper h _ ih =>
    have := size_le_sizeAll h
    rw [size]
    omega

theorem not_inside_self (t : TypeRef) : ¬ Inside t t :=
  fun h => Nat.lt_irrefl _ h.size_lt

end TypeRef

namespace Resolvability

open TypeRef (Inside sizeAll)

/-! ## Lists of arguments -/

/-- The new arguments wrap the earlier ones: place by place, the earlier argument is the new one or
inside of it, and not all are the same. -/
structure Wraps (earlier new : List TypeRef) : Prop where
  ne : earlier ≠ new
  places : List.Forall₂ (fun e n => e = n ∨ Inside e n) earlier new

variable {earlier new : List TypeRef}

theorem widens_iff_wraps : widens earlier new ↔ Wraps earlier new := by
  have hplace : ∀ e n : TypeRef, (e == n || TypeRef.nests e n) = true ↔ e = n ∨ Inside e n := by
    intro e n
    rw [Bool.or_eq_true, beq_iff_eq, TypeRef.nests_iff_inside]
  unfold widens
  rw [Bool.and_eq_true, Bool.and_eq_true, beq_iff_eq, bne_iff_ne, List.all_eq_true]
  constructor
  · rintro ⟨⟨hlen, hne⟩, hall⟩
    exact ⟨hne, List.forall₂_iff_zip.2 ⟨hlen, fun h => (hplace _ _).1 (hall _ h)⟩⟩
  · rintro ⟨hne, hplaces⟩
    obtain ⟨hlen, hall⟩ := List.forall₂_iff_zip.1 hplaces
    exact ⟨⟨hlen, hne⟩, fun e he => (hplace _ _).2 (hall he)⟩

theorem Wraps.length_eq (h : Wraps earlier new) : earlier.length = new.length :=
  h.places.length_eq

/-- No argument gets smaller. -/
theorem Wraps.size_le (h : Wraps earlier new) :
    List.Forall₂ (fun e n => e.size ≤ n.size) earlier new := by
  refine h.places.imp (fun e n hen => ?_)
  rcases hen with rfl | hen
  · exact Nat.le_refl _
  · exact Nat.le_of_lt hen.size_lt

/-- Arguments of which none gets smaller are the same, or larger together. -/
theorem eq_or_sizeAll_lt (h : List.Forall₂ (fun e n => e = n ∨ Inside e n) earlier new) :
    earlier = new ∨ sizeAll earlier < sizeAll new := by
  induction h with
  | nil => exact .inl rfl
  | cons hen _ ih =>
    rw [sizeAll, sizeAll]
    rcases hen with rfl | hen
    · rcases ih with rfl | hlt
      · exact .inl rfl
      · exact .inr (Nat.add_lt_add_left hlt _)
    · refine .inr (Nat.add_lt_add_of_lt_of_le hen.size_lt ?_)
      rcases ih with rfl | hlt
      · exact Nat.le_refl _
      · exact Nat.le_of_lt hlt

theorem Wraps.sizeAll_lt (h : Wraps earlier new) : sizeAll earlier < sizeAll new :=
  (eq_or_sizeAll_lt h.places).resolve_left h.ne

/-! ## The cut -/

variable {p : Path} {n : Node} {args : List TypeRef} {depth : Nat}

/-- The service at a depth of the path comes from the node, and the arguments wrap its own. -/
def WrapsAt (p : Path) (n : Node) (args : List TypeRef) (depth : Nat) : Prop :=
  ∃ e, p[depth]? = some e ∧ e.2.ix = n.ix ∧ Wraps e.1.ty.args args

theorem WrapsAt.args_ne_nil (h : WrapsAt p n args depth) : args ≠ [] := by
  rintro rfl
  obtain ⟨e, -, -, hw⟩ := h
  exact absurd hw.sizeAll_lt (Nat.not_lt_zero _)

/-- The cut is made at the outermost depth at which the arguments wrap earlier ones of the node. -/
theorem widened?_eq_some_iff :
    widened? p n args = some depth ↔
      WrapsAt p n args depth ∧ ∀ i < depth, ¬ WrapsAt p n args i := by
  have hat : ∀ i (hi : i < p.length),
      (p[i].2.ix == n.ix && widens p[i].1.ty.args args) = true ↔ WrapsAt p n args i := by
    intro i hi
    rw [Bool.and_eq_true, beq_iff_eq, widens_iff_wraps]
    constructor
    · exact fun h => ⟨p[i], List.getElem?_eq_getElem hi, h⟩
    · rintro ⟨e, he, h⟩
      rw [List.getElem?_eq_getElem hi] at he
      exact Option.some.inj he ▸ h
  unfold widened?
  split
  · next hnil =>
    refine ⟨fun h => absurd h (Option.some_ne_none _).symm, fun h => ?_⟩
    exact absurd (List.isEmpty_iff.1 hnil) h.1.args_ne_nil
  · rw [List.findIdx?_eq_some_iff_getElem]
    constructor
    · rintro ⟨hlt, hw, hmin⟩
      exact ⟨(hat depth hlt).1 hw, fun i hi h => hmin i hi ((hat i (by omega)).2 h)⟩
    · rintro ⟨hw, hmin⟩
      obtain ⟨e, he, -⟩ := id hw
      have hlt : depth < p.length := (List.getElem?_eq_some_iff.1 he).1
      exact ⟨hlt, (hat depth hlt).2 hw, fun i hi h => hmin i hi ((hat i (by omega)).1 h)⟩

/-- A cut means larger arguments: it is made at the outermost service of the same node that the
arguments wrap, which has as many arguments, none of them larger than the new one at its place, and
all of them together strictly smaller. For a type never nests itself, and what it nests is smaller.
So no cut is made at a service with arguments of the same size or larger, and none at all if all
services of the node on the path are like that. -/
theorem widened?_grows :
    (∀ (p : Path) (n : Node) (args : List TypeRef) (depth : Nat), widened? p n args = some depth →
      ∃ e, p[depth]? = some e ∧ e.2.ix = n.ix ∧ Wraps e.1.ty.args args ∧
        (∀ i < depth, ¬ WrapsAt p n args i) ∧ e.1.ty.args.length = args.length ∧
        List.Forall₂ (fun earlier new => earlier.size ≤ new.size) e.1.ty.args args ∧
        sizeAll e.1.ty.args < sizeAll args) ∧
    (∀ t, TypeRef.nests t t = false) ∧
    (∀ a b c, TypeRef.nests a b → TypeRef.nests b c → TypeRef.nests a c) ∧
    (∀ a b, TypeRef.nests a b → a.size < b.size) ∧
    (∀ (p : Path) (n : Node) (args : List TypeRef) (depth : Nat) (e : ServiceIdentity × Node),
      p[depth]? = some e → sizeAll args ≤ sizeAll e.1.ty.args → widened? p n args ≠ some depth) ∧
    ∀ (p : Path) (n : Node) (args : List TypeRef),
      (∀ e ∈ p, e.2.ix = n.ix → sizeAll args ≤ sizeAll e.1.ty.args) → widened? p n args = none := by
  refine ⟨?_, ?_, ?_, ?_, ?_, ?_⟩
  · intro p n args depth h
    obtain ⟨⟨e, he, hn, hw⟩, hmin⟩ := widened?_eq_some_iff.1 h
    exact ⟨e, he, hn, hw, hmin, hw.length_eq, hw.size_le, hw.sizeAll_lt⟩
  · intro t
    rw [← Bool.not_eq_true, TypeRef.nests_iff_inside]
    exact TypeRef.not_inside_self t
  · intro a b c hab hbc
    rw [TypeRef.nests_iff_inside] at hab hbc ⊢
    exact hab.trans hbc
  · intro a b h
    exact (TypeRef.nests_iff_inside.1 h).size_lt
  · intro p n args depth e he hle h
    obtain ⟨⟨e', he', -, hw⟩, -⟩ := widened?_eq_some_iff.1 h
    obtain rfl := Option.some.inj (he.symm.trans he')
    exact Nat.not_lt_of_le hle hw.sizeAll_lt
  · intro p n args hle
    cases h : widened? p n args with
    | none => rfl
    | some depth =>
      obtain ⟨⟨e, he, hn, hw⟩, -⟩ := widened?_eq_some_iff.1 h
      exact absurd hw.sizeAll_lt (Nat.not_lt_of_le (hle e (List.mem_of_getElem? he) hn))

/-- `Node<Wrap<A>>` is cut at `Node<A>`, and not at the service above, which it does not wrap; a
service no larger than those on the path is not cut. -/
theorem wrapped_cut_at_smaller :
    let type (name : String) : TypeRef := .closed name []
    let wrap (arg : TypeRef) : TypeRef := .closed "Wrap" [arg]
    let r := asItself (.generic "Node" 1) 1
    let n : Node := ⟨0, r, [r]⟩
    let p : Path := [wrap (type "B"), type "A"].map (fun arg => (.of (.closed "Node" [arg]), n))
    widened? p n [wrap (type "A")] = some 1 ∧
    (∃ e, p[1]? = some e ∧ e.2.ix = n.ix ∧ Wraps e.1.ty.args [wrap (type "A")] ∧
      (∀ i < 1, ¬ WrapsAt p n [wrap (type "A")] i) ∧
      sizeAll e.1.ty.args < sizeAll [wrap (type "A")]) ∧
    widened? p n [type "B"] = none := by
  intro type wrap r n p
  have hcut : widened? p n [wrap (type "A")] = some 1 := by decide +kernel
  obtain ⟨hgrows, -, -, -, -, hnone⟩ := widened?_grows
  obtain ⟨e, he, hn, hw, hmin, -, -, hlt⟩ := hgrows p n [wrap (type "A")] 1 hcut
  exact ⟨hcut, ⟨e, he, hn, hw, hmin, hlt⟩, hnone p n [type "B"] (by decide +kernel)⟩

/-- A service smaller than one on the path may be cut at another that is smaller yet.
`Node<Wrap<Wrap<A>>>` leads to `Node<A>` and this to `Node<Wrap<A>>`, which is cut there. So the
root is not reported, although `Item<Wrap<A>>` is missing below, as the walk from `Item<A>` finds.
-/
theorem smaller_cut_below_smallest :
    let type (name : String) : TypeRef := .closed name []
    let once : TypeRef := .closed "Wrap" [type "A"]
    let twice : TypeRef := .closed "Wrap" [once]
    let item (arg : TypeRef) : TypeRef := .closed "Item" [arg]
    let node (arg : TypeRef) : TypeRef := .closed "Node" [arg]
    let rs := [asItself (type "Root") 1, asItself (.generic "Node" 1) 2,
      asItself (item (type "A")) 3, asItself (item twice) 4]
    let g := Graph.build rs
      [constructedFrom (type "Root") [node twice],
        (TypeShape.ofDefinition "Node" ["T"]).dependsOn (.require (item (.param "T"))),
        constructedFrom (item (type "A")) [node once],
        constructedFrom (item twice) [node (type "A")]]
    (∃ (p : Path) (n : Node),
      Path.services p =
        [type "Root", node twice, item twice, node (type "A"), item (type "A")].map .of ∧
      (∀ e ∈ p, (g.resolveTarget? e.1).map Target.node = some e.2) ∧
      g.resolveTarget? (.of (node once)) = some ⟨n, [once]⟩ ∧
      (∃ e ∈ p, e.2.ix = n.ix ∧ sizeAll [once] < sizeAll e.1.ty.args) ∧
      widened? p n [once] = some 3) ∧
    (∃ e ∈ visits g .disabled maxDepth, e.1.service = .of (type "Root") ∧ e.2.chain = none) ∧
    ∃ e ∈ visits g .disabled maxDepth, e.1.service = .of (item (type "A")) ∧
      e.2.chain = some ([item (type "A"), node once, item once].map .of) := by
  intro type once twice item node rs g
  have hnodup : (rs.map Registration.service).Nodup := by decide
  have hbuild := Graph.build_eq_of_inOrder hnodup (by decide)
  unfold g
  rw [hbuild]
  let provider (ix : Nat) (r : Registration) : Node := ⟨ix, r, [r]⟩
  let generic : Node := provider 1 (asItself (.generic "Node" 1) 2)
  refine ⟨⟨[(.of (type "Root"), provider 0 (asItself (type "Root") 1)), (.of (node twice), generic),
    (.of (item twice), provider 3 (asItself (item twice) 4)), (.of (node (type "A")), generic),
    (.of (item (type "A")), provider 2 (asItself (item (type "A")) 3))], generic, ?_⟩, ?_, ?_⟩
  · decide +kernel
  · decide +kernel
  · decide +kernel

end Resolvability

end Wiring
