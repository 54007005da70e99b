/-!
# Lifetimes

How long the container keeps an instance, from one for the whole program to one for each request.
-/

namespace Wiring

/-- The lifetime of a registration. -/
inductive Lifetime where
  | singleton
  | scoped
  | transient
deriving DecidableEq, Repr, Inhabited

namespace Lifetime

/-- The lower the rank, the longer the instance lives. -/
def rank : Lifetime → Nat
  | .singleton => 0
  | .scoped => 1
  | .transient => 2

/-- Whether an instance of the first lifetime outlives one of the second that it holds. -/
def captures (consumer dependency : Lifetime) : Bool :=
  consumer.rank < dependency.rank

/-- The word in running text and in documents. -/
def word : Lifetime → String
  | .singleton => "singleton"
  | .scoped => "scoped"
  | .transient => "transient"

/-- The capitalised word, as in the names of registration calls. -/
def text : Lifetime → String
  | .singleton => "Singleton"
  | .scoped => "Scoped"
  | .transient => "Transient"

/-- All lifetimes by rank. -/
def all : List Lifetime :=
  [.singleton, .scoped, .transient]

end Lifetime

end Wiring
