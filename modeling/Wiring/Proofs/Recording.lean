import Mathlib.Data.List.Forall2
import Wiring.Proofs.Compatibility
import Wiring.Recorder

/-!
# The form of recorded pairs

A call that registers one type for another is recorded with a form, and only the form of type
objects is checked for compatibility. A generic definition cannot be a type argument, so a pair with
one in it should have that form. This holds of the plain calls. Conditional calls and calls with a
key record the other form whatever the types are, and so their pairs are never checked.

Results:
1. `Recorder.forall₂_made_record`, `Recorder.forall₂_made_recordAll`: which call made which
   registration.
2. `Compatibility.isSome_finding?_iff`: which pairs are reported.
3. `Recorder.recordAll_pairs`: the form of every pair, and what the check makes of it.
4. `Recorder.conditional_pair_unchecked`, `Recorder.keyed_pair_unchecked`: pairs that cannot work
   and are not reported.
-/

namespace Wiring

/-! ## Calls and the registrations that they make -/

namespace Call

/-- Whether the call makes a registration. -/
def registers : Call → Bool
  | .addShape _ => false
  | .addProcedure _ => false
  | .addAssignment _ => false
  | _ => true

/-- The service type and the implementation type of a call that registers one for the other. -/
def pair? : Call → Option (TypeRef × TypeRef)
  | .addType _ service implementation => some (service, implementation)
  | .tryAddType _ service implementation => some (service, implementation)
  | .addKeyed _ service _ implementation => some (service, implementation)
  | _ => none

/-- Whether the call registers one type for another without a condition and without a key. -/
def isPlain : Call → Bool
  | .addType _ _ _ => true
  | _ => false

/-- The form that the call records. Only a plain call looks at the types to choose it. -/
def form (c : Call) (service implementation : TypeRef) : TypeForm :=
  if c.isPlain then Recorder.formFor service implementation else .genericArguments

/-- The registration is that of the pair, if the call has one. -/
def Made (c : Call) (r : Registration) : Prop :=
  ∀ service implementation, c.pair? = some (service, implementation) →
    r.service.ty = service ∧ r.implementation = .type implementation (c.form service implementation)

theorem made_of_no_pair {c : Call} {r : Registration} (h : c.pair? = none) : c.Made r := by
  intro service implementation hpair
  rw [h] at hpair
  cases hpair

theorem made_of_pair {c : Call} {r : Registration} {service implementation : TypeRef}
    (h : c.pair? = some (service, implementation)) (hservice : r.service.ty = service)
    (himplementation : r.implementation = .type implementation (c.form service implementation)) :
    c.Made r := by
  intro service' implementation' hpair
  obtain ⟨rfl, rfl⟩ := Prod.mk.inj (Option.some.inj (h.symm.trans hpair))
  exact ⟨hservice, himplementation⟩

end Call

namespace Recorder

/-- A call that registers adds one registration at the end. -/
theorem exists_made {c : Call} (r : Recorder) (h : c.registers = true) :
    ∃ made, (r.record c).facts.registrations = r.facts.registrations ++ [made] ∧ c.Made made := by
  cases c with
  | add _ _ _ => exact ⟨_, rfl, Call.made_of_no_pair rfl⟩
  | tryAdd _ _ _ => exact ⟨_, rfl, Call.made_of_no_pair rfl⟩
  | addType _ _ _ => exact ⟨_, rfl, Call.made_of_pair rfl rfl rfl⟩
  | tryAddType _ _ _ => exact ⟨_, rfl, Call.made_of_pair rfl rfl rfl⟩
  | addKeyed _ _ _ _ => exact ⟨_, rfl, Call.made_of_pair rfl rfl rfl⟩
  | addFactory _ _ _ => exact ⟨_, rfl, Call.made_of_no_pair rfl⟩
  | addOpaqueFactory _ _ => exact ⟨_, rfl, Call.made_of_no_pair rfl⟩
  | addInstance _ _ => exact ⟨_, rfl, Call.made_of_no_pair rfl⟩
  | addShape _ => cases h
  | addProcedure _ => cases h
  | addAssignment _ => cases h

theorem registrations_record_of_not_registers {c : Call} (r : Recorder)
    (h : c.registers = false) : (r.record c).facts.registrations = r.facts.registrations := by
  cases c with
  | addShape _ => rfl
  | addProcedure _ => rfl
  | addAssignment _ => rfl
  | _ => cases h

/-- One more call. -/
theorem forall₂_made_record {done : List Call} {r : Recorder}
    (h : List.Forall₂ Call.Made done r.facts.registrations) (c : Call) :
    List.Forall₂ Call.Made (done ++ [c].filter Call.registers)
      (r.record c).facts.registrations := by
  cases hc : c.registers with
  | true =>
    obtain ⟨made, hmade, hpair⟩ := r.exists_made hc
    rw [hmade, List.filter_cons_of_pos hc]
    exact List.rel_append h (.cons hpair .nil)
  | false =>
    rw [r.registrations_record_of_not_registers hc, List.filter_cons_of_neg (by simp [hc]),
      List.filter_nil, List.append_nil]
    exact h

/-- Any number of calls more. -/
theorem forall₂_made_recordAll {done : List Call} {r : Recorder}
    (h : List.Forall₂ Call.Made done r.facts.registrations) (calls : List Call) :
    List.Forall₂ Call.Made (done ++ calls.filter Call.registers)
      (r.recordAll calls).facts.registrations := by
  induction calls generalizing done r with
  | nil =>
    rw [List.filter_nil, List.append_nil]
    exact h
  | cons c calls ih =>
    have hrest := ih (forall₂_made_record h c)
    rwa [List.append_assoc, ← List.filter_append] at hrest

end Recorder

/-! ## Which pairs are reported -/

theorem Compatibility.isSome_finding?_iff {g : Graph} {n : Node} {ty : TypeRef} {form : TypeForm}
    (h : n.registration.implementation = .type ty form) :
    (finding? g n).isSome ↔ form = .runtimeTypes ∧
      ∃ shape args reason, g.shapeFor? ty = some (shape, args) ∧
        mismatch? n.service.ty ty shape args = some reason := by
  cases form with
  | genericArguments => simp [finding?, h]
  | runtimeTypes =>
    cases hshape : g.shapeFor? ty with
    | none => simp [finding?, h, hshape]
    | some found =>
      obtain ⟨shape, args⟩ := found
      simp [finding?, h, hshape, Option.isSome_iff_exists]

namespace Recorder

theorem formFor_eq_runtimeTypes_iff {service implementation : TypeRef} :
    formFor service implementation = .runtimeTypes ↔
      service.isOpen = true ∨ implementation.isOpen = true := by
  rw [formFor, ← Bool.or_eq_true]
  split <;> simp [*]

theorem formFor_eq_genericArguments_iff {service implementation : TypeRef} :
    formFor service implementation = .genericArguments ↔
      service.isOpen = false ∧ implementation.isOpen = false := by
  rw [formFor, ← Bool.or_eq_false_iff]
  split <;> simp [*]

/-- The form is that of type objects if a plain call names a generic definition, and otherwise it is
the other one. -/
theorem form_eq_runtimeTypes_iff {c : Call} {service implementation : TypeRef} :
    c.form service implementation = .runtimeTypes ↔
      c.isPlain = true ∧ (service.isOpen = true ∨ implementation.isOpen = true) := by
  unfold Call.form
  cases c.isPlain with
  | true => simp [formFor_eq_runtimeTypes_iff]
  | false => simp

theorem form_eq_formFor_iff {c : Call} {service implementation : TypeRef} :
    c.form service implementation = formFor service implementation ↔
      c.isPlain = true ∨ service.isOpen = false ∧ implementation.isOpen = false := by
  unfold Call.form
  cases c.isPlain with
  | true => simp
  | false =>
    rw [← formFor_eq_genericArguments_iff]
    simp [eq_comm]

/-- The pair of types that the call registers is recorded, and in the form that belongs to the types
if the call is plain or neither of them is a generic definition, but not otherwise. -/
def PairRecorded (c : Call) (r : Registration) : Prop :=
  ∀ service implementation, c.pair? = some (service, implementation) →
    r.service.ty = service ∧ ∃ form, r.implementation = .type implementation form ∧
      (form = .runtimeTypes ↔
        c.isPlain = true ∧ (service.isOpen = true ∨ implementation.isOpen = true)) ∧
      (form = formFor service implementation ↔
        c.isPlain = true ∨ service.isOpen = false ∧ implementation.isOpen = false)

theorem pairRecorded_of_made {c : Call} {r : Registration} (h : c.Made r) : PairRecorded c r := by
  intro service implementation hpair
  obtain ⟨hservice, himplementation⟩ := h service implementation hpair
  exact ⟨hservice, _, himplementation, form_eq_runtimeTypes_iff, form_eq_formFor_iff⟩

/-- For all sequences of calls: the registrations are those of the calls that register, in order,
and a pair of types has the form of type objects exactly if a plain call has recorded it and one of
the types is a generic definition. So the check reports a pair that is in force exactly if a plain
call has recorded it, one of the types is a generic definition, and the shape of the implementation
does not fit. Conditional calls and calls with a key are never reported. -/
theorem recordAll_pairs (file : String) (calls : List Call) :
    let facts := ((start file).recordAll calls).facts
    let g := Graph.build facts.registrations facts.shapes
    List.Forall₂ PairRecorded (calls.filter Call.registers) facts.registrations ∧
      Compatibility.check g false = .ok (g.nodes.filterMap (Compatibility.finding? g)) ∧
      ∀ n ∈ g.nodes, ∃ (k : Nat) (c : Call), (calls.filter Call.registers)[k]? = some c ∧
        facts.registrations[k]? = some n.registration ∧
        ∀ service implementation, c.pair? = some (service, implementation) →
          ((Compatibility.finding? g n).isSome ↔
            c.isPlain = true ∧ (service.isOpen = true ∨ implementation.isOpen = true) ∧
              ∃ shape args reason, g.shapeFor? implementation = some (shape, args) ∧
                Compatibility.mismatch? service implementation shape args = some reason) := by
  intro facts g
  have hstart : List.Forall₂ Call.Made [] (start file).facts.registrations := .nil
  have hmade : List.Forall₂ Call.Made (calls.filter Call.registers) facts.registrations :=
    forall₂_made_recordAll hstart calls
  refine ⟨hmade.imp (fun _ _ => pairRecorded_of_made), rfl, fun n hn => ?_⟩
  obtain ⟨-, hentries, hforce⟩ := Graph.mem_nodes_build _ _ hn
  have hmem : n.registration ∈ facts.registrations :=
    (mem_entriesOf.1 (hentries ▸ mem_of_inForce? hforce)).1
  obtain ⟨k, hk, hreg⟩ := List.mem_iff_getElem.1 hmem
  have hcalls : k < (calls.filter Call.registers).length := hmade.length_eq ▸ hk
  have hpairs := hmade.get hcalls hk
  rw [List.get_eq_getElem, List.get_eq_getElem, hreg] at hpairs
  refine ⟨k, _, List.getElem?_eq_getElem hcalls, List.getElem?_eq_some_iff.2 ⟨hk, hreg⟩,
    fun service implementation hpair => ?_⟩
  obtain ⟨rfl, himplementation⟩ := hpairs service implementation hpair
  rw [Compatibility.isSome_finding?_iff himplementation, form_eq_runtimeTypes_iff, and_assoc]
  rfl

/-- The facts of one call, where the shape of a repository is known that implements nothing. -/
def withShape (c : Call) : Facts :=
  ((start defaultFile).recordAll [c, .addShape (.ofDefinition "Repository" ["T"])]).facts

/-- What the check says of these facts. -/
def findingsFor (c : Call) : Except Error (List Diagnostic) :=
  Compatibility.check (Graph.build (withShape c).registrations (withShape c).shapes) false

theorem findingsFor_eq {c : Call} {r : Registration} {shapes : List TypeShape}
    (h : withShape c = ⟨[r], shapes, [], []⟩) :
    findingsFor c = Compatibility.check ⟨[⟨0, r, [r]⟩], shapes⟩ false := by
  rw [findingsFor, h, Graph.build_singleton]

/-- Two generic definitions in a conditional call are recorded as type arguments, which they cannot
be, and nothing is reported. The plain call for the same types is reported. -/
theorem conditional_pair_unchecked :
    let service : TypeRef := .generic "IRepository" 1
    let implementation : TypeRef := .generic "Repository" 1
    formFor service implementation = .runtimeTypes ∧
      (withShape (.tryAddType .scoped service implementation)).registrations.map
        Registration.implementation = [.type implementation .genericArguments] ∧
      findingsFor (.tryAddType .scoped service implementation) = .ok [] ∧
      ∃ d, findingsFor (.addType .scoped service implementation) = .ok [d] ∧
        d.rule = .implementationTypeMismatch := by
  intro service implementation
  refine ⟨rfl, rfl, ?_, ?_⟩
  · rw [findingsFor_eq rfl]
    rfl
  · rw [findingsFor_eq rfl]
    exact ⟨_, rfl, rfl⟩

/-- The same under a key. -/
theorem keyed_pair_unchecked :
    let service : TypeRef := .generic "IRepository" 1
    let implementation : TypeRef := .generic "Repository" 1
    (withShape (.addKeyed .scoped service "main" implementation)).registrations.map
        Registration.implementation = [.type implementation .genericArguments] ∧
      findingsFor (.addKeyed .scoped service "main" implementation) = .ok [] := by
  intro service implementation
  refine ⟨rfl, ?_⟩
  rw [findingsFor_eq rfl]
  rfl

end Recorder

end Wiring
