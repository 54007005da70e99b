import Mathlib.Logic.Basic
import Wiring.Load
import Wiring.Proofs.Format.Decoding

/-!
# Facts survive their text

Every kind of fact is held by its own document: type references with arguments in arguments,
services with and without a key, the three kinds of implementation with what is known of them and
what is not, and the five kinds of event. So the JSON text of facts is read as these facts, as long
as the text is nested no deeper than the reader goes.

* `TypeRef.holds_toDocument`: the recursion of type references, two levels of the document for each
  level of arguments;
* `Facts.holds_toDocument`: facts are held by their document;
* `Facts.ofText_toJson`: what the reader makes of the text of facts.
-/

namespace Wiring

/-! ## Types and services -/

namespace TypeRef

theorem toDocuments_eq_map (ts : List TypeRef) : toDocuments ts = ts.map toDocument := by
  induction ts with
  | nil => rw [toDocuments, List.map_nil]
  | cons t ts ih => rw [toDocuments, ih, List.map_cons]

/-- It is enough to look at the fields. Arguments are read as any list of type references is. -/
theorem holds_of_ofFields {v : String} {names : List String} {fs : List (String × Document)}
    {t : TypeRef} (hv : variants.lookup v = some names)
    (hnames : Decode.fits names (fs.map Prod.fst)) (htag : "kind" ∉ fs.map Prod.fst)
    (hregular : ∀ f ∈ fs, f.2.Regular)
    (hbuild : ∀ n args, (∀ ds, args n .held (.list ds) = Decode.list decode n .held (.list ds)) →
      ofFields args v ⟨n, .held, fs⟩ = if ∀ f ∈ fs, f.2.depth ≤ n then some t else none) :
    Holds decode (.fields (("kind", .str v) :: fs)) t := by
  refine holds_of_succ (.fields (List.forall_mem_cons.2 ⟨.str v, hregular⟩)) (Nat.succ_pos _)
    (fun _ => rfl) (fun n a => ?_)
  cases n with
  | zero =>
    rw [decode]
    exact Decode.tagged_fields_of_build hv hnames htag hregular
      (hbuild 0 (fun _ _ _ => none) (fun _ => rfl)) a
  | succ n =>
    rw [decode]
    exact Decode.tagged_fields_of_build hv hnames htag hregular
      (hbuild (n + 1) (fun _ => Decode.list (fun _ => decode n) 1) (fun _ => rfl)) a

mutual
theorem holds_toDocument : ∀ t : TypeRef, Holds decode t.toDocument t
  | .closed name [] => by
    have hname := holds_text name
    rw [toDocument]
    refine holds_of_ofFields rfl rfl (by simp) ?_ (fun n args _ => ?_)
    · simp [hname.regular]
    · simp [ofFields, hname.decode_eq]
  | .closed name (t :: ts) => by
    have hname := holds_text name
    have hlist : Holds (Decode.list decode) (.list (toDocument t :: toDocuments ts)) (t :: ts) := by
      rw [toDocuments_eq_map, ← List.map_cons]
      exact holds_list (holds_each (t :: ts))
    rw [toDocument]
    refine holds_of_ofFields rfl rfl (by simp) ?_ (fun n args hargs => ?_)
    · simp [hname.regular, hlist.regular]
    · simp [ofFields, hname.decode_eq, hargs, hlist.decode_eq]
  | .generic name arity => by
    have hname := holds_text name
    have harity := holds_u64 arity
    rw [toDocument]
    refine holds_of_ofFields rfl rfl (by simp) ?_ (fun n args _ => ?_)
    · simp [hname.regular, harity.regular]
    · simp [ofFields, hname.decode_eq, harity.decode_eq]
  | .param name => by
    have hname := holds_text name
    rw [toDocument]
    refine holds_of_ofFields rfl rfl (by simp) ?_ (fun n args _ => ?_)
    · simp [hname.regular]
    · simp [ofFields, hname.decode_eq]

theorem holds_each : ∀ ts : List TypeRef, ∀ t ∈ ts, Holds decode t.toDocument t
  | [], _, h => absurd h List.not_mem_nil
  | t :: ts, u, h => by
    rcases List.mem_cons.1 h with heq | h
    · exact heq ▸ holds_toDocument t
    · exact holds_each ts u h
end

theorem isNull_toDocument (t : TypeRef) : Decode.isNull t.toDocument = false := by
  cases t with
  | closed name args => cases args <;> rw [toDocument] <;> rfl
  | generic name arity => rw [toDocument]; rfl
  | param name => rw [toDocument]; rfl

end TypeRef

theorem ServiceIdentity.holds_toDocument (s : ServiceIdentity) : Holds decode s.toDocument s := by
  obtain ⟨ty, key⟩ := s
  have hty := ty.holds_toDocument
  cases key with
  | none =>
    refine holds_record rfl ?_ (fun n a => ?_)
    · simp [hty.regular]
    · simp [hty.decode_eq]
  | some key =>
    have hkey := (holds_text key).some rfl
    refine holds_record rfl ?_ (fun n a => ?_)
    · simp [hty.regular, hkey.regular]
    · simp [hty.decode_eq, hkey.decode_eq]

theorem Dependency.holds_toDocument (d : Dependency) : Holds decode d.toDocument d := by
  have hrequired := d.required.holds_toDocument
  have henumerable := holds_bool d.isEnumerable
  have hoptional := holds_bool d.isOptional
  refine holds_record rfl ?_ (fun n a => ?_)
  · simp [hrequired.regular, henumerable.regular, hoptional.regular]
  · simp [hrequired.decode_eq, henumerable.decode_eq, hoptional.decode_eq]

theorem TypeShape.holds_toDocument (s : TypeShape) : Holds decode s.toDocument s := by
  have hidentity := s.identity.holds_toDocument
  have hparams := holds_list (fun p (_ : p ∈ s.typeParams) => holds_text p)
  have hcapabilities := holds_list (fun t (_ : t ∈ s.capabilities) => t.holds_toDocument)
  rw [← TypeRef.toDocuments_eq_map] at hcapabilities
  have hdependencies := holds_list (fun d (_ : d ∈ s.dependencies) => d.holds_toDocument)
  have hdisposable := holds_bool s.isDisposable
  have hasync := holds_bool s.isAsyncDisposable
  refine holds_record rfl ?_ (fun n a => ?_)
  · simp [hidentity.regular, hparams.regular, hcapabilities.regular, hdependencies.regular,
      hdisposable.regular, hasync.regular]
  · simp [hidentity.decode_eq, hparams.decode_eq, hcapabilities.decode_eq,
      hdependencies.decode_eq, hdisposable.decode_eq, hasync.decode_eq, ite_and]

/-! ## Registrations -/

theorem Lifetime.holds_word (l : Lifetime) : Holds decode (.str l.word) l :=
  Wiring.holds_word (by cases l <;> rfl)

theorem TypeForm.holds_word (f : TypeForm) : Holds decode (.str f.word) f :=
  Wiring.holds_word (by cases f <;> rfl)

theorem Implementation.holds_toDocument (i : Implementation) : Holds decode i.toDocument i := by
  cases i with
  | type ty form =>
    have hty := ty.holds_toDocument
    have hform := form.holds_word
    refine holds_tagged rfl rfl (by simp) ?_ (fun n => ?_)
    · simp [hty.regular, hform.regular]
    · simp [hty.decode_eq, hform.decode_eq]
  | factory calls =>
    -- A factory that cannot be looked into is not one that asks for nothing.
    cases calls with
    | none =>
      have hcalls := holds_none (Decode.list Dependency.decode)
      refine holds_tagged rfl rfl (by simp) ?_ (fun n => ?_)
      · simp [hcalls.regular]
      · simp [hcalls.decode_eq]
    | some calls =>
      have hcalls := (holds_list (fun d (_ : d ∈ calls) => d.holds_toDocument)).some rfl
      refine holds_tagged rfl rfl (by simp) ?_ (fun n => ?_)
      · simp [hcalls.regular]
      · simp [hcalls.decode_eq]
  | ready ty =>
    cases ty with
    | none =>
      have hty := holds_none TypeRef.decode
      refine holds_tagged rfl rfl (by simp) ?_ (fun n => ?_)
      · simp [hty.regular]
      · simp [hty.decode_eq]
    | some ty =>
      have hty := ty.holds_toDocument.some ty.isNull_toDocument
      refine holds_tagged rfl rfl (by simp) ?_ (fun n => ?_)
      · simp [hty.regular]
      · simp [hty.decode_eq]

theorem Location.holds_toDocument (l : Location) : Holds decode l.toDocument l := by
  have hfile := holds_text l.file
  have hline := holds_u32 l.line
  have hcolumn := holds_u32 l.column
  refine holds_record rfl ?_ (fun n a => ?_)
  · simp [hfile.regular, hline.regular, hcolumn.regular]
  · simp [hfile.decode_eq, hline.decode_eq, hcolumn.decode_eq]

theorem Registration.holds_toDocument (r : Registration) : Holds decode r.toDocument r := by
  have hservice := r.service.holds_toDocument
  have himplementation := r.implementation.holds_toDocument
  have hlifetime := r.lifetime.holds_word
  have hlocation := r.location.holds_toDocument
  have hindex := holds_u64 r.insertionIndex
  have hconditional := holds_bool r.isConditional
  refine holds_record rfl ?_ (fun n a => ?_)
  · simp [hservice.regular, himplementation.regular, hlifetime.regular, hlocation.regular,
      hindex.regular, hconditional.regular]
  · simp [hservice.decode_eq, himplementation.decode_eq, hlifetime.decode_eq,
      hlocation.decode_eq, hindex.decode_eq, hconditional.decode_eq, ite_and]

/-! ## Traces and assignments -/

theorem HandleKind.holds_word (k : HandleKind) : Holds decode (.str k.word) k :=
  Wiring.holds_word (by cases k <;> rfl)

theorem Acquisition.holds_word (a : Acquisition) : Holds decode (.str a.word) a :=
  Wiring.holds_word (by cases a <;> rfl)

theorem EscapeSink.holds_word (s : EscapeSink) : Holds decode (.str s.word) s :=
  Wiring.holds_word (by cases s <;> rfl)

theorem Event.holds_toDocument (e : Event) : Holds decode e.toDocument e := by
  cases e with
  | create handle kind isAsync acquisition location =>
    have hhandle := holds_text handle
    have hkind := kind.holds_word
    have hasync := holds_bool isAsync
    have hacquisition := acquisition.holds_word
    have hlocation := location.holds_toDocument
    refine holds_tagged rfl rfl (by simp) ?_ (fun n => ?_)
    · simp [hhandle.regular, hkind.regular, hasync.regular, hacquisition.regular,
        hlocation.regular]
    · simp [hhandle.decode_eq, hkind.decode_eq, hasync.decode_eq, hacquisition.decode_eq,
        hlocation.decode_eq]
  | dispose handle location =>
    have hhandle := holds_text handle
    have hlocation := location.holds_toDocument
    refine holds_tagged rfl rfl (by simp) ?_ (fun n => ?_)
    · simp [hhandle.regular, hlocation.regular]
    · simp [hhandle.decode_eq, hlocation.decode_eq]
  | resolve handle result location =>
    have hhandle := holds_text handle
    have hresult := holds_text result
    have hlocation := location.holds_toDocument
    refine holds_tagged rfl rfl (by simp) ?_ (fun n => ?_)
    · simp [hhandle.regular, hresult.regular, hlocation.regular]
    · simp [hhandle.decode_eq, hresult.decode_eq, hlocation.decode_eq]
  | escape value sink location =>
    have hvalue := holds_text value
    have hsink := sink.holds_word
    have hlocation := location.holds_toDocument
    refine holds_tagged rfl rfl (by simp) ?_ (fun n => ?_)
    · simp [hvalue.regular, hsink.regular, hlocation.regular]
    · simp [hvalue.decode_eq, hsink.decode_eq, hlocation.decode_eq]
  | use value location =>
    have hvalue := holds_text value
    have hlocation := location.holds_toDocument
    refine holds_tagged rfl rfl (by simp) ?_ (fun n => ?_)
    · simp [hvalue.regular, hlocation.regular]
    · simp [hvalue.decode_eq, hlocation.decode_eq]

theorem Block.holds_toDocument (b : Block) : Holds decode b.toDocument b := by
  have hevents := holds_list (fun e (_ : e ∈ b.events) => e.holds_toDocument)
  have hsuccessors := holds_list (fun s (_ : s ∈ b.successors) => holds_u64 s)
  refine holds_record rfl ?_ (fun n a => ?_)
  · simp [hevents.regular, hsuccessors.regular]
  · simp [hevents.decode_eq, hsuccessors.decode_eq, ite_and]

theorem Procedure.holds_toDocument (p : Procedure) : Holds decode p.toDocument p := by
  have hname := holds_text p.name
  have hasync := holds_bool p.isAsync
  have hblocks := holds_list (fun b (_ : b ∈ p.blocks) => b.holds_toDocument)
  refine holds_record rfl ?_ (fun n a => ?_)
  · simp [hname.regular, hasync.regular, hblocks.regular]
  · simp [hname.decode_eq, hasync.decode_eq, hblocks.decode_eq]

theorem Storage.holds_word (s : Storage) : Holds decode (.str s.word) s :=
  Wiring.holds_word (by cases s <;> rfl)

theorem ValueKind.holds_word (k : ValueKind) : Holds decode (.str k.word) k :=
  Wiring.holds_word (by cases k <;> rfl)

theorem StaticAssignment.holds_toDocument (s : StaticAssignment) :
    Holds decode s.toDocument s := by
  have hmember := holds_text s.member
  have hstorage := s.storage.holds_word
  have hkind := s.valueKind.holds_word
  have hlocation := s.location.holds_toDocument
  refine holds_record rfl ?_ (fun n a => ?_)
  · simp [hmember.regular, hstorage.regular, hkind.regular, hlocation.regular]
  · simp [hmember.decode_eq, hstorage.decode_eq, hkind.decode_eq, hlocation.decode_eq]

/-! ## Facts -/

namespace Facts

theorem holds_toDocument (f : Facts) : Holds decode f.toDocument f := by
  have hregistrations := holds_list (fun r (_ : r ∈ f.registrations) => r.holds_toDocument)
  have hshapes := holds_list (fun s (_ : s ∈ f.shapes) => s.holds_toDocument)
  have hprocedures := holds_list (fun p (_ : p ∈ f.procedures) => p.holds_toDocument)
  have hassignments := holds_list (fun s (_ : s ∈ f.assignments) => s.holds_toDocument)
  refine holds_record rfl ?_ (fun n a => ?_)
  · simp [hregistrations.regular, hshapes.regular, hprocedures.regular, hassignments.regular]
  · simp [hregistrations.decode_eq, hshapes.decode_eq, hprocedures.decode_eq,
      hassignments.decode_eq, ite_and]

/-- The text of facts is read as these facts if it is nested no deeper than text may be, and is
refused otherwise. Nothing else about the facts matters: neither what their names and messages
contain, nor how deep arguments are nested, nor what is left out. -/
theorem ofText_toJson (f : Facts) :
    Facts.ofText .json f.toJson =
      if f.toDocument.depth ≤ Json.maxDepth then .ok f else .error .malformedFacts := by
  have hread : TextFormat.json.read? f.toJson = some f.toDocument :=
    Document.read?_toPrettyJson f.holds_toDocument.regular
  have hdecode : TextFormat.json.decode? decode f.toDocument =
      if f.toDocument.depth ≤ Json.maxDepth then some f else none :=
    f.holds_toDocument.decode_eq Json.maxDepth .json
  rw [ofText, hread]
  show ofDocument .json f.toDocument = _
  rw [ofDocument, hdecode]
  by_cases h : f.toDocument.depth ≤ Json.maxDepth
  · rw [if_pos h, if_pos h]
  · rw [if_neg h, if_neg h]

end Facts

end Wiring
