import Wiring.Proofs.Json.Scalars

/-!
# Documents in JSON text

The reader takes one token after another and keeps on a stack what is still open. When it comes to a
value in written text, it has the value when it comes to the end of it, with the stack as before.
Hence written text is read as the document that was written.

Result: `Document.read?_toPrettyJson`, for the documents in which data is written. Other documents
are not taken back: a number beyond 64 bits becomes a real number, and a scalar that cannot be held
has no text.
-/

namespace Wiring

/-- The documents in which data is written: names are text, and numbers are integers that fit 64
bits. -/
inductive Document.Regular : Document → Prop
  | null : Regular .null
  | bool (b : Bool) : Regular (.bool b)
  | nat {n : Nat} : n < UInt64.size → Regular (.nat n)
  | str (s : String) : Regular (.str s)
  | list {ds : List Document} : (∀ d ∈ ds, Regular d) → Regular (.list ds)
  | fields {fs : List (String × Document)} : (∀ f ∈ fs, Regular f.2) → Regular (.fields fs)

namespace Json

/-! ## One token after another -/

theorem run_of_token {cs rest : List Char} {t : Token} {st st' : State}
    (h : token? (skipBlanks cs) = some (t, rest)) (hstep : step st t = some st') :
    run st cs = run st' rest := by
  rw [run]
  split
  · next hnone => exact absurd (hnone.symm.trans h) (Option.some_ne_none _).symm
  · next t' rest' hsome =>
    obtain ⟨rfl, rfl⟩ := Prod.mk.inj (Option.some.inj (hsome.symm.trans h))
    rw [hstep]

theorem run_nil (st : State) : run st [] = some st := by
  rw [run]
  rfl

/-- A token at the very head. -/
theorem run_token {c : Char} {cs rest : List Char} {t : Token} {st st' : State}
    (hc : isBlank c = false) (h : token? (c :: cs) = some (t, rest))
    (hstep : step st t = some st') : run st (c :: cs) = run st' rest := by
  have hhead : skipBlanks (c :: cs) = c :: cs :=
    List.dropWhile_cons_of_neg (by rw [hc]; exact Bool.false_ne_true)
  exact run_of_token (hhead.symm ▸ h) hstep

theorem run_blank {c : Char} (hc : isBlank c) (st : State) (cs : List Char) :
    run st (c :: cs) = run st cs := by
  have hskip : skipBlanks (c :: cs) = skipBlanks cs := List.dropWhile_cons_of_pos hc
  rw [run, run, hskip]

theorem isBlank_of_isDigit {c : Char} (h : c.isDigit) : isBlank c = false := by
  have hne : ∀ d : Char, d.isDigit = false → (c == d) = false :=
    fun d hd => beq_false_of_ne (ne_of_isDigit h hd)
  simp [isBlank, hne ' ' rfl, hne '\n' rfl, hne '\t' rfl, hne '\r' rfl]

theorem run_newline (st : State) (level : Nat) (cs : List Char) :
    run st (newline level cs) = run st cs := by
  rw [newline, run_blank rfl]
  induction 2 * level with
  | zero => rfl
  | succ n ih => rw [List.replicate_succ, List.cons_append, run_blank rfl, ih]

/-! ## Values -/

/-- The states in which a value may come, with what is open around it. -/
inductive Expects : State → List Frame → Prop
  | value (stack : List Frame) : Expects (.value stack) stack
  | listStart (stack : List Frame) : Expects (.listStart stack) (.items [] :: stack)

theorem Expects.step {st : State} {stack : List Frame} (h : Expects st stack) {t : Token}
    (ht : t ≠ .closeList) : Json.step st t = startValue stack t := by
  cases h with
  | value => rfl
  | listStart =>
    cases t with
    | closeList => exact absurd rfl ht
    | openList | openRecord | closeRecord | colon | comma | text _ | atom _ => rfl

/-- Wherever a value may come, the document is read from its text. -/
def ReadBack (d : Document) : Prop :=
  ∀ {st : State} {stack : List Frame}, Expects st stack → ∀ (level : Nat) {rest : List Char},
    EndsNumber rest → run st (pretty level d rest) = run (.after d stack) rest

theorem endsNumber_nil : EndsNumber [] := by
  rintro _ ⟨⟩

theorem endsNumber_of_head {c : Char} {rest : List Char}
    (h : c.isDigit = false ∧ c ≠ '.' ∧ c ≠ 'e' ∧ c ≠ 'E') : EndsNumber (c :: rest) := by
  rintro _ ⟨⟩
  exact h

theorem endsNumber_newline (level : Nat) (rest : List Char) : EndsNumber (newline level rest) :=
  endsNumber_of_head (by decide)

theorem endsNumber_prettyItems (level : Nat) (ds : List Document) {rest : List Char}
    (h : EndsNumber rest) : EndsNumber (prettyItems level ds rest) := by
  cases ds with
  | nil => exact h
  | cons d ds => exact endsNumber_of_head (by decide)

theorem endsNumber_prettyFields (level : Nat) (fs : List (Scalar × Document)) {rest : List Char}
    (h : EndsNumber rest) : EndsNumber (prettyFields level fs rest) := by
  cases fs with
  | nil => exact h
  | cons f fs => exact endsNumber_of_head (by decide)

/-- The rest of a list, of which `done` and then `d` have been read. -/
theorem run_prettyItems {ds : List Document} (hds : ∀ d ∈ ds, ReadBack d) (level outer : Nat)
    (done : List Document) (d : Document) (stack : List Frame) (rest : List Char) :
    run (.after d (.items done :: stack)) (prettyItems level ds (newline outer (']' :: rest))) =
      run (.after (.list (done.reverse ++ d :: ds)) stack) rest := by
  induction ds generalizing done d with
  | nil =>
    have hclose : run (.after d (.items done :: stack)) (']' :: rest) =
        run (.after (.list (d :: done).reverse) stack) rest := run_token rfl rfl rfl
    rw [prettyItems, run_newline, hclose, List.reverse_cons]
  | cons e es ih =>
    have hcomma : ∀ cs, run (.after d (.items done :: stack)) (',' :: cs) =
        run (.value (.items (d :: done) :: stack)) cs := fun cs => run_token rfl rfl rfl
    have hends := endsNumber_prettyItems level es (endsNumber_newline outer (']' :: rest))
    rw [prettyItems, hcomma, run_newline, hds e List.mem_cons_self (.value _) level hends,
      ih (fun x hx => hds x (List.mem_cons_of_mem _ hx)), List.reverse_cons, List.append_assoc]
    rfl

/-- Fields under their names, as a record of data has them. -/
abbrev named (fs : List (String × Document)) : List (Scalar × Document) :=
  fs.map (fun f => (Scalar.str f.1, f.2))

theorem run_name {st : State} {done : List (Scalar × Document)} {stack : List Frame} {s : String}
    (h : step st (.text (.str s)) = some (.colon done (.str s) stack)) (cs : List Char) :
    run st (scalar (.str s) (':' :: ' ' :: cs)) =
      run (.value (.fields done (.str s) :: stack)) cs := by
  calc
    run st (quote s (':' :: ' ' :: cs)) = run (.colon done (.str s) stack) (':' :: ' ' :: cs) :=
      run_token rfl (token?_quote s _) h
    _ = run (.value (.fields done (.str s) :: stack)) (' ' :: cs) := run_token rfl rfl rfl
    _ = run (.value (.fields done (.str s) :: stack)) cs := run_blank rfl _ cs

/-- The rest of a record, of which `done` and then the value `d` of `k` have been read. -/
theorem run_prettyFields {fs : List (String × Document)} (hfs : ∀ f ∈ fs, ReadBack f.2)
    (level outer : Nat) (done : List (Scalar × Document)) (k : Scalar) (d : Document)
    (stack : List Frame) (rest : List Char) :
    run (.after d (.fields done k :: stack))
        (prettyFields level (named fs) (newline outer ('}' :: rest))) =
      run (.after (.record (done.reverse ++ (k, d) :: named fs)) stack) rest := by
  induction fs generalizing done k d with
  | nil =>
    have hclose : run (.after d (.fields done k :: stack)) ('}' :: rest) =
        run (.after (.record ((k, d) :: done).reverse) stack) rest := run_token rfl rfl rfl
    rw [named, List.map_nil, prettyFields, run_newline, hclose, List.reverse_cons]
  | cons f fs ih =>
    have hcomma : ∀ cs, run (.after d (.fields done k :: stack)) (',' :: cs) =
        run (.name ((k, d) :: done) stack) cs := fun cs => run_token rfl rfl rfl
    have hends := endsNumber_prettyFields level (named fs) (endsNumber_newline outer ('}' :: rest))
    rw [named, List.map_cons, prettyFields, hcomma, run_newline, run_name rfl,
      hfs f List.mem_cons_self (.value _) level hends,
      ih (fun x hx => hfs x (List.mem_cons_of_mem _ hx)), List.reverse_cons, List.append_assoc]
    rfl

theorem readBack_of_regular {d : Document} (hd : d.Regular) : ReadBack d := by
  induction hd with
  | null =>
    intro st stack h level rest _
    exact run_token rfl rfl (h.step nofun)
  | bool b =>
    intro st stack h level rest _
    cases b with
    | true => exact run_token rfl rfl (h.step nofun)
    | false => exact run_token rfl rfl (h.step nofun)
  | @nat n hn =>
    intro st stack h level rest hrest
    have htoken := token?_toString hn hrest
    obtain ⟨c, cs, hc, htext, -⟩ := exists_toList_toString n
    rw [htext] at htoken
    show run st ((toString n).toList ++ rest) = _
    rw [htext]
    exact run_token (isBlank_of_isDigit hc) htoken (h.step nofun)
  | str s =>
    intro st stack h level rest _
    exact run_token rfl (token?_quote s rest) (h.step nofun)
  | @list ds _ ih =>
    intro st stack h level rest _
    have hopen : ∀ cs, run st ('[' :: cs) = run (.listStart stack) cs :=
      fun cs => run_token rfl rfl (h.step nofun)
    cases ds with
    | nil =>
      rw [pretty, hopen]
      exact run_token rfl rfl rfl
    | cons d ds =>
      have hends := endsNumber_prettyItems (level + 1) ds (endsNumber_newline level (']' :: rest))
      rw [pretty, hopen, run_newline, ih d List.mem_cons_self (.listStart stack) (level + 1) hends,
        run_prettyItems (fun x hx => ih x (List.mem_cons_of_mem _ hx))]
      rfl
  | @fields fs _ ih =>
    intro st stack h level rest _
    have hopen : ∀ cs, run st ('{' :: cs) = run (.recordStart stack) cs :=
      fun cs => run_token rfl rfl (h.step nofun)
    cases fs with
    | nil =>
      rw [Document.fields, List.map_nil, pretty, hopen]
      exact run_token rfl rfl rfl
    | cons f fs =>
      have hends := endsNumber_prettyFields (level + 1) (named fs)
        (endsNumber_newline level ('}' :: rest))
      rw [Document.fields, List.map_cons, pretty, hopen, run_newline, run_name rfl,
        ih f List.mem_cons_self (.value _) (level + 1) hends,
        run_prettyFields (fun x hx => ih x (List.mem_cons_of_mem _ hx))]
      rfl

end Json

theorem Document.read?_toPrettyJson {d : Document} (h : d.Regular) :
    Json.read? d.toPrettyJson.toList = some d := by
  have hrun : Json.run (.value []) (Json.pretty 0 d []) = some (.after d []) := by
    rw [Json.readBack_of_regular h (.value []) 0 Json.endsNumber_nil, Json.run_nil]
  rw [toPrettyJson, String.toList_ofList, Json.read?, hrun]

end Wiring
