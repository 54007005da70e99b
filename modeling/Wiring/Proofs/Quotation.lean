import Wiring.Snapshot.Drawing

/-!
# Quotes in DOT text

The names and keys of services may hold any character, and DOT text has them between quotes. Who
reads such text takes a backslash together with the character after it, and takes the first quote
that is left as the end. This module defines that reader, for a text in quotes (`Dot.read`) and for
a document (`Dot.quotations?`), and shows that it finds the texts that were put in quotes: no
service can end its own label, or keep it from ending.

Documents are put together from parts, and so are the proofs: what a reader makes of a part does not
depend on what follows.

Results:
1. `Dot.read_append`, `Dot.read_eq_closed_iff`: the parts of a text in quotes, and where it ends.
2. `Dot.reads_escape`: an escaped text is read to its end, as the text that was escaped.
3. `Dot.quotations?_append`: the parts of a document.
4. `Snapshot.quotes_toDot`: the texts in quotes of a whole drawing.
5. `Dot.labels_closed`: every label ends at the quote that is written after it.
-/

namespace Wiring

namespace Dot

/-! ## Reading in quotes -/

/-- Where the reading of a text in quotes ends. -/
inductive Ending where
  /-- At the end of the characters. -/
  | complete
  /-- At the end of the characters, inside an escape. -/
  | cut
  /-- At a quote that is not escaped; the rest is not read. -/
  | closed (rest : List Char)
deriving DecidableEq, Repr

/-- The text that is read, and where that ends. -/
structure Reading where
  text : List Char
  ending : Ending
deriving DecidableEq, Repr

/-- The reading of what follows a text that has been read. -/
def Reading.after (r : Reading) (before : List Char) : Reading :=
  ⟨before ++ r.text, r.ending⟩

/-- Reads characters from the left to the right. A backslash takes the next one as it is. -/
def read : List Char → Reading
  | [] => ⟨[], .complete⟩
  | c :: cs =>
    if c = '"' then ⟨[], .closed cs⟩
    else if c = '\\' then
      match cs with
      | [] => ⟨[], .cut⟩
      | taken :: cs => (read cs).after [taken]
    else (read cs).after [c]

theorem Reading.after_after (r : Reading) (a b : List Char) :
    (r.after b).after a = r.after (a ++ b) := by
  simp [after]

theorem Reading.after_eq_iff {r : Reading} {a t : List Char} {e : Ending} :
    r.after a = ⟨t, e⟩ ↔ ∃ u, r = ⟨u, e⟩ ∧ t = a ++ u := by
  constructor
  · rintro ⟨⟩
    exact ⟨r.text, rfl, rfl⟩
  · rintro ⟨u, rfl, rfl⟩
    rfl

theorem read_quote (cs : List Char) : read ('"' :: cs) = ⟨[], .closed cs⟩ := by
  rw [read.eq_def]
  rfl

theorem read_slash (c : Char) (cs : List Char) : read ('\\' :: c :: cs) = (read cs).after [c] := by
  rw [read.eq_def]
  rfl

theorem read_plain {c : Char} (hquote : c ≠ '"') (hslash : c ≠ '\\') (cs : List Char) :
    read (c :: cs) = (read cs).after [c] := by
  rw [read.eq_def]
  simp only [if_neg hquote, if_neg hslash]

/-- What is read to its end is read so whatever follows. -/
theorem read_append {a t : List Char} (h : read a = ⟨t, .complete⟩) (b : List Char) :
    read (a ++ b) = (read b).after t := by
  induction a using read.induct generalizing t with
  | case1 =>
    cases h
    rfl
  | case2 cs =>
    rw [read_quote] at h
    cases h
  | case3 => cases h
  | case4 c cs _ ih =>
    rw [read_slash] at h
    obtain ⟨u, hu, rfl⟩ := Reading.after_eq_iff.1 h
    rw [List.cons_append, List.cons_append, read_slash, ih hu, Reading.after_after]
  | case5 c cs hquote hslash ih =>
    rw [read_plain hquote hslash] at h
    obtain ⟨u, hu, rfl⟩ := Reading.after_eq_iff.1 h
    rw [List.cons_append, read_plain hquote hslash, ih hu, Reading.after_after]

/-- A text in quotes ends at the first quote before which everything is read to its end. -/
theorem read_eq_closed_iff {cs t rest : List Char} :
    read cs = ⟨t, .closed rest⟩ ↔ ∃ a, cs = a ++ '"' :: rest ∧ read a = ⟨t, .complete⟩ := by
  constructor
  · intro h
    induction cs using read.induct generalizing t with
    | case1 => cases h
    | case2 cs =>
      rw [read_quote] at h
      cases h
      exact ⟨[], rfl, rfl⟩
    | case3 => cases h
    | case4 c cs _ ih =>
      rw [read_slash] at h
      obtain ⟨u, hu, rfl⟩ := Reading.after_eq_iff.1 h
      obtain ⟨a, rfl, ha⟩ := ih hu
      exact ⟨'\\' :: c :: a, rfl, by rw [read_slash, ha]; rfl⟩
    | case5 c cs hquote hslash ih =>
      rw [read_plain hquote hslash] at h
      obtain ⟨u, hu, rfl⟩ := Reading.after_eq_iff.1 h
      obtain ⟨a, rfl, ha⟩ := ih hu
      exact ⟨c :: a, rfl, by rw [read_plain hquote hslash, ha]; rfl⟩
  · rintro ⟨a, rfl, ha⟩
    rw [read_append ha, read_quote]
    simp [Reading.after]

/-! ## Texts that are written to be read -/

/-- The first text, in quotes, is read as the second. -/
def Reads (written text : String) : Prop :=
  read written.toList = ⟨text.toList, .complete⟩

/-- A text without quotes and backslashes. -/
def Plain (s : String) : Prop :=
  ∀ c ∈ s.toList, c ≠ '"' ∧ c ≠ '\\'

instance : DecidablePred Plain :=
  fun s => List.decidableBAll (fun c => c ≠ '"' ∧ c ≠ '\\') s.toList

theorem Plain.append {a b : String} (ha : Plain a) (hb : Plain b) : Plain (a ++ b) := by
  intro c hc
  rw [String.toList_append] at hc
  exact (List.mem_append.1 hc).elim (ha c) (hb c)

theorem Reads.append {a b s t : String} (ha : Reads a s) (hb : Reads b t) :
    Reads (a ++ b) (s ++ t) := by
  unfold Reads at *
  rw [String.toList_append, String.toList_append, read_append ha, hb]
  rfl

theorem read_of_forall_plain {cs : List Char} (h : ∀ c ∈ cs, c ≠ '"' ∧ c ≠ '\\') :
    read cs = ⟨cs, .complete⟩ := by
  induction cs with
  | nil => rfl
  | cons c cs ih =>
    obtain ⟨hquote, hslash⟩ := h c List.mem_cons_self
    rw [read_plain hquote hslash, ih (fun d hd => h d (List.mem_cons_of_mem c hd))]
    rfl

theorem Plain.reads {s : String} (h : Plain s) : Reads s s :=
  read_of_forall_plain h

/-- What the two passes of `escape` make of a character. -/
def escaped (c : Char) : List Char :=
  if c = '"' ∨ c = '\\' then ['\\', c] else [c]

/-- The second pass goes over what the first has put in the place of each character. -/
theorem toList_escape (s : String) : (escape s).toList = s.toList.flatMap escaped := by
  rw [escape, Text.toList_replace, Text.toList_replace, List.flatMap_assoc]
  refine congrArg (s.toList.flatMap ·) (funext fun c => ?_)
  by_cases hslash : c = '\\'
  · subst hslash
    rfl
  · by_cases hquote : c = '"'
    · subst hquote
      rfl
    · simp [escaped, hslash, hquote]

theorem read_escaped (c : Char) (cs : List Char) :
    read (escaped c ++ cs) = (read cs).after [c] := by
  unfold escaped
  split
  · exact read_slash c cs
  · next h =>
    obtain ⟨hquote, hslash⟩ := not_or.1 h
    exact read_plain hquote hslash cs

theorem read_flatMap_escaped (cs : List Char) : read (cs.flatMap escaped) = ⟨cs, .complete⟩ := by
  induction cs with
  | nil => rfl
  | cons c cs ih =>
    rw [List.flatMap_cons, read_escaped, ih]
    rfl

theorem reads_escape (s : String) : Reads (escape s) s := by
  rw [Reads, toList_escape, read_flatMap_escaped]

-- In the other order the backslash before a quote would be doubled, and the quote would close.
example : read (Text.replace (Text.replace "\"" '"' "\\\"") '\\' "\\\\").toList =
    ⟨['\\'], .closed []⟩ := by
  decide

/-- What is written is read as one text only. -/
theorem Reads.unique {a s t : String} (hs : Reads a s) (ht : Reads a t) : s = t := by
  have hreading : (⟨s.toList, .complete⟩ : Reading) = ⟨t.toList, .complete⟩ := hs.symm.trans ht
  exact String.toList_injective (congrArg Reading.text hreading)

/-! ## Reading a document -/

/-- What follows a text in quotes is shorter than what stands from its first quote on. -/
theorem length_lt_of_read_eq_closed {cs t rest : List Char} (h : read cs = ⟨t, .closed rest⟩) :
    rest.length < cs.length := by
  obtain ⟨a, rfl, -⟩ := read_eq_closed_iff.1 h
  rw [List.length_append, List.length_cons]
  omega

/-- The texts in quotes of a document, from the left to the right, if every quote is closed. -/
def quotations? : List Char → Option (List String)
  | [] => some []
  | c :: cs =>
    if c = '"' then
      match _h : read cs with
      | ⟨text, .closed rest⟩ => (quotations? rest).map (String.ofList text :: ·)
      | _ => none
    else quotations? cs
termination_by cs => cs.length
decreasing_by
  · exact Nat.lt_succ_of_lt (length_lt_of_read_eq_closed ‹_›)
  · exact Nat.lt_succ_self _

theorem quotations?_nil : quotations? [] = some [] := by
  rw [quotations?]

theorem quotations?_plain {c : Char} (h : c ≠ '"') (cs : List Char) :
    quotations? (c :: cs) = quotations? cs := by
  rw [quotations?, if_neg h]

theorem quotations?_quote {cs t rest : List Char} (h : read cs = ⟨t, .closed rest⟩) :
    quotations? ('"' :: cs) = (quotations? rest).map (String.ofList t :: ·) := by
  rw [quotations?, if_pos rfl]
  split
  · next hread =>
    cases h.symm.trans hread
    rfl
  · next hnone => exact absurd h (hnone t rest)

/-- A document whose quotes are closed is read so whatever follows. -/
theorem quotations?_append {a : List Char} {ts : List String} (h : quotations? a = some ts)
    (b : List Char) : quotations? (a ++ b) = (quotations? b).map (ts ++ ·) := by
  induction a using quotations?.induct generalizing ts with
  | case1 =>
    cases quotations?_nil.symm.trans h
    simp
  | case2 cs t rest hread ih =>
    rw [quotations?_quote hread] at h
    obtain ⟨us, hus, rfl⟩ := Option.map_eq_some_iff.1 h
    -- the text is closed in the first document, and so it is closed there in the longer one
    obtain ⟨a, rfl, ha⟩ := read_eq_closed_iff.1 hread
    have hlonger : read (a ++ '"' :: rest ++ b) = ⟨t, .closed (rest ++ b)⟩ :=
      read_eq_closed_iff.2 ⟨a, by simp, ha⟩
    rw [List.cons_append, quotations?_quote hlonger, ih hus, Option.map_map]
    rfl
  | case3 cs hopen =>
    rw [quotations?, if_pos rfl] at h
    split at h
    · next hread => exact absurd hread (hopen _ _)
    · cases h
  | case4 c cs hc ih =>
    rw [quotations?_plain hc] at h
    rw [List.cons_append, quotations?_plain hc, ih h]

/-- The document has these texts in quotes and every quote in it is closed. -/
def Quotes (document : String) (texts : List String) : Prop :=
  quotations? document.toList = some texts

namespace Quotes

theorem append {a b : String} {ts us : List String} (ha : Quotes a ts) (hb : Quotes b us) :
    Quotes (a ++ b) (ts ++ us) := by
  unfold Quotes at *
  rw [String.toList_append, quotations?_append ha, hb]
  rfl

/-- What is written for each member of a list has the texts of each. -/
theorem join {α : Type} {written : α → String} {texts : α → List String} {xs : List α}
    (h : ∀ x ∈ xs, Quotes (written x) (texts x)) :
    Quotes (String.join (xs.map written)) (xs.flatMap texts) := by
  induction xs with
  | nil => exact quotations?_nil
  | cons x xs ih =>
    rw [List.map_cons, String.join_cons, List.flatMap_cons]
    exact append (h x List.mem_cons_self) (ih (fun y hy => h y (List.mem_cons_of_mem x hy)))

end Quotes

theorem quotations?_of_forall_plain {cs : List Char} (h : ∀ c ∈ cs, c ≠ '"') :
    quotations? cs = some [] := by
  induction cs with
  | nil => exact quotations?_nil
  | cons c cs ih =>
    rw [quotations?_plain (h c List.mem_cons_self)]
    exact ih (fun d hd => h d (List.mem_cons_of_mem c hd))

theorem Plain.quotes {s : String} (h : Plain s) : Quotes s [] :=
  quotations?_of_forall_plain (fun c hc => (h c hc).1)

theorem Reads.quotes {written text : String} (h : Reads written text) :
    Quotes (quote written) [text] := by
  have hlist : (quote written).toList = '"' :: (written.toList ++ '"' :: []) := by
    rw [quote, String.toList_append, String.toList_append]
    rfl
  have hread : read (written.toList ++ '"' :: []) = ⟨text.toList, .closed []⟩ :=
    read_eq_closed_iff.2 ⟨written.toList, rfl, h⟩
  rw [Quotes, hlist, quotations?_quote hread, quotations?_nil, String.ofList_toList]
  rfl

/-! ## Statements -/

/-- What a label is read as. The backslash of its line break takes the letter after it. -/
def caption (n : SnapshotNode) : String :=
  n.service ++ "n(" ++ n.lifetime ++ ")"

/-- The texts in quotes of the statement of a node. -/
def nodeTexts (n : SnapshotNode) : List String :=
  [n.id, caption n]

/-- The texts in quotes of the statement of an edge. -/
def edgeTexts (e : SnapshotEdge) : List String :=
  [e.source, e.target]

theorem reads_label (n : SnapshotNode) (h : Plain n.lifetime) : Reads (label n) (caption n) := by
  have hbreak : Reads "\\n(" "n(" := rfl
  have hend : Reads ")" ")" := rfl
  exact (((reads_escape n.service).append hbreak).append h.reads).append hend

theorem plain_color (lifetime : String) : Plain (color lifetime) := by
  unfold color
  split <;> decide

theorem plain_style (d : Demand) : Plain (style d) := by
  cases d <;> decide

theorem plain_attributes (n : SnapshotNode) : Plain (attributes n) := by
  have hbefore : Plain (", shape=" ++ (if n.isOpenGeneric then "ellipse" else "box") ++
      ", fillcolor=") := by
    split <;> decide
  have hend : Plain ", style=filled];\n" := by decide
  exact (hbefore.append (plain_color n.lifetime)).append hend

theorem quotes_opening {n : SnapshotNode} (h : Plain n.id) : Quotes (opening n) [n.id] := by
  have hindent : Plain "  " := by decide
  have hname : Plain " [label=" := by decide
  exact (hindent.quotes.append h.reads.quotes).append hname.quotes

theorem quotes_node {n : SnapshotNode} (hid : Plain n.id) (hlifetime : Plain n.lifetime) :
    Quotes (node n) (nodeTexts n) :=
  ((quotes_opening hid).append (reads_label n hlifetime).quotes).append (plain_attributes n).quotes

theorem quotes_edge {e : SnapshotEdge} (hsource : Plain e.source) (htarget : Plain e.target) :
    Quotes (edge e) (edgeTexts e) := by
  have hindent : Plain "  " := by decide
  have harrow : Plain " -> " := by decide
  have hname : Plain " [style=" := by decide
  have hend : Plain "];\n" := by decide
  have hends := ((hindent.quotes.append hsource.reads.quotes).append harrow.quotes).append
    htarget.reads.quotes
  exact ((hends.append hname.quotes).append (plain_style e.demand).quotes).append hend.quotes

/-- The statement of a node stands in a document after those of earlier nodes, and its label ends at
the quote that the statement has after it. -/
def ClosesLabel (document : String) (earlier : List SnapshotNode) (n : SnapshotNode) : Prop :=
  ∃ before after : String,
    document = before ++ node n ++ after ∧
    node n = opening n ++ "\"" ++ label n ++ "\"" ++ attributes n ∧
    -- no quote is open where the label begins
    quotations? (before ++ opening n).toList = some (earlier.flatMap nodeTexts ++ [n.id]) ∧
    -- from there on, the first quote that is not escaped is the one before the attributes
    read (label n ++ "\"" ++ (attributes n ++ after)).toList =
      ⟨(caption n).toList, .closed (attributes n ++ after).toList⟩

theorem node_eq (n : SnapshotNode) :
    node n = opening n ++ "\"" ++ label n ++ "\"" ++ attributes n := by
  simp only [node, quote, String.append_assoc]

theorem Reads.closed {written text : String} (h : Reads written text) (rest : String) :
    read (written ++ "\"" ++ rest).toList = ⟨text.toList, .closed rest.toList⟩ := by
  refine read_eq_closed_iff.2 ⟨written.toList, ?_, h⟩
  rw [String.toList_append, String.toList_append, List.append_assoc]
  rfl

end Dot

open Dot

/-! ## Drawings -/

namespace Snapshot

/-- The services apart, the texts of a drawing need no escapes. -/
structure PlainNames (s : Snapshot) : Prop where
  node : ∀ n ∈ s.nodes, Plain n.id ∧ Plain n.lifetime
  edge : ∀ e ∈ s.edges, Plain e.source ∧ Plain e.target

theorem plain_nodeId (n : Node) : Plain (nodeId n) := by
  have hword : Plain "service_" := by decide
  refine hword.append (fun c hc => ?_)
  rw [Nat.toString_eq_repr, Nat.toList_repr] at hc
  have hdigit : c.isDigit = true := Nat.isDigit_of_mem_toDigits (by decide) (by decide) hc
  constructor
  · rintro rfl
    cases hdigit
  · rintro rfl
    cases hdigit

theorem plain_text (l : Lifetime) : Plain l.text := by
  cases l <;> decide

theorem plainNames_snapshot (g : Graph) : g.snapshot.PlainNames where
  node n hn := by
    obtain ⟨m, -, rfl⟩ := List.mem_map.1 hn
    exact ⟨plain_nodeId m, plain_text m.lifetime⟩
  edge e he := by
    obtain ⟨d, -, rfl⟩ := List.mem_map.1 he
    exact ⟨plain_nodeId d.source, plain_nodeId d.target⟩

section Plain

variable {s : Snapshot} (hplain : s.PlainNames)

include hplain

theorem quotes_nodes {ns : List SnapshotNode} (hsubset : ns ⊆ s.nodes) :
    Quotes (header ++ String.join (ns.map Dot.node)) (ns.flatMap nodeTexts) := by
  have hheader : Plain header := by decide
  refine hheader.quotes.append (.join (fun n hn => ?_))
  obtain ⟨hid, hlifetime⟩ := hplain.node n (hsubset hn)
  exact quotes_node hid hlifetime

/-- The texts in quotes of a drawing are the ids and the captions, and nothing else. -/
theorem quotes_toDot : Quotes s.toDot (s.nodes.flatMap nodeTexts ++ s.edges.flatMap edgeTexts) := by
  have hline : Plain "\n" := by decide
  have hend : Plain "\x7d\n" := by decide
  have hedges : Quotes (String.join (s.edges.map Dot.edge)) (s.edges.flatMap edgeTexts) :=
    .join (fun e he => quotes_edge (hplain.edge e he).1 (hplain.edge e he).2)
  have hnodes := quotes_nodes hplain (List.Subset.refl s.nodes)
  have hdrawing := ((hnodes.append hline.quotes).append hedges).append hend.quotes
  rw [List.append_nil, List.append_nil] at hdrawing
  exact hdrawing

/-- The label of every node ends at the quote after it. -/
theorem closesLabel_toDot {earlier later : List SnapshotNode} {n : SnapshotNode}
    (hnodes : s.nodes = earlier ++ n :: later) : ClosesLabel s.toDot earlier n := by
  have hearlier : earlier ⊆ s.nodes := hnodes ▸ List.subset_append_left _ _
  have hn : n ∈ s.nodes := hnodes ▸ List.mem_append_right _ List.mem_cons_self
  obtain ⟨hid, hlifetime⟩ := hplain.node n hn
  refine ⟨header ++ String.join (earlier.map Dot.node), String.join (later.map Dot.node) ++ "\n" ++
    String.join (s.edges.map Dot.edge) ++ "\x7d\n", ?_, node_eq n, ?_, ?_⟩
  · simp only [toDot, hnodes, List.map_append, List.map_cons, String.join_append, String.join_cons,
      String.append_assoc]
  · exact (quotes_nodes hplain hearlier).append (quotes_opening hid)
  · exact (reads_label n hlifetime).closed _

end Plain

end Snapshot

/-- The last letter tells which lifetime a text ends in. -/
theorem Lifetime.eq_of_append_text_eq {a b : String} {l l' : Lifetime}
    (h : a ++ l.text = b ++ l'.text) : l = l' := by
  have hlast := congrArg (fun s : String => s.toList.getLast?) h
  cases l <;> cases l' <;> simp [text] at hlast ⊢

/-- Nodes of different services have different labels. -/
theorem Snapshot.service_eq_of_label_eq {m n : Node} (h : label (nodeOf m) = label (nodeOf n)) :
    m.service.text = n.service.text := by
  have hm := reads_label (nodeOf m) (plain_text m.lifetime)
  have hn := reads_label (nodeOf n) (plain_text n.lifetime)
  rw [h] at hm
  have htexts : m.service.text ++ "n(" ++ m.lifetime.text =
      n.service.text ++ "n(" ++ n.lifetime.text :=
    (String.append_left_inj ")").1 (hm.unique hn)
  have hlifetime := Lifetime.eq_of_append_text_eq htexts
  rw [hlifetime, String.append_left_inj, String.append_left_inj] at htexts
  exact htexts

/-- Labels cannot break out of their quotes. Every text is read back from its escaped form, without
a quote on the way and without an escape that is open at the end. So different services have
different labels, and in the drawing of a graph the texts in quotes are the ids and the captions,
where each label ends at the quote after it. -/
theorem Dot.labels_closed :
    (∀ s : String, read (escape s).toList = ⟨s.toList, .complete⟩) ∧
    (∀ s t : String, s ≠ t → escape s ≠ escape t) ∧
    (∀ m n : Node, m.service.text ≠ n.service.text →
      label (Snapshot.nodeOf m) ≠ label (Snapshot.nodeOf n)) ∧
    ∀ g : Graph,
      quotations? g.snapshot.toDot.toList =
        some (g.snapshot.nodes.flatMap nodeTexts ++ g.snapshot.edges.flatMap edgeTexts) ∧
      ∀ earlier n later, g.snapshot.nodes = earlier ++ n :: later →
        ClosesLabel g.snapshot.toDot earlier n := by
  refine ⟨reads_escape, fun s t hne heq => ?_, fun m n hne heq => ?_, fun g => ?_⟩
  · have hs := reads_escape s
    rw [heq] at hs
    exact hne (hs.unique (reads_escape t))
  · exact hne (Snapshot.service_eq_of_label_eq heq)
  · have hplain := Snapshot.plainNames_snapshot g
    refine ⟨Snapshot.quotes_toDot hplain, fun earlier n later hnodes => ?_⟩
    exact Snapshot.closesLabel_toDot hplain hnodes

end Wiring
