import SchemaEditor.Csv.Decoder
import SchemaEditor.Csv.Encoder

/-!
# Reading back what was written

Written records read back as the same records with changes inside the fields only. A field in quotes loses the
carriage return of each CRLF, and a field without quotes its spaces and carriage returns; with quoting switched
off nothing is lost. The reader is followed along the text, from within a line on.
-/

namespace SchemaEditor

/-! ## Lines of a text, from the front -/

namespace Text

theorem dropReturn_append {line : List Char} {c : Char} (h : c = '\r' → line ≠ []) :
    dropReturn '\r' (line ++ [c]) = dropReturn '\r' line ++ [c] := by
  cases line with
  | nil =>
    have hc : c ≠ '\r' := fun hc => h hc rfl
    simp [dropReturn, hc]
  | cons d line =>
    by_cases hd : d = '\r'
    · simp [dropReturn, hd]
    · simp [dropReturn, hd]

theorem dropReturn_suffix (line : List Char) : dropReturn '\r' line <:+ line := by
  cases line with
  | nil => exact List.nil_suffix
  | cons d line =>
    by_cases hd : d = '\r'
    · simp [dropReturn, hd]
    · simp [dropReturn, hd]

theorem lines_lf (cs : List Char) : lines ('\n' :: cs) = [] :: lines cs :=
  linesFrom_append_lf '\n' '\r' [] [] cs (by simp)

theorem lines_crlf (cs : List Char) : lines ('\r' :: '\n' :: cs) = [] :: lines cs :=
  linesFrom_append_lf '\n' '\r' [] ['\r'] cs (by simp)

/-- A character before a text that has a line end goes in front of the first line. -/
theorem lines_cons {c : Char} {cs : List Char} (hcs : '\n' ∈ cs) (hc : c ≠ '\n') (hcr : c = '\r' → cs.head? ≠ some '\n') :
    ∃ line rest, lines cs = line :: rest ∧ lines (c :: cs) = (c :: line) :: rest ∧ line <+: cs := by
  obtain ⟨u, rest, rfl, hu⟩ := List.eq_append_cons_of_mem hcs
  have hlines (u : List Char) (hu : '\n' ∉ u) :
      lines (u ++ '\n' :: rest) = (dropReturn '\r' u.reverse).reverse :: lines rest := by
    have h := linesFrom_append_lf '\n' '\r' [] u rest hu
    rwa [List.append_nil] at h
  have hline : dropReturn '\r' (c :: u).reverse = dropReturn '\r' u.reverse ++ [c] := by
    rw [List.reverse_cons]
    refine dropReturn_append fun hc hnil => hcr hc ?_
    rw [List.reverse_eq_nil_iff.mp hnil]
    rfl
  have hcu : '\n' ∉ c :: u := by simp [hu, Ne.symm hc]
  refine ⟨_, _, hlines u hu, ?_, ?_⟩
  · rw [← List.cons_append, hlines (c :: u) hcu, hline, List.reverse_append]
    rfl
  · have hprefix := List.reverse_prefix.mpr (dropReturn_suffix u.reverse)
    rw [List.reverse_reverse] at hprefix
    exact hprefix.trans (List.prefix_append u _)

end Text

namespace Csv

/-! ## One character at a time -/

/-- Reads the rest of a text, from within a line on. -/
def readFrom (o : Options) (done : List (List String)) (p : Pending) (cs : List Char) : Except Error Decoded :=
  decodeFrom o {} done p ((Text.lines cs).map some)

theorem Pending.scan_cons {o : Options} {p : Pending} {c : Char} {line : List Char}
    (h : some c = o.quote → p.inQuotes = true → line.head? ≠ some c) : p.scan o (c :: line) = (p.step o c).scan o line := by
  cases line with
  | nil => rfl
  | cons d line =>
    rw [scan, if_neg]
    rintro ⟨hc, hp, rfl⟩
    exact h hc hp rfl

theorem Pending.scan_doubled {o : Options} {p : Pending} {q : Char} {line : List Char} (hq : o.quote = some q)
    (hp : p.inQuotes = true) : p.scan o (q :: q :: line) = (p.push q).scan o line := by
  rw [scan, if_pos ⟨hq.symm, hp, rfl⟩]

theorem decodeFrom_cons (o : Options) (done : List (List String)) (p : Pending) (cs : List Char) (lines : List Line) :
    decodeFrom o {} done p (some cs :: lines) =
      if (p.scan o cs).inQuotes then decodeFrom o {} done ((p.scan o cs).push '\n') lines
      else decodeFrom o {} ((p.scan o cs).record :: done) {} lines := by
  have hreached : ({} : Limit).reached done.length = false := rfl
  rw [decodeFrom]
  simp only [hreached, Bool.false_eq_true, if_false]

section

variable {o : Options} {done : List (List String)} {p : Pending} {cs : List Char}

theorem readFrom_char {c : Char} (hcs : '\n' ∈ cs) (hc : c ≠ '\n') (hcr : c = '\r' → cs.head? ≠ some '\n')
    (hq : some c = o.quote → p.inQuotes = true → cs.head? ≠ some c) :
    readFrom o done p (c :: cs) = readFrom o done (p.step o c) cs := by
  obtain ⟨line, rest, hline, hcline, hprefix⟩ := Text.lines_cons hcs hc hcr
  have hscan : p.scan o (c :: line) = (p.step o c).scan o line :=
    Pending.scan_cons fun hc hp hhead => by
      obtain ⟨rest, rfl⟩ := hprefix
      exact hq hc hp (by rw [List.head?_append, hhead]; rfl)
  rw [readFrom, readFrom, hline, hcline, List.map_cons, List.map_cons, decodeFrom_cons, decodeFrom_cons, hscan]

theorem readFrom_doubled {q : Char} (hcs : '\n' ∈ cs) (hq : o.quote = some q) (hcr : q ≠ '\r') (hlf : q ≠ '\n')
    (hp : p.inQuotes = true) : readFrom o done p (q :: q :: cs) = readFrom o done (p.push q) cs := by
  obtain ⟨line, rest, hline, hqline, -⟩ := Text.lines_cons hcs hlf (absurd · hcr)
  obtain ⟨line', rest', hqline', hqqline, -⟩ :=
    Text.lines_cons (List.mem_cons_of_mem q hcs : '\n' ∈ q :: cs) hlf (absurd · hcr)
  obtain ⟨rfl, rfl⟩ := List.cons.inj (hqline'.symm.trans hqline)
  rw [readFrom, readFrom, hline, hqqline, List.map_cons, List.map_cons, decodeFrom_cons, decodeFrom_cons,
    Pending.scan_doubled hq hp]

theorem readFrom_lf_open (hp : p.inQuotes = true) :
    readFrom o done p ('\n' :: cs) = readFrom o done (p.push '\n') cs := by
  have hscan : p.scan o [] = p := rfl
  rw [readFrom, readFrom, Text.lines_lf, List.map_cons, decodeFrom_cons, hscan, if_pos hp]

theorem readFrom_lf (hp : p.inQuotes = false) :
    readFrom o done p ('\n' :: cs) = readFrom o (p.record :: done) {} cs := by
  have hscan : p.scan o [] = p := rfl
  rw [readFrom, readFrom, Text.lines_lf, List.map_cons, decodeFrom_cons, hscan, if_neg (by simp [hp])]

theorem readFrom_crlf : readFrom o done p ('\r' :: '\n' :: cs) = readFrom o done p ('\n' :: cs) := by
  rw [readFrom, readFrom, Text.lines_crlf, Text.lines_lf]

end

/-! ## Formats that read back -/

/-- A separator, and quote and separator tell fields, records and quoted text apart. -/
structure Options.Reversible (o : Options) : Prop where
  newline : o.newline = "\n" ∨ o.newline = "\r\n"
  separator : ∃ s, o.separator = some s ∧ s ≠ '\r' ∧ s ≠ '\n'
  quote : ∀ q, o.quote = some q → q ≠ '\r' ∧ q ≠ '\n' ∧ o.separator ≠ some q

/-- A field that needs no quotes in any format with this separator. -/
def Plain (o : Options) (field : String) : Prop :=
  ∀ c ∈ field.toList, some c ≠ o.separator ∧ c ≠ '\r' ∧ c ≠ '\n'

/-- Each CRLF as a line feed. -/
def joinReturns : List Char → List Char
  | [] => []
  | '\r' :: '\n' :: cs => '\n' :: joinReturns cs
  | c :: cs => c :: joinReturns cs

/-- What is left of a field that was written and read back. -/
def readBack (o : Options) (field : String) : String :=
  match o.quote with
  | none => field
  | some _ =>
    if field.toList.any (isSpecial o) then String.ofList (joinReturns field.toList)
    else String.ofList (field.toList.filter fun c => c ≠ ' ' ∧ c ≠ '\r')

/-! ## A field -/

/-- Whether a character outside quotes stays. -/
def keeps (o : Options) (c : Char) : Bool := c ≠ '\r' ∧ (c ≠ ' ' ∨ o.quote = none)

def Pending.add (p : Pending) (cs : List Char) : Pending := { p with field := cs.reverse ++ p.field }

namespace Pending

@[simp] theorem add_nil (p : Pending) : p.add [] = p := rfl

@[simp] theorem push_add (p : Pending) (c : Char) (cs : List Char) : (p.push c).add cs = p.add (c :: cs) := by
  simp [push, add]

theorem toggle_add_toggle (p : Pending) (cs : List Char) : (p.toggle.add cs).toggle = p.add cs := by
  simp [toggle, add]

theorem step_quote {o : Options} {q : Char} (hq : o.quote = some q) (p : Pending) : p.step o q = p.toggle := by
  rw [step, if_pos hq.symm]

theorem step_separator {o : Options} {s : Char} (hs : o.separator = some s) (hq : o.quote ≠ some s) {p : Pending}
    (hp : p.inQuotes = false) : p.step o s = p.endField := by
  rw [step, if_neg (Ne.symm hq), if_pos ⟨hs.symm, by simp [hp]⟩]

theorem step_open {o : Options} {p : Pending} {c : Char} (hc : some c ≠ o.quote) (hp : p.inQuotes = true) :
    p.step o c = p.push c := by
  simp [step, hc, hp]

theorem step_bare {o : Options} {p : Pending} {c : Char} (hq : some c ≠ o.quote) (hs : some c ≠ o.separator) (hc : c ≠ '\n')
    (hp : p.inQuotes = false) : p.step o c = if keeps o c then p.push c else p := by
  by_cases hspace : c = ' '
  · subst hspace
    by_cases hnone : o.quote = none
    · simp [step, keeps, hs, hp, hnone]
    · simp [step, keeps, hq, hs, hp, hnone]
  · by_cases hr : c = '\r'
    · subst hr
      simp [step, keeps, hq, hs, hp]
    · simp [step, keeps, hq, hs, hp, hspace, hr, hc]

end Pending

theorem head?_doubled_append (q : Char) (cs rest : List Char) : (doubled q cs ++ q :: rest).head? = some (cs.head?.getD q) := by
  cases cs with
  | nil => rfl
  | cons c cs =>
    by_cases hc : c = q
    · simp [doubled, hc]
    · simp [doubled, hc]

section

variable {o : Options} {done : List (List String)}

/-- The text of quoted characters up to the closing quote. -/
theorem readFrom_quoted {q : Char} (hq : o.quote = some q) (hcr : q ≠ '\r') (hlf : q ≠ '\n') (cs : List Char) {p : Pending}
    (hp : p.inQuotes = true) {rest : List Char} (hrest : '\n' ∈ rest) (hhead : rest.head? ≠ some q) :
    readFrom o done p (doubled q cs ++ q :: rest) = readFrom o done (p.add (joinReturns cs)).toggle rest := by
  have hmem (cs : List Char) : '\n' ∈ doubled q cs ++ q :: rest := by simp [hrest]
  have hcr' : ¬ '\r' = q := Ne.symm hcr
  have hlf' : ¬ '\n' = q := Ne.symm hlf
  -- Inside quotes a line end is the next character whatever ends the line, so the cases are those of `joinReturns`.
  induction cs using joinReturns.induct generalizing p with
  | case1 =>
    rw [show doubled q [] ++ q :: rest = q :: rest from rfl,
      readFrom_char hrest hlf (absurd · hcr) fun _ _ => hhead, Pending.step_quote hq]
    rfl
  | case2 cs ih =>
    rw [joinReturns, ← Pending.push_add, ← ih (p := p.push '\n') hp]
    simp only [doubled, hcr', hlf', if_false, List.cons_append]
    rw [readFrom_crlf, readFrom_lf_open hp]
  | case3 c cs hcrlf ih =>
    rw [joinReturns.eq_3 c cs hcrlf, ← Pending.push_add, ← ih (p := p.push c) hp]
    by_cases hc : c = q
    · subst hc
      simp only [doubled, if_true, List.cons_append]
      rw [readFrom_doubled (hmem cs) hq hcr hlf hp]
    · simp only [doubled, hc, if_false, List.cons_append]
      by_cases hnl : c = '\n'
      · rw [hnl, readFrom_lf_open hp]
      · have hquote : some c ≠ o.quote := by simpa [hq] using hc
        rw [readFrom_char (hmem cs) hnl ?_ (absurd · hquote), Pending.step_open hquote hp]
        intro hr hhead
        rw [head?_doubled_append, Option.some.injEq] at hhead
        cases cs with
        | nil => exact hlf hhead
        | cons d cs => exact hcrlf cs hr (by rw [show d = '\n' from hhead])

/-- A carriage return outside quotes leaves no trace, wherever it stands. -/
theorem readFrom_cr {p : Pending} {cs : List Char} (hq : o.quote ≠ some '\r') (hs : o.separator ≠ some '\r')
    (hp : p.inQuotes = false) (hcs : '\n' ∈ cs) : readFrom o done p ('\r' :: cs) = readFrom o done p cs := by
  by_cases hhead : cs.head? = some '\n'
  · obtain ⟨cs, rfl⟩ := List.head?_eq_some_iff.mp hhead
    exact readFrom_crlf
  · rw [readFrom_char hcs (by decide) (fun _ => hhead) (absurd ·.symm hq),
      Pending.step_bare (Ne.symm hq) (Ne.symm hs) (by decide) hp]
    rfl

/-- A text with nothing special in it, outside quotes. -/
theorem readFrom_bare {cs : List Char} (hcs : ∀ c ∈ cs, some c ≠ o.quote ∧ some c ≠ o.separator ∧ c ≠ '\n')
    (hq : o.quote ≠ some '\r') (hs : o.separator ≠ some '\r') {p : Pending} (hp : p.inQuotes = false) {rest : List Char}
    (hrest : '\n' ∈ rest) : readFrom o done p (cs ++ rest) = readFrom o done (p.add (cs.filter (keeps o))) rest := by
  induction cs generalizing p with
  | nil => rfl
  | cons c cs ih =>
    obtain ⟨hquote, hseparator, hlf⟩ := hcs c List.mem_cons_self
    have ih (p : Pending) (hp : p.inQuotes = false) := ih (fun d hd => hcs d (List.mem_cons_of_mem c hd)) (p := p) hp
    have hmem : '\n' ∈ cs ++ rest := List.mem_append_right cs hrest
    rw [List.cons_append]
    by_cases hr : c = '\r'
    · rw [hr, readFrom_cr hq hs hp hmem, ih p hp, List.filter_cons_of_neg (by simp [keeps])]
    · rw [readFrom_char hmem hlf (absurd · hr) (absurd · hquote), Pending.step_bare hquote hseparator hlf hp]
      cases hkeeps : keeps o c with
      | true =>
        rw [if_pos rfl, ih (p.push c) hp, Pending.push_add, List.filter_cons_of_pos hkeeps]
      | false =>
        rw [if_neg Bool.false_ne_true, ih p hp, List.filter_cons_of_neg (by simp [hkeeps])]

theorem toList_encodeField (o : Options) (field : String) :
    (encodeField o field).toList =
      match o.quote with
      | none => field.toList
      | some q => if field.toList.any (isSpecial o) then q :: (doubled q field.toList ++ [q]) else field.toList := by
  unfold encodeField
  cases o.quote with
  | none => rfl
  | some q =>
    cases hspecial : field.toList.any (isSpecial o) with
    | true => simp [quoteWith]
    | false => simp

/-- A written field reads as `readBack` says, before a separator or a line end. -/
theorem readFrom_field (ho : o.Reversible) {field : String} (hplain : o.quote = none → Plain o field) {p : Pending}
    (hp : p.inQuotes = false) {rest : List Char} (hrest : '\n' ∈ rest) (hhead : ∀ q, o.quote = some q → rest.head? ≠ some q) :
    readFrom o done p ((encodeField o field).toList ++ rest) = readFrom o done (p.add (readBack o field).toList) rest := by
  obtain ⟨s, hs, hscr, -⟩ := ho.separator
  have hseparator : o.separator ≠ some '\r' := fun h => hscr (Option.some.inj (hs.symm.trans h))
  have hquote : o.quote ≠ some '\r' := fun h => (ho.quote _ h).1 rfl
  rw [toList_encodeField]
  cases hq : o.quote with
  | none =>
    have hplain := hplain hq
    have hkept : field.toList.filter (keeps o) = field.toList := by
      rw [List.filter_eq_self]
      intro c hc
      simp [keeps, hq, (hplain c hc).2.1]
    have hback : readBack o field = field := by simp only [readBack, hq]
    rw [readFrom_bare (fun c hc => ⟨by simp [hq], (hplain c hc).1, (hplain c hc).2.2⟩) hquote hseparator hp hrest, hkept, hback]
  | some q =>
    obtain ⟨hcr, hlf, hne⟩ := ho.quote q hq
    cases hspecial : field.toList.any (isSpecial o) with
    | true =>
      have hback : (readBack o field).toList = joinReturns field.toList := by simp [readBack, hq, hspecial]
      have hmem : '\n' ∈ doubled q field.toList ++ q :: rest := by simp [hrest]
      dsimp only
      rw [if_pos rfl, hback, List.cons_append, List.append_assoc, List.singleton_append,
        readFrom_char hmem hlf (absurd · hcr) (fun _ hopen => absurd hopen (by simp [hp])), Pending.step_quote hq,
        readFrom_quoted hq hcr hlf _ (by simp [Pending.toggle, hp]) hrest (hhead q hq), Pending.toggle_add_toggle]
    | false =>
      have hchars : ∀ c ∈ field.toList, some c ≠ o.quote ∧ some c ≠ o.separator ∧ c ≠ '\n' := by
        intro c hc
        have hordinary := List.any_eq_false.mp hspecial c hc
        simp only [isSpecial, Bool.or_eq_true, beq_iff_eq, List.contains_iff_mem, not_or] at hordinary
        refine ⟨hordinary.1.2, hordinary.1.1, fun hc => hordinary.2 ?_⟩
        rcases ho.newline with h | h <;> simp [h, hc]
      have hback : (readBack o field).toList = field.toList.filter (keeps o) := by
        simp only [readBack, hq, hspecial, Bool.false_eq_true, if_false, String.toList_ofList]
        refine List.filter_congr fun c _ => ?_
        simp [keeps, hq, and_comm]
      dsimp only
      rw [if_neg Bool.false_ne_true, hback, readFrom_bare hchars hquote hseparator hp hrest]

/-! ## Records -/

theorem toList_encodeRecord_cons {s : Char} (hs : o.separator = some s) (f g : String) (fields : List String) :
    (encodeRecord o (f :: g :: fields)).toList = (encodeField o f).toList ++ s :: (encodeRecord o (g :: fields)).toList := by
  simp [encodeRecord, hs, String.toList_intercalate]

theorem toList_encodeRecord_singleton (f : String) : (encodeRecord o [f]).toList = (encodeField o f).toList := by
  simp [encodeRecord]

/-- A newline outside quotes ends the record. -/
theorem readFrom_newline (ho : o.Reversible) {p : Pending} (hp : p.inQuotes = false) (rest : List Char) :
    readFrom o done p (o.newline.toList ++ rest) = readFrom o (p.record :: done) {} rest := by
  rcases ho.newline with h | h <;> rw [h]
  · exact readFrom_lf hp
  · exact readFrom_crlf.trans (readFrom_lf hp)

theorem newline_mem (ho : o.Reversible) (rest : List Char) : '\n' ∈ o.newline.toList ++ rest := by
  rcases ho.newline with h | h <;> simp [h]

theorem head?_newline_ne_quote (ho : o.Reversible) (rest : List Char) {q : Char} (hq : o.quote = some q) :
    (o.newline.toList ++ rest).head? ≠ some q := by
  obtain ⟨hcr, hlf, -⟩ := ho.quote q hq
  rcases ho.newline with h | h <;> rw [h]
  · exact fun h => hlf (Option.some.inj h).symm
  · exact fun h => hcr (Option.some.inj h).symm

theorem readFrom_record (ho : o.Reversible) {fields : List String} (hne : fields ≠ [])
    (hplain : o.quote = none → ∀ f ∈ fields, Plain o f) {p : Pending} (hp : p.inQuotes = false) (hfield : p.field = [])
    (rest : List Char) :
    readFrom o done p ((encodeRecord o fields).toList ++ (o.newline.toList ++ rest)) =
      readFrom o ((p.fields.reverse ++ fields.map (readBack o)) :: done) {} rest := by
  obtain ⟨s, hs, hcr, hlf⟩ := ho.separator
  have hsq : ∀ q, o.quote = some q → s ≠ q := fun q hq h => (ho.quote q hq).2.2 (hs.trans (congrArg some h))
  induction fields generalizing p with
  | nil => exact absurd rfl hne
  | cons f fields ih =>
    have hplainf : o.quote = none → Plain o f := fun hq => hplain hq f List.mem_cons_self
    cases fields with
    | nil =>
      rw [toList_encodeRecord_singleton,
        readFrom_field ho hplainf hp (newline_mem ho rest) fun q hq => head?_newline_ne_quote ho rest hq,
        readFrom_newline ho (by exact hp)]
      simp [Pending.record, Pending.endField, Pending.add, hfield]
    | cons g fields =>
      have hmem : '\n' ∈ (encodeRecord o (g :: fields)).toList ++ (o.newline.toList ++ rest) :=
        List.mem_append_right _ (newline_mem ho rest)
      rw [toList_encodeRecord_cons hs, List.append_assoc, List.cons_append,
        readFrom_field ho hplainf hp (List.mem_cons_of_mem s hmem) fun q hq h => hsq q hq (Option.some.inj h),
        readFrom_char hmem hlf (absurd · hcr) fun hq _ => absurd rfl (hsq s hq.symm),
        Pending.step_separator hs (fun hq => hsq s hq rfl) (by exact hp),
        ih (List.cons_ne_nil g fields) (fun hq f hf => hplain hq f (List.mem_cons_of_mem _ hf)) (by exact hp) rfl]
      simp [Pending.endField, Pending.add, hfield]

theorem readFrom_records (ho : o.Reversible) {records : List (List String)} (hne : ∀ r ∈ records, r ≠ [])
    (hplain : o.quote = none → ∀ r ∈ records, ∀ f ∈ r, Plain o f) :
    readFrom o done {} (writeRecords o records).toList = .ok ⟨done.reverse ++ records.map (·.map (readBack o))⟩ := by
  induction records generalizing done with
  | nil => rw [List.map_nil, List.append_nil]; rfl
  | cons r records ih =>
    have htext : (writeRecords o (r :: records)).toList =
        (encodeRecord o r).toList ++ (o.newline.toList ++ (writeRecords o records).toList) := by
      simp [writeRecords, writeRecord, String.toList_append]
    rw [htext, readFrom_record ho (hne r List.mem_cons_self) (fun hq f hf => hplain hq r List.mem_cons_self f hf) rfl rfl,
      ih (fun r hr => hne r (List.mem_cons_of_mem _ hr)) fun hq r hr => hplain hq r (List.mem_cons_of_mem _ hr)]
    simp

end

/-- Written records read back as the same records, each field as `readBack` says. -/
theorem decodeText_writeRecords {o : Options} (ho : o.Reversible) {records : List (List String)} (hne : ∀ r ∈ records, r ≠ [])
    (hplain : o.quote = none → ∀ r ∈ records, ∀ f ∈ r, Plain o f) :
    ∃ d, decodeText o (writeRecords o records) = .ok d ∧ d.records = records.length ∧
      d.columns = (records.head?.map List.length).getD 0 ∧ d.fields = records.flatten.map (readBack o) ∧
      d.recordList = records.map (·.map (readBack o)) := by
  have hread : readFrom o [] {} _ = _ := readFrom_records ho hne hplain
  rw [List.reverse_nil, List.nil_append] at hread
  refine ⟨_, hread, ?_, ?_, ?_, rfl⟩
  · exact List.length_map _
  · cases records with
    | nil => rfl
    | cons r records => exact congrArg (fun n => (some n).getD 0) (List.length_map _)
  · exact List.map_flatten.symm

/-- Quotes and line breaks inside a field, spaces outside quotes, a carriage return of its own, an empty field. -/
theorem decodeText_writeRecords_mixed :
    let o : Options := { separator := some ';', newline := "\r\n" }
    let records := [["a b", "x\"\"\r\n\r\ny", ""], ["p; q\r"]]
    ∃ d, decodeText o (writeRecords o records) = .ok d ∧ d.records = 2 ∧ d.columns = 3 ∧
      d.fields = ["ab", "x\"\"\n\ny", "", "p; q\r"] ∧ d.recordList = [["ab", "x\"\"\n\ny", ""], ["p; q\r"]] := by
  have ho : Options.Reversible { separator := some ';', newline := "\r\n" } :=
    ⟨.inr rfl, ⟨_, rfl, by decide, by decide⟩, fun q hq => by obtain rfl := Option.some.inj hq; decide⟩
  have h := @decodeText_writeRecords _ ho [["a b", "x\"\"\r\n\r\ny", ""], ["p; q\r"]] (by decide) (fun h => nomatch h)
  obtain ⟨d, hd, hrecords, hcolumns, hfields, hlist⟩ := h
  exact ⟨d, hd, hrecords, hcolumns, hfields.trans (by decide), hlist.trans (by decide)⟩

end Csv

end SchemaEditor
