import Mathlib.Data.List.Infix
import Mathlib.Data.Nat.Bits
import SchemaEditor.Csv.Decoder

/-!
# Limited and cancelled reading

A limit and a signal end a reading early, and that is all they do: what has been read is the beginning of what
the whole text gives. The signal is looked at once for each record that ends with its line, and never for the
record that is closed at the end of the file.
-/

namespace SchemaEditor.Csv

/-! ## Quotes -/

/-- The number of quotes among the characters. -/
def quotes (o : Options) (cs : List Char) : Nat := cs.countP fun c => some c = o.quote

theorem bodd_quotes_append (o : Options) (cs ds : List Char) :
    (quotes o (cs ++ ds)).bodd = ((quotes o cs).bodd ^^ (quotes o ds).bodd) := by
  rw [quotes, List.countP_append, Nat.bodd_add]
  rfl

theorem bodd_quotes_cons (o : Options) (c : Char) (cs : List Char) :
    (quotes o (c :: cs)).bodd = (decide (some c = o.quote) ^^ (quotes o cs).bodd) := by
  rw [quotes, List.countP_cons, Nat.bodd_add, Bool.xor_comm]
  by_cases h : some c = o.quote <;> simp [h, quotes]

theorem Pending.inQuotes_step (o : Options) (p : Pending) (c : Char) :
    (p.step o c).inQuotes = (p.inQuotes ^^ decide (some c = o.quote)) := by
  unfold Pending.step
  by_cases hquote : some c = o.quote
  · simp [hquote, Pending.toggle]
  · simp only [hquote, ↓reduceIte, decide_false, Bool.bne_false]
    repeat' split
    all_goals rfl

/-- Each quote opens or closes; a doubled one does both. -/
theorem Pending.inQuotes_scan (o : Options) (p : Pending) (cs : List Char) :
    (p.scan o cs).inQuotes = (p.inQuotes ^^ (quotes o cs).bodd) := by
  fun_induction Pending.scan o p cs with
  | case1 p => simp [quotes]
  | case2 p c => rw [inQuotes_step, bodd_quotes_cons]; simp [quotes]
  | case3 p c d cs hdoubled ih =>
    obtain ⟨hquote, -, rfl⟩ := hdoubled
    rw [ih, bodd_quotes_cons, bodd_quotes_cons]
    simp [hquote, Pending.push]
  | case4 p c d cs _ ih => rw [ih, inQuotes_step, bodd_quotes_cons o c, Bool.xor_assoc]

/-! ## Line ends outside quotes -/

/-- The lines at whose end no quote is open: the quotes up to there, with the one that is open at the start if
there is one, pair off. -/
def recordEnds (o : Options) (startsOpen : Bool) (lines : List (List Char)) : Nat :=
  lines.inits.tail.countP fun front => !(startsOpen ^^ (quotes o front.flatten).bodd)

theorem recordEnds_cons (o : Options) (startsOpen : Bool) (cs : List Char) (lines : List (List Char)) :
    recordEnds o startsOpen (cs :: lines) =
      (if (startsOpen ^^ (quotes o cs).bodd) then 0 else 1) + recordEnds o (startsOpen ^^ (quotes o cs).bodd) lines := by
  have hinits : lines.inits = [] :: lines.inits.tail := by cases lines <;> simp
  have hodd : (quotes o []).bodd = false := by rw [quotes, List.countP_nil, Nat.bodd_zero]
  unfold recordEnds
  rw [List.inits_cons, List.tail_cons, hinits, List.map_cons, List.countP_cons, List.countP_map, List.tail_cons, Nat.add_comm]
  simp only [Function.comp_def, List.flatten_cons, List.flatten_nil, bodd_quotes_append, Bool.xor_assoc, hodd, Bool.bne_false]
  cases startsOpen ^^ (quotes o cs).bodd <;> rfl

/-! ## One line -/

/-- The record that is closed at the end of the file. -/
def Pending.leftOpen (p : Pending) : List (List String) := if p.inQuotes then [{ p with field := p.field.tail }.record] else []

section
variable {o : Options} {l : Limit} {done : List (List String)} {p : Pending} {cs : List Char} {lines : List Line}

theorem close_eq : decodeFrom.close done p = ⟨done.reverse ++ p.leftOpen⟩ := by
  unfold decodeFrom.close Pending.leftOpen
  split <;> simp

theorem decodeFrom_reached (h : l.reached done.length = true) :
    decodeFrom o l done p lines = .ok ⟨done.reverse ++ p.leftOpen⟩ := by
  rw [← close_eq]
  cases lines with
  | nil => rfl
  | cons line lines => unfold decodeFrom; rw [if_pos h]

theorem decodeFrom_open (hl : l.reached done.length = false) (h : (p.scan o cs).inQuotes = true) :
    decodeFrom o l done p (some cs :: lines) = decodeFrom o l done ((p.scan o cs).push '\n') lines := by
  simp only [decodeFrom, hl, h, Bool.false_eq_true, ↓reduceIte]

theorem decodeFrom_ended (hl : l.reached done.length = false) (h : (p.scan o cs).inQuotes = false) :
    decodeFrom o l done p (some cs :: lines) =
      if l.cancelled (done.length + 1) then .error .cancelled else decodeFrom o l ((p.scan o cs).record :: done) {} lines := by
  simp only [decodeFrom, hl, h, Bool.false_eq_true, ↓reduceIte, List.length_cons]

theorem reached_eq_false_iff {records : Nat} : l.reached records = false ↔ ∀ n ∈ l.maxRecords, records < n := by
  unfold Limit.reached
  cases l.maxRecords <;> simp

end

/-! ## Readings that end early -/

variable {o : Options}

theorem length_leftOpen_le {p : Pending} {room : Nat} (h : p.inQuotes = true → 0 < room) : p.leftOpen.length ≤ room := by
  unfold Pending.leftOpen
  split
  · next hopen => exact h hopen
  · exact Nat.zero_le _

/-- With a limit the first records are read, up to the limit. A record that is open has room within it. -/
theorem decodeFrom_limited (lines : List (List Char)) (done : List (List String)) (p : Pending) :
    ∃ records, decodeFrom o {} done p (lines.map some) = .ok ⟨done.reverse ++ records⟩ ∧
      ∀ room, (p.inQuotes = true → 0 < room) →
        decodeFrom o { maxRecords := some (done.length + room) } done p (lines.map some) =
          .ok ⟨done.reverse ++ records.take room⟩ := by
  induction lines generalizing done p with
  | nil =>
    refine ⟨p.leftOpen, congrArg Except.ok close_eq, fun room hroom => ?_⟩
    rw [List.take_of_length_le (length_leftOpen_le hroom)]
    exact congrArg Except.ok close_eq
  | cons cs lines ih =>
    rw [List.map_cons]
    have hreached (room : Nat) : ({ maxRecords := some (done.length + (room + 1)) } : Limit).reached done.length = false := by
      simp [Limit.reached]
    have hfull (records : List (List String)) (hroom : p.inQuotes = true → 0 < 0) :
        decodeFrom o { maxRecords := some (done.length + 0) } done p (some cs :: lines.map some) =
          .ok ⟨done.reverse ++ records.take 0⟩ := by
      rw [decodeFrom_reached (by simp [Limit.reached]), List.eq_nil_of_length_eq_zero (Nat.le_zero.mp (length_leftOpen_le hroom)),
        List.take_zero]
    cases hquotes : (p.scan o cs).inQuotes with
    | true =>
      obtain ⟨records, hall, hlimited⟩ := ih done ((p.scan o cs).push '\n')
      refine ⟨records, by rw [decodeFrom_open rfl hquotes, hall], fun room hroom => ?_⟩
      cases room with
      | zero => exact hfull records hroom
      | succ room => rw [decodeFrom_open (hreached room) hquotes, hlimited (room + 1) fun _ => room.succ_pos]
    | false =>
      obtain ⟨records, hall, hlimited⟩ := ih ((p.scan o cs).record :: done) {}
      refine ⟨(p.scan o cs).record :: records, ?_, fun room hroom => ?_⟩
      · rw [decodeFrom_ended rfl hquotes, if_neg Bool.false_ne_true, hall]
        simp
      · cases room with
        | zero => exact hfull _ hroom
        | succ room =>
          have hrest := hlimited room nofun
          rw [List.length_cons, Nat.add_right_comm, Nat.add_assoc] at hrest
          rw [decodeFrom_ended (hreached room) hquotes, if_neg Bool.false_ne_true, hrest]
          simp

/-- A signal that first fires when it is looked at for the `k`-th record stops the reading there, if that record
ends with its line and is within the limit. Otherwise it makes no difference. -/
theorem decodeFrom_cancelled {cancelled : Nat → Bool} {limit : Option Nat} {k : Nat} (hk : cancelled k = true)
    (lines : List (List Char)) {done : List (List String)} (p : Pending) (hlater : done.length < k)
    (hfirst : ∀ j, done.length < j → j < k → cancelled j = false) :
    decodeFrom o { maxRecords := limit, cancelled } done p (lines.map some) =
      if k ≤ done.length + recordEnds o p.inQuotes lines ∧ ∀ n ∈ limit, k ≤ n then .error .cancelled
      else decodeFrom o { maxRecords := limit } done p (lines.map some) := by
  induction lines generalizing done p with
  | nil =>
    rw [if_neg]
    · rfl
    · rintro ⟨hends, -⟩
      have hnone : recordEnds o p.inQuotes [] = 0 := rfl
      omega
  | cons cs lines ih =>
    rw [List.map_cons]
    cases hreached : ({ maxRecords := limit } : Limit).reached done.length with
    | true =>
      have hreached' : ({ maxRecords := limit, cancelled } : Limit).reached done.length = true := hreached
      rw [decodeFrom_reached hreached, decodeFrom_reached hreached', if_neg]
      rintro ⟨-, hlimit⟩
      have hroom := reached_eq_false_iff (l := { maxRecords := limit }).mpr fun n hn => Nat.lt_of_lt_of_le hlater (hlimit n hn)
      rw [hreached] at hroom
      cases hroom
    | false =>
      have hreached' : ({ maxRecords := limit, cancelled } : Limit).reached done.length = false := hreached
      rw [recordEnds_cons, ← Pending.inQuotes_scan]
      cases hquotes : (p.scan o cs).inQuotes with
      | true =>
        rw [decodeFrom_open hreached hquotes, decodeFrom_open hreached' hquotes, ih _ hlater hfirst]
        simp [Pending.push, hquotes]
      | false =>
        rw [decodeFrom_ended hreached hquotes, decodeFrom_ended hreached' hquotes, if_neg Bool.false_ne_true]
        by_cases hnow : done.length + 1 = k
        · subst hnow
          have hwithin : ∀ n ∈ limit, done.length + 1 ≤ n := reached_eq_false_iff.mp hreached
          rw [if_pos hk, if_pos ⟨by simp, hwithin⟩]
        · have hpasses : cancelled (done.length + 1) = false := hfirst _ (Nat.lt_succ_self _) (by omega)
          have hlater : ((p.scan o cs).record :: done).length < k := by
            rw [List.length_cons]
            omega
          rw [if_neg (by simp [hpasses]), ih {} hlater fun j hj => hfirst j (Nat.lt_of_succ_lt hj)]
          simp [Nat.add_assoc]

/-! ## Prefixes -/

theorem decodeText_limited (o : Options) (text : String) : ∃ d, decodeText o text = .ok d ∧
    ∀ n, decodeLines o { maxRecords := some n } (linesOfText text) = .ok ⟨d.recordList.take n⟩ := by
  obtain ⟨records, hall, hlimited⟩ := decodeFrom_limited (o := o) (Text.lines text.toList) [] {}
  refine ⟨⟨records⟩, hall, fun n => ?_⟩
  have hn := hlimited n nofun
  rwa [List.length_nil, Nat.zero_add] at hn

/-- The signal is given when it is looked at for the `k`-th time, and not before. -/
structure FirstAt (k : Nat) (cancelled : Nat → Bool) : Prop where
  pos : 0 < k
  given : cancelled k = true
  before : ∀ j, 0 < j → j < k → cancelled j = false

theorem decodeLines_cancelled {k : Nat} {cancelled : Nat → Bool} (hk : FirstAt k cancelled) (limit : Option Nat) (text : String) :
    decodeLines o { maxRecords := limit, cancelled } (linesOfText text) =
      if k ≤ recordEnds o false (Text.lines text.toList) ∧ ∀ n ∈ limit, k ≤ n then .error .cancelled
      else decodeLines o { maxRecords := limit } (linesOfText text) := by
  have hlater : ([] : List (List String)).length < k := hk.pos
  rw [decodeLines, linesOfText, decodeFrom_cancelled hk.given (Text.lines text.toList) {} hlater hk.before, List.length_nil, Nat.zero_add]
  rfl

/-- Every text is read. A limit leaves the records before it. A signal stops the reading if so many records within
the limit end at a line end outside quotes, and makes no difference otherwise. -/
theorem decode_isPrefix (o : Options) (text : String) : ∃ d, decodeText o text = .ok d ∧
    (∀ n, ∃ dₙ, decodeLines o { maxRecords := some n } (linesOfText text) = .ok dₙ ∧ dₙ.records = min n d.records ∧
      dₙ.fields = (d.recordList.take n).flatten ∧ (1 ≤ n → dₙ.columns = d.columns)) ∧
    ∀ k limit cancelled, FirstAt k cancelled →
      (decodeLines o { maxRecords := limit, cancelled } (linesOfText text) = .error .cancelled ↔
        k ≤ recordEnds o false (Text.lines text.toList) ∧ ∀ n ∈ limit, k ≤ n) ∧
      (¬(k ≤ recordEnds o false (Text.lines text.toList) ∧ ∀ n ∈ limit, k ≤ n) →
        decodeLines o { maxRecords := limit, cancelled } (linesOfText text) =
          decodeLines o { maxRecords := limit } (linesOfText text)) := by
  obtain ⟨d, hall, hlimited⟩ := decodeText_limited o text
  refine ⟨d, hall, fun n => ⟨_, hlimited n, List.length_take .., rfl, fun hn => ?_⟩, fun k limit cancelled hk => ?_⟩
  · obtain ⟨n, rfl⟩ := Nat.exists_eq_add_of_le' hn
    cases hrecords : d.recordList <;> simp [Decoded.columns, hrecords]
  · have hcompletes : decodeLines o { maxRecords := limit } (linesOfText text) ≠ .error .cancelled := by
      cases limit with
      | none => exact fun h => nomatch hall.symm.trans h
      | some n => exact fun h => nomatch (hlimited n).symm.trans h
    rw [decodeLines_cancelled hk limit text]
    split
    · next hends => exact ⟨⟨fun _ => hends, fun _ => rfl⟩, fun h => absurd hends h⟩
    · next hends => exact ⟨⟨fun h => absurd h hcompletes, fun h => absurd h hends⟩, fun _ => rfl⟩

/-- A field over two lines, and a quote that is not closed: the limit is met behind the first record, and the record
that is closed at the end of the file is not looked at. -/
theorem decode_isPrefix_openQuote : decodeText {} "a,\"x\ny\"\nb,\"z" = .ok ⟨[["a", "x\ny"], ["b", "z"]]⟩ ∧
    (∃ d, decodeLines {} { maxRecords := some 1 } (linesOfText "a,\"x\ny\"\nb,\"z") = .ok d ∧ d.fields = ["a", "x\ny"]) ∧
    decodeLines {} { cancelled := (· == 1) } (linesOfText "a,\"x\ny\"\nb,\"z") = .error .cancelled ∧
    decodeLines {} { cancelled := (· == 2) } (linesOfText "a,\"x\ny\"\nb,\"z") = .ok ⟨[["a", "x\ny"], ["b", "z"]]⟩ := by
  have hdecoded : decodeText {} "a,\"x\ny\"\nb,\"z" = .ok ⟨[["a", "x\ny"], ["b", "z"]]⟩ := by decide +kernel
  have hends : recordEnds {} false (Text.lines "a,\"x\ny\"\nb,\"z".toList) = 1 := by decide +kernel
  have hfirst (k : Nat) (hk : 0 < k) : FirstAt k (· == k) := ⟨hk, by simp, fun j _ hj => by simp; omega⟩
  obtain ⟨d, hall, hlimited, hcancelled⟩ := decode_isPrefix {} "a,\"x\ny\"\nb,\"z"
  rw [hends] at hcancelled
  cases hdecoded.symm.trans hall
  obtain ⟨d₁, hd₁, -, hfields, -⟩ := hlimited 1
  exact ⟨hdecoded, ⟨d₁, hd₁, hfields⟩, (hcancelled 1 none _ (hfirst 1 Nat.one_pos)).1.mpr (by simp),
    ((hcancelled 2 none _ (hfirst 2 Nat.two_pos)).2 (by simp)).trans hdecoded⟩

end SchemaEditor.Csv
