import SchemaEditor.Proofs.Sql.Words
import SchemaEditor.Table.Parser

/-!
# Reading printed text

`Reads r cs a rest` says that from any place before `cs` and `rest`, the reader `r` takes `cs`, gives `a` and stops
before `rest`. What follows matters, since readers look ahead. Blanks in front of a token do not.
-/

namespace SchemaEditor

theorem isBlank_space : ∀ x ∈ [' '], Text.isBlank x = true := List.all_eq_true.mp (by decide)

theorem isBlank_tab : ∀ x ∈ "\t".toList, Text.isBlank x = true := List.all_eq_true.mp (by decide)

theorem isBlank_newline : ∀ x ∈ ['\n'], Text.isBlank x = true := List.all_eq_true.mp (by decide)

theorem isBlank_newline_tab : ∀ x ∈ ['\n', '\t'], Text.isBlank x = true := List.all_eq_true.mp (by decide)

/-- The cursor stands before `cs`, but for blanks. -/
def Cursor.Before (c : Cursor) (cs : List Char) : Prop :=
  ∃ pos g, (∀ x ∈ g, Text.isBlank x = true) ∧ c.rest = tokensFrom pos (g ++ cs)

namespace Cursor

variable {c : Cursor}

theorem before_start (s : String) : (start s).Before s.toList := ⟨0, [], by simp, rfl⟩

theorem Before.of_blank {g cs : List Char} (hg : ∀ x ∈ g, Text.isBlank x = true) (h : c.Before (g ++ cs)) : c.Before cs := by
  obtain ⟨pos, g', hg', hc⟩ := h
  refine ⟨pos, g' ++ g, ?_, by rw [hc, List.append_assoc]⟩
  intro x hx
  exact (List.mem_append.mp hx).elim (hg' x) (hg x)

/-- The first token of the text is the current one. -/
theorem Before.token {w rest : List Char} {k : TokenKind} (hw : IsToken w k rest) (h : c.Before (w ++ rest)) :
    c.current.kind = k ∧ c.current.text = w ∧ c.advance.Before rest := by
  obtain ⟨pos, g, hg, hc⟩ := h
  rw [tokensFrom_blank_append hg, hw.tokensFrom] at hc
  refine ⟨by simp [current, hc, indent], by simp [current, hc, indent], ?_⟩
  exact ⟨_, [], by simp, by simp [advance, hc, indent]; rfl⟩

theorem Before.end (h : c.Before []) : c.current.kind = .eof := by
  obtain ⟨pos, g, hg, hc⟩ := h
  have hend : splitGap .blank ([] : List Char) = ([], []) := rfl
  rw [tokensFrom_blank_append hg, tokensFrom_end hend] at hc
  simp [current, hc, indent]

theorem following_eq (c : Cursor) : c.following = c.advance.current := rfl

end Cursor

/-- The kind of the first token of a text. -/
def Starts (cs : List Char) (k : TokenKind) : Prop := ∀ c : Cursor, c.Before cs → c.current.kind = k

theorem IsToken.starts {w rest : List Char} {k : TokenKind} (h : IsToken w k rest) : Starts (w ++ rest) k :=
  fun _ hc => (hc.token h).1

theorem starts_nil : Starts [] .eof := fun _ hc => hc.end

theorem Starts.blank {g cs : List Char} {k : TokenKind} (hg : ∀ x ∈ g, Text.isBlank x = true) (h : Starts cs k) :
    Starts (g ++ cs) k := fun c hc => h c (hc.of_blank hg)

namespace Reader

variable {α β : Type}

def Reads (r : Reader α) (cs : List Char) (a : α) (rest : List Char) : Prop :=
  ∀ c : Cursor, c.Before (cs ++ rest) → ∃ c', r c = .ok a c' ∧ c'.Before rest ∧ c'.discarded = c.discarded

theorem Reads.pure (a : α) (rest : List Char) : Reads (Pure.pure a) [] a rest :=
  fun c hc => ⟨c, rfl, hc, rfl⟩

theorem bind_eq_of_ok {r : Reader α} {f : α → Reader β} {c c' : Cursor} {a : α} (h : r c = .ok a c') :
    (r >>= f) c = f a c' := by
  change EStateM.bind r f c = _
  rw [EStateM.bind, h]

theorem Reads.bind {r : Reader α} {f : α → Reader β} {cs ds rest : List Char} {a : α} {b : β}
    (hr : Reads r cs a (ds ++ rest)) (hf : Reads (f a) ds b rest) : Reads (r >>= f) (cs ++ ds) b rest := by
  intro c hc
  rw [List.append_assoc] at hc
  obtain ⟨c₁, h₁, hb₁, hd₁⟩ := hr c hc
  obtain ⟨c₂, h₂, hb₂, hd₂⟩ := hf c₁ hb₁
  exact ⟨c₂, by rw [bind_eq_of_ok h₁, h₂], hb₂, hd₂.trans hd₁⟩

/-- A look at what comes next takes nothing. -/
theorem Reads.look {r : Reader α} {f : α → Reader β} {cs rest : List Char} {a : α} {b : β}
    (hr : Reads r [] a (cs ++ rest)) (hf : Reads (f a) cs b rest) : Reads (r >>= f) cs b rest :=
  Reads.bind hr hf

/-- What follows takes nothing more. -/
theorem Reads.andThen {r : Reader α} {f : α → Reader β} {cs rest : List Char} {a : α} {b : β}
    (hr : Reads r cs a rest) (hf : Reads (f a) [] b rest) : Reads (r >>= f) cs b rest := by
  have h : Reads (r >>= f) (cs ++ []) b rest := Reads.bind hr hf
  rwa [List.append_nil] at h

/-- What the reader does may depend on the place, as long as what it comes to does not. -/
theorem Reads.mark {f : Nat → Reader β} {cs rest : List Char} {b : β} (h : ∀ m, Reads (f m) cs b rest) :
    Reads (Reader.mark >>= f) cs b rest :=
  fun c hc => h c.read.length c hc

theorem Reads.current {f : Token → Reader β} {cs rest : List Char} {b : β} {k : TokenKind} (hk : Starts (cs ++ rest) k)
    (h : ∀ t, t.kind = k → Reads (f t) cs b rest) : Reads (Reader.current >>= f) cs b rest :=
  fun c hc => h c.current (hk c hc) c hc

theorem Reads.following {f : Token → Reader β} {cs rest : List Char} {b : β} (h : ∀ t, Reads (f t) cs b rest) :
    Reads (Reader.following >>= f) cs b rest :=
  fun c hc => h c.following c hc

theorem Reads.blank {r : Reader α} {g cs rest : List Char} {a : α} (hg : ∀ x ∈ g, Text.isBlank x = true)
    (h : Reads r cs a rest) : Reads r (g ++ cs) a rest := by
  intro c hc
  rw [List.append_assoc] at hc
  exact h c (hc.of_blank hg)

/-- Blanks that are left over belong to nothing. -/
theorem Reads.blank_rest {r : Reader α} {g cs rest : List Char} {a : α} (hg : ∀ x ∈ g, Text.isBlank x = true)
    (h : Reads r cs a (g ++ rest)) : Reads r (cs ++ g) a rest := by
  intro c hc
  rw [List.append_assoc] at hc
  obtain ⟨c', hr, hb, hd⟩ := h c hc
  exact ⟨c', hr, hb.of_blank hg, hd⟩

/-! ## Single tokens -/

theorem reads_skip {w rest : List Char} {k : TokenKind} (hw : IsToken w k rest) : Reads skip w () rest :=
  fun c hc => ⟨c.advance, rfl, (hc.token hw).2.2, rfl⟩

theorem reads_atKind {rest : List Char} {k : TokenKind} (h : Starts rest k) (k' : TokenKind) :
    Reads (atKind k') [] (k == k') rest :=
  fun c hc => ⟨c, by rw [← h c hc]; rfl, hc, rfl⟩

theorem reads_atKeyword {rest : List Char} {k : TokenKind} (h : Starts rest k) (k' : Keyword) :
    Reads (atKeyword k') [] (k.keyword? == some k') rest :=
  fun c hc => ⟨c, by rw [← h c hc]; rfl, hc, rfl⟩

theorem reads_atWord {rest : List Char} {k : TokenKind} (h : Starts rest k) (w : String) :
    Reads (atWord w) [] (k.isWord w) rest :=
  fun c hc => ⟨c, by rw [← h c hc]; rfl, hc, rfl⟩

theorem reads_expectKind {w rest : List Char} {k : TokenKind} (hw : IsToken w k rest) : Reads (expectKind k) w () rest :=
  .look (reads_atKind hw.starts k) (by simpa using reads_skip hw)

theorem reads_expectKeyword {w rest : List Char} {k : Keyword} (hw : IsToken w (.keyword k) rest) :
    Reads (expectKeyword k) w () rest :=
  .look (reads_atKeyword hw.starts k) (by simpa [TokenKind.keyword?] using reads_skip hw)

theorem reads_expectWord {w rest : List Char} {k : TokenKind} {s : String} (hw : IsToken w k rest)
    (hk : k.isWord s = true) : Reads (expectWord s) w () rest :=
  .look (reads_atWord hw.starts s) (by simpa [hk] using reads_skip hw)

theorem reads_nameToken {w rest : List Char} {name : String} (hw : IsToken w (.identifier name) rest) :
    Reads expectName w name rest := by
  intro c hc
  refine ⟨c.advance, ?_, (hc.token hw).2.2, rfl⟩
  have hname : nameOf? c.current = some name := by rw [nameOf?, (hc.token hw).1]
  unfold expectName
  rw [bind_eq_of_ok (show current c = .ok c.current c from rfl), hname]
  rfl

theorem reads_expectName (name : String) {rest : List Char} (hrest : rest.head? ≠ some '\x60') :
    Reads expectName (quoteIdentifier name).toList name rest :=
  reads_nameToken (isToken_quoteIdentifier name hrest)

end Reader

end SchemaEditor
