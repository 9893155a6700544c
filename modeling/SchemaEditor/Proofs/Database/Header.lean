import SchemaEditor.Database.File
import SchemaEditor.Proofs.Database.Listing
import SchemaEditor.Proofs.Engine.Tables

/-!
# The header of a file

However a file comes in pieces, the buffer holds its first bytes. Where the file ends the buffer stays zero, and
the header's only zero is its last byte. So a file that stops right before that byte passes for a database;
apart from it the check is exact, and opening refuses what fails the check and nothing else.
-/

namespace SchemaEditor

/-! ## The buffer -/

/-- The buffer holds the first bytes of the file. -/
theorem fillBuffer_eq_take {pieces : List (List UInt8)} (h : ∀ piece ∈ pieces, piece ≠ []) (room : Nat) :
    fillBuffer room pieces = pieces.flatten.take room := by
  induction pieces generalizing room with
  | nil => rw [fillBuffer, List.flatten_nil, List.take_nil]
  | cons piece pieces ih =>
    have hpiece : piece ≠ [] := h piece List.mem_cons_self
    rw [fillBuffer, List.flatten_cons, List.take_append]
    by_cases hroom : room = 0
    · subst hroom
      simp
    · have htaken : (piece.take room).isEmpty = false := by simp [hroom, hpiece]
      rw [if_neg (by simp [htaken]), ih (fun p hp => h p (List.mem_cons_of_mem _ hp)), List.length_take]
      congr 2
      omega

theorem fillBuffer_singleton (room : Nat) (piece : List UInt8) : fillBuffer room [piece] = piece.take room := by
  by_cases h : (piece.take room).isEmpty = true
  · rw [fillBuffer, if_pos h, List.isEmpty_iff.mp h]
  · rw [fillBuffer, if_neg h, fillBuffer, List.append_nil]

/-- Zeros make a text up to one that ends in its only zero if the text is this one, or lacks the zero alone. -/
theorem rightpad_eq_concat_iff {read mark : List UInt8} (hmark : 0 ∉ mark) (hlength : read.length ≤ mark.length + 1) :
    read.rightpad (mark.length + 1) 0 = mark ++ [0] ↔ read = mark ++ [0] ∨ read = mark := by
  unfold List.rightpad
  constructor
  · intro hpad
    obtain hfull | ⟨missing, hmissing⟩ : mark.length + 1 - read.length = 0 ∨
        ∃ missing, mark.length + 1 - read.length = missing + 1 :=
      (Nat.eq_zero_or_eq_succ_pred _).imp_right fun h => ⟨_, h⟩
    · rw [hfull, List.replicate_zero, List.append_nil] at hpad
      exact .inl hpad
    · rw [hmissing, List.replicate_succ', ← List.append_assoc] at hpad
      have hread : read ++ List.replicate missing 0 = mark := List.append_inj_left' hpad rfl
      cases missing with
      | zero => exact .inr (by simpa using hread)
      | succ n => exact absurd (hread ▸ by simp) hmark
  · rintro (rfl | rfl)
    · simp
    · simp [List.replicate_one]

/-! ## The check -/

/-- A file that holds nothing, or begins as a database does. -/
def BeginsDatabase (content : List UInt8) : Prop := content = [] ∨ databaseHeader <+: content

instance (content : List UInt8) : Decidable (BeginsDatabase content) := inferInstanceAs (Decidable (_ ∨ _))

theorem dropLast_databaseHeader : databaseHeader = databaseHeader.dropLast ++ [0] ∧ 0 ∉ databaseHeader.dropLast := by
  decide +kernel

/-- The check takes a file for a database if it is empty or begins with the header, or is the header less its last
byte. -/
theorem hasHeader_iff {pieces : List (List UInt8)} (h : ∀ piece ∈ pieces, piece ≠ []) :
    hasHeader pieces = true ↔ BeginsDatabase pieces.flatten ∨ pieces.flatten = databaseHeader.dropLast := by
  obtain ⟨hheader, hmark⟩ := dropLast_databaseHeader
  rw [hasHeader, fillBuffer_eq_take h, BeginsDatabase, or_assoc, Bool.or_eq_true, beq_iff_eq, List.isEmpty_iff]
  generalize databaseHeader.dropLast = mark at hheader hmark ⊢
  generalize pieces.flatten = content
  rw [hheader, List.length_append, List.length_singleton, rightpad_eq_concat_iff hmark (List.length_take_le ..)]
  have hbegins : content.take (mark.length + 1) = mark ++ [0] ↔ mark ++ [0] <+: content := by
    rw [List.prefix_iff_eq_take, List.length_append, List.length_singleton, eq_comm]
  have hstops : content.take (mark.length + 1) = mark ↔ content = mark := by
    refine ⟨fun htake => ?_, fun h => h ▸ List.take_of_length_le (Nat.le_succ _)⟩
    have hlength : min (mark.length + 1) content.length = mark.length := by rw [← List.length_take, htake]
    rwa [List.take_of_length_le (by omega)] at htake
  have hempty : content.take (mark.length + 1) = [] ↔ content = [] := by simp
  rw [hbegins, hstops, hempty]

/-- How the file is cut into pieces makes no difference. -/
theorem hasHeader_flatten {pieces : List (List UInt8)} (h : ∀ piece ∈ pieces, piece ≠ []) :
    hasHeader [pieces.flatten] = hasHeader pieces := by
  rw [hasHeader, fillBuffer_singleton, hasHeader, fillBuffer_eq_take h]

/-! ## Opening -/

variable {σ φ : Type} [Storage σ φ] {path : String} {content : List UInt8} {o : DatabaseOptions}

theorem contentOf_bytes_eq_notADatabase :
    contentOf (σ := σ) path (.bytes content) o = .error (.notADatabase path) ↔ hasHeader [content] = false := by
  rw [contentOf]
  by_cases hheader : hasHeader [content] = true
  · rw [if_pos hheader, hheader, contentOfBytes]
    split
    · simp
    · cases Storage.read σ content <;> simp [Except.mapError]
  · rw [if_neg hheader]
    simpa using hheader

variable [Engine σ]

/-- What goes wrong when the catalog is read is the engine's. -/
theorem Op.ends_refreshCatalog_engine (s : Session σ) :
    (refreshCatalog Signal.never).Ends s (fun _ _ => True) fun e _ => ∃ cause, e = .engine cause := by
  refine ends_bind (ends_session ?_)
  cases Engine.schema s.engine with
  | error cause => exact ends_bind (ends_of_error rfl ⟨cause, rfl⟩)
  | ok rows =>
    refine ends_bind (ends_of_ok rfl (ends_bind ((onlyReads_readObjects rows s).mono (fun _ _ _ => ?_) fun _ _ => False.elim)))
    exact ends_pure (ends_bind (ends_of_ok rfl (ends_pure trivial)))

namespace Session

theorem start_ne_notADatabase (engine : σ) (location : Option String) : start engine location ≠ .error (.notADatabase path) := by
  unfold start
  split
  · nofun
  · next hrun =>
    obtain ⟨cause, rfl⟩ := (Op.ends_refreshCatalog_engine _).error hrun
    nofun

/-- Whoever opens a file is told that it is no database if and only if it fails the check. -/
theorem openFile_bytes_eq_notADatabase :
    openFile (σ := σ) path (.bytes content) o = .error (.notADatabase path) ↔ hasHeader [content] = false := by
  have hcontent : contentOf (σ := σ) path (.bytes content) o = .error (.notADatabase path) ↔ hasHeader [content] = false :=
    contentOf_bytes_eq_notADatabase
  rw [← hcontent]
  unfold openFile connect
  cases contentOf (σ := σ) path (.bytes content) o with
  | error e => exact ⟨fun h => by cases h; rfl, fun h => by cases h; rfl⟩
  | ok found =>
    refine ⟨fun h => ?_, nofun⟩
    let engine : σ := Storage.openFile found { foreignKeys := o.foreignKeys, readOnly := o.readOnly }
    have hstart : start engine (some path) ≠ .error (.notADatabase path) := start_ne_notADatabase engine (some path)
    change (start engine (some path) >>= fun s => .ok (s.report (.noted (.opened path)))) = _ at h
    cases hrun : start engine (some path) with
    | ok s => rw [hrun] at h; cases h
    | error e => rw [hrun] at h; cases h; exact absurd hrun hstart

/-- The check, and with it the opening of a file, is exact for every content but the header less its last byte. -/
theorem openFile_checksHeader {pieces : List (List UInt8)} (h : ∀ piece ∈ pieces, piece ≠ []) :
    (hasHeader pieces = true ↔ BeginsDatabase pieces.flatten ∨ pieces.flatten = databaseHeader.dropLast) ∧
    ∀ (path : String) (o : DatabaseOptions), openFile (σ := σ) path (.bytes pieces.flatten) o = .error (.notADatabase path) ↔
      ¬BeginsDatabase pieces.flatten ∧ pieces.flatten ≠ databaseHeader.dropLast := by
  refine ⟨hasHeader_iff h, fun path o => ?_⟩
  rw [openFile_bytes_eq_notADatabase (σ := σ), ← Bool.not_eq_true, hasHeader_flatten h, hasHeader_iff h, not_or]

/-- A file of fifteen bytes passes, however it is read; a file of text does not. -/
theorem openFile_checksHeader_stopsShort :
    (hasHeader [databaseHeader.take 6, (databaseHeader.drop 6).dropLast] = true ∧
      ∀ path o, openFile (σ := Shell Tables) path (.bytes databaseHeader.dropLast) o ≠ .error (.notADatabase path)) ∧
    hasHeader ["just some".toUTF8.toList, " text".toUTF8.toList] = false ∧
      ∀ path o, openFile (σ := Shell Tables) path (.bytes "just some text".toUTF8.toList) o = .error (.notADatabase path) := by
  have hshort : [databaseHeader.take 6, (databaseHeader.drop 6).dropLast].flatten = databaseHeader.dropLast := by decide +kernel
  have htext : ["just some".toUTF8.toList, " text".toUTF8.toList].flatten = "just some text".toUTF8.toList := by decide +kernel
  have hplain : ¬BeginsDatabase "just some text".toUTF8.toList ∧ "just some text".toUTF8.toList ≠ databaseHeader.dropLast := by
    decide +kernel
  constructor
  · have hpieces : ∀ piece ∈ [databaseHeader.take 6, (databaseHeader.drop 6).dropLast], piece ≠ [] := by decide +kernel
    obtain ⟨hpass, hopen⟩ := openFile_checksHeader (σ := Shell Tables) hpieces
    rw [hshort] at hpass hopen
    exact ⟨hpass.mpr (.inr rfl), fun path o h => ((hopen path o).mp h).2 rfl⟩
  · have hpieces : ∀ piece ∈ ["just some".toUTF8.toList, " text".toUTF8.toList], piece ≠ [] := by decide +kernel
    obtain ⟨hpass, hopen⟩ := openFile_checksHeader (σ := Shell Tables) hpieces
    rw [htext] at hpass hopen
    exact ⟨by rw [← Bool.not_eq_true, hpass, not_or]; exact hplain, fun path o => (hopen path o).mpr hplain⟩

end Session

end SchemaEditor
