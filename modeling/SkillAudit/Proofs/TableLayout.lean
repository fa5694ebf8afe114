import Mathlib
import SkillAudit.Ledger.Table
import SkillAudit.Proofs.InstantText
import SkillAudit.Proofs.TextLines

/-!
The table of a ledger. Every entry has a line of its own with ten cells, whatever its name, version,
source and purpose are. The digest alone is written as it is: the table holds together exactly when no
digest has a line feed, or a bar that is not escaped, among its first twelve characters.
-/
namespace SkillAudit.Ledger

/-- The bars of a text that end a cell: those with no backslash before them. -/
def openBars (before : Char) : List Char → Nat
  | [] => 0
  | c :: rest => (if c = '|' ∧ before ≠ '\\' then 1 else 0) + openBars c rest

theorem openBars_append (before : Char) (front rest : List Char) :
    openBars before (front ++ rest) =
      openBars before front + openBars (front.getLast?.getD before) rest := by
  induction front generalizing before with
  | nil => simp [openBars]
  | cons c front ih =>
    rw [List.cons_append, openBars, openBars, ih, List.getLast?_cons]
    simp [Nat.add_assoc]

theorem openBars_eq_zero (before : Char) {cs : List Char} (h : '|' ∉ cs) : openBars before cs = 0 := by
  induction cs generalizing before with
  | nil => rfl
  | cons c cs ih =>
    rw [List.mem_cons, not_or] at h
    rw [openBars, ih c h.2, if_neg (fun hc => h.1 hc.1.symm)]

/-- A blank before a bar leaves it open. -/
theorem openBars_fence (before : Char) (front rest : List Char) :
    openBars before (front ++ ' ' :: '|' :: rest) =
      openBars before front + 1 + openBars '|' rest := by
  rw [openBars_append, openBars, openBars]
  simp [Nat.add_assoc]

/-! Cells. -/

theorem openBars_cell (before : Char) (text : String) : openBars before (cell text).toList = 0 := by
  rw [cell, String.toList_ofList]
  induction text.toList generalizing before with
  | nil => rfl
  | cons c cs ih =>
    rw [List.flatMap_cons, openBars_append, ih, Nat.add_zero]
    split
    next => simp [openBars]
    next hbar =>
      split
      next => simp [openBars]
      next => exact openBars_eq_zero before fun hc => hbar (by simp [← List.mem_singleton.mp hc])

theorem feed_not_mem_cell (text : String) : '\n' ∉ (cell text).toList := by
  rw [cell, String.toList_ofList, List.mem_flatMap]
  rintro ⟨c, -, hc⟩
  split at hc
  · simp at hc
  · split at hc
    · simp at hc
    next hend =>
      rw [List.mem_singleton] at hc
      simp [← hc] at hend

def IsPlain (text : String) : Prop := '\n' ∉ text.toList ∧ '|' ∉ text.toList

theorem IsPlain.append {a b : String} (ha : IsPlain a) (hb : IsPlain b) : IsPlain (a ++ b) := by
  simp [IsPlain, ha.1, ha.2, hb.1, hb.2]

theorem isPlain_of_digits {text : String} (h : ∀ c ∈ text.toList, c.isDigit = true) :
    IsPlain text :=
  ⟨fun hc => absurd (h _ hc) (by decide), fun hc => absurd (h _ hc) (by decide)⟩

theorem isPlain_padded (width n : Nat) : IsPlain (Instant.padded width n) :=
  isPlain_of_digits fun _ => Instant.isDigit_of_mem_padded

theorem isPlain_toString (n : Nat) : IsPlain (toString n) :=
  isPlain_of_digits fun c hc => Digits.isDigit_of_mem (n := n) (by simpa [Nat.repr] using hc)

theorem isPlain_date (t : Instant) : IsPlain t.date := by
  have hyear : IsPlain (Instant.yearText t.year) := by
    unfold Instant.yearText
    split
    · exact isPlain_padded _ _
    · refine IsPlain.append ?_ (isPlain_padded _ _)
      split <;> simp [IsPlain]
  have hhyphen : IsPlain "-" := by simp [IsPlain]
  exact (((hyear.append hhyphen).append (isPlain_padded _ _)).append hhyphen).append
    (isPlain_padded _ _)

theorem isPlain_dateMinute (t : Instant) : IsPlain t.dateMinute := by
  have hblank : IsPlain " " := by simp [IsPlain]
  have hcolon : IsPlain ":" := by simp [IsPlain]
  exact ((((isPlain_date t).append hblank).append (isPlain_padded _ _)).append hcolon).append
    (isPlain_padded _ _)

theorem isPlain_statusText (e : LedgerEntry) : IsPlain (statusText e) := by
  have hword : IsPlain e.status.word := by cases e.status <;> simp [EntryStatus.word, IsPlain]
  have hopen : IsPlain " (" := by simp [IsPlain]
  have hclose : IsPlain ")" := by simp [IsPlain]
  unfold statusText
  cases e.revokedAt with
  | none => exact hword
  | some t => exact ((hword.append hopen).append (isPlain_date t)).append hclose

/-! Lines. -/

/-- The line of an entry, without its end. -/
def entryLine (e : LedgerEntry) : String :=
  "| " ++ String.intercalate " | " (rowCells e) ++ " |"

theorem row_eq (e : LedgerEntry) : row e = entryLine e ++ "\n" := by
  simp [row, entryLine, String.append_assoc]

/-- Every cell stands between two blanks, with a bar after them. -/
theorem toList_fenced {cells : List String} (hne : cells ≠ []) :
    ("| " ++ String.intercalate " | " cells ++ " |").toList =
      '|' :: cells.flatMap fun c => ' ' :: (c.toList ++ [' ', '|']) := by
  simp only [String.toList_append, String.toList_intercalate]
  induction cells with
  | nil => exact absurd rfl hne
  | cons c cells ih =>
    cases cells with
    | nil => simp
    | cons d cells =>
      have hrest := ih (by simp)
      simp only [List.map_cons, List.intercalate, List.intersperse_cons_cons,
        List.flatten_cons] at hrest ⊢
      simp_all

/-- A line of cells has a bar more than it has cells, and those that are open in its cells. -/
theorem openBars_fenced (before : Char) (cells : List String) :
    openBars before (cells.flatMap fun c => ' ' :: (c.toList ++ [' ', '|'])) =
      cells.length + (cells.map fun c => openBars ' ' c.toList).sum := by
  induction cells generalizing before with
  | nil => rfl
  | cons c cells ih =>
    rw [List.flatMap_cons, List.cons_append, openBars, List.append_assoc, List.cons_append,
      List.cons_append, List.nil_append, openBars_fence, ih, List.map_cons, List.sum_cons,
      List.length_cons]
    simp only [Char.reduceEq, false_and, if_false]
    omega

/-- The lines before those of the entries. -/
def headLines (entries : List LedgerEntry) : List String :=
  let s := LedgerStats.ofEntries entries
  ["# Skill Ledger", "", toString s.total ++ " entries: " ++ toString s.approved ++ " approved, " ++
      toString s.blocked ++ " blocked, " ++ toString s.revoked ++ " revoked", "",
    "| Date | Name | Version | Status | Approver | Score | Risk | Hash | Source | Purpose |",
    "|------|------|---------|--------|----------|------:|------|------|--------|---------|"]

theorem markdown_eq {entries : List LedgerEntry} (hne : entries ≠ []) :
    markdown entries =
      String.join ((headLines entries ++ entries.map entryLine).map (· ++ "\n")) := by
  have hrows : entries.map row = (entries.map entryLine).map (· ++ "\n") := by
    rw [List.map_map]
    exact List.map_congr_left fun e _ => row_eq e
  have htitle : "# Skill Ledger\n\n" = "# Skill Ledger" ++ "\n" ++ ("" ++ "\n") := rfl
  have hsummary : " revoked\n\n" = " revoked" ++ "\n" ++ ("" ++ "\n") := rfl
  have hhead : tableHead =
      "| Date | Name | Version | Status | Approver | Score | Risk | Hash | Source | Purpose |" ++ "\n" ++
      ("|------|------|---------|--------|----------|------:|------|------|--------|---------|" ++
        "\n") := rfl
  unfold markdown headLines
  simp only [List.isEmpty_iff, hne, if_false, hrows, hhead, List.map_append, String.join_append]
  rw [htitle, hsummary]
  simp only [List.map_cons, List.map_nil, String.join_cons, String.join_nil, String.append_assoc,
    String.append_empty]

theorem feed_not_mem_headLines (entries : List LedgerEntry) :
    ∀ l ∈ headLines entries, '\n' ∉ l.toList ∧ l.toList.getLast? ≠ some '\r' := by
  have hnumber : ∀ n : Nat, '\n' ∉ (toString n).toList := fun n => (isPlain_toString n).1
  simp only [headLines, List.forall_mem_cons]
  refine ⟨by decide, by decide, ⟨?_, ?_⟩, by decide, by decide, by decide, by simp⟩
  · simp only [String.toList_append, List.mem_append, hnumber, or_false, false_or]
    decide
  · have hlast : " revoked".toList.getLast? = some 'd' := by decide
    rw [String.toList_append, List.getLast?_append, hlast]
    simp

/-! Entries. -/

/-- A digest with no line feed and no open bar among its first twelve characters. -/
def IsTidy (hash : String) : Prop :=
  '\n' ∉ (shortHash hash).toList ∧ openBars '`' (shortHash hash).toList = 0

instance (hash : String) : Decidable (IsTidy hash) := inferInstanceAs (Decidable (_ ∧ _))

/-- The digest alone may bring open bars into the line of its entry. -/
theorem openBars_entryLine (e : LedgerEntry) :
    openBars ' ' (entryLine e).toList = 11 + openBars '`' (shortHash e.hash).toList := by
  have hdate : '|' ∉ ((e.date.map Instant.dateMinute).getD "").toList := by
    cases e.date with
    | none => simp
    | some t => exact (isPlain_dateMinute t).2
  have happrover : '|' ∉ e.approver.word.toList := by cases e.approver <;> decide
  have hrisk : '|' ∉ e.risk.word.toList := by cases e.risk <;> decide
  have hhash : openBars ' ' ("`" ++ shortHash e.hash ++ "`").toList =
      openBars '`' (shortHash e.hash).toList := by
    simp [openBars_append, openBars]
  rw [entryLine, toList_fenced (by simp [rowCells]), openBars, openBars_fenced, rowCells]
  simp only [List.map_cons, List.map_nil, List.sum_cons, List.sum_nil, List.length_cons,
    List.length_nil, openBars_cell, openBars_eq_zero _ hdate, openBars_eq_zero _ happrover,
    openBars_eq_zero _ hrisk, openBars_eq_zero _ (isPlain_statusText e).2,
    openBars_eq_zero _ (isPlain_toString _).2, hhash]
  simp only [Char.reduceEq, ne_eq, not_false_eq_true, and_self, if_true]
  omega

/-- The digest alone may bring a line feed into it. -/
theorem feed_mem_entryLine (e : LedgerEntry) :
    '\n' ∈ (entryLine e).toList ↔ '\n' ∈ (shortHash e.hash).toList := by
  have hdate : '\n' ∉ ((e.date.map Instant.dateMinute).getD "").toList := by
    cases e.date with
    | none => simp
    | some t => exact (isPlain_dateMinute t).1
  have happrover : '\n' ∉ e.approver.word.toList := by cases e.approver <;> decide
  have hrisk : '\n' ∉ e.risk.word.toList := by cases e.risk <;> decide
  have hscore : '\n' ∉ Nat.toDigits 10 e.score.toNat := fun hc =>
    absurd (Digits.isDigit_of_mem hc) (by decide)
  rw [entryLine, toList_fenced (by simp [rowCells]), rowCells]
  simp [feed_not_mem_cell, hdate, happrover, hrisk, (isPlain_statusText e).1, hscore]

/-- A document with a line for every entry in order after its head, where each of these lines has the
eleven bars of ten cells. -/
structure IsTable (entries : List LedgerEntry) : Prop where
  lines : Text.lines (markdown entries) = headLines entries ++ entries.map entryLine
  bars : ∀ e ∈ entries, openBars ' ' (entryLine e).toList = 11

theorem lines_markdown {entries : List LedgerEntry} (hne : entries ≠ [])
    (h : ∀ e ∈ entries, '\n' ∉ (shortHash e.hash).toList) :
    Text.lines (markdown entries) = headLines entries ++ entries.map entryLine := by
  have hentry : ∀ e ∈ entries, '\n' ∉ (entryLine e).toList ∧
      (entryLine e).toList.getLast? ≠ some '\r' := by
    intro e he
    have hlast : " |".toList.getLast? = some '|' := by decide
    refine ⟨fun hfeed => h e he ((feed_mem_entryLine e).mp hfeed), ?_⟩
    rw [entryLine, String.toList_append, List.getLast?_append, hlast]
    simp
  have hall : ∀ l ∈ headLines entries ++ entries.map entryLine,
      '\n' ∉ l.toList ∧ l.toList.getLast? ≠ some '\r' := by
    rw [List.forall_mem_append, List.forall_mem_map]
    exact ⟨feed_not_mem_headLines entries, hentry⟩
  rw [markdown_eq hne, Text.lines_join (fun l hl => (hall l hl).1) fun l hl => (hall l hl).2]

/-- The document of a ledger is a table exactly when every digest is tidy. Its names, versions,
sources and purposes may be any texts. -/
theorem markdown_isTable_iff {entries : List LedgerEntry} (hne : entries ≠ []) :
    IsTable entries ↔ ∀ e ∈ entries, IsTidy e.hash := by
  constructor
  · intro h e he
    have hline : entryLine e ∈ Text.lines (markdown entries) := by
      rw [h.lines]
      exact List.mem_append_right _ (List.mem_map_of_mem he)
    refine ⟨fun hfeed => Text.feed_not_mem_lines hline ((feed_mem_entryLine e).mpr hfeed), ?_⟩
    have hbars := h.bars e he
    rw [openBars_entryLine] at hbars
    omega
  · intro h
    refine ⟨lines_markdown hne fun e he => (h e he).1, fun e he => ?_⟩
    rw [openBars_entryLine, (h e he).2]

/-- An entry that has been approved by hand, with a digest as it may stand in a file. -/
def handEdited (hash : String) : LedgerEntry where
  name := "a|b\n\\"
  version := some "\\|"
  source := none
  score := 92
  risk := .low
  hash
  date := none
  status := .approved
  approver := .human
  purpose := some "|"
  findingsCount := none
  revokedAt := none

/-- Bars and line feeds in a name, a backslash at its end, and bars in a digest after a backslash or
after the twelfth character leave the table as it is. -/
theorem markdown_isTable_iff_edited : IsTable [handEdited "\\|", handEdited "0123456789aé|\n"] := by
  refine (markdown_isTable_iff (by simp)).mpr ?_
  simp only [List.forall_mem_cons]
  exact ⟨by decide, by decide, by simp⟩

theorem bar_in_digest_opens_cell :
    ¬ IsTable [handEdited "|"] ∧ openBars ' ' (entryLine (handEdited "|")).toList = 12 := by
  have hbars : openBars ' ' (entryLine (handEdited "|")).toList = 12 := by
    rw [openBars_entryLine]
    decide
  refine ⟨fun h => ?_, hbars⟩
  have hten := h.bars (handEdited "|") (by simp)
  omega

end SkillAudit.Ledger
