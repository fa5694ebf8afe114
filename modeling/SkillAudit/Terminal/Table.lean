import SkillAudit.Text.Width

/-! Tables with round corners. -/
namespace SkillAudit.Table

def cellLines (cell : String) : List String := Text.splitAt '\n' cell

def cellWidth (cell : String) : Nat := ((cellLines cell).map Text.shownWidth).foldl max 0

def widths (columns : Nat) (rows : List (List String)) : List Nat :=
  (List.range columns).map fun i => (rows.map fun row => cellWidth (row.getD i "")).foldl max 0

def rule (left middle right : String) (widths : List Nat) : String :=
  left ++ String.intercalate middle (widths.map fun n =>
    String.ofList (List.replicate (n + 2) '─')) ++ right

def padCell (width : Nat) (text : String) : String :=
  " " ++ text ++ String.ofList (List.replicate (width - Text.shownWidth text) ' ') ++ " "

def rowLines (widths : List Nat) (row : List String) : List String :=
  let cells := row.map cellLines
  let height := (cells.map List.length).foldl max 1
  (List.range height).map fun i =>
    "│" ++ String.intercalate "│" ((widths.zip cells).map fun (width, lines) =>
      padCell width (lines.getD i "")) ++ "│"

def text (header : List String) (rows : List (List String)) : String :=
  let widths := widths header.length (header :: rows)
  String.intercalate "\n" (
    [rule "╭" "┬" "╮" widths] ++ rowLines widths header ++ [rule "├" "┼" "┤" widths] ++
    rows.flatMap (rowLines widths) ++ [rule "╰" "┴" "╯" widths])

end SkillAudit.Table
