/-! Text in columns. -/
namespace ArithAsm.Text

/-- The width of the widest cell of each column. -/
def columnWidths : List (List String) → List Nat
  | [] => []
  | row :: rest =>
    let below := columnWidths rest
    let widths := row.map String.length
    List.zipWith max widths below ++ widths.drop below.length ++ below.drop widths.length

/-- A row whose cells start where their columns do: each cell but the last is
padded to its column's width, and one space follows. -/
def rowText : List Nat → List String → String
  | _, [] => ""
  | _, [cell] => cell
  | widths, cell :: rest =>
    cell ++ "".pushn ' ' (widths.headD 0 - cell.length) ++ " " ++ rowText widths.tail rest

/-- Rows in columns, each ended by a newline, and an empty line after them. -/
def grid (rows : List (List String)) : String :=
  let widths := columnWidths rows
  String.join (rows.map fun row => rowText widths row ++ "\n") ++ "\n"

end ArithAsm.Text
