import CmdletForge.Display.Block
import CmdletForge.Xml.Block

/-!
# CmdletForge.Format.View

Table views, and the document that holds them.

1. A column of a view has a label, and shows a property or what a script computes.  In place of
   a sensitive value it shows a mask, whatever its script is.
2. A width of zero, no alignment and an empty script are not written.
3. The document holds the views in order, and behind them views that are written by hand, as
   they are.
-/

namespace CmdletForge.Format

open Display (Column)
open Xml (Block)

/-! ## Columns and views -/

/-- A column of a view. -/
structure ViewColumn where
  label : String
  width : Nat
  alignment : Display.Alignment
  /-- The property that is shown when there is no script. -/
  property : String
  script : Option String
  deriving DecidableEq, Repr

/-- The script that stands for a value that must not be shown. -/
def mask : String := "'********'"

/-- The column of a view that a column of the display rules becomes. -/
def ViewColumn.ofColumn (c : Column) : ViewColumn where
  label := c.header
  width := c.width
  alignment := c.alignment
  property := c.property.getD c.header
  script := if c.sensitive then some mask else c.script

/-- The table view of a type. -/
structure TableView where
  typeName : String
  columns : List ViewColumn
  deriving DecidableEq, Repr

/-! ## The document -/

namespace ViewColumn

/-- How an alignment is called in a document; it may be nothing. -/
def alignmentName : Display.Alignment → String
  | .unset => ""
  | .left => "Left"
  | .right => "Right"

/-- The header of a column.  Of its texts only the label can hold characters that are escaped; a
width and the name of an alignment come out as they are. -/
def header (c : ViewColumn) : Block :=
  .parent "TableColumnHeader"
    ([Block.leaf "Label" c.label] ++
      (if 0 < c.width then [Block.leaf "Width" (toString c.width)] else []) ++
      (if c.alignment = .unset then [] else [Block.leaf "Alignment" (alignmentName c.alignment)]))

/-- The script of a column, unless it is empty. -/
def script? (c : ViewColumn) : Option String := c.script.filter fun s => !s.isEmpty

def item (c : ViewColumn) : Block :=
  .parent "TableColumnItem"
    [match c.script? with
      | some script => .leaf "ScriptBlock" script
      | none => .leaf "PropertyName" c.property]

end ViewColumn

def TableView.block (v : TableView) : Block :=
  .parent "View"
    [ .leaf "Name" v.typeName,
      .parent "ViewSelectedBy" [.leaf "TypeName" v.typeName],
      .parent "TableControl"
        [ .parent "TableHeaders" (v.columns.map ViewColumn.header),
          .parent "TableRowEntries"
            [.parent "TableRowEntry" [.parent "TableColumnItems" (v.columns.map ViewColumn.item)]]]]

/-- The root element of a document. -/
def rootBlock (views : List TableView) (custom : List String) : Block :=
  .parent "Configuration"
    [.parent "ViewDefinitions" (views.map TableView.block ++ custom.map .given)]

/-- The text of a document. -/
def document (serviceId : String) (views : List TableView) (custom : List String) : String :=
  "<?xml version=\"1.0\" encoding=\"utf-8\"?>\n" ++
    "<!-- Generated by pscmdlet-generator for " ++ serviceId ++ " -->\n" ++
    (rootBlock views custom).print 0

end CmdletForge.Format
