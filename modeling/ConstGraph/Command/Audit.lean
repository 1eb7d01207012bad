import ConstGraph.Command.Markup
import ConstGraph.Session

/-!
# The audit of a project

A summary table counts files, definitions and relations. A second table
lists the circular relations, or all of them, up to a limit; what is left
out is counted in its last row.
-/

namespace ConstGraph

namespace DependencyGraph

variable {σ ν : Type} [Segment σ] [BEq ν] [Storable σ] [Storable ν]

/-- The table that counts what is in a graph. -/
def summaryTable (g : DependencyGraph σ ν) : Table where
  title := "Dependency Graph"
  columns := ["Metric", "Count"]
  rows :=
    [["Files analyzed", toString ((g.files.length : Int) - g.skipped.length)],
      ["Files skipped", toString g.skipped.length],
      ["Definitions", toString g.definitions.length],
      ["Relations", toString g.relations.length],
      ["Circular relations", toString g.circularRelations.length]]

/-- The row of a relation: where it stands, and what it refers to. -/
def relationRow (g : DependencyGraph σ ν) (separator : String) (r : Relation σ ν) : List String :=
  let caller := r.caller.shown separator
  let target := (g.resolve r).shown separator
  let called := if (Storable.toJson r.callee).isBlank then target
    else target ++ "#" ++ Storable.text r.callee
  [Markup.escape (if caller = "" then "(top level)" else caller),
    Markup.escape (Storable.text r.inMethod),
    if g.flags.hasRelation r then "↻" else "→",
    Markup.escape called,
    Markup.escape (Storable.text r.file ++ ":" ++ Storable.text r.line)]

/-- The first relations up to a limit. Below zero the limit counts from the
end. -/
def firstUpTo {α : Type} (limit : Int) (xs : List α) : List α :=
  if 0 ≤ limit then xs.take limit.toNat else xs.take (xs.length - limit.natAbs)

/-- The last row, if more relations are to be listed than the limit. -/
def restRow (limit : Int) (count : Nat) : List (List String) :=
  if limit < count then [["", "", "", s!"... and {(count : Int) - limit} more", ""]] else []

/-- The relations that are listed: all, or the circular ones. -/
def listed (g : DependencyGraph σ ν) (all : Bool) : List (Relation σ ν) :=
  if all then g.relations else g.circularRelations

/-- The table of the relations listed. -/
def relationTable (g : DependencyGraph σ ν) (separator : String) (all : Bool) (limit : Int) :
    Table where
  title := if all then "Relations" else "Circular Relations"
  columns := ["Caller", "Method", "→", "Resolved", "Location"]
  rows := (firstUpTo limit (g.listed all)).map (g.relationRow separator) ++
    restRow limit (g.listed all).length

/-- What an audit prints after its heading. -/
def auditReport (g : DependencyGraph σ ν) (separator : String) (all : Bool) (limit : Int) :
    List Printed :=
  [.table g.summaryTable,
    if (g.listed all).isEmpty then .markup "\n[green]✓ No circular references found[/green]"
    else .table (g.relationTable separator all limit)]

/-! ## Records of any values -/

/-- Why a relation of any values has no row, if it has none: the first thing
in it that cannot be shown. -/
def rowMisfit? (g : DependencyGraph Json Json) (r : Relation Json Json) : Option Misfit :=
  if !(g.resolve r).isTextual then some .incompatible
  else if !r.callee.isBlank && !r.callee.isWritable then some .overlong
  else if !(r.caller.isTextual && r.inMethod.isText) then some .incompatible
  else if !(r.file.isWritable && r.line.isWritable) then some .overlong
  else none

/-- What an audit of records of any values prints after its heading, and
what it breaks off with if it does. -/
def auditValues (g : DependencyGraph Json Json) (separator : String) (all : Bool) (limit : Int) :
    List Printed × Option Misfit :=
  if !g.relations.all (·.isAtomic) then ([], some .incompatible)
  else
    match (firstUpTo limit (g.listed all)).findSome? g.rowMisfit? with
    | some e => ([.table g.summaryTable], some e)
    | none => (g.auditReport separator all limit, none)

end DependencyGraph

end ConstGraph
