import ConstGraph.Cache.Tables

/-!
# Cache tables as JSON

The tables of a cache are kept between runs as one JSON object. Rows that
cannot be read are left out.
-/

namespace ConstGraph

namespace Stamp

/-- A time as a number, or as an array with a number. -/
def toJson : Stamp → Json
  | seconds bits => .int bits.toNat
  | tick count => .arr [.int count]

/-- The time a number or an array stands for. -/
def ofJson? : Json → Option Stamp
  | .int bits => some (seconds (UInt64.ofNat bits.toNat))
  | .arr [.int count] => some (tick count.toNat)
  | _ => none

end Stamp

namespace CacheKey

/-- A key as an array. -/
def toJson (k : CacheKey) : Json :=
  .arr [k.stamp.toJson, .int k.size, .str k.fingerprint]

/-- The key an array stands for. -/
def ofJson? : Json → Option CacheKey
  | .arr [stamp, .int size, .str fingerprint] =>
    (Stamp.ofJson? stamp).map (⟨·, size.toNat, fingerprint⟩)
  | _ => none

end CacheKey

namespace CacheTables

/-- A row of keys as an array. -/
def keyRowJson (row : KeyRow) : Json := .arr [.str row.file, row.key.toJson]

/-- A row of results as an array. -/
def resultRowJson (row : ResultRow) : Json :=
  .arr [.str row.file, .str row.definitions, .str row.relations, row.key.toJson]

/-- The row of keys an array stands for. -/
def keyRow? : Json → Option KeyRow
  | .arr [.str file, key] => (CacheKey.ofJson? key).map (⟨file, ·⟩)
  | _ => none

/-- The row of results an array stands for. -/
def resultRow? : Json → Option ResultRow
  | .arr [.str file, .str definitions, .str relations, key] =>
    (CacheKey.ofJson? key).map (⟨file, definitions, relations, ·⟩)
  | _ => none

/-- The tables as an object. -/
def toJson (t : CacheTables) : Json :=
  .obj [("file_metadata", .arr (t.keys.map keyRowJson)),
    ("file_results", .arr (t.results.map resultRowJson))]

/-- The tables an object stands for. -/
def ofJson (j : Json) : CacheTables :=
  let rows (name : String) := ((j.get? name).bind Json.arr?).getD []
  ⟨(rows "file_metadata").filterMap keyRow?, (rows "file_results").filterMap resultRow?⟩

end CacheTables

end ConstGraph
