import ConstGraph.Json.Reader
import ConstGraph.Mismatch

/-!
# Cached results

Two tables keep what was found in each file: one holds the key a file had
when it was analysed, the other the definitions and relations as JSON
text. An entry counts as long as the file's key is the same.

The texts are read back without trust: an entry that cannot be read is as
good as none.
-/

namespace ConstGraph

/-- When something was changed, as far as times are told apart. -/
inductive Stamp where
  /-- So many seconds, by the bits of the number. -/
  | seconds (bits : UInt64)
  /-- At some tick of the clock. -/
  | tick (count : Nat)
  deriving DecidableEq, Repr

/-- What an entry depends on. -/
structure CacheKey where
  /-- When the file was last changed. -/
  stamp : Stamp
  /-- The size of the file in bytes. -/
  size : Nat
  /-- The version and the settings that matter. -/
  fingerprint : String
  deriving DecidableEq, Repr

/-- The stored results of a file. -/
structure ResultRow where
  /-- The file. -/
  file : String
  /-- Its definitions as JSON text. -/
  definitions : String
  /-- Its relations as JSON text. -/
  relations : String
  /-- The key it had. -/
  key : CacheKey
  deriving DecidableEq, Repr

/-- The key of a file. -/
structure KeyRow where
  /-- The file. -/
  file : String
  /-- The key it had. -/
  key : CacheKey
  deriving DecidableEq, Repr

/-- The tables of a cache. -/
structure CacheTables where
  /-- The key of each file. -/
  keys : List KeyRow := []
  /-- The results of each file. -/
  results : List ResultRow := []
  deriving DecidableEq, Repr

/-- How much a cache holds. -/
structure CacheStats where
  /-- The number of files. -/
  files : Nat
  /-- The number of definitions. -/
  definitions : Nat
  /-- The number of relations. -/
  relations : Nat
  deriving DecidableEq, Repr

/-- Why stored texts cannot be used. -/
inductive StoredError where
  /-- A stored value has no length. -/
  | uncountable
  /-- A stored number is too long to be read. -/
  | tooManyDigits (count : Nat)
  /-- A stored value nests too deep to be read. -/
  | tooDeep
  /-- A number is too long to be stored. -/
  | overlong
  deriving DecidableEq, Repr

/-- The text of an error of stored texts. -/
def StoredError.message : StoredError → String
  | uncountable => ""
  | tooManyDigits count =>
    s!"Exceeds the limit ({Json.maxDigits} digits) for integer string conversion: " ++
      s!"value has {count} digits; use sys.set_int_max_str_digits() to increase the limit"
  | tooDeep => ""
  | overlong => overlongMessage

/-- The records a text holds; none if it cannot be read, unless it nests too
deep for that to be told. -/
def storedRecords {α : Type} (read : Json → Except RecordError α) (text : String) :
    Except StoredError (Option (List α)) :=
  match Json.parse text with
  | .error .tooDeep => .error .tooDeep
  | .error _ => .ok none
  | .ok j =>
    match j.elements? with
    | none => .ok none
    | some xs =>
      match xs.mapM read with
      | .ok rs => .ok (some rs)
      | .error _ => .ok none

/-- No number in some results is too long to be stored. -/
def WalkResult.isStorable (r : WalkResult Json Json) : Bool :=
  Json.areWritable (r.definitions.map Definition.toJson) &&
    Json.areWritable (r.relations.map Relation.toJson)

/-- Records as the text that is stored. -/
def storedText {α : Type} (write : α → Json) (rs : List α) : String :=
  (Json.arr (rs.map write)).render .oneLine

namespace ResultRow

/-- The row of a file. -/
def ofResult (file : String) (key : CacheKey) (r : WalkResult Json Json) : ResultRow :=
  ⟨file, storedText Definition.toJson r.definitions, storedText Relation.toJson r.relations, key⟩

/-- The results in a row, if they can be read. The relations are looked at
only if the definitions can be. -/
def result? (row : ResultRow) : Except StoredError (Option (WalkResult Json Json)) := do
  match ← storedRecords Definition.ofJson row.definitions with
  | none => return none
  | some definitions =>
    match ← storedRecords Relation.ofJson row.relations with
    | none => return none
    | some relations => return some ⟨definitions, relations⟩

end ResultRow

namespace CacheTables

/-- The key a file had when it was analysed. -/
def key? (t : CacheTables) (file : String) : Option CacheKey :=
  (t.keys.find? (·.file == file)).map (·.key)

/-- The stored results of a file. -/
def row? (t : CacheTables) (file : String) : Option ResultRow :=
  t.results.find? (·.file == file)

/-- The file was analysed when it had this key. -/
def isCurrent (t : CacheTables) (file : String) (key : CacheKey) : Bool :=
  t.key? file == some key

/-- The results of a file with this key. -/
def get? (t : CacheTables) (file : String) (key : CacheKey) :
    Except StoredError (Option (WalkResult Json Json)) :=
  if t.isCurrent file key then
    match t.row? file with
    | some row => row.result?
    | none => .ok none
  else .ok none

/-- The tables without a file. -/
def erase (t : CacheTables) (file : String) : CacheTables :=
  ⟨t.keys.filter (·.file != file), t.results.filter (·.file != file)⟩

/-- The tables with the key of a file. -/
def insertKey (t : CacheTables) (file : String) (key : CacheKey) : CacheTables :=
  { t with keys := t.keys.filter (·.file != file) ++ [⟨file, key⟩] }

/-- The tables with the results of a file, but not its key. -/
def insertResult (t : CacheTables) (file : String) (key : CacheKey) (r : WalkResult Json Json) :
    CacheTables :=
  { t with results := t.results.filter (·.file != file) ++ [.ofResult file key r] }

/-- The tables with the results of a file. -/
def insert (t : CacheTables) (file : String) (key : CacheKey) (r : WalkResult Json Json) :
    CacheTables :=
  (t.insertKey file key).insertResult file key r

/-- The file has a row in some table. -/
def mentions (t : CacheTables) (file : String) : Bool :=
  t.keys.any (·.file == file) || t.results.any (·.file == file)

/-- The tables with the stored texts of a file changed. -/
def modifyRow (t : CacheTables) (file : String) (f : ResultRow → ResultRow) : CacheTables :=
  { t with results := t.results.map fun row => if row.file == file then f row else row }

/-- The tables without the results of a file, whose key stays. -/
def eraseResult (t : CacheTables) (file : String) : CacheTables :=
  { t with results := t.results.filter (·.file != file) }

/-! ## Counting -/

/-- The length of a stored value; none where the text is no JSON. -/
def storedLength (text : String) : Except StoredError (Option Nat) :=
  match Json.parse text with
  | .error .malformed => .ok none
  | .error .tooDeep => .error .tooDeep
  | .error (.tooManyDigits n) => .error (.tooManyDigits n)
  | .ok j =>
    match j.elements? with
    | some xs => .ok (some xs.length)
    | none => .error .uncountable

/-- Add the lengths in a row. A text that is no JSON ends the row. -/
def countRow (s : CacheStats) (row : ResultRow) : Except StoredError CacheStats := do
  match ← storedLength row.definitions with
  | none => return s
  | some n =>
    let s := { s with definitions := s.definitions + n }
    match ← storedLength row.relations with
    | none => return s
    | some m => return { s with relations := s.relations + m }

/-- How much the tables hold. -/
def stats (t : CacheTables) : Except StoredError CacheStats :=
  t.results.foldlM countRow ⟨t.keys.length, 0, 0⟩

end CacheTables

end ConstGraph
