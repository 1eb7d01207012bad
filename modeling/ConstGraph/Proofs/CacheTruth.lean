import ConstGraph.Project
import ConstGraph.Proofs.StoredRecords

/-!
# What a cache may say

An entry of a cache is truthful if it holds what the analysis finds in a
tree that has been seen in its file, when the file had the time and the
size of the entry's key. Tables are `Sound` if every entry that can be
asked for is truthful.

Storing what was found keeps tables sound (`Sound.insert`), and what sound
tables answer was found in a tree that was seen (`Sound.get?`). The key
names the settings too, so this was found under the settings in force
(`Environment.inference_eq`).
-/

namespace ConstGraph

/-! ## Settings -/

/-- **The fingerprint determines the inference.** -/
theorem Environment.inference_eq {env env' : Environment}
    (h : env.cacheFingerprint = env'.cacheFingerprint) : env.inference = env'.inference := by
  have hneither : ("1.0.0:infer_types=0" : String) ≠ "1.0.0:infer_types=1" := by decide
  have hsame : env.infersTypes = env'.infersTypes := by
    unfold cacheFingerprint at h
    cases hi : env.infersTypes <;> cases hi' : env'.infersTypes
    · rfl
    · rw [hi, hi'] at h
      exact absurd h hneither
    · rw [hi, hi'] at h
      exact absurd h.symm hneither
    · rfl
  rw [inference, hsame, inference]

/-- The analysis of a file finds these results in a tree. -/
def FileAnalysis.Finds (file : String) (infer : Inference) (root : ConcreteNode)
    (r : WalkResult) : Prop :=
  parse { file := file, infer := infer } (.tree root) =
    (keep { file := file, infer := infer } r, .ok none)

namespace CacheTables

/-! ## Rows -/

/-- The row of a file after it has been put in place of the old ones. -/
theorem find?_filter_append {α : Type} (name : α → String) (rows : List α) (row : α)
    (file : String) :
    (rows.filter (name · != name row) ++ [row]).find? (name · == file) =
      if file = name row then some row else rows.find? (name · == file) := by
  by_cases h : file = name row
  · have hnone : (rows.filter (name · != name row)).find? (name · == file) = none := by
      simp [List.find?_eq_none, h]
    rw [List.find?_append, hnone, if_pos h]
    simp [h]
  · have hsame : (rows.filter (name · != name row)).find? (name · == file) =
        rows.find? (name · == file) := by
      rw [List.find?_filter]
      congr 1
      funext x
      by_cases hx : name x = file
      · simp [hx, h]
      · simp [hx]
    rw [List.find?_append, hsame, if_neg h]
    simp [Ne.symm h]

variable {t : CacheTables} {file : String} {key : CacheKey} {r : WalkResult}

theorem key?_insert (t : CacheTables) (file : String) (key : CacheKey) (r : WalkResult Json Json)
    (other : String) :
    (t.insert file key r).key? other = if other = file then some key else t.key? other := by
  have h := find?_filter_append KeyRow.file t.keys ⟨file, key⟩ other
  rw [key?, insert, insertResult, insertKey, h]
  split <;> rfl

theorem row?_insert (t : CacheTables) (file : String) (key : CacheKey) (r : WalkResult Json Json)
    (other : String) :
    (t.insert file key r).row? other =
      if other = file then some (.ofResult file key r) else t.row? other :=
  find?_filter_append ResultRow.file t.results (.ofResult file key r) other

/-! ## Truth -/

/-- What has been seen of files: the text of a path, the time and the size
of the file there, and the tree of its content. -/
abbrev Sighting := String → Stamp → Nat → ConcreteNode → Prop

variable {Seen : Sighting}

/-- The row of a file under a key holds what is found in a tree that was
seen when the file had this key. -/
structure Truthful (Seen : Sighting) (file : String) (key : CacheKey) (row : ResultRow)
    (root : ConcreteNode) (env : Environment) (r : WalkResult) : Prop where
  /-- The tree was seen. -/
  seen : Seen file key.stamp key.size root
  /-- The settings were those of the key. -/
  settings : env.cacheFingerprint = key.fingerprint
  /-- The results were found in it. -/
  found : FileAnalysis.Finds file env.inference root r
  /-- They can be stored. -/
  storable : r.values.isStorable
  /-- They are stored. -/
  stored : row = .ofResult file key r.values

/-- Every entry that can be asked for is truthful. -/
def Sound (Seen : Sighting) (t : CacheTables) : Prop :=
  ∀ file key row, t.key? file = some key → t.row? file = some row →
    ∃ root env r, Truthful Seen file key row root env r

theorem sound_empty : Sound Seen {} := fun _ _ _ h => by cases h

theorem Sound.mono {Seen' : Sighting} (h : Sound Seen t)
    (hle : ∀ file stamp size root, Seen file stamp size root → Seen' file stamp size root) :
    Sound Seen' t := by
  intro file key row hkey hrow
  obtain ⟨root, env, r, htrue⟩ := h file key row hkey hrow
  exact ⟨root, env, r, { htrue with seen := hle _ _ _ _ htrue.seen }⟩

/-- **Storing what was found keeps tables sound.** -/
theorem Sound.insert {root : ConcreteNode} {env : Environment} (h : Sound Seen t)
    (htrue : Truthful Seen file key (.ofResult file key r.values) root env r) :
    Sound Seen (t.insert file key r.values) := by
  intro other key' row hkey hrow
  rw [key?_insert] at hkey
  rw [row?_insert] at hrow
  by_cases hother : other = file
  · rw [if_pos hother] at hkey hrow
    cases hkey
    cases hrow
    subst hother
    exact ⟨root, env, r, htrue⟩
  · rw [if_neg hother] at hkey hrow
    exact h other key' row hkey hrow

/-- **What sound tables answer was found in a tree that was seen.** They
always answer. -/
theorem Sound.get? (h : Sound Seen t) (file : String) (key : CacheKey) :
    t.get? file key = .ok none ∨
      ∃ row root env r, Truthful Seen file key row root env r ∧
        t.get? file key = .ok (some r.values) := by
  unfold CacheTables.get?
  by_cases hcurrent : t.isCurrent file key
  · rw [if_pos hcurrent]
    have hkey : t.key? file = some key := by simpa [isCurrent] using hcurrent
    cases hrow : t.row? file with
    | none => exact Or.inl rfl
    | some row =>
      obtain ⟨root, env, r, htrue⟩ := h file key row hkey hrow
      refine Or.inr ⟨row, root, env, r, htrue, ?_⟩
      rw [htrue.stored]
      exact ResultRow.result?_ofResult file key htrue.storable
  · rw [if_neg hcurrent]
    exact Or.inl rfl

end CacheTables

end ConstGraph
