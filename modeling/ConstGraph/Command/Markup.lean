/-!
# Text between markup

Square brackets around a lower-case word are markup on the screen. Text
that may hold any characters is escaped: a backslash goes before each
opening bracket that would start markup, and backslashes right before it
are doubled.

Where exactly markup starts is up to the screen. All that is used of
escaping elsewhere is that something is left of a text (`escape_ne_empty`)
and that its characters are those of the text, backslashes apart
(`mem_escape`).
-/

namespace ConstGraph.Markup

/-- A character markup may start with. -/
def startsTag (c : Char) : Bool :=
  ('a' ≤ c && c ≤ 'z') || c == '#' || c == '/' || c == '@'

/-- The length of the markup at the start of a text. -/
def tagLength? : List Char → Option Nat
  | '[' :: c :: cs =>
    let body := cs.takeWhile fun c => c != ']' && c != '['
    if startsTag c && (cs.drop body.length).head? == some ']' then some (body.length + 3)
    else none
  | _ => none

/-- The text with its markup escaped, leaving out the first `skip`
characters, which have been escaped already. -/
def escapeTags : Nat → List Char → List Char
  | _, [] => []
  | skip + 1, _ :: cs => escapeTags skip cs
  | 0, c :: cs =>
    let slashes := (c :: cs).takeWhile (· == '\\')
    let rest := (c :: cs).drop slashes.length
    match tagLength? rest with
    | some n =>
      slashes ++ slashes ++ '\\' :: rest.take n ++ escapeTags (slashes.length + n - 1) cs
    | none => c :: escapeTags 0 cs

/-- The text with a single backslash at its end doubled. -/
def closeSlash (cs : List Char) : List Char :=
  match cs.reverse with
  | '\\' :: '\\' :: _ => cs
  | '\\' :: _ => cs ++ ['\\']
  | _ => cs

/-- A text that shows as it is. -/
def escape (s : String) : String := String.ofList (closeSlash (escapeTags 0 s.toList))

/-! ## What is kept -/

theorem escapeTags_ne_nil {cs : List Char} (h : cs ≠ []) : escapeTags 0 cs ≠ [] := by
  obtain ⟨c, cs, rfl⟩ := List.exists_cons_of_ne_nil h
  unfold escapeTags
  dsimp only
  split
  · intro hnil
    have hlength := congrArg List.length hnil
    simp at hlength
  · exact List.cons_ne_nil _ _

/-- **What is not empty stays so.** -/
theorem escape_ne_empty {s : String} (h : s ≠ "") : escape s ≠ "" := by
  have htags : escapeTags 0 s.toList ≠ [] := by
    refine escapeTags_ne_nil fun hnil => h ?_
    exact String.toList_injective hnil
  have hclosed : ∀ cs, cs ≠ [] → closeSlash cs ≠ [] := by
    intro cs hcs
    unfold closeSlash
    split
    · exact hcs
    · simp
    · exact hcs
  intro hempty
  have hlist := congrArg String.toList hempty
  rw [escape, String.toList_ofList] at hlist
  exact hclosed _ htags hlist

theorem tagLength?_pos {cs : List Char} {n : Nat} (h : tagLength? cs = some n) : 0 < n := by
  unfold tagLength? at h
  split at h
  · dsimp only at h
    split at h
    · cases h
      omega
    · cases h
  · cases h

theorem mem_escapeTags {c : Char} (hc : c ≠ '\\') (skip : Nat) (cs : List Char) :
    c ∈ escapeTags skip cs ↔ c ∈ cs.drop skip := by
  induction cs generalizing skip with
  | nil => cases skip <;> simp [escapeTags]
  | cons d cs ih =>
    cases skip with
    | succ skip =>
      rw [escapeTags, List.drop_succ_cons]
      exact ih skip
    | zero =>
      rw [escapeTags]
      split
      · next n hn =>
        have hslashes : c ∉ (d :: cs).takeWhile (· == '\\') := by
          intro hmem
          have hslash := List.all_eq_true.1 List.all_takeWhile c hmem
          exact hc (by simpa using hslash)
        generalize hlength : ((d :: cs).takeWhile (· == '\\')).length = k at hn ⊢
        have hpos := tagLength?_pos hn
        -- the tag and what follows it are all that stands behind the slashes
        have hsplit : d :: cs = (d :: cs).takeWhile (· == '\\') ++
            (((d :: cs).drop k).take n ++ cs.drop (k + n - 1)) := by
          have hrest : cs.drop (k + n - 1) = ((d :: cs).drop k).drop n := by
            obtain ⟨m, hm⟩ : ∃ m, k + n = m + 1 := ⟨k + n - 1, by omega⟩
            rw [List.drop_drop, hm, List.drop_succ_cons, Nat.add_sub_cancel]
          have hfront : (d :: cs).takeWhile (· == '\\') = (d :: cs).take k := by
            rw [← hlength]
            exact List.prefix_iff_eq_take.1 (List.takeWhile_prefix _)
          rw [hrest, List.take_append_drop, hfront, List.take_append_drop]
        have hwhole := congrArg (c ∈ ·) hsplit
        simp only [List.mem_append, hslashes, false_or] at hwhole
        simp only [List.mem_append, List.mem_cons, hslashes, hc, false_or, ih, List.drop_zero]
        rw [← List.mem_cons, hwhole]
      · rw [List.drop_zero, List.mem_cons, List.mem_cons, ih 0, List.drop_zero]

theorem mem_closeSlash {c : Char} (hc : c ≠ '\\') (cs : List Char) :
    c ∈ closeSlash cs ↔ c ∈ cs := by
  unfold closeSlash
  split
  · rfl
  · simp [hc]
  · rfl

/-- **Only backslashes are added**, and nothing is taken away. -/
theorem mem_escape {c : Char} (hc : c ≠ '\\') (s : String) :
    c ∈ (escape s).toList ↔ c ∈ s.toList := by
  rw [escape, String.toList_ofList, mem_closeSlash hc, mem_escapeTags hc, List.drop_zero]

end ConstGraph.Markup
