import ConstGraph.Proofs.TextFiles
import ConstGraph.VersionSync
import Mathlib.Data.List.Infix

/-!
# A version is copied in place

An assigned version is a key, a quotation mark, digits and dots, and a mark.
No key overlaps itself and none starts like what follows it, so two assigned
versions never share a character (`prefix_of_overlap`): a text is cut
into characters and assigned versions in one way (`Cut`).

Replacing the versions of a text replaces those of its cut and leaves the
characters between them. Nothing else comes to be a version by it: the new
text is cut in the same places (`Cut.renew`). This is why a second copy
finds what the first one wrote and changes nothing.
-/

namespace ConstGraph

namespace VersionSync

/-! ## Assigned versions -/

/-- A version assigned to a key, between quotation marks. -/
def IsAssigned (key marks occ : List Char) : Prop :=
  ∃ first run last, first ∈ marks ∧ last ∈ marks ∧ run ≠ [] ∧ (∀ c ∈ run, isVersionChar c) ∧
    occ = key ++ first :: (run ++ [last])

/-- What a key and the marks after it must be like for assigned versions to
be told apart. -/
structure Distinct (key marks : List Char) : Prop where
  /-- The key starts with a character that is neither a mark nor part of a
  version. -/
  head : ∃ c rest, key = c :: rest ∧ c ∉ marks ∧ isVersionChar c = false
  /-- The key does not overlap itself. -/
  borderless : ∀ j < key.length, 0 < j → ¬ key.drop j <+: key
  /-- A mark is not part of a version. -/
  marks : ∀ m ∈ marks, isVersionChar m = false

theorem distinct_projectKey : Distinct projectKey ['"'] where
  head := ⟨'v', "ersion = ".toList, by decide, by decide, by decide⟩
  borderless := by decide
  marks := List.forall_mem_singleton.2 (by decide)

theorem distinct_settingsKey : Distinct settingsKey ['"', '\''] where
  head := ⟨'_', "_version__ = ".toList, by decide, by decide, by decide⟩
  borderless := by decide
  marks := List.forall_mem_cons.2 ⟨by decide, List.forall_mem_singleton.2 (by decide)⟩

section

variable {key marks occ occ' cs : List Char}

theorem IsAssigned.key_starts (h : IsAssigned key marks occ) : key <+: occ := by
  obtain ⟨first, run, last, -, -, -, -, rfl⟩ := h
  exact List.prefix_append _ _

/-- Behind its key an assigned version has marks and version characters
only. -/
theorem IsAssigned.mem_drop (h : IsAssigned key marks occ) {c : Char}
    (hc : c ∈ occ.drop key.length) : c ∈ marks ∨ isVersionChar c := by
  obtain ⟨first, run, last, hfirst, hlast, -, hrun, rfl⟩ := h
  rw [List.drop_left, List.mem_cons, List.mem_append, List.mem_singleton] at hc
  rcases hc with rfl | hc | rfl
  · exact Or.inl hfirst
  · exact Or.inr (hrun c hc)
  · exact Or.inl hlast

theorem IsAssigned.ne_nil (h : IsAssigned key marks occ) : occ ≠ [] := by
  obtain ⟨first, run, last, -, -, -, -, rfl⟩ := h
  simp

/-- **Assigned versions do not overlap**: one that starts before another has
ended where the other starts. -/
theorem prefix_of_overlap (hkey : Distinct key marks) (h : IsAssigned key marks occ)
    (h' : IsAssigned key marks occ') {front back : List Char} (hocc : occ <+: front ++ back)
    (hocc' : occ' <+: back) (hfront : front ≠ []) : occ <+: front := by
  refine List.prefix_of_prefix_length_le hocc (List.prefix_append _ _) ?_
  by_contra hlong
  -- what of the first version is beyond the start of the second
  obtain ⟨rest, rfl⟩ : front <+: occ :=
    List.prefix_of_prefix_length_le (List.prefix_append _ _) hocc (by omega)
  have hrest : rest <+: back := (List.prefix_append_right_inj front).1 hocc
  have hback : key <+: back := h'.key_starts.trans hocc'
  have hpos : 0 < front.length := List.length_pos_iff.2 hfront
  rcases Nat.lt_or_ge front.length key.length with hin | hbehind
  · -- the second starts inside the first one's key, which then overlaps itself
    have hdrop : key.drop front.length <+: rest := by
      simpa using h.key_starts.drop front.length
    refine hkey.borderless front.length hin hpos ?_
    exact List.prefix_of_prefix_length_le (hdrop.trans hrest) hback (by simp)
  · -- the second starts behind that key, with a mark or a version character
    obtain ⟨c, key', rfl, hmark, hversion⟩ := hkey.head
    obtain ⟨rest', rfl⟩ : ∃ rest', rest = c :: rest' := by
      cases rest with
      | nil => simp at hlong
      | cons d rest' =>
        obtain ⟨_, rfl⟩ := hback
        obtain ⟨rfl, -⟩ := List.cons_prefix_cons.1 hrest
        exact ⟨rest', rfl⟩
    have hc : c ∈ (front ++ c :: rest').drop (c :: key').length := by
      rw [List.drop_append_of_le_length hbehind]
      simp
    rcases h.mem_drop hc with hin | hin
    · exact hmark hin
    · simp [hversion] at hin

/-! ## Finding an assigned version -/

theorem quotedVersion?_eq_some_iff (hmarks : ∀ m ∈ marks, isVersionChar m = false) {n : Nat} :
    quotedVersion? marks cs = some n ↔ ∃ first run last rest, first ∈ marks ∧ last ∈ marks ∧
      run ≠ [] ∧ (∀ c ∈ run, isVersionChar c) ∧ cs = first :: (run ++ last :: rest) ∧
        n = run.length + 2 := by
  constructor
  · intro h
    cases cs with
    | nil => cases h
    | cons first behind =>
      simp only [quotedVersion?, Option.ite_none_right_eq_some, Bool.and_eq_true,
        List.contains_iff_mem, Bool.not_eq_true', List.isEmpty_eq_false_iff,
        Option.some.injEq, Option.any_eq_true] at h
      obtain ⟨⟨⟨hfirst, hrun⟩, last, hhead, hlast⟩, rfl⟩ := h
      obtain ⟨rest, hrest⟩ := List.head?_eq_some_iff.1 hhead
      refine ⟨first, _, last, rest, hfirst, hlast, hrun, List.all_eq_true.1 List.all_takeWhile,
        ?_, rfl⟩
      rw [← hrest, List.takeWhile_append_dropWhile]
  · rintro ⟨first, run, last, rest, hfirst, hlast, hrun, hall, rfl, rfl⟩
    have hstop : isVersionChar last = false := hmarks last hlast
    have htake : (run ++ last :: rest).takeWhile isVersionChar = run := by
      rw [List.takeWhile_append_of_pos hall, List.takeWhile_cons_of_neg (by simp [hstop]),
        List.append_nil]
    have hdrop : (run ++ last :: rest).dropWhile isVersionChar = last :: rest := by
      rw [List.dropWhile_append_of_pos hall, List.dropWhile_cons_of_neg (by simp [hstop])]
    simp [quotedVersion?, htake, hdrop, hfirst, hlast, hrun]

/-- An assigned version is found where one starts, with its length. -/
theorem assignedVersion?_eq_some_iff (hmarks : ∀ m ∈ marks, isVersionChar m = false) {n : Nat} :
    assignedVersion? key marks cs = some n ↔
      ∃ occ rest, IsAssigned key marks occ ∧ cs = occ ++ rest ∧ n = occ.length := by
  constructor
  · intro h
    simp only [assignedVersion?, Option.ite_none_right_eq_some, Option.map_eq_some_iff,
      List.isPrefixOf_iff_prefix] at h
    obtain ⟨⟨behind, rfl⟩, m, hm, rfl⟩ := h
    rw [List.drop_left, quotedVersion?_eq_some_iff hmarks] at hm
    obtain ⟨first, run, last, rest, hfirst, hlast, hrun, hall, rfl, rfl⟩ := hm
    refine ⟨key ++ first :: (run ++ [last]), rest,
      ⟨first, run, last, hfirst, hlast, hrun, hall, rfl⟩, by simp, by simp⟩
  · rintro ⟨_, rest, ⟨first, run, last, hfirst, hlast, hrun, hall, rfl⟩, rfl, rfl⟩
    have hquoted : quotedVersion? marks (first :: (run ++ last :: rest)) = some (run.length + 2) :=
      (quotedVersion?_eq_some_iff hmarks).2
        ⟨first, run, last, rest, hfirst, hlast, hrun, hall, rfl, rfl⟩
    have hcs : key ++ first :: (run ++ [last]) ++ rest = key ++ first :: (run ++ last :: rest) := by
      simp
    rw [hcs, assignedVersion?, if_pos (by simp), List.drop_left, hquoted]
    simp

theorem assignedVersion?_eq_none_iff (hmarks : ∀ m ∈ marks, isVersionChar m = false) :
    assignedVersion? key marks cs = none ↔ ∀ occ, IsAssigned key marks occ → ¬ occ <+: cs := by
  rw [Option.eq_none_iff_forall_ne_some]
  constructor
  · rintro h occ hocc ⟨rest, rfl⟩
    exact h _ ((assignedVersion?_eq_some_iff hmarks).2 ⟨occ, rest, hocc, rfl, rfl⟩)
  · intro h n hn
    obtain ⟨occ, rest, hocc, rfl, -⟩ := (assignedVersion?_eq_some_iff hmarks).1 hn
    exact h occ hocc (List.prefix_append _ _)

/-- Where a version starts only one does. -/
theorem IsAssigned.eq_of_starts (hmarks : ∀ m ∈ marks, isVersionChar m = false)
    (h : IsAssigned key marks occ) (h' : IsAssigned key marks occ') (hocc : occ <+: cs)
    (hocc' : occ' <+: cs) : occ = occ' := by
  obtain ⟨rest, hrest⟩ := hocc
  obtain ⟨rest', hrest'⟩ := hocc'
  have hfound := (assignedVersion?_eq_some_iff hmarks).2 ⟨occ, rest, h, hrest.symm, rfl⟩
  have hfound' := (assignedVersion?_eq_some_iff hmarks).2 ⟨occ', rest', h', hrest'.symm, rfl⟩
  have hlength : occ.length = occ'.length := Option.some.inj (hfound.symm.trans hfound')
  exact (List.append_inj (hrest.trans hrest'.symm) hlength).1

end

/-! ## The cut of a text -/

/-- A piece of a text: a character, or an assigned version. -/
inductive Piece where
  /-- A character outside the assigned versions. -/
  | char (c : Char)
  /-- An assigned version. -/
  | version (occ : List Char)

/-- The text of a piece. -/
def Piece.text : Piece → List Char
  | char c => [c]
  | version occ => occ

/-- The piece with another version for the one in it. -/
def Piece.renew (new : List Char) : Piece → Piece
  | char c => char c
  | version _ => version new

/-- The pieces put together. -/
def joined (ps : List Piece) : List Char := ps.flatMap Piece.text

/-- The pieces put together, with another version for each in them. -/
def renewed (new : List Char) (ps : List Piece) : List Char := joined (ps.map (Piece.renew new))

section

variable {new : List Char} {ps : List Piece}

@[simp] theorem joined_char {c : Char} : joined (.char c :: ps) = c :: joined ps := rfl

@[simp] theorem joined_version {occ : List Char} :
    joined (.version occ :: ps) = occ ++ joined ps := rfl

@[simp] theorem joined_append {qs : List Piece} : joined (ps ++ qs) = joined ps ++ joined qs :=
  List.flatMap_append

@[simp] theorem renewed_char {c : Char} : renewed new (.char c :: ps) = c :: renewed new ps := rfl

@[simp] theorem renewed_version {occ : List Char} :
    renewed new (.version occ :: ps) = new ++ renewed new ps := rfl

theorem Piece.renew_comp_renew : Piece.renew new ∘ Piece.renew new = Piece.renew new := by
  funext p
  cases p <;> rfl

theorem renewed_map_renew : renewed new (ps.map (Piece.renew new)) = renewed new ps := by
  rw [renewed, List.map_map, Piece.renew_comp_renew, renewed]

theorem mem_renewed {c : Char} (h : c ∈ renewed new ps) : c ∈ joined ps ∨ c ∈ new := by
  induction ps with
  | nil => cases h
  | cons p ps ih =>
    cases p with
    | char d =>
      rw [renewed_char, List.mem_cons] at h
      rw [joined_char, List.mem_cons, or_assoc]
      exact h.imp_right ih
    | version occ =>
      rw [renewed_version, List.mem_append] at h
      rw [joined_version, List.mem_append, or_assoc]
      exact Or.inr (h.elim Or.inr ih)

end

/-- A text cut from the left: an assigned version where one starts, and else
a character. -/
inductive Cut (key marks : List Char) : List Char → List Piece → Prop where
  | nil : Cut key marks [] []
  | char {c : Char} {cs : List Char} {ps : List Piece}
      (hnone : ∀ occ, IsAssigned key marks occ → ¬ occ <+: c :: cs) (hcut : Cut key marks cs ps) :
      Cut key marks (c :: cs) (.char c :: ps)
  | version {occ cs : List Char} {ps : List Piece} (hocc : IsAssigned key marks occ)
      (hcut : Cut key marks cs ps) : Cut key marks (occ ++ cs) (.version occ :: ps)

section

variable {key marks new cs : List Char} {ps : List Piece}

theorem exists_cut (hmarks : ∀ m ∈ marks, isVersionChar m = false) (cs : List Char) :
    ∃ ps, Cut key marks cs ps := by
  induction hlength : cs.length using Nat.strong_induction_on generalizing cs with
  | _ length ih =>
    subst hlength
    cases cs with
    | nil => exact ⟨[], .nil⟩
    | cons c rest =>
      cases hfound : assignedVersion? key marks (c :: rest) with
      | none =>
        obtain ⟨ps, hcut⟩ := ih rest.length (by simp) rest rfl
        exact ⟨_, .char ((assignedVersion?_eq_none_iff hmarks).1 hfound) hcut⟩
      | some n =>
        obtain ⟨occ, behind, hocc, hcs, -⟩ := (assignedVersion?_eq_some_iff hmarks).1 hfound
        have hshorter : behind.length < (c :: rest).length := by
          have hpos : 0 < occ.length := List.length_pos_iff.2 hocc.ne_nil
          rw [hcs, List.length_append]
          omega
        obtain ⟨ps, hcut⟩ := ih behind.length hshorter behind rfl
        rw [hcs]
        exact ⟨_, .version hocc hcut⟩

theorem Cut.joined_eq (h : Cut key marks cs ps) : joined ps = cs := by
  induction h with
  | nil => rfl
  | char _ _ ih => rw [joined_char, ih]
  | version _ _ ih => rw [joined_version, ih]

theorem Cut.isAssigned_of_mem (h : Cut key marks cs ps) {occ : List Char}
    (hocc : .version occ ∈ ps) : IsAssigned key marks occ := by
  induction h with
  | nil => cases hocc
  | char _ _ ih => exact ih (by simpa using hocc)
  | version hfirst _ ih =>
    rcases List.mem_cons.1 hocc with hpiece | hrest
    · cases hpiece
      exact hfirst
    · exact ih hrest

theorem replaceAll_eq_drop (skip : Nat) (cs : List Char) :
    replaceAll key marks new skip cs = replaceAll key marks new 0 (cs.drop skip) := by
  induction skip generalizing cs with
  | zero => rfl
  | succ skip ih =>
    cases cs with
    | nil => rfl
    | cons c rest => rw [replaceAll, ih, List.drop_succ_cons]

/-- **Replacing all versions of a text renews those of its cut.** -/
theorem Cut.replaceAll_eq (hmarks : ∀ m ∈ marks, isVersionChar m = false)
    (h : Cut key marks cs ps) : replaceAll key marks new 0 cs = renewed new ps := by
  induction h with
  | nil => rfl
  | char hnone _ ih =>
    simp only [replaceAll, (assignedVersion?_eq_none_iff hmarks).2 hnone, ih, renewed_char]
  | @version occ cs ps hocc _ ih =>
    obtain ⟨c, rest, rfl⟩ := List.exists_cons_of_ne_nil hocc.ne_nil
    have hfound : assignedVersion? key marks (c :: (rest ++ cs)) = some (rest.length + 1) :=
      (assignedVersion?_eq_some_iff hmarks).2 ⟨c :: rest, cs, hocc, rfl, rfl⟩
    simp only [List.cons_append, replaceAll, hfound, Nat.add_sub_cancel, renewed_version]
    rw [replaceAll_eq_drop, List.drop_left, ih]

/-- No version starts in front of a renewed text and ends inside it unless
it was there before. -/
theorem Cut.prefix_of_renewed (hkey : Distinct key marks) (hnew : IsAssigned key marks new)
    (h : Cut key marks cs ps) {front occ : List Char} (hocc : IsAssigned key marks occ)
    (hfront : front ≠ []) (hstands : occ <+: front ++ renewed new ps) : occ <+: front ++ cs := by
  induction h generalizing front with
  | nil => exact hstands
  | @char c cs ps _ _ ih =>
    have hlonger : occ <+: front ++ [c] ++ cs := ih (by simp) (by simpa using hstands)
    simpa using hlonger
  | version _ _ _ =>
    -- it would overlap the new version if it did not end before
    have hin : occ <+: front :=
      prefix_of_overlap hkey hocc hnew hstands (List.prefix_append _ _) hfront
    exact hin.trans (List.prefix_append _ _)

/-- **A renewed text is cut where the old one was.** -/
theorem Cut.renew (hkey : Distinct key marks) (hnew : IsAssigned key marks new)
    (h : Cut key marks cs ps) : Cut key marks (renewed new ps) (ps.map (Piece.renew new)) := by
  induction h with
  | nil => exact .nil
  | @char c cs ps hnone hcut ih =>
    refine .char (fun occ hocc hstands => hnone occ hocc ?_) ih
    exact hcut.prefix_of_renewed hkey hnew hocc (List.cons_ne_nil c []) hstands
  | version _ _ ih => exact .version hnew ih

/-- **The versions of a cut are all there are in the text.** -/
theorem Cut.occurs_iff (hkey : Distinct key marks) (h : Cut key marks cs ps)
    (before occ : List Char) : IsAssigned key marks occ ∧ before ++ occ <+: cs ↔
      ∃ front back, ps = front ++ .version occ :: back ∧ joined front = before := by
  constructor
  · rintro ⟨hocc, hstands⟩
    induction h generalizing before with
    | nil => simp [hocc.ne_nil] at hstands
    | @char c cs ps hnone _ ih =>
      cases before with
      | nil => exact absurd hstands (hnone occ hocc)
      | cons d before =>
        obtain ⟨rfl, hrest⟩ := List.cons_prefix_cons.1 hstands
        obtain ⟨front, back, rfl, rfl⟩ := ih before hrest
        exact ⟨.char d :: front, back, rfl, rfl⟩
    | @version first cs ps hfirst _ ih =>
      by_cases hbefore : before = []
      · subst hbefore
        obtain rfl := hocc.eq_of_starts hkey.marks hfirst hstands (List.prefix_append _ _)
        exact ⟨[], ps, rfl, rfl⟩
      · -- the first version ends before the other starts
        obtain ⟨rest, hrest⟩ := hstands
        have hstands : first <+: before ++ (occ ++ rest) := by
          rw [← List.append_assoc, hrest]
          exact List.prefix_append _ _
        obtain ⟨between, rfl⟩ : first <+: before :=
          prefix_of_overlap hkey hfirst hocc hstands (List.prefix_append _ _) hbefore
        obtain ⟨front, back, rfl, rfl⟩ := ih between ⟨rest, by simpa using hrest⟩
        exact ⟨.version first :: front, back, rfl, rfl⟩
  · rintro ⟨front, back, rfl, rfl⟩
    exact ⟨h.isAssigned_of_mem (by simp), joined back, by simp [← h.joined_eq]⟩

end

/-- The assigned versions of a text, in order, with what is between them. -/
structure Shows (key marks cs : List Char) (ps : List Piece) : Prop where
  /-- The pieces make up the text. -/
  joined_eq : joined ps = cs
  /-- The versions among them are the versions in the text. -/
  occurs_iff : ∀ before occ, IsAssigned key marks occ ∧ before ++ occ <+: cs ↔
    ∃ front back, ps = front ++ .version occ :: back ∧ joined front = before

/-- Every assigned version of a text is replaced by another, and nothing
else changes. -/
def RenewsAll (key marks new cs cs' : List Char) : Prop :=
  (∃ ps, Shows key marks cs ps ∧ Shows key marks cs' (ps.map (Piece.renew new))) ∧
    ∀ before occ, IsAssigned key marks occ → before ++ occ <+: cs' → occ = new

section

variable {key marks new : List Char}

theorem Cut.shows {cs : List Char} {ps : List Piece} (hkey : Distinct key marks)
    (h : Cut key marks cs ps) : Shows key marks cs ps :=
  ⟨h.joined_eq, h.occurs_iff hkey⟩

theorem renewsAll_replaceAll (hkey : Distinct key marks) (hnew : IsAssigned key marks new)
    (cs : List Char) : RenewsAll key marks new cs (replaceAll key marks new 0 cs) := by
  obtain ⟨ps, hcut⟩ : ∃ ps, Cut key marks cs ps := exists_cut hkey.marks cs
  rw [hcut.replaceAll_eq hkey.marks]
  have hcut' := hcut.renew hkey hnew
  refine ⟨⟨ps, hcut.shows hkey, hcut'.shows hkey⟩, fun before occ hocc hstands => ?_⟩
  obtain ⟨front, back, hps, -⟩ := (hcut'.occurs_iff hkey before occ).1 ⟨hocc, hstands⟩
  have hmem : Piece.version occ ∈ ps.map (Piece.renew new) := by simp [hps]
  obtain ⟨p, -, hp⟩ := List.mem_map.1 hmem
  cases p with
  | char c => cases hp
  | version old => exact (Piece.version.inj hp).symm

/-- **Replacing all versions again changes nothing.** -/
theorem replaceAll_replaceAll (hkey : Distinct key marks) (hnew : IsAssigned key marks new)
    (cs : List Char) : replaceAll key marks new 0 (replaceAll key marks new 0 cs) =
      replaceAll key marks new 0 cs := by
  obtain ⟨ps, hcut⟩ : ∃ ps, Cut key marks cs ps := exists_cut hkey.marks cs
  rw [hcut.replaceAll_eq hkey.marks, (hcut.renew hkey hnew).replaceAll_eq hkey.marks,
    renewed_map_renew]

theorem mem_replaceAll (hkey : Distinct key marks) {cs : List Char} {c : Char}
    (h : c ∈ replaceAll key marks new 0 cs) : c ∈ cs ∨ c ∈ new := by
  obtain ⟨ps, hcut⟩ : ∃ ps, Cut key marks cs ps := exists_cut hkey.marks cs
  rw [hcut.replaceAll_eq hkey.marks] at h
  rw [← hcut.joined_eq]
  exact mem_renewed h

end

/-! ## The first version at the start of a line -/

/-- A line starts behind a text: its last character is a line feed. Behind
the empty text `atStart` decides. -/
def startsLine (atStart : Bool) (before : List Char) : Bool :=
  (before.getLast?.map (· == '\n')).getD atStart

/-- A version assigned at the start of a line, behind `before`. -/
structure OnLine (key marks : List Char) (atStart : Bool) (cs before occ : List Char) : Prop where
  assigned : IsAssigned key marks occ
  occurs : before ++ occ <+: cs
  starts : startsLine atStart before = true

/-- The first version assigned at the start of a line. -/
structure FirstOnLine (key marks : List Char) (atStart : Bool) (cs before occ : List Char) : Prop
    extends OnLine key marks atStart cs before occ where
  first : ∀ before' occ', OnLine key marks atStart cs before' occ' → before <+: before'

/-- The first version assigned at the start of a line is replaced by another
if there is one, and nothing else changes. -/
def RenewsFirst (key marks new : List Char) (atStart : Bool) (cs cs' : List Char) : Prop :=
  (∃ before occ rest, cs = before ++ occ ++ rest ∧ cs' = before ++ new ++ rest ∧
    FirstOnLine key marks atStart cs before occ ∧ FirstOnLine key marks atStart cs' before new) ∨
  (∀ before occ, ¬ OnLine key marks atStart cs before occ) ∧ cs' = cs

section

variable {key marks new cs before occ : List Char} {atStart : Bool}

@[simp] theorem startsLine_cons {c : Char} :
    startsLine atStart (c :: before) = startsLine (c == '\n') before := by
  rw [startsLine, startsLine, List.getLast?_cons]
  cases before.getLast? <;> rfl

/-- A version behind a character is on a line as it is in the text that
starts after it. -/
theorem onLine_cons {c d : Char} : OnLine key marks atStart (c :: cs) (d :: before) occ ↔
    d = c ∧ OnLine key marks (c == '\n') cs before occ := by
  constructor
  · rintro ⟨hocc, hstands, hstarts⟩
    obtain ⟨rfl, hrest⟩ := List.cons_prefix_cons.1 hstands
    exact ⟨rfl, hocc, hrest, by simpa using hstarts⟩
  · rintro ⟨rfl, hocc, hstands, hstarts⟩
    exact ⟨hocc, List.cons_prefix_cons.2 ⟨rfl, hstands⟩, by simpa using hstarts⟩

/-- Where no version starts on a line here, one on a line of the text is on
one of its rest. -/
theorem OnLine.exists_later (hmarks : ∀ m ∈ marks, isVersionChar m = false) {c : Char}
    (hnone : (if atStart then assignedVersion? key marks (c :: cs) else none) = none)
    (h : OnLine key marks atStart (c :: cs) before occ) :
    ∃ later, before = c :: later ∧ OnLine key marks (c == '\n') cs later occ := by
  cases before with
  | nil =>
    have hstart : atStart = true := h.starts
    rw [hstart, if_pos rfl] at hnone
    exact absurd h.occurs ((assignedVersion?_eq_none_iff hmarks).1 hnone occ h.assigned)
  | cons d before =>
    obtain ⟨rfl, hlater⟩ := onLine_cons.1 h
    exact ⟨before, rfl, hlater⟩

/-- The text is searched from the left for a version at the start of a
line. -/
theorem replaceFirst_cases (hmarks : ∀ m ∈ marks, isVersionChar m = false) (atStart : Bool)
    (cs : List Char) :
    (∃ before occ rest, cs = before ++ occ ++ rest ∧
      FirstOnLine key marks atStart cs before occ ∧
      replaceFirst key marks new atStart cs = before ++ new ++ rest) ∨
    (∀ before occ, ¬ OnLine key marks atStart cs before occ) ∧
      replaceFirst key marks new atStart cs = cs := by
  induction cs generalizing atStart with
  | nil =>
    refine Or.inr ⟨fun before occ h => ?_, rfl⟩
    have hnil := List.prefix_nil.1 h.occurs
    exact h.assigned.ne_nil (List.append_eq_nil_iff.1 hnil).2
  | cons c cs ih =>
    cases hfound : (if atStart then assignedVersion? key marks (c :: cs) else none) with
    | some n =>
      obtain ⟨hstart, hn⟩ := Option.ite_none_right_eq_some.1 hfound
      obtain ⟨occ, rest, hocc, hcs, rfl⟩ := (assignedVersion?_eq_some_iff hmarks).1 hn
      refine Or.inl ⟨[], occ, rest, hcs, ⟨⟨hocc, ⟨rest, hcs.symm⟩, hstart⟩, fun _ _ _ =>
        List.nil_prefix⟩, ?_⟩
      simp only [replaceFirst, hfound]
      rw [hcs, List.drop_left, List.nil_append]
    | none =>
      have hkept : replaceFirst key marks new atStart (c :: cs) =
          c :: replaceFirst key marks new (c == '\n') cs := by
        simp only [replaceFirst, hfound]
      rw [hkept]
      rcases ih (c == '\n') with ⟨before, occ, rest, hcs, hfirst, hreplace⟩ | ⟨hnone, hreplace⟩
      · refine Or.inl ⟨c :: before, occ, rest, by rw [hcs]; rfl,
          ⟨onLine_cons.2 ⟨rfl, hfirst.toOnLine⟩, fun before' occ' h => ?_⟩, by rw [hreplace]; rfl⟩
        obtain ⟨later, rfl, hlater⟩ := h.exists_later hmarks hfound
        exact List.cons_prefix_cons.2 ⟨rfl, hfirst.first later occ' hlater⟩
      · refine Or.inr ⟨fun before occ h => ?_, by rw [hreplace]⟩
        obtain ⟨later, -, hlater⟩ := h.exists_later hmarks hfound
        exact hnone later occ hlater

/-- The version put for the first one is the first one. -/
theorem FirstOnLine.renew (hkey : Distinct key marks) (hnew : IsAssigned key marks new)
    {rest : List Char} (h : FirstOnLine key marks atStart (before ++ occ ++ rest) before occ) :
    FirstOnLine key marks atStart (before ++ new ++ rest) before new := by
  refine ⟨⟨hnew, List.prefix_append _ _, h.starts⟩, fun before' occ' h' => ?_⟩
  have hbefore : before <+: before ++ new ++ rest := by simp
  have hbefore' : before' <+: before ++ new ++ rest := (List.prefix_append _ _).trans h'.occurs
  rcases List.prefix_or_prefix_of_prefix hbefore hbefore' with hle | ⟨front, rfl⟩
  · exact hle
  · by_cases hfront : front = []
    · simp [hfront]
    · -- an earlier one would end before the new one, and so be in the old text
      have hstands : occ' <+: front ++ (new ++ rest) := by
        simpa [List.append_assoc, List.prefix_append_right_inj] using h'.occurs
      have hin : occ' <+: front :=
        prefix_of_overlap hkey h'.assigned hnew hstands (List.prefix_append _ _) hfront
      have hold : before' ++ occ' <+: before' ++ front ++ occ ++ rest := by
        simpa [List.append_assoc, List.prefix_append_right_inj] using
          hin.trans (List.prefix_append front (occ ++ rest))
      exact h.first before' occ' ⟨h'.assigned, hold, h'.starts⟩

theorem renewsFirst_replaceFirst (hkey : Distinct key marks) (hnew : IsAssigned key marks new)
    (cs : List Char) :
    RenewsFirst key marks new atStart cs (replaceFirst key marks new atStart cs) := by
  rcases @replaceFirst_cases key marks new hkey.marks atStart cs with
    ⟨before, occ, rest, rfl, hfirst, hreplace⟩ | ⟨hnone, hreplace⟩
  · exact Or.inl ⟨before, occ, rest, rfl, hreplace, hfirst, hreplace ▸ hfirst.renew hkey hnew⟩
  · exact Or.inr ⟨hnone, hreplace⟩

/-- Where the first version is the new one, nothing is to be done. -/
theorem FirstOnLine.replaceFirst_eq_self (hkey : Distinct key marks)
    (h : FirstOnLine key marks atStart cs before new) :
    replaceFirst key marks new atStart cs = cs := by
  rcases @replaceFirst_cases key marks new hkey.marks atStart cs with
    ⟨before', occ, rest, rfl, hfirst, hreplace⟩ | ⟨-, hreplace⟩
  · have hbefore : before = before' :=
      (h.first _ _ hfirst.toOnLine).eq_of_length_le (hfirst.first _ _ h.toOnLine).length_le
    subst hbefore
    have hnew : new <+: occ ++ rest := by
      simpa [List.append_assoc, List.prefix_append_right_inj] using h.occurs
    rw [hreplace, hfirst.assigned.eq_of_starts hkey.marks h.assigned (List.prefix_append _ _) hnew]
  · exact hreplace

/-- **Replacing the first version again changes nothing.** -/
theorem replaceFirst_replaceFirst (hkey : Distinct key marks) (hnew : IsAssigned key marks new)
    (cs : List Char) : replaceFirst key marks new atStart (replaceFirst key marks new atStart cs) =
      replaceFirst key marks new atStart cs := by
  rcases renewsFirst_replaceFirst hkey hnew cs with ⟨before, occ, rest, -, -, -, hfirst⟩ | ⟨-, hcs⟩
  · exact hfirst.replaceFirst_eq_self hkey
  · rw [hcs, hcs]

theorem mem_replaceFirst (hkey : Distinct key marks) {c : Char}
    (h : c ∈ replaceFirst key marks new atStart cs) : c ∈ cs ∨ c ∈ new := by
  rcases @replaceFirst_cases key marks new hkey.marks atStart cs with
    ⟨before, occ, rest, rfl, -, hreplace⟩ | ⟨-, hreplace⟩
  · rw [hreplace] at h
    grind
  · exact Or.inl (hreplace ▸ h)

end

/-! ## The version of a version file -/

theorem exists_of_afterDigits? {cs rest : List Char} (h : afterDigits? cs = some rest) :
    ∃ run, run ≠ [] ∧ (∀ c ∈ run, isVersionChar c) ∧ cs = run ++ rest := by
  obtain ⟨hrun, hrest⟩ := Option.ite_none_left_eq_some.1 h
  refine ⟨cs.takeWhile Text.isDecimal, by simpa using hrun, fun c hc => ?_, ?_⟩
  · have hdecimal : Text.isDecimal c = true := List.all_eq_true.1 List.all_takeWhile c hc
    simp [isVersionChar, hdecimal]
  · rw [← Option.some.inj hrest, List.takeWhile_append_dropWhile]

theorem exists_of_afterNumber? {cs rest : List Char} (h : afterNumber? cs = some rest) :
    ∃ run, (∀ c ∈ run, isVersionChar c) ∧ cs = run ++ rest := by
  simp only [afterNumber?] at h
  split at h
  · rename_i rest' hdigits
    obtain ⟨run, -, hall, rfl⟩ := exists_of_afterDigits? hdigits
    cases h
    refine ⟨run ++ ['.'], fun c hc => ?_, by simp⟩
    rcases List.mem_append.1 hc with hrun | hdot
    · exact hall c hrun
    · rw [List.mem_singleton.1 hdot]
      rfl
  · cases h

/-- A version is made of version characters. -/
theorem isVersionChar_of_isVersion {cs : List Char} (h : isVersion cs = true) :
    cs ≠ [] ∧ ∀ c ∈ cs, isVersionChar c := by
  simp only [isVersion, beq_iff_eq, Option.bind_eq_some_iff] at h
  obtain ⟨minor, ⟨major, hmajor, hminor⟩, hpatch⟩ := h
  obtain ⟨run₁, hall₁, rfl⟩ := exists_of_afterNumber? hmajor
  obtain ⟨run₂, hall₂, rfl⟩ := exists_of_afterNumber? hminor
  obtain ⟨run₃, hne, hall₃, rfl⟩ := exists_of_afterDigits? hpatch
  exact ⟨by simp [hne], by grind⟩

theorem isVersion_of_readVersion {file : Option (List UInt8)} {v : String}
    (h : readVersion file = .ok v) : isVersion v.toList = true := by
  cases file with
  | none => cases h
  | some bytes =>
    simp only [readVersion] at h
    split at h
    · rename_i hversion
      rw [← Except.ok.inj h, String.toList_ofList]
      exact hversion
    · cases h

/-- The version read is one that can be assigned. -/
theorem isAssigned_assigned {file : Option (List UInt8)} {v : String} {key marks : List Char}
    (h : readVersion file = .ok v) (hmark : '"' ∈ marks) :
    IsAssigned key marks (assigned key v) := by
  obtain ⟨hne, hall⟩ := isVersionChar_of_isVersion (isVersion_of_readVersion h)
  exact ⟨'"', v.toList, '"', hmark, hmark, hne, hall, by simp [assigned]⟩

theorem return_notMem_assigned {file : Option (List UInt8)} {v : String} {key : List Char}
    (h : readVersion file = .ok v) (hkey : '\r' ∉ key) : '\r' ∉ assigned key v := by
  have hv : '\r' ∉ v.toList := by
    intro hmem
    have hchar := (isVersionChar_of_isVersion (isVersion_of_readVersion h)).2 '\r' hmem
    revert hchar
    decide
  simp [assigned, hkey, hv]

/-! ## The run -/

/-- A run that copies a version into the texts of the two files. -/
structure CopiesVersion (files : Files) (v : String)
    (project settings project' settings' : List Char) : Prop where
  /-- The run ends as it should. -/
  failure : (run files).failure = none
  /-- The version file is left as it is. -/
  version : (run files).files.version = files.version
  /-- The text of the project file afterwards. -/
  project_text : (run files).files.project.bind Text.readText = some project'
  /-- The text of the settings module afterwards. -/
  settings_text : (run files).files.settings.bind Text.readText = some settings'
  /-- The first version on a line of the project file is replaced. -/
  project_renewed : RenewsFirst projectKey ['"'] (assigned projectKey v) true project project'
  /-- Every version in the settings module is replaced. -/
  settings_renewed :
    RenewsAll settingsKey ['"', '\''] (assigned settingsKey v) settings settings'
  /-- A second run ends as it should. -/
  failure_again : (run (run files).files).failure = none
  /-- A second run changes nothing. -/
  files_again : (run (run files).files).files = (run files).files

theorem edit_eq_ok {update : List Char → List Char} {file : Option (List UInt8)} {cs : List Char}
    (h : file.bind Text.readText = some cs) :
    edit update file = .ok (Text.Utf8.encode (String.ofList (update cs))) := by
  obtain ⟨bytes, rfl, hbytes⟩ := Option.bind_eq_some_iff.1 h
  obtain ⟨s, hs, rfl⟩ := Option.map_eq_some_iff.1 hbytes
  simp only [edit, hs]

theorem return_notMem_of_readText {file : Option (List UInt8)} {cs : List Char}
    (h : file.bind Text.readText = some cs) : '\r' ∉ cs := by
  obtain ⟨bytes, -, hbytes⟩ := Option.bind_eq_some_iff.1 h
  obtain ⟨s, -, rfl⟩ := Option.map_eq_some_iff.1 hbytes
  exact Text.return_notMem_unifyLineEnds s.toList

section

variable {files : Files} {v : String} {project settings : List Char}

theorem run_eq (hversion : readVersion files.version = .ok v)
    (hproject : files.project.bind Text.readText = some project)
    (hsettings : files.settings.bind Text.readText = some settings) :
    (run files).files = ⟨files.version,
        some (Text.Utf8.encode (String.ofList (updateProject v project))),
        some (Text.Utf8.encode (String.ofList (updateSettings v settings)))⟩ ∧
      (run files).failure = none := by
  simp only [run, hversion, edit_eq_ok hproject, edit_eq_ok hsettings, and_self]

/-- **A version is copied into its places and nowhere else**, and a second
run finds nothing to do. -/
theorem run_copies_version (hversion : readVersion files.version = .ok v)
    (hproject : files.project.bind Text.readText = some project)
    (hsettings : files.settings.bind Text.readText = some settings) :
    ∃ project' settings', CopiesVersion files v project settings project' settings' := by
  have hnewProject : IsAssigned projectKey ['"'] (assigned projectKey v) :=
    isAssigned_assigned hversion (by decide)
  have hnewSettings : IsAssigned settingsKey ['"', '\''] (assigned settingsKey v) :=
    isAssigned_assigned hversion (by decide)
  -- what is written has no carriage return, so it is read back as it is
  have hplainProject : '\r' ∉ updateProject v project := by
    intro hmem
    rcases mem_replaceFirst distinct_projectKey hmem with hold | hnew
    · exact return_notMem_of_readText hproject hold
    · exact return_notMem_assigned hversion (by decide) hnew
  have hplainSettings : '\r' ∉ updateSettings v settings := by
    intro hmem
    rcases mem_replaceAll distinct_settingsKey hmem with hold | hnew
    · exact return_notMem_of_readText hsettings hold
    · exact return_notMem_assigned hversion (by decide) hnew
  obtain ⟨hfiles, hfailure⟩ := run_eq hversion hproject hsettings
  have hversion' : (run files).files.version = files.version := by rw [hfiles]
  have hproject' : (run files).files.project.bind Text.readText =
      some (updateProject v project) := by
    rw [hfiles]
    exact Text.readText_encode hplainProject
  have hsettings' : (run files).files.settings.bind Text.readText =
      some (updateSettings v settings) := by
    rw [hfiles]
    exact Text.readText_encode hplainSettings
  obtain ⟨hfilesAgain, hfailureAgain⟩ := run_eq (hversion' ▸ hversion) hproject' hsettings'
  refine ⟨updateProject v project, updateSettings v settings, hfailure, hversion', hproject',
    hsettings', renewsFirst_replaceFirst distinct_projectKey hnewProject project,
    renewsAll_replaceAll distinct_settingsKey hnewSettings settings, hfailureAgain, ?_⟩
  rw [hfilesAgain, hversion', hfiles, updateProject, updateProject, updateSettings, updateSettings,
    replaceFirst_replaceFirst distinct_projectKey hnewProject,
    replaceAll_replaceAll distinct_settingsKey hnewSettings]

end

/-- A project file with two versions, the second on a line of its own. -/
def outdatedProject : List Char := "a_version = \"0.8\"\nversion = \"0.9\"\n".toList

/-- A settings module with two versions side by side, one of them between
two kinds of marks. -/
def outdatedSettings : List Char := "____version__ = '1.0\"__version__ = \"2\"".toList

/-- The files of a project whose version has moved on. -/
def outdated : Files where
  version := some [0x31, 0x2e, 0x32, 0x2e, 0x30, 0x0a]
  project := some (Text.Utf8.encode (String.ofList outdatedProject))
  settings := some (Text.Utf8.encode (String.ofList outdatedSettings))

theorem outdated_copied :
    readVersion outdated.version = .ok "1.2.0" ∧
      outdated.project.bind Text.readText = some outdatedProject ∧
      outdated.settings.bind Text.readText = some outdatedSettings ∧
      ∃ project' settings',
        CopiesVersion outdated "1.2.0" outdatedProject outdatedSettings project' settings' := by
  have hversion : readVersion outdated.version = .ok "1.2.0" := by decide +kernel
  have hproject : outdated.project.bind Text.readText = some outdatedProject :=
    Text.readText_encode (by decide)
  have hsettings : outdated.settings.bind Text.readText = some outdatedSettings :=
    Text.readText_encode (by decide)
  exact ⟨hversion, hproject, hsettings, run_copies_version hversion hproject hsettings⟩

end VersionSync

end ConstGraph
