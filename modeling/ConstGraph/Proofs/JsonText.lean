import ConstGraph.Json.Display
import ConstGraph.Json.Printer
import ConstGraph.Json.Reader
import Mathlib.Tactic.Common

/-!
# Reading undoes writing

A value that holds no fractions and no field twice, nests no deeper than
is read and has no overlong integer is read back from its text, whatever
the layout (`parse_render`). `Fits` is that condition on a value.

The reader is followed from the leaves up. What it makes of an escaped
character is a piece or two, and pieces assemble to the character again
whatever comes next (`Spells`). An integer is read back if what follows
does not go on with it (`Stops`). A value is then read by induction on
`Fits`, with enough fuel for twice its length.
-/

namespace ConstGraph

namespace Json

/-! ## Strings -/

/-- The written characters are read as pieces that stand for the given
characters, wherever they are. -/
structure Spells (written cs : List Char) (ps : List Piece) : Prop where
  /-- The pieces are read. -/
  read : ∀ acc rest, stringBody acc (written ++ rest) = stringBody (ps.reverse ++ acc) rest
  /-- The pieces come to the characters. -/
  assembled : ∀ qs, assemble (ps ++ qs) = cs ++ assemble qs

theorem Spells.nil : Spells [] [] [] := ⟨fun _ _ => rfl, fun _ => rfl⟩

theorem Spells.append {w w' cs cs' : List Char} {ps ps' : List Piece} (h : Spells w cs ps)
    (h' : Spells w' cs' ps') : Spells (w ++ w') (cs ++ cs') (ps ++ ps') where
  read acc rest := by
    rw [List.append_assoc, h.read, h'.read, List.reverse_append, List.append_assoc]
  assembled qs := by
    rw [List.append_assoc, h.assembled, h'.assembled, List.append_assoc]

/-- A character that stands for itself. -/
theorem spells_plain {c : Char} (hlow : 0x20 ≤ c.toNat) (hquote : c ≠ '"') (hslash : c ≠ '\\') :
    Spells [c] [c] [.plain c] where
  read acc rest := by
    have hcontrol : ¬ c.toNat < 0x20 := by omega
    rw [List.singleton_append, stringBody]
    · simp [hcontrol, hslash]
    · exact fun h => hquote h
    · exact fun _ _ _ _ _ h => absurd h hslash
    · exact fun _ _ h => absurd h hslash
  assembled qs := by
    rw [List.singleton_append, assemble, List.singleton_append]

/-- A character behind a backslash. -/
theorem spells_short {e c : Char} (hu : e ≠ 'u') (h : shortEscape? e = some c) :
    Spells ['\\', e] [c] [.plain c] where
  read acc rest := by
    rw [List.cons_append, List.singleton_append, stringBody]
    · rw [h]
      rfl
    · exact fun _ _ _ _ _ h => absurd h hu
  assembled qs := by
    rw [List.singleton_append, assemble, List.singleton_append]

theorem hexValue?_hexDigit {n : Nat} (h : n < 16) : hexValue? (hexDigit n) = some n := by
  have all : ∀ k : Fin 16, hexValue? (hexDigit k) = some k.val := by decide
  exact all ⟨n, h⟩

/-- Four digits are read as the unit they were written for. -/
theorem unit?_hexDigit {n : Nat} (h : n < 0x10000) :
    unit? (hexDigit (n / 4096 % 16)) (hexDigit (n / 256 % 16)) (hexDigit (n / 16 % 16))
      (hexDigit (n % 16)) = some n := by
  have hlt : ∀ k, k % 16 < 16 := fun k => Nat.mod_lt _ (by decide)
  simp only [unit?, hexValue?_hexDigit (hlt _), Option.bind_eq_bind, Option.bind_some,
    Option.pure_def]
  congr 1
  omega

theorem stringBody_unitEscape {n : Nat} (h : n < 0x10000) (acc : List Piece) (rest : List Char) :
    stringBody acc (unitEscape n ++ rest) = stringBody (.unit n :: acc) rest := by
  rw [unitEscape]
  simp only [List.cons_append, List.nil_append]
  rw [stringBody, unit?_hexDigit h]

/-- A unit that is no half of a pair is a character by itself, whatever
comes next. -/
theorem assemble_unit {n : Nat} (hhigh : isHighUnit n = false) (hlow : isLowUnit n = false)
    (qs : List Piece) : assemble (.unit n :: qs) = Char.ofNat n :: assemble qs := by
  have hchar : unitChar n = Char.ofNat n := by simp [unitChar, hhigh, hlow]
  rw [← hchar]
  cases qs with
  | nil => simp [assemble]
  | cons q qs =>
    cases q with
    | plain c => simp [assemble]
    | unit m => simp [assemble, hhigh]

/-- A character of one unit. -/
theorem spells_unit {c : Char} (h : c.toNat < 0x10000) :
    Spells (unitEscape c.toNat) [c] [.unit c.toNat] where
  read acc rest := stringBody_unitEscape h acc rest
  assembled qs := by
    have hvalid := c.valid
    have hrange : c.toNat < 0xd800 ∨ 0xdfff < c.toNat := by
      rcases hvalid with hv | ⟨hv, -⟩
      · exact Or.inl hv
      · exact Or.inr hv
    rw [List.singleton_append, assemble_unit, Char.ofNat_toNat, List.singleton_append]
    · simp only [isHighUnit, Bool.and_eq_false_iff, decide_eq_false_iff_not]
      omega
    · simp only [isLowUnit, Bool.and_eq_false_iff, decide_eq_false_iff_not]
      omega

/-- A character of two units. -/
theorem spells_pair {c : Char} (h : 0x10000 ≤ c.toNat) :
    Spells (unitEscape (0xd800 + (c.toNat - 0x10000) / 1024) ++
        unitEscape (0xdc00 + (c.toNat - 0x10000) % 1024)) [c]
      [.unit (0xd800 + (c.toNat - 0x10000) / 1024),
        .unit (0xdc00 + (c.toNat - 0x10000) % 1024)] := by
  have hmax : c.toNat < 0x110000 := by
    rcases c.valid with hv | ⟨-, hv⟩
    · exact Nat.lt_trans hv (by decide)
    · exact hv
  constructor
  · intro acc rest
    rw [List.append_assoc, stringBody_unitEscape (by omega), stringBody_unitEscape (by omega)]
    rfl
  · intro qs
    have hhigh : isHighUnit (0xd800 + (c.toNat - 0x10000) / 1024) = true := by
      simp only [isHighUnit, Bool.and_eq_true, decide_eq_true_eq]
      omega
    have hlow : isLowUnit (0xdc00 + (c.toNat - 0x10000) % 1024) = true := by
      simp only [isLowUnit, Bool.and_eq_true, decide_eq_true_eq]
      omega
    have hpair : pairChar (0xd800 + (c.toNat - 0x10000) / 1024)
        (0xdc00 + (c.toNat - 0x10000) % 1024) = c := by
      rw [pairChar, show 0x10000 + (0xd800 + (c.toNat - 0x10000) / 1024 - 0xd800) * 1024 +
        (0xdc00 + (c.toNat - 0x10000) % 1024 - 0xdc00) = c.toNat by omega, Char.ofNat_toNat]
    simp only [List.cons_append, List.nil_append]
    rw [assemble, hhigh, hlow, hpair]
    rfl

/-- Every character is read back from its escape. -/
theorem exists_spells_escape (c : Char) : ∃ ps, Spells (escape c) [c] ps := by
  unfold escape
  -- the characters with an escape of their own come first
  iterate 7
    split
    · next h =>
      subst h
      exact ⟨_, spells_short (by decide) rfl⟩
  split
  · next hquote hslash _ _ _ _ _ h => exact ⟨_, spells_plain h.1 hquote hslash⟩
  split
  · next h => exact ⟨_, spells_unit h⟩
  · next h => exact ⟨_, spells_pair (by omega)⟩

/-- **A string is read back** up to its closing quote. -/
theorem stringBody_flatMap_escape (s rest : List Char) :
    stringBody [] (s.flatMap escape ++ '"' :: rest) = .ok (String.ofList s, rest) := by
  have hall : ∃ ps, Spells (s.flatMap escape) s ps := by
    induction s with
    | nil => exact ⟨[], Spells.nil⟩
    | cons c s ih =>
      obtain ⟨ps, hc⟩ := exists_spells_escape c
      obtain ⟨qs, hs⟩ := ih
      exact ⟨ps ++ qs, hc.append hs⟩
  obtain ⟨ps, hps⟩ := hall
  have hassembled : assemble ps = s := by simpa [assemble] using hps.assembled []
  rw [hps.read, stringBody, List.append_nil, List.reverse_reverse, hassembled]

/-! ## Integers -/

/-- What follows does not go on with a number. -/
def Stops (rest : List Char) : Prop :=
  ∀ c ∈ rest.head?, isDigit c = false ∧ c ≠ '.' ∧ c ≠ 'e' ∧ c ≠ 'E'

theorem isDigit_eq (c : Char) : isDigit c = c.isDigit := by
  simp only [isDigit, Char.isDigit, Char.le_def, ge_iff_le, UInt32.le_iff_toNat_le]

theorem isDigit_of_mem_toDigits {n : Nat} {c : Char} (h : c ∈ Nat.toDigits 10 n) :
    isDigit c = true := by
  rw [isDigit_eq]
  exact Nat.isDigit_of_mem_toDigits (by decide) (by decide) h

theorem length_toDigits_le {n m : Nat} (hm : 0 < m) (h : ¬ Nat.pow 10 m ≤ n) :
    (Nat.toDigits 10 n).length ≤ m :=
  (Nat.length_toDigits_le_iff (by decide) hm).2 (Nat.not_le.1 h)

theorem digitsValue_toDigits (n : Nat) : digitsValue (Nat.toDigits 10 n) = n :=
  Nat.ofDigitChars_toDigits (by decide) (by decide)

/-- Only zero is written with a leading zero. -/
theorem head?_toDigits_ne_zero {n : Nat} (h : 0 < n) : (Nat.toDigits 10 n).head? ≠ some '0' := by
  induction n using Nat.strongRecOn with
  | _ n ih =>
    rw [Nat.toDigits_eq_if (by decide)]
    split
    · next hlt =>
      have all : ∀ k : Fin 10, 0 < k.val → [k.val.digitChar].head? ≠ some '0' := by decide
      exact all ⟨n, hlt⟩ h
    · next hge =>
      have hfront := ih (n / 10) (by omega) (by omega)
      obtain ⟨c, cs, hcs⟩ :=
        List.exists_cons_of_ne_nil (Nat.toDigits_ne_nil (n := n / 10) (b := 10))
      rw [hcs] at hfront ⊢
      exact hfront

/-- The digits the reader takes are those that were written. -/
theorem leadingDigits_toDigits (n : Nat) {rest : List Char} (h : Stops rest) :
    leadingDigits (Nat.toDigits 10 n ++ rest) = Nat.toDigits 10 n := by
  rcases Nat.eq_zero_or_pos n with rfl | hpos
  · rw [Nat.toDigits_zero]
    rfl
  · have hhead := head?_toDigits_ne_zero hpos
    obtain ⟨c, cs, hcs⟩ := List.exists_cons_of_ne_nil (Nat.toDigits_ne_nil (n := n) (b := 10))
    rw [leadingDigits]
    · rw [List.takeWhile_append_of_pos fun c hc => isDigit_of_mem_toDigits hc]
      cases rest with
      | nil => simp
      | cons c rest => simp [(h c rfl).1]
    · intro tail heq
      rw [hcs] at hhead heq
      exact absurd (congrArg some (List.cons.inj heq).1) hhead

/-- An integer after its sign. -/
theorem unsigned_toDigits (negative : Bool) {n : Nat}
    (hlen : (Nat.toDigits 10 n).length ≤ maxDigits) {rest : List Char} (h : Stops rest) :
    unsigned negative (Nat.toDigits 10 n ++ rest) =
      .ok (int (if negative then -(n : Int) else n), rest) := by
  have hfraction : fraction rest = ([], rest) := by
    cases rest with
    | nil => rfl
    | cons c rest =>
      rw [fraction]
      exact fun _ heq => (h c rfl).2.1 (List.cons.inj heq).1
  have hexponent : exponent rest = (none, rest) := by
    cases rest with
    | nil => rfl
    | cons c rest => simp [exponent, (h c rfl).2.2.1, (h c rfl).2.2.2]
  simp only [unsigned]
  rw [leadingDigits_toDigits n h, List.drop_left, hfraction]
  simp only [hexponent, digitsValue_toDigits]
  simp [Nat.toDigits_ne_nil, Nat.not_lt.2 hlen]

theorem ne_of_isDigit {c d : Char} (hc : isDigit c = true) (hd : isDigit d = false) : c ≠ d := by
  rintro rfl
  rw [hc] at hd
  cases hd

/-- A number begins like no word. -/
theorem findWord_digit {c : Char} (hc : isDigit c = true) (cs : List Char) :
    (words.findSome? fun w => (expect? w.1 (c :: cs)).map fun rest => (w.2, rest)) = none := by
  have hne : ∀ d, isDigit d = false → (d == c) = false :=
    fun d hd => beq_eq_false_iff_ne.2 (ne_of_isDigit hc hd).symm
  simp [words, expect?, hne 'n' rfl, hne 't' rfl, hne 'f' rfl, hne 'N' rfl, hne 'I' rfl,
    hne '-' rfl]

/-- A number with a sign begins like no word. -/
theorem findWord_sign {c : Char} (hc : isDigit c = true) (cs : List Char) :
    (words.findSome? fun w => (expect? w.1 ('-' :: c :: cs)).map fun rest => (w.2, rest)) =
      none := by
  have hne : ('I' == c) = false := beq_eq_false_iff_ne.2 (ne_of_isDigit hc rfl).symm
  simp [words, expect?, hne]

/-- The text of an integer starts with a digit or a sign. -/
theorem exists_head_int (k : Int) (rest : List Char) :
    ∃ c cs, (toString k).toList ++ rest = c :: cs ∧ (isDigit c = true ∨ c = '-') := by
  rw [Int.toString_eq_repr, Int.repr_eq_if]
  split
  · obtain ⟨c, ds, hds⟩ := List.exists_cons_of_ne_nil (Nat.toDigits_ne_nil (n := k.toNat) (b := 10))
    rw [Nat.toList_repr, hds]
    exact ⟨c, ds ++ rest, rfl, Or.inl (isDigit_of_mem_toDigits (hds ▸ List.mem_cons_self))⟩
  · rw [String.toList_append]
    exact ⟨'-', _, rfl, Or.inr rfl⟩

/-- **An integer is read back**, if what follows does not go on with it. -/
theorem scalar_int {k : Int} (hk : isOverlong k = false) {rest : List Char} (h : Stops rest) :
    scalar ((toString k).toList ++ rest) = .ok (int k, rest) := by
  have hlen : (Nat.toDigits 10 k.natAbs).length ≤ maxWrittenDigits :=
    length_toDigits_le (by decide) (of_decide_eq_false hk)
  obtain ⟨c, ds, hds⟩ := List.exists_cons_of_ne_nil (Nat.toDigits_ne_nil (n := k.natAbs) (b := 10))
  have hc : isDigit c = true := isDigit_of_mem_toDigits (hds ▸ List.mem_cons_self)
  rw [Int.toString_eq_repr, Int.repr_eq_if]
  split
  · next hpos =>
    have hdigits := unsigned_toDigits false hlen h
    have hsign : c ≠ '-' := ne_of_isDigit hc rfl
    rw [Nat.toList_repr, show k.toNat = k.natAbs by omega]
    rw [hds, List.cons_append] at hdigits ⊢
    unfold scalar
    rw [findWord_digit hc]
    dsimp only
    split
    · next heq => exact absurd (List.cons.inj heq).1 hsign
    · have hvalue : (k.natAbs : Int) = k := by omega
      rw [hdigits, if_neg (by decide), hvalue]
  · next hneg =>
    have hdigits := unsigned_toDigits true hlen h
    rw [String.toList_append, Nat.toList_repr, show (-k).toNat = k.natAbs by omega,
      show "-".toList = ['-'] from rfl]
    rw [hds] at hdigits ⊢
    unfold scalar
    simp only [List.cons_append, List.nil_append] at hdigits ⊢
    rw [findWord_sign hc]
    dsimp only
    have hvalue : -(k.natAbs : Int) = k := by omega
    rw [hdigits, if_pos trivial, hvalue]

/-! ## Values -/

/-- The value can be read back: it holds no fractions, no overlong integer
and no field twice, and nests at most so deep. -/
inductive Fits : Nat → Json → Prop
  /-- `null` fits. -/
  | null {n : Nat} : Fits n null
  /-- A truth value fits. -/
  | bool {n : Nat} {b : Bool} : Fits n (bool b)
  /-- An integer fits if it is not too long. -/
  | int {n : Nat} {k : Int} : isOverlong k = false → Fits n (int k)
  /-- A string fits. -/
  | str {n : Nat} {s : String} : Fits n (str s)
  /-- An array of values that fit one level deeper. -/
  | arr {n : Nat} {xs : List Json} : (∀ x ∈ xs, Fits n x) → Fits (n + 1) (arr xs)
  /-- An object of such values, each under its own name. -/
  | obj {n : Nat} {fs : List (String × Json)} : (fs.map Prod.fst).Nodup →
      (∀ f ∈ fs, Fits n f.2) → Fits (n + 1) (obj fs)

variable {l : Layout} {depth n : Nat} {j : Json} {rest : List Char}

/-- The text of a value starts with a token that closes nothing. -/
theorem exists_head_write (h : Fits n j) (l : Layout) (depth : Nat) (rest : List Char) :
    ∃ c cs, write l depth j rest = c :: cs ∧ isGap c = false ∧ c ≠ ']' ∧ c ≠ '\x7d' := by
  cases h with
  | null => exact ⟨_, _, rfl, by decide⟩
  | @bool _ b => cases b <;> exact ⟨_, _, rfl, by decide⟩
  | @int _ k hk =>
    obtain ⟨c, cs, hcs, hc⟩ := exists_head_int k rest
    refine ⟨c, cs, by rw [write, hcs], ?_⟩
    rcases hc with hc | rfl
    · have hne : ∀ d, isDigit d = false → c ≠ d := fun d hd => ne_of_isDigit hc hd
      refine ⟨?_, hne ']' rfl, hne '\x7d' rfl⟩
      simp [isGap, hne ' ' rfl, hne '\t' rfl, hne '\n' rfl, hne '\r' rfl]
    · decide
  | str => exact ⟨_, _, rfl, by decide⟩
  | @arr _ xs =>
    cases xs with
    | nil => exact ⟨_, _, rfl, by decide⟩
    | cons x xs => exact ⟨_, _, rfl, by decide⟩
  | @obj _ fs =>
    cases fs with
    | nil => exact ⟨_, _, rfl, by decide⟩
    | cons f fs => exact ⟨_, _, rfl, by decide⟩

/-! ### Gaps -/

theorem skip_cons {c : Char} (h : isGap c = false) (cs : List Char) : skip (c :: cs) = c :: cs := by
  rw [skip, List.dropWhile_cons_of_neg (by simp [h])]

theorem skip_append {gap : List Char} (h : ∀ c ∈ gap, isGap c = true) (cs : List Char) :
    skip (gap ++ cs) = skip cs :=
  List.dropWhile_append_of_pos h

theorem isGap_of_mem_gap (l : Layout) (depth : Nat) : ∀ c ∈ l.gap depth, isGap c = true := by
  intro c hc
  unfold Layout.gap at hc
  split at hc
  · cases hc
  · rcases List.mem_cons.1 hc with rfl | hc
    · rfl
    · obtain rfl := List.eq_of_mem_replicate hc
      rfl

/-- A separator is a comma and a gap. -/
theorem exists_separator_eq (l : Layout) (depth : Nat) :
    ∃ gap, l.separator depth = ',' :: gap ∧ ∀ c ∈ gap, isGap c = true := by
  unfold Layout.separator
  split
  · refine ⟨[' '], rfl, fun c hc => ?_⟩
    obtain rfl := List.mem_singleton.1 hc
    rfl
  · exact ⟨l.gap depth, rfl, isGap_of_mem_gap l depth⟩

theorem skip_write (h : Fits n j) : skip (write l depth j rest) = write l depth j rest := by
  obtain ⟨c, cs, hwrite, hgap, -⟩ := exists_head_write h l depth rest
  rw [hwrite, skip_cons hgap]

theorem stops_cons {c : Char} (hdigit : isDigit c = false) (hdot : c ≠ '.') (he : c ≠ 'e')
    (hE : c ≠ 'E') (cs : List Char) : Stops (c :: cs) := by
  rintro d ⟨⟩
  exact ⟨hdigit, hdot, he, hE⟩

theorem stops_gap_append {cs : List Char} (h : Stops cs) : Stops (l.gap depth ++ cs) := by
  unfold Layout.gap
  split
  · exact h
  · exact stops_cons rfl (by decide) (by decide) (by decide) _

/-- No number goes on into the end of an array or an object. -/
theorem stops_closing {c : Char} (hc : c = ']' ∨ c = '\x7d') (cs : List Char) :
    Stops (l.gap depth ++ c :: cs) := by
  refine stops_gap_append ?_
  rcases hc with rfl | rfl
  · exact stops_cons rfl (by decide) (by decide) (by decide) cs
  · exact stops_cons rfl (by decide) (by decide) (by decide) cs

theorem skip_quote (key : String) (cs : List Char) :
    skip (quote key.toList ++ cs) = quote key.toList ++ cs :=
  skip_cons rfl _

/-! ### Lengths -/

theorem length_le_writeItems (depth : Nat) (rest : List Char) {xs : List Json}
    (h : ∀ x ∈ xs, ∀ d r, r.length < (write l d x r).length) :
    rest.length ≤ (writeItems l depth xs rest).length := by
  induction xs with
  | nil => exact Nat.le_refl _
  | cons x xs ih =>
    have hx := h x List.mem_cons_self depth (writeItems l depth xs rest)
    have hxs := ih fun y hy => h y (List.mem_cons_of_mem x hy)
    rw [writeItems, List.length_append]
    omega

theorem length_le_writeFields (depth : Nat) (rest : List Char) {fs : List (String × Json)}
    (h : ∀ f ∈ fs, ∀ d r, r.length < (write l d f.2 r).length) :
    rest.length ≤ (writeFields l depth fs rest).length := by
  induction fs with
  | nil => exact Nat.le_refl _
  | cons f fs ih =>
    obtain ⟨key, x⟩ := f
    have hx := h (key, x) List.mem_cons_self depth (writeFields l depth fs rest)
    have hfs := ih fun y hy => h y (List.mem_cons_of_mem _ hy)
    simp only [writeFields, List.length_append, List.length_cons] at hx ⊢
    omega

/-- A value takes up some room. -/
theorem length_lt_write (h : Fits n j) :
    ∀ depth rest, rest.length < (write l depth j rest).length := by
  induction h with
  | null => intro depth rest; simp only [write, List.length_cons]; omega
  | @bool _ b => intro depth rest; cases b <;> simp only [write, List.length_cons] <;> omega
  | @int n k hk =>
    intro depth rest
    obtain ⟨c, cs, hcs, -⟩ := exists_head_int k []
    rw [write, List.length_append, ← List.append_nil (toString k).toList, hcs, List.length_cons]
    omega
  | str =>
    intro depth rest
    simp only [write, quote, List.length_append, List.length_cons]
    omega
  | @arr n xs _ ih =>
    intro depth rest
    cases xs with
    | nil => simp only [write, List.length_cons]; omega
    | cons x xs =>
      have hxs := length_le_writeItems (depth + 1) (l.gap depth ++ ']' :: rest)
        fun y hy => ih y (List.mem_cons_of_mem x hy)
      have hx := ih x List.mem_cons_self (depth + 1)
        (writeItems l (depth + 1) xs (l.gap depth ++ ']' :: rest))
      simp only [write, List.length_append, List.length_cons] at hxs hx ⊢
      omega
  | @obj n fs _ _ ih =>
    intro depth rest
    cases fs with
    | nil => simp only [write, List.length_cons]; omega
    | cons f fs =>
      obtain ⟨key, x⟩ := f
      have hfs := length_le_writeFields (depth + 1) (l.gap depth ++ '\x7d' :: rest)
        fun y hy => ih y (List.mem_cons_of_mem _ hy)
      have hx := ih (key, x) List.mem_cons_self (depth + 1)
        (writeFields l (depth + 1) fs (l.gap depth ++ '\x7d' :: rest))
      simp only [write, List.length_append, List.length_cons] at hfs hx ⊢
      omega

/-! ### Reading -/

/-- The value is read back from its text, with fuel for twice its length. -/
def Reads (n : Nat) (j : Json) : Prop :=
  ∀ (l : Layout) (depth : Nat) (rest : List Char) (fuel : Nat), Stops rest →
    2 * (write l depth j rest).length ≤ fuel + 2 * rest.length →
      value fuel n (write l depth j rest) = .ok (j, rest)

theorem stops_writeItems {xs : List Json} (h : Stops rest) :
    Stops (writeItems l depth xs rest) := by
  cases xs with
  | nil => exact h
  | cons x xs =>
    obtain ⟨gap, hsep, -⟩ := exists_separator_eq l depth
    rw [writeItems, hsep]
    exact stops_cons rfl (by decide) (by decide) (by decide) _

theorem stops_writeFields {fs : List (String × Json)} (h : Stops rest) :
    Stops (writeFields l depth fs rest) := by
  cases fs with
  | nil => exact h
  | cons f fs =>
    obtain ⟨gap, hsep, -⟩ := exists_separator_eq l depth
    rw [writeFields, hsep]
    exact stops_cons rfl (by decide) (by decide) (by decide) _

/-- The items of an array are read one after the other. -/
theorem items_write (l : Layout) (depth outer : Nat) (rest : List Char) {x : Json}
    {xs : List Json} (hxs : ∀ y ∈ x :: xs, Fits n y ∧ Reads n y) (acc : List Json) (fuel : Nat)
    (hfuel : 2 * (write l depth x (writeItems l depth xs
      (l.gap outer ++ ']' :: rest))).length + 1 ≤ fuel + 2 * rest.length) :
    items fuel n acc (write l depth x (writeItems l depth xs (l.gap outer ++ ']' :: rest))) =
      .ok (arr (acc.reverse ++ x :: xs), rest) := by
  induction xs generalizing x acc fuel with
  | nil =>
    obtain ⟨hfits, hreads⟩ := hxs x List.mem_cons_self
    have hlen := length_lt_write hfits (l := l) depth (l.gap outer ++ ']' :: rest)
    simp only [writeItems, List.length_append, List.length_cons] at hlen hfuel ⊢
    obtain ⟨fuel, rfl⟩ := Nat.exists_eq_add_one_of_ne_zero (n := fuel) (by omega)
    have hvalue := hreads l depth (l.gap outer ++ ']' :: rest) fuel (stops_closing (.inl rfl) rest)
      (by simp only [List.length_append, List.length_cons]; omega)
    rw [items, hvalue]
    simp only [bind, Except.bind]
    rw [skip_append (isGap_of_mem_gap l outer), skip_cons rfl]
    simp [pure, Except.pure]
  | cons y ys ih =>
    obtain ⟨hfits, hreads⟩ := hxs x List.mem_cons_self
    obtain ⟨gap, hsep, hgap⟩ := exists_separator_eq l depth
    have hys : ∀ z ∈ y :: ys, Fits n z ∧ Reads n z := fun z hz => hxs z (List.mem_cons_of_mem x hz)
    have hy := (hys y List.mem_cons_self).1
    have hlen := length_lt_write hfits (l := l) depth
      (writeItems l depth (y :: ys) (l.gap outer ++ ']' :: rest))
    have hitems : rest.length ≤
        (writeItems l depth (y :: ys) (l.gap outer ++ ']' :: rest)).length := by
      have := length_le_writeItems (l := l) depth (l.gap outer ++ ']' :: rest)
        fun z (hz : z ∈ y :: ys) => length_lt_write (hys z hz).1
      simp only [List.length_append, List.length_cons] at this
      omega
    obtain ⟨fuel, rfl⟩ := Nat.exists_eq_add_one_of_ne_zero (n := fuel) (by omega)
    have hstops : Stops (writeItems l depth (y :: ys) (l.gap outer ++ ']' :: rest)) :=
      stops_writeItems (stops_closing (.inl rfl) rest)
    have hvalue := hreads l depth _ fuel hstops (by omega)
    rw [items, hvalue]
    simp only [bind, Except.bind]
    have hwrite : writeItems l depth (y :: ys) (l.gap outer ++ ']' :: rest) =
        ',' :: (gap ++ write l depth y (writeItems l depth ys (l.gap outer ++ ']' :: rest))) := by
      rw [writeItems, hsep, List.cons_append]
    rw [hwrite] at hlen hfuel ⊢
    rw [skip_cons rfl]
    change items fuel n (x :: acc) (skip (gap ++ _)) = _
    rw [skip_append hgap, skip_write hy, ih hys (x :: acc) fuel]
    · simp
    · simp only [List.length_cons, List.length_append] at hlen
      omega

/-- A field up to its value. -/
theorem fields_key (fuel n : Nat) (acc : List (String × Json)) (key : String) (cs : List Char) :
    fields (fuel + 1) n acc (quote key.toList ++ ':' :: ' ' :: cs) =
      (value fuel n (skip cs)).bind fun (x, rest) =>
        match skip rest with
        | '\x7d' :: rest => .ok (obj (distinctFields ((key, x) :: acc).reverse), rest)
        | ',' :: rest => fields fuel n ((key, x) :: acc) (skip rest)
        | _ => .error .malformed := by
  have hquote : quote key.toList ++ ':' :: ' ' :: cs =
      '"' :: (key.toList.flatMap escape ++ '"' :: ':' :: ' ' :: cs) := by
    simp [quote]
  rw [hquote, fields, stringBody_flatMap_escape]
  simp only [bind, Except.bind, String.ofList_toList]
  rw [skip_cons rfl]
  rfl

/-- The fields of an object are read one after the other. -/
theorem fields_write (l : Layout) (depth outer : Nat) (rest : List Char) {key : String}
    {x : Json} {fs : List (String × Json)} (hfs : ∀ f ∈ (key, x) :: fs, Fits n f.2 ∧ Reads n f.2)
    (acc : List (String × Json)) (fuel : Nat)
    (hfuel : 2 * (write l depth x (writeFields l depth fs
      (l.gap outer ++ '\x7d' :: rest))).length + 1 ≤ fuel + 2 * rest.length) :
    fields fuel n acc (quote key.toList ++ ':' :: ' ' ::
        write l depth x (writeFields l depth fs (l.gap outer ++ '\x7d' :: rest))) =
      .ok (obj (distinctFields (acc.reverse ++ (key, x) :: fs)), rest) := by
  induction fs generalizing key x acc fuel with
  | nil =>
    obtain ⟨hfits, hreads⟩ : Fits n x ∧ Reads n x := hfs (key, x) List.mem_cons_self
    have hlen := length_lt_write hfits (l := l) depth (l.gap outer ++ '\x7d' :: rest)
    simp only [writeFields, List.length_append, List.length_cons] at hlen hfuel ⊢
    obtain ⟨fuel, rfl⟩ := Nat.exists_eq_add_one_of_ne_zero (n := fuel) (by omega)
    have hvalue := hreads l depth (l.gap outer ++ '\x7d' :: rest) fuel
      (stops_closing (.inr rfl) rest) (by simp only [List.length_append, List.length_cons]; omega)
    rw [fields_key, skip_write hfits, hvalue]
    simp only [Except.bind]
    rw [skip_append (isGap_of_mem_gap l outer), skip_cons rfl]
    simp
  | cons f fs ih =>
    obtain ⟨key', y⟩ := f
    obtain ⟨hfits, hreads⟩ : Fits n x ∧ Reads n x := hfs (key, x) List.mem_cons_self
    obtain ⟨gap, hsep, hgap⟩ := exists_separator_eq l depth
    have hys : ∀ f ∈ (key', y) :: fs, Fits n f.2 ∧ Reads n f.2 :=
      fun f hf => hfs f (List.mem_cons_of_mem _ hf)
    have hlen := length_lt_write hfits (l := l) depth
      (writeFields l depth ((key', y) :: fs) (l.gap outer ++ '\x7d' :: rest))
    have hrest : rest.length ≤
        (writeFields l depth ((key', y) :: fs) (l.gap outer ++ '\x7d' :: rest)).length := by
      have := length_le_writeFields (l := l) depth (l.gap outer ++ '\x7d' :: rest)
        fun f (hf : f ∈ (key', y) :: fs) => length_lt_write (hys f hf).1
      simp only [List.length_append, List.length_cons] at this
      omega
    obtain ⟨fuel, rfl⟩ := Nat.exists_eq_add_one_of_ne_zero (n := fuel) (by omega)
    have hstops : Stops (writeFields l depth ((key', y) :: fs) (l.gap outer ++ '\x7d' :: rest)) :=
      stops_writeFields (stops_closing (.inr rfl) rest)
    have hvalue := hreads l depth _ fuel hstops (by omega)
    rw [fields_key, skip_write hfits, hvalue]
    simp only [Except.bind]
    have hwrite : writeFields l depth ((key', y) :: fs) (l.gap outer ++ '\x7d' :: rest) =
        ',' :: (gap ++ (quote key'.toList ++ ':' :: ' ' ::
          write l depth y (writeFields l depth fs (l.gap outer ++ '\x7d' :: rest)))) := by
      rw [writeFields, hsep, List.cons_append]
    rw [hwrite] at hlen hfuel ⊢
    rw [skip_cons rfl]
    change fields fuel n ((key, x) :: acc) (skip (gap ++ _)) = _
    rw [skip_append hgap, skip_quote, ih hys ((key, x) :: acc) fuel]
    · simp
    · simp only [List.length_cons, List.length_append] at hlen hfuel
      omega

/-! ### Field names -/

theorem insertField_of_notMem {key : String} {x : Json} {fs : List (String × Json)}
    (h : key ∉ fs.map Prod.fst) : insertField key x fs = fs ++ [(key, x)] := by
  induction fs with
  | nil => rfl
  | cons f fs ih =>
    obtain ⟨k, v⟩ := f
    simp only [List.map_cons, List.mem_cons, not_or] at h
    have hne : (k == key) = false := by simpa using Ne.symm h.1
    rw [insertField, hne, ih h.2]
    rfl

/-- Fields of different names stay as they are. -/
theorem distinctFields_of_nodup {fs : List (String × Json)} (h : (fs.map Prod.fst).Nodup) :
    distinctFields fs = fs := by
  have run : ∀ done, ((done ++ fs).map Prod.fst).Nodup →
      fs.foldl (fun gs f => insertField f.1 f.2 gs) done = done ++ fs := by
    induction fs with
    | nil => simp
    | cons f fs ih =>
      intro done hdone
      have hf : f.1 ∉ done.map Prod.fst := by
        simp only [List.map_append, List.map_cons, List.nodup_append] at hdone
        exact fun hmem => hdone.2.2 f.1 hmem f.1 List.mem_cons_self rfl
      have hfs : (fs.map Prod.fst).Nodup := (List.nodup_cons.1 h).2
      rw [List.foldl_cons, insertField_of_notMem hf, ih hfs]
      · simp
      · simpa using hdone
  exact run [] h

/-! ### Whole texts -/

/-- An integer is told from the other values by its first character. -/
theorem reads_int {k : Int} (hk : Fits n (int k)) : Reads n (int k) := by
  intro l depth rest fuel hstops hfuel
  have hlen := length_lt_write (l := l) hk depth rest
  obtain ⟨fuel, rfl⟩ := Nat.exists_eq_add_one_of_ne_zero (n := fuel) (by omega)
  obtain ⟨c, cs, hcs, hc⟩ := exists_head_int k rest
  have hother : c ≠ '"' ∧ c ≠ '[' ∧ c ≠ '\x7b' := by
    rcases hc with hc | rfl
    · exact ⟨ne_of_isDigit hc rfl, ne_of_isDigit hc rfl, ne_of_isDigit hc rfl⟩
    · decide
  cases hk with
  | int hk =>
    have hscalar := scalar_int hk hstops
    rw [write, hcs]
    rw [hcs] at hscalar
    rw [value, hscalar]
    · exact fun _ h => hother.1 (List.cons.inj h).1
    · exact fun _ h => hother.2.1 (List.cons.inj h).1
    · exact fun _ h => hother.2.2 (List.cons.inj h).1

theorem reads_str (n : Nat) (s : String) : Reads n (str s) := by
  intro l depth rest fuel hstops hfuel
  have hlen := length_lt_write (l := l) (Fits.str (n := n) (s := s)) depth rest
  obtain ⟨fuel, rfl⟩ := Nat.exists_eq_add_one_of_ne_zero (n := fuel) (by omega)
  have hquote : quote s.toList ++ rest =
      '"' :: (s.toList.flatMap escape ++ '"' :: rest) := by
    simp [quote]
  rw [write, hquote, value, stringBody_flatMap_escape]
  simp [bind, Except.bind, pure, Except.pure]

theorem reads_arr {xs : List Json} (hxs : ∀ x ∈ xs, Fits n x ∧ Reads n x) :
    Reads (n + 1) (arr xs) := by
  intro l depth rest fuel hstops hfuel
  have hlen := length_lt_write (l := l) (Fits.arr fun x hx => (hxs x hx).1) depth rest
  obtain ⟨fuel, rfl⟩ := Nat.exists_eq_add_one_of_ne_zero (n := fuel) (by omega)
  cases xs with
  | nil => rfl
  | cons x xs =>
    have hx := (hxs x List.mem_cons_self).1
    obtain ⟨c, cs, hcs, -, hclose, -⟩ := exists_head_write hx l (depth + 1)
      (writeItems l (depth + 1) xs (l.gap depth ++ ']' :: rest))
    have hitems := items_write l (depth + 1) depth rest hxs [] fuel
      (by simp only [write, List.length_cons, List.length_append] at hfuel; omega)
    rw [write, value]
    simp only [Nat.add_eq_zero_iff, Nat.one_ne_zero, and_false, if_false, Nat.add_sub_cancel]
    rw [skip_append (isGap_of_mem_gap l _), skip_write hx]
    -- the first item does not begin like the end of the array
    split
    · next heq =>
      rw [hcs] at heq
      exact absurd (List.cons.inj heq).1 hclose
    · exact hitems

theorem reads_obj {fs : List (String × Json)} (hnodup : (fs.map Prod.fst).Nodup)
    (hfs : ∀ f ∈ fs, Fits n f.2 ∧ Reads n f.2) : Reads (n + 1) (obj fs) := by
  intro l depth rest fuel hstops hfuel
  have hlen := length_lt_write (l := l) (Fits.obj hnodup fun f hf => (hfs f hf).1) depth rest
  obtain ⟨fuel, rfl⟩ := Nat.exists_eq_add_one_of_ne_zero (n := fuel) (by omega)
  cases fs with
  | nil => rfl
  | cons f fs =>
    obtain ⟨key, x⟩ := f
    have hfields := fields_write l (depth + 1) depth rest hfs [] fuel
      (by simp only [write, List.length_cons, List.length_append] at hfuel; omega)
    rw [write, value]
    simp only [Nat.add_eq_zero_iff, Nat.one_ne_zero, and_false, if_false, Nat.add_sub_cancel]
    rw [skip_append (isGap_of_mem_gap l _), skip_quote]
    rw [List.reverse_nil, List.nil_append, distinctFields_of_nodup hnodup] at hfields
    exact hfields

/-- **A value is read back** from its text, wherever it stands. -/
theorem reads_of_fits (h : Fits n j) : Reads n j := by
  induction h with
  | null =>
    rintro l depth rest (_ | fuel) hstops hfuel
    · simp only [write, List.length_cons] at hfuel
      omega
    · rfl
  | @bool _ b =>
    rintro l depth rest (_ | fuel) hstops hfuel
    · cases b <;> simp only [write, List.length_cons] at hfuel <;> omega
    · cases b <;> rfl
  | int hk => exact reads_int (.int hk)
  | @str n s => exact reads_str n s
  | arr hxs ih => exact reads_arr fun x hx => ⟨hxs x hx, ih x hx⟩
  | obj hnodup hfs ih => exact reads_obj hnodup fun f hf => ⟨hfs f hf, ih f hf⟩

/-- **Reading undoes writing**, whatever the layout. -/
theorem parse_render (h : Fits n j) (l : Layout) : parse (j.render l) n = .ok j := by
  have hvalue := reads_of_fits h l 0 [] (2 * (write l 0 j []).length + 1) (by rintro c ⟨⟩)
    (by simp)
  rw [parse, render, String.toList_ofList, skip_write h, hvalue]
  rfl

end Json

end ConstGraph
