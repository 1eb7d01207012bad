import ConstGraph.Proofs.AuditListing
import ConstGraph.Proofs.ExportedText

/-!
# Icons on plain screens

A terminal that does not take UTF-8 is shown plain words for icons. The
icons are replaced all at once, character by character; to replace them one
after the other comes to the same, since no word holds an icon
(`foldl_replace`). So a text that has been made plain is plain, stays as it
is, and texts may be put together before or after (`makesPlain_plainText`).

Only texts are made plain. Tables are shown as they are, and two things
bring icons into them: the arrow above and in the rows of a listing of
relations, and a path in the title of the statistics of a cache. A command
shows no icon exactly if it prints neither (`plain_screens`).
-/

namespace ConstGraph

/-! ## Replacing characters -/

/-- The text with a character replaced by another text. -/
def replaceChar (c : Char) (text s : String) : String :=
  String.ofList (s.toList.flatMap fun d => if d = c then text.toList else [d])

/-- What a character becomes by a table: the text the table has for it, or
itself. -/
def substitute (table : List (Char × String)) (c : Char) : List Char :=
  match table.lookup c with
  | some text => text.toList
  | none => [c]

theorem flatMap_substitute_of_forall {table : List (Char × String)} {cs : List Char}
    (h : ∀ c ∈ cs, table.lookup c = none) : cs.flatMap (substitute table) = cs := by
  induction cs with
  | nil => rfl
  | cons c cs ih =>
    have hfirst : substitute table c = [c] := by rw [substitute, h c List.mem_cons_self]
    have hrest := ih fun d hd => h d (List.mem_cons_of_mem c hd)
    rw [List.flatMap_cons, hfirst, hrest]
    rfl

/-- **To replace the characters of a table one after the other is to replace
them all at once**, if no text holds a character that is replaced after
it. -/
theorem foldl_replace {table : List (Char × String)}
    (h : table.Pairwise fun e f => f.1 ∉ e.2.toList) (s : String) :
    table.foldl (fun done e => replaceChar e.1 e.2 done) s =
      String.ofList (s.toList.flatMap (substitute table)) := by
  induction table generalizing s with
  | nil =>
    have hsame : s.toList.flatMap (substitute []) = s.toList :=
      flatMap_substitute_of_forall fun _ _ => rfl
    rw [hsame, String.ofList_toList]
    rfl
  | cons e table ih =>
    obtain ⟨hfirst, hrest⟩ := List.pairwise_cons.1 h
    have hword : e.2.toList.flatMap (substitute table) = e.2.toList := by
      refine flatMap_substitute_of_forall fun c hc => ?_
      rw [List.lookup_eq_none_iff]
      intro f hf
      have hne : f.1 ≠ c := fun heq => hfirst f hf (heq ▸ hc)
      simpa using hne.symm
    rw [List.foldl_cons, ih hrest, replaceChar, String.toList_ofList, List.flatMap_assoc]
    congr 2
    funext d
    by_cases hd : d = e.1
    · rw [if_pos hd, hword, substitute, hd, List.lookup_cons_self]
    · have hlookup : (e :: table).lookup d = table.lookup d := by
        rw [List.lookup_cons, beq_false_of_ne hd]
      rw [if_neg hd, List.flatMap_singleton, substitute, substitute, hlookup]

/-! ## Plain texts -/

/-- No character of the text is an icon. -/
def IconFree (s : String) : Prop := ∀ c ∈ s.toList, icons.lookup c = none

theorem iconFree_append {a b : String} : IconFree (a ++ b) ↔ IconFree a ∧ IconFree b := by
  unfold IconFree
  rw [String.toList_append, List.forall_mem_append]

/-- The characters that are replaced are no ASCII characters. -/
theorem lookup_icons_of_ascii {c : Char} (h : c.toNat < 128) : icons.lookup c = none := by
  have hicons : ∀ icon ∈ icons, 128 ≤ icon.1.toNat := by decide
  rw [List.lookup_eq_none_iff]
  intro icon hicon
  have hne : c ≠ icon.1 := by
    rintro rfl
    exact absurd (hicons icon hicon) (by omega)
  simpa using hne

theorem iconFree_of_ascii {s : String} (h : Json.AllAscii s.toList) : IconFree s :=
  fun c hc => lookup_icons_of_ascii (h c hc)

theorem allAscii_of_mem_icons {c : Char} {word : String} (h : (c, word) ∈ icons) :
    Json.AllAscii word.toList := by
  have hwords : ∀ icon ∈ icons, Json.AllAscii icon.2.toList := by decide
  exact hwords (c, word) h

theorem not_iconFree_arrow : ¬ IconFree "→" := fun h => absurd (h '→' (by decide)) (by decide)

/-- How icons are replaced in texts: each by its own word, and nothing else;
in whole texts or in parts of them, once or again, all at once or one icon
after the other. -/
structure MakesPlain (f : String → String) : Prop where
  /-- An icon becomes its word, which is ASCII. -/
  icon : ∀ c word, (c, word) ∈ icons → f (String.singleton c) = word ∧ Json.AllAscii word.toList
  /-- Every other character stays. -/
  other : ∀ c, icons.lookup c = none → f (String.singleton c) = String.singleton c
  /-- Texts may be put together before or after. -/
  append : ∀ a b, f (a ++ b) = f a ++ f b
  /-- No icon is left. -/
  iconFree : ∀ s, IconFree (f s)
  /-- A plain text stays as it is. -/
  again : ∀ s, f (f s) = f s
  /-- The icons may be replaced one after the other. -/
  inTurn : ∀ s, f s = icons.foldl (fun done icon => replaceChar icon.1 icon.2 done) s

theorem plainChar_eq (c : Char) : plainChar c = substitute icons c := rfl

theorem plainText_eq_self {s : String} (h : IconFree s) : plainText s = s := by
  have hsame : s.toList.flatMap plainChar = s.toList := flatMap_substitute_of_forall h
  rw [plainText, hsame, String.ofList_toList]

theorem iconFree_plainText (s : String) : IconFree (plainText s) := by
  intro c hc
  rw [plainText, String.toList_ofList] at hc
  obtain ⟨d, -, hc⟩ := List.mem_flatMap.1 hc
  rw [plainChar_eq, substitute] at hc
  split at hc
  · next word hword =>
    have hmem : (d, word) ∈ icons := by
      obtain ⟨before, after, heq, -⟩ := List.lookup_eq_some_iff.1 hword
      rw [heq]
      simp
    exact iconFree_of_ascii (allAscii_of_mem_icons hmem) c hc
  · next hnone =>
    obtain rfl := List.mem_singleton.1 hc
    exact hnone

theorem makesPlain_plainText : MakesPlain plainText where
  icon := by
    have hicons : ∀ icon ∈ icons, plainText (String.singleton icon.1) = icon.2 := by decide
    exact fun c word h => ⟨hicons (c, word) h, allAscii_of_mem_icons h⟩
  other := by
    intro c hc
    refine plainText_eq_self fun d hd => ?_
    rw [String.toList_singleton, List.mem_singleton] at hd
    rw [hd, hc]
  append := by
    intro a b
    rw [plainText, String.toList_append, List.flatMap_append, String.ofList_append]
    rfl
  iconFree := iconFree_plainText
  again := fun s => plainText_eq_self (iconFree_plainText s)
  inTurn := by
    intro s
    have hwords : icons.Pairwise fun e f => f.1 ∉ e.2.toList := by decide
    exact (foldl_replace hwords s).symm

theorem Terminal.sanitize_of_plain {t : Terminal} (h : t.takesUtf8 = false) :
    t.sanitize = plainText := by
  funext s
  rw [sanitize, h]
  rfl

/-! ## Escaped texts -/

namespace Markup

/-- Escaping neither adds nor hides icons. -/
theorem iconFree_escape {s : String} : IconFree (escape s) ↔ IconFree s := by
  have hslash : icons.lookup '\\' = none := by decide
  constructor
  · intro h c hc
    by_cases hne : c = '\\'
    · rw [hne, hslash]
    · exact h c ((mem_escape hne s).2 hc)
  · intro h c hc
    by_cases hne : c = '\\'
    · rw [hne, hslash]
    · exact h c ((mem_escape hne s).1 hc)

end Markup

/-! ## What is printed -/

/-- The title, the headers and the cells of a table. -/
def Table.texts (t : Table) : List String := t.title :: t.columns ++ t.rows.flatten

/-- The texts in what is printed. -/
def Printed.texts : Printed → List String
  | .markup text => [text]
  | .table t => t.texts

namespace Command

/-- A table of an audit or of statistics holds no icon: it does not list
relations below an arrow, or the path in its title holds none. -/
def IsPlainTable (s : Setting) : Command → Table → Prop
  | .auditGraph _ _ _ _, t => "→" ∉ t.columns
  | .showStats path, _ => IconFree (s.directory.join (.ofString path)).text
  | _, _ => True

/-- In a table of counts only the title may hold icons. -/
theorem iconFree_counts {t : Table} (counts : List (String × Int))
    (hcolumns : t.columns = ["Metric", "Count"])
    (hrows : t.rows = counts.map fun e => [e.1, toString e.2])
    (hlabels : ∀ label ∈ counts.map (·.1), Json.AllAscii label.toList) :
    (∀ text ∈ t.texts, IconFree text) ↔ IconFree t.title := by
  constructor
  · exact fun h => h t.title List.mem_cons_self
  · intro htitle text htext
    rw [Table.texts, hcolumns, hrows, List.mem_append, List.mem_cons] at htext
    rcases htext with (rfl | htext) | htext
    · exact htitle
    · have hheaders : ∀ text ∈ ["Metric", "Count"], Json.AllAscii text.toList := by decide
      exact iconFree_of_ascii (hheaders text htext)
    · obtain ⟨row, hrow, htext⟩ := List.mem_flatten.1 htext
      obtain ⟨e, he, rfl⟩ := List.mem_map.1 hrow
      simp only [List.mem_cons, List.not_mem_nil, or_false] at htext
      rcases htext with rfl | rfl
      · exact iconFree_of_ascii (hlabels e.1 (List.mem_map_of_mem he))
      · exact iconFree_of_ascii (Json.allAscii_int e.2)

theorem iconFree_summaryTable (g : DependencyGraph Json Json) :
    ∀ text ∈ g.summaryTable.texts, IconFree text := by
  have htitle : IconFree "Dependency Graph" := iconFree_of_ascii (by decide)
  have hlabels : ∀ label ∈ ["Files analyzed", "Files skipped", "Definitions", "Relations",
      "Circular relations"], Json.AllAscii label.toList := by decide
  exact (iconFree_counts
    [("Files analyzed", (g.files.length : Int) - g.skipped.length),
      ("Files skipped", g.skipped.length), ("Definitions", g.definitions.length),
      ("Relations", g.relations.length), ("Circular relations", g.circularRelations.length)]
    rfl rfl hlabels).2 htitle

theorem iconFree_statsTable (path : PathName) (stats : CacheStats) :
    (∀ text ∈ (statsTable path stats).texts, IconFree text) ↔ IconFree path.text := by
  have hheading : IconFree "Cache Statistics: " := iconFree_of_ascii (by decide)
  have hlabels : ∀ label ∈ ["Total Files Cached", "Definitions", "Relations"],
      Json.AllAscii label.toList := by decide
  have htitle : IconFree (statsTable path stats).title ↔ IconFree path.text := by
    show IconFree ("Cache Statistics: " ++ Markup.escape path.text) ↔ _
    rw [iconFree_append, Markup.iconFree_escape]
    exact and_iff_right hheading
  rw [← htitle]
  exact iconFree_counts
    [("Total Files Cached", stats.files), ("Definitions", stats.definitions),
      ("Relations", stats.relations)] rfl rfl hlabels

/-- **A table holds no icon exactly if it is plain**, whatever the command
that prints it. -/
theorem iconFree_table_iff {s : Setting} {tree : FileTree} {c : Command} {t : Table}
    (h : MayPrint s tree c (.table t)) :
    (∀ text ∈ t.texts, IconFree text) ↔ IsPlainTable s c t := by
  cases c with
  | auditGraph path noCache all limit =>
    obtain ⟨g, -, ht⟩ := h
    rcases g.mem_auditReport s.env.separator ht with rfl | ⟨-, rfl⟩
    · have hcolumns : "→" ∉ ["Metric", "Count"] := by decide
      exact iff_of_true (iconFree_summaryTable g) hcolumns
    · -- the arrow is a header of every listing
      refine iff_of_false (fun hfree => not_iconFree_arrow (hfree "→" ?_)) (fun h => h ?_)
      all_goals simp [Table.texts, DependencyGraph.relationTable]
  | showStats path =>
    obtain ⟨stats, rfl⟩ := h
    exact iconFree_statsTable _ stats
  | exportGraph path output noCache pretty => exact h.elim
  | clearCache path => exact h.elim
  | showVersion => exact h.elim

/-! ## Whole runs -/

theorem shown_of_takesUtf8 {t : Terminal} (h : t.takesUtf8 = true) (p : Printed) :
    shown t p = p := by
  cases p with
  | markup text => rw [shown, Terminal.sanitize, if_pos h]
  | table t => rfl

theorem iconFree_of_markup_mem {s : Setting} {tree : FileTree} {c : Command} {text : String}
    (hplain : s.terminal.takesUtf8 = false) (h : .markup text ∈ (runOn s tree c).printed) :
    IconFree text := by
  obtain ⟨ps, -, hprinted⟩ := exists_printed_eq s tree c
  rw [hprinted] at h
  obtain ⟨p, -, hshown⟩ := List.mem_map.1 h
  cases p with
  | markup original =>
    cases hshown
    rw [Terminal.sanitize_of_plain hplain]
    exact iconFree_plainText original
  | table t => cases hshown

/-- **What is shown on a terminal that takes no UTF-8.** Icons are replaced
by their words, and nothing else is. A run is the one on a terminal with
UTF-8, but for the texts it prints, which are made plain, so that no text
shows an icon. Tables are as they are there: a run shows no icon at all
exactly if it prints no listing of relations and no statistics of a path
with an icon. -/
theorem plain_screens {s : Setting} (hplain : s.terminal.takesUtf8 = false) (tree : FileTree)
    (c : Command) :
    MakesPlain s.terminal.sanitize ∧
    (∀ full, runOn { s with terminal := {} } tree c = full →
      runOn s tree c =
        ⟨full.session.withPrinted (full.session.console.map (shown s.terminal))
          (full.session.errors.map (shown s.terminal)), full.code, full.failure⟩) ∧
    (∀ text, .markup text ∈ (runOn s tree c).printed → IconFree text) ∧
    ((∀ p ∈ (runOn s tree c).printed, ∀ text ∈ p.texts, IconFree text) ↔
      ∀ t, .table t ∈ (runOn s tree c).printed → IsPlainTable s c t) := by
  refine ⟨?_, ?_, fun text => iconFree_of_markup_mem hplain, ?_⟩
  · rw [Terminal.sanitize_of_plain hplain]
    exact makesPlain_plainText
  · rintro full rfl
    obtain ⟨session, code, failure, console, errors, -, hrun⟩ := exists_runOn_eq s tree c
    have hown : runOn s tree c = ⟨session.withPrinted (console.map (shown s.terminal))
        (errors.map (shown s.terminal)), code, failure⟩ := hrun s.terminal
    have hsame : shown {} = id := funext (shown_of_takesUtf8 rfl)
    rw [hown, hrun {}, hsame, List.map_id, List.map_id]
    rfl
  · constructor
    · intro hfree t ht
      exact (iconFree_table_iff (mayPrint_of_table_mem ht)).1 (hfree (.table t) ht)
    · intro htables p hp
      cases p with
      | markup text =>
        intro text' htext'
        obtain rfl := List.mem_singleton.1 htext'
        exact iconFree_of_markup_mem hplain hp
      | table t => exact (iconFree_table_iff (mayPrint_of_table_mem hp)).2 (htables t hp)

/-! ## A listing on a plain screen -/

/-- An audit gets through if every relation can be shown. -/
theorem auditValues_of_forall {g : DependencyGraph Json Json} {separator : String} {all : Bool}
    {limit : Int} (hatomic : g.relations.all (·.isAtomic) = true)
    (hrows : ∀ r ∈ g.listed all, g.rowMisfit? r = none) :
    g.auditValues separator all limit = (g.auditReport separator all limit, none) := by
  have hfind : (DependencyGraph.firstUpTo limit (g.listed all)).findSome? g.rowMisfit? = none := by
    rw [List.findSome?_eq_none_iff, DependencyGraph.firstUpTo_eq_take]
    exact fun r hr => hrows r (List.mem_of_mem_take hr)
  rw [DependencyGraph.auditValues, hatomic, hfind]
  rfl

/-- What an audit prints that gets through: its heading and its report. -/
theorem console_audit {s : Setting} {tree : FileTree} {path : String} {noCache all used : Bool}
    {limit : Int} {g : DependencyGraph Json Json} {built : Session} {report : List Printed}
    (hpath : tree.pathExists (s.directory.join (.ofString path)) = .ok true)
    (hcheck : s.env.check = .ok ())
    (hbuild : (Project.build s.env (s.directory.join (.ofString path)) (!noCache) []).run.run
      { tree := tree } = (.ok (g, used), built))
    (hreport : g.auditValues s.env.separator all limit = (report, none)) :
    ∃ heading, (runOn s tree (.auditGraph path noCache all limit)).session.console =
      heading :: report.map (shown s.terminal) := by
  have hrequire : (requirePath s path).run.run { tree := tree } =
      (.ok (s.directory.join (.ofString path)), { tree := tree }) := by
    unfold requirePath
    rw [run_bind, Project.run_tree]
    dsimp only
    rw [run_bind, Project.run_lift, hpath]
    rfl
  have hsettings : ∀ σ, (checkSettings s).run.run σ = (.ok (), σ) := by
    intro σ
    unfold checkSettings
    rw [hcheck]
    rfl
  have hgraph : ∀ console errors,
      (graph s (s.directory.join (.ofString path)) noCache).run.run
        (Session.withPrinted { tree := tree } console errors) =
      (.ok g, built.withPrinted console errors) := by
    intro console errors
    unfold graph
    rw [run_bind, hsettings]
    dsimp only
    rw [run_bind, Project.quiet_build, hbuild]
    rfl
  have hheading : ∀ p, (print s p).run.run { tree := tree } =
      (.ok (), Session.withPrinted { tree := tree } [shown s.terminal p] []) := fun _ => rfl
  unfold runOn run runAudit
  rw [run_bind, hrequire]
  dsimp only
  rw [run_bind, hheading]
  dsimp only
  rw [run_bind, hgraph]
  dsimp only
  rw [hreport]
  dsimp only
  rw [run_bind, run_all]
  exact ⟨_, rfl⟩

namespace LoneMention

/-- The source `A`: a mention of a constant and nothing else. -/
def source : ConcreteNode where
  type := "program"
  children := [{ type := "constant", bytes := [65] }]

/-- A directory with this source. -/
def project : FileTree :=
  ⟨.directory [("a.rb", .file (.source "A" source) 0 (.tick 0))] (.tick 0), 1⟩

/-- The source, by its path. -/
def file : PathName := ⟨"/", ["a.rb"]⟩

/-- What is found in it. -/
def found : Relation := ⟨["A"], [], "", "", "/a.rb", 1⟩

/-- What is found in it, as a record of values. -/
def value : Relation Json Json := ⟨[.str "A"], [], .str "", .str "", .str "/a.rb", .int 1⟩

/-- The graph of the source. -/
def graphWith (flags : CircularFlags Json Json) : DependencyGraph Json Json :=
  ⟨.ofList [], [value], flags, ["/a.rb"], []⟩

/-- A screen without UTF-8. -/
def ascii : Setting := { env := {}, directory := ⟨"/", []⟩, terminal := ⟨some "ascii", none⟩ }

theorem takesUtf8_ascii : ascii.terminal.takesUtf8 = false := rfl

theorem check_standard : ({} : Environment).check = .ok () := by
  have hlimit : ({} : Environment).fileSizeLimit = .ok 2097152 := rfl
  have hpolicy : ({} : Environment).cyclePolicy = "scc" := rfl
  have hlevel : ({} : Environment).logLevel = "WARNING" := rfl
  unfold Environment.check
  rw [hlimit, hpolicy, hlevel]
  rfl

theorem finds_source : FileAnalysis.Finds "/a.rb" .none source ⟨[], [found]⟩ :=
  FileAnalysis.finds_of_result (by decide +kernel) (by decide +kernel) (by decide +kernel)

theorem examine_file :
    Project.examine ⟨.standard, .none⟩ project file = .ok ⟨file, ⟨[], [value]⟩, false⟩ := by
  have hfind : project.find false file = .ok (.file (.source "A" source) 0 (.tick 0)) :=
    FileTree.find_of_entryAt (by decide) rfl (by simp) false
  have hadmits : project.admits .standard file = true := by
    rw [FileTree.admits, hfind]
    rfl
  have htext : file.text = "/a.rb" := rfl
  have hanalysis : Project.analysis ⟨.standard, .none⟩ project file =
      .ok (FileAnalysis.keep { file := file.text } ⟨[], [found]⟩) := by
    refine Project.analysis_of_finds hfind hadmits ?_
    rw [htext]
    exact finds_source
  rw [Project.examine, hanalysis]
  rfl

theorem exists_conclude : ∃ flags,
    Project.conclude {} [file] [⟨file, ⟨[], [value]⟩, false⟩] = .ok (graphWith flags) :=
  Project.exists_flags_of_isOk (by decide +kernel)

theorem exists_build : ∃ flags used built,
    (Project.build {} file false []).run.run { tree := project } =
      (.ok (graphWith flags, used), built) := by
  have hlimit : Project.limitOf {} = .ok .standard := rfl
  have hfile : project.isFile file = .ok true :=
    FileTree.ask_of_entryAt (t := project) (p := file) (by decide) rfl (by simp) true
      FileEntry.isFile
  have hopen : (Project.openCache {} file false).run.run { tree := project } =
      (.ok none, { tree := project }) := rfl
  have hdiscover : Project.discover project file ({} : Environment).cachePath [] = .ok [file] := by
    rw [Project.discover, hfile]
  have hinference : ({} : Environment).inference = .none := rfl
  obtain ⟨log, hrun⟩ := Project.run_processAll_none ⟨.standard, .none⟩ [file] { tree := project }
  rw [List.mapM_cons, examine_file, List.mapM_nil] at hrun
  have hprocess : (Project.processAll ⟨.standard, .none⟩ none [file]).run.run { tree := project } =
      (.ok [⟨file, ⟨[], [value]⟩, false⟩], { tree := project, log := log }) := hrun
  obtain ⟨flags, hconclude⟩ := exists_conclude
  rw [Project.run_build, hlimit]
  dsimp only
  rw [hopen]
  dsimp only
  rw [hdiscover]
  dsimp only
  rw [hinference, hprocess]
  dsimp only
  rw [hconclude]
  exact ⟨flags, _, _, rfl⟩

theorem auditValues_graphWith (flags : CircularFlags Json Json) (separator : String) :
    (graphWith flags).auditValues separator true 50 =
      ((graphWith flags).auditReport separator true 50, none) := by
  refine auditValues_of_forall rfl fun r hr => ?_
  obtain rfl := List.mem_singleton.1 hr
  have hrow : (graphWith .empty).rowMisfit? value = none := by decide +kernel
  exact hrow

end LoneMention

open LoneMention in
/-- No text holds an icon when the cache of a project is emptied. -/
theorem plain_screens_clearing :
    ascii.terminal.takesUtf8 = false ∧
      ∀ p ∈ (runOn ascii project (.clearCache ".")).printed, ∀ text ∈ p.texts, IconFree text :=
  ⟨takesUtf8_ascii,
    (plain_screens takesUtf8_ascii project (.clearCache ".")).2.2.2.2 fun _ _ => trivial⟩

open LoneMention in
/-- **A listing shows its arrow on every screen.** -/
theorem arrow_on_plain_screen :
    ascii.terminal.takesUtf8 = false ∧
      ∃ t, .table t ∈ (runOn ascii project (.auditGraph "a.rb" true true 50)).session.console ∧
        "→" ∈ t.columns ∧ ¬ IconFree "→" := by
  have hjoin : ascii.directory.join (.ofString "a.rb") = file := rfl
  have hpath : project.pathExists file = .ok true :=
    FileTree.ask_of_entryAt (by decide) rfl (by simp) true _
  obtain ⟨flags, used, built, hbuild⟩ := exists_build
  rw [← hjoin] at hpath hbuild
  obtain ⟨heading, hconsole⟩ : ∃ heading,
      (runOn ascii project (.auditGraph "a.rb" true true 50)).session.console = heading ::
        ((graphWith flags).auditReport ascii.env.separator true 50).map (shown ascii.terminal) :=
    console_audit hpath check_standard hbuild (auditValues_graphWith flags _)
  refine ⟨takesUtf8_ascii, (graphWith flags).relationTable ascii.env.separator true 50, ?_, ?_,
    not_iconFree_arrow⟩
  · rw [hconsole]
    exact List.mem_cons_of_mem _ (List.mem_cons_of_mem _ List.mem_cons_self)
  · simp [DependencyGraph.relationTable]

end Command

end ConstGraph
