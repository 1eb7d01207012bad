import ConstGraph.Command.Run
import ConstGraph.Proofs.CachedBuild

/-!
# What commands print

Most of what a command does is quiet: it neither looks at what has been
printed nor prints anything (`Quiet`). The whole build of a graph is
(`quiet_build`).

What is printed is shown on a terminal, and the terminal decides nothing
else. `Prints` says so of a job that is given for every terminal: what it
does is the same for all of them, and each is shown the same things in its
own way. It also bounds what is printed. `prints_run` goes through the
commands: besides texts there are the tables of an audit of a graph that
was built of the files (`BuiltFrom`), and the table of what a cache holds.
-/

namespace ConstGraph

/-- The session with other things printed. -/
def Session.withPrinted (s : Session) (console errors : List Printed) : Session :=
  { s with console := console, errors := errors }

namespace Job

variable {α β : Type}

/-! ## Quiet jobs -/

/-- The job neither looks at what has been printed nor prints. -/
def Quiet (j : Job α) : Prop :=
  ∀ s console errors, j.run.run (s.withPrinted console errors) =
    ((j.run.run s).1, (j.run.run s).2.withPrinted console errors)

theorem quiet_pure (a : α) : Quiet (pure a : Job α) := fun _ _ _ => rfl

theorem quiet_throw (e : Failure) : Quiet (throw e : Job α) := fun _ _ _ => rfl

theorem Quiet.bind {j : Job α} {k : α → Job β} (hj : Quiet j) (hk : ∀ a, Quiet (k a)) :
    Quiet (j >>= k) := by
  intro s console errors
  rw [run_bind, run_bind, hj]
  rcases j.run.run s with ⟨e | a, s'⟩
  · rfl
  · exact hk a s' console errors

theorem quiet_lift {ε : Type} (cause : ε → Failure) (x : Except ε α) : Quiet (lift cause x) := by
  intro s console errors
  rw [Project.run_lift, Project.run_lift]

theorem quiet_tree : Quiet tree := fun _ _ _ => rfl

theorem quiet_setTree (t : FileTree) : Quiet (setTree t) := fun _ _ _ => rfl

theorem quiet_log (r : LogRecord) : Quiet (log r) := fun _ _ _ => rfl

theorem quiet_echo (text : String) : Quiet (echo text) := fun _ _ _ => rfl

theorem quiet_change (c : FileChange Unit) : Quiet (change c) :=
  quiet_tree.bind fun _ => (quiet_setTree _).bind fun _ => quiet_lift _ _

theorem quiet_openCache (root : PathName) (directory fingerprint : String) :
    Quiet (openCache root directory fingerprint) :=
  quiet_tree.bind fun _ => (quiet_setTree _).bind fun _ => quiet_lift _ _

theorem quiet_store (c : AnalysisCache) (p : PathName) (r : WalkResult Json Json) :
    Quiet (store c p r) :=
  quiet_tree.bind fun _ => (quiet_setTree _).bind fun _ =>
    (quiet_lift _ _).bind fun _ => quiet_pure _

end Job

/-! ## Builds are quiet -/

namespace Project

open Job

theorem quiet_analyze (o : Options) (p : PathName) : Quiet (analyze o p) := by
  refine quiet_tree.bind fun t => ?_
  split
  · exact quiet_pure _
  · exact (quiet_log _).bind fun _ => quiet_pure _
  · exact quiet_throw _

theorem quiet_process (o : Options) (cache : Option AnalysisCache) (p : PathName) :
    Quiet (process o cache p) := by
  cases cache with
  | none => exact (quiet_analyze o p).bind fun a => quiet_pure _
  | some c =>
    refine quiet_tree.bind fun t => (quiet_lift _ _).bind fun answer => ?_
    cases answer with
    | some result => exact (quiet_log _).bind fun _ => quiet_pure _
    | none =>
      refine (quiet_analyze o p).bind fun a => ?_
      dsimp only
      split
      · exact quiet_pure _
      · exact (quiet_store c p _).bind fun _ => quiet_pure _

theorem quiet_processAll (o : Options) (cache : Option AnalysisCache) (ps : List PathName) :
    Quiet (processAll o cache ps) := by
  induction ps generalizing cache with
  | nil => exact quiet_pure _
  | cons p ps ih =>
    exact (quiet_process o cache p).bind fun found => (ih found.2).bind fun _ => quiet_pure _

theorem quiet_openCache (env : Environment) (root : PathName) (useCache : Bool) :
    Quiet (openCache env root useCache) := by
  unfold openCache
  split
  · exact quiet_pure _
  · refine quiet_tree.bind fun t => (quiet_lift _ _).bind fun isDirectory => ?_
    split
    · exact quiet_pure _
    · exact (Job.quiet_openCache root _ _).bind fun _ => quiet_pure _

/-- **Nothing is printed by a build.** -/
theorem quiet_build (env : Environment) (root : PathName) (useCache : Bool)
    (patterns : List String) : Quiet (build env root useCache patterns) := by
  refine (quiet_lift _ _).bind fun bytes => (quiet_lift _ _).bind fun limit => ?_
  refine (quiet_openCache env root useCache).bind fun cache => quiet_tree.bind fun t => ?_
  refine (quiet_lift _ _).bind fun files => (quiet_processAll _ _ _).bind fun found => ?_
  refine (quiet_lift _ _).bind fun policy => (quiet_lift _ _).bind fun g => ?_
  exact (quiet_log _).bind fun _ => quiet_pure _

end Project

/-! ## Jobs that print -/

namespace Command

open Job

variable {α β : Type} {P : Printed → Prop} {before : Session → Prop}

/-- What a job does is the same for all terminals: the same is printed,
all of it as `P` says, and each terminal is shown it in its own way. If the
job succeeds, `after` holds of what it gives and of the session it
leaves. -/
def Prints (P : Printed → Prop) (before : Session → Prop) (j : Terminal → Job α)
    (after : α → Session → Prop) : Prop :=
  ∀ s, before s → ∃ (outcome : Except Failure α) (s' : Session) (console errors : List Printed),
    (∀ p ∈ console ++ errors, P p) ∧ (∀ a, outcome = .ok a → after a s') ∧
      ∀ t earlier earlierErrors,
        (j t).run.run (s.withPrinted earlier earlierErrors) =
          (outcome, s'.withPrinted (earlier ++ console.map (shown t))
            (earlierErrors ++ errors.map (shown t)))

theorem Prints.bind {j : Terminal → Job α} {k : Terminal → α → Job β}
    {between : α → Session → Prop} {after : β → Session → Prop} (hj : Prints P before j between)
    (hk : ∀ a, Prints P (between a) (fun t => k t a) after) :
    Prints P before (fun t => j t >>= k t) after := by
  intro s hs
  obtain ⟨outcome, s₁, console, errors, hP, hbetween, hrun⟩ := hj s hs
  cases outcome with
  | error e =>
    refine ⟨.error e, s₁, console, errors, hP, nofun, ?_⟩
    intro t earlier earlierErrors
    rw [run_bind, hrun]
  | ok a =>
    obtain ⟨outcome, s₂, console', errors', hP', hafter, hrun'⟩ := hk a s₁ (hbetween a rfl)
    refine ⟨outcome, s₂, console ++ console', errors ++ errors', ?_, hafter, ?_⟩
    · intro p hp
      simp only [List.mem_append] at hp
      rcases hp with (hp | hp) | (hp | hp)
      · exact hP p (List.mem_append_left errors hp)
      · exact hP' p (List.mem_append_left errors' hp)
      · exact hP p (List.mem_append_right console hp)
      · exact hP' p (List.mem_append_right console' hp)
    · intro t earlier earlierErrors
      rw [run_bind, hrun]
      dsimp only
      rw [hrun', List.map_append, List.map_append, List.append_assoc, List.append_assoc]

/-- A quiet job prints nothing, and leaves what it leaves. -/
theorem prints_quiet {j : Job α} (h : Quiet j) :
    Prints P before (fun _ => j) fun a s' => ∃ s, before s ∧ j.run.run s = (.ok a, s') := by
  intro s hs
  refine ⟨(j.run.run s).1, (j.run.run s).2, [], [], by simp, ?_, ?_⟩
  · exact fun a ha => ⟨s, hs, Prod.ext ha rfl⟩
  · intro t earlier earlierErrors
    simpa using h s earlier earlierErrors

theorem Prints.mono {j : Terminal → Job α} {after after' : α → Session → Prop}
    (h : Prints P before j after) (himp : ∀ a s, after a s → after' a s) :
    Prints P before j after' := by
  intro s hs
  obtain ⟨outcome, s', console, errors, hP, hafter, hrun⟩ := h s hs
  exact ⟨outcome, s', console, errors, hP, fun a ha => himp a s' (hafter a ha), hrun⟩

/-- What is known of every session is known from here on. -/
theorem prints_given {fact : Prop} {j : Terminal → Job α} {after : α → Session → Prop}
    (hfact : ∀ s, before s → fact) (h : fact → Prints P before j after) : Prints P before j after :=
  fun s hs => h (hfact s hs) s hs

theorem prints_pure (a : α) : Prints P before (fun _ => pure a) fun b s => before s ∧ b = a := by
  refine (prints_quiet (quiet_pure a)).mono ?_
  rintro b s ⟨s', hs', hrun⟩
  cases hrun
  exact ⟨hs', rfl⟩

/-- To stop prints nothing, and anything may be said of what comes after. -/
theorem prints_throw (e : Failure) {after : α → Session → Prop} :
    Prints P before (fun _ => throw e) after := by
  refine (prints_quiet (quiet_throw e)).mono ?_
  rintro a s ⟨s', -, hrun⟩
  cases hrun

/-- A question about the files leaves the session as it is. -/
theorem prints_lift {ε : Type} (cause : ε → Failure) (x : Except ε α) :
    Prints P before (fun _ => lift cause x) fun a s => before s ∧ x = .ok a := by
  refine (prints_quiet (quiet_lift cause x)).mono ?_
  rintro a s ⟨s', hs', hrun⟩
  rw [Project.run_lift] at hrun
  cases x with
  | error e => cases hrun
  | ok b =>
    cases hrun
    exact ⟨hs', rfl⟩

theorem prints_tree : Prints P before (fun _ => tree) fun t s => before s ∧ t = s.tree := by
  refine (prints_quiet quiet_tree).mono ?_
  rintro a s ⟨s', hs', hrun⟩
  cases hrun
  exact ⟨hs', rfl⟩

variable {s : Setting}

theorem prints_print {p : Printed} (hp : P p) :
    Prints P before (fun t => print { s with terminal := t } p) fun _ => before := by
  intro σ hσ
  refine ⟨.ok (), σ, [p], [], by simpa using hp, fun _ _ => hσ, ?_⟩
  intro t earlier earlierErrors
  rw [List.map_nil, List.append_nil]
  rfl

theorem prints_printError {p : Printed} (hp : P p) :
    Prints P before (fun t => printError { s with terminal := t } p) fun _ => before := by
  intro σ hσ
  refine ⟨.ok (), σ, [], [p], by simpa using hp, fun _ _ => hσ, ?_⟩
  intro t earlier earlierErrors
  rw [List.map_nil, List.append_nil]
  rfl

theorem run_all (s : Setting) (ps : List Printed) (σ : Session) :
    (ps.forM (print s)).run.run σ =
      (.ok (), σ.withPrinted (σ.console ++ ps.map (shown s.terminal)) σ.errors) := by
  induction ps generalizing σ with
  | nil =>
    rw [List.map_nil, List.append_nil]
    rfl
  | cons p ps ih =>
    have hfirst : (print s p).run.run σ =
        (.ok (), σ.withPrinted (σ.console ++ [shown s.terminal p]) σ.errors) := rfl
    rw [List.map_cons, List.append_cons, List.forM, run_bind, hfirst]
    dsimp only
    rw [ih]
    rfl

theorem prints_all {ps : List Printed} (hps : ∀ p ∈ ps, P p) :
    Prints P before (fun t => ps.forM (print { s with terminal := t })) fun _ => before := by
  intro σ hσ
  refine ⟨.ok (), σ, ps, [], by simpa using hps, fun _ _ => hσ, ?_⟩
  intro t earlier earlierErrors
  rw [run_all, List.map_nil, List.append_nil]
  rfl

/-! ## The parts of commands -/

/-- A graph was built of some files. -/
def BuiltFrom (s : Setting) (tree : FileTree) (path : String) (noCache : Bool)
    (g : DependencyGraph Json Json) : Prop :=
  ∃ σ σ' used, σ.tree = tree ∧
    (Project.build s.env (s.directory.join (.ofString path)) (!noCache) []).run.run σ =
      (.ok (g, used), σ')

variable {tree : FileTree}

theorem prints_checkSettings (hmarkup : ∀ text, P (.markup text)) :
    Prints P before (fun t => checkSettings { s with terminal := t }) fun _ => before := by
  unfold checkSettings
  dsimp only
  cases s.env.check with
  | ok u => exact (prints_pure ()).mono fun _ _ h => h.1
  | error e => exact (prints_printError (hmarkup _)).bind fun _ => prints_throw _

theorem prints_requirePath (hmarkup : ∀ text, P (.markup text)) (text : String) :
    Prints P before (fun t => requirePath { s with terminal := t } text)
      fun path σ => before σ ∧ path = s.directory.join (.ofString text) := by
  unfold requirePath
  dsimp only
  refine prints_tree.bind fun files => (prints_lift _ _).bind fun found => ?_
  cases found with
  | true => exact (prints_pure _).mono fun path σ h => ⟨h.1.1.1, h.2⟩
  | false => exact (prints_printError (hmarkup _)).bind fun _ => prints_throw _

theorem prints_graph (hmarkup : ∀ text, P (.markup text)) (htree : ∀ σ, before σ → σ.tree = tree)
    (path : String) (noCache : Bool) :
    Prints P before
      (fun t => graph { s with terminal := t } (s.directory.join (.ofString path)) noCache)
      fun g _ => BuiltFrom s tree path noCache g := by
  unfold graph
  dsimp only
  have hquiet := Project.quiet_build s.env (s.directory.join (.ofString path)) (!noCache) []
  refine (prints_checkSettings hmarkup).bind fun _ => (prints_quiet hquiet).bind ?_
  rintro ⟨g, used⟩
  refine (prints_pure g).mono ?_
  rintro _ σ ⟨⟨σ₀, hσ₀, hbuild⟩, rfl⟩
  exact ⟨σ₀, σ, used, htree σ₀ hσ₀, hbuild⟩

theorem prints_openCache (hmarkup : ∀ text, P (.markup text)) (path : PathName) :
    Prints P before (fun t => openCache { s with terminal := t } path) fun _ _ => True := by
  unfold openCache
  dsimp only
  have hquiet := Job.quiet_openCache path s.env.cachePath s.env.cacheFingerprint
  refine (prints_checkSettings hmarkup).bind fun _ => ?_
  exact (prints_quiet hquiet).mono fun _ _ _ => trivial

/-! ## Whole commands -/

/-- What a command may print besides text: an audit the tables of a graph
that was built of the files, a look at a cache the table of what it
holds. -/
def MayPrint (s : Setting) (tree : FileTree) : Command → Printed → Prop
  | _, .markup _ => True
  | .auditGraph path noCache all limit, .table t =>
    ∃ g, BuiltFrom s tree path noCache g ∧ .table t ∈ g.auditReport s.env.separator all limit
  | .showStats path, .table t => ∃ stats, t = statsTable (s.directory.join (.ofString path)) stats
  | _, .table _ => False

theorem mayPrint_markup (s : Setting) (tree : FileTree) (c : Command) (text : String) :
    MayPrint s tree c (.markup text) := by
  cases c <;> trivial

/-- What an audit prints before it breaks off is what it would print
first. -/
theorem auditValues_subset (g : DependencyGraph Json Json) (separator : String) (all : Bool)
    (limit : Int) : (g.auditValues separator all limit).1 ⊆ g.auditReport separator all limit := by
  intro p hp
  unfold DependencyGraph.auditValues at hp
  split at hp
  · cases hp
  · split at hp
    · obtain rfl := List.mem_singleton.1 hp
      exact List.mem_cons_self
    · exact hp

/-- **What a command prints does not depend on the terminal**; how it is
shown does. -/
theorem prints_run (c : Command) :
    Prints (MayPrint s tree c) (·.tree = tree) (fun t => run { s with terminal := t } c)
      fun _ _ => True := by
  have hmarkup := mayPrint_markup s tree c
  cases c with
  | exportGraph path output noCache pretty =>
    refine (prints_requirePath hmarkup path).bind fun found => prints_given (fun _ h => h.2) ?_
    rintro rfl
    refine (prints_graph hmarkup (fun _ h => h.1) path noCache).bind fun g => ?_
    dsimp only
    refine (prints_lift _ _).bind fun text => ?_
    cases output with
    | none => exact (prints_quiet (quiet_echo text)).mono fun _ _ _ => trivial
    | some file =>
      refine (prints_quiet (quiet_change _)).bind fun _ => ?_
      exact (prints_printError (hmarkup _)).mono fun _ _ _ => trivial
  | auditGraph path noCache all limit =>
    refine (prints_requirePath hmarkup path).bind fun found => prints_given (fun _ h => h.2) ?_
    rintro rfl
    refine (prints_print (hmarkup _)).bind fun _ => ?_
    refine (prints_graph hmarkup (fun _ h => h.1) path noCache).bind fun g => ?_
    refine prints_given (fun _ hg => hg) fun hg => ?_
    -- the graph is fixed from here on, and with it the report
    have hsubset := auditValues_subset g s.env.separator all limit
    dsimp only
    rcases hvalues : g.auditValues s.env.separator all limit with ⟨report, misfit⟩
    rw [hvalues] at hsubset
    have hreport : ∀ p ∈ report, MayPrint s tree (.auditGraph path noCache all limit) p := by
      intro p hp
      cases p with
      | markup text => exact hmarkup text
      | table t => exact ⟨g, hg, hsubset hp⟩
    refine (prints_all hreport).bind fun _ => ?_
    cases misfit with
    | none => exact (prints_pure ()).mono fun _ _ _ => trivial
    | some e => exact prints_throw _
  | clearCache path =>
    refine (prints_requirePath hmarkup path).bind fun found => prints_given (fun _ h => h.2) ?_
    rintro rfl
    refine (prints_openCache hmarkup _).bind fun cache => ?_
    refine (prints_quiet quiet_tree).bind fun files => (prints_lift _ _).bind fun cleared => ?_
    refine (prints_quiet (quiet_setTree _)).bind fun _ => ?_
    exact (prints_print (hmarkup _)).mono fun _ _ _ => trivial
  | showStats path =>
    refine (prints_requirePath hmarkup path).bind fun found => prints_given (fun _ h => h.2) ?_
    rintro rfl
    refine (prints_openCache hmarkup _).bind fun cache => ?_
    refine (prints_quiet quiet_tree).bind fun files => (prints_lift _ _).bind fun stats => ?_
    exact (prints_print ⟨stats, rfl⟩).mono fun _ _ _ => trivial
  | showVersion => exact (prints_quiet (quiet_echo _)).mono fun _ _ _ => trivial

/-- **A whole run is the same for all terminals**, but for how what is
printed is shown. -/
theorem exists_runOn_eq (s : Setting) (tree : FileTree) (c : Command) :
    ∃ (session : Session) (code : Nat) (failure : Option Failure) (console errors : List Printed),
      (∀ p ∈ console ++ errors, MayPrint s tree c p) ∧
        ∀ t, runOn { s with terminal := t } tree c =
          ⟨session.withPrinted (console.map (shown t)) (errors.map (shown t)), code, failure⟩ := by
  obtain ⟨outcome, session, console, errors, hP, -, hrun⟩ :=
    prints_run (s := s) c { tree := tree } rfl
  have hstart : ∀ t, (run { s with terminal := t } c).run.run { tree := tree } =
      (outcome, session.withPrinted (console.map (shown t)) (errors.map (shown t))) :=
    fun t => hrun t [] []
  match outcome with
  | .ok () =>
    refine ⟨session, 0, none, console, errors, hP, fun t => ?_⟩
    rw [runOn, hstart]
  | .error e =>
    by_cases hexit : ∃ code, e = .exit code
    · obtain ⟨code, rfl⟩ := hexit
      refine ⟨session, code, none, console, errors, hP, fun t => ?_⟩
      rw [runOn, hstart]
    · refine ⟨session, 1, some e, console, errors, hP, fun t => ?_⟩
      rw [runOn, hstart]
      cases e with
      | exit code => exact absurd ⟨code, rfl⟩ hexit
      | _ => rfl

/-- What a run prints on the screen and on the screen for errors. -/
def Outcome.printed (o : Outcome) : List Printed := o.session.console ++ o.session.errors

theorem exists_printed_eq (s : Setting) (tree : FileTree) (c : Command) :
    ∃ ps : List Printed, (∀ p ∈ ps, MayPrint s tree c p) ∧
      (runOn s tree c).printed = ps.map (shown s.terminal) := by
  obtain ⟨session, code, failure, console, errors, hmay, hrun⟩ := exists_runOn_eq s tree c
  have hown := congrArg Outcome.printed (hrun s.terminal)
  refine ⟨console ++ errors, hmay, hown.trans ?_⟩
  rw [List.map_append]
  rfl

/-- A table is shown as it is, so what is known of the tables that may be
printed is known of those that are shown. -/
theorem mayPrint_of_table_mem {tree : FileTree} {c : Command} {t : Table}
    (h : .table t ∈ (runOn s tree c).printed) : MayPrint s tree c (.table t) := by
  obtain ⟨ps, hmay, hprinted⟩ := exists_printed_eq s tree c
  rw [hprinted] at h
  obtain ⟨p, hp, hshown⟩ := List.mem_map.1 h
  cases p with
  | markup text => cases hshown
  | table t' =>
    cases hshown
    exact hmay _ hp

end Command

end ConstGraph
