import ExamPaper.Command.Run
import ExamPaper.Proofs.Run.Generation
import ExamPaper.Proofs.Selection.Search

/-!
# What a check promises

The commands `check` and `generate` prepare a run in the same way (`starting`), and seed, tries and
day do not matter for it (`prepare_congr`). A check then looks at the quota tree, while a generation
draws from it; but a tree that passes the check never makes a draw fail.

> Where a check succeeds, a generation with the same bank and no tolerance of its own searches to
> the end: it writes an edition, finds no selection, or fails on a template or on a file. Where a
> check fails, such a generation fails too and writes nothing (`generate_of_check`).

Both are over whatever readers and generator a run relies on. A run can also be broken off: by a
template, of which a check knows nothing (`generate_breaksOff`), or by a sum of counts that no word
can hold, which a check is broken off by as well.

The disk is that of the output files. Opening the log empties its file and nothing is said here of
what is logged, so a run "writes nothing but the log" if the disk is as it was once the log was
open.
-/

namespace ExamPaper

/-! ## Preparing a run -/

section

variable [Readers]

omit [Readers] in
/-- The bank of a run, and whether it has settings at all, depend on the bank and the tolerance of
the command line only. -/
theorem Settings.resolve_congr (e : ExamIndex) {o o' : Overrides} (defaults : Defaults)
    (today today' : Date) (hbank : o'.bank = o.bank) (htolerance : o'.tolerance = o.tolerance) :
    (resolve e o' defaults today').map (·.bank) = (resolve e o defaults today).map (·.bank) := by
  have hbank? : bank? e o' defaults = bank? e o defaults := by
    unfold bank?
    rw [hbank]
  have htoleranceOf : toleranceOf e o' defaults = toleranceOf e o defaults := by
    unfold toleranceOf
    rw [htolerance]
  unfold resolve
  rw [hbank?, htoleranceOf]
  cases bank? e o defaults with
  | none => rfl
  | some bank =>
    dsimp only
    by_cases hpositive : 0.0 < toleranceOf e o defaults
    · rw [if_pos hpositive, if_pos hpositive]
      rfl
    · rw [if_neg hpositive, if_neg hpositive]

/-- A run is prepared from its index, its settings, its questions and their tree. -/
theorem prepare_ok {disk : Disk} {path : Path} {o : Overrides} {defaults : Defaults}
    {today : Date} {p : Prepared} :
    prepare disk path o defaults today = .ok p ↔
      ExamIndex.load disk path = .ok p.exam ∧
      Settings.resolve p.exam o defaults today = .ok p.settings ∧
      Bank.load disk p.settings.bank = .ok p.questions ∧
      QuotaTree.build p.exam.parts p.questions = .ok p.tree := by
  unfold prepare
  constructor
  · intro h
    repeat
      split at h
      · exact absurd h (by simp)
    obtain rfl := Except.ok.inj h
    exact ⟨by assumption, by assumption, by assumption, by assumption⟩
  · rintro ⟨hexam, hsettings, hquestions, htree⟩
    simp only [hexam, hsettings, hquestions, htree]

/-- The tree of a run, or why it has none, once its index is read and its settings are there. -/
def treeFor (disk : Disk) (exam : ExamIndex) (bank : Path) : Except RunError QuotaTree :=
  match Bank.load disk bank with
  | .error e => .error (.bank e)
  | .ok questions => (QuotaTree.build exam.parts questions).mapError .quota

/-- The bank and the index decide what tree a run is prepared with. -/
theorem map_tree_prepare (disk : Disk) (path : Path) (o : Overrides) (defaults : Defaults)
    (today : Date) :
    (prepare disk path o defaults today).map (·.tree) =
      ((ExamIndex.load disk path).mapError RunError.index).bind fun exam =>
        (((Settings.resolve exam o defaults today).map (·.bank)).mapError RunError.index).bind
          (treeFor disk exam) := by
  unfold prepare
  cases ExamIndex.load disk path with
  | error e => rfl
  | ok exam =>
    dsimp only [Except.mapError, Except.bind]
    cases Settings.resolve exam o defaults today with
    | error e => rfl
    | ok settings =>
      dsimp only [Except.mapError, Except.bind, Except.map]
      unfold treeFor
      cases Bank.load disk settings.bank with
      | error e => rfl
      | ok questions =>
        dsimp only
        cases QuotaTree.build exam.parts questions <;> rfl

/-- Of what a command line says, only the bank and the tolerance decide whether a run can be
prepared, over which tree, and why not; and the day does not. -/
theorem prepare_congr (disk : Disk) (path : Path) {o o' : Overrides} (defaults : Defaults)
    (today today' : Date) (hbank : o'.bank = o.bank) (htolerance : o'.tolerance = o.tolerance) :
    (prepare disk path o' defaults today').map (·.tree) =
      (prepare disk path o defaults today).map (·.tree) := by
  have hsettings := fun exam =>
    Settings.resolve_congr exam defaults today today' hbank htolerance
  rw [map_tree_prepare, map_tree_prepare]
  simp only [hsettings]

end

namespace Command

/-! ## What the commands share -/

section

variable [Readers]

/-- The disk once the log is open, as far as it comes to that. -/
def afterLog (env : Environment) (config : Option Path) (disk : Disk) : Disk :=
  match Configuration.load env disk config with
  | .error _ => disk
  | .ok c =>
    match openLog c disk with
    | .error _ => disk
    | .ok disk => disk

/-- The configuration is read, the log is open, and the preparation of a run ends in some way. -/
def Prepares (env : Environment) (config : Option Path) (index : Path) (o : Overrides)
    (today : Date) (disk : Disk) (result : Except RunError Prepared) : Prop :=
  ∃ c, Configuration.load env disk config = .ok c ∧
    openLog c disk = .ok (afterLog env config disk) ∧
    prepare (afterLog env config disk) index o c.defaults today = result

/-- The configuration is read, the log is open and a run is prepared. -/
def Ready (env : Environment) (config : Option Path) (index : Path) (o : Overrides) (today : Date)
    (disk : Disk) (p : Prepared) : Prop := Prepares env config index o today disk (.ok p)

/-- The configuration is read, the log is open, and the counts of the parts add up to more than a
word can hold. -/
def Overflows (env : Environment) (config : Option Path) (index : Path) (o : Overrides)
    (today : Date) (disk : Disk) : Prop :=
  Prepares env config index o today disk (.error (.quota .overflow))

/-- The reply of a command that prepares a run and goes on with it. -/
def starting (env : Environment) (config : Option Path) (name : String) (index : Path)
    (o : Overrides) (today : Date) (disk : Disk) (go : Prepared → Disk → Reply) : Reply :=
  withConfiguration env config name disk fun c disk =>
    match prepare disk index o c.defaults today with
    | .error e => failed name e disk
    | .ok p => go p disk

variable {env : Environment} {config : Option Path} {index : Path} {disk : Disk}

/-- A check goes on with a report on the quota tree. -/
theorem carryOut_check [Generator] (today : Date) (bank : Option Path) :
    carryOut env today ⟨.check index bank, config⟩ disk =
      starting env config "check" index { bank } today disk reportPrepared := by
  unfold carryOut starting runCheck
  rfl

/-- A generation goes on with a search. -/
theorem carryOut_generate [Generator] (today : Date) (o : Overrides) (options : GenerateOptions) :
    carryOut env today ⟨.generate index o options, config⟩ disk =
      starting env config "generate" index o today disk fun p disk =>
        reportGeneration p (p.generate options today.text disk) := by
  unfold carryOut starting runGenerate
  rfl

omit [Readers] in
/-- A step whose errors are wrapped, and the step after it, fail with what either of them does. -/
theorem mapError_bind_eq_error {ε ε' α β : Type} {first : Except ε' α} {wrap : ε' → ε}
    {next : α → Except ε β} {e : ε} (h : (first.mapError wrap).bind next = .error e) :
    (∃ e', e = wrap e') ∨ ∃ a, next a = .error e := by
  cases first with
  | error e' => exact Or.inl ⟨e', (Except.error.inj h).symm⟩
  | ok a => exact Or.inr ⟨a, h⟩

/-- The preparation of a run is broken off by a sum only. -/
theorem eq_overflow_of_prepare {path : Path} {o : Overrides} {defaults : Defaults} {today : Date}
    {e : RunError} (h : prepare disk path o defaults today = .error e)
    (hbreaks : e.breaksOff = true) : e = .quota .overflow := by
  have htree := map_tree_prepare disk path o defaults today
  rw [h] at htree
  rcases mapError_bind_eq_error htree.symm with ⟨e', rfl⟩ | ⟨exam, hexam⟩
  · exact absurd hbreaks Bool.false_ne_true
  rcases mapError_bind_eq_error hexam with ⟨e', rfl⟩ | ⟨bank, hbank⟩
  · exact absurd hbreaks Bool.false_ne_true
  unfold treeFor at hbank
  cases hquestions : Bank.load disk bank with
  | error e' =>
    rw [hquestions] at hbank
    obtain rfl := Except.error.inj hbank
    exact absurd hbreaks Bool.false_ne_true
  | ok questions =>
    simp only [hquestions] at hbank
    cases hbuild : QuotaTree.build exam.parts questions with
    | ok tree => rw [hbuild] at hbank; exact absurd hbank (by simp [Except.mapError])
    | error e' =>
      rw [hbuild] at hbank
      obtain rfl := Except.error.inj hbank
      cases e' with
      | overflow => rfl
      | _ => exact absurd hbreaks Bool.false_ne_true

/-- The reply to what a preparation ends with. -/
def goingOn (name : String) (go : Prepared → Disk → Reply) (disk : Disk) :
    Except RunError Prepared → Reply
  | .error e => failed name e disk
  | .ok p => go p disk

/-- A command goes on from what a preparation ends with. -/
theorem starting_of_prepares {o : Overrides} {today : Date} {result : Except RunError Prepared}
    (h : Prepares env config index o today disk result) (name : String)
    (go : Prepared → Disk → Reply) :
    starting env config name index o today disk go =
      goingOn name go (afterLog env config disk) result := by
  obtain ⟨c, hload, hlog, hprepare⟩ := h
  unfold starting withConfiguration withLog
  rw [hload]
  dsimp only
  rw [hlog]
  dsimp only
  rw [hprepare]
  cases result <;> rfl

/-- A command that does not come to prepare a run fails, and writes nothing but the log. -/
theorem starting_of_not_prepares {o : Overrides} {today : Date}
    (h : ∀ result, ¬ Prepares env config index o today disk result) (name : String)
    (go : Prepared → Disk → Reply) :
    ∃ output, starting env config name index o today disk go =
      ⟨1, output, afterLog env config disk⟩ := by
  unfold starting withConfiguration withLog
  cases hload : Configuration.load env disk config with
  | error e =>
    have hafter : afterLog env config disk = disk := by unfold afterLog; rw [hload]
    exact ⟨_, by rw [hafter]; rfl⟩
  | ok c =>
    dsimp only
    cases hlog : openLog c disk with
    | error e =>
      have hafter : afterLog env config disk = disk := by
        unfold afterLog
        rw [hload]
        dsimp only
        rw [hlog]
      exact ⟨_, by rw [hafter]⟩
    | ok opened =>
      have hafter : afterLog env config disk = opened := by
        unfold afterLog
        rw [hload]
        dsimp only
        rw [hlog]
      exact absurd ⟨c, hload, by rw [hafter, hlog], rfl⟩ (h _)

/-- A command line with the same bank and tolerance prepares a run over the same tree, or fails to
for the same reason. -/
theorem Prepares.congr {o : Overrides} {today : Date} {result : Except RunError Prepared}
    (h : Prepares env config index o today disk result) (o' : Overrides) (hbank : o'.bank = o.bank)
    (htolerance : o'.tolerance = o.tolerance) (today' : Date) :
    ∃ result', Prepares env config index o' today' disk result' ∧
      result'.map (·.tree) = result.map (·.tree) := by
  obtain ⟨c, hload, hlog, rfl⟩ := h
  exact ⟨_, ⟨c, hload, hlog, rfl⟩, prepare_congr _ index c.defaults today today' hbank htolerance⟩

/-- What a check prepares, a generation with its bank and tolerance prepares too, over the same
tree. -/
theorem Ready.congr {o : Overrides} {today : Date} {p : Prepared}
    (h : Ready env config index o today disk p) (o' : Overrides) (hbank : o'.bank = o.bank)
    (htolerance : o'.tolerance = o.tolerance) (today' : Date) :
    ∃ p', Ready env config index o' today' disk p' ∧ p'.tree = p.tree := by
  obtain ⟨result, hresult, hsame⟩ := Prepares.congr h o' hbank htolerance today'
  cases result with
  | error e => exact absurd hsame (by simp [Except.map])
  | ok p' => exact ⟨p', hresult, Except.ok.inj hsame⟩

theorem Overflows.congr {o : Overrides} {today : Date} (h : Overflows env config index o today disk)
    (o' : Overrides) (hbank : o'.bank = o.bank) (htolerance : o'.tolerance = o.tolerance)
    (today' : Date) : Overflows env config index o' today' disk := by
  obtain ⟨result, hresult, hsame⟩ := Prepares.congr h o' hbank htolerance today'
  cases result with
  | error e =>
    obtain rfl := Except.error.inj hsame
    exact hresult
  | ok p' => exact absurd hsame (by simp [Except.map])

/-- The tree of a run is the one built from its parts. -/
theorem Ready.build {o : Overrides} {today : Date} {p : Prepared}
    (h : Ready env config index o today disk p) :
    QuotaTree.build p.exam.parts p.questions = .ok p.tree := by
  obtain ⟨_, _, _, hprepare⟩ := h
  exact (prepare_ok.mp hprepare).2.2.2

/-- A command goes on with the run that is prepared. -/
theorem starting_of_ready {o : Overrides} {today : Date} {p : Prepared}
    (h : Ready env config index o today disk p) (name : String) (go : Prepared → Disk → Reply) :
    starting env config name index o today disk go = go p (afterLog env config disk) :=
  starting_of_prepares h name go

/-- A command is broken off where the counts add up to too much, and writes nothing but the log. -/
theorem starting_of_overflows {o : Overrides} {today : Date}
    (h : Overflows env config index o today disk) (name : String) (go : Prepared → Disk → Reply) :
    starting env config name index o today disk go =
      ⟨brokenOffCode, "", afterLog env config disk⟩ :=
  starting_of_prepares h name go

/-- Without a run that is prepared and without such a sum, a command fails and writes nothing but
the log. -/
theorem starting_of_not_ready {o : Overrides} {today : Date}
    (h : ¬ ∃ p, Ready env config index o today disk p)
    (hoverflow : ¬ Overflows env config index o today disk) (name : String)
    (go : Prepared → Disk → Reply) :
    ∃ output, starting env config name index o today disk go =
      ⟨1, output, afterLog env config disk⟩ := by
  by_cases hprepares : ∃ result, Prepares env config index o today disk result
  · obtain ⟨result, hresult⟩ := hprepares
    rw [starting_of_prepares hresult]
    cases result with
    | ok p => exact absurd ⟨p, hresult⟩ h
    | error e =>
      -- an error that breaks a run off is such a sum
      have hreported : e.breaksOff ≠ true := by
        intro hbreaks
        have hsum : e = .quota .overflow := by
          obtain ⟨_, _, _, hprepare⟩ := hresult
          exact eq_overflow_of_prepare hprepare hbreaks
        subst hsum
        exact hoverflow hresult
      exact ⟨_, if_neg hreported⟩
  · exact starting_of_not_prepares (not_exists.mp hprepares) name go

end

/-! ## Replies -/

/-- A check succeeds just if the tree of the run is correct. -/
theorem code_reportPrepared (p : Prepared) (disk : Disk) :
    (reportPrepared p disk).code = if p.tree.isCorrect then 0 else 1 := by
  unfold reportPrepared
  cases hfirst : p.tree.firstIncorrect with
  | none => rw [QuotaTree.firstIncorrect_eq_none_iff.mp hfirst]; rfl
  | some node =>
    have hincorrect : p.tree.isCorrect ≠ true := by
      intro hcorrect
      rw [QuotaTree.firstIncorrect_eq_none_iff.mpr hcorrect] at hfirst
      exact absurd hfirst (by simp)
    rw [if_neg hincorrect]
    rfl

/-- A run that searched to its end, with the code that it ends with: it wrote an edition, found no
selection, or failed on a template or on a file. Some templates break it off: those that ask for too
many decimals, or for more arguments than a word can count. -/
inductive Searched (g : Generation) : Nat → Prop
  | written (e : Edition) : g.result = .ok (.written e) → Searched g 0
  | exhausted (stats : SearchStats) : g.result = .ok (.exhausted stats) → Searched g 2
  | template (e : TemplateError) : e.breaksOff = false →
    g.result = .error (.template e) → Searched g 1
  | brokenOff (e : TemplateError) : e.breaksOff = true →
    g.result = .error (.template e) → Searched g brokenOffCode
  | output (e : OutputError) : g.result = .error (.output e) → Searched g 1

section

variable [Generator]

/-- A run that does not fail in its search ends after it. -/
theorem searched_generate {p : Prepared} {options : GenerateOptions} {disk : Disk}
    (h : ∃ outcome, (p.searched options disk).1 = .ok outcome) (today : String) :
    Searched (p.generate options today disk)
      (reportGeneration p (p.generate options today disk)).code := by
  obtain ⟨outcome, hok⟩ := h
  rcases p.generate_cases options today disk with
    ⟨e, herror, _⟩ | ⟨_, ⟨stats, hg⟩ | ⟨e, hg⟩ | ⟨attempt, bestEffort, texts, _, hg⟩⟩
  · exact absurd (hok.symm.trans herror) (by simp)
  · rw [hg]
    exact .exhausted stats rfl
  · rw [hg]
    unfold reportGeneration failed
    dsimp only
    by_cases hbreaks : (RunError.template e).breaksOff = true
    · rw [if_pos hbreaks]
      exact .brokenOff e hbreaks rfl
    · rw [if_neg hbreaks]
      exact .template e (Bool.eq_false_iff.mpr hbreaks) rfl
  · rw [hg]
    unfold Prepared.writeEdition
    rcases Outputs.write disk _ texts with ⟨e | u, after⟩
    · exact .output e rfl
    · exact .written _ rfl

/-- A run over a tree that is not correct fails and writes nothing. -/
theorem generate_of_not_isCorrect {p : Prepared} (h : p.tree.isCorrect ≠ true)
    (options : GenerateOptions) (today : String) (disk : Disk) :
    (reportGeneration p (p.generate options today disk)).code = 1 ∧
      (reportGeneration p (p.generate options today disk)).disk = disk := by
  have hincorrect : p.tree.firstIncorrect ≠ none := by
    rw [ne_eq, QuotaTree.firstIncorrect_eq_none_iff]
    exact h
  obtain ⟨node, hnode⟩ := Option.ne_none_iff_exists'.mp hincorrect
  have hsearch : (p.searched options disk).1 =
      .error (.quota (.incorrectTree node.quota.label)) := by
    unfold Prepared.searched Search.search
    rw [hnode]
  rcases p.generate_cases options today disk with ⟨e, herror, hg⟩ | ⟨⟨outcome, hok⟩, _⟩
  · obtain rfl := Except.error.inj (hsearch.symm.trans herror)
    rw [hg]
    exact ⟨rfl, rfl⟩
  · exact absurd (hsearch.symm.trans hok) (by simp)

end

/-- **What a check promises.** Let a generation have the bank of a check, and no tolerance of its
own. If the check succeeds, the generation searches to its end. If the check fails, the generation
fails as well and writes nothing but the log. There is one other way for a check to end: the counts
of the parts add up to more than a word can hold, and both are broken off. -/
theorem generate_of_check [Readers] [Generator] {env : Environment} {config : Option Path}
    {index : Path} {disk : Disk} (today today' : Date) (bank : Option Path)
    (seed tries : Option Nat) (options : GenerateOptions) :
    let check := carryOut env today ⟨.check index bank, config⟩ disk
    let generate := carryOut env today' ⟨.generate index { bank, seed, tries } options, config⟩ disk
    (check.code = 0 → ∃ p, Ready env config index { bank, seed, tries } today' disk p ∧
      generate =
        reportGeneration p (p.generate options today'.text (afterLog env config disk)) ∧
      Searched (p.generate options today'.text (afterLog env config disk)) generate.code) ∧
    (check.code = 1 → generate.code = 1 ∧ generate.disk = afterLog env config disk) ∧
    (check.code = 0 ∨ check.code = 1 ∨
      check.code = brokenOffCode ∧ Overflows env config index { bank } today disk ∧
        generate.code = brokenOffCode ∧ generate.disk = afterLog env config disk) := by
  dsimp only
  rw [carryOut_check, carryOut_generate]
  by_cases hready : ∃ p, Ready env config index { bank } today disk p
  · -- what the check prepares, the generation prepares too, over the same tree
    obtain ⟨p, hp⟩ := hready
    obtain ⟨p', hp', htree⟩ := hp.congr { bank, seed, tries } rfl rfl today'
    rw [starting_of_ready hp, starting_of_ready hp', code_reportPrepared]
    by_cases hcorrect : p.tree.isCorrect = true
    · rw [if_pos hcorrect]
      refine ⟨fun _ => ⟨p', hp', rfl, ?_⟩, fun h => absurd h (by decide), Or.inl rfl⟩
      obtain ⟨hr, hs⟩ := (QuotaTree.built_of_build hp.build).fits hcorrect
      refine searched_generate ?_ today'.text
      unfold Prepared.searched
      rw [htree]
      exact Search.search_isOk hcorrect (Search.attempt_isOk hr hs) p'.searchParams _
    · rw [if_neg hcorrect]
      refine ⟨fun h => absurd h (by decide), fun _ => ?_, Or.inr (Or.inl rfl)⟩
      refine generate_of_not_isCorrect ?_ options today'.text _
      rwa [htree]
  by_cases hoverflow : Overflows env config index { bank } today disk
  · have hoverflow' := hoverflow.congr { bank, seed, tries } rfl rfl today'
    rw [starting_of_overflows hoverflow, starting_of_overflows hoverflow']
    have hcode : brokenOffCode ≠ 0 ∧ brokenOffCode ≠ 1 := by decide
    exact ⟨fun h => absurd h hcode.1, fun h => absurd h hcode.2,
      Or.inr (Or.inr ⟨rfl, hoverflow, rfl, rfl⟩)⟩
  · have hready' : ¬ ∃ p, Ready env config index { bank, seed, tries } today' disk p := by
      rintro ⟨p, hp⟩
      obtain ⟨p', hp', _⟩ := hp.congr { bank } rfl rfl today
      exact hready ⟨p', hp'⟩
    have hoverflow' : ¬ Overflows env config index { bank, seed, tries } today' disk :=
      fun h => hoverflow (h.congr { bank } rfl rfl today)
    obtain ⟨output, hcheck⟩ := starting_of_not_ready hready hoverflow "check" reportPrepared
    obtain ⟨output', hgenerate⟩ := starting_of_not_ready hready' hoverflow' "generate"
      fun p disk => reportGeneration p (p.generate options today'.text disk)
    rw [hcheck, hgenerate]
    exact ⟨fun h => absurd h Nat.one_ne_zero, fun _ => ⟨rfl, rfl⟩, Or.inr (Or.inl rfl)⟩

/-- A disk with an index and a bank of one question, which has a text. -/
def oneQuestionDisk (text : String) : Disk where
  entries := [
    (["bank.yaml"], .file (some ("title: t\ndifficulty: 1\ntags: x\na: " ++ text ++ "\n"))),
    (["exam.yaml"], .file (some "difficulty: 1\nbank: bank.yaml\nfiles: a.md\nparts: x\n"))]

/-- A check of the index succeeds, so a generation on another day ends after its search. -/
theorem generate_of_check_oneQuestion :
    (carryOut {} ⟨2024, 1, 1⟩ ⟨.check ⟨"exam.yaml"⟩ none, none⟩ (oneQuestionDisk "q")).code = 0 ∧
    ∃ p, Ready {} none ⟨"exam.yaml"⟩ { seed := some 7 } ⟨2024, 1, 2⟩ (oneQuestionDisk "q") p ∧
      Searched
        (p.generate { edition := some 3 } "2024-01-02" (afterLog {} none (oneQuestionDisk "q")))
        (carryOut {} ⟨2024, 1, 2⟩
          ⟨.generate ⟨"exam.yaml"⟩ { seed := some 7 } { edition := some 3 }, none⟩
          (oneQuestionDisk "q")).code := by
  have hcheck : (carryOut {} ⟨2024, 1, 1⟩ ⟨.check ⟨"exam.yaml"⟩ none, none⟩
      (oneQuestionDisk "q")).code = 0 := by decide +kernel
  obtain ⟨hsuccess, -⟩ :=
    generate_of_check ⟨2024, 1, 1⟩ ⟨2024, 1, 2⟩ none (some 7) none { edition := some 3 }
  obtain ⟨p, hp, -, hsearched⟩ := hsuccess hcheck
  have hday : (⟨2024, 1, 2⟩ : Date).text = "2024-01-02" := by decide
  rw [hday] at hsearched
  exact ⟨hcheck, p, hp, hsearched⟩

/-- A check says nothing about templates. It succeeds here, and the generation is broken off at a
directive that excludes as many values as a word can count and has fewer: it would say that one more
argument is needed. -/
theorem generate_breaksOff :
    (carryOut {} ⟨2024, 1, 1⟩ ⟨.check ⟨"exam.yaml"⟩ none, none⟩
      (oneQuestionDisk "((OPEXCEPT,18446744073709551615,a))")).code = 0 ∧
    (carryOut {} ⟨2024, 1, 1⟩ ⟨.generate ⟨"exam.yaml"⟩ {} {}, none⟩
      (oneQuestionDisk "((OPEXCEPT,18446744073709551615,a))")).code = brokenOffCode := by
  decide +kernel

end Command

end ExamPaper
