/-
# Runs that complete and runs that leave everything as it is

A run either fails and leaves the files as they are, or has the dump of the compiled recipe and
changes no file but the one asked for. What a run goes by is said here without the order in which
the run finds out: the configuration file is the one asked for or the first one that is there, and
imports are read below the configured root or else next to the recipe. All of it is read from the
files as they were before, also where the output is one of them.

There are four kinds of reasons to fail, and no finding about a recipe is one of them unless the
recipe has to be understood as a whole.
-/

import RecipeGraph.Cli.Run
import RecipeGraph.Proofs.Files.Written

namespace RecipeGraph.Cli

variable {tree : FileTree} {files : FileView} {asked system : Option String} {request : Request}

/-! ### The configuration -/

/-- The configuration file that a run goes by: the one that is asked for, which need not be there,
or else the first one that is there. -/
def configFile? (files : FileView) (asked system : Option String) : Option String :=
  asked.or <| (Config.localPath :: system.toList).find? fun path => files.leadsSomewhere path

/-- A configuration is the one in the configuration file, or without a file the standard one. -/
inductive Configured (files : FileView) (asked system : Option String) : Config → Prop
  | standard (none : configFile? files asked system = none) :
      Configured files asked system .standard
  | file {path text : String} {config : Config}
      (chosen : configFile? files asked system = some path)
      (read : files.read path = .ok text) (parsed : Config.parse files text = .ok config) :
      Configured files asked system config

/-- Why there is no configuration to go by: the file that is asked for is missing, the file cannot
be read, or what it says is no valid configuration. -/
inductive Misconfigured (files : FileView) (asked system : Option String) : RunError → Prop
  | missing {path : String} (chosen : configFile? files asked system = some path)
      (nowhere : files.leadsSomewhere path = false) :
      Misconfigured files asked system (.config (.missingFile path))
  | unreadable {path : String} {failure : SystemError}
      (chosen : configFile? files asked system = some path)
      (somewhere : files.leadsSomewhere path = true) (read : files.read path = .error failure) :
      Misconfigured files asked system (.system failure)
  | invalid {path text : String} {failure : ConfigError}
      (chosen : configFile? files asked system = some path)
      (read : files.read path = .ok text) (parsed : Config.parse files text = .error failure) :
      Misconfigured files asked system (.config failure)

theorem loadConfig_eq (files : FileView) (asked system : Option String) :
    loadConfig files asked system =
      match configFile? files asked system with
      | some path => loadConfigFile files path
      | none => .ok .standard := by
  unfold loadConfig configFile?
  cases asked with
  | some path => rfl
  | none =>
      cases near : files.leadsSomewhere Config.localPath with
      | true => simp [near]
      | false =>
          cases system with
          | none => simp [near]
          | some path => cases far : files.leadsSomewhere path <;> simp [near, far]

theorem leadsSomewhere_of_read {path text : String} (read : files.read path = .ok text) :
    files.leadsSomewhere path = true := by
  unfold FileView.leadsSomewhere
  unfold FileView.read at read
  cases found : files path with
  | ok entry => rfl
  | error failure => simp [found] at read

theorem Configured.loadConfig {config : Config} (configured : Configured files asked system config) :
    loadConfig files asked system = .ok config := by
  cases configured with
  | standard none => rw [loadConfig_eq, none]
  | file chosen read parsed =>
      rw [loadConfig_eq, chosen]
      simp only [loadConfigFile, leadsSomewhere_of_read read, read, parsed, if_true]

theorem Misconfigured.loadConfig {reason : RunError}
    (wrong : Misconfigured files asked system reason) :
    loadConfig files asked system = .error reason := by
  cases wrong with
  | missing chosen nowhere =>
      rw [loadConfig_eq, chosen]
      simp only [loadConfigFile, nowhere, Bool.false_eq_true, if_false]
  | unreadable chosen somewhere read =>
      rw [loadConfig_eq, chosen]
      simp only [loadConfigFile, somewhere, read, if_true]
  | invalid chosen read parsed =>
      rw [loadConfig_eq, chosen]
      simp only [loadConfigFile, leadsSomewhere_of_read read, read, parsed, if_true]

theorem configured_or_misconfigured (files : FileView) (asked system : Option String) :
    (∃ config, Configured files asked system config) ∨
      ∃ reason, Misconfigured files asked system reason := by
  cases chosen : configFile? files asked system with
  | none => exact .inl ⟨_, .standard chosen⟩
  | some path =>
      cases somewhere : files.leadsSomewhere path with
      | false => exact .inr ⟨_, .missing chosen somewhere⟩
      | true =>
          cases read : files.read path with
          | error failure => exact .inr ⟨_, .unreadable chosen somewhere read⟩
          | ok text =>
              cases parsed : Config.parse files text with
              | error failure => exact .inr ⟨_, .invalid chosen read parsed⟩
              | ok config => exact .inl ⟨_, .file chosen read parsed⟩

/-! ### Compiling -/

/-- Below which directory imports are read. -/
def importRoot (config : Config) (input : String) : String :=
  config.root.getD (inputDirectory input)

/-- What recipes are compiled with: imports are read below the root, and kept if the configuration
says so. -/
def configuredCompiler (files : FileView) (config : Config) (input : String) : Compiler Cache where
  resolver :=
    let loader := Loader.ofFiles files (importRoot config input)
    if config.cache then .caching loader else .plain loader
  maxDepth := config.maxDepth

theorem compilerFor_withDefaultRoot (files : FileView) (config : Config) (input : String) :
    compilerFor files (withDefaultRoot config input) = configuredCompiler files config input := by
  unfold compilerFor withDefaultRoot configuredCompiler importRoot
  cases root : config.root with
  | none => rfl
  | some directory => simp [root]

/-- A compilation of a text by a compiler that has compiled nothing before, as a whole or of what is
understood. -/
def Compiles (compiler : Compiler Cache) (lenient : Bool) (source : String)
    (compilation : Compilation) : Prop :=
  if lenient then
    (compiler.compileLenient source (.start .empty)).1 = compilation
  else
    (compiler.compile source (.start .empty)).1 = .ok compilation

/-- Compiling fails only where a text has to be understood that is not. -/
theorem compileAs_cases (compiler : Compiler Cache) (lenient : Bool) (source : String) :
    (∃ compilation, (compileAs compiler lenient source).1 = .ok compilation ∧
      Compiles compiler lenient source compilation ∧
      (lenient = true ∨ ∃ recipe, Recipe.parse source = .ok recipe)) ∨
    ∃ failure, (compileAs compiler lenient source).1 = .error (.parse failure source) ∧
      lenient = false ∧ Recipe.parse source = .error failure := by
  cases lenient with
  | true => exact .inl ⟨_, rfl, rfl, .inl rfl⟩
  | false =>
      simp only [compileAs, Compiler.compile, Compiles, Bool.false_eq_true, if_false]
      cases parsed : Recipe.parse source with
      | error failure => exact .inr ⟨failure, by simp⟩
      | ok recipe => exact .inl ⟨(compiler.compileRecipe recipe (.start .empty)).1, by simp⟩

/-! ### Whole runs -/

/-- Why a run comes to no compiled recipe. -/
inductive Unprepared (files : FileView) (system : Option String) (request : Request) :
    RunError → Prop
  | config {reason : RunError} (wrong : Misconfigured files request.config system reason) :
      Unprepared files system request reason
  | input {config : Config} {failure : SystemError}
      (configured : Configured files request.config system config)
      (read : files.read request.input = .error failure) :
      Unprepared files system request (.system failure)
  | text {config : Config} {source : String} {failure : ParseError}
      (configured : Configured files request.config system config)
      (read : files.read request.input = .ok source) (strict : request.lenient = false)
      (parsed : Recipe.parse source = .error failure) :
      Unprepared files system request (.compile (.parse failure source))

/-- The outcome of a run that comes to a compiled recipe. -/
structure Prepared (files : FileView) (system : Option String) (request : Request)
    (outcome : Outcome) : Prop where
  understood : request.lenient = true ∨ ∃ recipe, Recipe.parse outcome.source = .ok recipe
  compiled : ∃ config compilation, Configured files request.config system config ∧
    files.read request.input = .ok outcome.source ∧
    Compiles (configuredCompiler files config request.input) request.lenient outcome.source
      compilation ∧
    outcome.diagnostics = compilation.diagnostics ∧ outcome.dump = compilation.graph.dump

theorem prepare_cases (files : FileView) (system : Option String) (request : Request) :
    (∃ outcome, prepare files system request = .ok outcome ∧
      Prepared files system request outcome) ∨
    ∃ failure, prepare files system request = .error failure ∧
      Unprepared files system request failure.reason := by
  unfold prepare
  rcases configured_or_misconfigured files request.config system with
    ⟨config, configured⟩ | ⟨reason, wrong⟩
  · rw [configured.loadConfig]
    cases read : files.read request.input with
    | error failure => exact .inr ⟨_, rfl, .input configured read⟩
    | ok source =>
        dsimp only
        rw [compilerFor_withDefaultRoot]
        rcases compileAs_cases (configuredCompiler files config request.input) request.lenient
          source with ⟨compilation, result, compiled, understood⟩ | ⟨failure, result, strict, parsed⟩
        · rw [result]
          exact .inl ⟨_, rfl, understood,
            config, compilation, configured, read, compiled, rfl, rfl⟩
        · rw [result]
          exact .inr ⟨_, rfl, .text configured read strict parsed⟩
  · rw [wrong.loadConfig]
    exact .inr ⟨_, rfl, .config wrong⟩

theorem Prepared.not_unprepared {outcome : Outcome}
    (prepared : Prepared files system request outcome) (reason : RunError) :
    ¬ Unprepared files system request reason := by
  intro unprepared
  obtain ⟨config, compilation, configured, read, -⟩ := prepared.compiled
  cases unprepared with
  | config wrong => cases configured.loadConfig.symm.trans wrong.loadConfig
  | input _ unread => cases read.symm.trans unread
  | text _ known strict parsed =>
      cases read.symm.trans known
      rcases prepared.understood with lenient | ⟨recipe, understood⟩
      · cases strict.symm.trans lenient
      · cases parsed.symm.trans understood

theorem Compiles.unique {compiler : Compiler Cache} {lenient : Bool} {source : String}
    {first second : Compilation} (one : Compiles compiler lenient source first)
    (other : Compiles compiler lenient source second) : first = second := by
  unfold Compiles at one other
  split at one
  · next lenient =>
      rw [if_pos lenient] at other
      exact one.symm.trans other
  · next strict =>
      rw [if_neg strict] at other
      exact Except.ok.inj (one.symm.trans other)

theorem Prepared.dump_unique {first second : Outcome}
    (one : Prepared files system request first) (other : Prepared files system request second) :
    first.dump = second.dump := by
  obtain ⟨config, compilation, configured, read, compiled, -, dump⟩ := one.compiled
  obtain ⟨config', compilation', configured', read', compiled', -, dump'⟩ := other.compiled
  cases configured.loadConfig.symm.trans configured'.loadConfig
  rw [← Except.ok.inj (read.symm.trans read')] at compiled'
  rw [dump, dump', compiled.unique compiled']

section Files

variable {σ : Type} (disk : FileSystem σ)

/-- Why a run fails: it comes to no compiled recipe, or its dump cannot be written. -/
inductive Refused (files : σ) (system : Option String) (request : Request) : RunError → Prop
  | unprepared {reason : RunError} (unprepared : Unprepared (disk.view files) system request reason) :
      Refused files system request reason
  | output {outcome : Outcome} {path : String} {failure : SystemError}
      (prepared : Prepared (disk.view files) system request outcome)
      (asked : request.output = some path)
      (barred : disk.write files path outcome.dump = .error failure) :
      Refused files system request (.system failure)

/-- What becomes of the files when the dump is written where it is asked for, if anywhere. -/
def Stored (together : σ → String → String → Prop) (files after : σ) (output : Option String)
    (dump : String) : Prop :=
  match output with
  | none => after = files
  | some path => disk.WroteOnly together files after path dump

variable {disk} {together : σ → String → String → Prop}

theorem Refused.runOn {files : σ} {reason : RunError}
    (refused : Refused disk files system request reason) :
    ∃ failure, (runOn disk files system request).1 = .error failure := by
  unfold Cli.runOn
  rcases prepare_cases (disk.view files) system request with
    ⟨outcome, result, prepared⟩ | ⟨failure, result, unprepared⟩
  · rw [result]
    cases refused with
    | unprepared unprepared => exact (prepared.not_unprepared _ unprepared).elim
    | @output _ path failure same asked barred =>
        rw [same.dump_unique prepared] at barred
        exact ⟨⟨.system failure, outcome.log⟩, by simp only [asked, barred]⟩
  · rw [result]
    exact ⟨failure, rfl⟩

/-- A run is refused and leaves the files as they are, or its outcome is stored. -/
theorem runOn_cases (exactly : disk.WritesExactly together) (files : σ) (system : Option String)
    (request : Request) :
    (∃ failure, runOn disk files system request = (.error failure, files) ∧
      Refused disk files system request failure.reason) ∨
    ∃ outcome after, runOn disk files system request = (.ok outcome, after) ∧
      Prepared (disk.view files) system request outcome ∧
      Stored disk together files after request.output outcome.dump := by
  unfold runOn Stored
  rcases prepare_cases (disk.view files) system request with
    ⟨outcome, result, prepared⟩ | ⟨failure, result, unprepared⟩
  · rw [result]
    dsimp only
    cases asked : request.output with
    | none => exact .inr ⟨outcome, files, rfl, prepared, rfl⟩
    | some path =>
        cases wrote : disk.write files path outcome.dump with
        | error failure =>
            exact .inl ⟨⟨.system failure, outcome.log⟩, by simp only [wrote],
              .output prepared asked wrote⟩
        | ok after =>
            exact .inr ⟨outcome, after, by simp only [wrote], prepared,
              exactly files after path outcome.dump wrote⟩
  · rw [result]
    exact .inl ⟨failure, rfl, .unprepared unprepared⟩

/-- A run fails exactly for one of the reasons, none of which is a warning, and then no file is
changed. If it does not fail, the output has the dump of the compiled recipe, whose findings are
handed back, and no other file is changed. -/
theorem runOn_all_or_nothing (exactly : disk.WritesExactly together) (files : σ)
    (system : Option String) (request : Request) :
    ((∃ failure, (runOn disk files system request).1 = .error failure) ↔
      ∃ reason, Refused disk files system request reason) ∧
    (∀ failure, (runOn disk files system request).1 = .error failure →
      Refused disk files system request failure.reason ∧
        (runOn disk files system request).2 = files) ∧
    ∀ outcome, (runOn disk files system request).1 = .ok outcome →
      Prepared (disk.view files) system request outcome ∧
        Stored disk together files (runOn disk files system request).2 request.output
          outcome.dump := by
  rcases runOn_cases exactly files system request with
    ⟨failure, result, refused⟩ | ⟨outcome, after, result, prepared, stored⟩
  · rw [result]
    refine ⟨⟨fun _ => ⟨_, refused⟩, fun _ => ⟨_, rfl⟩⟩, fun other same => ?_, nofun⟩
    cases same
    exact ⟨refused, rfl⟩
  · have completes (reason : RunError) : ¬ Refused disk files system request reason := by
      intro refused
      obtain ⟨failure, failed⟩ := refused.runOn
      rw [result] at failed
      cases failed
    rw [result]
    refine ⟨⟨nofun, fun ⟨reason, refused⟩ => (completes reason refused).elim⟩, nofun,
      fun other same => ?_⟩
    cases same
    exact ⟨prepared, stored⟩

end Files

/-- A recipe next to another one that it imports, and a configuration. -/
def kitchen : FileTree :=
  ((FileTree.empty.plant "fiz/config.toml" "[imports]\nmax_depth = 4\n").plant
    "recipes/cake.fiz" "@ \"pantry\"\n!!\nbake(flour, sugar)\n").plant
    "recipes/pantry.fiz" "flour = mill()\n"

/-- Compiles the recipe into the file that it imports. -/
def overwriting (lenient : Bool) : Request :=
  ⟨"recipes/cake.fiz", some "recipes/pantry.fiz", none, lenient⟩

theorem runOn_all_or_nothing_of_kitchen :
    (∃ outcome, (run kitchen none (overwriting true)).1 = .ok outcome ∧
      outcome.diagnostics.length = 2 ∧
      (run kitchen none (overwriting true)).2.view.read "recipes/pantry.fiz" = .ok outcome.dump ∧
      Prepared kitchen.view none (overwriting true) outcome) ∧
    (∃ failure, (run kitchen none (overwriting false)).1 = .error failure) ∧
      (run kitchen none (overwriting false)).2 = kitchen := by
  -- the first run completes, with a finding for the line skipped and one for the argument unknown
  obtain ⟨-, -, completes⟩ := runOn_all_or_nothing FileTree.fileSystem_writesExactly kitchen none
    (overwriting true)
  obtain ⟨-, leaves, -⟩ := runOn_all_or_nothing FileTree.fileSystem_writesExactly kitchen none
    (overwriting false)
  have two : (run kitchen none (overwriting true)).1.toOption.map
      (fun outcome => outcome.diagnostics.length) = some 2 := by decide +kernel
  have failed : (run kitchen none (overwriting false)).1.isOk = false := by decide +kernel
  constructor
  · cases result : (run kitchen none (overwriting true)).1 with
    | error failure => simp [result, Except.toOption] at two
    | ok outcome =>
        obtain ⟨prepared, stored⟩ := completes outcome result
        refine ⟨outcome, rfl, by simpa [result, Except.toOption] using two, stored.content, prepared⟩
  · cases result : (run kitchen none (overwriting false)).1 with
    | error failure => exact ⟨⟨failure, rfl⟩, (leaves failure result).2⟩
    | ok outcome => simp [result, Except.isOk, Except.toBool] at failed

/-- A configuration that is there but may not be read is a failure of the system. It is not passed
over like one that is missing. -/
example :
    let closed := FileTree.mk (kitchen.entries.insert ["fiz", "config.toml"] (.unreadable .permission))
    run closed none (overwriting true) = (.error ⟨.system .permissionDenied, []⟩, closed) := by
  rfl

end RecipeGraph.Cli
