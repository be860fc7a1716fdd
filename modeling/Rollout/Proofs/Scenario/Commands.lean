import Rollout.Proofs.Text.ShellWords
import Rollout.Proofs.World.Runs
import Rollout.Scenario.Steps

/-!
# Cluster commands in a namespace

A command of a booster is a text that is continued by the namespace of the run before it is split
into words. Its own words stay what they are, however they are quoted, and the namespace comes
behind them; a command that ends inside quotes is refused before anything is started.

- `World.processed`: the world once a process was started.
- `shellWords_inNamespace`, `refused_inNamespace`: the words of a command with its namespace.
- `command_keeps_words`: **one command**, with the process that it starts.
- `runCommands_run`: the commands of a booster, one process for each.
-/

namespace Rollout

/-! ## Processes -/

/-- The result of the next process. -/
def World.nextResult (world : World) : ProcessResult :=
  world.processes.head?.getD ⟨0, ""⟩

/-- What a process comes to: the lines of its output, unless its status is another than zero. -/
def ProcessResult.lines (result : ProcessResult) : Except Failure (List String) :=
  if result.status = 0 then .ok (Text.splitLines result.output)
  else .error (.exitStatus result.status)

/-- The world once a process was started: one more event, and one result less. -/
def World.processed (argv : List String) (world : World) : World :=
  { world with
    processes := world.processes.tail
    log := world.log ++ [.process argv none] }

theorem startProcess_run (argv : List String) (world : World) :
    Run.startProcess argv none world = .ok world.nextResult (world.processed argv) := by
  obtain ⟨disk, store, pods, deleteFaults, replies, processes, builds, routes, remotes, absent,
    pauses, console, tracked, closed, log⟩ := world
  cases processes <;> rfl

/-- A command line with words is one process. -/
theorem runLine_run {binary line : String} {argv : List String}
    (h : commandArguments binary line = .ok argv) (world : World) :
    runLine binary line world = Run.ending world.nextResult.lines (world.processed argv) := by
  have harguments : Run.ofExcept (commandArguments binary line) world = .ok argv world := by
    rw [h]
    rfl
  rw [runLine, Run.bind_of_ok harguments, Run.bind_of_ok (startProcess_run argv world),
    ProcessResult.lines]
  split <;> rfl

/-- A command line without words starts nothing. -/
theorem runLine_refused {binary line : String} {failure : Failure}
    (h : commandArguments binary line = .error failure) (world : World) :
    runLine binary line world = .error failure world := by
  refine Run.bind_of_error ?_
  rw [h]
  rfl

theorem commandArguments_of_words {binary line : String} {words : List String}
    (hbinary : binary ≠ "") (h : Text.shellWords line = .ok words) :
    commandArguments binary line = .ok (binary :: words) := by
  have hnamed : ¬ binary.isEmpty = true := fun hempty => hbinary (String.isEmpty_iff.mp hempty)
  rw [commandArguments, h]
  dsimp only
  rw [if_neg hnamed]

theorem commandArguments_of_error {binary line : String} {error : Text.ShellError}
    (h : Text.shellWords line = .error error) :
    commandArguments binary line = .error (.badCommandLine error) := by
  rw [commandArguments, h]

/-! ## The words of a command -/

/-- The name of a namespace: small letters, digits and hyphens. -/
def IsNamespace (space : String) : Prop :=
  space ≠ "" ∧ ∀ c ∈ space.toList, c.isLower = true ∨ isDigit c = true ∨ c = '-'

theorem isNamespace_iff {space : String} :
    (space ≠ "" ∧ space.toList.all (fun c => c.isLower || isDigit c || c == '-') = true) ↔
      IsNamespace space := by
  simp [IsNamespace, or_assoc]

instance (space : String) : Decidable (IsNamespace space) :=
  decidable_of_iff _ isNamespace_iff

/-- The name of a namespace needs no quotes. -/
theorem IsNamespace.isPlainWord {space : String} (h : IsNamespace space) :
    Text.IsPlainWord space := by
  refine ⟨h.1, fun c hc => ?_⟩
  have hother : ∀ d : Char, ¬ (d.isLower = true ∨ isDigit d = true ∨ d = '-') → c ≠ d := by
    rintro d hd rfl
    exact hd (h.2 c hc)
  have hblank : Text.isShellBlank c = false := by
    simp [Text.isShellBlank, hother ' ' (by decide), hother '\t' (by decide),
      hother '\r' (by decide), hother '\n' (by decide)]
  exact Text.isPlain_iff.mpr
    ⟨hblank, hother '\\' (by decide), hother '\'' (by decide), hother '"' (by decide)⟩

/-- The option that names a namespace needs no quotes. -/
theorem isPlainWord_option : Text.IsPlainWord "-n" :=
  ⟨by decide, List.all_eq_true.mp rfl⟩

theorem inNamespace_eq (command space : String) :
    inNamespace command space = command ++ " " ++ "-n" ++ " " ++ space := by
  have hoption : " -n " = " " ++ "-n" ++ " " := rfl
  rw [inNamespace, hoption]
  simp only [String.append_assoc]

section Words

variable {command space : String}

/-- **The words of a command** are kept, and the namespace comes behind them. -/
theorem shellWords_inNamespace {words : List String} (h : Text.shellWords command = .ok words)
    (hspace : IsNamespace space) :
    Text.shellWords (inNamespace command space) = .ok (words ++ ["-n", space]) := by
  rw [inNamespace_eq, Text.shellWords_append_word
    (Text.shellWords_append_word h isPlainWord_option) hspace.isPlainWord, List.append_assoc]
  rfl

/-- A command that ends inside quotes takes the namespace into them. -/
theorem refused_inNamespace (h : Text.EndsQuoted command) (hspace : IsNamespace space) :
    Text.shellWords (inNamespace command space) = .error .openQuote := by
  rw [inNamespace_eq]
  exact (Text.endsQuoted_append_word (Text.endsQuoted_append_word h isPlainWord_option).1
    hspace.isPlainWord).2

/-- No other command is refused. -/
theorem exists_shellWords_inNamespace (h : ¬ Text.EndsQuoted command)
    (hspace : IsNamespace space) :
    ∃ words, Text.shellWords (inNamespace command space) = .ok words := by
  obtain ⟨words, hwords⟩ := (Text.shellWords_append_iff isPlainWord_option).mpr h
  rw [inNamespace_eq]
  exact ⟨_, Text.shellWords_append_word hwords hspace.isPlainWord⟩

end Words

/-! ## Running them -/

section Running

variable {context : Context} {binary : String}

theorem runCommand_run (hrunner : context.runner = .binary binary) (hbinary : binary ≠ "")
    {line : String} {words : List String} (h : Text.shellWords line = .ok words) (world : World) :
    context.runCommand line world
      = Run.ending world.nextResult.lines (world.processed (binary :: words)) := by
  unfold Context.runCommand
  rw [hrunner]
  exact runLine_run (commandArguments_of_words hbinary h) world

theorem runCommand_refused (hrunner : context.runner = .binary binary) {line : String}
    {error : Text.ShellError} (h : Text.shellWords line = .error error) (world : World) :
    context.runCommand line world = .error (.badCommandLine error) world := by
  unfold Context.runCommand
  rw [hrunner]
  exact runLine_refused (commandArguments_of_error h) world

/-- **One command.** Every command that can be split, whatever its quotes and escapes are, starts
one process with its own words behind the binary, and the namespace behind these. A command that
ends inside quotes is a bad value, and nothing is started. There is no other command that starts
nothing. -/
theorem command_keeps_words (hrunner : context.runner = .binary binary) (hbinary : binary ≠ "")
    (hspace : IsNamespace context.space) (command : String) (world : World) :
    -- a command with words
    (∀ words, Text.shellWords command = .ok words →
      context.runCommand (inNamespace command context.space) world
        = Run.ending world.nextResult.lines
            (world.processed (binary :: (words ++ ["-n", context.space])))) ∧
    -- a command that ends inside quotes
    (Text.EndsQuoted command →
      ∃ failure, failure.category = .badValue ∧ failure.message = some "No closing quotation" ∧
        context.runCommand (inNamespace command context.space) world = .error failure world) ∧
    -- any other command
    (¬ Text.EndsQuoted command →
      ∃ argv, context.runCommand (inNamespace command context.space) world
        = Run.ending world.nextResult.lines (world.processed argv)) := by
  refine ⟨fun words hwords => ?_, fun hquoted => ?_, fun hclosed => ?_⟩
  · exact runCommand_run hrunner hbinary (shellWords_inNamespace hwords hspace) world
  · exact ⟨.badCommandLine .openQuote, rfl, rfl,
      runCommand_refused hrunner (refused_inNamespace hquoted hspace) world⟩
  · obtain ⟨words, hwords⟩ := exists_shellWords_inNamespace hclosed hspace
    exact ⟨_, runCommand_run hrunner hbinary hwords world⟩

/-- A run of the harness in the namespace `demo-7`. -/
def demoContext : Context :=
  ⟨.standard, .store, "demo-7", .command "mvn", .binary "oc"⟩

/-- Quoted words, an empty one and escapes, and a blank at the end. -/
theorem command_keeps_words_quoted :
    demoContext.runCommand (inNamespace "label 'a  b' \"c\\\"d\" '' e\\ f " "demo-7")
        (World.start Files.empty)
      = .ok [] ((World.start Files.empty).processed
          ["oc", "label", "a  b", "c\"d", "", "e f", "-n", "demo-7"]) := by
  have hwords : Text.shellWords "label 'a  b' \"c\\\"d\" '' e\\ f "
      = .ok ["label", "a  b", "c\"d", "", "e f"] := rfl
  have hrunner : demoContext.runner = .binary "oc" := rfl
  exact (command_keeps_words hrunner (by decide) (by decide) _ _).1 _ hwords

/-- The world once some processes were started, one after the other. -/
def World.processedAll (argvs : List (List String)) (world : World) : World :=
  { world with
    processes := world.processes.drop argvs.length
    log := world.log ++ argvs.map fun argv => .process argv none }

theorem World.processedAll_cons (argv : List String) (argvs : List (List String)) (world : World) :
    world.processedAll (argv :: argvs) = (world.processed argv).processedAll argvs := by
  unfold processedAll processed
  rw [List.length_cons, ← List.drop_tail, List.map_cons, List.append_assoc]
  rfl

/-- The next process succeeds when all of the next ones do, and so do those behind it. -/
theorem World.succeeds_succ {world : World} {n : Nat}
    (h : ∀ result ∈ world.processes.take (n + 1), result.status = 0) :
    world.nextResult.status = 0 ∧ ∀ result ∈ world.processes.tail.take n, result.status = 0 := by
  unfold nextResult
  cases hprocesses : world.processes with
  | nil => exact ⟨rfl, fun _ hresult => absurd hresult (by simp)⟩
  | cons first others =>
    rw [hprocesses, List.take_succ_cons] at h
    exact ⟨h first List.mem_cons_self, fun result hlater =>
      h result (List.mem_cons_of_mem _ hlater)⟩

/-- **The commands of a booster** start one process each, in their order, when the processes
succeed. -/
theorem runCommands_run (hrunner : context.runner = .binary binary) (hbinary : binary ≠ "")
    (hspace : IsNamespace context.space) {commands : List String} {split : List (List String)}
    (hsplit : List.Forall₂ (fun command words => Text.shellWords command = .ok words)
      commands split)
    (world : World) (hdone : ∀ result ∈ world.processes.take commands.length, result.status = 0) :
    runCommands context commands world
      = .ok () (world.processedAll
          (split.map fun words => binary :: (words ++ ["-n", context.space]))) := by
  induction hsplit generalizing world with
  | nil =>
    unfold World.processedAll
    rw [List.map_nil, List.map_nil, List.append_nil]
    rfl
  | @cons command words rest more hwords _ ih =>
    obtain ⟨hfirst, hothers⟩ := World.succeeds_succ hdone
    have hlines : world.nextResult.lines = .ok (Text.splitLines world.nextResult.output) :=
      if_pos hfirst
    have hstep := runCommand_run hrunner hbinary (shellWords_inNamespace hwords hspace) world
    rw [hlines] at hstep
    rw [runCommands, Run.bind_of_ok hstep, ih _ hothers, List.map_cons, World.processedAll_cons]

end Running

end Rollout
