import BlockFlow.Cli.Run
import BlockFlow.Disk
import BlockFlow.Proofs.Cli.Count
import BlockFlow.Proofs.Error
import Mathlib.Data.List.Induction

/-!
# Which arguments the soak program accepts

Arguments are accepted if they are pairs of a flag and its value, where each number of blocks is a
count (`ValidSettings`). Reading goes pair by pair, and ends where the arguments end, where help is
asked for, or where an argument offends (`ArgumentsEnd`). How it ends is fixed by the pairs and by
what stands behind them (`parse_eq_iff`). So the program accepts the arguments, answers with its
usage, or refuses them for the leftmost offence and touches no file (`accepts_grammar`).
-/

set_option autoImplicit false

namespace BlockFlow.Cli

/-! ## Pairs of a flag and a value -/

/-- Pairs of a flag and a value as they are written. -/
def written (settings : List (Flag × String)) : List String :=
  settings.flatMap fun s => [s.1.name, s.2]

@[simp] theorem written_cons (flag : Flag) (value : String) (settings : List (Flag × String)) :
    written ((flag, value) :: settings) = flag.name :: value :: written settings := rfl

/-- Each number of blocks among the values is a count. -/
def ValidSettings (settings : List (Flag × String)) : Prop :=
  ∀ value, (Flag.blocks, value) ∈ settings → ∃ n, IsCount value n

/-- The last value given to a flag. -/
def lastValue? (settings : List (Flag × String)) (flag : Flag) : Option String :=
  (settings.filter fun s => s.1 = flag).getLast?.map Prod.snd

theorem lastValue?_append_singleton (settings : List (Flag × String)) (s : Flag × String)
    (flag : Flag) :
    lastValue? (settings ++ [s]) flag =
      if s.1 = flag then some s.2 else lastValue? settings flag := by
  by_cases h : s.1 = flag <;> simp [lastValue?, List.filter_append, h]

/-- The options are the last values given, and nothing where no value is given. -/
structure Options.GivenBy (o : Options) (settings : List (Flag × String)) : Prop where
  config : o.config = lastValue? settings .config
  output : o.output = lastValue? settings .output
  saveConfig : o.saveConfig = lastValue? settings .saveConfig
  blocks : Option.Rel IsCount (lastValue? settings .blocks) o.blocks

/-! ## Setting options pair by pair -/

namespace Options

/-- Sets what pairs set, one after the other. -/
def setAll (o : Options) (settings : List (Flag × String)) : Except OptionError Options :=
  settings.foldlM (fun o s => o.set s.1 s.2) o

theorem setAll_cons (o : Options) (s : Flag × String) (settings : List (Flag × String)) :
    o.setAll (s :: settings) = o.set s.1 s.2 >>= fun o' => o'.setAll settings := rfl

theorem setAll_append_singleton (o : Options) (settings : List (Flag × String))
    (s : Flag × String) :
    o.setAll (settings ++ [s]) = o.setAll settings >>= fun o' => o'.set s.1 s.2 := by
  simp [setAll]

theorem set_blocks_eq_ok {o o' : Options} {value : String} :
    o.set .blocks value = .ok o' ↔ ∃ n, IsCount value n ∧ o' = { o with blocks := some n } := by
  simp only [set, ← readCount_eq_ok_iff]
  cases readCount value with
  | ok n => simp [eq_comm]
  | error reason => simp

theorem set_eq_error {o : Options} {flag : Flag} {value : String} {e : OptionError} :
    o.set flag value = .error e ↔
      ∃ reason, NoCount value reason ∧ flag = .blocks ∧ e = .invalidBlocks value reason := by
  cases flag with
  | blocks =>
    simp only [set, ← readCount_eq_error_iff]
    cases readCount value with
    | ok n => simp
    | error reason => simp [eq_comm]
  | config => simp [set]
  | output => simp [set]
  | saveConfig => simp [set]

/-- Whatever can be set is valid. -/
theorem isCount_of_set {o o' : Options} {value : String} (h : o.set .blocks value = .ok o') :
    ∃ n, IsCount value n := by
  obtain ⟨n, hcount, -⟩ := set_blocks_eq_ok.1 h
  exact ⟨n, hcount⟩

/-- One more pair replaces what was given to its flag before. -/
theorem GivenBy.set {o o' : Options} {settings : List (Flag × String)} (h : o.GivenBy settings)
    {s : Flag × String} (hset : o.set s.1 s.2 = .ok o') : o'.GivenBy (settings ++ [s]) := by
  obtain ⟨flag, value⟩ := s
  cases flag with
  | blocks =>
    obtain ⟨n, hcount, rfl⟩ := set_blocks_eq_ok.1 hset
    constructor <;> simp [lastValue?_append_singleton, h.config, h.output, h.saveConfig]
    exact hcount
  | config =>
    cases hset
    constructor <;> simp [lastValue?_append_singleton, h.output, h.saveConfig, h.blocks]
  | output =>
    cases hset
    constructor <;> simp [lastValue?_append_singleton, h.config, h.saveConfig, h.blocks]
  | saveConfig =>
    cases hset
    constructor <;> simp [lastValue?_append_singleton, h.config, h.output, h.blocks]

/-- By induction over the pairs from the last: what they set is what the last of them give. -/
theorem givenBy_of_setAll {o : Options} {settings : List (Flag × String)}
    (h : setAll {} settings = .ok o) : o.GivenBy settings := by
  induction settings using List.reverseRecOn generalizing o with
  | nil =>
    cases h
    exact ⟨rfl, rfl, rfl, .none⟩
  | append_singleton settings s ih =>
    rw [setAll_append_singleton, bind_eq_ok] at h
    obtain ⟨before, hbefore, hset⟩ := h
    exact (ih hbefore).set hset

/-- Valid pairs, and no others, can be set. -/
theorem exists_setAll_iff {o : Options} {settings : List (Flag × String)} :
    (∃ o', o.setAll settings = .ok o') ↔ ValidSettings settings := by
  induction settings generalizing o with
  | nil => exact ⟨fun _ => nofun, fun _ => ⟨o, rfl⟩⟩
  | cons s settings ih =>
    simp only [setAll_cons, bind_eq_ok]
    constructor
    · rintro ⟨o', o₁, hset, hrest⟩ value hmem
      rcases List.mem_cons.1 hmem with rfl | hmem
      · exact isCount_of_set hset
      · exact ih.1 ⟨o', hrest⟩ value hmem
    · intro hvalid
      cases hset : o.set s.1 s.2 with
      | ok o₁ =>
        obtain ⟨o', hrest⟩ := ih.2 fun value hmem => hvalid value (List.mem_cons_of_mem s hmem)
        exact ⟨o', o₁, rfl, hrest⟩
      | error e =>
        obtain ⟨reason, hnot, hflag, -⟩ := set_eq_error.1 hset
        obtain ⟨n, hcount⟩ := hvalid s.2 (by rw [← hflag]; exact List.mem_cons_self)
        have hread := readCount_eq_error_iff.2 hnot
        rw [readCount_eq_ok_iff.2 hcount] at hread
        cases hread

end Options

/-! ## Where reading ends -/

namespace Flag

theorem ofName?_name (flag : Flag) : ofName? flag.name = some flag := by
  cases flag <;> rfl

theorem ofName?_eq_none_iff {argument : String} :
    ofName? argument = none ↔ ∀ flag : Flag, argument ≠ flag.name := by
  rw [ofName?, List.find?_eq_none]
  constructor
  · intro h flag heq
    exact h flag (by cases flag <;> simp [all]) (decide_eq_true heq.symm)
  · intro h flag _ heq
    exact h flag (of_decide_eq_true heq).symm

end Flag

/-- The argument asks for help. -/
def AsksHelp (argument : String) : Prop := argument = "--help" ∨ argument = "-h"

theorem isHelp_iff {argument : String} : Options.isHelp argument = true ↔ AsksHelp argument := by
  simp [Options.isHelp, AsksHelp]

theorem isHelp_name (flag : Flag) : Options.isHelp flag.name = false := by
  cases flag <;> rfl

/-- The arguments cannot be accepted for what stands at their front. -/
inductive Offends : List String → OptionError → Prop where
  | unknownArgument {argument : String} {rest : List String}
      (unknown : ∀ flag : Flag, argument ≠ flag.name) (noHelp : ¬ AsksHelp argument) :
      Offends (argument :: rest) (.unknownArgument argument)
  | missingValue (flag : Flag) : Offends [flag.name] (.missingValue flag)
  | invalidBlocks {value : String} {rest : List String} {reason : CountError}
      (noCount : NoCount value reason) :
      Offends (Flag.blocks.name :: value :: rest) (.invalidBlocks value reason)

/-- How reading ends with what stands behind pairs that set `o`. -/
inductive ArgumentsEnd (o : Options) : List String → Except OptionError Request → Prop where
  | complete : ArgumentsEnd o [] (.ok (.run o))
  | help {argument : String} {rest : List String} (asks : AsksHelp argument) :
      ArgumentsEnd o (argument :: rest) (.ok .help)
  | refused {rest : List String} {e : OptionError} (offends : Offends rest e) :
      ArgumentsEnd o rest (.error e)

namespace Options

theorem parseFrom_help (o : Options) {argument : String} (h : AsksHelp argument)
    (rest : List String) : parseFrom o (argument :: rest) = .ok .help := by
  cases rest with
  | nil => rw [parseFrom, if_pos (isHelp_iff.2 h)]
  | cons value rest => rw [parseFrom, if_pos (isHelp_iff.2 h)]

theorem parseFrom_unknown (o : Options) {argument : String}
    (hunknown : ∀ flag : Flag, argument ≠ flag.name) (hhelp : ¬ AsksHelp argument)
    (rest : List String) :
    parseFrom o (argument :: rest) = .error (.unknownArgument argument) := by
  have hname := Flag.ofName?_eq_none_iff.2 hunknown
  have hnot : ¬ isHelp argument = true := fun h => hhelp (isHelp_iff.1 h)
  cases rest with
  | nil => rw [parseFrom, if_neg hnot, hname]
  | cons value rest => rw [parseFrom, if_neg hnot, hname]

theorem parseFrom_missing (o : Options) (flag : Flag) :
    parseFrom o [flag.name] = .error (.missingValue flag) := by
  simp [parseFrom, isHelp_name, Flag.ofName?_name]

/-- A flag and its value are read in one go, whatever the value looks like. -/
theorem parseFrom_pair (o : Options) (flag : Flag) (value : String) (rest : List String) :
    parseFrom o (flag.name :: value :: rest) = o.set flag value >>= (parseFrom · rest) := by
  simp only [parseFrom, isHelp_name, Flag.ofName?_name]
  cases o.set flag value <;> rfl

/-- By induction over the pairs: they are set one after the other, then the rest is read. -/
theorem parseFrom_written_append (o : Options) (settings : List (Flag × String))
    (rest : List String) :
    parseFrom o (written settings ++ rest) = o.setAll settings >>= (parseFrom · rest) := by
  induction settings generalizing o with
  | nil => rfl
  | cons s settings ih =>
    rw [written_cons, List.cons_append, List.cons_append, parseFrom_pair, setAll_cons]
    cases o.set s.1 s.2 with
    | ok o' => exact ih o'
    | error e => rfl

/-- An argument that is no flag ends the arguments. -/
theorem argumentsEnd_of_forall_ne (o : Options) {argument : String}
    (h : ∀ flag : Flag, argument ≠ flag.name) (rest : List String) :
    ArgumentsEnd o (argument :: rest) (parseFrom o (argument :: rest)) := by
  by_cases hhelp : AsksHelp argument
  · rw [parseFrom_help o hhelp]
    exact .help hhelp
  · rw [parseFrom_unknown o h hhelp]
    exact .refused (.unknownArgument h hhelp)

/-- By induction over the arguments, a pair at a time: whole pairs come first, and then reading
ends. -/
theorem exists_argumentsEnd : ∀ (arguments : List String) (o : Options),
    ∃ settings rest o', arguments = written settings ++ rest ∧ o.setAll settings = .ok o' ∧
      ArgumentsEnd o' rest (parseFrom o arguments)
  | [], o => ⟨[], [], o, rfl, rfl, .complete⟩
  | [argument], o => by
    refine ⟨[], [argument], o, rfl, rfl, ?_⟩
    by_cases hflag : ∀ flag : Flag, argument ≠ flag.name
    · exact argumentsEnd_of_forall_ne o hflag []
    · obtain ⟨flag, rfl⟩ := not_forall_not.1 hflag
      rw [parseFrom_missing]
      exact .refused (.missingValue flag)
  | argument :: value :: rest, o => by
    by_cases hflag : ∀ flag : Flag, argument ≠ flag.name
    · exact ⟨[], argument :: value :: rest, o, rfl, rfl, argumentsEnd_of_forall_ne o hflag _⟩
    · obtain ⟨flag, rfl⟩ := not_forall_not.1 hflag
      rw [parseFrom_pair]
      cases hset : o.set flag value with
      | ok o' =>
        obtain ⟨settings, more, last, rfl, hall, hend⟩ := exists_argumentsEnd rest o'
        refine ⟨(flag, value) :: settings, more, last, rfl, ?_, hend⟩
        rw [setAll_cons, hset]
        exact hall
      | error e =>
        obtain ⟨reason, hnot, rfl, rfl⟩ := set_eq_error.1 hset
        exact ⟨[], _, o, rfl, rfl, .refused (.invalidBlocks hnot)⟩

end Options

theorem ArgumentsEnd.parseFrom_eq {o : Options} {rest : List String}
    {result : Except OptionError Request} (h : ArgumentsEnd o rest result) :
    Options.parseFrom o rest = result := by
  cases h with
  | complete => rfl
  | help asks => exact Options.parseFrom_help o asks _
  | refused offends =>
    cases offends with
    | unknownArgument unknown noHelp => exact Options.parseFrom_unknown o unknown noHelp _
    | missingValue flag => exact Options.parseFrom_missing o flag
    | invalidBlocks noCount =>
      have hset := Options.set_eq_error (o := o).2 ⟨_, noCount, rfl, rfl⟩
      rw [Options.parseFrom_pair, hset]
      rfl

/-- What the arguments come to is fixed by the pairs at their front and what ends them. -/
theorem parse_eq_iff {arguments : List String} {result : Except OptionError Request} :
    Options.parse arguments = result ↔
      ∃ settings rest o, arguments = written settings ++ rest ∧
        Options.setAll {} settings = .ok o ∧ ArgumentsEnd o rest result := by
  constructor
  · rintro rfl
    exact Options.exists_argumentsEnd arguments {}
  · rintro ⟨settings, rest, o, rfl, hset, hend⟩
    rw [Options.parse, Options.parseFrom_written_append, hset]
    exact hend.parseFrom_eq

theorem exists_parse_eq_run_iff {arguments : List String} :
    (∃ o, Options.parse arguments = .ok (.run o)) ↔
      ∃ settings, ValidSettings settings ∧ arguments = written settings := by
  constructor
  · rintro ⟨o, haccepted⟩
    obtain ⟨settings, rest, o', harguments, hset, hend⟩ := parse_eq_iff.1 haccepted
    cases hend
    exact ⟨settings, Options.exists_setAll_iff.1 ⟨_, hset⟩, by rw [harguments, List.append_nil]⟩
  · rintro ⟨settings, hvalid, rfl⟩
    obtain ⟨o, hset⟩ := Options.exists_setAll_iff.2 hvalid
    exact ⟨o, parse_eq_iff.2 ⟨settings, [], o, (List.append_nil _).symm, hset, .complete⟩⟩

/-- Whatever the pairs are that make up the arguments, the options are the last values they give. -/
theorem givenBy_of_parse {o : Options} {settings : List (Flag × String)}
    (h : Options.parse (written settings) = .ok (.run o)) : o.GivenBy settings := by
  rw [Options.parse, ← List.append_nil (written settings), Options.parseFrom_written_append,
    bind_eq_ok] at h
  obtain ⟨o', hset, hrun⟩ := h
  cases hrun
  exact Options.givenBy_of_setAll hset

theorem parse_eq_help_iff {arguments : List String} :
    Options.parse arguments = .ok .help ↔
      ∃ settings argument rest, ValidSettings settings ∧ AsksHelp argument ∧
        arguments = written settings ++ argument :: rest := by
  constructor
  · intro hhelp
    obtain ⟨settings, rest, o, harguments, hset, hend⟩ := parse_eq_iff.1 hhelp
    cases hend with
    | help asks => exact ⟨settings, _, _, Options.exists_setAll_iff.1 ⟨_, hset⟩, asks, harguments⟩
  · rintro ⟨settings, argument, rest, hvalid, hasks, harguments⟩
    obtain ⟨o, hset⟩ := Options.exists_setAll_iff.2 hvalid
    exact parse_eq_iff.2 ⟨settings, _, o, harguments, hset, .help hasks⟩

theorem parse_eq_error_iff {arguments : List String} {e : OptionError} :
    Options.parse arguments = .error e ↔
      ∃ settings rest, ValidSettings settings ∧ Offends rest e ∧
        arguments = written settings ++ rest := by
  constructor
  · intro hrefused
    obtain ⟨settings, rest, o, harguments, hset, hend⟩ := parse_eq_iff.1 hrefused
    cases hend with
    | refused offends =>
      exact ⟨settings, rest, Options.exists_setAll_iff.1 ⟨_, hset⟩, offends, harguments⟩
  · rintro ⟨settings, rest, hvalid, hoffends, harguments⟩
    obtain ⟨o, hset⟩ := Options.exists_setAll_iff.2 hvalid
    exact parse_eq_iff.2 ⟨settings, rest, o, harguments, hset, .refused hoffends⟩

/-! ## What the program does -/

/-- What is told about an offence. -/
def OptionError.text : OptionError → String
  | unknownArgument argument => "unknown argument: " ++ argument
  | missingValue flag => "missing value for " ++ flag.name
  | invalidBlocks value reason =>
    "invalid value for --blocks: " ++ value ++ ": " ++ reason.message

theorem OptionError.joined_chain (e : OptionError) : e.chain.joined = e.text := by
  cases e with
  | unknownArgument argument => exact CauseChain.joined_top ("unknown argument: " ++ argument)
  | missingValue flag => exact CauseChain.joined_top ("missing value for " ++ flag.name)
  | invalidBlocks value reason =>
    exact CauseChain.joined_top_cause ("invalid value for --blocks: " ++ value) reason.message

section

variable {m : Type → Type} [Monad m] [LawfulMonad m] [Host m] [Memory]

/-- A request for help is answered with the usage. -/
theorem run_of_help {arguments : List String} (h : Options.parse arguments = .ok .help) :
    (run arguments : m Ending) = do
      Host.printLine usage
      return { code := 0, complaint := none } := by
  simp [run, execute, h]

/-- Arguments that are refused make the program complain and do nothing else. -/
theorem run_of_refused {arguments : List String} {e : OptionError}
    (h : Options.parse arguments = .error e) :
    (run arguments : m Ending) =
      pure { code := 1, complaint := some ("soak failed: " ++ e.text) } := by
  simp [run, execute, h, e.joined_chain]

end

/-- For every list of arguments: they are accepted if and only if they are pairs of a flag and a
value with a count for each number of blocks, and then each option is the last value given to its
flag. A request for help in place of a flag is answered with the usage, whatever follows it. All
other arguments are refused for the leftmost that cannot stand where it stands, and no file is
read or written before that. -/
theorem accepts_grammar (arguments : List String) :
    ((∃ o, Options.parse arguments = .ok (.run o)) ↔
        ∃ settings, ValidSettings settings ∧ arguments = written settings) ∧
      (∀ o settings, Options.parse arguments = .ok (.run o) → arguments = written settings →
        o.GivenBy settings) ∧
      (Options.parse arguments = .ok .help ↔
        ∃ settings argument rest, ValidSettings settings ∧ AsksHelp argument ∧
          arguments = written settings ++ argument :: rest) ∧
      (∀ e, Options.parse arguments = .error e ↔
        ∃ settings rest, ValidSettings settings ∧ Offends rest e ∧
          arguments = written settings ++ rest) ∧
      ∀ {m : Type → Type} [Monad m] [LawfulMonad m] [Host m] [Memory],
        (Options.parse arguments = .ok .help → (run arguments : m Ending) = do
          Host.printLine usage
          return { code := 0, complaint := none }) ∧
        ∀ e, Options.parse arguments = .error e →
          (run arguments : m Ending) =
            pure { code := 1, complaint := some ("soak failed: " ++ e.text) } := by
  refine ⟨exists_parse_eq_run_iff, ?_, parse_eq_help_iff, fun e => parse_eq_error_iff, ?_⟩
  · rintro o settings haccepted rfl
    exact givenBy_of_parse haccepted
  · intro m _ _ _ _
    exact ⟨run_of_help, fun e hrefused => run_of_refused hrefused⟩

/-- A value may look like a request for help, the last of two numbers of blocks counts, a request
for help hides what follows it, and a number that fits no word is told before a request for help
behind it. -/
theorem accepts_grammar_lookalikes :
    let settings : List (Flag × String) := [(.config, "--help"), (.blocks, "5"), (.blocks, "+007")]
    let asking := ["--output", "-h", "--help", "--blocks", "many"]
    let wrong := ["--blocks", "1", "--blocks", "18446744073709551616", "--help"]
    (∃ o, Options.parse (written settings) = .ok (.run o)) ∧
      ({ config := some "--help", blocks := some 7 } : Options).GivenBy settings ∧
      (run asking : StateM Session Ending) = (do
        Host.printLine usage
        return { code := 0, complaint := none }) ∧
      (run wrong : StateM Session Ending) = pure
        { code := 1
          complaint := some ("soak failed: invalid value for --blocks: 18446744073709551616: " ++
            "number too large to fit in target type") } := by
  intro settings asking wrong
  have hvalid : ValidSettings settings := by
    intro value hmem
    have hcases : value = "5" ∨ value = "+007" := by simpa [settings] using hmem
    rcases hcases with rfl | rfl
    · exact ⟨5, readCount_eq_ok_iff.1 rfl⟩
    · exact ⟨7, readCount_eq_ok_iff.1 rfl⟩
  obtain ⟨haccepted, hgiven, -, -, -⟩ := accepts_grammar (written settings)
  obtain ⟨-, -, hasking, -, hanswer⟩ := accepts_grammar asking
  obtain ⟨-, -, -, hwrong, hcomplaint⟩ := accepts_grammar wrong
  have hhelp : Options.parse asking = .ok .help :=
    hasking.2 ⟨[(.output, "-h")], "--help", _, nofun, .inl rfl, rfl⟩
  have hlarge : NoCount "18446744073709551616" .tooLarge := readCount_eq_error_iff.1 rfl
  have hrefused :
      Options.parse wrong = .error (.invalidBlocks "18446744073709551616" .tooLarge) := by
    refine (hwrong _).2 ⟨[(.blocks, "1")], _, ?_, .invalidBlocks hlarge, rfl⟩
    intro value hmem
    cases List.mem_singleton.1 hmem
    exact ⟨1, readCount_eq_ok_iff.1 rfl⟩
  exact ⟨haccepted.2 ⟨settings, hvalid, rfl⟩, hgiven _ _ rfl rfl, hanswer.1 hhelp,
    hcomplaint.2 _ hrefused⟩

end BlockFlow.Cli
