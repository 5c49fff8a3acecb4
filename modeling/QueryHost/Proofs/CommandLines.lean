import Mathlib.Tactic.SplitIfs
import QueryHost.Host.Launch

/-!
# What arguments ask for

Words are choices, each an option with its value, and then come to a stop: at the end, where help is
asked for, at an option without a value or at an unknown word (`Command.exists_stop`). How they are
answered depends on the last choice and on the stop alone, and on the mode only if everything was
read (`Command.options_spell`, `Command.options_stop`). So the arguments that run the host are
known, and with all others it ends where it has begun (`Launch.start_asked`).
-/

namespace QueryHost

namespace Command

/-! ## Choices and stops -/

/-- The option that names a configuration file, in its two spellings. -/
def IsOption (word : String) : Prop := word = "--config" ∨ word = "-c"

def IsHelp (word : String) : Prop := word = "--help" ∨ word = "-h"

/-- The option with a value. The value may be any word, one that looks like an option too. -/
structure Choice where
  option : String
  value : String
  isOption : IsOption option

/-- The words that make up choices. -/
def spell (choices : List Choice) : List String := choices.flatMap fun c => [c.option, c.value]

/-- The value of the last choice. -/
def chosen (choices : List Choice) : Option String := choices.getLast?.map (·.value)

inductive Stop where
  | complete
  | help
  | valueless
  | unknown (word : String)
  deriving DecidableEq, Repr

/-- The words do not begin with a choice, for this reason. -/
inductive StopsAt : List String → Stop → Prop
  | complete : StopsAt [] .complete
  | help {word : String} {rest : List String} : IsHelp word → StopsAt (word :: rest) .help
  | valueless {word : String} : IsOption word → StopsAt [word] .valueless
  | unknown {word : String} {rest : List String} : ¬IsOption word → ¬IsHelp word →
    StopsAt (word :: rest) (.unknown word)

/-- What is done at a stop; `config` is what was set until then. -/
def answer (mode : String) (config : Option String) : Stop → Command
  | .complete => if mode = "run" then .run config else .say 1 usage
  | .help => .say 0 Command.help
  | .valueless => .say 1 "missing value for --config/-c\n"
  | .unknown word => .say 1 ("unknown arg: " ++ word ++ " (try --help)\n")

variable {mode word : String} {config : Option String} {words rest args : List String} {stop : Stop}
  {choices : List Choice}

theorem IsHelp.not_isOption (h : IsHelp word) : ¬IsOption word := by
  rcases h with rfl | rfl <;> simp [IsOption]

theorem chosen_cons (c : Choice) (choices : List Choice) :
    chosen (c :: choices) = (chosen choices).or (some c.value) := by
  rw [chosen, chosen, List.getLast?_cons]
  cases choices.getLast? <;> rfl

theorem exists_stop : ∀ words : List String,
    ∃ choices rest stop, words = spell choices ++ rest ∧ StopsAt rest stop
  | [] => ⟨[], [], _, rfl, .complete⟩
  | word :: rest => by
    by_cases hoption : IsOption word
    · match rest with
      | [] => exact ⟨[], [word], _, rfl, .valueless hoption⟩
      | value :: rest =>
        obtain ⟨choices, tail, stop, rfl, hstop⟩ := exists_stop rest
        exact ⟨⟨word, value, hoption⟩ :: choices, tail, stop, rfl, hstop⟩
    by_cases hhelp : IsHelp word
    · exact ⟨[], word :: rest, _, rfl, .help hhelp⟩
    · exact ⟨[], word :: rest, _, rfl, .unknown hoption hhelp⟩

/-! ## Reading -/

/-- A choice takes the place of those before it. -/
theorem options_spell (mode : String) (rest : List String) :
    ∀ (choices : List Choice) (config : Option String),
      options mode config (spell choices ++ rest)
        = options mode ((chosen choices).or config) rest
  | [], _ => rfl
  | c :: choices, config => by
    have hfirst : options mode config (spell (c :: choices) ++ rest)
        = options mode (some c.value) (spell choices ++ rest) := if_pos c.isOption
    rw [hfirst, options_spell mode rest choices, chosen_cons, Option.or_assoc]
    rfl

theorem options_stop (mode : String) (config : Option String) (h : StopsAt rest stop) :
    options mode config rest = answer mode config stop := by
  cases h with
  | complete => rfl
  | help hhelp =>
    rw [options.eq_def]
    exact (if_neg hhelp.not_isOption).trans (if_pos hhelp)
  | valueless hoption => exact if_pos hoption
  | unknown hoption hhelp =>
    rw [options.eq_def]
    exact (if_neg hoption).trans (if_neg hhelp)

theorem options_eq_answer (mode : String) (choices : List Choice) (h : StopsAt rest stop) :
    options mode none (spell choices ++ rest) = answer mode (chosen choices) stop := by
  rw [options_spell, Option.or_none, options_stop mode _ h]

theorem options_complete (mode : String) (choices : List Choice) :
    options mode none (spell choices) = answer mode (chosen choices) .complete := by
  simpa using options_eq_answer mode choices .complete

theorem answer_eq_run_iff {given : Option String} :
    answer mode config stop = .run given ↔ mode = "run" ∧ stop = .complete ∧ config = given := by
  cases stop <;> simp [answer]
  split_ifs with hmode <;> simp [hmode]

/-- The code is zero only where help was asked for. -/
theorem answer_code {code : Nat} {text : String} (h : answer mode config stop = .say code text) :
    code = if stop = .help then 0 else 1 := by
  cases stop with
  | complete =>
    simp only [answer] at h
    split_ifs at h with hmode
    exact (Command.say.inj h).1.symm
  | help => exact (Command.say.inj h).1.symm
  | valueless => exact (Command.say.inj h).1.symm
  | unknown word => exact (Command.say.inj h).1.symm

/-- The usage is said of a mode that is not known, after everything else was read. -/
theorem answer_eq_usage_iff :
    answer mode config stop = .say 1 usage ↔ mode ≠ "run" ∧ stop = .complete := by
  cases stop with
  | complete => simp [answer]
  | help => simp [answer]
  | valueless => simp [answer, usage]
  | unknown word =>
    have hfirst : "unknown arg: " ++ word ++ " (try --help)\n" ≠ usage := fun h => by
      have hhead := congrArg (fun text : String => text.toList.head?) h
      simp [usage, String.toList_append] at hhead
    simp [answer, hfirst]

/-! ## The mode -/

/-- A first word without a dash is the mode, whatever it is. -/
def IsMode (word : String) : Prop := word.toList.head? ≠ some '-'

/-- The mode of arguments and the words after it. -/
inductive Parts : List String → String → List String → Prop
  | given {mode : String} {words : List String} : IsMode mode → Parts (mode :: words) mode words
  | usual {words : List String} : (∀ word ∈ words.head?, ¬IsMode word) → Parts words "run" words

theorem exists_parts : ∀ args : List String, ∃ mode words, Parts args mode words
  | [] => ⟨_, _, .usual (by simp)⟩
  | word :: words => by
    by_cases h : IsMode word
    · exact ⟨_, _, .given h⟩
    · exact ⟨_, _, .usual (by simpa using h)⟩

theorem ofArguments_eq (h : Parts args mode words) :
    ofArguments args = options mode none words := by
  cases h with
  | given hmode => exact if_neg hmode
  | usual hwords =>
    cases words with
    | nil => rfl
    | cons word rest => exact if_pos (Decidable.not_not.1 (hwords word rfl))

theorem IsOption.not_isMode (h : IsOption word) : ¬IsMode word := by
  rcases h with rfl | rfl <;> simp [IsMode]

theorem parts_spell (choices : List Choice) : Parts (spell choices) "run" (spell choices) := by
  refine .usual fun word hword => ?_
  cases choices with
  | nil => cases hword
  | cons c choices =>
    obtain rfl : c.option = word := Option.some.inj hword
    exact c.isOption.not_isMode

/-- All that becomes of arguments. -/
theorem ofArguments_cases (args : List String) : ∃ mode choices rest stop,
    Parts args mode (spell choices ++ rest) ∧ StopsAt rest stop
      ∧ ofArguments args = answer mode (chosen choices) stop := by
  obtain ⟨mode, words, hparts⟩ := exists_parts args
  obtain ⟨choices, rest, stop, rfl, hstop⟩ := exists_stop words
  exact ⟨mode, choices, rest, stop, hparts, hstop,
    (ofArguments_eq hparts).trans (options_eq_answer mode choices hstop)⟩

/-! ## What is asked for -/

/-- The arguments are nothing but choices, after the mode `run` or without a mode. -/
def Requests (args : List String) (config : Option String) : Prop :=
  ∃ choices : List Choice, (args = spell choices ∨ args = "run" :: spell choices)
    ∧ config = chosen choices

/-- After the mode and choices, help is asked for. -/
def AsksHelp (args : List String) : Prop :=
  ∃ mode choices word rest, Parts args mode (spell choices ++ word :: rest) ∧ IsHelp word

theorem requests_of_parts (h : Parts args "run" (spell choices)) :
    Requests args (chosen choices) := by
  refine ⟨choices, ?_, rfl⟩
  generalize hmode : "run" = mode, hwords : spell choices = words at h
  cases h with
  | given => exact .inr rfl
  | usual => exact .inl rfl

theorem Requests.parts (h : Requests args config) :
    ∃ choices, Parts args "run" (spell choices) ∧ config = chosen choices := by
  obtain ⟨choices, rfl | rfl, hconfig⟩ := h
  · exact ⟨choices, parts_spell choices, hconfig⟩
  · exact ⟨choices, .given (by simp [IsMode]), hconfig⟩

theorem ofArguments_eq_run_iff : ofArguments args = .run config ↔ Requests args config := by
  constructor
  · intro h
    obtain ⟨mode, choices, rest, stop, hparts, hstop, heq⟩ := ofArguments_cases args
    obtain ⟨rfl, rfl, rfl⟩ := answer_eq_run_iff.1 (heq.symm.trans h)
    cases hstop
    exact requests_of_parts (by simpa using hparts)
  · intro h
    obtain ⟨choices, hparts, rfl⟩ := h.parts
    rw [ofArguments_eq hparts, options_complete]
    rfl

theorem ofArguments_eq_help_iff : (∃ text, ofArguments args = .say 0 text) ↔ AsksHelp args := by
  constructor
  · rintro ⟨text, h⟩
    obtain ⟨mode, choices, rest, stop, hparts, hstop, heq⟩ := ofArguments_cases args
    have hcode := answer_code (heq.symm.trans h)
    obtain rfl : stop = .help := Decidable.byContradiction fun hother => by simp [hother] at hcode
    cases hstop with
    | help hword => exact ⟨mode, choices, _, _, hparts, hword⟩
  · rintro ⟨mode, choices, word, rest, hparts, hword⟩
    exact ⟨_, (ofArguments_eq hparts).trans (options_eq_answer mode choices (.help hword))⟩

/-- Words are choices only if reading them comes to their end: a mode that is not known tells the
ends apart. -/
theorem complete_iff (h : StopsAt rest stop) :
    stop = .complete ↔ ∃ all : List Choice, spell choices ++ rest = spell all := by
  constructor
  · rintro rfl
    cases h
    exact ⟨choices, List.append_nil _⟩
  · rintro ⟨all, hall⟩
    have husage : answer "" (chosen choices) stop = .say 1 usage := by
      rw [← options_eq_answer "" choices h, hall, options_complete]
      rfl
    exact (answer_eq_usage_iff.1 husage).2

/-- The mode is looked at when everything else was read. -/
theorem ofArguments_given (hmode : IsMode mode) (words : List String) :
    (ofArguments (mode :: words) = .say 1 usage
        ↔ mode ≠ "run" ∧ ∃ choices : List Choice, words = spell choices)
      ∧ ((¬∃ choices : List Choice, words = spell choices) →
        ofArguments (mode :: words) = ofArguments ("run" :: words)) := by
  obtain ⟨choices, rest, stop, rfl, hstop⟩ := exists_stop words
  have hrun : IsMode "run" := by simp [IsMode]
  rw [ofArguments_eq (.given hmode), ofArguments_eq (.given hrun),
    options_eq_answer mode choices hstop,
    options_eq_answer "run" choices hstop, answer_eq_usage_iff, ← complete_iff hstop]
  refine ⟨Iff.rfl, fun hstopped => ?_⟩
  cases stop with
  | complete => exact absurd rfl hstopped
  | help => rfl
  | valueless => rfl
  | unknown word => rfl

end Command

namespace Launch

open Command

/-- Arguments that ask for a run have one, with the configuration that they choose. All others leave
everything as it is, and end the process: well if help is asked for before anything is wrong, and
with a failure otherwise. -/
theorem start_asked (m : Machine) (vars : Variables) (args : List String) (d : Disk) :
    (∀ config, ofArguments args = .run config ↔ Requests args config)
      ∧ (∀ config, Requests args config → start m vars args d = run m vars config { disk := d })
      ∧ ((∀ config, ¬Requests args config) → config? vars args d = none
        ∧ ∃ code said, start m vars args d
            = { scene := { disk := d }, said, progress := .ended code }
          ∧ (code = 0 ∨ code = 1) ∧ (code = 0 ↔ AsksHelp args))
      ∧ ∀ mode words, IsMode mode → args = mode :: words →
        (ofArguments args = .say 1 usage
            ↔ mode ≠ "run" ∧ ∃ choices : List Choice, words = spell choices)
          ∧ ((¬∃ choices : List Choice, words = spell choices) →
            ofArguments args = ofArguments ("run" :: words)) := by
  refine ⟨fun config => ofArguments_eq_run_iff, fun config hconfig => ?_, fun hnone => ?_, ?_⟩
  · simp only [start, ofArguments_eq_run_iff.2 hconfig]
  · cases h : ofArguments args with
    | run config => exact absurd (ofArguments_eq_run_iff.1 h) (hnone config)
    | say code said =>
      refine ⟨by simp only [config?, h], code, said, by simp only [start, h], ?_, ?_⟩
      · obtain ⟨mode, choices, rest, stop, -, -, heq⟩ := ofArguments_cases args
        have hcode := answer_code (heq.symm.trans h)
        split_ifs at hcode
        · exact .inl hcode
        · exact .inr hcode
      · rw [← ofArguments_eq_help_iff, h]
        simp
  · rintro mode words hmode rfl
    exact ofArguments_given hmode words

/-- A value may look like any other word. -/
example : ofArguments ["-c", "--help", "--config", "-c"] = .run (some "-c") := by decide

end Launch

end QueryHost
