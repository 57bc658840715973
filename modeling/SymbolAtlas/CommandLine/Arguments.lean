/-!
# Arguments

How the arguments of a command are read.  An option has a long name and perhaps a short one; its
value is attached or follows as an argument of its own.  Short options can share an argument.  What
is no option is an input, and everything is an input after `--`.  An option that is not given can
take its value from a variable of the environment.

Main facts: an empty environment adds nothing (`ArgumentForm.readVariables_of_none`), and after `--`
every argument is an input (`ArgumentForm.readInputs_inputs`).
-/

set_option autoImplicit false

namespace SymbolAtlas

/-- An option of a command. -/
structure OptionForm where
  name : String
  short : Option Char := none
  /-- A flag takes no value; when it is given, its value is `true`. -/
  isFlag : Bool := false
  repeatable : Bool := false
  required : Bool := false
  /-- The variable whose value stands in for a missing option. -/
  standIn : Option String := none
  /-- The values that the option can take. -/
  accepts : String → Bool := fun _ => true

/-- The arguments of a command. -/
structure ArgumentForm where
  /-- The name the command is shown with. -/
  program : String
  options : List OptionForm
  /-- The inputs that can be given. -/
  acceptsInput : String → Bool := fun _ => false
  /-- The first input names a command, which the arguments after it belong to. -/
  hasCommands : Bool := false

/-- What is wrong with arguments. -/
inductive UsageError where
  | unknownOption (text : String)
  | missingValue (option : String)
  | unexpectedValue (option : String)
  | invalidValue (option value : String)
  | repeatedOption (option : String)
  | missingOption (option : String)
  | unexpectedInput (text : String)
  | unknownCommand (text : String)
  | missingCommand
deriving DecidableEq, Repr

/-- The wording of a usage error. -/
def UsageError.message : UsageError → String
  | .unknownOption text => s!"unexpected argument '{text}' found"
  | .missingValue option => s!"a value is required for '--{option}' but none was supplied"
  | .unexpectedValue option => s!"unexpected value for '--{option}' found"
  | .invalidValue option value => s!"invalid value '{value}' for '--{option}'"
  | .repeatedOption option => s!"the argument '--{option}' cannot be used multiple times"
  | .missingOption option => s!"the required argument '--{option}' was not provided"
  | .unexpectedInput text => s!"unexpected argument '{text}' found"
  | .unknownCommand text => s!"unrecognized subcommand '{text}'"
  | .missingCommand => "a subcommand is required but one was not provided"

/-- Why the reading of arguments ends early: by an error, or because a command is to show its help
    or its version. -/
inductive Interruption where
  | usage (error : UsageError)
  | help (program : String)
  | version (program : String)
deriving DecidableEq, Repr

/-- The shape of one argument. -/
inductive Argument where
  /-- `--`, which ends the options. -/
  | divider
  | long (name : String) (value : Option String)
  | shorts (letters : List Char)
  | plain (text : String)
deriving DecidableEq, Repr

/-- Splits a text at the first `=`. -/
def cutEquals : List Char → List Char × Option (List Char)
  | [] => ([], none)
  | '=' :: rest => ([], some rest)
  | c :: rest =>
    let (front, back) := cutEquals rest
    (c :: front, back)

/-- The shape of an argument; a lone dash is an input. -/
def Argument.ofText (text : String) : Argument :=
  match text.toList with
  | ['-', '-'] => .divider
  | '-' :: '-' :: rest =>
    let (name, value) := cutEquals rest
    .long (String.ofList name) (value.map String.ofList)
  | '-' :: c :: rest => .shorts (c :: rest)
  | _ => .plain text

/-- What was read of the arguments of a command. -/
structure Arguments where
  /-- Options with their values, in the order they were given. -/
  values : List (String × String) := []
  inputs : List String := []
  /-- The command, and the arguments that belong to it. -/
  command : Option (String × List String) := none
deriving DecidableEq, Repr, Inhabited

namespace Arguments

/-- The last value of an option. -/
def value? (r : Arguments) (option : String) : Option String := (r.values.reverse).lookup option

/-- All values of an option. -/
def all (r : Arguments) (option : String) : List String :=
  (r.values.filter (·.1 == option)).map (·.2)

/-- The option was given. -/
def has (r : Arguments) (option : String) : Bool := r.values.any (·.1 == option)

/-- A flag was set. -/
def flag (r : Arguments) (option : String) : Bool := r.value? option == some "true"

/-- Gives a value to an option. -/
def give (r : Arguments) (o : OptionForm) (value : String) : Except Interruption Arguments :=
  if !o.accepts value then .error (.usage (.invalidValue o.name value))
  else if r.has o.name && !o.repeatable then .error (.usage (.repeatedOption o.name))
  else .ok { r with values := r.values ++ [(o.name, value)] }

end Arguments

namespace ArgumentForm

/-- Reads options that share an argument.  The first one that takes a value takes the rest of the
    argument as its value, or else waits for one. -/
def readShorts (form : ArgumentForm) :
    List Char → Arguments → Except Interruption (Arguments × Option OptionForm)
  | [], r => .ok (r, none)
  | c :: rest, r =>
    if c = 'h' then .error (.help form.program)
    else if c = 'V' then .error (.version form.program)
    else
      match form.options.find? (·.short == some c) with
      | none => .error (.usage (.unknownOption (String.ofList ['-', c])))
      | some o =>
        if o.isFlag then do
          let r ← r.give o "true"
          readShorts form rest r
        else
          match rest with
          | [] => .ok (r, some o)
          | '=' :: value => (r.give o (String.ofList value)).map (·, none)
          | value => (r.give o (String.ofList value)).map (·, none)

/-- Reads an option by its long name; without an attached value it waits for one. -/
def readLong (form : ArgumentForm) (name : String) (value : Option String) (r : Arguments) :
    Except Interruption (Arguments × Option OptionForm) :=
  match form.options.find? (·.name == name), value with
  | some o, some v =>
    if o.isFlag then .error (.usage (.unexpectedValue name)) else (r.give o v).map (·, none)
  | some o, none => if o.isFlag then (r.give o "true").map (·, none) else .ok (r, some o)
  | none, none =>
    if name = "help" then .error (.help form.program)
    else if name = "version" then .error (.version form.program)
    else .error (.usage (.unknownOption ("--" ++ name)))
  | none, some _ => .error (.usage (.unknownOption ("--" ++ name)))

/-- Takes an input in. -/
def readInput (form : ArgumentForm) (text : String) (r : Arguments) :
    Except Interruption Arguments :=
  if form.acceptsInput text then .ok { r with inputs := r.inputs ++ [text] }
  else .error (.usage (.unexpectedInput text))

/-- Takes several inputs in. -/
def readInputs (form : ArgumentForm) : List String → Arguments → Except Interruption Arguments
  | [], r => .ok r
  | text :: rest, r =>
    match form.readInput text r with
    | .ok r => form.readInputs rest r
    | .error e => .error e

/-- Reads arguments; the option, if there is one, waits for its value. -/
def readFrom (form : ArgumentForm) :
    Option OptionForm → List String → Arguments → Except Interruption Arguments
  | some o, [], _ => .error (.usage (.missingValue o.name))
  | none, [], r => .ok r
  | some o, text :: rest, r =>
    match Argument.ofText text with
    | .plain value =>
      match r.give o value with
      | .ok r => form.readFrom none rest r
      | .error e => .error e
    | _ => .error (.usage (.missingValue o.name))
  | none, text :: rest, r =>
    match Argument.ofText text with
    | .divider => form.readInputs rest r
    | .long name value =>
      match form.readLong name value r with
      | .ok (r, waiting) => form.readFrom waiting rest r
      | .error e => .error e
    | .shorts letters =>
      match form.readShorts letters r with
      | .ok (r, waiting) => form.readFrom waiting rest r
      | .error e => .error e
    | .plain text =>
      if form.hasCommands then .ok { r with command := some (text, rest) }
      else
        match form.readInput text r with
        | .ok r => form.readFrom none rest r
        | .error e => .error e

/-- Options that are not given take their values from the environment. -/
def readVariables (environment : String → Option String) :
    List OptionForm → Arguments → Except Interruption Arguments
  | [], r => .ok r
  | o :: rest, r =>
    match o.standIn.bind environment with
    | none => readVariables environment rest r
    | some value =>
      if r.has o.name then readVariables environment rest r
      else
        match r.give o value with
        | .ok r => readVariables environment rest r
        | .error e => .error e

/-- Reads the arguments that are given. -/
def readGiven (form : ArgumentForm) (texts : List String) : Except Interruption Arguments :=
  form.readFrom none texts {}

/-- Adds what the environment tells; then no required option may be missing. -/
def complete (form : ArgumentForm) (environment : String → Option String) (given : Arguments) :
    Except Interruption Arguments := do
  let a ← readVariables environment form.options given
  match form.options.find? fun o => o.required && !a.has o.name with
  | some o => throw (.usage (.missingOption o.name))
  | none => pure a

/-! ### Facts -/

theorem readVariables_of_none (forms : List OptionForm) (a : Arguments) :
    readVariables (fun _ => none) forms a = .ok a := by
  induction forms with
  | nil => rfl
  | cons o rest ih =>
    unfold readVariables
    cases o.standIn <;> simpa using ih

theorem readInputs_inputs (form : ArgumentForm) {texts : List String} {r r' : Arguments}
    (h : form.readInputs texts r = .ok r') : r'.inputs = r.inputs ++ texts := by
  induction texts generalizing r with
  | nil =>
    injection h with h
    simp [h]
  | cons t rest ih =>
    unfold readInputs readInput at h
    split at h
    · rename_i r₁ h₁
      split at h₁
      · injection h₁ with h₁
        rw [ih h, ← h₁]
        simp
      · simp at h₁
    · simp at h

end ArgumentForm

end SymbolAtlas
