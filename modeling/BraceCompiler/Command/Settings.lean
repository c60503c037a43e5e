/-! The arguments of the command line. -/

namespace BraceCompiler.Command

/-- Which result of the work is written. -/
inductive Stage where
  | code
  | tokens
  | tree
  deriving DecidableEq, Repr

def Stage.ofName? : String → Option Stage
  | "code" => some .code
  | "tokens" => some .tokens
  | "ast" => some .tree
  | _ => none

/-- How notices are shown. -/
inductive NoticeFormat where
  | human
  | json
  deriving DecidableEq, Repr

def NoticeFormat.ofName? : String → Option NoticeFormat
  | "human" => some .human
  | "json" => some .json
  | _ => none

structure Settings where
  input : String
  output : Option String
  emit : Stage
  denyWarnings : Bool
  quiet : Bool
  format : NoticeFormat
  deriving DecidableEq, Repr

/-- Why the arguments give no settings. -/
inductive UsageStop where
  | missingInput
  | invalidValue
  | unknownArgument
  | repeatedOption
  | unwantedValue
  | helpAsked
  | versionAsked
  deriving DecidableEq, Repr

/-- What takes a value: the options that need one, and the input itself. -/
inductive Slot where
  | input
  | output
  | emit
  | format
  deriving DecidableEq, Repr

inductive Switch where
  | denyWarnings
  | quiet
  | help
  | version
  deriving DecidableEq, Repr

/-- A name of an option means a slot or a switch. -/
abbrev Meaning := Slot ⊕ Switch

def longName? : String → Option Meaning
  | "output" => some (.inl .output)
  | "emit" => some (.inl .emit)
  | "diagnostics" => some (.inl .format)
  | "deny-warnings" => some (.inr .denyWarnings)
  | "quiet" => some (.inr .quiet)
  | "help" => some (.inr .help)
  | "version" => some (.inr .version)
  | _ => none

def shortName? : Char → Option Meaning
  | 'o' => some (.inl .output)
  | 'q' => some (.inr .quiet)
  | 'h' => some (.inr .help)
  | 'V' => some (.inr .version)
  | _ => none

/-- The settings as far as they are known. `open?` is the slot named last, with its value once that
has been seen: it is looked into only when a later argument has been understood, so an argument that
is not understood goes first. -/
structure Draft where
  input : Option String
  output : Option String
  emit : Option Stage
  format : Option NoticeFormat
  denyWarnings : Bool
  quiet : Bool
  open? : Option (Slot × Option String)

namespace Draft

def blank : Draft := ⟨none, none, none, none, false, false, none⟩

def isFilled (draft : Draft) : Slot → Bool
  | .input => draft.input.isSome
  | .output => draft.output.isSome
  | .emit => draft.emit.isSome
  | .format => draft.format.isSome

def path? (value : String) : Except UsageStop String :=
  if value.isEmpty then .error .invalidValue else .ok value

/-- Fills a slot: there has to be a value, the slot has to be free, and the value has to suit it, in
this order. -/
def fill (draft : Draft) (slot : Slot) (value : Option String) : Except UsageStop Draft := do
  let some value := value | .error .invalidValue
  if draft.isFilled slot then .error .repeatedOption
  match slot with
  | .input => return { draft with input := some (← path? value) }
  | .output => return { draft with output := some (← path? value) }
  | .emit =>
    let some stage := Stage.ofName? value | .error .invalidValue
    return { draft with emit := some stage }
  | .format =>
    let some format := NoticeFormat.ofName? value | .error .invalidValue
    return { draft with format := some format }

/-- Looks into the open slot. -/
def settle (draft : Draft) : Except UsageStop Draft :=
  match draft.open? with
  | none => .ok draft
  | some (slot, value) => { draft with open? := none }.fill slot value

def turnOn (draft : Draft) (switch : Switch) : Except UsageStop Draft := do
  let draft ← draft.settle
  match switch with
  | .help => .error .helpAsked
  | .version => .error .versionAsked
  | .quiet =>
    if draft.quiet then .error .repeatedOption else return { draft with quiet := true }
  | .denyWarnings =>
    if draft.denyWarnings then .error .repeatedOption
    else return { draft with denyWarnings := true }

/-- Names a slot whose value may come as the next argument. -/
def openSlot (draft : Draft) (slot : Slot) : Except UsageStop Draft := do
  return { ← draft.settle with open? := some (slot, none) }

/-- Names a slot together with its value. -/
def attach (draft : Draft) (slot : Slot) (value : String) : Except UsageStop Draft := do
  (← draft.settle).fill slot (some value)

/-- An argument that is no option: there is one place for it. -/
def positional (draft : Draft) (value : String) : Except UsageStop Draft := do
  if draft.input.isSome || draft.open?.any (·.1 == .input) then .error .unknownArgument
  return { ← draft.settle with open? := some (.input, some value) }

/-- An argument that does not look like an option is the value of the open slot, if that waits for
one. -/
def plain (draft : Draft) (value : String) : Except UsageStop Draft :=
  match draft.open? with
  | some (slot, none) => .ok { draft with open? := some (slot, some value) }
  | _ => draft.positional value

/-- An option by its long name, which an equals sign may divide from its value. -/
def long (draft : Draft) (text : List Char) : Except UsageStop Draft :=
  let name := String.ofList (text.takeWhile (· != '='))
  match longName? name, text.dropWhile (· != '=') with
  | none, _ => .error .unknownArgument
  | some (.inl slot), [] => draft.openSlot slot
  | some (.inl slot), _ :: value => draft.attach slot (String.ofList value)
  | some (.inr switch), [] => draft.turnOn switch
  | some (.inr _), _ :: _ => .error .unwantedValue

/-- Options by their short names, run together. What follows the name of a slot is its value, with
or without an equals sign. -/
def short (draft : Draft) : List Char → Except UsageStop Draft
  | [] => .ok draft
  | c :: rest =>
    match shortName? c, rest with
    | none, _ => .error .unknownArgument
    | some (.inr switch), _ => do short (← draft.turnOn switch) rest
    | some (.inl slot), [] => draft.openSlot slot
    | some (.inl slot), '=' :: value => draft.attach slot (String.ofList value)
    | some (.inl slot), value => draft.attach slot (String.ofList value)

/-- Reads the arguments from left to right; after two dashes alone, none of them is an option. -/
def read (draft : Draft) : (literal : Bool) → List String → Except UsageStop Draft
  | _, [] => draft.settle
  | true, argument :: rest => do read (← draft.positional argument) true rest
  | false, argument :: rest =>
    match argument.toList with
    | '-' :: '-' :: [] => read draft true rest
    | '-' :: '-' :: text => do read (← draft.long text) false rest
    | '-' :: c :: text => do read (← draft.short (c :: text)) false rest
    | _ => do read (← draft.plain argument) false rest

end Draft

/-- The settings that the arguments give. That the input is missing is noticed last. -/
def Settings.ofArguments (arguments : List String) : Except UsageStop Settings := do
  let draft ← Draft.blank.read false arguments
  let some input := draft.input | .error .missingInput
  return ⟨input, draft.output, draft.emit.getD .code, draft.denyWarnings, draft.quiet,
    draft.format.getD .human⟩

end BraceCompiler.Command
