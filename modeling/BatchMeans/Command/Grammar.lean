/- Reading command-line arguments.

   Arguments are read from left to right; the first that does not fit decides the
   outcome. An option may be long (`--name value`, `--name=value`) or short
   (`-n value`, `-nvalue`, `-n=value`), and short switches may be run together. A
   value of its own that begins with a dash, the lone dash apart, is not a value. After `--`
   every argument is positional. -/
namespace BatchMeans.Command

/-- A text that is shown in place of running a command. -/
inductive Display where
  | help
  | version
deriving DecidableEq

/-- What a command accepts, by the long names of its options. A setter gives `none` for a bad value, or for a
    second one. -/
structure Grammar (σ : Type) where
  long? : Char → Option String
  display? : String → Option Display
  switch? : String → Option (σ → Option σ)
  valued? : String → Option (σ → String → Option σ)
  positional : σ → String → Option σ
  /-- Whether the first positional argument is the name of a command that reads the rest. -/
  hasCommands : Bool

/-- What reading comes to: the settings, and the command that was named with its own arguments. -/
inductive Reading (σ : Type) where
  | misused
  | shows (what : Display)
  | done (settings : σ) (command : Option (String × List String))

/-- What a run of short options comes to; the last may lack its value. -/
inductive ShortReading (σ : Type) where
  | misused
  | shows (what : Display)
  | done (settings : σ)
  | lacksValue (set : String → Option σ)

namespace Grammar
variable {σ : Type}

/-- A name and the value after the first equals sign. -/
def splitValue (cs : List Char) : String × Option String :=
  let (name, rest) := cs.span (· != '=')
  (String.ofList name, match rest with
    | [] => none
    | _ :: value => some (String.ofList value))

/-- A value right after a short option; an equals sign before it is dropped. -/
def attachedValue : List Char → String
  | '=' :: rest => String.ofList rest
  | cs => String.ofList cs

/-- Whether an argument can stand as the value of the option before it. -/
def isValue (arg : String) : Bool :=
  match arg.toList with
  | '-' :: _ :: _ => false
  | _ => true

/-- A run of short options. -/
def readShort (g : Grammar σ) : List Char → σ → ShortReading σ
  | [], s => .done s
  | c :: rest, s =>
    match g.long? c with
    | none => .misused
    | some name => match g.display? name with
      | some what => .shows what
      | none => match g.switch? name with
        | some f => match f s with
          | some s => readShort g rest s
          | none => .misused
        | none => match g.valued? name with
          | none => .misused
          | some set =>
            if rest.isEmpty then .lacksValue (set s)
            else match set s (attachedValue rest) with
              | some s => .done s
              | none => .misused

/-- Read the arguments; they are open as long as `--` has not been met. -/
def read (g : Grammar σ) (isOpen : Bool) : List String → σ → Reading σ
  | [], s => .done s none
  | arg :: rest, s =>
    let afterValue (set : String → Option σ) : Reading σ :=
      match rest with
      | [] => .misused
      | value :: rest =>
        if isValue value then match set value with
          | some s => read g isOpen rest s
          | none => .misused
        else .misused
    let positional : Reading σ :=
      if g.hasCommands then (if isOpen then .done s (some (arg, rest)) else .misused)
      else match g.positional s arg with
        | some s => read g isOpen rest s
        | none => .misused
    if isOpen = false then positional
    else match arg.toList with
      | ['-', '-'] => read g false rest s
      | '-' :: '-' :: body =>
        let (name, value?) := splitValue body
        match g.display? name, g.switch? name, g.valued? name, value? with
        | some what, _, _, none => .shows what
        | none, some f, _, none => match f s with
          | some s => read g isOpen rest s
          | none => .misused
        | none, none, some set, some value => match set s value with
          | some s => read g isOpen rest s
          | none => .misused
        | none, none, some set, none => afterValue (set s)
        | _, _, _, _ => .misused
      | '-' :: c :: run =>
        match g.readShort (c :: run) s with
        | .misused => .misused
        | .shows what => .shows what
        | .done s => read g isOpen rest s
        | .lacksValue set => afterValue set
      | _ => positional

end Grammar
end BatchMeans.Command
