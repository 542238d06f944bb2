import DepSpec.Text.Numeral
import DepSpec.Text.Split

set_option autoImplicit false

/-! # Reading a command line

A command line is a sequence of operands and of options that each take a value, written
`--name value` or `--name=value`. It is read from left to right and the first thing that decides
the outcome wins: a request for help or for the version, or a mistake. Behind a lone `--`
everything is an operand, whatever it looks like.

A program says what its items mean by a function that takes them in one by one (`accept`), and
turns down those that it has no use for. -/

namespace DepSpec.CommandLine

open Text

/-- What a program is told. -/
inductive Item where
  | operand (text : String)
  | option (name value : String)
  deriving Repr, DecidableEq

/-- What becomes of a command line. -/
inductive Reading (α : Type) where
  /-- The command line is mistaken. -/
  | usage
  | help
  | version
  | accepted (value : α)
  deriving Repr, DecidableEq

/-- What an argument looks like. -/
inductive Shape where
  | operand
  /-- A lone `--`. -/
  | escape
  | long (name : List Char) (value : Option (List Char))
  /-- A dash with letters behind it, of which the first counts. -/
  | short (letter : Char)
  deriving Repr, DecidableEq

/-- What an argument looks like; a lone dash is an operand. -/
def Shape.ofChars : List Char → Shape
  | ['-', '-'] => .escape
  | '-' :: '-' :: cs =>
    match cut? (· == '=') cs with
    | some (name, value) => .long name (some value)
    | none => .long cs none
  | '-' :: c :: _ => .short c
  | _ => .operand

/-- Take in operands only. -/
def readOperands {α : Type} (accept : α → Item → Option α) (state : α) : List String → Reading α
  | [] => .accepted state
  | arg :: args =>
    match accept state (.operand arg) with
    | some state => readOperands accept state args
    | none => .usage

/-- Take in arguments; `options` are the names of the options. -/
def read {α : Type} (options : List String) (accept : α → Item → Option α) (state : α) :
    List String → Reading α
  | [] => .accepted state
  | arg :: args =>
    match Shape.ofChars arg.toList with
    | .operand =>
      match accept state (.operand arg) with
      | some state => read options accept state args
      | none => .usage
    | .escape => readOperands accept state args
    | .short letter =>
      if letter == 'h' then .help else if letter == 'V' then .version else .usage
    | .long name value =>
      let name := String.ofList name
      if options.contains name then
        match value, args with
        | some value, args =>
          match accept state (.option name (String.ofList value)) with
          | some state => read options accept state args
          | none => .usage
        | none, [] => .usage
        | none, value :: args =>
          if Shape.ofChars value.toList = .operand then
            match accept state (.option name value) with
            | some state => read options accept state args
            | none => .usage
          else .usage
      else if value.isSome then .usage
      else if name == "help" then .help
      else if name == "version" then .version
      else .usage

/-! ## Values -/

/-- Set what may be set only once. -/
def once? {α : Type} (old new : Option α) : Option (Option α) :=
  match old, new with
  | none, some value => some (some value)
  | _, _ => none

/-- A path, which is not empty. -/
def path? (text : String) : Option String := if text.isEmpty then none else some text

/-- A whole number, with or without a plus sign. -/
def number? (text : String) : Option Nat :=
  match text.toList with
  | '+' :: digits => readNat? digits
  | digits => readNat? digits

/-! ## What a program leaves -/

/-- How a program ends that does not go on serving. -/
inductive Ending where
  /-- The command line was mistaken, and the usage is explained; the exit code is 1. -/
  | usage
  /-- The help was asked for. -/
  | help
  | exit (code : Nat) (output : String)
  deriving Repr, DecidableEq

/-- The version of the programs. -/
def programVersion : String := "0.1.0"

/-- A program that was asked for its version. -/
def Ending.version (program : String) : Ending :=
  .exit 0 (program ++ " " ++ programVersion ++ "\n")

end DepSpec.CommandLine
