import Annals.Text.Digits
/-!
# Log levels

How much is logged. A level is given by name in any case, or by a number from zero to five.
-/

namespace Annals

/-- From nothing to everything. -/
inductive LogLevel where
  | off | error | warn | info | debug | trace
deriving DecidableEq, Repr

namespace LogLevel

/-- The levels in the order of their numbers. -/
def all : List LogLevel := [.off, .error, .warn, .info, .debug, .trace]

/-- The name of a level. -/
def label : LogLevel → String
  | .off => "off"
  | .error => "error"
  | .warn => "warn"
  | .info => "info"
  | .debug => "debug"
  | .trace => "trace"

/-- The level of a numeral, which may begin with a plus sign. -/
def ofNumeral? (cs : List Char) : Option LogLevel :=
  let digits := match cs with
    | '+' :: rest => rest
    | _ => cs
  (Text.readNat? digits).bind fun n => all[n]?

/-- The level of a name. The empty name stands for `error`. -/
def ofName? (name : String) : Option LogLevel :=
  if name.isEmpty then some .error
  else all.find? fun l => l.label.toList == name.toList.map Char.toLower

/-- The level that a text asks for; `warn` when it names none. -/
def ofText (text : String) : LogLevel :=
  match ofNumeral? text.toList with
  | some l => l
  | none => (ofName? text).getD .warn

end LogLevel

end Annals
