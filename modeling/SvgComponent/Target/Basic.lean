/-!
# Targets

A target is the dialect in which components are written. Every target has a name
(`Target.name`), by which `ofName?` finds it; a name of no target is a fault that lists those there
are.
-/

namespace SvgComponent

/-- The dialects. -/
inductive Target where
  | reactDom
  | preact
  | reactNative
  | custom
  deriving DecidableEq, Repr

namespace Target

/-- All targets, in the order in which messages list them. -/
def all : List Target := [reactDom, preact, reactNative, custom]

/-- The name that configurations and the command line use. -/
def name : Target → String
  | reactDom => "react-dom"
  | preact => "preact"
  | reactNative => "react-native-svg"
  | custom => "custom"

/-- The target with a name. -/
def ofName? (name : String) : Option Target :=
  all.find? (·.name = name)

/-- The wording for a name of no target. -/
def unknownMessage (name : String) : String :=
  let valid := ", ".intercalate (all.map Target.name)
  s!"Target \"{name}\" is not valid. Use one of the following: {valid}."

end Target

end SvgComponent
