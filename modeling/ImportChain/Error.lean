/-
ImportChain.Error — what can go wrong, each cause with its code and text.

`FactoryError` is the failure of one request; only a request that could
not be resolved is worth reporting and carrying on. `Error` is any other
failure, of rules and configuration among them.
-/

namespace ImportChain

/-! ## One request -/

/-- A loader or resource that could not be resolved. -/
structure ResolutionError where
  /-- What was to be resolved. -/
  request : String
  /-- The directory it was resolved from. -/
  context : String
  message : String
  deriving Repr, DecidableEq, Inhabited

def ResolutionError.text (e : ResolutionError) : String :=
  "Can't resolve '" ++ e.request ++ "' in '" ++ e.context ++ "': " ++ e.message

/-- An error of a tap. -/
structure HookError where
  /-- The hook that was called. -/
  hook : String
  /-- The tap that failed. -/
  tap : String
  message : String
  deriving Repr, DecidableEq, Inhabited

namespace HookError

/-- The error with the place filled in where it is missing. -/
def located (e : HookError) (hook tap : String) : HookError :=
  { e with
    hook := if e.hook = "" then hook else e.hook
    tap := if e.tap = "" then tap else e.tap }

def text (e : HookError) : String := "[" ++ e.tap ++ "] " ++ e.hook ++ ": " ++ e.message

end HookError

/-- What a module needs besides its loaders. -/
inductive Capability where
  | parser
  | generator
  deriving Repr, DecidableEq, Inhabited

def Capability.text : Capability → String
  | .parser => "parser"
  | .generator => "generator"

/-- The failure of one request. -/
inductive FactoryError where
  | resolution (error : ResolutionError)
  /-- No rule registered options under this identity. -/
  | optionLookup (ident : String)
  | emptyDependency
  | unregistered (capability : Capability) (moduleType : String)
  /-- Options that are neither text nor an object. -/
  | malformedOptions (loader found : String)
  | hook (error : HookError)
  deriving Repr, DecidableEq, Inhabited

namespace FactoryError

def code : FactoryError → String
  | .resolution _ => "MODULE_RESOLUTION_FAILED"
  | .optionLookup _ => "MODULE_OPTIONS_NOT_FOUND"
  | .emptyDependency => "MODULE_EMPTY_DEPENDENCY"
  | .unregistered _ _ => "MODULE_CAPABILITY_UNREGISTERED"
  | .malformedOptions _ _ => "MODULE_OPTIONS_MALFORMED"
  | .hook _ => "MODULE_HOOK_FAILED"

def text : FactoryError → String
  | .resolution e => e.text
  | .optionLookup ident => "Can't find options with ident '" ++ ident ++ "'"
  | .emptyDependency => "Empty dependency (no request)"
  | .unregistered capability moduleType =>
    "No " ++ capability.text ++ " registered for " ++ moduleType
  | .malformedOptions loader found =>
    "Loader options must be string or object (loader '" ++ loader ++ "' got " ++ found ++ ")"
  | .hook e => e.text

/-- Whether the failure concerns this request alone. -/
def isRecoverable : FactoryError → Bool
  | .resolution _ => true
  | _ => false

end FactoryError

/-! ## Everything else -/

/-- A defect of a rule. -/
inductive RuleError where
  /-- A condition's regular expression is none. -/
  | condition (pattern message : String)
  /-- The rule at this position cannot be used. -/
  | rule (ident message : String)
  deriving Repr, DecidableEq, Inhabited

namespace RuleError

def code : RuleError → String
  | .condition _ _ => "RULE_CONDITION_INVALID"
  | .rule _ _ => "RULE_INVALID"

def text : RuleError → String
  | .condition pattern message => "Invalid rule condition '" ++ pattern ++ "': " ++ message
  | .rule ident message => "Invalid rule '" ++ ident ++ "': " ++ message

end RuleError

/-- A failure outside a single request, or of one. -/
inductive Error where
  | io (message : String)
  | configRead (path message : String)
  | configParse (path message : String)
  | rule (error : RuleError)
  | factory (error : FactoryError)
  | other (message : String)
  deriving Repr, DecidableEq, Inhabited

namespace Error

def code : Error → String
  | .io _ => "IO_ERROR"
  | .configRead _ _ => "CONFIG_READ_FAILED"
  | .configParse _ _ => "CONFIG_PARSE_FAILED"
  | .rule e => e.code
  | .factory e => e.code
  | .other _ => "INTERNAL_ERROR"

def text : Error → String
  | .io message => "IO error: " ++ message
  | .configRead path message => "Failed to read config at " ++ path ++ ": " ++ message
  | .configParse path message => "Failed to parse config at " ++ path ++ ": " ++ message
  | .rule e => e.text
  | .factory e => e.text
  | .other message => message

end Error

end ImportChain
