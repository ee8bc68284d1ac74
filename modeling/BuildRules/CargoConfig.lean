import BuildRules.Policy

namespace BuildRules.CargoConfig

def isBareChar (c : Char) : Bool := c.isAlphanum || c == '_' || c == '-'

/-- A name that needs no quotes: letters, digits, underscores and hyphens, at least one. One
line feed at the end is passed over. -/
def isBare (name : List Char) : Bool :=
  let core := if name.getLast? == some '\n' then name.dropLast else name
  !core.isEmpty && core.all isBareChar

def key (name : String) : String := if isBare name.toList then name else Json.quoted name

def array (values : List String) : String :=
  "[" ++ ", ".intercalate (values.map Json.quoted) ++ "]"

def aliasLine (entry : Alias) : String :=
  key entry.name ++ " = " ++ array (entry.tokens.map Token.text)

def sourceLines (vendor : VendorPolicy) : List String :=
  if vendor.enabled then
    ["[source." ++ key vendor.sourceName ++ "]", "directory = " ++ Json.quoted vendor.path, ""]
  else []

def flagLines (pairs : List (String × String)) : List String :=
  if pairs.isEmpty then []
  else
    ["[build]", "rustflags = ["] ++
    pairs.map (fun pair => "    " ++ Json.quoted pair.1 ++ ", " ++ Json.quoted pair.2 ++ ",") ++
    ["]", ""]

def render (policy : Policy) : String :=
  "\n".intercalate
    (["[alias]"] ++ policy.aliases.aliases.map aliasLine ++ [""] ++ sourceLines policy.vendor ++
      flagLines policy.lints.flagPairs)

end BuildRules.CargoConfig
